import Mathlib.Algebra.Order.Ring.Nat
import VaidSuite.Lib.JsonWriter

/-! Numbers by their parts: how they are spelled, that the spelling is read as one number,
and which decimal it denotes. -/
namespace JsonText

/-- A natural number in decimal. -/
def natText (n : Nat) : Text := (Nat.toDigits 10 n).map Char.toNat

theorem isDigit_toNat {c : Char} (h : c.isDigit = true) : isDigit c.toNat = true := by
  simp only [Char.isDigit, Bool.and_eq_true, decide_eq_true_eq] at h
  obtain ⟨low, high⟩ := h
  simp only [isDigit, Bool.and_eq_true, decide_eq_true_eq]
  exact ⟨low, high⟩

theorem natText_digits (n : Nat) : ∀ c ∈ natText n, isDigit c = true := by
  intro c member
  obtain ⟨d, taken, rfl⟩ := List.mem_map.mp member
  exact isDigit_toNat (Nat.isDigit_of_mem_toDigits (by decide) (by decide) taken)

theorem natText_ne_nil (n : Nat) : natText n ≠ [] := by
  simp [natText, Nat.toDigits_ne_nil]

theorem natText_leads {n : Nat} (h : n ≠ 0) : ∃ c ds, natText n = c :: ds ∧ c ≠ 0x30 := by
  induction n using Nat.strongRecOn with
  | ind n ih =>
    unfold natText
    rw [Nat.toDigits_eq_if (by decide)]
    split_ifs with small
    · refine ⟨_, [], rfl, ?_⟩
      have others : ∀ m < 10, m ≠ 0 → (Nat.digitChar m).toNat ≠ 0x30 := by decide
      exact others n small h
    · obtain ⟨c, ds, leads, other⟩ := ih (n / 10) (by omega) (by omega)
      rw [natText] at leads
      refine ⟨c, ds ++ [(n % 10).digitChar.toNat], ?_, other⟩
      rw [List.map_append, leads]
      rfl

theorem natOf_append (s t : Text) :
    natOf (s ++ t) = t.foldl (fun n d => 10 * n + (d - 0x30)) (natOf s) := by
  rw [natOf, List.foldl_append]
  rfl

theorem natOf_natText (n : Nat) : natOf (natText n) = n := by
  rw [natOf, natText, List.foldl_map]
  exact Nat.ofDigitChars_ten_toDigits

theorem natOf_zeros (k : Nat) (ds : Text) : natOf (List.replicate k 0x30 ++ ds) = natOf ds := by
  induction k with
  | zero => rfl
  | succ k ih => exact ih

theorem natOf_append_zeros (ds : Text) (k : Nat) :
    natOf (ds ++ List.replicate k 0x30) = natOf ds * 10 ^ k := by
  rw [natOf_append]
  induction k with
  | zero => simp
  | succ k ih =>
    rw [List.replicate_succ', List.foldl_append, ih, Nat.pow_succ, ← Nat.mul_assoc, Nat.mul_comm _ 10]
    rfl

structure Numeral where
  negative : Bool
  whole : Text
  fraction : Text
  /-- The sign and the digits of the exponent. -/
  exponent : Option (Nat × Text)

namespace Numeral

def fractionText (n : Numeral) : Text := if n.fraction.isEmpty then [] else 0x2e :: n.fraction

def exponentText (n : Numeral) : Text :=
  match n.exponent with
  | none => []
  | some (sign, ds) => 0x65 :: sign :: ds

def unsignedText (n : Numeral) : Text := n.whole ++ (n.fractionText ++ n.exponentText)

def text (n : Numeral) : Text := if n.negative then 0x2d :: n.unsignedText else n.unsignedText

/-- What each part is made of. The whole part has no leading zero. -/
structure WellFormed (n : Numeral) : Prop where
  whole : ∃ c ds, n.whole = c :: ds ∧ isDigit c = true ∧ (c = 0x30 → ds = []) ∧ ∀ d ∈ ds, isDigit d = true
  fraction : ∀ d ∈ n.fraction, isDigit d = true
  exponent : ∀ e ∈ n.exponent, (e.1 = 0x2b ∨ e.1 = 0x2d) ∧ e.2 ≠ [] ∧ ∀ d ∈ e.2, isDigit d = true

end Numeral

def NoDigit (rest : Text) : Prop := ∀ c ∈ rest.head?, isDigit c = false

theorem Ends.noDigit {rest : Text} (h : Ends rest) : NoDigit rest := by
  intro c member
  have other := h c member
  rw [isNumeral, Bool.or_eq_false_iff] at other
  exact other.1

theorem digits_eq_append {ds rest : Text} (all : ∀ d ∈ ds, isDigit d = true) (ends : NoDigit rest) :
    digits (ds ++ rest) = (ds, rest) := by
  rw [digits, List.takeWhile_append_of_pos all, List.dropWhile_append_of_pos all]
  cases rest with
  | nil => rw [List.takeWhile_nil, List.dropWhile_nil, List.append_nil]
  | cons c rest =>
    have other : ¬ isDigit c = true := by simpa using ends c rfl
    rw [List.takeWhile_cons_of_neg other, List.dropWhile_cons_of_neg other, List.append_nil]

theorem digitsAfter_eq_append {lead ds rest : Text} (some_ : ds ≠ []) (all : ∀ d ∈ ds, isDigit d = true)
    (ends : NoDigit rest) : digitsAfter lead (ds ++ rest) = (lead ++ ds, rest) := by
  rw [digitsAfter, digits_eq_append all ends]
  cases ds with
  | nil => exact absurd rfl some_
  | cons d ds => rfl

namespace Numeral

variable {n : Numeral} (well : n.WellFormed) {rest : Text}

theorem fractionPart_of_ends (ends : Ends rest) : fractionPart rest = ([], rest) := by
  cases rest with
  | nil => rfl
  | cons c rest =>
    have other : c ≠ 0x2e := by
      rintro rfl
      exact absurd (ends 0x2e rfl) (by decide)
    rw [fractionPart_cons, if_neg other]

theorem exponentPart_of_ends (ends : Ends rest) : exponentPart rest = ([], rest) := by
  cases rest with
  | nil => rfl
  | cons c rest =>
    have other : ¬ (c = 0x65 ∨ c = 0x45) := by
      rintro (rfl | rfl)
      · exact absurd (ends 0x65 rfl) (by decide)
      · exact absurd (ends 0x45 rfl) (by decide)
    rw [exponentPart_cons, if_neg other]

include well

theorem exponentPart_text (ends : Ends rest) :
    exponentPart (n.exponentText ++ rest) = (n.exponentText, rest) := by
  unfold exponentText
  cases parts : n.exponent with
  | none => exact exponentPart_of_ends ends
  | some e =>
    obtain ⟨signs, some_, all⟩ := well.exponent e parts
    obtain ⟨sign, ds⟩ := e
    dsimp only at signs some_ all ⊢
    rw [List.cons_append, List.cons_append, exponentPart_cons, if_pos (.inl rfl), exponentDigits,
      if_pos signs, digitsAfter_eq_append some_ all ends.noDigit]
    rfl

omit well in
theorem noDigit_exponentText (ends : Ends rest) : NoDigit (n.exponentText ++ rest) := by
  unfold exponentText
  cases parts : n.exponent with
  | none => exact ends.noDigit
  | some e =>
    intro c member
    rw [List.cons_append, List.head?_cons, Option.mem_some_iff] at member
    rw [← member]
    rfl

theorem fractionPart_text (ends : Ends rest) : fractionPart (n.fractionText ++ (n.exponentText ++ rest)) =
    (n.fractionText, n.exponentText ++ rest) := by
  unfold fractionText
  cases parts : n.fraction with
  | nil =>
    simp only [List.isEmpty_nil, if_true, List.nil_append]
    unfold exponentText
    cases n.exponent with
    | none => exact fractionPart_of_ends ends
    | some e => exact fractionPart_cons 0x65 _
  | cons d ds =>
    have all := well.fraction
    rw [parts] at all
    simp only [List.isEmpty_cons, Bool.false_eq_true, if_false]
    rw [List.cons_append, fractionPart_cons, if_pos rfl,
      digitsAfter_eq_append (List.cons_ne_nil d ds) all (noDigit_exponentText ends)]
    rfl

omit well in
theorem noDigit_fractionText (ends : Ends rest) :
    NoDigit (n.fractionText ++ (n.exponentText ++ rest)) := by
  unfold fractionText
  split_ifs
  · exact noDigit_exponentText ends
  · intro c member
    rw [List.cons_append, List.head?_cons, Option.mem_some_iff] at member
    rw [← member]
    rfl

theorem unsigned_text (ends : Ends rest) : unsigned (n.unsignedText ++ rest) = some (n.unsignedText, rest) := by
  obtain ⟨c, ds, whole, digit, lone, all⟩ := well.whole
  have parts : n.unsignedText ++ rest = c :: (ds ++ (n.fractionText ++ (n.exponentText ++ rest))) := by
    rw [unsignedText, whole, List.append_assoc, List.append_assoc]
    rfl
  have taken : (if c = 0x30 then ([c], ds ++ (n.fractionText ++ (n.exponentText ++ rest)))
      else Prod.map (fun ds => c :: ds) id (digits (ds ++ (n.fractionText ++ (n.exponentText ++ rest))))) =
      (c :: ds, n.fractionText ++ (n.exponentText ++ rest)) := by
    split_ifs with zero
    · rw [lone zero, List.nil_append]
    · rw [digits_eq_append all (noDigit_fractionText ends)]
      rfl
  rw [parts, unsigned, digit]
  dsimp only [Bool.not_true, Bool.false_eq_true, if_false]
  rw [if_neg (by decide), taken]
  dsimp only
  rw [fractionPart_text well ends]
  dsimp only
  rw [exponentPart_text well ends, unsignedText, whole, List.append_assoc]

omit well in
theorem nonFinite_digit {c : Nat} (digit : isDigit c = true) (t : Text) :
    nonFinite.find? (fun w => w.isPrefixOf (c :: t)) = none ∧
      nonFinite.find? (fun w => w.isPrefixOf (0x2d :: c :: t)) = none := by
  have bounds : 0x30 ≤ c ∧ c ≤ 0x39 := by simpa [isDigit] using digit
  have words : nonFinite = [[78, 97, 78], [73, 110, 102, 105, 110, 105, 116, 121],
    [45, 73, 110, 102, 105, 110, 105, 116, 121]] := rfl
  have letters : 78 ≠ c ∧ 73 ≠ c ∧ 45 ≠ c := by omega
  simp [words, List.isPrefixOf, letters]

theorem numberSpelled : NumberSpelled n.text := by
  obtain ⟨c, ds, whole, digit, _, _⟩ := well.whole
  have parts : n.unsignedText = c :: (ds ++ (n.fractionText ++ n.exponentText)) := by
    rw [unsignedText, whole]
    rfl
  constructor
  · unfold text
    split_ifs
    · exact ⟨_, _, rfl, .inl rfl⟩
    · exact ⟨c, _, parts, .inr digit⟩
  · intro rest ends
    have reads := unsigned_text well ends
    have notMinus : c ≠ 0x2d := by
      rintro rfl
      exact absurd digit (by decide)
    rw [number_eq]
    unfold text
    split_ifs
    · rw [parts] at reads ⊢
      rw [List.cons_append, List.cons_append, (nonFinite_digit digit _).2]
      dsimp only
      rw [List.cons_append] at reads
      rw [signed, if_pos rfl, reads]
      rfl
    · rw [parts] at reads ⊢
      rw [List.cons_append, (nonFinite_digit digit _).1]
      dsimp only
      rw [List.cons_append] at reads
      rw [signed, if_neg notMinus, reads]

omit well in
def power (n : Numeral) : Int :=
  match n.exponent with
  | none => 0
  | some (sign, ds) => if sign = 0x2d then -natOf ds else natOf ds

theorem exponentOf_text : exponentOf n.exponentText = n.power := by
  unfold exponentText power
  cases parts : n.exponent with
  | none => rfl
  | some e =>
    obtain ⟨signs, _, _⟩ := well.exponent e parts
    obtain ⟨sign, ds⟩ := e
    rcases signs with rfl | rfl <;> rfl

theorem decimal_text : decimal n.text =
    ⟨n.negative, natOf (n.whole ++ n.fraction), n.power - n.fraction.length⟩ := by
  obtain ⟨c, ds, whole, digit, _, all⟩ := well.whole
  have none_ : Ends [] := by simp [Ends]
  have sign : decide (n.text.head? = some 0x2d) = n.negative ∧
      (if n.text.head? = some 0x2d then n.text.tail else n.text) = n.unsignedText := by
    have notMinus : c ≠ 0x2d := by
      rintro rfl
      exact absurd digit (by decide)
    unfold text
    cases n.negative <;> simp [unsignedText, whole, notMinus]
  have taken : digits n.unsignedText = (n.whole, n.fractionText ++ n.exponentText) := by
    have ends := noDigit_fractionText (n := n) none_
    rw [List.append_nil] at ends
    refine digits_eq_append (fun d member => ?_) ends
    rw [whole] at member
    rcases List.mem_cons.mp member with rfl | member
    · exact digit
    · exact all d member
  have ends := noDigit_exponentText (n := n) none_
  rw [List.append_nil] at ends
  rw [decimal, sign.1, sign.2, taken]
  dsimp only
  cases parts : n.fraction with
  | nil =>
    have behindPoint : n.fractionText ++ n.exponentText = n.exponentText := by
      simp [fractionText, parts]
    rw [behindPoint, ← exponentOf_text well]
    unfold exponentText
    cases n.exponent <;> rfl
  | cons d fraction =>
    have point : n.fractionText ++ n.exponentText = 0x2e :: (d :: fraction ++ n.exponentText) := by
      simp [fractionText, parts]
    have digits_ := well.fraction
    rw [parts] at digits_
    rw [point, ← exponentOf_text well]
    simp only [digits_eq_append digits_ ends]

end Numeral

theorem Numeral.standard_text {n : Numeral} (h : n.WellFormed) : (Tree.num n.text).standard = true := by
  obtain ⟨c, ds, whole, digit, _⟩ := h.whole
  have range : 0x30 ≤ c ∧ c ≤ 0x39 := by simpa [isDigit] using digit
  have notN : c ≠ 0x4e := by omega
  have notI : c ≠ 0x49 := by omega
  have notMinus : c ≠ 0x2d := by omega
  unfold Tree.standard nonFinite text unsignedText
  rw [whole]
  cases n.negative <;> simp [codes, notN, notI, notMinus]

end JsonText
