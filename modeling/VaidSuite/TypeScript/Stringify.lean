import Mathlib.Data.List.Sort
import VaidSuite.FromJson
import VaidSuite.Lib.JsonNumeral
import VaidSuite.Lib.ShortestDecimal
import VaidSuite.TypeScript.Value

/-! `JSON.stringify` of what a parsed document is made of: numbers, strings and values, and
that the texts of numbers and strings are read back. -/
namespace VaidSuite.TypeScript

open JsonText (Numeral NumberSpelled Spelled natText)

def exponentParts (z : Int) : Nat × JsonText.Text := (if z < 0 then 0x2d else 0x2b, natText z.natAbs)

/-- The parts of the string of a finite number other than zero. Its shortest digits are
written out where the point is near them, and otherwise with an exponent. -/
def numeralOf (b : Binary64.Bits) : Numeral :=
  let exponent := (Binary64.shortest b).2
  let ds := natText (Binary64.shortest b).1
  let n : Int := ds.length + exponent
  if 0 ≤ exponent ∧ n ≤ 21 then
    ⟨Binary64.negative b, ds ++ List.replicate exponent.toNat 0x30, [], none⟩
  else if 0 < n ∧ n ≤ 21 then ⟨Binary64.negative b, ds.take n.toNat, ds.drop n.toNat, none⟩
  else if -6 < n ∧ n ≤ 0 then
    ⟨Binary64.negative b, [0x30], List.replicate (-n).toNat 0x30 ++ ds, none⟩
  else
    ⟨Binary64.negative b, ds.take 1, ds.drop 1, some (exponentParts (n - 1))⟩

/-- The string of a finite number. Both zeros are `0`. -/
def numberText (b : Binary64.Bits) : JsonText.Text :=
  if Binary64.isZero b then [0x30] else (numeralOf b).text

theorem shortest_ne_zero {b : Binary64.Bits} (finite : Binary64.isFinite b = true)
    (h : Binary64.isZero b = false) : (Binary64.shortest b).1 ≠ 0 := by
  intro zero
  have reads := Binary64.shortest_nearest finite (Binary64.significand_ne_zero h)
  rw [Binary64.Decimal.nearest, zero, Nat.zero_mul, Binary64.nearest, if_pos rfl] at reads
  have low : b.toNat % 2 ^ 63 ≠ 0 := by simpa [Binary64.isZero] using h
  have size : b.toNat % 2 ^ 63 < 2 ^ 64 := by omega
  have bits := congrArg BitVec.toNat reads
  rw [Binary64.magnitude, BitVec.toNat_ofNat, Nat.mod_eq_of_lt size] at bits
  exact low bits.symm

theorem numeralOf_wellFormed {b : Binary64.Bits} (finite : Binary64.isFinite b = true)
    (h : Binary64.isZero b = false) : (numeralOf b).WellFormed := by
  obtain ⟨c, ds, spelled, leads⟩ := JsonText.natText_leads (shortest_ne_zero finite h)
  have all := JsonText.natText_digits (Binary64.shortest b).1
  have digit : JsonText.isDigit c = true := all c (by rw [spelled]; exact List.mem_cons_self)
  have others : ∀ d ∈ ds, JsonText.isDigit d = true :=
    fun d member => all d (by rw [spelled]; exact List.mem_cons_of_mem _ member)
  have zeros : ∀ k, ∀ d ∈ List.replicate k 0x30, JsonText.isDigit d = true := by
    intro k d member
    rw [(List.mem_replicate.mp member).2]
    rfl
  unfold numeralOf
  dsimp only
  rw [spelled]
  split_ifs with plain pointed small
  · refine ⟨⟨c, _, rfl, digit, fun zero => absurd zero leads, fun d member => ?_⟩, by simp, by simp⟩
    rcases List.mem_append.mp member with member | member
    · exact others d member
    · exact zeros _ d member
  · obtain ⟨k, places⟩ : ∃ k : Nat, ((c :: ds).length + (Binary64.shortest b).2).toNat = k + 1 :=
      ⟨((c :: ds).length + (Binary64.shortest b).2).toNat - 1, by omega⟩
    rw [places]
    exact ⟨⟨c, ds.take k, rfl, digit, fun zero => absurd zero leads,
      fun d member => others d (List.mem_of_mem_take member)⟩,
      fun d member => others d (List.mem_of_mem_drop member), by simp⟩
  · refine ⟨⟨0x30, [], rfl, rfl, fun _ => rfl, by simp⟩, fun d member => ?_, by simp⟩
    rcases List.mem_append.mp member with member | member
    · exact zeros _ d member
    · exact all d (by rw [spelled]; exact member)
  · refine ⟨⟨c, [], rfl, digit, fun _ => rfl, by simp⟩, others, fun e member => ?_⟩
    cases Option.mem_some_iff.mp member
    refine ⟨?_, JsonText.natText_ne_nil _, JsonText.natText_digits _⟩
    unfold exponentParts
    dsimp only
    split_ifs
    · exact .inr rfl
    · exact .inl rfl

theorem power_exponentParts (sign : Bool) (whole fraction : JsonText.Text) (z : Int) :
    (⟨sign, whole, fraction, some (exponentParts z)⟩ : Numeral).power = z := by
  unfold Numeral.power exponentParts
  dsimp only
  rw [JsonText.natOf_natText]
  split_ifs <;> omega

theorem ofDecimal_mul (negative : Bool) (digits : Nat) {exponent : Int} (h : 0 ≤ exponent) :
    Binary64.ofDecimal negative (digits * 10 ^ exponent.toNat) 0 =
      Binary64.ofDecimal negative digits exponent := by
  have whole : (-exponent).toNat = 0 := Int.toNat_of_nonpos (by omega)
  simp only [Binary64.ofDecimal, whole, Int.toNat_zero, neg_zero, pow_zero, Nat.mul_one]

theorem ofDecimal_numeralOf (b : Binary64.Bits) : Binary64.ofDecimal (numeralOf b).negative
    (JsonText.natOf ((numeralOf b).whole ++ (numeralOf b).fraction))
    ((numeralOf b).power - (numeralOf b).fraction.length) =
      Binary64.ofDecimal (Binary64.negative b) (Binary64.shortest b).1 (Binary64.shortest b).2 := by
  have value := JsonText.natOf_natText (Binary64.shortest b).1
  have some_ := List.length_pos_iff.mpr (JsonText.natText_ne_nil (Binary64.shortest b).1)
  unfold numeralOf
  dsimp only
  generalize natText (Binary64.shortest b).1 = ds at value some_
  generalize (Binary64.shortest b).2 = exponent
  split_ifs with plain pointed small
  · dsimp only
    rw [List.append_nil, JsonText.natOf_append_zeros, value]
    exact ofDecimal_mul _ _ plain.1
  · dsimp only
    rw [List.take_append_drop, value, List.length_drop]
    congr 1
    unfold Numeral.power
    dsimp only
    omega
  · dsimp only
    rw [List.singleton_append, ← List.cons_append, ← List.replicate_succ, JsonText.natOf_zeros, value,
      List.length_append, List.length_replicate]
    congr 1
    unfold Numeral.power
    dsimp only
    omega
  · rw [power_exponentParts]
    dsimp only
    rw [List.take_append_drop, value, List.length_drop]
    congr 1
    omega

theorem numberOf_numberText {b : Binary64.Bits} (finite : Binary64.isFinite b = true) :
    numberOf (numberText b) = if Binary64.isZero b then 0 else b := by
  unfold numberText
  split_ifs with zero
  · rfl
  · have other : Binary64.isZero b = false := by simpa using zero
    unfold numberOf
    rw [Numeral.decimal_text (numeralOf_wellFormed finite other)]
    dsimp only
    rw [ofDecimal_numeralOf, Binary64.ofDecimal_shortest finite other]

theorem numberText_spelled {b : Binary64.Bits} (finite : Binary64.isFinite b = true) :
    NumberSpelled (numberText b) := by
  unfold numberText
  split_ifs with zero
  · exact Numeral.numberSpelled (n := ⟨false, [0x30], [], none⟩)
      ⟨⟨0x30, [], rfl, rfl, fun _ => rfl, by simp⟩, by simp, by simp⟩
  · exact Numeral.numberSpelled (numeralOf_wellFormed finite (by simpa using zero))

def hexDigit (d : Nat) : Nat := if d < 10 then 0x30 + d else 0x57 + d

def unicodeEscape (c : Nat) : JsonText.Text :=
  [0x5c, 0x75, hexDigit (c / 0x1000), hexDigit (c / 0x100 % 0x10), hexDigit (c / 0x10 % 0x10),
    hexDigit (c % 0x10)]

def controlEscapes : List (Nat × Nat) :=
  [(0x08, 0x62), (0x09, 0x74), (0x0a, 0x6e), (0x0c, 0x66), (0x0d, 0x72), (0x22, 0x22), (0x5c, 0x5c)]

/-- A code unit that is no surrogate, between quotes. -/
def escapeUnit (c : Nat) : JsonText.Text :=
  match controlEscapes.lookup c with
  | some e => [0x5c, e]
  | none => if c < 0x20 then unicodeEscape c else [c]

/-- What stands between the quotes. A surrogate without its other half is escaped. -/
def quotedText : JsStr → JsonText.Text
  | [] => []
  | c :: s =>
    if isHighSurrogate c then
      match s with
      | d :: t =>
        if isLowSurrogate d then c.val :: d.val :: quotedText t
        else unicodeEscape c.val ++ quotedText (d :: t)
      | [] => unicodeEscape c.val
    else if isLowSurrogate c then unicodeEscape c.val ++ quotedText s
    else escapeUnit c.val ++ quotedText s

theorem hexDigit_spec : ∀ d < 16, JsonText.isHexDigit (hexDigit d) = true ∧
    JsonText.hexValue (hexDigit d) = d ∧ hexDigit d < 0x80 := by
  decide

theorem unescape_unicodeEscape {c : Nat} (h : c < 0x10000) (s : JsonText.Text) :
    JsonText.unescape (unicodeEscape c ++ s) = c :: JsonText.unescape s := by
  unfold unicodeEscape
  simp only [List.cons_append, List.nil_append]
  rw [JsonText.unescape, JsonText.hexCode, (hexDigit_spec _ (by omega)).2.1, (hexDigit_spec _ (by omega)).2.1,
    (hexDigit_spec _ (by omega)).2.1, (hexDigit_spec _ (by omega)).2.1]
  congr 1
  omega

theorem spelled_unicodeEscape {c : Nat} (h : c < 0x10000) {s : JsonText.Text} (spelled : Spelled s) :
    Spelled (unicodeEscape c ++ s) := by
  refine @Spelled.hex [hexDigit (c / 0x1000), hexDigit (c / 0x100 % 0x10), hexDigit (c / 0x10 % 0x10),
    hexDigit (c % 0x10)] s rfl (fun d member => ?_) spelled
  simp only [List.mem_cons, List.not_mem_nil, or_false] at member
  rcases member with rfl | rfl | rfl | rfl <;> exact (hexDigit_spec _ (by omega)).1

theorem controlEscapes_spec : ∀ e ∈ controlEscapes, e.2 ∈ JsonText.simpleEscapes ∧
    e.2 ≠ 0x75 ∧ JsonText.simpleEscape e.2 = e.1 ∧ e.2 < 0x80 := by
  decide

theorem unescape_escapeUnit {c : Nat} (h : c < 0x10000) (s : JsonText.Text) :
    JsonText.unescape (escapeUnit c ++ s) = c :: JsonText.unescape s := by
  unfold escapeUnit
  cases escaped : controlEscapes.lookup c with
  | some e =>
    obtain ⟨_, notU, denotes, _⟩ := controlEscapes_spec _ (InsertionMap.mem_of_lookup escaped)
    dsimp only at denotes notU ⊢
    rw [List.cons_append, List.singleton_append, JsonText.unescape, denotes]
    intro h₁ h₂ h₃ h₄ s' same
    exact absurd same notU
  | none =>
    dsimp only
    split_ifs with control
    · exact unescape_unicodeEscape h s
    · refine JsonText.unescape_plain ?_ s
      rintro rfl
      exact absurd escaped (by decide)

theorem spelled_escapeUnit {c : Nat} (h : c < 0x10000) {s : JsonText.Text} (spelled : Spelled s) :
    Spelled (escapeUnit c ++ s) := by
  unfold escapeUnit
  cases escaped : controlEscapes.lookup c with
  | some e => exact .simple (controlEscapes_spec _ (InsertionMap.mem_of_lookup escaped)).1 spelled
  | none =>
    dsimp only
    split_ifs with control
    · exact spelled_unicodeEscape h spelled
    · refine .plain ?_ ?_ (by omega) spelled
      · rintro rfl
        exact absurd escaped (by decide)
      · rintro rfl
        exact absurd escaped (by decide)

theorem surrogate_high {c : CodeUnit} (h : isHighSurrogate c = true) : 0xd800 ≤ c.val ∧ c.val < 0xdc00 := by
  simpa [isHighSurrogate] using h

theorem surrogate_low {c : CodeUnit} (h : isLowSurrogate c = true) : 0xdc00 ≤ c.val ∧ c.val < 0xe000 := by
  simpa [isLowSurrogate] using h

theorem unescape_quotedText (s : JsStr) : JsonText.unescape (quotedText s) = s.map Fin.val := by
  fun_induction quotedText s with
  | case1 => rfl
  | case2 c high d t low ih =>
    have units := surrogate_high high
    have units' := surrogate_low low
    rw [JsonText.unescape_plain (by unfold JsonText.backslash; omega),
      JsonText.unescape_plain (by unfold JsonText.backslash; omega), ih]
    rfl
  | case3 c high d t low ih =>
    rw [unescape_unicodeEscape c.isLt, ih]
    rfl
  | case4 c high =>
    have alone := unescape_unicodeEscape c.isLt []
    rw [List.append_nil] at alone
    rw [alone]
    rfl
  | case5 c s high low ih =>
    rw [unescape_unicodeEscape c.isLt, ih]
    rfl
  | case6 c s high low ih =>
    rw [unescape_escapeUnit c.isLt, ih]
    rfl

theorem spelled_quotedText (s : JsStr) : Spelled (quotedText s) := by
  fun_induction quotedText s with
  | case1 => exact .nil
  | case2 c high d t low ih =>
    have units := surrogate_high high
    have units' := surrogate_low low
    have plain : ∀ u, 0xd800 ≤ u → u ≠ JsonText.quote ∧ u ≠ JsonText.backslash ∧ 0x20 ≤ u := by
      intro u large
      unfold JsonText.quote JsonText.backslash
      omega
    exact .plain (plain _ (by omega)).1 (plain _ (by omega)).2.1 (plain _ (by omega)).2.2
      (.plain (plain _ (by omega)).1 (plain _ (by omega)).2.1 (plain _ (by omega)).2.2 ih)
  | case3 c high d t low ih => exact spelled_unicodeEscape c.isLt ih
  | case4 c high =>
    have alone := spelled_unicodeEscape c.isLt .nil
    rwa [List.append_nil] at alone
  | case5 c s high low ih => exact spelled_unicodeEscape c.isLt ih
  | case6 c s high low ih => exact spelled_escapeUnit c.isLt ih

theorem unitsOf_map_val (s : JsStr) : unitsOf (s.map Fin.val) = s := by
  rw [unitsOf, List.map_map]
  exact List.map_id'' Fin.ofNat_val_eq_self s

theorem stringOf_quotedText (s : JsStr) : stringOf (quotedText s) = s := by
  rw [stringOf, unescape_quotedText, unitsOf_map_val]

/-- `texts.join(',')`. -/
def joined : List JsonText.Text → JsonText.Text
  | [] => []
  | t :: texts => t ++ texts.flatMap (fun u => JsonText.comma :: u)

def stringText (s : JsStr) : JsonText.Text := JsonText.quote :: (quotedText s ++ [JsonText.quote])

def memberText (m : JsStr × JsonText.Text) : JsonText.Text := stringText m.1 ++ JsonText.colon :: m.2

/-- The number that a member name spells, where it is one that an array could be indexed by. -/
def arrayIndex (name : JsStr) : Option Nat :=
  let n := JsonText.natOf (name.map Fin.val)
  if name.map Fin.val = natText n ∧ n < 2 ^ 32 - 1 then some n else none

/-- The members of an object in the order of `Object.keys`: names that are indexes come first,
in their order. -/
def ownOrder {α : Type} (members : List (JsStr × α)) : List (JsStr × α) :=
  (members.filter (fun m => (arrayIndex m.1).isSome)).insertionSort
      (fun m m' => (arrayIndex m.1).getD 0 ≤ (arrayIndex m'.1).getD 0) ++
    members.filter (fun m => (arrayIndex m.1).isNone)

mutual

/-- `JSON.stringify(value)`. `none` is `undefined`. A number that is not finite is `null`. -/
def stringify : JsValue → Option JsonText.Text
  | .undefined => none
  | .null => some (JsonText.codes "null")
  | .bool true => some (JsonText.codes "true")
  | .bool false => some (JsonText.codes "false")
  | .num b => some (if Binary64.isFinite b then numberText b else JsonText.codes "null")
  | .str s => some (stringText s)
  | .arr items =>
    some (JsonText.openBracket :: (joined (stringifyItems items) ++ [JsonText.closeBracket]))
  | .obj members => some (JsonText.openBrace ::
      (joined ((ownOrder (stringifyMembers members)).map memberText) ++ [JsonText.closeBrace]))

def stringifyItems : List JsValue → List JsonText.Text
  | [] => []
  | v :: items => (stringify v).getD (JsonText.codes "null") :: stringifyItems items

def stringifyMembers : List (JsStr × JsValue) → List (JsStr × JsonText.Text)
  | [] => []
  | (name, v) :: members =>
    match stringify v with
    | none => stringifyMembers members
    | some t => (name, t) :: stringifyMembers members

end

/-- The code units of a text without a lone surrogate. -/
def IsUnicode (t : JsonText.Text) : Prop := ∃ chars : List Char, t = (chars.flatMap utf16).map Fin.val

theorem IsUnicode.units {t : JsonText.Text} (h : IsUnicode t) :
    (∃ chars : List Char, unitsOf t = chars.flatMap utf16) ∧ (unitsOf t).map Fin.val = t := by
  obtain ⟨chars, rfl⟩ := h
  exact ⟨⟨chars, unitsOf_map_val _⟩, by rw [unitsOf_map_val]⟩

theorem IsUnicode.append {s t : JsonText.Text} (hs : IsUnicode s) (ht : IsUnicode t) :
    IsUnicode (s ++ t) := by
  obtain ⟨cs, rfl⟩ := hs
  obtain ⟨ds, rfl⟩ := ht
  exact ⟨cs ++ ds, by rw [List.flatMap_append, List.map_append]⟩

theorem toNat_ofNat {c : Nat} (valid : c.isValidChar) : (Char.ofNat c).toNat = c := by
  rw [Char.ofNat, dif_pos valid]
  rfl

theorem isUnicode_unit {c : Nat} (h : c < 0xd800 ∨ 0xe000 ≤ c) (bound : c < 0x10000) : IsUnicode [c] := by
  have valid : c.isValidChar := by
    rcases h with low | high
    · exact .inl low
    · exact .inr ⟨by omega, by omega⟩
  refine ⟨[Char.ofNat c], ?_⟩
  rw [List.flatMap_singleton, utf16, toNat_ofNat valid, if_pos bound, List.map_singleton, Fin.val_ofNat,
    Nat.mod_eq_of_lt bound]

theorem isUnicode_ascii {t : JsonText.Text} (h : ∀ c ∈ t, c < 0x80) : IsUnicode t := by
  induction t with
  | nil => exact ⟨[], rfl⟩
  | cons c t ih =>
    have low := h c List.mem_cons_self
    exact (isUnicode_unit (.inl (by omega)) (by omega)).append
      (ih (fun d member => h d (List.mem_cons_of_mem _ member)))

theorem isUnicode_numberText {b : Binary64.Bits} (finite : Binary64.isFinite b = true) :
    IsUnicode (numberText b) := by
  have reads := (numberText_spelled finite).reads [] (by simp [JsonText.Ends])
  have words : ∀ w ∈ JsonText.nonFinite, ∀ c ∈ w, c < 0x80 := by decide
  refine isUnicode_ascii ?_
  rcases JsonText.number_numeral reads with word | numeral
  · exact words _ word
  · intro c member
    have kind := numeral c member
    simp only [JsonText.isNumeral, JsonText.isDigit, Bool.or_eq_true, Bool.and_eq_true,
      decide_eq_true_eq, List.mem_cons, List.not_mem_nil, or_false] at kind
    omega

theorem isUnicode_unicodeEscape {c : Nat} (h : c < 0x10000) : IsUnicode (unicodeEscape c) := by
  refine isUnicode_ascii (fun d member => ?_)
  simp only [unicodeEscape, List.mem_cons, List.not_mem_nil, or_false] at member
  rcases member with rfl | rfl | rfl | rfl | rfl | rfl
  · decide
  · decide
  all_goals exact (hexDigit_spec _ (by omega)).2.2

theorem isUnicode_escapeUnit {c : CodeUnit} (notHigh : ¬ isHighSurrogate c = true)
    (notLow : ¬ isLowSurrogate c = true) : IsUnicode (escapeUnit c.val) := by
  unfold escapeUnit
  cases escaped : controlEscapes.lookup c.val with
  | some e =>
    refine isUnicode_ascii (fun d member => ?_)
    simp only [List.mem_cons, List.not_mem_nil, or_false] at member
    rcases member with rfl | rfl
    · decide
    · exact (controlEscapes_spec _ (InsertionMap.mem_of_lookup escaped)).2.2.2
  | none =>
    dsimp only
    split_ifs with control
    · exact isUnicode_unicodeEscape c.isLt
    · refine isUnicode_unit ?_ c.isLt
      simp only [isHighSurrogate, isLowSurrogate, Bool.and_eq_true, decide_eq_true_eq] at notHigh notLow
      omega

theorem utf16_pair {c d : CodeUnit} (high : isHighSurrogate c = true) (low : isLowSurrogate d = true) :
    utf16 (Char.ofNat (0x10000 + (c.val - 0xd800) * 0x400 + (d.val - 0xdc00))) = [c, d] := by
  have hc := surrogate_high high
  have hd := surrogate_low low
  have valid : (0x10000 + (c.val - 0xd800) * 0x400 + (d.val - 0xdc00)).isValidChar :=
    .inr ⟨by omega, by omega⟩
  have units : ∀ {u : Nat} {e : CodeUnit}, u = e.val → Fin.ofNat 0x10000 u = e := by
    rintro _ e rfl
    exact Fin.ofNat_val_eq_self e
  rw [utf16, toNat_ofNat valid, if_neg (by omega)]
  exact congrArg₂ (fun a b => [a, b]) (units (by omega)) (units (by omega))

theorem isUnicode_quotedText (s : JsStr) : IsUnicode (quotedText s) := by
  fun_induction quotedText s with
  | case1 => exact ⟨[], rfl⟩
  | case2 c high d t low ih =>
    have pair : IsUnicode [c.val, d.val] :=
      ⟨[_], by rw [List.flatMap_singleton, utf16_pair high low, List.map_cons, List.map_singleton]⟩
    exact pair.append ih
  | case3 c high d t low ih => exact (isUnicode_unicodeEscape c.isLt).append ih
  | case4 c high => exact isUnicode_unicodeEscape c.isLt
  | case5 c s high low ih => exact (isUnicode_unicodeEscape c.isLt).append ih
  | case6 c s high low ih => exact (isUnicode_escapeUnit high low).append ih

theorem encode_utf16 (c : Char) (s : JsStr) :
    encode (utf16 c ++ s) = String.utf8EncodeChar c ++ encode s := by
  have valid : c.toNat < 0xd800 ∨ 0xdfff < c.toNat ∧ c.toNat < 0x110000 := c.valid
  unfold utf16
  split_ifs with basic
  · have unit : (Fin.ofNat 0x10000 c.toNat).val = c.toNat := Nat.mod_eq_of_lt basic
    have notHigh : isHighSurrogate (Fin.ofNat 0x10000 c.toNat) = false := by
      simp only [isHighSurrogate, unit, Bool.and_eq_false_iff, decide_eq_false_iff_not]
      omega
    have notLow : isLowSurrogate (Fin.ofNat 0x10000 c.toNat) = false := by
      simp only [isLowSurrogate, unit, Bool.and_eq_false_iff, decide_eq_false_iff_not]
      omega
    rw [List.singleton_append, encode.eq_def]
    simp only [notHigh, notLow, Bool.false_eq_true, if_false, unit, Char.ofNat_toNat]
  · have unit : (Fin.ofNat 0x10000 (0xd800 + (c.toNat - 0x10000) / 0x400)).val =
        0xd800 + (c.toNat - 0x10000) / 0x400 := Nat.mod_eq_of_lt (by omega)
    have unit' : (Fin.ofNat 0x10000 (0xdc00 + (c.toNat - 0x10000) % 0x400)).val =
        0xdc00 + (c.toNat - 0x10000) % 0x400 := Nat.mod_eq_of_lt (by omega)
    have high : isHighSurrogate (Fin.ofNat 0x10000 (0xd800 + (c.toNat - 0x10000) / 0x400)) = true := by
      simp only [isHighSurrogate, unit, Bool.and_eq_true, decide_eq_true_eq]
      omega
    have low : isLowSurrogate (Fin.ofNat 0x10000 (0xdc00 + (c.toNat - 0x10000) % 0x400)) = true := by
      simp only [isLowSurrogate, unit', Bool.and_eq_true, decide_eq_true_eq]
      omega
    have point : 0x10000 + (0xd800 + (c.toNat - 0x10000) / 0x400 - 0xd800) * 0x400 +
        (0xdc00 + (c.toNat - 0x10000) % 0x400 - 0xdc00) = c.toNat := by omega
    rw [List.cons_append, List.singleton_append, encode, high, low, unit, unit', point, Char.ofNat_toNat]
    rfl

theorem encode_chars_injective {cs ds : List Char}
    (same : encode (cs.flatMap utf16) = encode (ds.flatMap utf16)) : cs = ds := by
  have bytes : ∀ chars : List Char, (encode (chars.flatMap utf16)).map UInt8.toNat =
      JsonText.respell utf8Code (chars.map Char.toNat) := by
    intro chars
    induction chars with
    | nil => rfl
    | cons c chars ih =>
      rw [List.flatMap_cons, encode_utf16, List.map_append, ih, List.map_cons, ← utf8Code_toNat]
      rfl
  have points := congrArg (List.map UInt8.toNat) same
  rw [bytes, bytes] at points
  exact List.map_injective_iff.mpr (fun c d h => Char.toNat_inj.mp h) (respell_utf8Code_injective points)

theorem encode_injective {t u : JsonText.Text} (ht : IsUnicode t) (hu : IsUnicode u)
    (same : encode (unitsOf t) = encode (unitsOf u)) : t = u := by
  obtain ⟨cs, rfl⟩ := ht
  obtain ⟨ds, rfl⟩ := hu
  rw [unitsOf_map_val, unitsOf_map_val] at same
  rw [encode_chars_injective same]

theorem js_injective : Function.Injective js := fun _ _ same =>
  String.toList_injective (encode_chars_injective (congrArg encode same))

end VaidSuite.TypeScript
