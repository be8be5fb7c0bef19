import Mathlib.Algebra.Order.Field.Basic
import Mathlib.Data.Prod.Lex
import Mathlib.Data.Rat.Cast.Order
import Mathlib.Tactic.Linarith
import Mathlib.Tactic.NormNum
import Mathlib.Tactic.Positivity
import Mathlib.Tactic.Ring
import Mathlib.Data.List.TakeWhile
import VaidSuite.Lib.JsonText

/-! Timestamps of RFC 3339: the grammar, and the instants that they denote. -/
namespace Rfc3339

open JsonText (Text isDigit natOf)

/-- A `Z`, or an offset. -/
inductive Zone where
  | zulu (lower : Bool)
  | offset (west : Bool) (hours minutes : Nat)
  deriving DecidableEq

structure Fields where
  year : Nat
  month : Nat
  day : Nat
  hour : Nat
  minute : Nat
  second : Nat
  fraction : Text
  zone : Zone

def isLeapYear (year : Nat) : Bool := year % 4 == 0 && year % 100 != 0 || year % 400 == 0

def daysInMonth (year month : Nat) : Nat :=
  if month = 2 then if isLeapYear year then 29 else 28
  else if month ∈ [4, 6, 9, 11] then 30 else 31

def Zone.inRange : Zone → Bool
  | .zulu _ => true
  | .offset _ hours minutes => hours ≤ 23 && minutes ≤ 59

/-- A date of the calendar and a time of the clock, leap seconds included. -/
def Fields.inRange (f : Fields) : Bool :=
  1 ≤ f.month && f.month ≤ 12 && 1 ≤ f.day && f.day ≤ daysInMonth f.year f.month &&
    f.hour ≤ 23 && f.minute ≤ 59 && f.second ≤ 60 && f.zone.inRange && f.fraction.all isDigit

structure Stamp extends Fields where
  valid : toFields.inRange = true

def char (cs : Text) : Text → Option (Nat × Text)
  | [] => none
  | c :: t => if c ∈ cs then some (c, t) else none

/-- A number of exactly `n` digits. -/
def number (n : Nat) (t : Text) : Option (Nat × Text) :=
  if (t.take n).length = n ∧ (t.take n).all isDigit = true then some (natOf (t.take n), t.drop n)
  else none

/-- The digits behind a point, where there is one. -/
def fraction : Text → Option (Text × Text)
  | 0x2e :: t =>
    if t.takeWhile isDigit = [] then none else some (t.takeWhile isDigit, t.dropWhile isDigit)
  | t => some ([], t)

def zone (t : Text) : Option Zone :=
  if t = [0x5a] then some (.zulu false)
  else if t = [0x7a] then some (.zulu true)
  else do
    let (sign, t) ← char [0x2b, 0x2d] t
    let (hours, t) ← number 2 t
    let (_, t) ← char [0x3a] t
    let (minutes, t) ← number 2 t
    if t = [] then some (.offset (sign == 0x2d) hours minutes) else none

/-- The timestamp that a text spells. `T` and `Z` may be small. -/
def parse (t : Text) : Option Stamp := do
  let (year, t) ← number 4 t
  let (_, t) ← char [0x2d] t
  let (month, t) ← number 2 t
  let (_, t) ← char [0x2d] t
  let (day, t) ← number 2 t
  let (_, t) ← char [0x54, 0x74] t
  let (hour, t) ← number 2 t
  let (_, t) ← char [0x3a] t
  let (minute, t) ← number 2 t
  let (_, t) ← char [0x3a] t
  let (second, t) ← number 2 t
  let (fraction, t) ← fraction t
  let zone ← zone t
  let fields : Fields := ⟨year, month, day, hour, minute, second, fraction, zone⟩
  if valid : fields.inRange = true then some ⟨fields, valid⟩ else none

def daysBeforeYear (year : Nat) : Nat :=
  365 * year + (year + 3) / 4 - (year + 99) / 100 + (year + 399) / 400

def daysBeforeMonth (year month : Nat) : Nat :=
  ((List.range' 1 (month - 1)).map (daysInMonth year)).sum

def Zone.seconds : Zone → Int
  | .zulu _ => 0
  | .offset west hours minutes =>
    if west then -(hours * 3600 + minutes * 60) else hours * 3600 + minutes * 60

namespace Stamp

variable (s : Stamp)

def days : Int := daysBeforeYear s.year + daysBeforeMonth s.year s.month + (s.day - 1) - 719528

/-- The whole seconds from 1970. A leap second belongs to the second before it. -/
def seconds : Int :=
  s.days * 86400 + s.hour * 3600 + s.minute * 60 + min s.second 59 - s.zone.seconds

def parts (unit : Nat) : Nat := natOf s.fraction * unit / 10 ^ s.fraction.length

/-- What the timestamp denotes: a second, and how far past its start. -/
def instant : Int ×ₗ ℚ :=
  toLex (s.seconds, natOf s.fraction / 10 ^ s.fraction.length + if s.second = 60 then 1 else 0)

end Stamp

def ofMillis (n : Int) : Int ×ₗ ℚ := toLex (n / 1000, (n % 1000 : Int) / 1000)

example : (parse (JsonText.codes "2030-01-01T01:30:00.25+01:30")).map Stamp.seconds =
    some 1893456000 := by decide +kernel

example : (parse (JsonText.codes "2030-02-29T00:00:00Z")).isNone = true := by decide +kernel

theorem natOf_concat (ds : Text) (d : Nat) : natOf (ds ++ [d]) = 10 * natOf ds + (d - 0x30) := by
  rw [natOf, List.foldl_append]
  rfl

theorem natOf_lt {ds : Text} (digits : ds.all isDigit = true) : natOf ds < 10 ^ ds.length := by
  induction ds using List.reverseRecOn with
  | nil => decide
  | append_singleton ds d ih =>
    rw [List.all_append, Bool.and_eq_true] at digits
    obtain ⟨before, last⟩ := digits
    have smaller := ih before
    have digit : d - 0x30 < 10 := by
      simp only [isDigit, List.all_cons, List.all_nil, Bool.and_true, Bool.and_eq_true,
        decide_eq_true_eq] at last
      omega
    rw [natOf_concat, List.length_append, List.length_singleton, pow_succ]
    omega

namespace Stamp

variable (s : Stamp)

theorem digits : s.fraction.all isDigit = true := by
  have valid := s.valid
  simp only [Fields.inRange, Bool.and_eq_true] at valid
  exact valid.2

theorem parts_lt {unit : Nat} (positive : 0 < unit) : s.parts unit < unit := by
  rw [parts, Nat.div_lt_iff_lt_mul (Nat.pow_pos (by decide)), Nat.mul_comm unit]
  exact Nat.mul_lt_mul_of_pos_right (natOf_lt s.digits) positive

theorem le_parts_iff (r unit : Nat) :
    r ≤ s.parts unit ↔ r * 10 ^ s.fraction.length ≤ natOf s.fraction * unit :=
  Nat.le_div_iff_mul_le (Nat.pow_pos (by decide))

theorem mul_le_parts_iff (r unit : Nat) {k : Nat} (positive : 0 < k) :
    r * k ≤ s.parts (unit * k) ↔ r ≤ s.parts unit := by
  rw [le_parts_iff, le_parts_iff]
  have left : r * k * 10 ^ s.fraction.length = r * 10 ^ s.fraction.length * k := by ring
  have right : natOf s.fraction * (unit * k) = natOf s.fraction * unit * k := by ring
  rw [left, right]
  exact Nat.mul_le_mul_right_iff positive

theorem ofMillis_le_iff (n : Int) : ofMillis n ≤ s.instant ↔
    n / 1000 < s.seconds ∨ n / 1000 = s.seconds ∧
      (s.second = 60 ∨ (n % 1000).toNat ≤ s.parts 1000) := by
  rw [ofMillis, instant, Prod.Lex.toLex_le_toLex]
  refine or_congr Iff.rfl (and_congr_right (fun _ => ?_))
  have nonneg : 0 ≤ n % 1000 := Int.emod_nonneg n (by decide)
  have below : n % 1000 < 1000 := Int.emod_lt_of_pos n (by decide)
  obtain ⟨r, remainder⟩ := Int.eq_ofNat_of_zero_le nonneg
  have power : (0 : ℚ) < 10 ^ s.fraction.length := by positivity
  rw [remainder] at below ⊢
  simp only [Int.toNat_natCast, Int.cast_natCast]
  by_cases leap : s.second = 60
  · have small : (r : ℚ) / 1000 ≤ 1 := by
      rw [div_le_one (by norm_num)]
      exact_mod_cast (by omega : r ≤ 1000)
    have fractional : (0 : ℚ) ≤ natOf s.fraction / 10 ^ s.fraction.length := by positivity
    simp only [leap, if_true, true_or, iff_true]
    linarith
  · simp only [leap, if_false, add_zero, false_or]
    rw [le_parts_iff, div_le_div_iff₀ (by norm_num) power]
    exact_mod_cast Iff.rfl

end Stamp

theorem of_char {cs t rest : Text} {c : Nat} (h : char cs t = some (c, rest)) :
    c ∈ cs ∧ t = c :: rest := by
  cases t with
  | nil => cases h
  | cons d t =>
    rw [char] at h
    split_ifs at h with member
    cases h
    exact ⟨member, rfl⟩

theorem of_number {n v : Nat} {t rest : Text} (h : number n t = some (v, rest)) :
    ∃ ds, t = ds ++ rest ∧ ds.length = n ∧ ∀ c ∈ ds, isDigit c = true := by
  unfold number at h
  split_ifs at h with digits
  cases h
  exact ⟨t.take n, (List.take_append_drop n t).symm, digits.1, List.all_eq_true.mp digits.2⟩

def Behind (t rest : Text) : Prop := ∃ front, t = front ++ rest ∧ ∀ c ∈ front, c < 0x80

theorem Behind.trans {t u v : Text} (first : Behind t u) (second : Behind u v) : Behind t v := by
  obtain ⟨front, rfl, low⟩ := first
  obtain ⟨more, rfl, moreLow⟩ := second
  exact ⟨front ++ more, (List.append_assoc _ _ _).symm, List.forall_mem_append.mpr ⟨low, moreLow⟩⟩

theorem isDigit_ascii {ds : Text} (digits : ∀ c ∈ ds, isDigit c = true) : ∀ c ∈ ds, c < 0x80 := by
  intro c member
  have digit := digits c member
  simp only [isDigit, Bool.and_eq_true, decide_eq_true_eq] at digit
  omega

theorem behind_char {cs t rest : Text} {c : Nat} (h : char cs t = some (c, rest))
    (low : ∀ c ∈ cs, c < 0x80) : Behind t rest := by
  obtain ⟨member, rfl⟩ := of_char h
  exact ⟨[c], rfl, List.forall_mem_singleton.mpr (low c member)⟩

theorem behind_number {n v : Nat} {t rest : Text} (h : number n t = some (v, rest)) :
    Behind t rest := by
  obtain ⟨ds, rfl, -, digits⟩ := of_number h
  exact ⟨ds, rfl, isDigit_ascii digits⟩

theorem behind_fraction {t ds rest : Text} (h : fraction t = some (ds, rest)) : Behind t rest := by
  unfold fraction at h
  split at h
  · rename_i t'
    split_ifs at h
    cases h
    refine ⟨0x2e :: t'.takeWhile isDigit, by simp, List.forall_mem_cons.mpr ⟨by decide, ?_⟩⟩
    exact isDigit_ascii (fun c member => List.mem_takeWhile_imp member)
  · cases h
    exact ⟨[], rfl, by simp⟩

theorem of_zone {t : Text} {z : Zone} (h : zone t = some z) :
    t = [0x5a] ∨ t = [0x7a] ∨ ∃ sign h₁ h₂ m₁ m₂, t = [sign, h₁, h₂, 0x3a, m₁, m₂] ∧
      sign ∈ [0x2b, 0x2d] ∧ ∀ c ∈ [h₁, h₂, m₁, m₂], isDigit c = true := by
  unfold zone at h
  split_ifs at h with upper lower
  · exact .inl upper
  · exact .inr (.inl lower)
  · obtain ⟨⟨sign, t₁⟩, signed, afterSign⟩ := Option.bind_eq_some_iff.mp h
    obtain ⟨⟨hours, t₂⟩, isHours, afterHours⟩ := Option.bind_eq_some_iff.mp afterSign
    obtain ⟨⟨colon, t₃⟩, isColon, afterColon⟩ := Option.bind_eq_some_iff.mp afterHours
    obtain ⟨⟨minutes, t₄⟩, isMinutes, ends⟩ := Option.bind_eq_some_iff.mp afterColon
    obtain ⟨isSign, rfl⟩ := of_char signed
    obtain ⟨hs, rfl, hoursLength, hourDigits⟩ := of_number isHours
    obtain ⟨colonIs, rfl⟩ := of_char isColon
    obtain ⟨ms, rfl, minutesLength, minuteDigits⟩ := of_number isMinutes
    dsimp only at ends
    split_ifs at ends with ended
    subst ended
    obtain ⟨h₁, h₂, rfl⟩ := List.length_eq_two.mp hoursLength
    obtain ⟨m₁, m₂, rfl⟩ := List.length_eq_two.mp minutesLength
    rw [List.mem_singleton.mp colonIs]
    exact .inr (.inr ⟨sign, h₁, h₂, m₁, m₂, rfl, isSign,
      List.forall_mem_append.mpr ⟨hourDigits, minuteDigits⟩⟩)

theorem of_parse {t : Text} {stamp : Stamp} (h : parse t = some stamp) :
    ∃ back, Behind t back ∧ zone back = some stamp.zone := by
  have dash : ∀ c ∈ [0x2d], c < 0x80 := by decide
  have colon : ∀ c ∈ [0x3a], c < 0x80 := by decide
  unfold parse at h
  obtain ⟨⟨year, t₁⟩, h₁, h⟩ := Option.bind_eq_some_iff.mp h
  obtain ⟨⟨c₁, t₂⟩, h₂, h⟩ := Option.bind_eq_some_iff.mp h
  obtain ⟨⟨month, t₃⟩, h₃, h⟩ := Option.bind_eq_some_iff.mp h
  obtain ⟨⟨c₂, t₄⟩, h₄, h⟩ := Option.bind_eq_some_iff.mp h
  obtain ⟨⟨day, t₅⟩, h₅, h⟩ := Option.bind_eq_some_iff.mp h
  obtain ⟨⟨c₃, t₆⟩, h₆, h⟩ := Option.bind_eq_some_iff.mp h
  obtain ⟨⟨hour, t₇⟩, h₇, h⟩ := Option.bind_eq_some_iff.mp h
  obtain ⟨⟨c₄, t₈⟩, h₈, h⟩ := Option.bind_eq_some_iff.mp h
  obtain ⟨⟨minute, t₉⟩, h₉, h⟩ := Option.bind_eq_some_iff.mp h
  obtain ⟨⟨c₅, t₁₀⟩, h₁₀, h⟩ := Option.bind_eq_some_iff.mp h
  obtain ⟨⟨second, t₁₁⟩, h₁₁, h⟩ := Option.bind_eq_some_iff.mp h
  obtain ⟨⟨fraction, t₁₂⟩, h₁₂, h⟩ := Option.bind_eq_some_iff.mp h
  obtain ⟨zone, h₁₃, h⟩ := Option.bind_eq_some_iff.mp h
  dsimp only at h
  split_ifs at h
  cases h
  have date : Behind t t₆ := ((((behind_number h₁).trans (behind_char h₂ dash)).trans
    (behind_number h₃)).trans (behind_char h₄ dash)).trans
      ((behind_number h₅).trans (behind_char h₆ (by decide)))
  have time : Behind t₆ t₁₁ := (((behind_number h₇).trans (behind_char h₈ colon)).trans
    (behind_number h₉)).trans ((behind_char h₁₀ colon).trans (behind_number h₁₁))
  exact ⟨t₁₂, (date.trans time).trans (behind_fraction h₁₂), h₁₃⟩

theorem ascii_of_zone {t : Text} {z : Zone} (h : zone t = some z) :
    ∀ c ∈ t, c < 0x80 := by
  rcases of_zone h with rfl | rfl | ⟨sign, h₁, h₂, m₁, m₂, rfl, signed, digits⟩
  · decide
  · decide
  · have low := isDigit_ascii digits
    have signLow : ∀ c ∈ [0x2b, 0x2d], c < 0x80 := by decide
    simp only [List.forall_mem_cons] at low ⊢
    exact ⟨signLow sign signed, low.1, low.2.1, by decide, low.2.2⟩

theorem ascii_of_parse {t : Text} {stamp : Stamp} (h : parse t = some stamp) :
    ∀ c ∈ t, c < 0x80 := by
  obtain ⟨back, ⟨front, rfl, low⟩, zoned⟩ := of_parse h
  exact List.forall_mem_append.mpr ⟨low, ascii_of_zone zoned⟩

end Rfc3339
