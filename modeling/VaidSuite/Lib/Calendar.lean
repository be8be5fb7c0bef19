import Mathlib.Data.Nat.Find
import VaidSuite.Lib.Rfc3339

/-! The calendar behind a timestamp: the date of a day, and the text of a whole second. -/
namespace Rfc3339

open JsonText (Text isDigit natOf)

theorem daysBeforeYear_succ (year : Nat) : daysBeforeYear (year + 1) =
    daysBeforeYear year + if isLeapYear year then 366 else 365 := by
  have four : (year + 1 + 3) / 4 = (year + 3) / 4 + if year % 4 = 0 then 1 else 0 := by
    split <;> omega
  have hundred : (year + 1 + 99) / 100 = (year + 99) / 100 + if year % 100 = 0 then 1 else 0 := by
    split <;> omega
  have fourHundred : (year + 1 + 399) / 400 = (year + 399) / 400 + if year % 400 = 0 then 1 else 0 := by
    split <;> omega
  have nested : (year % 400 = 0 → year % 100 = 0) ∧ (year % 100 = 0 → year % 4 = 0) := by omega
  have less : (year + 99) / 100 ≤ (year + 3) / 4 := by omega
  have leap : isLeapYear year = (decide (year % 4 = 0) && !decide (year % 100 = 0) ||
      decide (year % 400 = 0)) := rfl
  rw [daysBeforeYear, daysBeforeYear, four, hundred, fourHundred, leap]
  generalize (year + 99) / 100 = centuries at less
  generalize (year + 3) / 4 = fours at less
  by_cases a : year % 4 = 0 <;> by_cases b : year % 100 = 0 <;> by_cases c : year % 400 = 0 <;>
    simp [a, b, c] <;> omega

theorem daysBeforeMonth_succ (year : Nat) {month : Nat} (first : 1 ≤ month) :
    daysBeforeMonth year (month + 1) = daysBeforeMonth year month + daysInMonth year month := by
  obtain ⟨m, rfl⟩ := Nat.exists_eq_add_of_le first
  have last : List.range' 1 (1 + m + 1 - 1) = List.range' 1 (1 + m - 1) ++ [1 + m] := by
    rw [show 1 + m + 1 - 1 = m + 1 by omega, show 1 + m - 1 = m by omega, List.range'_1_concat]
  rw [daysBeforeMonth, daysBeforeMonth, last, List.map_append, List.sum_append, List.map_singleton,
    List.sum_singleton]

theorem daysBeforeMonth_year (year : Nat) :
    daysBeforeMonth year 13 = if isLeapYear year then 366 else 365 := by
  cases leap : isLeapYear year <;> simp [daysBeforeMonth, daysInMonth, leap, List.range']

theorem daysBeforeYear_mono : Monotone daysBeforeYear :=
  monotone_nat_of_le_succ (fun year => by
    rw [daysBeforeYear_succ]
    exact Nat.le_add_right _ _)

theorem daysBeforeMonth_mono (year : Nat) : Monotone (daysBeforeMonth year) := by
  refine monotone_nat_of_le_succ (fun month => ?_)
  cases month with
  | zero => exact Nat.le_refl 0
  | succ month =>
    rw [daysBeforeMonth_succ year (Nat.succ_pos month)]
    exact Nat.le_add_right _ _

/-! ### The date of a day -/

theorem findGreatest_step {f : Nat → Nat} {n low high : Nat} (within : low ≤ high)
    (start : f low ≤ n) (stop : n < f (high + 1)) :
    low ≤ Nat.findGreatest (fun k => f k ≤ n) high ∧
      Nat.findGreatest (fun k => f k ≤ n) high ≤ high ∧
      f (Nat.findGreatest (fun k => f k ≤ n) high) ≤ n ∧
      n < f (Nat.findGreatest (fun k => f k ≤ n) high + 1) := by
  have bound := Nat.findGreatest_le (P := fun k => f k ≤ n) high
  refine ⟨Nat.le_findGreatest within start, bound,
    Nat.findGreatest_spec (P := fun k => f k ≤ n) within start, ?_⟩
  rcases Nat.lt_or_eq_of_le bound with less | last
  · exact Nat.lt_of_not_le
      (Nat.findGreatest_is_greatest (P := fun k => f k ≤ n) (Nat.lt_succ_self _) less)
  · rw [last]
    exact stop

/-- The year of the day that so many days are before, from year 0 on. -/
def yearOf (day : Nat) : Nat := Nat.findGreatest (fun year => daysBeforeYear year ≤ day) 9999

def monthOf (year day : Nat) : Nat :=
  Nat.findGreatest (fun month => daysBeforeMonth year month ≤ day) 12

def daysOfYears : Nat := 3652425

theorem yearOf_spec {day : Nat} (before : day < daysOfYears) : yearOf day ≤ 9999 ∧
    daysBeforeYear (yearOf day) ≤ day ∧ day < daysBeforeYear (yearOf day + 1) := by
  have all : daysBeforeYear (9999 + 1) = daysOfYears := by decide
  have start : daysBeforeYear 0 ≤ day := Nat.zero_le _
  unfold yearOf
  exact (findGreatest_step (Nat.zero_le 9999) start (all ▸ before)).2

theorem monthOf_spec {year day : Nat} (inside : day < daysBeforeMonth year 13) :
    1 ≤ monthOf year day ∧ monthOf year day ≤ 12 ∧
      daysBeforeMonth year (monthOf year day) ≤ day ∧
      day < daysBeforeMonth year (monthOf year day + 1) := by
  have start : daysBeforeMonth year 1 ≤ day := Nat.zero_le _
  unfold monthOf
  exact findGreatest_step (show 1 ≤ 12 by decide) start inside

attribute [irreducible] yearOf monthOf

/-- The whole second that so many seconds are before, from year 0 on, or the leap second
behind it. -/
def ofSeconds (n : Nat) (leap : Bool) : Fields :=
  let day := n / 86400
  let year := yearOf day
  let dayOfYear := day - daysBeforeYear year
  let month := monthOf year dayOfYear
  ⟨year, month, dayOfYear - daysBeforeMonth year month + 1, n % 86400 / 3600, n % 3600 / 60,
    if leap then 60 else n % 60, [], .zulu false⟩

def secondsOfYears : Nat := 315569520000

structure Dated (n year month : Nat) : Prop where
  fourDigits : year ≤ 9999
  since : daysBeforeYear year ≤ n / 86400
  oneOfTwelve : 1 ≤ month ∧ month ≤ 12
  from_ : daysBeforeMonth year month ≤ n / 86400 - daysBeforeYear year
  until_ : n / 86400 - daysBeforeYear year < daysBeforeMonth year month + daysInMonth year month

theorem dated_ofSeconds {n : Nat} (before : n < secondsOfYears) (leap : Bool) :
    Dated n (ofSeconds n leap).year (ofSeconds n leap).month := by
  have day : n / 86400 < daysOfYears := by
    unfold secondsOfYears at before
    unfold daysOfYears
    omega
  obtain ⟨years, since, next⟩ := yearOf_spec day
  have inside : n / 86400 - daysBeforeYear (yearOf (n / 86400)) <
      daysBeforeMonth (yearOf (n / 86400)) 13 := by
    rw [daysBeforeMonth_year]
    rw [daysBeforeYear_succ] at next
    exact Nat.sub_lt_left_of_lt_add since next
  obtain ⟨first, last, from_, until_⟩ := monthOf_spec inside
  rw [daysBeforeMonth_succ _ first] at until_
  exact ⟨years, since, ⟨first, last⟩, from_, until_⟩

theorem inRange_ofSeconds {n : Nat} (before : n < secondsOfYears) (leap : Bool) :
    (ofSeconds n leap).inRange = true := by
  have dated := dated_ofSeconds before leap
  have day : (ofSeconds n leap).day ≤ daysInMonth (ofSeconds n leap).year (ofSeconds n leap).month := by
    have := dated.until_
    have := dated.from_
    show n / 86400 - daysBeforeYear (ofSeconds n leap).year -
      daysBeforeMonth (ofSeconds n leap).year (ofSeconds n leap).month + 1 ≤ _
    omega
  have hour : (ofSeconds n leap).hour ≤ 23 := by
    show n % 86400 / 3600 ≤ 23
    omega
  have minute : (ofSeconds n leap).minute ≤ 59 := by
    show n % 3600 / 60 ≤ 59
    omega
  have second : (ofSeconds n leap).second ≤ 60 := by
    show (if leap = true then 60 else n % 60) ≤ 60
    split <;> omega
  have first : 1 ≤ (ofSeconds n leap).day := Nat.succ_pos _
  simp only [Fields.inRange, Bool.and_eq_true, decide_eq_true_eq]
  exact ⟨⟨⟨⟨⟨⟨⟨⟨dated.oneOfTwelve.1, dated.oneOfTwelve.2⟩, first⟩, day⟩, hour⟩, minute⟩, second⟩, rfl⟩, rfl⟩

def Stamp.ofSeconds (n : Nat) (leap : Bool) (before : n < secondsOfYears) : Stamp :=
  ⟨Rfc3339.ofSeconds n leap, inRange_ofSeconds before leap⟩

theorem Stamp.seconds_ofSeconds {n : Nat} {leap : Bool} (before : n < secondsOfYears)
    (lastSecond : leap = true → n % 60 = 59) :
    (Stamp.ofSeconds n leap before).seconds = n - 62167219200 := by
  have dated := dated_ofSeconds before leap
  have since := dated.since
  have from_ := dated.from_
  have day : (Stamp.ofSeconds n leap before).day = n / 86400 - daysBeforeYear (Rfc3339.ofSeconds n leap).year -
      daysBeforeMonth (Rfc3339.ofSeconds n leap).year (Rfc3339.ofSeconds n leap).month + 1 := rfl
  have days : (Stamp.ofSeconds n leap before).days = (n / 86400 : Nat) - 719528 := by
    show (daysBeforeYear (Rfc3339.ofSeconds n leap).year : Int) +
      daysBeforeMonth (Rfc3339.ofSeconds n leap).year (Rfc3339.ofSeconds n leap).month +
        ((Stamp.ofSeconds n leap before).day - 1) - 719528 = _
    rw [day]
    omega
  have hour : (Stamp.ofSeconds n leap before).hour = n % 86400 / 3600 := rfl
  have minute : (Stamp.ofSeconds n leap before).minute = n % 3600 / 60 := rfl
  have second : min (Stamp.ofSeconds n leap before).second 59 = n % 60 := by
    show min (if leap = true then 60 else n % 60) 59 = n % 60
    split
    · rename_i h
      rw [lastSecond h]
      rfl
    · omega
  rw [Stamp.seconds, days, hour, minute]
  show _ + ((min (Stamp.ofSeconds n leap before).second 59 : Nat) : Int) - 0 = _
  rw [second]
  omega

theorem daysBeforeMonth_le (year : Nat) {month : Nat} (last : month ≤ 12) :
    daysBeforeMonth year month ≤ 341 := by
  have most : ∀ n ∈ (List.range' 1 (month - 1)).map (daysInMonth year), n ≤ 31 := by
    intro n member
    obtain ⟨m, -, rfl⟩ := List.mem_map.mp member
    unfold daysInMonth
    split_ifs <;> decide
  have sum := List.sum_le_card_nsmul _ 31 most
  rw [List.length_map, List.length_range'] at sum
  calc daysBeforeMonth year month ≤ (month - 1) * 31 := sum
    _ ≤ 341 := by omega

namespace Stamp

variable (s : Stamp)

theorem limits : (1 ≤ s.month ∧ s.month ≤ 12) ∧ (1 ≤ s.day ∧ s.day ≤ 31) ∧ s.hour ≤ 23 ∧
    s.minute ≤ 59 ∧ s.second ≤ 60 ∧ s.zone.inRange = true := by
  have valid := s.valid
  simp only [Fields.inRange, Bool.and_eq_true, decide_eq_true_eq] at valid
  have days : daysInMonth s.year s.month ≤ 31 := by
    unfold daysInMonth
    split_ifs <;> decide
  obtain ⟨⟨⟨⟨⟨⟨⟨month, day⟩, most⟩, hour⟩, minute⟩, second⟩, zone⟩, -⟩ := valid
  exact ⟨month, ⟨day, le_trans most days⟩, hour, minute, second, zone⟩

theorem day_le : s.day ≤ daysInMonth s.year s.month := by
  have valid := s.valid
  simp only [Fields.inRange, Bool.and_eq_true, decide_eq_true_eq] at valid
  exact valid.1.1.1.1.1.2

theorem days_lt (fourDigits : s.year ≤ 9999) : s.days < 2932897 := by
  have month := s.limits.1
  have day := s.day_le
  have inYear := daysBeforeMonth_mono s.year (Nat.succ_le_succ month.2)
  rw [daysBeforeMonth_succ s.year month.1, daysBeforeMonth_year] at inYear
  have years := daysBeforeYear_mono (Nat.succ_le_succ fourDigits)
  rw [daysBeforeYear_succ] at years
  have last : daysBeforeYear 10000 = 3652425 := by decide
  rw [Nat.succ_eq_add_one, last] at years
  unfold days
  omega

theorem zone_seconds : -86400 < s.zone.seconds ∧ s.zone.seconds < 86400 ∧
    s.zone.seconds % 60 = 0 := by
  obtain ⟨-, -, -, -, -, valid⟩ := s.limits
  cases h : s.zone with
  | zulu lower =>
    show -86400 < (0 : Int) ∧ (0 : Int) < 86400 ∧ (0 : Int) % 60 = 0
    decide
  | offset west hours minutes =>
    rw [h] at valid
    simp only [Zone.inRange, Bool.and_eq_true, decide_eq_true_eq] at valid
    simp only [Zone.seconds]
    split_ifs <;> omega

theorem seconds_bounds (fourDigits : s.year ≤ 9999) :
    -62167305600 < s.seconds ∧ s.seconds < 253500000000 := by
  obtain ⟨month, day, hour, minute, second, -⟩ := s.limits
  obtain ⟨east, west, -⟩ := s.zone_seconds
  have months := daysBeforeMonth_le s.year month.2
  have years : daysBeforeYear s.year ≤ 3652160 := by
    unfold daysBeforeYear
    omega
  unfold seconds Stamp.days
  omega

theorem seconds_mod_sixty (leap : s.second = 60) : s.seconds % 60 = 59 := by
  obtain ⟨-, -, whole⟩ := s.zone_seconds
  rw [seconds, leap]
  show (_ + ((59 : Nat) : Int) - s.zone.seconds) % 60 = 59
  omega

end Stamp

/-! ### The text of a whole second -/

/-- A number in `n` digits. -/
def fixed : Nat → Nat → Text
  | 0, _ => []
  | n + 1, v => fixed n (v / 10) ++ [0x30 + v % 10]

theorem length_fixed (n v : Nat) : (fixed n v).length = n := by
  induction n generalizing v with
  | zero => rfl
  | succ n ih => rw [fixed, List.length_append, ih, List.length_singleton]

theorem isDigit_fixed (n v : Nat) : ∀ c ∈ fixed n v, isDigit c = true := by
  induction n generalizing v with
  | zero => simp [fixed]
  | succ n ih =>
    refine List.forall_mem_append.mpr ⟨ih _, List.forall_mem_singleton.mpr ?_⟩
    simp only [isDigit, Bool.and_eq_true, decide_eq_true_eq]
    omega

theorem natOf_fixed {n v : Nat} (small : v < 10 ^ n) : natOf (fixed n v) = v := by
  induction n generalizing v with
  | zero =>
    rw [pow_zero, Nat.lt_one_iff] at small
    rw [small]
    rfl
  | succ n ih =>
    rw [pow_succ] at small
    rw [fixed, natOf_concat, ih (by omega)]
    omega

theorem number_fixed {n v : Nat} (small : v < 10 ^ n) (t : Text) :
    number n (fixed n v ++ t) = some (v, t) := by
  have digits : (fixed n v ++ t).take n = fixed n v := List.take_left' (length_fixed n v)
  have rest : (fixed n v ++ t).drop n = t := List.drop_left' (length_fixed n v)
  rw [number, digits, rest, natOf_fixed small,
    if_pos ⟨length_fixed n v, List.all_eq_true.mpr (isDigit_fixed n v)⟩]

theorem lt_of_number {n v : Nat} {t rest : Text} (h : number n t = some (v, rest)) :
    v < 10 ^ n := by
  unfold number at h
  split_ifs at h with digits
  cases h
  exact lt_of_lt_of_eq (natOf_lt digits.2) (congrArg _ digits.1)

theorem fourDigits_of_parse {t : Text} {s : Stamp} (h : parse t = some s) : s.year ≤ 9999 := by
  unfold parse at h
  obtain ⟨⟨year, t₁⟩, isYear, h⟩ := Option.bind_eq_some_iff.mp h
  obtain ⟨_, -, h⟩ := Option.bind_eq_some_iff.mp h
  obtain ⟨_, -, h⟩ := Option.bind_eq_some_iff.mp h
  obtain ⟨_, -, h⟩ := Option.bind_eq_some_iff.mp h
  obtain ⟨_, -, h⟩ := Option.bind_eq_some_iff.mp h
  obtain ⟨_, -, h⟩ := Option.bind_eq_some_iff.mp h
  obtain ⟨_, -, h⟩ := Option.bind_eq_some_iff.mp h
  obtain ⟨_, -, h⟩ := Option.bind_eq_some_iff.mp h
  obtain ⟨_, -, h⟩ := Option.bind_eq_some_iff.mp h
  obtain ⟨_, -, h⟩ := Option.bind_eq_some_iff.mp h
  obtain ⟨_, -, h⟩ := Option.bind_eq_some_iff.mp h
  obtain ⟨_, -, h⟩ := Option.bind_eq_some_iff.mp h
  obtain ⟨_, -, h⟩ := Option.bind_eq_some_iff.mp h
  dsimp only at h
  split_ifs at h
  cases h
  exact Nat.le_of_lt_succ (lt_of_number isYear)

theorem char_cons {cs : Text} {c : Nat} (listed : c ∈ cs) (t : Text) :
    char cs (c :: t) = some (c, t) := if_pos listed

/-- `%Y-%m-%dT%H:%M:%SZ`, of a year of four digits. -/
def Fields.text (f : Fields) : Text :=
  fixed 4 f.year ++ 0x2d :: (fixed 2 f.month ++ 0x2d :: (fixed 2 f.day ++ 0x54 ::
    (fixed 2 f.hour ++ 0x3a :: (fixed 2 f.minute ++ 0x3a :: (fixed 2 f.second ++ [0x5a])))))

theorem ascii_fixed (n v : Nat) : ∀ c ∈ fixed n v, c < 0x80 := isDigit_ascii (isDigit_fixed n v)

theorem ascii_text (f : Fields) : ∀ c ∈ f.text, c < 0x80 := by
  intro c member
  simp only [Fields.text, List.mem_append, List.mem_cons, List.not_mem_nil, or_false] at member
  rcases member with h | rfl | h | rfl | h | rfl | h | rfl | h | rfl | h | rfl
  any_goals decide
  all_goals exact ascii_fixed _ _ _ h

theorem parse_text {s : Stamp} (zulu : s.zone = .zulu false) (whole : s.fraction = [])
    (fourDigits : s.year ≤ 9999) : parse s.text = some s := by
  obtain ⟨months, days, hours, minutes, seconds, -⟩ := s.limits
  obtain ⟨⟨year, month, day, hour, minute, second, ds, z⟩, valid⟩ := s
  obtain rfl : z = .zulu false := zulu
  obtain rfl : ds = [] := whole
  have y : year < 10 ^ 4 := Nat.lt_succ_of_le fourDigits
  have mo : month < 10 ^ 2 := lt_of_le_of_lt months.2 (by decide)
  have d : day < 10 ^ 2 := lt_of_le_of_lt days.2 (by decide)
  have h : hour < 10 ^ 2 := lt_of_le_of_lt hours (by decide)
  have mi : minute < 10 ^ 2 := lt_of_le_of_lt minutes (by decide)
  have se : second < 10 ^ 2 := lt_of_le_of_lt seconds (by decide)
  have dash (t : Text) : char [0x2d] (0x2d :: t) = some (0x2d, t) := char_cons (by decide) t
  have colon (t : Text) : char [0x3a] (0x3a :: t) = some (0x3a, t) := char_cons (by decide) t
  have tee (t : Text) : char [0x54, 0x74] (0x54 :: t) = some (0x54, t) := char_cons (by decide) t
  have noFraction : fraction [0x5a] = some ([], [0x5a]) := rfl
  have ends : zone [0x5a] = some (.zulu false) := rfl
  unfold parse Fields.text
  refine Option.bind_eq_some_iff.mpr ⟨_, number_fixed y _, ?_⟩
  refine Option.bind_eq_some_iff.mpr ⟨_, dash _, ?_⟩
  refine Option.bind_eq_some_iff.mpr ⟨_, number_fixed mo _, ?_⟩
  refine Option.bind_eq_some_iff.mpr ⟨_, dash _, ?_⟩
  refine Option.bind_eq_some_iff.mpr ⟨_, number_fixed d _, ?_⟩
  refine Option.bind_eq_some_iff.mpr ⟨_, tee _, ?_⟩
  refine Option.bind_eq_some_iff.mpr ⟨_, number_fixed h _, ?_⟩
  refine Option.bind_eq_some_iff.mpr ⟨_, colon _, ?_⟩
  refine Option.bind_eq_some_iff.mpr ⟨_, number_fixed mi _, ?_⟩
  refine Option.bind_eq_some_iff.mpr ⟨_, colon _, ?_⟩
  refine Option.bind_eq_some_iff.mpr ⟨_, number_fixed se _, ?_⟩
  refine Option.bind_eq_some_iff.mpr ⟨_, noFraction, ?_⟩
  exact Option.bind_eq_some_iff.mpr ⟨_, ends, dif_pos valid⟩

end Rfc3339
