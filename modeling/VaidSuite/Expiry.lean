import VaidSuite.Document
import VaidSuite.Lib.Rfc3339
import VaidSuite.Python.Document
import VaidSuite.TypeScript.Document

/-! The expiry predicates of the three hosts on one text. Each reads it with the parser of its
host, so they differ where those parsers do. -/
namespace VaidSuite.Expiry

open JsonText (Text codes isDigit)
open Rfc3339 (Stamp ofMillis)

/-- An instant at millisecond precision, from 1970, in the years that a `datetime` has. -/
structure Now where
  millis : Int
  since : 0 ≤ millis + 62135596800000
  before : millis + 62135596800000 < 315537897600000

namespace Now

variable (now : Now)

def instant : Instant := ⟨now.millis / 1000, (now.millis % 1000).toNat * 1000000⟩

def datetime : Python.UtcDatetime :=
  ⟨((now.millis + 62135596800000) * 1000).toNat, by have := now.since; have := now.before; omega⟩

end Now

/-- `datetime.fromisoformat` has no leap seconds, no year 0 and no small `z`. -/
def inPython (stamp : Stamp) : Bool :=
  stamp.second != 60 && stamp.year != 0 && stamp.zone != .zulu true

def pythonMicros (stamp : Stamp) : Int :=
  (stamp.seconds + 62135596800) * 1000000 + stamp.parts 1000000

/-- chrono keeps a leap second in the nanoseconds. -/
def chronoInstant (stamp : Stamp) : Instant :=
  ⟨stamp.seconds, stamp.parts 1000000000 + if stamp.second = 60 then 1000000000 else 0⟩

def dateMillis (stamp : Stamp) : Int := stamp.seconds * 1000 + stamp.parts 1000

section Parsers

variable [Chrono] [Python.Libraries] [TypeScript.Runtime]

/-- How the three parsers read the timestamps of RFC 3339. Of other texts nothing is said. -/
structure ReadsTimestamps : Prop where
  parseFromRfc3339 : ∀ s stamp, Rfc3339.parse (codes s) = some stamp →
    Chrono.parseFromRfc3339 s = some (chronoInstant stamp)
  fromisoformat : ∀ s stamp, Rfc3339.parse (codes s) = some stamp →
    Python.Libraries.fromisoformat (Python.py s) =
      if inPython stamp then some (.aware (pythonMicros stamp)) else none
  /-- V8 reads nine digits of a fraction. -/
  dateParse : ∀ s stamp, Rfc3339.parse (codes s) = some stamp → stamp.fraction.length ≤ 9 →
    TypeScript.Runtime.dateParse (TypeScript.js s) =
      if stamp.second = 60 then none else some (dateMillis stamp)

/-- The documents of the three hosts give one text as their expiry. -/
structure Shares (s : String) (vaid : Vaid) (dict : Python.Dict) (document : TypeScript.Members) :
    Prop where
  vaid : vaid.expiresAtAsPresented = s
  dict : dict.get "expires_at" = .str (Python.py s)
  document : document.get "expires_at" = .str (TypeScript.js s)

end Parsers

abbrev LeapSeconds := Stamp → Prop

/-- The text is a timestamp that denotes an instant not before `now`. -/
def Live (leaps : LeapSeconds) (s : String) (now : Now) : Prop :=
  ∃ stamp, Rfc3339.parse (codes s) = some stamp ∧ (stamp.second = 60 → leaps stamp) ∧
    ofMillis now.millis ≤ stamp.instant

theorem units_of_ascii {s : String} (ascii : ∀ c ∈ codes s, c < 0x80) :
    (TypeScript.js s).map Fin.val = codes s := by
  unfold TypeScript.js codes at *
  generalize s.toList = chars at *
  induction chars with
  | nil => rfl
  | cons c cs ih =>
    rw [List.map_cons, List.forall_mem_cons] at ascii
    have small : c.toNat < 0x10000 := by omega
    rw [List.flatMap_cons, List.map_append, ih ascii.2, List.map_cons, TypeScript.utf16, if_pos small,
      List.map_singleton]
    show c.toNat % 0x10000 :: _ = _
    rw [Nat.mod_eq_of_lt small]
    rfl

theorem hasOffset_of_parse {s : String} {stamp : Stamp}
    (h : Rfc3339.parse (codes s) = some stamp) : TypeScript.hasOffset (TypeScript.js s) = true := by
  obtain ⟨back, ⟨front, whole, -⟩, zoned⟩ := Rfc3339.of_parse h
  unfold TypeScript.hasOffset
  rw [List.map_reverse, units_of_ascii (Rfc3339.ascii_of_parse h), whole, List.reverse_append]
  rcases Rfc3339.of_zone zoned with rfl | rfl | ⟨sign, h₁, h₂, m₁, m₂, rfl, signed, digits⟩
  · rfl
  · rfl
  · simp only [List.forall_mem_cons] at digits
    simp only [List.reverse_cons, List.reverse_nil, List.nil_append, List.cons_append]
    split
    · rfl
    · rfl
    · rename_i same
      cases same
      simpa [digits] using signed
    · rename_i other
      exact absurd rfl (other _ _ _ _ _ _)

theorem instant_le_iff (a b : Instant) :
    a ≤ b ↔ a.secs < b.secs ∨ a.secs = b.secs ∧ a.nanos ≤ b.nanos :=
  Prod.Lex.toLex_le_toLex

theorem le_chronoInstant_iff (now : Now) (stamp : Stamp) :
    now.instant ≤ chronoInstant stamp ↔ ofMillis now.millis ≤ stamp.instant := by
  rw [instant_le_iff, stamp.ofMillis_le_iff]
  refine or_congr Iff.rfl (and_congr_right (fun _ => ?_))
  have below : now.millis % 1000 < 1000 := Int.emod_lt_of_pos _ (by decide)
  have finer := stamp.mul_le_parts_iff (now.millis % 1000).toNat 1000 (show 0 < 1000000 by decide)
  show (now.millis % 1000).toNat * 1000000 ≤ stamp.parts (1000 * 1000000) + _ ↔ _
  by_cases leap : stamp.second = 60
  · simp only [leap, if_true, true_or, iff_true]
    omega
  · simp only [leap, if_false, false_or, Nat.add_zero]
    exact finer

theorem le_dateMillis_iff (now : Now) {stamp : Stamp} (plain : stamp.second ≠ 60) :
    now.millis ≤ dateMillis stamp ↔ ofMillis now.millis ≤ stamp.instant := by
  have within := stamp.parts_lt (show 0 < 1000 by decide)
  rw [stamp.ofMillis_le_iff, dateMillis]
  simp only [plain, false_or]
  omega

theorem le_pythonMicros_iff (now : Now) {stamp : Stamp} (plain : stamp.second ≠ 60) :
    (now.datetime.val : Int) ≤ pythonMicros stamp ↔ ofMillis now.millis ≤ stamp.instant := by
  have within := stamp.parts_lt (show 0 < 1000000 by decide)
  have since := now.since
  have finer := stamp.mul_le_parts_iff (now.millis % 1000).toNat 1000 (show 0 < 1000 by decide)
  have value : (now.datetime.val : Int) = (now.millis + 62135596800000) * 1000 :=
    Int.toNat_of_nonneg (by omega)
  rw [stamp.ofMillis_le_iff, value, pythonMicros]
  simp only [plain, false_or, ← finer, Nat.reduceMul]
  omega

/-- The instant is in a year that a UTC `datetime` has. -/
def InUtcYears (stamp : Stamp) : Prop :=
  0 ≤ stamp.seconds + 62135596800 ∧ stamp.seconds + 62135596800 < 315537897600

theorem inUtcYears_iff (stamp : Stamp) :
    InUtcYears stamp ↔ 0 ≤ pythonMicros stamp ∧ pythonMicros stamp < 315537897600000000 := by
  have within := stamp.parts_lt (show 0 < 1000000 by decide)
  unfold InUtcYears pythonMicros
  omega

theorem plain_of_inPython {stamp : Stamp} (read : inPython stamp = true) : stamp.second ≠ 60 := by
  simp only [inPython, Bool.and_eq_true, bne_iff_ne] at read
  exact read.1.1

section Verdicts

variable {s : String} {vaid : Vaid} {dict : Python.Dict} {document : TypeScript.Members}
variable (shared : Shares s vaid dict document) (now : Now)

include shared

theorem rust_live_iff [Chrono] : vaid.isExpiredAt now.instant = false ↔
    ∃ e, Chrono.parseFromRfc3339 s = some e ∧ now.instant ≤ e := by
  rw [Vaid.isExpiredAt, Vaid.expiresAt, shared.vaid]
  cases Chrono.parseFromRfc3339 s with
  | none => simp
  | some e => simp

theorem javascript_live_iff [TypeScript.Runtime] : TypeScript.isExpired document now.millis = false ↔
    TypeScript.hasOffset (TypeScript.js s) = true ∧
      ∃ m, TypeScript.Runtime.dateParse (TypeScript.js s) = some m ∧ now.millis ≤ m := by
  rw [TypeScript.isExpired, shared.document, TypeScript.parseRfc3339]
  cases TypeScript.hasOffset (TypeScript.js s) with
  | false => simp
  | true =>
    cases TypeScript.Runtime.dateParse (TypeScript.js s) with
    | none => simp
    | some m => simp

theorem python_ok_iff [Python.Libraries] (expired : Bool) :
    Python.isExpiredAt dict now.datetime = .ok expired ↔
      (∀ m, Python.Libraries.fromisoformat (Python.py s) = some (.aware m) →
          0 ≤ m ∧ m < 315537897600000000) ∧
        (expired = false ↔ ∃ m, Python.Libraries.fromisoformat (Python.py s) = some (.aware m) ∧
          now.datetime.val ≤ m) := by
  rw [Python.isExpiredAt, shared.dict, Python.parseRfc3339]
  cases found : Python.Libraries.fromisoformat (Python.py s) with
  | none => cases expired <;> simp [pure, Except.pure, bind, Except.bind]
  | some read =>
    cases read with
    | naive => cases expired <;> simp [pure, Except.pure, bind, Except.bind]
    | aware m =>
      simp only [Option.some.injEq, Python.Datetime.aware.injEq, forall_eq', exists_eq_left']
      unfold Python.utcDatetime
      split
      · rename_i inYears
        have order : (⟨m.toNat, by omega⟩ : Python.UtcDatetime) < now.datetime ↔
            m < now.datetime.val := by
          show m.toNat < now.datetime.val ↔ _
          omega
        simp only [Except.map, bind, Except.bind, pure, Except.pure, Except.ok.injEq, order, inYears,
          and_self, true_and]
        cases expired <;> simp
      · rename_i outside
        simp [Except.map, bind, Except.bind, outside]

end Verdicts

section Agreement

variable [Chrono] [Python.Libraries] [TypeScript.Runtime]

/-- All three return, and with the answer that the text deserves. -/
def Agree (leaps : LeapSeconds) (s : String) (vaid : Vaid) (dict : Python.Dict)
    (document : TypeScript.Members) (now : Now) : Prop :=
  ∃ expired, vaid.isExpiredAt now.instant = expired ∧
    Python.isExpiredAt dict now.datetime = .ok expired ∧
    TypeScript.isExpired document now.millis = expired ∧ (expired = false ↔ Live leaps s now)

/-- A timestamp on which the parsers cannot differ at `now`. -/
structure Undisputed (s : String) (stamp : Stamp) (now : Now) : Prop where
  inYears : inPython stamp = true → InUtcYears stamp
  read : inPython stamp = true ∨ stamp.instant < ofMillis now.millis
  /-- Of a fraction past nine digits it is left to V8 to read it right. -/
  precise : 9 < stamp.fraction.length →
    ((∃ m, TypeScript.Runtime.dateParse (TypeScript.js s) = some m ∧ now.millis ≤ m) ↔
      ofMillis now.millis ≤ stamp.instant)

/-- No parser reads the text as an instant not before `now`. -/
structure Unread (s : String) (now : Now) : Prop where
  chrono : ∀ e, Chrono.parseFromRfc3339 s = some e → e < now.instant
  fromisoformat : ∀ m, Python.Libraries.fromisoformat (Python.py s) = some (.aware m) →
    0 ≤ m ∧ m < now.datetime.val
  dateParse : TypeScript.hasOffset (TypeScript.js s) = true → ∀ m,
    TypeScript.Runtime.dateParse (TypeScript.js s) = some m → m < now.millis

def Uniform (s : String) (now : Now) : Prop :=
  match Rfc3339.parse (codes s) with
  | some stamp => Undisputed s stamp now
  | none => Unread s now

variable {leaps : LeapSeconds} {s : String} {vaid : Vaid} {dict : Python.Dict}
  {document : TypeScript.Members}

theorem agree_iff (shared : Shares s vaid dict document) (now : Now) :
    Agree leaps s vaid dict document now ↔
      ((∃ e, Chrono.parseFromRfc3339 s = some e ∧ now.instant ≤ e) ↔ Live leaps s now) ∧
      ((∀ m, Python.Libraries.fromisoformat (Python.py s) = some (.aware m) →
          0 ≤ m ∧ m < 315537897600000000) ∧
        ((∃ m, Python.Libraries.fromisoformat (Python.py s) = some (.aware m) ∧
          now.datetime.val ≤ m) ↔ Live leaps s now)) ∧
      ((TypeScript.hasOffset (TypeScript.js s) = true ∧
        ∃ m, TypeScript.Runtime.dateParse (TypeScript.js s) = some m ∧ now.millis ≤ m) ↔
          Live leaps s now) := by
  rw [← rust_live_iff shared, ← javascript_live_iff shared, Agree]
  simp only [python_ok_iff shared]
  constructor
  · rintro ⟨expired, rust, ⟨returns, python⟩, javascript, right⟩
    rw [rust, javascript]
    exact ⟨right, ⟨returns, python.symm.trans right⟩, right⟩
  · rintro ⟨rust, ⟨returns, python⟩, javascript⟩
    refine ⟨vaid.isExpiredAt now.instant, rfl, ⟨returns, rust.trans python.symm⟩, ?_, rust⟩
    have same := javascript.trans rust.symm
    rwa [Bool.coe_false_iff_false, Bool.not_inj_iff] at same

theorem dateParse_live_iff (reads : ReadsTimestamps) {stamp : Stamp}
    (parsed : Rfc3339.parse (codes s) = some stamp) (now : Now)
    (short : stamp.fraction.length ≤ 9) :
    (∃ m, TypeScript.Runtime.dateParse (TypeScript.js s) = some m ∧ now.millis ≤ m) ↔
      stamp.second ≠ 60 ∧ ofMillis now.millis ≤ stamp.instant := by
  rw [reads.dateParse s stamp parsed short]
  by_cases leap : stamp.second = 60
  · simp [leap]
  · simp [leap, le_dateMillis_iff now leap]

theorem agree_of_inPython (reads : ReadsTimestamps) (shared : Shares s vaid dict document)
    (now : Now) {stamp : Stamp} (parsed : Rfc3339.parse (codes s) = some stamp)
    (read : inPython stamp = true) :
    Agree leaps s vaid dict document now ↔ Undisputed s stamp now := by
  have plain := plain_of_inPython read
  have live : Live leaps s now ↔ ofMillis now.millis ≤ stamp.instant := by
    simp [Live, parsed, plain]
  rw [agree_iff shared, live, reads.parseFromRfc3339 s stamp parsed,
    reads.fromisoformat s stamp parsed, hasOffset_of_parse parsed, read]
  simp only [if_true, Option.some.injEq, Python.Datetime.aware.injEq, exists_eq_left', forall_eq',
    le_chronoInstant_iff, le_pythonMicros_iff now plain, iff_self, and_true, true_and,
    ← inUtcYears_iff]
  constructor
  · rintro ⟨inYears, javascript⟩
    exact ⟨fun _ => inYears, .inl read, fun _ => javascript⟩
  · intro undisputed
    refine ⟨undisputed.inYears read, ?_⟩
    by_cases long : 9 < stamp.fraction.length
    · exact undisputed.precise long
    · rw [dateParse_live_iff reads parsed now (Nat.le_of_not_lt long)]
      simp [plain]

theorem agree_of_not_inPython (reads : ReadsTimestamps) (shared : Shares s vaid dict document)
    (now : Now) {stamp : Stamp} (parsed : Rfc3339.parse (codes s) = some stamp)
    (unread : inPython stamp = false) :
    Agree leaps s vaid dict document now ↔ Undisputed s stamp now := by
  have live : Live leaps s now ↔
      (stamp.second = 60 → leaps stamp) ∧ ofMillis now.millis ≤ stamp.instant := by
    simp [Live, parsed]
  rw [agree_iff shared, live, reads.parseFromRfc3339 s stamp parsed,
    reads.fromisoformat s stamp parsed, hasOffset_of_parse parsed, unread]
  simp only [Bool.false_eq_true, if_false, Option.some.injEq, exists_eq_left', false_and, reduceCtorEq,
    exists_const, false_implies, implies_true, le_chronoInstant_iff, true_and, false_iff]
  constructor
  · rintro ⟨rust, passed, javascript⟩
    have beyond : ¬ ofMillis now.millis ≤ stamp.instant := fun h => passed (rust.mp h)
    refine ⟨by simp [unread], .inr (not_le.mp beyond), fun _ => ?_⟩
    rw [javascript]
    exact iff_of_false passed beyond
  · intro undisputed
    have beyond : ¬ ofMillis now.millis ≤ stamp.instant :=
      not_le.mpr (undisputed.read.resolve_left (by simp [unread]))
    refine ⟨iff_of_false beyond (fun h => beyond h.2), fun h => beyond h.2, iff_of_false ?_ (fun h => beyond h.2)⟩
    by_cases long : 9 < stamp.fraction.length
    · rw [undisputed.precise long]
      exact beyond
    · rw [dateParse_live_iff reads parsed now (Nat.le_of_not_lt long)]
      exact fun h => beyond h.2

theorem agree_of_no_timestamp (shared : Shares s vaid dict document) (now : Now)
    (unparsed : Rfc3339.parse (codes s) = none) :
    Agree leaps s vaid dict document now ↔ Unread s now := by
  have live : Live leaps s now ↔ False := by simp [Live, unparsed]
  have bound := now.datetime.isLt
  rw [agree_iff shared, live]
  simp only [iff_false, not_exists, not_and, not_le]
  constructor
  · rintro ⟨rust, ⟨returns, python⟩, javascript⟩
    exact ⟨rust, fun m read => ⟨(returns m read).1, python m read⟩, javascript⟩
  · intro unread
    refine ⟨unread.chrono, ⟨fun m read => ?_, fun m read => (unread.fromisoformat m read).2⟩,
      unread.dateParse⟩
    have := unread.fromisoformat m read
    omega

/-- The three predicates return, agree, and answer as the text deserves, exactly where the
parsers cannot differ. -/
theorem expiry_agrees_iff (reads : ReadsTimestamps) (leaps : LeapSeconds)
    (shared : Shares s vaid dict document) (now : Now) :
    Agree leaps s vaid dict document now ↔ Uniform s now := by
  unfold Uniform
  split
  · rename_i stamp parsed
    cases read : inPython stamp with
    | true => exact agree_of_inPython reads shared now parsed read
    | false => exact agree_of_not_inPython reads shared now parsed read
  · rename_i unparsed
    exact agree_of_no_timestamp shared now unparsed

end Agreement

section Examples

/-- Parsers that read timestamps and nothing else. -/
@[reducible] def chrono : Chrono where
  parseFromRfc3339 s := (Rfc3339.parse (codes s)).map chronoInstant
  formatWholeSecond _ := ""
  serialize _ := ""

@[reducible] def libraries : Python.Libraries :=
  { Python.Libraries.plain with
    fromisoformat := fun t => (Rfc3339.parse (t.map Fin.val)).bind (fun stamp =>
      if inPython stamp then some (.aware (pythonMicros stamp)) else none) }

@[reducible] def runtime : TypeScript.Runtime where
  sha256 _ := []
  canonicalize _ := none
  ed25519Verify _ _ _ := false
  dateParse t := (Rfc3339.parse (t.map Fin.val)).bind (fun stamp =>
    if stamp.second = 60 then none else some (dateMillis stamp))
  toText _ := none
  stringify _ := []
  syntaxError _ := []
  toNumber _ := none
  bytesOfArrayLike _ := none

attribute [local instance] chrono libraries runtime

theorem readsTimestamps : ReadsTimestamps where
  parseFromRfc3339 s stamp parsed := by
    show (Rfc3339.parse (codes s)).map chronoInstant = _
    rw [parsed, Option.map_some]
  fromisoformat s stamp parsed := by
    have points : (Python.py s).map Fin.val = codes s := by
      rw [Python.py, codes, List.map_map]
      refine List.map_congr_left (fun c _ => Nat.mod_eq_of_lt ?_)
      rcases c.valid with low | high
      · exact low.trans (by decide)
      · exact high.2
    show (Rfc3339.parse ((Python.py s).map Fin.val)).bind _ = _
    rw [points, parsed, Option.bind_some]
  dateParse s stamp parsed _ := by
    show (Rfc3339.parse ((TypeScript.js s).map Fin.val)).bind _ = _
    rw [units_of_ascii (Rfc3339.ascii_of_parse parsed), parsed, Option.bind_some]

def vaidUntil (text : String) : Vaid :=
  { Vaid.withLineage ⟨.fromU128 1⟩ ⟨""⟩ "" ⟨""⟩ ⟨0, 0⟩ ⟨0, 0⟩ [] [] none [] "" [] "" "" with
    expiresAtAsPresented := text }

def dictUntil (text : String) : Python.Dict := [(Python.py "expires_at", .str (Python.py text))]

def membersUntil (text : String) : TypeScript.Members :=
  [(TypeScript.js "expires_at", .str (TypeScript.js text))]

theorem shares (text : String) : Shares text (vaidUntil text) (dictUntil text) (membersUntil text) where
  vaid := rfl
  dict := by simp [Python.Dict.get, dictUntil]
  document := by simp [TypeScript.Members.get, membersUntil]

/-- The first instant of 2030. -/
def newYear : Now := ⟨1893456000000, by decide, by decide⟩

theorem expiry_agrees_iff_newYear :
    Agree (fun _ => False) "2030-01-01T00:00:00Z" (vaidUntil "2030-01-01T00:00:00Z")
        (dictUntil "2030-01-01T00:00:00Z") (membersUntil "2030-01-01T00:00:00Z") newYear ↔
      Uniform "2030-01-01T00:00:00Z" newYear :=
  expiry_agrees_iff readsTimestamps (fun _ => False) (shares _) newYear

def lastSecond : String := "9999-12-31T23:59:59-00:01"

/-- Python raises on a timestamp past its years, where Rust and TypeScript answer. -/
theorem lastSecond_raises :
    (∃ stamp, Rfc3339.parse (codes lastSecond) = some stamp) ∧
    (vaidUntil lastSecond).isExpiredAt newYear.instant = false ∧
    TypeScript.isExpired (membersUntil lastSecond) newYear.millis = false ∧
    Python.isExpiredAt (dictUntil lastSecond) newYear.datetime = .error .overflowError ∧
    ∀ leaps, ¬ Agree leaps lastSecond (vaidUntil lastSecond) (dictUntil lastSecond)
      (membersUntil lastSecond) newYear := by
  have reads : (Rfc3339.parse (codes lastSecond)).isSome = true := by decide +kernel
  have raises : Python.isExpiredAt (dictUntil lastSecond) newYear.datetime =
      .error .overflowError := by decide +kernel
  refine ⟨Option.isSome_iff_exists.mp reads, by decide +kernel, by decide +kernel, raises, ?_⟩
  rintro leaps ⟨expired, -, returned, -⟩
  rw [raises] at returned
  cases returned

end Examples

end VaidSuite.Expiry
