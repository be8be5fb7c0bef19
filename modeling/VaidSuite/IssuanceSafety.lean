import VaidSuite.ConsentOrder
import VaidSuite.Expiry
import VaidSuite.FromJson
import VaidSuite.Issuer
import VaidSuite.Lib.Calendar

/-! Issuing under any TTL. The TTL is added to the clock, the sum is clamped to a ceiling, and
the earlier of the two is rendered in twenty characters. Each step has a range of its own. -/
namespace VaidSuite

open JsonText (Text codes isDigit)
open Rfc3339 (Stamp)

/-- Does `value` match the E.6 profile exactly, `2030-01-01T00:00:00Z`? -/
def isE6Timestamp [Chrono] (value : String) : Bool :=
  let b := asBytes value
  b.length == 20 && b[4]? == some 0x2d && b[7]? == some 0x2d && b[10]? == some 0x54 &&
    b[13]? == some 0x3a && b[16]? == some 0x3a && b[19]? == some 0x5a &&
    [0, 1, 2, 3, 5, 6, 8, 9, 11, 12, 14, 15, 17, 18].all (fun i => (b[i]?).any isDigit) &&
    (Chrono.parseFromRfc3339 value).isSome

def Vaid.hasConformingTimestamps [Chrono] (v : Vaid) : Bool :=
  isE6Timestamp v.issuedAtAsPresented && isE6Timestamp v.expiresAtAsPresented

namespace Instant

/-- What a `DateTime<Utc>` can hold. -/
structure IsDateTime (i : Instant) : Prop where
  notBefore : -8334601228800 ≤ i.secs
  notAfter : i.secs ≤ 8210266876799
  nanos : i.nanos < 2000000000
  leap : 1000000000 ≤ i.nanos → i.secs % 60 = 59

def FromYear0 (i : Instant) : Prop := -62167219200 ≤ i.secs

def BeforeYear10000 (i : Instant) : Prop := i.secs < 253402300800

instance (i : Instant) : Decidable i.FromYear0 := inferInstanceAs (Decidable (_ ≤ _))
instance (i : Instant) : Decidable i.BeforeYear10000 := inferInstanceAs (Decidable (_ < _))

def InYears (i : Instant) : Prop := i.FromYear0 ∧ i.BeforeYear10000

instance (i : Instant) : Decidable i.InYears := inferInstanceAs (Decidable (_ ∧ _))

variable {i j : Instant}

theorem secs_mono (notAfter : i ≤ j) : i.secs ≤ j.secs := by
  have pairs : toLex (i.secs, i.nanos) ≤ toLex (j.secs, j.nanos) := notAfter
  rw [Prod.Lex.toLex_le_toLex] at pairs
  omega

theorem fromYear0_min : (min i j).FromYear0 ↔ i.FromYear0 ∧ j.FromYear0 := by
  rcases le_total i j with earlier | earlier
  · rw [min_eq_left earlier]
    exact ⟨fun h => ⟨h, le_trans h (secs_mono earlier)⟩, And.left⟩
  · rw [min_eq_right earlier]
    exact ⟨fun h => ⟨le_trans h (secs_mono earlier), h⟩, And.right⟩

theorem beforeYear10000_min :
    (min i j).BeforeYear10000 ↔ i.BeforeYear10000 ∨ j.BeforeYear10000 := by
  rcases le_total i j with earlier | earlier
  · rw [min_eq_left earlier]
    exact ⟨Or.inl, fun h => h.elim id (lt_of_le_of_lt (secs_mono earlier))⟩
  · rw [min_eq_right earlier]
    exact ⟨Or.inr, fun h => h.elim (lt_of_le_of_lt (secs_mono earlier)) id⟩

theorem truncSubsecs_le (i : Instant) : i.truncSubsecs ≤ i := by
  show toLex (i.secs, _) ≤ toLex (i.secs, i.nanos)
  rw [Prod.Lex.toLex_le_toLex]
  exact .inr ⟨rfl, Nat.sub_le _ _⟩

theorem IsDateTime.truncSubsecs (h : i.IsDateTime) : i.truncSubsecs.IsDateTime where
  notBefore := h.notBefore
  notAfter := h.notAfter
  nanos := lt_of_le_of_lt (Nat.sub_le _ _) h.nanos
  leap late := h.leap (le_trans late (Nat.sub_le _ _))

theorem truncSubsecs_nanos (h : i.IsDateTime) :
    i.truncSubsecs.nanos = if 1000000000 ≤ i.nanos then 1000000000 else 0 := by
  have := h.nanos
  show i.nanos - i.nanos % 1000000000 = _
  split <;> omega

theorem shifted_truncSubsecs (h : i.IsDateTime) (seconds : Int) :
    i.truncSubsecs.shifted seconds = (i.shifted seconds).truncSubsecs := by
  have bound := h.nanos
  have leaving : (1000000000 ≤ i.truncSubsecs.nanos ∧ seconds ≠ 0) =
      (1000000000 ≤ i.nanos ∧ seconds ≠ 0) := by
    refine propext (and_congr_left' ?_)
    show 1000000000 ≤ i.nanos - i.nanos % 1000000000 ↔ _
    omega
  unfold shifted
  simp only [leaving]
  refine congrArg₂ Instant.mk rfl ?_
  show (if _ then i.nanos - i.nanos % 1000000000 - 1000000000 else i.nanos - i.nanos % 1000000000) =
    (if _ then _ else _) - (if _ then _ else _) % 1000000000
  split_ifs with late
  · have sub : i.nanos % 1000000000 = i.nanos - 1000000000 := by omega
    have small : (i.nanos - 1000000000) % 1000000000 = i.nanos - 1000000000 := by omega
    rw [sub, small, Nat.sub_sub_self late.1, Nat.sub_self, Nat.sub_self]
  · rfl

theorem shifted_truncSubsecs_le (h : i.IsDateTime) (seconds : Int) :
    i.truncSubsecs.shifted seconds ≤ i.shifted seconds := by
  rw [shifted_truncSubsecs h]
  exact truncSubsecs_le _

end Instant

theorem shape_text (f : Rfc3339.Fields) :
    f.text.length = 20 ∧ f.text[4]? = some 0x2d ∧ f.text[7]? = some 0x2d ∧
      f.text[10]? = some 0x54 ∧ f.text[13]? = some 0x3a ∧ f.text[16]? = some 0x3a ∧
      f.text[19]? = some 0x5a ∧
      ∀ i ∈ [0, 1, 2, 3, 5, 6, 8, 9, 11, 12, 14, 15, 17, 18],
        (f.text[i]?).any isDigit = true := by
  have digit (v : Nat) : isDigit (0x30 + v % 10) = true := by
    simp only [isDigit, Bool.and_eq_true, decide_eq_true_eq]
    omega
  refine ⟨rfl, rfl, rfl, rfl, rfl, rfl, rfl, ?_⟩
  simp only [List.forall_mem_cons, List.not_mem_nil, false_implies, implies_true, and_true]
  exact ⟨digit _, digit _, digit _, digit _, digit _, digit _, digit _, digit _, digit _, digit _,
    digit _, digit _, digit _, digit _⟩

section Rendering

variable [Chrono]

/-- chrono's documentation of its two text conversions. -/
structure Chrono.Documented : Prop where
  parsed : ∀ s i, parseFromRfc3339 s = some i → i.IsDateTime
  reads : ∀ s stamp, Rfc3339.parse (codes s) = some stamp →
    parseFromRfc3339 s = some (Expiry.chronoInstant stamp)
  writes : ∀ i : Instant, i.IsDateTime → i.InYears → ∃ stamp : Stamp,
    stamp.zone = .zulu false ∧ stamp.fraction = [] ∧ stamp.year ≤ 9999 ∧
      stamp.seconds = i.secs ∧ (stamp.second = 60 ↔ 1000000000 ≤ i.nanos) ∧
      codes (formatWholeSecond i) = stamp.text
  /-- Before year 0 and after year 9999 an initial sign is required. -/
  signs : ∀ i : Instant, i.IsDateTime → ¬ i.InYears → ∃ sign ∈ [0x2b, 0x2d], ∃ t,
    codes (formatWholeSecond i) = sign :: t

variable (documented : Chrono.Documented)
include documented

theorem written_inYears {i : Instant} (valid : i.IsDateTime) (years : i.InYears) :
    isE6Timestamp (Chrono.formatWholeSecond i) = true ∧
      Chrono.parseFromRfc3339 (Chrono.formatWholeSecond i) = some i.truncSubsecs := by
  obtain ⟨stamp, zulu, whole, fourDigits, seconds, leap, text⟩ := documented.writes i valid years
  have bytes : asBytes (Chrono.formatWholeSecond i) = stamp.text := by
    rw [asBytes_eq, text, utf8Code_respelling.ascii_text (Rfc3339.ascii_text _)]
  have instant : Expiry.chronoInstant stamp = i.truncSubsecs := by
    have fraction : stamp.parts 1000000000 = 0 := by
      rw [Stamp.parts, whole]
      rfl
    show Instant.mk stamp.seconds _ = ⟨i.secs, i.truncSubsecs.nanos⟩
    rw [seconds, fraction, Instant.truncSubsecs_nanos valid, Nat.zero_add]
    simp only [leap]
  have read : Chrono.parseFromRfc3339 (Chrono.formatWholeSecond i) = some i.truncSubsecs := by
    rw [← instant]
    refine documented.reads _ stamp ?_
    rw [text, Rfc3339.parse_text zulu whole fourDigits]
  obtain ⟨length, b₄, b₇, b₁₀, b₁₃, b₁₆, b₁₉, digits⟩ := shape_text stamp.toFields
  refine ⟨?_, read⟩
  simp only [isE6Timestamp, bytes, length, b₄, b₇, b₁₀, b₁₃, b₁₆, b₁₉, List.all_eq_true.mpr digits,
    read, beq_self_eq_true, Bool.and_true, Option.isSome_some]

theorem written_signed {i : Instant} (valid : i.IsDateTime) (years : ¬ i.InYears) :
    isE6Timestamp (Chrono.formatWholeSecond i) = false := by
  obtain ⟨sign, isSign, t, text⟩ := documented.signs i valid years
  have low : sign < 0x80 ∧ isDigit sign = false := by
    rcases List.mem_pair.mp isSign with rfl | rfl <;> decide
  have first : (asBytes (Chrono.formatWholeSecond i))[0]? = some sign := by
    rw [asBytes_eq, text, utf8Code_respelling.cons_ascii low.1]
    rfl
  refine Bool.eq_false_iff.mpr (fun conforms => ?_)
  simp only [isE6Timestamp, Bool.and_eq_true, List.all_eq_true] at conforms
  have digit := conforms.1.2 0 (by decide)
  rw [first, Option.any_some, low.2] at digit
  cases digit

theorem isE6Timestamp_written {i : Instant} (valid : i.IsDateTime) :
    isE6Timestamp (Chrono.formatWholeSecond i) = true ↔ i.InYears := by
  refine ⟨fun conforms => by_contra (fun years => ?_),
    fun years => (written_inYears documented valid years).1⟩
  rw [written_signed documented valid years] at conforms
  cases conforms

end Rendering

namespace ReferenceIssuer

variable {L R : Type} (issuer : ReferenceIssuer L R) (env : IssueEnv) (notAfter : Option String)

/-- Where the TTL alone ends, on instants without a last one. -/
def ownExpiry : Instant := env.now.truncSubsecs.shifted (issuer.vaidTtlHours * 3600)

/-- A `DateTime` holds the sum of the clock and the TTL, before any clamp. -/
def TtlFits : Prop :=
  -8334601228800 ≤ (issuer.ownExpiry env).secs ∧ (issuer.ownExpiry env).secs ≤ 8210266876799

/-- The earlier of the TTL and a readable ceiling has a year of four digits. -/
def EndsInYears [Chrono] : Prop :=
  match notAfter with
  | none => (issuer.ownExpiry env).InYears
  | some ceiling => ∀ cap, Chrono.parseFromRfc3339 ceiling = some cap →
    ((issuer.ownExpiry env).FromYear0 ∧ cap.FromYear0) ∧
      ((issuer.ownExpiry env).BeforeYear10000 ∨ cap.BeforeYear10000)

structure ClockInYears : Prop where
  valid : env.now.IsDateTime
  since : 0 ≤ env.now.secs
  before : env.now.secs < 253402300800

/-- Nothing panics, and a document that is returned conforms, and expires no later than the
TTL and the ceiling allow. -/
structure Issues [Crypto] [Chrono] [LineageStore L] (attributes : IssueAttributes)
    (publicKeyDer : Bytes) : Prop where
  returns : (issuer.buildAndSignVaid env attributes publicKeyDer notAfter).1 ≠ .panicked
  conforms : ∀ v, (issuer.buildAndSignVaid env attributes publicKeyDer notAfter).1 = .ok v →
    v.hasConformingTimestamps = true
  expires : ∀ v, (issuer.buildAndSignVaid env attributes publicKeyDer notAfter).1 = .ok v →
    ∃ e, v.expiresAt = some e ∧ e ≤ env.now.shifted (issuer.vaidTtlHours * 3600) ∧
      ∀ ceiling, notAfter = some ceiling → ∃ cap, Chrono.parseFromRfc3339 ceiling = some cap ∧ e ≤ cap

variable {issuer env notAfter}

theorem addHours_eq (issuer : ReferenceIssuer L R) (clock : ClockInYears env) :
    (issuer.TtlFits env → env.now.truncSubsecs.addHours issuer.vaidTtlHours =
      some (issuer.ownExpiry env)) ∧
    (¬ issuer.TtlFits env → env.now.truncSubsecs.addHours issuer.vaidTtlHours = none) := by
  have since := clock.since
  have before := clock.before
  have secs : (issuer.ownExpiry env).secs = env.now.secs + issuer.vaidTtlHours * 3600 +
      if (1000000000 ≤ env.now.truncSubsecs.nanos ∧ issuer.vaidTtlHours * 3600 ≠ 0) ∧
        issuer.vaidTtlHours * 3600 < 0 then 1 else 0 := rfl
  have carry : 0 ≤ (issuer.ownExpiry env).secs - (env.now.secs + issuer.vaidTtlHours * 3600) ∧
      (issuer.ownExpiry env).secs - (env.now.secs + issuer.vaidTtlHours * 3600) ≤ 1 := by
    rw [secs]
    split_ifs <;> omega
  have sum : env.now.truncSubsecs.addHours issuer.vaidTtlHours =
      if issuer.vaidTtlHours * 3600 < -9223372036854775 ∨
          9223372036854775 < issuer.vaidTtlHours * 3600 then none
      else if (issuer.ownExpiry env).secs < -8334601228800 ∨
          8210266876799 < (issuer.ownExpiry env).secs then none
      else some (issuer.ownExpiry env) := rfl
  rw [sum]
  unfold TtlFits
  constructor
  · intro fits
    rw [if_neg (by omega), if_neg (by omega)]
  · intro overflows
    split_ifs with long wide
    · rfl
    · rfl
    · omega

theorem isDateTime_ownExpiry (clock : ClockInYears env) (fits : issuer.TtlFits env) :
    (issuer.ownExpiry env).IsDateTime := by
  have whole := clock.valid.truncSubsecs
  refine ⟨fits.1, fits.2, ?_, ?_⟩
  · show (if _ then _ - 1000000000 else env.now.truncSubsecs.nanos) < _
    split_ifs
    · exact lt_of_le_of_lt (Nat.sub_le _ _) whole.nanos
    · exact whole.nanos
  · -- A leap second is kept only where nothing is added.
    show 1000000000 ≤ (if _ then _ - 1000000000 else env.now.truncSubsecs.nanos) → _
    split_ifs with leaving
    · exact fun leap => absurd (Nat.sub_lt_left_of_lt_add leaving.1 whole.nanos) (not_lt.mpr leap)
    · intro leap
      have nothing : issuer.vaidTtlHours * 3600 = 0 := by_contra (fun some_ => leaving ⟨leap, some_⟩)
      have same : (issuer.ownExpiry env).secs = env.now.truncSubsecs.secs := by
        unfold ownExpiry
        rw [nothing]
        show _ + (0 : Int) + (if _ ∧ (0 : Int) < 0 then 1 else 0) = _
        rw [if_neg (fun h => absurd h.2 (lt_irrefl _)), Int.add_zero, Int.add_zero]
      rw [same]
      exact whole.leap leap

/-- What the TTL and a readable ceiling come to. -/
def Clamps [Chrono] (own : Instant) (notAfter : Option String) (e : Instant) : Prop :=
  match notAfter with
  | none => e = own
  | some ceiling => ∃ cap, Chrono.parseFromRfc3339 ceiling = some cap ∧ e = min own cap

section Clamping

variable [Chrono]

theorem endsInYears_iff : issuer.EndsInYears env notAfter ↔
    ∀ e, Clamps (issuer.ownExpiry env) notAfter e → e.InYears := by
  cases notAfter with
  | none => exact ⟨fun ends e own => own ▸ ends, fun ends => ends _ rfl⟩
  | some ceiling =>
    have years (cap : Instant) : (min (issuer.ownExpiry env) cap).InYears ↔
        ((issuer.ownExpiry env).FromYear0 ∧ cap.FromYear0) ∧
          ((issuer.ownExpiry env).BeforeYear10000 ∨ cap.BeforeYear10000) :=
      and_congr Instant.fromYear0_min Instant.beforeYear10000_min
    constructor
    · rintro ends e ⟨cap, read, rfl⟩
      exact (years cap).mpr (ends cap read)
    · intro ends cap read
      exact (years cap).mp (ends _ ⟨cap, read, rfl⟩)

theorem Clamps.isDateTime (documented : Chrono.Documented) {own e : Instant} (valid : own.IsDateTime)
    (clamps : Clamps own notAfter e) : e.IsDateTime := by
  cases notAfter with
  | none =>
    obtain rfl : e = own := clamps
    exact valid
  | some ceiling =>
    obtain ⟨cap, read, rfl⟩ := clamps
    rcases min_choice own cap with earlier | earlier <;> rw [earlier]
    · exact valid
    · exact documented.parsed ceiling cap read

theorem Clamps.le_own {own e : Instant} (clamps : Clamps own notAfter e) : e ≤ own := by
  cases notAfter with
  | none => exact le_of_eq clamps
  | some ceiling =>
    obtain ⟨cap, -, rfl⟩ := clamps
    exact min_le_left _ _

theorem Clamps.le_cap {own e : Instant} (clamps : Clamps own notAfter e) : ∀ ceiling,
    notAfter = some ceiling → ∃ cap, Chrono.parseFromRfc3339 ceiling = some cap ∧ e ≤ cap := by
  rintro ceiling rfl
  obtain ⟨cap, read, rfl⟩ := clamps
  exact ⟨cap, read, min_le_right _ _⟩

theorem expiresAt_eq_ok_iff (clock : ClockInYears env) {e : Instant} :
    issuer.expiresAt env notAfter = .ok e ↔
      issuer.TtlFits env ∧ Clamps (issuer.ownExpiry env) notAfter e := by
  obtain ⟨sum, overflow⟩ := addHours_eq issuer clock
  unfold expiresAt
  by_cases fits : issuer.TtlFits env
  · simp only [sum fits, fits, true_and]
    cases notAfter with
    | none => exact ⟨fun h => by cases h; rfl, fun h => congrArg _ (Eq.symm h)⟩
    | some ceiling =>
      cases read : Chrono.parseFromRfc3339 ceiling with
      | none => simp [Clamps, read]
      | some cap => simp [Clamps, read, eq_comm]
  · simp [overflow fits, fits]

theorem expiresAt_eq_panicked_iff (issuer : ReferenceIssuer L R) (notAfter : Option String)
    (clock : ClockInYears env) :
    issuer.expiresAt env notAfter = .panicked ↔ ¬ issuer.TtlFits env := by
  obtain ⟨sum, overflow⟩ := addHours_eq issuer clock
  unfold expiresAt
  by_cases fits : issuer.TtlFits env
  · simp only [sum fits, fits, not_true, iff_false]
    cases notAfter with
    | none => simp
    | some ceiling => cases read : Chrono.parseFromRfc3339 ceiling <;> simp [read]
  · simp [overflow fits, fits]

end Clamping

section Issuing

variable [Crypto] [Chrono] [LineageStore L] {attributes : IssueAttributes} {publicKeyDer : Bytes}

theorem buildAndSignVaid_panics_iff (clock : ClockInYears env) :
    (issuer.buildAndSignVaid env attributes publicKeyDer notAfter).1 = .panicked ↔
      ¬ issuer.TtlFits env := by
  rw [← expiresAt_eq_panicked_iff issuer notAfter clock]
  unfold buildAndSignVaid
  cases issuer.expiresAt env notAfter with
  | panicked => simp
  | error e => simp
  | ok expires =>
    cases recorded : (LineageStore.tryRecord issuer.lineage
      (issuer.signedVaid env attributes publicKeyDer expires).vaidId attributes.parentVaid).1 <;>
      simp [recorded]

theorem buildAndSignVaid_returns_iff (publicKeyDer : Bytes) (clock : ClockInYears env) {v : Vaid} :
    (issuer.buildAndSignVaid env attributes publicKeyDer notAfter).1 = .ok v ↔
      ∃ e, (issuer.TtlFits env ∧ Clamps (issuer.ownExpiry env) notAfter e) ∧
        (LineageStore.tryRecord issuer.lineage ⟨env.agentId.uuid⟩ attributes.parentVaid).1 = .ok () ∧
        v = issuer.signedVaid env attributes publicKeyDer e := by
  simp only [← expiresAt_eq_ok_iff clock]
  constructor
  · intro returned
    obtain ⟨e, expiry, recorded, signed, -⟩ := (buildAndSignVaid_eq_ok_iff issuer env attributes
      publicKeyDer notAfter v _).mp (Prod.ext returned rfl)
    exact ⟨e, expiry, recorded, signed⟩
  · rintro ⟨e, expiry, recorded, signed⟩
    exact congrArg Prod.fst ((buildAndSignVaid_eq_ok_iff issuer env attributes publicKeyDer notAfter
      v _).mpr ⟨e, expiry, recorded, signed, rfl⟩)

omit [LineageStore L] in
theorem conforms_signedVaid (documented : Chrono.Documented) (clock : ClockInYears env) {e : Instant}
    (valid : e.IsDateTime) :
    (issuer.signedVaid env attributes publicKeyDer e).hasConformingTimestamps = true ↔
      e.InYears := by
  have now : env.now.truncSubsecs.InYears :=
    ⟨le_trans (by decide) clock.since, clock.before⟩
  have issued := (written_inYears documented clock.valid.truncSubsecs now).1
  show (isE6Timestamp (Chrono.formatWholeSecond env.now.truncSubsecs) &&
    isE6Timestamp (Chrono.formatWholeSecond e)) = true ↔ _
  rw [issued, Bool.true_and, isE6Timestamp_written documented valid]

theorem Issues.ttlFits (clock : ClockInYears env)
    (safe : issuer.Issues env notAfter attributes publicKeyDer) : issuer.TtlFits env := by
  by_contra overflows
  exact safe.returns ((buildAndSignVaid_panics_iff clock).mpr overflows)

theorem Issues.endsInYears (documented : Chrono.Documented) (clock : ClockInYears env)
    (safe : issuer.Issues env notAfter attributes publicKeyDer)
    (recorded : (LineageStore.tryRecord issuer.lineage ⟨env.agentId.uuid⟩
      attributes.parentVaid).1 = .ok ()) : issuer.EndsInYears env notAfter := by
  have fits := safe.ttlFits clock
  refine endsInYears_iff.mpr (fun e clamps => ?_)
  have valid := clamps.isDateTime documented (isDateTime_ownExpiry clock fits)
  have returned := (buildAndSignVaid_returns_iff publicKeyDer clock).mpr
    ⟨e, ⟨fits, clamps⟩, recorded, rfl⟩
  exact (conforms_signedVaid documented clock valid).mp (safe.conforms _ returned)

/-- Issuing is safe exactly when the TTL fits and what the document ends in has a year of four
digits, a refused write apart. -/
theorem issues_iff (documented : Chrono.Documented) (clock : ClockInYears env) :
    issuer.Issues env notAfter attributes publicKeyDer ↔
      issuer.TtlFits env ∧
        ((LineageStore.tryRecord issuer.lineage ⟨env.agentId.uuid⟩ attributes.parentVaid).1 = .ok () →
          issuer.EndsInYears env notAfter) := by
  constructor
  · intro safe
    exact ⟨safe.ttlFits clock, safe.endsInYears documented clock⟩
  · rintro ⟨fits, ends⟩
    refine ⟨fun panicked => (buildAndSignVaid_panics_iff clock).mp panicked fits, ?_, ?_⟩
    · intro v returned
      obtain ⟨e, ⟨-, clamps⟩, recorded, rfl⟩ :=
        (buildAndSignVaid_returns_iff publicKeyDer clock).mp returned
      have valid := clamps.isDateTime documented (isDateTime_ownExpiry clock fits)
      exact (conforms_signedVaid documented clock valid).mpr
        (endsInYears_iff.mp (ends recorded) e clamps)
    · intro v returned
      obtain ⟨e, ⟨-, clamps⟩, recorded, rfl⟩ :=
        (buildAndSignVaid_returns_iff publicKeyDer clock).mp returned
      have valid := clamps.isDateTime documented (isDateTime_ownExpiry clock fits)
      have years := endsInYears_iff.mp (ends recorded) e clamps
      refine ⟨e.truncSubsecs, (written_inYears documented valid years).2, ?_, ?_⟩
      · calc e.truncSubsecs ≤ e := e.truncSubsecs_le
          _ ≤ issuer.ownExpiry env := clamps.le_own
          _ ≤ env.now.shifted (issuer.vaidTtlHours * 3600) :=
            Instant.shifted_truncSubsecs_le clock.valid _
      · intro ceiling given
        obtain ⟨cap, read, earlier⟩ := clamps.le_cap ceiling given
        exact ⟨cap, read, le_trans e.truncSubsecs_le earlier⟩

end Issuing

section Example

/-- `%Y-%m-%dT%H:%M:%SZ`. The calendar repeats after 400 years. -/
def written (i : Instant) : Text :=
  let n := i.secs + 62167219200
  let leap := decide (1000000000 ≤ i.nanos)
  if i.InYears then (Rfc3339.ofSeconds n.toNat leap).text
  else
    let f := Rfc3339.ofSeconds (n % 12622780800).toNat leap
    let year : Int := f.year + 400 * (n / 12622780800)
    (if year < 0 then 0x2d else 0x2b) ::
      (List.leftpad 4 0x30 (codes (toString year.natAbs)) ++ f.text.drop 4)

@[reducible] local instance calendarChrono : Chrono where
  parseFromRfc3339 s := (Rfc3339.parse (codes s)).map Expiry.chronoInstant
  formatWholeSecond i := String.ofList ((written i).map Char.ofNat)
  serialize i := String.ofList ((written i).map Char.ofNat)

theorem isDateTime_chronoInstant {t : Text} {stamp : Stamp} (parsed : Rfc3339.parse t = some stamp) :
    (Expiry.chronoInstant stamp).IsDateTime := by
  obtain ⟨first, last⟩ := stamp.seconds_bounds (Rfc3339.fourDigits_of_parse parsed)
  have parts := stamp.parts_lt (show 0 < 1000000000 by decide)
  refine ⟨le_trans (by decide) (le_of_lt first), le_trans (le_of_lt last) (by decide), ?_, ?_⟩
  · show _ + (if _ then _ else _) < _
    split_ifs <;> omega
  · show _ ≤ _ + (if _ then _ else _) → _
    split_ifs with leap
    · exact fun _ => stamp.seconds_mod_sixty leap
    · intro late
      omega

theorem codes_ofList {t : Text} (low : ∀ c ∈ t, c < 0x80) :
    codes (String.ofList (t.map Char.ofNat)) = t := by
  rw [codes, String.toList_ofList, List.map_map]
  refine (List.map_congr_left (fun c member => ?_)).trans (List.map_id t)
  have valid : c.isValidChar := .inl (Nat.lt_trans (low c member) (by decide))
  show (Char.ofNat c).toNat = c
  rw [Char.ofNat, dif_pos valid]
  rfl

theorem calendarChrono_documented : Chrono.Documented where
  parsed s i h := by
    obtain ⟨stamp, parsed, rfl⟩ := Option.map_eq_some_iff.mp h
    exact isDateTime_chronoInstant parsed
  reads s stamp parsed := by
    show (Rfc3339.parse (codes s)).map Expiry.chronoInstant = _
    rw [parsed, Option.map_some]
  writes i valid years := by
    obtain ⟨since, before⟩ := years
    have n : (i.secs + 62167219200).toNat = i.secs + 62167219200 := by
      unfold Instant.FromYear0 at since
      omega
    have inside : (i.secs + 62167219200).toNat < Rfc3339.secondsOfYears := by
      unfold Instant.BeforeYear10000 at before
      unfold Rfc3339.secondsOfYears
      omega
    have leap : decide (1000000000 ≤ i.nanos) = true → (i.secs + 62167219200).toNat % 60 = 59 := by
      intro late
      have last := valid.leap (of_decide_eq_true late)
      omega
    refine ⟨.ofSeconds _ (decide (1000000000 ≤ i.nanos)) inside, rfl, rfl,
      (Rfc3339.dated_ofSeconds inside _).fourDigits, ?_, ?_, ?_⟩
    · rw [Stamp.seconds_ofSeconds inside leap, n]
      omega
    · show (if decide _ = true then 60 else _ % 60) = 60 ↔ _
      split_ifs with late
      · exact iff_of_true rfl (of_decide_eq_true late)
      · exact iff_of_false (by omega) (fun h => late (decide_eq_true h))
    · have text : written i = (Rfc3339.ofSeconds (i.secs + 62167219200).toNat
          (decide (1000000000 ≤ i.nanos))).text := if_pos ⟨since, before⟩
      show codes (String.ofList ((written i).map Char.ofNat)) = _
      rw [text, codes_ofList (Rfc3339.ascii_text _)]
      rfl
  signs i valid years := by
    let f := Rfc3339.ofSeconds ((i.secs + 62167219200) % 12622780800).toNat
      (decide (1000000000 ≤ i.nanos))
    let year : Int := f.year + 400 * ((i.secs + 62167219200) / 12622780800)
    have text : written i = (if year < 0 then 0x2d else 0x2b) ::
        (List.leftpad 4 0x30 (codes (toString year.natAbs)) ++ f.text.drop 4) := if_neg years
    refine ⟨if year < 0 then 0x2d else 0x2b, ?_, ?_⟩
    · split_ifs <;> decide
    · show ∃ t, codes (String.ofList ((written i).map Char.ofNat)) = _
      rw [text, codes, String.toList_ofList, List.map_cons, List.map_cons]
      refine ⟨_, congrArg₂ List.cons ?_ rfl⟩
      split_ifs <;> rfl

@[reducible] local instance ttlCrypto : Crypto := .standIn

def ttlIssuer (hours : Int) : ReferenceIssuer InMemoryLineageStore InMemoryRevocationList :=
  withKey ⟨[1]⟩ hours ⟨"vaid.example", isValidTrustDomain_example⟩

def ttlAttributes : IssueAttributes where
  agentClass := ⟨"researcher"⟩
  version := "1.0.0"
  tenantId := ⟨"acme"⟩
  parentVaid := none
  scopeBoundary := []
  capabilitySet := []

theorem clockInYears_exampleEnv : ClockInYears exampleEnv where
  valid := ⟨by decide, by decide, by decide, fun late => absurd late (by decide)⟩
  since := by decide
  before := by decide

/-- A ceiling inside the hour, half a second past the whole one. -/
theorem issues_clamped :
    (ttlIssuer 1).Issues exampleEnv (some "2030-01-01T00:30:00.5Z") ttlAttributes [2] := by
  refine (issues_iff calendarChrono_documented clockInYears_exampleEnv).mpr
    ⟨⟨by decide, by decide⟩, fun _ cap read => ?_⟩
  have half : Chrono.parseFromRfc3339 "2030-01-01T00:30:00.5Z" = some ⟨1893457800, 500000000⟩ := by
    decide +kernel
  rw [half] at read
  cases read
  decide

/-- The longest TTL panics, however early the ceiling, and a TTL past the year 9999 is written
with a sign. -/
theorem not_issues_longTtl : Chrono.Documented ∧ ClockInYears exampleEnv ∧
    ¬ (ttlIssuer 9223372036854775807).Issues exampleEnv (some "2030-01-01T00:30:00Z")
      ttlAttributes [2] ∧
    ¬ (ttlIssuer 100000000).Issues exampleEnv none ttlAttributes [2] := by
  refine ⟨calendarChrono_documented, clockInYears_exampleEnv, fun safe => ?_, fun safe => ?_⟩
  · exact absurd (safe.ttlFits clockInYears_exampleEnv).2 (by decide)
  · exact absurd (safe.endsInYears calendarChrono_documented clockInYears_exampleEnv rfl).2
      (by decide)

end Example

end ReferenceIssuer

end VaidSuite
