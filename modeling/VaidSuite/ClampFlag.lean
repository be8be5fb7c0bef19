import VaidSuite.MintChain

/-! The flag of a mint response that says the child's life was cut short by its
parent's, against the clamp itself: the clamp compares instants, the flag texts. -/
namespace VaidSuite.ClampFlag

open MintService (Call)

section Calls

variable [Crypto] [Chrono] {L R A : Type} [LineageStore L] [AuditSink A]

/-- What the issuer's own TTL makes of a delegation, and what the parent's expiry
reads as. -/
structure Bounds (s : MintService L R A) (env : MintEnv) (parent : Vaid) (own cap : Instant) :
    Prop where
  own : env.issue.now.truncSubsecs.addHours s.issuer.vaidTtlHours = some own
  cap : parent.expiresAt = some cap

/-- The flag is set wherever the parent's expiry came first, and not where the child
ends with the issuer's TTL in a second before it. -/
def Truthful (own cap : Instant) (response : MintVaidResponse) : Prop :=
  (cap < own → response.expiryBoundedByParent = true) ∧
    (response.vaid.expiresAt = some own → own.secs < cap.secs →
      response.expiryBoundedByParent = false)

omit [Crypto] [LineageStore L] [AuditSink A] in
theorem expiresAt_eq_ok {s : MintService L R A} {env : MintEnv} {parent : Vaid} {expires : Instant}
    (ceiling : s.issuer.expiresAt env.issue (some parent.expiresAtAsPresented) = .ok expires) :
    ∃ own cap, Bounds s env parent own cap ∧ expires = min own cap := by
  unfold ReferenceIssuer.expiresAt at ceiling
  cases ttl : env.issue.now.truncSubsecs.addHours s.issuer.vaidTtlHours with
  | none => simp [ttl] at ceiling
  | some own =>
    cases read : Chrono.parseFromRfc3339 parent.expiresAtAsPresented with
    | none => simp [ttl, read] at ceiling
    | some cap =>
      simp only [ttl, read] at ceiling
      cases ceiling
      exact ⟨own, cap, ⟨ttl, read⟩, rfl⟩

/-- The flag of a delegation tells the truth exactly when a parent's expiry that
clamps is presented as the issuer writes it. -/
theorem clampFlag_truthful_iff {s s' : MintService L R A} {env : MintEnv}
    {request : MintVaidRequest} {parent : Vaid} {response : MintVaidResponse}
    (returned : (MintService.mintChild env request (some parent) :
      Call L R A MintVaidResponse).run s = (.ok response, s')) :
    ∃ own cap, Bounds s env parent own cap ∧
      (Truthful own cap response ↔
        (cap < own → Chrono.formatWholeSecond cap = parent.expiresAtAsPresented)) := by
  obtain ⟨_, key, pop, expires, audit, ⟨⟩, -, issuable, signed, -, flag, -⟩ :=
    (MintService.run_mintChild_iff _ _ _ _ _ _).mp returned
  obtain ⟨own, cap, bounds, rfl⟩ := expiresAt_eq_ok issuable.ceiling
  have text : response.vaid.expiresAtAsPresented = Chrono.formatWholeSecond (min own cap) := by
    rw [← signed]
    rfl
  refine ⟨own, cap, bounds, ?_⟩
  constructor
  · rintro ⟨clamped, -⟩ earlier
    have equal := flag.symm.trans (clamped earlier)
    rw [beq_iff_eq, text, min_eq_right earlier.le] at equal
    exact equal
  · intro canonical
    refine ⟨fun earlier => ?_, fun ends before => ?_⟩
    · rw [flag, beq_iff_eq, text, min_eq_right earlier.le]
      exact canonical earlier
    · -- equal texts would read as one instant
      rw [flag, beq_eq_false_iff_ne]
      intro equal
      have same : response.vaid.expiresAt = parent.expiresAt :=
        congrArg Chrono.parseFromRfc3339 equal
      rw [ends, bounds.cap] at same
      cases same
      exact absurd before (lt_irrefl _)

end Calls

section Example

open MintChain

local instance flagCrypto : Crypto := .standIn

local instance flagChrono : Chrono :=
  .table [(1893456000, "2030-01-01T00:00:00Z"), (1893459600, "2030-01-01T01:00:00Z"),
    (1893459600, "2030-01-01T02:00:00+01:00")]

/-- A mint whose documents live two hours. -/
def mint : MintService InMemoryLineageStore InMemoryRevocationList InMemoryAudit :=
  .new (.withKey ⟨[1]⟩ 2 exampleDomain) ⟨[]⟩

/-- A root that ends in one hour, by a text. -/
def parent (text : String) : Vaid :=
  { exampleParent exampleDomain with expiresAtAsPresented := text }

def child : Vaid :=
  mint.issuer.signedVaid exampleEnv.issue exampleSeed.attributes [2] ⟨1893459600, 0⟩

def response (flag : Bool) (text : String) : MintVaidResponse := ⟨child, flag, some text⟩

theorem returned {text : String} {flag : Bool}
    (reads : Chrono.parseFromRfc3339 text = some ⟨1893459600, 0⟩)
    (compared : flag = (child.expiresAtAsPresented == text)) : ∃ s',
    (MintService.mintChild exampleEnv exampleRequest (some (parent text)) :
      Call InMemoryLineageStore InMemoryRevocationList InMemoryAudit MintVaidResponse).run mint =
        (.ok (response flag text), s') := by
  have possession : MintService.ProvesPossession exampleNow exampleSeed [2]
      ⟨"n", exampleNow, signPayload (exampleSeed.popPayload [2] "n" exampleNow).toJson ⟨[2]⟩⟩ :=
    ⟨by decide, verifySignedPayload_signPayload Crypto.standIn_signaturesVerify _ ⟨[2]⟩⟩
  have depth : assembleLineage (parent text) mint.issuer.resolveParent =
      .complete [⟨.fromU128 1⟩] := by
    have parentless : (parent text).parentVaid = none := by
      cases exampleParent_presents exampleDomain with
      | root none_ => exact none_
    rw [assembleLineage, parentless]
    rfl
  have ends : (parent text).expiresAt = some ⟨1893459600, 0⟩ := reads
  have alive : (parent text).isExpiredAt exampleNow = false := by
    unfold Vaid.isExpiredAt
    rw [ends]
    decide
  have ceiling : mint.issuer.expiresAt exampleEnv.issue (some text) = .ok ⟨1893459600, 0⟩ := by
    have own : exampleEnv.issue.now.truncSubsecs.addHours mint.issuer.vaidTtlHours =
        some ⟨1893463200, 0⟩ := by decide
    simp only [ReferenceIssuer.expiresAt, own, reads]
    decide
  have within : expiryAttenuates (parent text) (some child.expiresAtAsPresented) = true := by
    unfold expiryAttenuates expiryAttenuatesWithin
    rw [show Chrono.parseFromRfc3339 (parent text).expiresAtAsPresented = _ from reads]
    decide
  exact ⟨_, (MintService.run_mintChild_iff _ _ _ _ _ _).mpr
    ⟨parent text, [2], _, ⟨1893459600, 0⟩, _, rfl, ⟨⟨_, depth, by decide⟩, rfl, rfl, rfl, rfl, alive⟩,
      ⟨rfl, rfl, possession, Finset.notMem_empty _, ceiling, rfl⟩, rfl, within, compared, rfl, rfl,
      rfl⟩⟩

theorem bounds_eq {text : String} (reads : Chrono.parseFromRfc3339 text = some ⟨1893459600, 0⟩)
    {own cap : Instant} (bounds : Bounds mint exampleEnv (parent text) own cap) :
    own = ⟨1893463200, 0⟩ ∧ cap = ⟨1893459600, 0⟩ := by
  have ttl : exampleEnv.issue.now.truncSubsecs.addHours mint.issuer.vaidTtlHours =
      some ⟨1893463200, 0⟩ := by decide
  exact ⟨Option.some.inj (bounds.own.symm.trans ttl), Option.some.inj (bounds.cap.symm.trans reads)⟩

/-- Written as the issuer writes it, the clamp is reported. -/
theorem canonical_truthful :
    Truthful ⟨1893463200, 0⟩ ⟨1893459600, 0⟩ (response true "2030-01-01T01:00:00Z") := by
  have reads : Chrono.parseFromRfc3339 "2030-01-01T01:00:00Z" = some ⟨1893459600, 0⟩ := by decide
  have flagged : true = (child.expiresAtAsPresented == "2030-01-01T01:00:00Z") := by decide
  obtain ⟨_, ran⟩ := returned reads flagged
  obtain ⟨own, cap, bounds, truthful⟩ := clampFlag_truthful_iff ran
  obtain ⟨rfl, rfl⟩ := bounds_eq reads bounds
  exact truthful.mpr (fun _ => by decide)

/-- Written with an offset, a clamp by an hour is not reported. -/
theorem offset_not_reported :
    ((parent "2030-01-01T02:00:00+01:00").expiresAt = some ⟨1893459600, 0⟩ ∧
      exampleEnv.issue.now.truncSubsecs.addHours mint.issuer.vaidTtlHours =
        some ⟨1893463200, 0⟩) ∧
      ∃ s', (MintService.mintChild exampleEnv exampleRequest
          (some (parent "2030-01-01T02:00:00+01:00")) :
        Call InMemoryLineageStore InMemoryRevocationList InMemoryAudit MintVaidResponse).run mint =
          (.ok (response false "2030-01-01T02:00:00+01:00"), s') :=
  ⟨by decide, returned (by decide) (by decide)⟩

end Example

end VaidSuite.ClampFlag
