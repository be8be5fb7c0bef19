import VaidSuite.Chain
import VaidSuite.Lib.Presentation

/-! Chain verification in Rust, without attestations, as ordered checks of a presentation. -/
namespace VaidSuite

open Guards (firstRefusal)

section Rust

variable [Crypto] [Chrono]

def authenticitySteps (kernelPublicKey : Bytes) (vaid : Vaid) : List (Bool × VaidVerdict) :=
  [(vaid.sigVersion == vaidSigVersionV4, .unsupportedSigVersion),
    (isValidTrustDomain vaid.trustDomain, .malformedTrustDomain),
    (vaid.kernelKeyThumbprint == kernelKeyThumbprint kernelPublicKey, .issuerMismatch),
    (verifyLineageHash vaid, .lineageInconsistent),
    (Crypto.ed25519Verify kernelPublicKey (canonicalVaidSigningBytes vaid) vaid.kernelSignature,
      .inauthentic)]

omit [Chrono] in
theorem verifyVaidAuthenticityGraded_eq (kernelPublicKey : Bytes) (vaid : Vaid) :
    verifyVaidAuthenticityGraded kernelPublicKey vaid =
      firstRefusal .valid (authenticitySteps kernelPublicKey vaid) := by
  have refused : ∀ (b : Bool) (refusal rest : VaidVerdict),
      (if (!b) = true then refusal else rest) = if b = true then rest else refusal := by
    intro b refusal rest
    cases b <;> rfl
  simp only [verifyVaidAuthenticityGraded, authenticitySteps, firstRefusal, refused, ne_eq, ite_not,
    beq_iff_eq]

/-- The checks of one hop. Without attestations, the last refuses two kernel keys. -/
def hopSteps (parent child : Vaid) : List (Bool × ChainVerification) :=
  let sameKey := parent.kernelKeyThumbprint == child.kernelKeyThumbprint
  [(!sameKey || tenantAttenuates parent child.trustDomain child.tenantId.asStr, .notAttenuated),
    (scopeAttenuates parent child.scopeBoundary, .notAttenuated),
    (capsAttenuate parent child.capabilitySet, .notAttenuated),
    (expiryAttenuates parent (some child.expiresAtAsPresented), .notAttenuated),
    (sameKey, .inauthentic)]

omit [Crypto] in
theorem hopSteps_refuse (parent child : Vaid) : ∀ s ∈ hopSteps parent child, s.2 ≠ .attenuated := by
  simp [hopSteps]

theorem verifyHop_eq (keys : KernelKeyResolver) (now : Instant) (parent child : Vaid) :
    verifyHop keys AttestationBundle.empty now parent child =
      some (firstRefusal .attenuated (hopSteps parent child)) := by
  have unattested : AttestationBundle.empty.get parent.vaidId child.vaidId = none := rfl
  unfold verifyHop hopSteps
  rw [unattested]
  by_cases same : parent.kernelKeyThumbprint = child.kernelKeyThumbprint <;>
    cases tenantAttenuates parent child.trustDomain child.tenantId.asStr <;>
    cases scopeAttenuates parent child.scopeBoundary <;>
    cases capsAttenuate parent child.capabilitySet <;>
    cases expiryAttenuates parent (some child.expiresAtAsPresented) <;>
    simp [same, firstRefusal]

theorem verifyHops_eq (keys : KernelKeyResolver) (now : Instant) (docs : List Vaid) :
    verifyHops keys AttestationBundle.empty now docs =
      some (firstRefusal .attenuated (Presentation.hops hopSteps docs)) := by
  induction docs with
  | nil => rfl
  | cons parent docs ih =>
    cases docs with
    | nil => rfl
    | cons child docs =>
      rw [verifyHops, verifyHop_eq, ih, Presentation.hops, Guards.firstRefusal_append,
        Guards.firstRefusal_then .attenuated
          (firstRefusal .attenuated (Presentation.hops hopSteps (child :: docs))) _
          (hopSteps_refuse parent child)]
      cases firstRefusal .attenuated (hopSteps parent child) <;> rfl

def presentation (leaf : Vaid) (bundle : PresentedBundle) : Presentation Vaid VaidId where
  name := Vaid.vaidId
  parent := Vaid.parentVaid
  leaf := leaf
  find := bundle.get
  name_of_find := Keyed.key_of_get

/-- What chain verification asks, without attestations. -/
def chainChecks (keys : KernelKeyResolver) (now : Instant) :
    Presentation.Checks Vaid ChainVerification where
  authentic := authenticate keys
  lapsed d := d.isExpiredAt now
  hop := hopSteps
  inauthentic := .inauthentic
  unverifiable := .unverifiable
  expired := .expired

omit [Crypto] [Chrono] in
theorem assembleLineage_eq (leaf : Vaid) (bundle : PresentedBundle) :
    assembleLineage leaf bundle.resolveParent =
      match (presentation leaf bundle).names maxLineageDepth with
      | some ids => .complete ids
      | none => .incomplete := by
  have pointers : LineageResolver.pointers bundle.resolveParent =
      (presentation leaf bundle).pointers := by
    funext i
    show _ = (bundle.get i).map Vaid.parentVaid
    rw [LineageResolver.pointers, PresentedBundle.resolveParent]
    cases bundle.get i with
    | none => rfl
    | some d =>
      dsimp only [Option.map_some]
      cases d.parentVaid <;> rfl
  rw [assembleLineage, assembleLoop_eq_climb, pointers, List.reverse_singleton]
  rfl

theorem verifyChainAt_eq (keys : KernelKeyResolver) (leaf : Vaid) (bundle : PresentedBundle)
    (now : Instant) : verifyChainAt keys leaf bundle AttestationBundle.empty now =
      some (firstRefusal .attenuated
        ((presentation leaf bundle).steps (chainChecks keys now) bundle.items maxLineageDepth)) := by
  have docs : chainDoc leaf bundle = (presentation leaf bundle).docOf := rfl
  unfold verifyChainAt Presentation.steps
  rw [assembleLineage_eq, docs]
  change (if _ then _ else _) = some (firstRefusal _ ((authenticate keys leaf, _) ::
    (bundle.items.all (authenticate keys), _) :: _))
  cases authenticate keys leaf with
  | false => rfl
  | true =>
    cases bundle.items.all (authenticate keys) with
    | false => rfl
    | true =>
      rw [Presentation.lineage]
      cases (presentation leaf bundle).names maxLineageDepth with
      | none => rfl
      | some ids =>
        dsimp only [Option.bind_some]
        cases ids.mapM (presentation leaf bundle).docOf with
        | none => rfl
        | some line =>
          simp only [verifyHops_eq]
          change (if _ then _ else _) = some (firstRefusal _
            ((!line.dropLast.any (fun d => d.isExpiredAt now), _) :: _))
          cases line.dropLast.any (fun d => d.isExpiredAt now) <;> rfl

end Rust

end VaidSuite
