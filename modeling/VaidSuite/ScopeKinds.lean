import VaidSuite.CallerBinding
import VaidSuite.Chain
import VaidSuite.Issuer

/-! The verifiers of the crate on a document whose boundary has a kind that they do not
recognise. -/
namespace VaidSuite

section Kinds

variable [Crypto] [Chrono] {L R : Type} [LineageStore L] [RevocationCheck R]

/-- Some verifier answers success for the document at an instant. The other entry points to a chain
are `verify_chain_at` with one key, or without attestations. -/
inductive Accepted [SerdeJson] (issuer : ReferenceIssuer L R) (v : Vaid) (now : Instant) : Prop where
  | issuer : issuer.verifyVaid v now = true → Accepted issuer v now
  | standing (key : Bytes) (revocation : RevocationStatus) :
      verifyVaidStanding key v revocation now = .valid → Accepted issuer v now
  | standingBound (key : Bytes) (revocation : RevocationStatus) (expected : ExpectedCaller String) :
      verifyVaidStandingBound key v revocation expected now = .ok .valid → Accepted issuer v now
  | standingFromJson (key : Bytes) (json : String) (revocation : RevocationStatus) :
      SerdeJson.fromStr json = some v →
      verifyVaidStandingFromJson key json revocation now = .valid → Accepted issuer v now
  | standingBoundFromJson (key : Bytes) (json : String) (revocation : RevocationStatus)
      (expected : ExpectedCaller String) : SerdeJson.fromStr json = some v →
      verifyVaidStandingBoundFromJson key json revocation expected now = .ok .valid →
      Accepted issuer v now
  | chain (keys : KernelKeyResolver) (bundle : PresentedBundle) (attestations : AttestationBundle) :
      verifyChainAt keys v bundle attestations now = some .attenuated → Accepted issuer v now

section Unread

variable {v : Vaid} {now : Instant} (unread : boundaryIsEvaluable v.scopeBoundary = false)

include unread

omit [LineageStore L] [RevocationCheck R] in
theorem standing_ne_valid (key : Bytes) (revocation : RevocationStatus) :
    verifyVaidStanding key v revocation now ≠ .valid := by
  rw [Ne, verifyVaidStanding_eq_valid_iff, unread]
  simp

omit [LineageStore L] [RevocationCheck R] in
theorem standingBound_ne_valid (key : Bytes) (revocation : RevocationStatus)
    (expected : ExpectedCaller String) :
    verifyVaidStandingBound key v revocation expected now ≠ .ok .valid := by
  intro accepted
  unfold verifyVaidStandingBound boundVerdict at accepted
  split at accepted
  · cases accepted
  · exact standing_ne_valid unread key revocation (Except.ok.inj accepted)

omit [LineageStore L] [RevocationCheck R] in
/-- A hop below any parent is refused, so the document heads a verified chain of itself alone. -/
theorem parentless_of_attenuated {keys : KernelKeyResolver} {bundle : PresentedBundle}
    {attestations : AttestationBundle}
    (attenuated : verifyChainAt keys v bundle attestations now = some .attenuated) :
    v.parentVaid = none := by
  obtain ⟨ancestors, verified⟩ := verifiedChain_of_attenuated attenuated
  cases verified.presents with
  | root parentless => exact parentless
  | hop named found rest =>
    have within := (List.isChain_cons_cons.mp verified.hops).1.contained.scope
    rw [boundaryIsEvaluable_eq] at unread
    rw [scopeAttenuates, scopeAttenuatesWithin_eq, Option.not_isSome_iff_eq_none.mp
      (Bool.eq_false_iff.mp unread)] at within
    split at within
    · rename_i read
      cases read
    · cases within

theorem verifyVaid_of_accepted [SerdeJson] {issuer : ReferenceIssuer L R}
    (attached : v.parentVaid ≠ none) (accepted : Accepted issuer v now) :
    issuer.verifyVaid v now = true := by
  cases accepted with
  | issuer own => exact own
  | standing key revocation valid => exact absurd valid (standing_ne_valid unread key revocation)
  | standingBound key revocation expected valid =>
    exact absurd valid (standingBound_ne_valid unread key revocation expected)
  | standingFromJson key json revocation read valid =>
    unfold verifyVaidStandingFromJson at valid
    split at valid
    · cases valid
    · rw [read] at valid
      exact absurd valid (standing_ne_valid unread key revocation)
  | standingBoundFromJson key json revocation expected read valid =>
    unfold verifyVaidStandingBoundFromJson at valid
    split at valid
    · cases valid
    · rw [read] at valid
      exact absurd valid (standingBound_ne_valid unread key revocation expected)
  | chain keys bundle attestations attenuated =>
    exact absurd (parentless_of_attenuated unread attenuated) attached

end Unread

omit [LineageStore L] [RevocationCheck R] in
theorem verifyChain_root {key : Bytes} {v : Vaid} (authentic : Authentic key v)
    (parentless : v.parentVaid = none) (now : Instant) :
    verifyChain key v .empty now = some .attenuated := by
  have alone : VerifiedChain (SingleKernelKey.new key) v .empty .empty now [] :=
    { leafAuthentic := (authenticUnder_single_iff key v).mpr authentic
      bundleAuthentic := fun doc member => absurd member List.not_mem_nil
      presents := .root parentless
      distinct := List.nodup_singleton _
      short := show 1 ≤ maxLineageDepth by decide
      unexpired := fun ancestor member => absurd member List.not_mem_nil
      hops := List.isChain_singleton _ }
  exact attenuated_of_verifiedChain alone

/-- On a minted document the issuer's verifier and the standing verifier agree, and no verifier
accepts a boundary with an unrecognised kind, exactly when the boundary can be read, or the document
has a parent and is expired or refused by its revocation status. -/
theorem verifiers_refuse_iff [SerdeJson] (verify : Crypto.SignaturesVerify)
    {issuer : ReferenceIssuer L R} {v : Vaid} (minted : issuer.Mints v) (lineage : L) (revocation : R)
    (now : Instant) :
    let later := { issuer with lineage := lineage, revocation := revocation }
    (((later.verifyVaid v now = true ↔
          verifyVaidStanding later.kernelPublicKey v (later.revocationStatus v) now = .valid) ∧
        (boundaryIsEvaluable v.scopeBoundary = false → ¬ Accepted later v now)) ↔
      boundaryIsEvaluable v.scopeBoundary = true ∨
        v.parentVaid ≠ none ∧ (v.isExpiredAt now = true ∨ later.revocationStatus v ≠ .notRevoked)) := by
  intro later
  have agree := ReferenceIssuer.verifiers_agree_iff verify minted lineage revocation now
  have own := (ReferenceIssuer.verifiers_on_minted verify minted lineage revocation now).1
  rw [show (later.verifyVaid v now = true ↔ verifyVaidStanding later.kernelPublicKey v
    (later.revocationStatus v) now = .valid) ↔ _ from agree]
  cases unread : boundaryIsEvaluable v.scopeBoundary with
  | true => simp
  | false =>
    simp only [Bool.false_eq_true, false_or, true_imp_iff]
    constructor
    · rintro ⟨refused, unaccepted⟩
      refine ⟨fun parentless => unaccepted ?_, refused⟩
      obtain ⟨env, attributes, publicKeyDer, expires, rfl⟩ := ReferenceIssuer.mints_signed minted
      exact .chain _ _ _ (verifyChain_root
        (ReferenceIssuer.authentic_signedVaid verify issuer env attributes publicKeyDer expires)
        parentless now)
    · rintro ⟨attached, refused⟩
      refine ⟨refused, fun accepted => ?_⟩
      obtain ⟨unexpired, clean⟩ := own.mp (verifyVaid_of_accepted unread attached accepted)
      rcases refused with expired | unclean
      · rw [unexpired] at expired
        cases expired
      · exact unclean clean

end Kinds

section Example

open ReferenceIssuer

attribute [local instance] exampleCrypto exampleChrono SerdeJson.integersOnly

def laterKindVaid : Vaid :=
  exampleIssuer.signedVaid exampleEnv laterKindAttributes [2] ⟨1893459600, 0⟩

theorem laterKindVaid_minted : exampleIssuer.Mints laterKindVaid :=
  ⟨exampleEnv, laterKindAttributes, none, .inr rfl⟩

theorem verifiers_refuse_laterKindVaid :
    (((exampleIssuer.verifyVaid laterKindVaid exampleEnv.now = true ↔
          verifyVaidStanding exampleIssuer.kernelPublicKey laterKindVaid
            (exampleIssuer.revocationStatus laterKindVaid) exampleEnv.now = .valid) ∧
        (boundaryIsEvaluable laterKindVaid.scopeBoundary = false →
          ¬ Accepted exampleIssuer laterKindVaid exampleEnv.now)) ↔
      boundaryIsEvaluable laterKindVaid.scopeBoundary = true ∨
        laterKindVaid.parentVaid ≠ none ∧ (laterKindVaid.isExpiredAt exampleEnv.now = true ∨
          exampleIssuer.revocationStatus laterKindVaid ≠ .notRevoked)) :=
  verifiers_refuse_iff Crypto.standIn_signaturesVerify laterKindVaid_minted exampleIssuer.lineage
    exampleIssuer.revocation exampleEnv.now

/-- The issuer accepts what the standing verifier does not, and so does the chain verifier. -/
theorem laterKindVaid_accepted :
    boundaryIsEvaluable laterKindVaid.scopeBoundary = false ∧
      exampleIssuer.verifyVaid laterKindVaid exampleEnv.now = true ∧
      verifyVaidStanding exampleIssuer.kernelPublicKey laterKindVaid
        (exampleIssuer.revocationStatus laterKindVaid) exampleEnv.now ≠ .valid ∧
      verifyChain exampleIssuer.kernelPublicKey laterKindVaid .empty exampleEnv.now =
        some .attenuated := by
  have unexpired : laterKindVaid.isExpiredAt exampleEnv.now = false := by decide
  have clean : exampleIssuer.revocationStatus laterKindVaid = .notRevoked := by decide
  have unread : boundaryIsEvaluable laterKindVaid.scopeBoundary = false := by decide
  have own := (verifiers_on_minted Crypto.standIn_signaturesVerify laterKindVaid_minted
    exampleIssuer.lineage exampleIssuer.revocation exampleEnv.now).1
  exact ⟨unread, own.mpr ⟨unexpired, clean⟩, standing_ne_valid unread _ _,
    verifyChain_root (authentic_signedVaid Crypto.standIn_signaturesVerify _ _ _ _ _) rfl _⟩

end Example

end VaidSuite
