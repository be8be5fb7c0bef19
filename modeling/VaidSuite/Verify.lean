import VaidSuite.Revocation
import VaidSuite.Lib.Guards

/-! Third-party verification of one document: authenticity, then standing. -/
namespace VaidSuite

open Guards (guard_eq_iff)

variable [Crypto]

/-- Why a document was or was not honoured. -/
inductive VaidVerdict where
  | valid
  | unparseable
  | unsupportedSigVersion
  | malformedTrustDomain
  | issuerMismatch
  | lineageInconsistent
  | inauthentic
  | expired
  | unknownScopeKind
  | revoked
  | indeterminate
  deriving DecidableEq, Repr

/-- The wire string of a verdict. -/
def VaidVerdict.code : VaidVerdict → String
  | .valid => "valid"
  | .unparseable => "unparseable"
  | .unsupportedSigVersion => "unsupported_sig_version"
  | .malformedTrustDomain => "malformed_trust_domain"
  | .issuerMismatch => "issuer_mismatch"
  | .lineageInconsistent => "lineage_inconsistent"
  | .inauthentic => "inauthentic"
  | .expired => "expired"
  | .unknownScopeKind => "unknown_scope_kind"
  | .revoked => "revoked"
  | .indeterminate => "indeterminate"

def VaidVerdict.isValid (verdict : VaidVerdict) : Bool := verdict == .valid

omit [Crypto] in
@[simp] theorem VaidVerdict.isValid_iff (verdict : VaidVerdict) :
    verdict.isValid = true ↔ verdict = .valid := beq_iff_eq

/-- What a revocation status means for a document that is otherwise valid. -/
def VaidVerdict.ofRevocation : RevocationStatus → VaidVerdict
  | .notRevoked => .valid
  | .revoked => .revoked
  | .unavailable => .indeterminate

def verifyLineageHash (vaid : Vaid) : Bool :=
  computeLineageHash vaid.parentVaid vaid.agentId == vaid.lineageHash

/-- The order of the branches decides which reason a document gets. -/
def verifyVaidAuthenticityGraded (kernelPublicKey : Bytes) (vaid : Vaid) : VaidVerdict :=
  if vaid.sigVersion ≠ vaidSigVersionV4 then .unsupportedSigVersion
  else if !isValidTrustDomain vaid.trustDomain then .malformedTrustDomain
  else if vaid.kernelKeyThumbprint ≠ kernelKeyThumbprint kernelPublicKey then .issuerMismatch
  else if !verifyLineageHash vaid then .lineageInconsistent
  else if !Crypto.ed25519Verify kernelPublicKey (canonicalVaidSigningBytes vaid)
      vaid.kernelSignature then .inauthentic
  else .valid

def verifyVaidAuthenticity (kernelPublicKey : Bytes) (vaid : Vaid) : Bool :=
  (verifyVaidAuthenticityGraded kernelPublicKey vaid).isValid

/-- Authenticity, then expiry at `now`, then readable scope kinds, then the
revocation status that the caller found. -/
def verifyVaidStanding [Chrono] (kernelPublicKey : Bytes) (vaid : Vaid)
    (revocation : RevocationStatus) (now : Instant) : VaidVerdict :=
  let authenticity := verifyVaidAuthenticityGraded kernelPublicKey vaid
  if !authenticity.isValid then authenticity
  else if vaid.isExpiredAt now then .expired
  else if !boundaryIsEvaluable vaid.scopeBoundary then .unknownScopeKind
  else .ofRevocation revocation

/-- Genuinely issued under a key, and internally consistent. -/
structure Authentic (kernelPublicKey : Bytes) (vaid : Vaid) : Prop where
  sigVersion : vaid.sigVersion = vaidSigVersionV4
  trustDomain : isValidTrustDomain vaid.trustDomain = true
  thumbprint : vaid.kernelKeyThumbprint = kernelKeyThumbprint kernelPublicKey
  lineageHash : computeLineageHash vaid.parentVaid vaid.agentId = vaid.lineageHash
  signature : Crypto.ed25519Verify kernelPublicKey (canonicalVaidSigningBytes vaid)
    vaid.kernelSignature = true

theorem verifyVaidAuthenticity_iff (kernelPublicKey : Bytes) (vaid : Vaid) :
    verifyVaidAuthenticity kernelPublicKey vaid = true ↔ Authentic kernelPublicKey vaid := by
  rw [verifyVaidAuthenticity, VaidVerdict.isValid_iff, verifyVaidAuthenticityGraded,
    guard_eq_iff (by decide), guard_eq_iff (by decide), guard_eq_iff (by decide),
    guard_eq_iff (by decide), guard_eq_iff (by decide)]
  simp only [ne_eq, not_not, Bool.not_eq_true', Bool.not_eq_false, and_true, verifyLineageHash,
    beq_iff_eq]
  constructor
  · rintro ⟨sigVersion, trustDomain, thumbprint, lineageHash, signature⟩
    exact ⟨sigVersion, trustDomain, thumbprint, lineageHash, signature⟩
  · rintro ⟨sigVersion, trustDomain, thumbprint, lineageHash, signature⟩
    exact ⟨sigVersion, trustDomain, thumbprint, lineageHash, signature⟩

theorem verifyVaidStanding_eq_valid_iff [Chrono] (kernelPublicKey : Bytes) (vaid : Vaid)
    (revocation : RevocationStatus) (now : Instant) :
    verifyVaidStanding kernelPublicKey vaid revocation now = .valid ↔
      Authentic kernelPublicKey vaid ∧ vaid.isExpiredAt now = false ∧
        boundaryIsEvaluable vaid.scopeBoundary = true ∧ revocation = .notRevoked := by
  have last : VaidVerdict.ofRevocation revocation = .valid ↔ revocation = .notRevoked := by
    cases revocation <;> decide
  rw [← verifyVaidAuthenticity_iff, verifyVaidAuthenticity]
  by_cases authentic : verifyVaidAuthenticityGraded kernelPublicKey vaid = .valid
  · have accepted : VaidVerdict.isValid .valid = true := rfl
    simp only [verifyVaidStanding, authentic, accepted, Bool.not_true, Bool.false_eq_true, if_false]
    rw [guard_eq_iff (by decide), guard_eq_iff (by decide), last]
    simp
  · have refused : (verifyVaidAuthenticityGraded kernelPublicKey vaid).isValid = false :=
      Bool.eq_false_iff.mpr (fun h => authentic ((VaidVerdict.isValid_iff _).mp h))
    simp [verifyVaidStanding, refused, authentic]

end VaidSuite
