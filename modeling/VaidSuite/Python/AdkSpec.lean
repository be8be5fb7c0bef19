import VaidSuite.Python.Adk
import VaidSuite.Python.Procedure

/-! The ADK verifier takes the steps of every bearer, and reports under its own codes. -/
namespace VaidSuite.Python.Adk

variable [Libraries]

omit [Libraries] in
def codeOf : FaultKind → VerifyCode
  | .issuerMismatch => .issuerMismatch
  | .authenticity verdict => authenticityVerdictToCode verdict
  | .expired => .expired
  | .unknownScopeKind => .unknownScopeKind
  | .chain verdict => chainVerdictToCode verdict

/-- How the verifier reports what stops it. -/
def report (keys : TrustedIssuerMap) (leaf : Dict) : Fault → VerifyResult
  | .unknownKey => deny .issuerMismatch (py "no trusted kernel key for thumbprint " ++
      Libraries.repr (leaf.get "kernel_key_thumbprint"))
  | .leafMisbound boundDomain =>
    deny .issuerMismatch (trustedOnlyForReason (py "leaf") leaf (.str boundDomain))
  | .leafAuthenticity verdict => deny (authenticityVerdictToCode verdict)
      (py ("leaf authenticity check failed: " ++ verdict.code))
  | .leafExpired => deny .expired (py "leaf VAID has passed its own expires_at")
  | .unknownScopeKind doc => deny .unknownScopeKind
      (py "document " ++ Libraries.repr (doc.get "vaid_id") ++
        py (" carries a scope_boundary entry " ++
          "of a kind this verifier does not recognise: refused rather than " ++
          "evaluated from the entries it could read, because an " ++
          "unrecognised kind can only narrow the authority granted"))
  | .misbound doc => deny .issuerMismatch (trustedOnlyForReason
      (py "document " ++ Libraries.repr (doc.get "vaid_id")) doc
      (((doc.get "kernel_key_thumbprint").asStr.bind keys.trustDomainFor).elim .null .str))
  | .chain verdict => deny (chainVerdictToCode verdict)
      (py "chain verification did not attenuate: " ++ chainVerdictValue verdict)

theorem report_code (keys : TrustedIssuerMap) (leaf : Dict) (fault : Fault) :
    (report keys leaf fault).code = codeOf fault.kind := by
  cases fault <;> rfl

theorem verifyPresented_eq (keys : TrustedIssuerMap) (revocation : List PyStr → RevocationStatus)
    (requestedResource requestedCapability : Option PyStr) (now : UtcDatetime) (leaf : Dict)
    (chain : List Dict) :
    verifyPresented keys revocation requestedResource requestedCapability now leaf chain =
      checkBearer (report keys leaf)
        (verifyStanding revocation requestedResource requestedCapability leaf) keys now leaf chain := rfl

def standingCode : RevocationStatus → VerifyCode
  | .notRevoked => .allowed
  | .revoked => .revoked
  | .unavailable => .indeterminate

theorem verifyStanding_ok (revocation : List PyStr → RevocationStatus) (leaf : Presented)
    (chain : List Presented) : ∃ result,
      verifyStanding revocation none none leaf.dict (bundleOf chain) = .ok result ∧
        result.code = standingCode (lineageStanding revocation leaf chain) := by
  unfold verifyStanding lineageStanding
  simp only [assembleLineage_ok]
  cases (presentation leaf chain).names maxLineageDepth with
  | none => exact ⟨_, rfl, rfl⟩
  | some ids =>
    rw [Option.elim_some]
    cases answer : revocation ids <;>
      simp only [Option.all_none, Bool.not_true, Bool.false_eq_true, if_false, Raising.ok_bind, answer,
        pure_bind] <;> exact ⟨_, rfl, rfl⟩

end VaidSuite.Python.Adk
