import VaidSuite.Python.Issuers

/-! The verifier of the ADK plugin: a leaf and its chain are presented directly, for an
optional resource and an optional capability. -/
namespace VaidSuite.Python.Adk

inductive VerifyCode where
  | allowed
  | noVaid
  | unsupportedSigVersion
  | malformedTrustDomain
  | issuerMismatch
  | lineageInconsistent
  | inauthentic
  | expired
  | unknownScopeKind
  | unverifiable
  | notAttenuated
  | consentExpired
  | outOfScope
  | missingCapability
  | revoked
  | indeterminate
  deriving DecidableEq, Repr

structure VerifyResult where
  allowed : Bool
  code : VerifyCode
  reason : PyStr

def allow (code : VerifyCode) (reason : PyStr) : VerifyResult := ⟨true, code, reason⟩

def deny (code : VerifyCode) (reason : PyStr) : VerifyResult := ⟨false, code, reason⟩

/-- `_AUTHENTICITY_VERDICT_TO_CODE`, with its default. -/
def authenticityVerdictToCode : VaidVerdict → VerifyCode
  | .unsupportedSigVersion => .unsupportedSigVersion
  | .malformedTrustDomain => .malformedTrustDomain
  | .issuerMismatch => .issuerMismatch
  | .lineageInconsistent => .lineageInconsistent
  | _ => .inauthentic

/-- `_CHAIN_VERDICT_TO_CODE`, with its default. -/
def chainVerdictToCode : ChainVerification → VerifyCode
  | .inauthentic => .inauthentic
  | .notAttenuated => .notAttenuated
  | .expired => .expired
  | .consentExpired => .consentExpired
  | _ => .unverifiable

/-- What one agent presents: its own document, and the ancestors it holds. -/
structure VaidPresentation where
  leaf : Dict
  chain : List Dict

variable [Libraries]

/-- Steps 5 and 6: the requested resource and capability, then the revocation of every link. -/
def verifyStanding (revocation : List PyStr → RevocationStatus)
    (requestedResource requestedCapability : Option PyStr) (leaf : Dict) (bundle : PresentedBundle) :
    Raises VerifyResult := do
  let inScope ← (match requestedResource with
    | none => pure true
    | some resource => isInScope leaf resource)
  if !inScope then
    return deny .outOfScope (py "requested resource " ++ reprStr (requestedResource.getD []) ++
      py " is outside the leaf's scope_boundary")
  if !requestedCapability.all (hasCapability leaf) then
    return deny .missingCapability (py "requested capability " ++
      reprStr (requestedCapability.getD []) ++ py " is not in the leaf's capability_set")
  match ← assembleLineage leaf bundle.resolveParent with
  | none => return deny .indeterminate (py ("lineage could not be completely assembled from the " ++
      "presented chain — standing cannot be determined, fails closed"))
  | some lineage =>
    match revocation lineage with
    | .revoked => return deny .revoked (py "a VAID in the lineage is revoked")
    | .unavailable => return (deny .indeterminate
        (py "revocation check unavailable — fails closed, never read as not-revoked"))
    | .notRevoked => return (allow .allowed
        (py ("signature, expiry, chain integrity, attenuation, requested action " ++
          "and revocation all checked clean")))

/-- Steps 2a to 4, over every presented document, and on to the rest. -/
def verifyChainSteps (keys : TrustedIssuerMap) (revocation : List PyStr → RevocationStatus)
    (requestedResource requestedCapability : Option PyStr) (now : UtcDatetime) (leaf : Dict)
    (chain : List Dict) : Raises VerifyResult := do
  match (leaf :: chain).find? (fun doc => !hasEvaluableBoundary doc) with
  | some doc => return deny .unknownScopeKind (py "document " ++ Libraries.repr (doc.get "vaid_id") ++
      py (" carries a scope_boundary entry " ++
        "of a kind this verifier does not recognise: refused rather than " ++
        "evaluated from the entries it could read, because an " ++
        "unrecognised kind can only narrow the authority granted"))
  | none =>
    match chain.find? (isMisbound keys) with
    | some doc => return deny .issuerMismatch (trustedOnlyForReason
        (py "document " ++ Libraries.repr (doc.get "vaid_id")) doc
        (((doc.get "kernel_key_thumbprint").asStr.bind keys.trustDomainFor).elim .null .str))
    | none =>
      let bundle ← PresentedBundle.new chain
      let chainVerdict ← verifyChainAt keys.resolveKey leaf bundle .empty now
      if chainVerdict ≠ .attenuated then
        return (deny (chainVerdictToCode chainVerdict)
          (py "chain verification did not attenuate: " ++ chainVerdictValue chainVerdict))
      verifyStanding revocation requestedResource requestedCapability leaf bundle

/-- The leaf's own binding, its authenticity and its expiry, then the rest. -/
def verifyPresented (keys : TrustedIssuerMap) (revocation : List PyStr → RevocationStatus)
    (requestedResource requestedCapability : Option PyStr) (now : UtcDatetime) (leaf : Dict)
    (chain : List Dict) : Raises VerifyResult := do
  let thumbprint := leaf.get "kernel_key_thumbprint"
  match thumbprint.asStr.bind (fun t => keys.lookup t) with
  | none => return (deny .issuerMismatch
      (py "no trusted kernel key for thumbprint " ++ Libraries.repr thumbprint))
  | some issuer =>
    if !pyEq (.str issuer.trustDomain) (leaf.get "trust_domain") then
      return deny .issuerMismatch (trustedOnlyForReason (py "leaf") leaf (.str issuer.trustDomain))
    let authenticity ← verifyVaidAuthenticityGraded issuer.publicKey leaf
    if authenticity ≠ .valid then
      return (deny (authenticityVerdictToCode authenticity)
        (py ("leaf authenticity check failed: " ++ authenticity.code)))
    if ← isExpiredAt leaf now then
      return deny .expired (py "leaf VAID has passed its own expires_at")
    verifyChainSteps keys revocation requestedResource requestedCapability now leaf chain

/-- `verify_presentation`. Trusted issuers bind every key they resolve, so
`require_domain_binding` passes them. -/
def verifyPresentation (presentation : Option VaidPresentation) (keys : TrustedIssuerMap)
    (revocation : List PyStr → RevocationStatus)
    (requestedResource requestedCapability : Option PyStr) (now : Option UtcDatetime)
    (clock : UtcDatetime) : Raises VerifyResult :=
  match presentation with
  | none => .ok (deny .noVaid (py "no VAID presented"))
  | some presentation =>
    verifyPresented keys revocation requestedResource requestedCapability (now.getD clock)
      presentation.leaf presentation.chain

end VaidSuite.Python.Adk
