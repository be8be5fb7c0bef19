import VaidSuite.Python.Issuers

/-! The verifier of the A2A extension: it loads the trusted issuers, takes the leaf and
the presented chain out of a message's metadata, and checks them in a fixed order. -/
namespace VaidSuite.Python

def extensionUri : String := "https://github.com/solara-associates/vaid/blob/main/docs/a2a/v1/extension.md"

def metadataVaidKey : String := extensionUri ++ "/vaid"
def metadataChainKey : String := extensionUri ++ "/vaidChain"

inductive VerifyCode where
  | allowed
  | noVaid
  | unparseable
  | unsupportedSigVersion
  | malformedTrustDomain
  | issuerMismatch
  | lineageInconsistent
  | inauthentic
  | expired
  | unknownScopeKind
  | unverifiable
  | notAttenuated
  | consentExpired
  | outOfScope
  | revoked
  | indeterminate
  deriving DecidableEq, Repr

structure VerifyResult where
  allowed : Bool
  code : VerifyCode
  reason : PyStr

def allow (code : VerifyCode) (reason : PyStr) : VerifyResult := ⟨true, code, reason⟩

def deny (code : VerifyCode) (reason : PyStr) : VerifyResult := ⟨false, code, reason⟩

/-- `_AUTHENTICITY_VERDICT_TO_CODE`, with its default. -/
def authenticityVerdictToCode : VaidVerdict → VerifyCode
  | .unsupportedSigVersion => .unsupportedSigVersion
  | .malformedTrustDomain => .malformedTrustDomain
  | .issuerMismatch => .issuerMismatch
  | .lineageInconsistent => .lineageInconsistent
  | _ => .inauthentic

/-- `_CHAIN_VERDICT_TO_CODE`, with its default. -/
def chainVerdictToCode : ChainVerification → VerifyCode
  | .inauthentic => .inauthentic
  | .notAttenuated => .notAttenuated
  | .expired => .expired
  | .consentExpired => .consentExpired
  | _ => .unverifiable

variable [Libraries]

/-- Why a document and the key it names do not go together. -/
def misboundReason (claimant : PyStr) (doc : Dict) (boundDomain : PyValue) : PyStr :=
  claimant ++ py " claims trust_domain " ++ Libraries.repr (doc.get "trust_domain") ++
    py ", but kernel key thumbprint " ++ Libraries.repr (doc.get "kernel_key_thumbprint") ++
    py " is trusted under trust_config.trustedIssuers only for " ++ Libraries.repr boundDomain ++
    py (": a key is trusted for the domain it is paired with, not for any domain a " ++
      "document claims")

/-- `document {doc.get('vaid_id')!r}`. -/
def named (doc : Dict) : PyStr := py "document " ++ Libraries.repr (doc.get "vaid_id")

/-- Steps 5 and 6: the requested action, then the revocation of every link. -/
def verifyStanding (revocation : List PyStr → RevocationStatus) (requestedAction : Option PyStr)
    (leaf : Dict) (bundle : PresentedBundle) : Raises VerifyResult := do
  let inScope ← (match requestedAction with
    | none => pure true
    | some action => isInScope leaf action)
  if !inScope then
    return deny .outOfScope (py "requested action " ++ reprStr (requestedAction.getD []) ++
      py " is outside the leaf's scope_boundary")
  match ← assembleLineage leaf bundle.resolveParent with
  | none => return deny .indeterminate (py ("lineage could not be completely assembled from the " ++
      "presented chain — standing cannot be determined, fails closed"))
  | some lineage =>
    match revocation lineage with
    | .revoked => return deny .revoked (py "a VAID in the lineage is revoked")
    | .unavailable => return (deny .indeterminate
        (py "revocation check unavailable — fails closed, never read as not-revoked"))
    | .notRevoked => return (allow .allowed
        (py ("signature, expiry, chain integrity, attenuation, requested-action " ++
          "scope and revocation all checked clean")))

/-- Steps 2a to 6: every presented boundary can be read, the presented documents' bindings,
then the chain. -/
def verifyChainSteps (keys : TrustedIssuerMap) (revocation : List PyStr → RevocationStatus)
    (requestedAction : Option PyStr) (now : UtcDatetime) (leaf : Dict) (chainRaw : List Dict) :
    Raises VerifyResult := do
  match (leaf :: chainRaw).find? (fun doc => !hasEvaluableBoundary doc) with
  | some doc => return deny .unknownScopeKind (named doc ++
      py (" carries a scope_boundary entry " ++
        "of a kind this verifier does not recognise: refused rather than " ++
        "evaluated from the entries it could read, because an " ++
        "unrecognised kind can only narrow the authority granted"))
  | none =>
    match chainRaw.find? (isMisbound keys) with
    | some doc => return deny .issuerMismatch (misboundReason (named doc) doc
        (((doc.get "kernel_key_thumbprint").asStr.bind keys.trustDomainFor).elim .null .str))
    | none =>
      let bundle ← PresentedBundle.new chainRaw
      let chainVerdict ← verifyChainAt keys.resolveKey leaf bundle .empty now
      if chainVerdict ≠ .attenuated then
        return (deny (chainVerdictToCode chainVerdict)
          (py "chain verification did not attenuate: " ++ chainVerdictValue chainVerdict))
      verifyStanding revocation requestedAction leaf bundle

/-- Steps 1 to 6, on a leaf and a presented chain that are documents: the leaf's own binding,
its authenticity and its expiry come first. -/
def verifyPresented (keys : TrustedIssuerMap) (revocation : List PyStr → RevocationStatus)
    (requestedAction : Option PyStr) (now : UtcDatetime) (leaf : Dict) (chainRaw : List Dict) :
    Raises VerifyResult := do
  let thumbprint := leaf.get "kernel_key_thumbprint"
  match thumbprint.asStr.bind (fun t => keys.lookup t) with
  | none => return deny .issuerMismatch (py "no trusted kernel key for thumbprint " ++
      Libraries.repr thumbprint ++ py ", this issuer is not in trust_config.trustedIssuers")
  | some issuer =>
    if !pyEq (.str issuer.trustDomain) (leaf.get "trust_domain") then
      return deny .issuerMismatch (misboundReason (py "leaf") leaf (.str issuer.trustDomain))
    let authenticity ← verifyVaidAuthenticityGraded issuer.publicKey leaf
    if authenticity ≠ .valid then
      return (deny (authenticityVerdictToCode authenticity)
        (py ("leaf authenticity check failed: " ++ authenticity.code)))
    if ← isExpiredAt leaf now then
      return deny .expired (py "leaf VAID has passed its own expires_at")
    verifyChainSteps keys revocation requestedAction now leaf chainRaw

omit [Libraries] in
/-- The presented chain, when it is absent or a list of documents. -/
def presentedChain (metadata : Dict) : Option (List Dict) :=
  match metadata.get metadataChainKey with
  | .null => some []
  | .arr items => items.mapM (fun d =>
      match d with
      | .obj doc => some doc
      | _ => none)
  | _ => none

/-- `verify_a2a_message`. The configuration is read first, whatever the message holds. -/
def verifyA2aMessage (message trustConfig : Dict) (revocation : List PyStr → RevocationStatus)
    (requestedAction : Option PyStr) (now : Option UtcDatetime) (clock : UtcDatetime)
    (requireVaid : Bool) : Raises VerifyResult := do
  let keys ← buildKeyResolver trustConfig
  let metadata : Dict := match message.get "metadata" with
    | .obj metadata => metadata
    | _ => []
  match metadata.get metadataVaidKey with
  | .null =>
    if requireVaid then
      return deny .noVaid (py "no VAID present under metadata key " ++
        reprStr (py metadataVaidKey) ++ py ", and requireVaid is set")
    else return allow .noVaid (py ("no VAID present under the extension's metadata key; requireVaid " ++
        "is not set, so this extension makes no claim about this message"))
  | .obj leaf =>
    match presentedChain metadata with
    | none => return deny .unparseable (py "metadata[" ++ reprStr (py metadataChainKey) ++
        py "] is present but is not a list of VAID document objects")
    | some chainRaw =>
      verifyPresented keys revocation requestedAction (now.getD clock) leaf chainRaw
  | _ => return deny .unparseable (py "metadata[" ++ reprStr (py metadataVaidKey) ++
      py "] is present but is not a VAID document object")

end VaidSuite.Python
