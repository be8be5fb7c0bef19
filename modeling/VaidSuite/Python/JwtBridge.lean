import VaidSuite.Python.Issuers

/-! The JWT bridge: it verifies a presented chain in the order of the other bearers, and
on a full pass signs a short-lived token that describes the chain. -/
namespace VaidSuite.Python.JwtBridge

def issuedTokenTypeJwt : PyStr := py "urn:ietf:params:oauth:token-type:jwt"

inductive DenialReason where
  | noLeaf
  | unsupportedSigVersion
  | malformedTrustDomain
  | issuerMismatch
  | lineageInconsistent
  | inauthentic
  | leafExpired
  | unknownScopeKind
  | chainUnverifiable
  | chainNotAttenuated
  | chainExpired
  | chainConsentExpired
  | revoked
  | revocationUnavailable
  | missingAudience
  | unsupportedRequestedTokenType
  deriving DecidableEq, Repr

/-- `_AUTHENTICITY_TO_REASON`, with its default. -/
def authenticityToReason : VaidVerdict → DenialReason
  | .unsupportedSigVersion => .unsupportedSigVersion
  | .malformedTrustDomain => .malformedTrustDomain
  | .issuerMismatch => .issuerMismatch
  | .lineageInconsistent => .lineageInconsistent
  | _ => .inauthentic

/-- `_CHAIN_TO_REASON`, with its default. -/
def chainToReason : ChainVerification → DenialReason
  | .inauthentic => .inauthentic
  | .notAttenuated => .chainNotAttenuated
  | .expired => .chainExpired
  | .consentExpired => .chainConsentExpired
  | _ => .chainUnverifiable

structure ExchangeRequest where
  leaf : Option Dict
  chain : List Dict
  audience : Option PyStr
  requestedTokenType : Option PyStr

structure Issued where
  accessToken : PyStr
  issuedTokenType : PyStr
  tokenType : PyStr
  expiresIn : Int

inductive ExchangeResult where
  | issued (response : Issued)
  | denied (reason : DenialReason) (detail : PyStr)

/-- The root is the subject. The others are actors, the leaf outermost. -/
def buildSubAndAct : List Dict → Raises (PyValue × Option Dict)
  | [] => .error .indexError
  | [root] => do return (← root.item "vaid_id", none)
  | root :: first :: hops => do
    let node ← hops.foldlM
      (fun node hop => do return [(py "sub", ← hop.item "vaid_id"), (py "act", .obj node)])
      [(py "sub", ← first.item "vaid_id")]
    return (← root.item "vaid_id", some node)

/-- `dict(entry)`. The boundary has been evaluated, so its entries are dicts. -/
def copyEntry : PyValue → Raises PyValue
  | .obj entry => .ok (.obj entry)
  | _ => .error .typeError

variable [Libraries]

/-- The hash of the whole verified chain, root first. -/
def chainSha256 (chainDocs : List Dict) : Raises PyStr := do
  return hexdigest (Libraries.sha256 (← dumps (.arr (chainDocs.map .obj))))

/-- What the token says of the leaf, and of the chain by its hash. -/
def buildVaidClaim (leaf : Dict) (chainDocs : List Dict) : Raises Dict := do
  return [(py "vaid_id", ← leaf.item "vaid_id"),
    (py "trust_domain", ← leaf.item "trust_domain"),
    (py "scope_boundary", .arr (← (← iter (← leaf.item "scope_boundary")).mapM copyEntry)),
    (py "capability_set", .arr (← iter (← leaf.item "capability_set"))),
    (py "chain_sha256", .str (← chainSha256 chainDocs))]

def parseRfc3339Z (value : PyValue) : Raises UtcDatetime :=
  match value with
  | .str s =>
    match Libraries.fromisoformat s with
    | none | some .naive => .error .valueError
    | some (.aware utcMicros) => utcDatetime utcMicros
  | _ => .error .typeError

/-- What the deployment issues tokens with: its name, its signer, the lifetime it gives,
and the identifier of the next token. -/
structure Issuance where
  issuer : PyStr
  sign : Dict → Raises PyStr
  defaultTtlSeconds : Int
  jti : PyStr

/-- The end of `exchange`: the claims of a verified chain are bounded to the leaf's life
and signed. -/
def issueToken (issuance : Issuance) (audience : PyStr) (now : UtcDatetime) (leaf : Dict)
    (chainDocs : List Dict) : Raises ExchangeResult := do
  let (sub, act) ← buildSubAndAct chainDocs
  let vaidClaim ← buildVaidClaim leaf chainDocs
  let leafExpiresAt ← parseRfc3339Z (← leaf.item "expires_at")
  let iat := now.wholeTimestamp
  let exp := min (iat + issuance.defaultTtlSeconds) leafExpiresAt.wholeTimestamp
  if exp ≤ iat then
    return .denied .leafExpired (py "leaf has no remaining life to bound a non-empty-lived JWT to")
  let claims : Dict :=
    [(py "iss", .str issuance.issuer), (py "aud", .str audience), (py "iat", .num (.int iat)),
      (py "exp", .num (.int exp)), (py "jti", .str issuance.jti), (py "sub", sub),
      (py "vaid", .obj vaidClaim)] ++ (act.map (fun node => (py "act", Json.obj node))).toList
  let accessToken ← issuance.sign claims
  return .issued ⟨accessToken, issuedTokenTypeJwt, py "N_A", exp - iat⟩

/-- Step 5, the revocation of every link, and on to the token. -/
def issueStanding (revocation : List PyStr → RevocationStatus) (issuance : Issuance)
    (audience : PyStr) (now : UtcDatetime) (leaf : Dict) (bundle : PresentedBundle) :
    Raises ExchangeResult := do
  match ← assembleLineage leaf bundle.resolveParent with
  | none => return (.denied .chainUnverifiable
      (py "lineage could not be reassembled after attenuation passed"))
  | some chainIds =>
    match revocation chainIds with
    | .revoked => return .denied .revoked (py "a VAID in the lineage is revoked")
    | .unavailable => return (.denied .revocationUnavailable
        (py "revocation check unavailable - fails closed, never read as not-revoked"))
    | .notRevoked =>
      -- A `None` among the documents has no members to index.
      match chainIds.mapM (chainDoc leaf bundle) with
      | none => throw .typeError
      | some chainDocs => issueToken issuance audience now leaf chainDocs

/-- Steps 2a to 4, over every presented document, and on to the rest. -/
def exchangeChain (keys : TrustedIssuerMap) (revocation : List PyStr → RevocationStatus)
    (issuance : Issuance) (audience : PyStr) (now : UtcDatetime) (leaf : Dict) (chain : List Dict) :
    Raises ExchangeResult := do
  match (leaf :: chain).find? (fun doc => !hasEvaluableBoundary doc) with
  | some doc => return (.denied .unknownScopeKind
      (py "document " ++ Libraries.repr (doc.get "vaid_id") ++
        py (" carries a scope_boundary entry " ++
          "of a kind this bridge does not recognise: no token is issued, " ++
          "because an unrecognised kind can only narrow the authority " ++
          "granted and the issued claim would assert a boundary that was " ++
          "never evaluated")))
  | none =>
    match chain.find? (isMisbound keys) with
    | some doc => return .denied .issuerMismatch (trustedOnlyForReason
        (py "document " ++ Libraries.repr (doc.get "vaid_id")) doc
        (((doc.get "kernel_key_thumbprint").asStr.bind keys.trustDomainFor).elim .null .str))
    | none =>
      let bundle ← PresentedBundle.new chain
      let chainVerdict ← verifyChainAt keys.resolveKey leaf bundle .empty now
      if chainVerdict ≠ .attenuated then
        return (.denied (chainToReason chainVerdict)
          (py "chain verification did not attenuate: " ++ chainVerdictValue chainVerdict))
      issueStanding revocation issuance audience now leaf bundle

/-- The leaf's own binding, its authenticity and its expiry, then the rest. -/
def exchangePresented (keys : TrustedIssuerMap) (revocation : List PyStr → RevocationStatus)
    (issuance : Issuance) (audience : PyStr) (now : UtcDatetime) (leaf : Dict) (chain : List Dict) :
    Raises ExchangeResult := do
  let thumbprint := leaf.get "kernel_key_thumbprint"
  match thumbprint.asStr.bind (fun t => keys.lookup t) with
  | none => return (.denied .issuerMismatch
      (py "no trusted kernel key for thumbprint " ++ Libraries.repr thumbprint))
  | some issuer =>
    if !pyEq (.str issuer.trustDomain) (leaf.get "trust_domain") then
      return (.denied .issuerMismatch
        (trustedOnlyForReason (py "leaf") leaf (.str issuer.trustDomain)))
    let authenticity ← verifyVaidAuthenticityGraded issuer.publicKey leaf
    if authenticity ≠ .valid then
      return (.denied (authenticityToReason authenticity)
        (py ("leaf authenticity check failed: " ++ authenticity.code)))
    if ← isExpiredAt leaf now then
      return .denied .leafExpired (py "leaf VAID has passed its own expires_at")
    exchangeChain keys revocation issuance audience now leaf chain

/-- `exchange`. Trusted issuers bind every key they resolve, so `require_domain_binding`
passes them. -/
def exchange (request : ExchangeRequest) (keys : TrustedIssuerMap)
    (revocation : List PyStr → RevocationStatus) (issuance : Issuance) (now : Option UtcDatetime)
    (clock : UtcDatetime) : Raises ExchangeResult :=
  match request.leaf with
  | none => .ok (.denied .noLeaf (py "no VAID presented"))
  | some leaf =>
    match request.audience with
    | none | some [] => .ok (.denied .missingAudience (py "an audience is required to issue a JWT"))
    | some audience =>
      if request.requestedTokenType.any (fun t => t ≠ issuedTokenTypeJwt) then
        .ok (.denied .unsupportedRequestedTokenType (py "this bridge issues only " ++
          reprStr issuedTokenTypeJwt ++ py ", got " ++ reprStr (request.requestedTokenType.getD [])))
      else
        exchangePresented keys revocation issuance audience (now.getD clock) leaf request.chain

end VaidSuite.Python.JwtBridge
