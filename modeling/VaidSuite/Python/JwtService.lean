import VaidSuite.Python.JwtBridge
import VaidSuite.Python.Loads

/-! The token endpoint of the JWT bridge: the form of the request, the chain in its
`subject_token`, and the answer. -/
namespace VaidSuite.Python.JwtBridge

def grantTypeTokenExchange : PyStr := py "urn:ietf:params:oauth:grant-type:token-exchange"

def subjectTokenTypeVaidChainV1 : PyStr :=
  py "urn:vaid:params:oauth:token-exchange:token-type:vaid-chain-v1"

def DenialReason.value : DenialReason → PyStr
  | .noLeaf => py "no_leaf"
  | .unsupportedSigVersion => py "unsupported_sig_version"
  | .malformedTrustDomain => py "malformed_trust_domain"
  | .issuerMismatch => py "issuer_mismatch"
  | .lineageInconsistent => py "lineage_inconsistent"
  | .inauthentic => py "inauthentic"
  | .leafExpired => py "leaf_expired"
  | .unknownScopeKind => py "unknown_scope_kind"
  | .chainUnverifiable => py "chain_unverifiable"
  | .chainNotAttenuated => py "chain_not_attenuated"
  | .chainExpired => py "chain_expired"
  | .chainConsentExpired => py "chain_consent_expired"
  | .revoked => py "revoked"
  | .revocationUnavailable => py "revocation_unavailable"
  | .missingAudience => py "missing_audience"
  | .unsupportedRequestedTokenType => py "unsupported_requested_token_type"

abbrev Form := List (PyStr × PyStr)

def Form.get (form : Form) (field : String) : Option PyStr := form.lookup (py field)

inductive TokenResponse where
  | oauthError (error : String) (description : PyStr)
  | issued (response : Issued)

def documentsOf (items : List PyValue) : Option (List Dict) :=
  items.mapM (fun d =>
    match d with
    | .obj document => some document
    | _ => none)

/-- The leaf and the chain of the value that a `subject_token` holds. -/
def subjectOf : PyValue → Option Dict × List Dict
  | .obj parsed =>
    match Dict.get parsed "leaf" with
    | .obj leaf =>
      match (parsed.lookup (py "chain")).getD (.arr []) with
      | .arr items =>
        match documentsOf items with
        | some chain => (some leaf, chain)
        | none => (none, [])
      | _ => (none, [])
    | _ => (none, [])
  | _ => (none, [])

def parseSubjectToken (raw : PyStr) : Option Dict × List Dict :=
  match jsonLoads raw with
  | some parsed => subjectOf parsed
  | none => (none, [])

structure BridgeConfig where
  keys : TrustedIssuerMap
  revocation : List PyStr → RevocationStatus
  issuance : Issuance

variable [Libraries]

/-- `POST /token-exchange`, from its decoded form on. -/
def tokenExchange (config : BridgeConfig) (form : Form) (clock : UtcDatetime) :
    Raises TokenResponse := do
  if form.get "grant_type" ≠ some grantTypeTokenExchange then
    return .oauthError "unsupported_grant_type"
      (py "grant_type must be " ++ reprStr grantTypeTokenExchange)
  if form.get "subject_token_type" ≠ some subjectTokenTypeVaidChainV1 then
    return .oauthError "invalid_request"
      (py "subject_token_type must be " ++ reprStr subjectTokenTypeVaidChainV1)
  match form.get "subject_token" with
  | none => return .oauthError "invalid_request" (py "subject_token is required")
  | some subjectToken =>
    match parseSubjectToken subjectToken with
    | (none, _) => return (.oauthError "invalid_request"
        (py "subject_token must be \x7b\"leaf\": <VAID>, \"chain\": [<VAID>, ...]\x7d"))
    | (some leaf, chain) =>
      let request : ExchangeRequest :=
        ⟨some leaf, chain, form.get "audience", form.get "requested_token_type"⟩
      match ← exchange request config.keys config.revocation config.issuance none clock with
      | .denied reason detail =>
        return .oauthError "invalid_grant" (reason.value ++ py ": " ++ detail)
      | .issued response => return .issued response

end VaidSuite.Python.JwtBridge
