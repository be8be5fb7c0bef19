import VaidSuite.Python.Chain

/-! The trust configuration of the bearers of a chain: kernel keys, each bound to the one
trust domain it is trusted for. The A2A verifier, the ADK plugin and the JWT bridge each
load the same entries by the same rules. -/
namespace VaidSuite.Python

def ed25519PublicKeyBytes : Nat := 32

/-- The six bits that a character of the base64url alphabet stands for. -/
def b64urlValue (c : CodePoint) : Option Nat :=
  (base64UrlAlphabet.map CodePoint.ofChar).idxOf? c

/-- Strict unpadded base64url. An error carries its message. -/
def strictB64urlDecode (value : PyStr) : Except PyStr Bytes :=
  match value.mapM b64urlValue with
  | none | some [] => .error (py ("not strict unpadded base64url (allowed characters are A-Z, a-z, " ++
      "0-9, '-' and '_', with no '=' padding, and the value must not be empty)"))
  | some sextets =>
    if value.length % 4 = 1 then
      .error (py ("Invalid base64-encoded string: number of data characters (" ++
        toString value.length ++ ") cannot be 1 more than a multiple of 4"))
    else
      let decoded := decodeSextets sextets
      if b64url decoded ≠ value then
        .error (py ("non-canonical base64url: the trailing bits of the final " ++
          "character are not zero, so this is not the unique encoding of " ++
          "the bytes it decodes to"))
      else .ok decoded

/-- A kernel key, paired with the trust domain it is trusted for. -/
structure TrustedIssuer where
  publicKey : Bytes
  trustDomain : PyStr
  deriving DecidableEq

abbrev TrustedIssuerMap := List (PyStr × TrustedIssuer)

namespace TrustedIssuerMap

/-- `resolve_key`. A list or a dict cannot be a key of the map. -/
def resolveKey (keys : TrustedIssuerMap) : KernelKeyResolver
  | .str thumbprint => .ok ((keys.lookup thumbprint).map TrustedIssuer.publicKey)
  | .arr _ | .obj _ => .error .typeError
  | .null | .bool _ | .num _ => .ok none

def trustDomainFor (keys : TrustedIssuerMap) (thumbprint : PyStr) : Option PyStr :=
  (keys.lookup thumbprint).map TrustedIssuer.trustDomain

end TrustedIssuerMap

variable [Libraries]

/-- File one entry of the configured list. The second map lists the domains that each
thumbprint was given. `subject` names the list, and `citation` the rule, in the errors. -/
def addIssuer (subject citation : PyStr) (filed : TrustedIssuerMap × List (PyStr × List PyStr))
    (entry : PyValue) : Raises (TrustedIssuerMap × List (PyStr × List PyStr)) :=
  match entry with
  | .obj members =>
    match Dict.get members "kernelPublicKey" with
    | .str raw =>
      match strictB64urlDecode raw with
      | .ok keyBytes =>
        if keyBytes.length ≠ ed25519PublicKeyBytes then
          .error (.trustedIssuersConfig (subject ++ py " entry for kernelPublicKey " ++
            reprStr raw ++ py (" decodes to " ++ toString keyBytes.length ++
            " bytes, a raw Ed25519 public key is exactly " ++ toString ed25519PublicKeyBytes ++
            " bytes") ++ citation))
        else match Dict.get members "trustDomain" with
          | .str domain => do
            let thumbprint ← kernelKeyThumbprint keyBytes
            let domains := (filed.2.lookup thumbprint).getD [] ++ [domain]
            return (InsertionMap.set thumbprint ⟨keyBytes, domain⟩ filed.1,
              InsertionMap.set thumbprint domains filed.2)
          | _ => .error (.trustedIssuersConfig
              (subject ++ py " entry for kernel public key " ++ reprStr raw ++
                py (" has no trustDomain, every entry must name the " ++
                  "domain its key is trusted for") ++ citation))
      | .error exc => .error (.trustedIssuersConfig
          (subject ++ py " entry for kernelPublicKey " ++ reprStr raw ++
            py " could not be decoded as strict unpadded base64url: " ++ exc ++ citation))
    | _ => .error (.trustedIssuersConfig
        (subject ++ py " entry " ++ Libraries.repr entry ++
          py (" has no parseable kernelPublicKey, every entry must name the raw " ++
            "kernel public key it trusts") ++ citation))
  | _ => .error (.trustedIssuersConfig
      (subject ++ py " entry " ++ Libraries.repr entry ++
        py (" is not an object, every entry must be \x7b'trustDomain': ..., " ++
          "'kernelPublicKey': ...\x7d") ++ citation))

/-- Load a list of entries. A key listed twice is refused, also for one domain. -/
def loadIssuers (subject citation : PyStr) (issuers : List PyValue) : Raises TrustedIssuerMap := do
  let (entries, domainsByThumbprint) ← issuers.foldlM (addIssuer subject citation) ([], [])
  match domainsByThumbprint.find? (fun listed => 1 < listed.2.length) with
  | some (thumbprint, domains) => throw (.trustedIssuersConfig
      (subject ++ py " lists kernel key thumbprint " ++ reprStr thumbprint ++
        py " more than once, for domains " ++ Libraries.repr (.arr (domains.map .str)) ++
        py (", a key must be trusted for exactly one trust_domain, never " ++
          "whichever domain the last entry happened to list") ++ citation))
  | none => return entries

/-- `_build_key_resolver` of the A2A verifier. -/
def buildKeyResolver (trustConfig : Dict) : Raises TrustedIssuerMap := do
  let configured := trustConfig.get "trustedIssuers"
  loadIssuers (py "trust_config.trustedIssuers") (py " (spec §2.1)")
    (← iter (if truthy configured then configured else .arr []))

/-- `TrustedIssuers(...)` of the ADK plugin and of the JWT bridge. -/
def trustedIssuers (entries : List PyValue) : Raises TrustedIssuerMap :=
  loadIssuers (py "trustedIssuers") [] entries

omit [Libraries] in
/-- The configured entry of a trust domain and a raw key. -/
def issuerEntry (issuer : PyStr × Bytes) : PyValue :=
  .obj [(py "trustDomain", .str issuer.1), (py "kernelPublicKey", .str (b64url issuer.2))]

def fromRawKeys (issuers : List (PyStr × Bytes)) : Raises TrustedIssuerMap :=
  trustedIssuers (issuers.map issuerEntry)

omit [Libraries] in
/-- A boundary that is a list of entries of known kinds. -/
def hasEvaluableBoundary (doc : Dict) : Bool :=
  match doc.get "scope_boundary" with
  | .arr boundary => boundaryIsEvaluable boundary
  | _ => false

omit [Libraries] in
/-- A document that claims another trust domain than the one its trusted key is bound to. -/
def isMisbound (keys : TrustedIssuerMap) (doc : Dict) : Bool :=
  match (doc.get "kernel_key_thumbprint").asStr.bind keys.trustDomainFor with
  | none => false
  | some boundDomain => !pyEq (.str boundDomain) (doc.get "trust_domain")

/-- Why a document and the key it names do not go together. -/
def trustedOnlyForReason (claimant : PyStr) (doc : Dict) (boundDomain : PyValue) : PyStr :=
  claimant ++ py " claims trust_domain " ++ Libraries.repr (doc.get "trust_domain") ++
    py ", but kernel key thumbprint " ++ Libraries.repr (doc.get "kernel_key_thumbprint") ++
    py " is trusted only for " ++ Libraries.repr boundDomain ++
    py (": a key is trusted for the domain it is paired with, not for any domain a " ++
      "document claims")

end VaidSuite.Python
