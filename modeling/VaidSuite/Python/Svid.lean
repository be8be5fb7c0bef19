import VaidSuite.Python.Mint

/-! The SPIFFE door of the mint: a presented X.509-SVID chain is verified against a trust bundle, and
the SPIFFE ID of its leaf is read. -/
namespace VaidSuite.Python

inductive SvidPublicKey where
  | ed25519 (key : Bytes)
  | ellipticCurve (key : Bytes)
  | rsa (key : Bytes)
  | other (typeName : PyStr)

structure SpiffeId where
  trustDomain : PyStr
  text : PyStr

/-- What the X.509 and SPIFFE libraries compute. An `Except` of a string is an exception that is
caught, by its message. -/
class SvidLibraries where
  Certificate : Type
  loadDerX509Certificate : Bytes → Except PyStr Certificate
  /-- The URI names of a leaf. `none` is `ExtensionNotFound`. -/
  uriNames : Certificate → Raises (Option (List PyStr))
  spiffeId : PyStr → Except PyStr SpiffeId
  trustDomain : PyStr → Raises PyStr
  verifyClient : (roots : List Certificate) → (time : UtcDatetime) → (leaf : Certificate) →
    (intermediates : List Certificate) → Except PyStr Unit
  publicKey : Certificate → SvidPublicKey
  ecdsaSha256Verify : (key signature message : Bytes) → Bool
  rsaPkcs1Sha256Verify : (key signature message : Bytes) → Bool

export SvidLibraries (Certificate)

variable [SvidLibraries]

structure VerifiedSvid where
  spiffeId : PyStr
  trustDomain : PyStr
  leaf : Certificate

/-- `except ...: raise IdentityError(f"...{exc}")`. -/
def identityError {α : Type} (before : String) (body : Except PyStr α) : Except MintError α :=
  body.mapError (fun message => .identity (py before ++ message))

def leafSpiffeId (leaf : Certificate) : Except MintError SpiffeId := do
  let uris := (← raising (SvidLibraries.uriNames leaf)).getD []
  match uris with
  | [uri] =>
    identityError "SVID leaf URI SAN is not a well-formed SPIFFE ID: " (SvidLibraries.spiffeId uri)
  | uris => throw (.identity (py "SVID leaf must carry exactly one URI SAN (the SPIFFE ID), found " ++
      py (toString uris.length)))

/-- `verify_svid_chain`. What the leaf says of itself is read before its path is validated. -/
def verifySvidChain (leaf : Bytes) (intermediates trustBundle : List Bytes)
    (expectedTrustDomain : PyStr) (time : Option UtcDatetime) (clock : UtcDatetime) :
    Except MintError VerifiedSvid := do
  let leafCert ← identityError "SVID leaf is not a valid DER certificate: "
    (SvidLibraries.loadDerX509Certificate leaf)
  let intermediateCerts ← identityError "SVID intermediate is not a valid DER certificate: "
    (intermediates.mapM SvidLibraries.loadDerX509Certificate)
  let rootCerts ← identityError "trust bundle entry is not a valid DER certificate: "
    (trustBundle.mapM SvidLibraries.loadDerX509Certificate)
  if rootCerts.isEmpty then
    throw (.identity (py "trust bundle is empty - nothing to anchor the SVID chain to"))
  let spiffeId ← leafSpiffeId leafCert
  let expected ← raising (SvidLibraries.trustDomain expectedTrustDomain)
  if spiffeId.trustDomain ≠ expected then
    throw (.identity (py "SVID trust domain '" ++ spiffeId.trustDomain ++
      py "' does not match the expected trust domain '" ++ expectedTrustDomain ++ py "'"))
  identityError "SVID certificate chain did not verify: "
    (SvidLibraries.verifyClient rootCerts (time.getD clock) leafCert intermediateCerts)
  return ⟨spiffeId.text, spiffeId.trustDomain, leafCert⟩

end VaidSuite.Python
