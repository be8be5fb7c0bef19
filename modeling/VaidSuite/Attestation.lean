import VaidSuite.Attenuation
import VaidSuite.Lib.Keyed

/-! Detached consent attestations: a parent issuer's signed, time-bounded
statement that one child may hold some authority under one parent. -/
namespace VaidSuite

def attestationVersion : UInt8 := 1

structure ConsentAttestation where
  attVersion : UInt8
  parentVaid : VaidId
  childVaid : VaidId
  childTrustDomain : String
  childTenantId : String
  issuedAt : Instant
  expiresAt : Instant
  scopeBoundary : List ScopeBoundaryEntry
  capabilitySet : List String
  trustDomain : String
  kernelKeyThumbprint : String
  signature : Bytes

namespace ConsentAttestation

def hop (a : ConsentAttestation) : VaidId × VaidId := (a.parentVaid, a.childVaid)

/-- Is the consent inside its window at `now`? Expiry is exact and a young consent
is allowed some skew. `none` is the panic of an `issued_at` too early to subtract
the skew from. -/
def isCurrent (a : ConsentAttestation) (now : Instant) : Option Bool :=
  if a.expiresAt ≤ a.issuedAt then some false
  else if a.expiresAt < now then some false
  else (a.issuedAt.addSeconds (-mintPopFreshnessSecs)).map (fun earliest => decide (earliest ≤ now))

def toJson [Chrono] (a : ConsentAttestation) : Json String :=
  .object [("att_version", .ofNat a.attVersion.toNat),
    ("parent_vaid", .str (toString a.parentVaid)),
    ("child_vaid", .str (toString a.childVaid)),
    ("child_trust_domain", .str a.childTrustDomain),
    ("child_tenant_id", .str a.childTenantId),
    ("issued_at", .str (Chrono.serialize a.issuedAt)),
    ("expires_at", .str (Chrono.serialize a.expiresAt)),
    ("scope_boundary", .arr (a.scopeBoundary.map ScopeBoundaryEntry.toJson)),
    ("capability_set", .arr (a.capabilitySet.map .str)),
    ("trust_domain", .str a.trustDomain),
    ("kernel_key_thumbprint", .str a.kernelKeyThumbprint),
    ("signature", .ofBytes a.signature)]

end ConsentAttestation

section Crypto

variable [Crypto] [Chrono]

def canonicalAttestationSigningBytes (attestation : ConsentAttestation) : Bytes :=
  canonicalSigningBytes "signature" attestation.toJson

def verifyAttestationAuthenticity (kernelPublicKey : Bytes) (attestation : ConsentAttestation) :
    Bool :=
  if attestation.attVersion ≠ attestationVersion then false
  else if !isValidTrustDomain attestation.trustDomain then false
  else if attestation.kernelKeyThumbprint ≠ kernelKeyThumbprint kernelPublicKey then false
  else Crypto.ed25519Verify kernelPublicKey (canonicalAttestationSigningBytes attestation)
    attestation.signature

theorem signature_of_verifyAttestationAuthenticity {key : Bytes}
    {a : ConsentAttestation} (verifies : verifyAttestationAuthenticity key a = true) :
    Crypto.ed25519Verify key (canonicalAttestationSigningBytes a) a.signature = true := by
  unfold verifyAttestationAuthenticity at verifies
  split at verifies
  · cases verifies
  · split at verifies
    · cases verifies
    · split at verifies
      · cases verifies
      · exact verifies

end Crypto

/-- The attestations a presenter supplies, by the hop each names. A later one for
a hop replaces an earlier one. -/
abbrev AttestationBundle := Keyed ConsentAttestation.hop

namespace AttestationBundle

def new (attestations : List ConsentAttestation) : AttestationBundle := Keyed.ofList attestations

def empty : AttestationBundle := Keyed.empty

def get (bundle : AttestationBundle) (parentVaid childVaid : VaidId) :
    Option ConsentAttestation :=
  Keyed.get bundle (parentVaid, childVaid)

end AttestationBundle

end VaidSuite
