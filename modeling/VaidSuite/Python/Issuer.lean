import VaidSuite.Lib.Calendar
import VaidSuite.Lib.JsonNumeral
import VaidSuite.Python.Chain

/-! The Python mirror of the reference issuer: its kernel signer, its lineage and revocation stores,
and its own verifier. -/
namespace VaidSuite.Python

/-- What a call of the issuer or the mint raises. -/
inductive MintError where
  | mint (message : PyStr)
  | unauthorized (message : PyStr)
  | identity (message : PyStr)
  | audit (message : PyStr)
  | config (message : PyStr)
  /-- An exception of the language, or of the document rules. -/
  | raised (e : PyException)

def raising {α : Type} (body : Raises α) : Except MintError α := body.mapError .raised

/-- `Ed25519PrivateKey`, by its raw seed. -/
class PrivateKeys where
  publicBytesRaw : (seed : Bytes) → Bytes
  sign : (seed data : Bytes) → Bytes

/-- `None`, or the string. -/
def optional : Option PyStr → PyValue
  | none => .null
  | some s => .str s

/-- The write half of the lineage resolver, beside its one method. -/
class LineageStore (L : Type) where
  record : L → (vaidId : PyStr) → (parent : Option PyStr) → Except MintError L
  resolveParent : L → LineageResolver

/-- The reference lineage store: a `dict` of every mint, a root under `None`. -/
structure InMemoryLineageStore where
  entries : List (PyStr × Option PyStr)

namespace InMemoryLineageStore

def new : InMemoryLineageStore := ⟨[]⟩

def record (store : InMemoryLineageStore) (vaidId : PyStr) (parent : Option PyStr) :
    InMemoryLineageStore :=
  ⟨InsertionMap.set vaidId parent store.entries⟩

def resolveParent (store : InMemoryLineageStore) (vaidId : PyStr) : ParentResolution :=
  match store.entries.lookup vaidId with
  | none => .unknown
  | some none => .root
  | some (some parent) => .parent parent

def clear (_ : InMemoryLineageStore) : InMemoryLineageStore := new

end InMemoryLineageStore

instance : LineageStore InMemoryLineageStore where
  record store vaidId parent := .ok (store.record vaidId parent)
  resolveParent := InMemoryLineageStore.resolveParent

/-- The revocation seam: an assembled lineage, root first. -/
class RevocationCheck (R : Type) where
  checkLineage : R → List PyStr → RevocationStatus

/-- `none` is the absent store, which cannot vouch for anything. -/
structure InMemoryRevocationList where
  revoked : Option (Finset PyStr)

namespace InMemoryRevocationList

def new : InMemoryRevocationList := ⟨none⟩

def assumeNothingRevoked : InMemoryRevocationList := ⟨some ∅⟩

def revoke (list : InMemoryRevocationList) (vaidId : PyStr) : InMemoryRevocationList :=
  ⟨some (insert vaidId (list.revoked.getD ∅))⟩

def markUnavailable (_ : InMemoryRevocationList) : InMemoryRevocationList := ⟨none⟩

def isAvailable (list : InMemoryRevocationList) : Bool := list.revoked.isSome

def checkLineage (list : InMemoryRevocationList) (lineage : List PyStr) : RevocationStatus :=
  match list.revoked with
  | none => .unavailable
  | some revoked => if lineage.any (· ∈ revoked) then .revoked else .notRevoked

end InMemoryRevocationList

instance : RevocationCheck InMemoryRevocationList where
  checkLineage := InMemoryRevocationList.checkLineage

abbrev TrustDomain := { s : PyStr // isValidTrustDomain (.str s) = .ok true }

structure ReferenceIssuer (L R : Type) where
  kernelKey : Bytes
  vaidTtlHours : Int
  trustDomain : TrustDomain
  lineage : L
  revocation : R

structure IssueAttributes where
  agentClass : PyStr
  version : PyStr
  tenantId : PyStr
  parentVaid : Option PyStr
  scopeBoundary : PyValue
  capabilitySet : List PyStr

/-- What one issuing reads from outside: the fresh UUID, the clock, and the seed of the key that
it generates and discards. -/
structure IssueEnv where
  agentId : Uuid
  now : UtcDatetime
  ephemeral : Bytes

/-- `str(uuid.uuid4())`. -/
def IssueEnv.vaidId (env : IssueEnv) : PyStr := py env.agentId.toString

/-- `_whole_second_rfc3339`. A year below 1000 is not padded. -/
def wholeSecondRfc3339 (dt : UtcDatetime) : PyStr :=
  let stamp := Rfc3339.ofSeconds (dt.val / 1000000 + 31622400) false
  let year := if stamp.year < 1000 then JsonText.natText stamp.year else Rfc3339.fixed 4 stamp.year
  (year ++ stamp.text.drop 4).map (Fin.ofNat 0x110000)

/-- The document with an empty signature. -/
def buildUnsignedVaidDocument (vaidId agentId agentClass version tenantId issuedAt expiresAt : PyStr)
    (publicKeyDer : Bytes) (parentVaid : Option PyStr) (scopeBoundary : List PyValue)
    (lineageHash : PyStr) (capabilitySet : List PyStr) (trustDomain kernelKeyThumbprint : PyStr) :
    Dict :=
  [(py "sig_version", .num (.int vaidSigVersionV4)),
   (py "vaid_id", .str vaidId),
   (py "agent_id", .str agentId),
   (py "agent_class", .str agentClass),
   (py "version", .str version),
   (py "tenant_id", .str tenantId),
   (py "issued_at", .str issuedAt),
   (py "expires_at", .str expiresAt),
   (py "public_key_der", .ofBytes publicKeyDer),
   (py "kernel_signature", .arr []),
   (py "parent_vaid", optional parentVaid),
   (py "scope_boundary", .arr scopeBoundary),
   (py "lineage_hash", .str lineageHash),
   (py "capability_set", .arr (capabilitySet.map .str)),
   (py "trust_domain", .str trustDomain),
   (py "kernel_key_thumbprint", .str kernelKeyThumbprint)]

namespace ReferenceIssuer

variable {L R : Type}

section Defaults

/-- No lineage, and an absent revocation store. -/
def new (kernelKey : Bytes) (vaidTtlHours : Int) (trustDomain : TrustDomain) :
    ReferenceIssuer InMemoryLineageStore InMemoryRevocationList :=
  ⟨kernelKey, vaidTtlHours, trustDomain, .new, .new⟩

/-- Both durable halves at once. -/
def withRevocationBackend {L' R' : Type} (issuer : ReferenceIssuer L R) (check : R') (lineage : L') :
    ReferenceIssuer L' R' :=
  { issuer with lineage := lineage, revocation := check }

variable (issuer : ReferenceIssuer InMemoryLineageStore InMemoryRevocationList)

def assumingNothingRevoked : ReferenceIssuer InMemoryLineageStore InMemoryRevocationList :=
  { issuer with revocation := .assumeNothingRevoked }

def revoke (vaidId : PyStr) : ReferenceIssuer InMemoryLineageStore InMemoryRevocationList :=
  { issuer with revocation := issuer.revocation.revoke vaidId }

def clearLineage : ReferenceIssuer InMemoryLineageStore InMemoryRevocationList :=
  { issuer with lineage := issuer.lineage.clear }

end Defaults

section Issuing

variable [Libraries] [PrivateKeys]

def kernelPublicKey (issuer : ReferenceIssuer L R) : Bytes :=
  PrivateKeys.publicBytesRaw issuer.kernelKey

/-- When a document will expire: the TTL, clamped to a readable ceiling. -/
def expires (issuer : ReferenceIssuer L R) (now : UtcDatetime) (notAfter : PyValue) :
    Except MintError UtcDatetime := do
  let expires ← raising (utcDatetime (now.val + issuer.vaidTtlHours * 3600000000))
  match notAfter with
  | .null => return expires
  | notAfter =>
    match ← raising (parseRfc3339 notAfter) with
    | some cap => return min expires cap
    | none => throw (.unauthorized (py "not_after " ++ Libraries.repr notAfter ++
        py " is not a readable RFC 3339 timestamp — an expiry ceiling that cannot be read bounds " ++
        py "nothing"))

/-- `_build_and_sign`, up to the lineage store. -/
def buildAndSign (issuer : ReferenceIssuer L R) (env : IssueEnv) (attributes : IssueAttributes)
    (publicKeyDer : Bytes) (notAfter : PyValue) : Except MintError Dict := do
  let expires ← issuer.expires env.now notAfter
  let lineageHash ← raising (computeLineageHash (optional attributes.parentVaid) (.str env.vaidId))
  let thumbprint ← raising (Python.kernelKeyThumbprint issuer.kernelPublicKey)
  let scopeBoundary ← raising (iter attributes.scopeBoundary)
  let unsigned := buildUnsignedVaidDocument env.vaidId env.vaidId attributes.agentClass
    attributes.version attributes.tenantId (wholeSecondRfc3339 env.now) (wholeSecondRfc3339 expires)
    publicKeyDer attributes.parentVaid scopeBoundary lineageHash attributes.capabilitySet
    issuer.trustDomain.val thumbprint
  let digest ← raising (canonicalVaidSigningBytes unsigned)
  return InsertionMap.set (py "kernel_signature") (.ofBytes (PrivateKeys.sign issuer.kernelKey digest))
    unsigned

end Issuing

section Verifying

variable [LineageStore L] [RevocationCheck R]

def resolveParent (issuer : ReferenceIssuer L R) : LineageResolver :=
  LineageStore.resolveParent issuer.lineage

/-- An incomplete lineage is unavailable, and the store is not consulted. -/
def revocationStatus (issuer : ReferenceIssuer L R) (vaid : Dict) : Raises RevocationStatus := do
  match ← assembleLineage vaid issuer.resolveParent with
  | none => return .unavailable
  | some lineage => return RevocationCheck.checkLineage issuer.revocation lineage

def verifyVaid [Libraries] [PrivateKeys] (issuer : ReferenceIssuer L R) (vaid : Dict)
    (now : UtcDatetime) : Raises Bool := do
  if !pyEq (vaid.get "sig_version") (.num (.int vaidSigVersionV4)) then return false
  if !isWellFormedScopeBoundary (vaid.get "scope_boundary") then return false
  if ← isExpiredAt vaid now then return false
  if (← issuer.revocationStatus vaid) ≠ .notRevoked then return false
  let digest ← canonicalVaidSigningBytes vaid
  let signature ← toBytes (← vaid.item "kernel_signature")
  if issuer.kernelPublicKey.length ≠ 32 then throw .valueError
  return (← excepting [.invalidSignature] (ed25519Check issuer.kernelPublicKey signature digest)).isSome

end Verifying

end ReferenceIssuer

end VaidSuite.Python
