import VaidSuite.Lib.Calendar
import VaidSuite.TypeScript.Chain

/-! The TypeScript mirror of the reference issuer: its kernel signer, its lineage and
revocation stores, and its own verifier. -/
namespace VaidSuite.TypeScript

/-- What a call of the issuer or the mint throws. -/
inductive MintError where
  | mint (message : JsStr)
  | unauthorized (message : JsStr)
  | identity (message : JsStr)
  | audit (message : JsStr)
  | config (message : JsStr)
  | rangeError (message : JsStr)
  /-- An exception of the document rules. -/
  | thrown (e : JsException)

def throwing {α : Type} (body : Throws α) : Except MintError α := body.mapError .thrown

class Ed25519 where
  ed25519PublicKey : (seed : Bytes) → Bytes
  ed25519Sign : (message seed : Bytes) → Bytes

/-- `null`, or the string. -/
def nullable : Option JsStr → JsValue
  | none => .null
  | some s => .str s

/-- `Array.from(bytes)`. -/
def JsValue.ofBytes (bytes : Bytes) : JsValue := .arr (bytes.map (fun b => .ofNat b.toNat))

/-- The time value of `new Date(t)`. `none` is an invalid date. -/
def timeClip (t : Int) : Option Int := if t.natAbs ≤ 8640000000000000 then some t else none

/-- `toISOString()`. A year outside 0 to 9999 has a sign and six digits. -/
def toISOString (t : Int) : JsStr :=
  let seconds := t / 1000 + 62167219200
  let stamp := Rfc3339.ofSeconds (seconds % 12622780800).toNat false
  let year : Int := stamp.year + 400 * (seconds / 12622780800)
  let digits := if 0 ≤ year ∧ year ≤ 9999 then Rfc3339.fixed 4 year.toNat
    else (if year < 0 then 0x2d else 0x2b) :: Rfc3339.fixed 6 year.natAbs
  unitsOf (digits ++ (stamp.text.drop 4).take 15 ++ 0x2e :: Rfc3339.fixed 3 (t % 1000).toNat ++ [0x5a])

def utcWholeSecondRfc3339 (now : Int) : JsStr := (toISOString (now / 1000 * 1000)).take 19 ++ js "Z"

/-- The write half of the lineage resolver, beside its one method. -/
class LineageStore (L : Type) where
  record : L → (vaidId : JsStr) → (parent : Option JsStr) → Except MintError L
  resolveParent : L → LineageResolver

/-- The reference lineage store: a `Map` of every mint, a root under `null`. -/
structure InMemoryLineageStore where
  entries : List (JsStr × Option JsStr)

namespace InMemoryLineageStore

def new : InMemoryLineageStore := ⟨[]⟩

def record (store : InMemoryLineageStore) (vaidId : JsStr) (parent : Option JsStr) :
    InMemoryLineageStore :=
  ⟨InsertionMap.set vaidId parent store.entries⟩

def resolveParent (store : InMemoryLineageStore) (vaidId : VaidId) : ParentResolution :=
  match vaidId.bind (fun id => store.entries.lookup id) with
  | none => .unknown
  | some none => .root
  | some (some parent) => .parent (some parent)

def clear (_ : InMemoryLineageStore) : InMemoryLineageStore := new

end InMemoryLineageStore

instance : LineageStore InMemoryLineageStore where
  record store vaidId parent := .ok (store.record vaidId parent)
  resolveParent := InMemoryLineageStore.resolveParent

/-- The revocation seam: an assembled lineage, root first. -/
class RevocationCheck (R : Type) where
  checkLineage : R → List VaidId → RevocationStatus

/-- `none` is the absent store, which cannot vouch for anything. -/
structure InMemoryRevocationList where
  revoked : Option (Finset JsStr)

namespace InMemoryRevocationList

def new : InMemoryRevocationList := ⟨none⟩

def assumeNothingRevoked : InMemoryRevocationList := ⟨some ∅⟩

def revoke (list : InMemoryRevocationList) (vaidId : JsStr) : InMemoryRevocationList :=
  ⟨some (insert vaidId (list.revoked.getD ∅))⟩

def markUnavailable (_ : InMemoryRevocationList) : InMemoryRevocationList := ⟨none⟩

def isAvailable (list : InMemoryRevocationList) : Bool := list.revoked.isSome

def checkLineage (list : InMemoryRevocationList) (lineage : List VaidId) : RevocationStatus :=
  match list.revoked with
  | none => .unavailable
  | some revoked => if lineage.any (fun id => id.any (· ∈ revoked)) then .revoked else .notRevoked

end InMemoryRevocationList

instance : RevocationCheck InMemoryRevocationList where
  checkLineage := InMemoryRevocationList.checkLineage

abbrev TrustDomain := { s : JsStr // isValidTrustDomain (.str s) = true }

structure ReferenceIssuer (L R : Type) where
  kernelSeed : Bytes
  vaidTtlHours : Int
  trustDomain : TrustDomain
  lineage : L
  revocation : R

structure IssueAttributes where
  agentClass : JsStr
  version : JsStr
  tenantId : JsStr
  parentVaid : Option JsStr
  scopeBoundary : List JsValue
  capabilitySet : List JsStr

/-- What one issuing reads from outside: the fresh UUID, the clock in milliseconds, and the
seed of the key that it generates and discards. -/
structure IssueEnv where
  agentId : Uuid
  now : Int
  agentSeed : Bytes

/-- `crypto.randomUUID()`. -/
def IssueEnv.vaidId (env : IssueEnv) : JsStr := js env.agentId.toString

/-- The document with an empty signature. -/
def buildUnsignedVaidDocument (vaidId agentId agentClass version tenantId issuedAt expiresAt : JsStr)
    (publicKeyDer : Bytes) (parentVaid : Option JsStr) (scopeBoundary : List JsValue)
    (lineageHash : JsStr) (capabilitySet : List JsStr) (trustDomain kernelKeyThumbprint : JsStr) :
    Members :=
  [(js "sig_version", .ofNat vaidSigVersionV4),
   (js "vaid_id", .str vaidId),
   (js "agent_id", .str agentId),
   (js "agent_class", .str agentClass),
   (js "version", .str version),
   (js "tenant_id", .str tenantId),
   (js "issued_at", .str issuedAt),
   (js "expires_at", .str expiresAt),
   (js "public_key_der", .ofBytes publicKeyDer),
   (js "kernel_signature", .arr []),
   (js "parent_vaid", nullable parentVaid),
   (js "scope_boundary", .arr scopeBoundary),
   (js "lineage_hash", .str lineageHash),
   (js "capability_set", .arr (capabilitySet.map .str)),
   (js "trust_domain", .str trustDomain),
   (js "kernel_key_thumbprint", .str kernelKeyThumbprint)]

namespace ReferenceIssuer

variable {L R : Type}

section Construction

variable [Runtime]

/-- The private constructor: no lineage, and an absent revocation store. -/
def new (kernelSeed : Bytes) (vaidTtlHours : Int) (trustDomain : JsStr) :
    Except MintError (ReferenceIssuer InMemoryLineageStore InMemoryRevocationList) :=
  if valid : isValidTrustDomain (.str trustDomain) = true then
    .ok ⟨kernelSeed, vaidTtlHours, ⟨trustDomain, valid⟩, .new, .new⟩
  else
    .error (.mint (js "trust_domain " ++ Runtime.stringify (.str trustDomain) ++
      js " is not well-formed (ADR-0004): lowercase ASCII letters, digits, '-' and '.'; at least " ++
      js "two labels; each 1-63 bytes without a leading or trailing '-'; no trailing dot; 1-253 " ++
      js "bytes total; final label not all-numeric"))

def fromSeed (seed : Bytes) (vaidTtlHours : Int) (trustDomain : JsStr) :
    Except MintError (ReferenceIssuer InMemoryLineageStore InMemoryRevocationList) :=
  if seed.length ≠ 32 then
    .error (.rangeError (js "kernel seed must be 32 bytes, got " ++ js (toString seed.length)))
  else new seed vaidTtlHours trustDomain

/-- Both durable halves at once. -/
def withRevocationBackend {L' R' : Type} (issuer : ReferenceIssuer L R) (check : R') (lineage : L') :
    ReferenceIssuer L' R' :=
  { issuer with lineage := lineage, revocation := check }

variable (issuer : ReferenceIssuer InMemoryLineageStore InMemoryRevocationList)

def assumingNothingRevoked : ReferenceIssuer InMemoryLineageStore InMemoryRevocationList :=
  { issuer with revocation := .assumeNothingRevoked }

def revoke (vaidId : JsStr) : ReferenceIssuer InMemoryLineageStore InMemoryRevocationList :=
  { issuer with revocation := issuer.revocation.revoke vaidId }

def clearLineage : ReferenceIssuer InMemoryLineageStore InMemoryRevocationList :=
  { issuer with lineage := issuer.lineage.clear }

end Construction

section Issuing

variable [Runtime] [Ed25519]

def kernelPublicKey (issuer : ReferenceIssuer L R) : Bytes :=
  Ed25519.ed25519PublicKey issuer.kernelSeed

/-- When a document will expire: the TTL, clamped to a readable ceiling. `none` is an
invalid date, which no ceiling is less than. -/
def expires (issuer : ReferenceIssuer L R) (now : Int) (notAfter : JsValue) :
    Except MintError (Option Int) := do
  let expires := timeClip (now + issuer.vaidTtlHours * 3600000)
  match notAfter with
  | .undefined | .null => return expires
  | notAfter =>
    let text ← throwing (template notAfter)
    match Runtime.dateParse text with
    | none => throw (.unauthorized (js "not_after '" ++ text ++
        js "' is not a readable RFC 3339 timestamp — an expiry ceiling that cannot be read bounds " ++
        js "nothing"))
    | some ceiling => return expires.map (min ceiling)

/-- `#buildAndSign`, up to the lineage store. -/
def buildAndSign (issuer : ReferenceIssuer L R) (env : IssueEnv) (attributes : IssueAttributes)
    (publicKeyDer : Bytes) (notAfter : JsValue) : Except MintError Members := do
  let expires ← issuer.expires env.now notAfter
  let lineageHash ← throwing (computeLineageHash (nullable attributes.parentVaid) env.vaidId)
  match expires with
  | none => throw (.rangeError (js "Invalid time value"))
  | some expires =>
    let thumbprint ← throwing (TypeScript.kernelKeyThumbprint issuer.kernelPublicKey)
    let unsigned := buildUnsignedVaidDocument env.vaidId env.vaidId attributes.agentClass
      attributes.version attributes.tenantId (utcWholeSecondRfc3339 env.now)
      (utcWholeSecondRfc3339 expires) publicKeyDer attributes.parentVaid attributes.scopeBoundary
      lineageHash attributes.capabilitySet issuer.trustDomain.val thumbprint
    let digest ← throwing (canonicalVaidSigningBytes unsigned)
    return InsertionMap.set (js "kernel_signature")
      (.ofBytes (Ed25519.ed25519Sign digest issuer.kernelSeed)) unsigned

end Issuing

section Verifying

variable [LineageStore L] [RevocationCheck R]

def resolveParent (issuer : ReferenceIssuer L R) : LineageResolver :=
  LineageStore.resolveParent issuer.lineage

/-- An incomplete lineage is unavailable, and the store is not consulted. -/
def revocationStatus (issuer : ReferenceIssuer L R) (vaid : Members) : Throws RevocationStatus := do
  match ← assembleLineage (.obj vaid) issuer.resolveParent with
  | none => return .unavailable
  | some lineage => return RevocationCheck.checkLineage issuer.revocation lineage

def verifyVaid [Runtime] [Ed25519] (issuer : ReferenceIssuer L R) (vaid : Members) (now : Int) :
    Throws Bool := do
  if !(vaid.get "sig_version").strictEq (.ofNat vaidSigVersionV4) then return false
  if !isWellFormedScopeBoundary (vaid.get "scope_boundary") then return false
  if isExpired vaid now then return false
  if (← issuer.revocationStatus vaid) ≠ .notRevoked then return false
  let signature ← numbersToBytes (vaid.get "kernel_signature")
  return Runtime.ed25519Verify signature (← canonicalVaidSigningBytes vaid) issuer.kernelPublicKey

end Verifying

end ReferenceIssuer

end VaidSuite.TypeScript
