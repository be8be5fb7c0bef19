import VaidSuite.Lib.RelyGuarantee
import VaidSuite.TypeScript.Issuer
import VaidSuite.TypeScript.Stringify

/-! The TypeScript mirror of the mint: root mints behind an authorization gate, and attenuated
delegation. A call is a program over the state of the service. What it does between two
`await`s is one action. -/
namespace VaidSuite.TypeScript

/-- The requested attributes. The boundary is whatever the caller passed, and an absent
capability set is an empty one. -/
structure VaidSeed where
  agentClass : JsStr
  version : JsStr
  tenantId : JsStr
  parentVaid : Option JsStr
  scopeBoundary : JsValue
  capabilitySet : List JsStr
  publicKeyDer : Option Bytes

structure MintPop where
  nonce : JsStr
  issuedAt : JsStr
  signature : Bytes

structure MintVaidRequest where
  seed : VaidSeed
  pop : Option MintPop

structure MintVaidResponse where
  vaid : Members
  expiryBoundedByParent : Bool
  parentExpiresAt : JsValue

/-- `[...(seed.scopeBoundary ?? [])]`, of a boundary whose shape was checked. -/
def VaidSeed.entries (seed : VaidSeed) : List JsValue :=
  match seed.scopeBoundary with
  | .arr entries => entries
  | _ => []

/-- The payload a holder signs to prove possession of the key it registers. -/
def buildMintPopPayload (seed : VaidSeed) (publicKeyDer : Bytes) (nonce issuedAt : JsStr) : Members :=
  [(js "publicKeyDer", .ofBytes publicKeyDer),
   (js "tenantId", .str seed.tenantId),
   (js "agentClass", .str seed.agentClass),
   (js "version", .str seed.version),
   (js "parentVaid", nullable seed.parentVaid),
   (js "scopeBoundary", .arr seed.entries),
   (js "capabilitySet", .arr (seed.capabilitySet.map .str)),
   (js "nonce", .str nonce),
   (js "issuedAt", .str issuedAt)]

def canonicalRequestSigningBytes [Runtime] (payload : JsValue) : Throws Bytes :=
  match Runtime.canonicalize payload with
  | some canonical => .ok (Runtime.sha256 canonical)
  | none => .error .jcsError

def verifySignedPayload [Runtime] (payload : JsValue) (publicKey signature : Bytes) : Throws Bool := do
  return Runtime.ed25519Verify signature (← canonicalRequestSigningBytes payload) publicKey

def seedAttributes (seed : VaidSeed) : IssueAttributes where
  agentClass := seed.agentClass
  version := seed.version
  tenantId := seed.tenantId
  parentVaid := seed.parentVaid
  scopeBoundary := seed.entries
  capabilitySet := seed.capabilitySet

/-- The audit write seam. A rejected write fails the mint. -/
class AuditSink (A : Type) where
  record : A → (eventType : JsStr) → (details : Members) → Except MintError Unit × A

structure AuditEntry where
  eventType : JsStr
  details : Members

structure InMemoryAudit where
  entries : List AuditEntry

instance : AuditSink InMemoryAudit where
  record audit eventType details := (.ok (), ⟨audit.entries ++ [⟨eventType, details⟩]⟩)

/-- The root-mint authorization seam, by its one method. -/
abbrev AuthorizationGate := VaidSeed → Except MintError Unit

def permitAll : AuthorizationGate := fun _ => .ok ()

def denyAll : AuthorizationGate := fun _ => .error (.unauthorized (js "root mint denied by gate"))

/-- A delegation depth limit within its bounds. There is no unlimited one. -/
abbrev MaxDelegationDepth := { depth : Nat // 1 ≤ depth ∧ depth ≤ maxLineageDepth }

theorem one_isDepth : 1 ≤ 1 ∧ 1 ≤ maxLineageDepth := by decide

def defaultMaxDelegationDepth : MaxDelegationDepth := ⟨1, one_isDepth⟩

theorem whole_isDepth {b : Binary64.Bits} (low : ¬ (Binary64.negative b = true ∨ Binary64.whole b < 1))
    (high : ¬ maxLineageDepth < Binary64.whole b) :
    1 ≤ Binary64.whole b ∧ Binary64.whole b ≤ maxLineageDepth := by
  omega

def validateMaxDelegationDepth [Runtime] (maxDelegationDepth : JsValue) :
    Except MintError MaxDelegationDepth :=
  let noInteger : Except MintError MaxDelegationDepth :=
    .error (.config (js "maxDelegationDepth must be an integer, got " ++
      Runtime.stringify maxDelegationDepth ++ js " — there is no value meaning unlimited"))
  match maxDelegationDepth with
  | .num b =>
    if !Binary64.isInteger b then noInteger
    else if low : Binary64.negative b = true ∨ Binary64.whole b < 1 then
      .error (.config (js "maxDelegationDepth must be at least 1, got " ++ unitsOf (numberText b) ++
        js " — there is no value meaning unlimited"))
    else if high : maxLineageDepth < Binary64.whole b then
      .error (.config (js "maxDelegationDepth " ++ unitsOf (numberText b) ++
        js " exceeds the maximum lineage depth bound " ++ js (toString maxLineageDepth)))
    else .ok ⟨Binary64.whole b, whole_isDepth low high⟩
  | _ => noInteger

structure MintService (L R A : Type) where
  issuer : ReferenceIssuer L R
  audit : A
  consumedPopNonces : Finset JsStr
  maxDelegationDepth : MaxDelegationDepth

/-- What one call reads from outside: the gate, the clock where it is read, and what issuing
reads. -/
structure MintEnv where
  authz : AuthorizationGate
  popNow : Int
  parentNow : Int
  issue : IssueEnv

namespace MintService

variable {L R A : Type}

def new [Runtime] (issuer : ReferenceIssuer L R) (audit : A) (maxDelegationDepth : JsValue) :
    Except MintError (MintService L R A) :=
  (validateMaxDelegationDepth maxDelegationDepth).map (fun depth => ⟨issuer, audit, ∅, depth⟩)

abbrev Call (L R A α : Type) := Fallible (MintService L R A) MintError α

def spendNonce (nonce : JsStr) : Call L R A PUnit :=
  Fallible.atomically (fun service =>
    if nonce ∈ service.consumedPopNonces then
      (.error (.identity (js "PoP nonce already used — replay rejected")), service)
    else (.ok ⟨⟩, { service with consumedPopNonces := insert nonce service.consumedPopNonces }))

/-- Refuse a boundary that is not well formed. Only an absent one is an empty one. -/
def requireWellFormedBoundary (seed : VaidSeed) : Call L R A PUnit :=
  let boundary := match seed.scopeBoundary with
    | .undefined => .arr []
    | boundary => boundary
  Fallible.refuseIf (isWellFormedScopeBoundary boundary = false) (.mint
    (js "seed scopeBoundary is not a well-formed S.8 boundary: each entry must be an object " ++
      js "carrying exactly `kind` and `value` (ADR-0009). Since 0.10.0 a bare string is not a " ++
      js "boundary entry; build entries with `prefixEntry('...')`. Refused here rather than signed, " ++
      js "because a document carrying this would be rejected by every verifier that parses it off " ++
      js "the wire."))

def recordAudit [AuditSink A] (details : Members) : Call L R A PUnit :=
  Fallible.atomically (fun service =>
    match AuditSink.record service.audit (js "vaid_minted") details with
    | (.ok (), audit) => (.ok ⟨⟩, { service with audit := audit })
    | (.error e, audit) => (.error e, { service with audit := audit }))

def rootDetails (seed : VaidSeed) : Members :=
  [(js "agent_class", .str seed.agentClass),
   (js "version", .str seed.version),
   (js "tenant_id", .str seed.tenantId),
   (js "parent_vaid", nullable seed.parentVaid),
   (js "scope_boundary", .arr seed.entries),
   (js "capability_set_len", .ofNat seed.capabilitySet.length),
   (js "byo_key", .bool seed.publicKeyDer.isSome),
   (js "pop_verified", .bool seed.publicKeyDer.isSome),
   (js "delegated", .bool false)]

def childDetails (seed : VaidSeed) (parent vaid : Members) (expiryBoundedByParent : Bool) : Members :=
  [(js "agent_class", .str seed.agentClass),
   (js "version", .str seed.version),
   (js "parent_vaid", nullable seed.parentVaid),
   (js "scope_boundary", .arr seed.entries),
   (js "capability_set_len", .ofNat seed.capabilitySet.length),
   (js "byo_key", .bool true),
   (js "pop_verified", .bool true),
   (js "delegated", .bool true),
   (js "attenuation_verified", .bool true),
   (js "parent_tenant", parent.get "tenant_id"),
   (js "expiry_bounded_by_parent", .bool expiryBoundedByParent),
   (js "expires_at", vaid.get "expires_at"),
   (js "parent_expires_at", parent.get "expires_at")]

variable [Runtime]

/-- A refusal under a message whose making can throw. -/
def denial (message : Throws JsStr) : MintError :=
  match message with
  | .ok text => .unauthorized text
  | .error e => .thrown e

def crossTenantText (seed : VaidSeed) (parent : Members) : Throws JsStr := do
  return js "child tenant '" ++ seed.tenantId ++ js "' != authenticated parent tenant '" ++
    (← template (parent.get "tenant_id")) ++ js "' — cross-tenant delegation is denied"

def otherParentText (seed : VaidSeed) (parent : Members) : Throws JsStr := do
  return js "child parent_vaid " ++ Runtime.stringify (nullable seed.parentVaid) ++
    js " must equal the authenticated parent vaid_id " ++ (← template (parent.get "vaid_id")) ++
    js " — the parent comes from the verified VAID, never the body"

def deadParentText (parent : Members) : Throws JsStr := do
  return js "authenticated parent " ++ (← template (parent.get "vaid_id")) ++ js " expired at '" ++
    (← template (parent.get "expires_at")) ++ js "' — a child may not outlive the authority it " ++
    js "derives from, and a child of a dead parent would be issued already expired. Renew the " ++
    js "parent, then delegate"

def outlivingText (parent vaid : Members) : Throws JsStr := do
  return js "issuer returned a child expiring '" ++ (← template (vaid.get "expires_at")) ++
    js "', after the parent's '" ++ (← template (parent.get "expires_at")) ++
    js "', despite a notAfter ceiling — the issuer does not honour expiry containment and the child " ++
    js "has not been returned"

/-- Proof of possession at mint: present, fresh, not replayed, and signed by the key being
registered. The nonce is spent before the signature is looked at. -/
def verifyPopAtMint (now : Int) (seed : VaidSeed) (registeredKey : Bytes) (pop : Option MintPop) :
    Call L R A PUnit := do
  let pop ← Fallible.required pop (.identity
    (js "proof-of-possession required — publicKeyDer was supplied (BYO-key) without a `pop` " ++
      js "signature"))
  let issued ← Fallible.required (Runtime.dateParse pop.issuedAt) (.identity
    (js "PoP issuedAt is not a parseable RFC 3339 timestamp: " ++ pop.issuedAt))
  -- the quotient is truncated, and exact enough to compare with 300
  let skew := (now - issued).natAbs / 1000
  Fallible.refuseIf (mintPopFreshnessSecs.toNat < skew) (.identity
    (js "PoP timestamp outside freshness window (" ++ js (toString skew) ++ js "s > " ++
      js (toString mintPopFreshnessSecs) ++ js "s)"))
  spendNonce pop.nonce
  let payload := buildMintPopPayload seed registeredKey pop.nonce pop.issuedAt
  let verified ← Fallible.ofExcept (throwing (verifySignedPayload (.obj payload) registeredKey pop.signature))
  Fallible.refuseIf (verified = false) (.identity
    (js "PoP signature does not verify against the registered public key — cannot register a key " ++
      js "you do not control"))

variable [Ed25519] [LineageStore L]

/-- Every mint is recorded before its document is returned. -/
def issue (env : IssueEnv) (attributes : IssueAttributes) (publicKeyDer : Bytes) (notAfter : JsValue) :
    Call L R A Members := do
  let issuer ← Fallible.read MintService.issuer
  let vaid ← Fallible.ofExcept (issuer.buildAndSign env attributes publicKeyDer notAfter)
  Fallible.atomically (fun service =>
    match LineageStore.record service.issuer.lineage env.vaidId attributes.parentVaid with
    | .ok lineage => (.ok vaid, { service with issuer := { service.issuer with lineage := lineage } })
    | .error e => (.error e, service))

def issueVaidWithKey (env : IssueEnv) (attributes : IssueAttributes) (publicKeyDer : Bytes)
    (notAfter : JsValue) : Call L R A Members :=
  issue env attributes publicKeyDer notAfter

/-- Generate and discard: the holder key is the issuer's own. -/
def issueVaidWithLineage (env : IssueEnv) (attributes : IssueAttributes) (notAfter : JsValue) :
    Call L R A Members :=
  issue env attributes (Ed25519.ed25519PublicKey env.agentSeed) notAfter

/-- What `mintRoot` does after the gate has answered, up to the audit. -/
def issueRoot (env : MintEnv) (request : MintVaidRequest) : Call L R A Members :=
  match request.seed.publicKeyDer with
  | some key => do
    verifyPopAtMint env.popNow request.seed key request.pop
    issueVaidWithKey env.issue (seedAttributes request.seed) key .undefined
  | none => issueVaidWithLineage env.issue (seedAttributes request.seed) .undefined

/-- The shape first, then the gate, before any key work or nonce. -/
def mintRoot [AuditSink A] (env : MintEnv) (request : MintVaidRequest) :
    Call L R A MintVaidResponse := do
  requireWellFormedBoundary request.seed
  Fallible.ofExcept (env.authz request.seed)
  let vaid ← Fallible.uninterrupted (issueRoot env request)
  recordAudit (rootDetails request.seed)
  pure ⟨vaid, false, .null⟩

omit [Ed25519] in
/-- Conditions (1b) to (5a) of `mintChild`, on the parent and the seed alone. -/
def authorizeChild (now : Int) (seed : VaidSeed) (parent : Members) : Call L R A PUnit := do
  -- (1b) delegation depth
  let issuer ← Fallible.read MintService.issuer
  let assembled ← Fallible.ofExcept (throwing (assembleLineage (.obj parent) issuer.resolveParent))
  let assembled ← Fallible.required assembled (.unauthorized
    (js "mint_child: the authenticated parent's delegation depth could not be determined (lineage " ++
      js "assembly incomplete) — fail closed"))
  let parentDepth := assembled.length - 1
  let childDepth := parentDepth + 1
  let maxDelegationDepth ← Fallible.read (fun service => service.maxDelegationDepth.val)
  Fallible.refuseIf (maxDelegationDepth < childDepth) (.unauthorized
    (js "mint_child: minting this child would reach delegation depth " ++ js (toString childDepth) ++
      js ", exceeding this mint's configured maximum of " ++ js (toString maxDelegationDepth) ++
      js " (the authenticated parent is already at depth " ++ js (toString parentDepth) ++ js ")"))
  -- (2) same tenant; the trust domain is passed as the parent's own
  Fallible.refuseIf (tenantAttenuates parent (parent.get "trust_domain") (.str seed.tenantId) = false)
    (denial (crossTenantText seed parent))
  -- (3) lineage bound to the authenticated parent
  Fallible.refuseIf ((nullable seed.parentVaid).strictEq (parent.get "vaid_id") = false)
    (denial (otherParentText seed parent))
  -- (4) scope and (5) capabilities
  let scope ← Fallible.ofExcept (throwing (scopeAttenuates parent (.arr seed.entries)))
  Fallible.refuseIf (scope = false) (.unauthorized
    (js "child scope_boundary exceeds the parent's — least-privilege attenuation denied"))
  let caps ← Fallible.ofExcept (throwing (capsAttenuate parent (.arr (seed.capabilitySet.map .str))))
  Fallible.refuseIf (caps = false) (.unauthorized
    (js "child capability_set exceeds the parent's — least-privilege attenuation denied"))
  -- (5a) the parent is alive
  Fallible.refuseIf (isExpired parent now = true) (denial (deadParentText parent))

/-- Steps (6) to (7a) of `mintChild`. The parent's expiry is passed to the issuer as a
ceiling, and what came back is checked against it. -/
def issueChild (env : MintEnv) (request : MintVaidRequest) (parent : Members) :
    Call L R A Members := do
  let key ← Fallible.required request.seed.publicKeyDer (.identity
    (js "BYO-key required — a delegated child registers the parent-held child public key with a " ++
      js "proof-of-possession"))
  verifyPopAtMint env.popNow request.seed key request.pop
  let vaid ← issueVaidWithKey env.issue (seedAttributes request.seed) key (parent.get "expires_at")
  Fallible.refuseIf (expiryAttenuates parent (vaid.get "expires_at") = false)
    (denial (outlivingText parent vaid))
  pure vaid

/-- What `mintChild` does up to the audit: the child, and the parent that delegates. -/
def delegateChild (env : MintEnv) (request : MintVaidRequest) (parent : Option Members) :
    Call L R A (Members × Members) := do
  requireWellFormedBoundary request.seed
  -- (1) the parent's authority must have travelled
  let parent ← Fallible.required parent (.unauthorized
    (js "no verified parent VAID in context — delegation requires an authenticated parent " ++
      js "principal, fail-closed"))
  authorizeChild env.parentNow request.seed parent
  let vaid ← issueChild env request parent
  pure (parent, vaid)

/-- Attenuated delegation. Every condition on the parent is checked before the proof of
possession, so that a refused delegation does not burn a nonce. -/
def mintChild [AuditSink A] (env : MintEnv) (request : MintVaidRequest) (parent : Option Members) :
    Call L R A MintVaidResponse := do
  let (parent, vaid) ← Fallible.uninterrupted (delegateChild env request parent)
  -- (8) was the child's life cut short by its parent's?
  let expiryBoundedByParent := (vaid.get "expires_at").strictEq (parent.get "expires_at")
  -- (9) delegated audit
  recordAudit (childDetails request.seed parent vaid expiryBoundedByParent)
  pure ⟨vaid, expiryBoundedByParent, parent.get "expires_at"⟩

end MintService

end VaidSuite.TypeScript
