import VaidSuite.Lib.Program
import VaidSuite.Python.Issuer

/-! The Python mirror of the mint: root mints behind an authorization gate, and attenuated
delegation. A call is a program over the state of the service, one action for each reading or
writing of it. -/
namespace VaidSuite.Python

/-- The requested attributes. The boundary is whatever the caller passed. -/
structure VaidSeed where
  agentClass : PyStr
  version : PyStr
  tenantId : PyStr
  parentVaid : Option PyStr
  scopeBoundary : PyValue
  capabilitySet : List PyStr
  publicKeyDer : Option Bytes

structure MintPop where
  nonce : PyStr
  issuedAt : PyStr
  signature : Bytes

structure MintChildResponse where
  vaid : Dict
  expiryBoundedByParent : Bool
  parentExpiresAt : PyValue

/-- The payload a holder signs to prove possession of the key it registers. -/
def buildMintPopPayload (seed : VaidSeed) (publicKeyDer : Bytes) (nonce issuedAt : PyStr) :
    Raises Dict := do
  return [(py "publicKeyDer", .ofBytes publicKeyDer),
    (py "tenantId", .str seed.tenantId),
    (py "agentClass", .str seed.agentClass),
    (py "version", .str seed.version),
    (py "parentVaid", optional seed.parentVaid),
    (py "scopeBoundary", .arr (← iter seed.scopeBoundary)),
    (py "capabilitySet", .arr (seed.capabilitySet.map .str)),
    (py "nonce", .str nonce),
    (py "issuedAt", .str issuedAt)]

def canonicalRequestSigningBytes [Libraries] (payload : PyValue) : Raises Bytes := do
  return Libraries.sha256 (← dumps payload)

def VaidSeed.attributes (seed : VaidSeed) : IssueAttributes where
  agentClass := seed.agentClass
  version := seed.version
  tenantId := seed.tenantId
  parentVaid := seed.parentVaid
  scopeBoundary := seed.scopeBoundary
  capabilitySet := seed.capabilitySet

/-- The audit write seam. A refused write fails the mint. -/
class AuditSink (A : Type) where
  record : A → (eventType : PyStr) → (details : Dict) → Except MintError Unit × A

structure AuditEntry where
  eventType : PyStr
  details : Dict

structure InMemoryAudit where
  entries : List AuditEntry

instance : AuditSink InMemoryAudit where
  record audit eventType details := (.ok (), ⟨audit.entries ++ [⟨eventType, details⟩]⟩)

/-- The root-mint authorization seam, by its one method. -/
abbrev AuthorizationGate := VaidSeed → Except MintError Unit

def permitAll : AuthorizationGate := fun _ => .ok ()

/-- A delegation depth limit within its bounds. There is no unlimited one. -/
abbrev MaxDelegationDepth := { depth : Nat // 1 ≤ depth ∧ depth ≤ maxLineageDepth }

def defaultMaxDelegationDepth : MaxDelegationDepth := ⟨1, by decide⟩

/-- A `bool` is an `int`, and is refused. -/
def validateMaxDelegationDepth [Libraries] (maxDelegationDepth : PyValue) :
    Except MintError MaxDelegationDepth :=
  match maxDelegationDepth with
  | .num (.int n) =>
    if low : n < 1 then
      .error (.config (py "max_delegation_depth must be at least 1, got " ++ py (toString n) ++
        py " — there is no value meaning unlimited"))
    else if high : (maxLineageDepth : Int) < n then
      .error (.config (py "max_delegation_depth " ++ py (toString n) ++
        py " exceeds the maximum lineage depth bound " ++ py (toString maxLineageDepth)))
    else .ok ⟨n.toNat, by omega⟩
  | other =>
    .error (.config (py "max_delegation_depth must be an int, got " ++ Libraries.repr other ++
      py " — there is no value meaning unlimited"))

structure MintService (L R A : Type) where
  issuer : ReferenceIssuer L R
  audit : A
  consumedPopNonces : Finset PyStr
  maxDelegationDepth : MaxDelegationDepth

/-- What one call reads from outside: the gate, the clock where it is read, and what issuing reads. -/
structure MintEnv where
  authz : AuthorizationGate
  popNow : UtcDatetime
  parentNow : UtcDatetime
  issue : IssueEnv

namespace MintService

variable {L R A : Type}

def new (issuer : ReferenceIssuer L R) (audit : A) (maxDelegationDepth : MaxDelegationDepth) :
    MintService L R A :=
  ⟨issuer, audit, ∅, maxDelegationDepth⟩

abbrev Call (L R A α : Type) := Fallible (MintService L R A) MintError α

variable [Libraries]

/-- `_verify_pop_at_mint`: present, fresh, not replayed, and signed by the key being registered.
The nonce is recorded before the signature is looked at. -/
def verifyPopAtMint (now : UtcDatetime) (seed : VaidSeed) (registeredKey : Bytes)
    (pop : Option MintPop) : Call L R A PUnit := do
  let pop ← Fallible.required pop (.identity
    (py "proof-of-possession required — public_key_der was supplied (BYO-key) without a `pop` " ++
      py "signature"))
  -- (2) freshness; the difference is a float of seconds, exact enough to compare with 300
  let issued ← Fallible.required (Libraries.strptime pop.issuedAt) (.raised .valueError)
  let skew := ((now.val : Int) - issued.val).natAbs
  Fallible.refuseIf (mintPopFreshnessSecs.toNat * 1000000 < skew) (.identity
    (py "PoP timestamp outside freshness window (" ++
      py (toString (TrueDivision.wholePart skew 1000000)) ++ py "s > " ++
      py (toString mintPopFreshnessSecs) ++ py "s)"))
  -- (3) replay
  let replayed ← Fallible.read (fun service => decide (pop.nonce ∈ service.consumedPopNonces))
  Fallible.refuseIf (replayed = true) (.identity (py "PoP nonce already used — replay rejected"))
  Fallible.atomically (fun service =>
    (.ok ⟨⟩, { service with consumedPopNonces := insert pop.nonce service.consumedPopNonces }))
  -- (4) signature, against the registered key
  let payload ← Fallible.ofExcept (raising (buildMintPopPayload seed registeredKey pop.nonce pop.issuedAt))
  let digest ← Fallible.ofExcept (raising (canonicalRequestSigningBytes (.obj payload)))
  Fallible.refuseIf (registeredKey.length ≠ 32) (.raised .valueError)
  Fallible.refuseIf (Libraries.ed25519Verify registeredKey pop.signature digest = false) (.identity
    (py "PoP signature does not verify against the registered public key — cannot register a key " ++
      py "you do not control"))

omit [Libraries] in
def requireWellFormedBoundary (seed : VaidSeed) : Call L R A PUnit :=
  Fallible.refuseIf (isWellFormedScopeBoundary seed.scopeBoundary = false) (.mint
    (py "seed scope_boundary is not a well-formed S.8 boundary: each entry must be an object " ++
      py "carrying exactly `kind` and `value` (ADR-0009). Since 0.10.0 a bare string is not a " ++
      py "boundary entry; build entries with `vaid_mint.document.prefix_entry(\"...\")`. Refused here " ++
      py "rather than signed, because a document carrying this would be rejected by every verifier " ++
      py "that parses it off the wire."))

omit [Libraries] in
def recordAudit [AuditSink A] (details : Dict) : Call L R A PUnit :=
  Fallible.atomically (fun service =>
    match AuditSink.record service.audit (py "vaid_minted") details with
    | (.ok (), audit) => (.ok ⟨⟩, { service with audit := audit })
    | (.error e, audit) => (.error e, { service with audit := audit }))

omit [Libraries] in
def rootDetails (seed : VaidSeed) : Dict :=
  [(py "agent_class", .str seed.agentClass),
   (py "version", .str seed.version),
   (py "tenant_id", .str seed.tenantId),
   (py "parent_vaid", optional seed.parentVaid),
   (py "scope_boundary", seed.scopeBoundary),
   (py "capability_set_len", .ofNat seed.capabilitySet.length),
   (py "byo_key", .bool seed.publicKeyDer.isSome),
   (py "pop_verified", .bool seed.publicKeyDer.isSome),
   (py "delegated", .bool false)]

omit [Libraries] in
def childDetails (seed : VaidSeed) (parentTenant expiresAt parentExpiresAt : PyValue)
    (expiryBoundedByParent : Bool) : Dict :=
  [(py "agent_class", .str seed.agentClass),
   (py "version", .str seed.version),
   (py "parent_vaid", optional seed.parentVaid),
   (py "scope_boundary", seed.scopeBoundary),
   (py "capability_set_len", .ofNat seed.capabilitySet.length),
   (py "byo_key", .bool true),
   (py "pop_verified", .bool true),
   (py "delegated", .bool true),
   (py "attenuation_verified", .bool true),
   (py "parent_tenant", parentTenant),
   (py "expiry_bounded_by_parent", .bool expiryBoundedByParent),
   (py "expires_at", expiresAt),
   (py "parent_expires_at", parentExpiresAt)]

section Issuing

variable [PrivateKeys] [LineageStore L]

/-- Every mint is recorded, and a refused write withholds the signed document. -/
def issue (env : IssueEnv) (attributes : IssueAttributes) (publicKeyDer : Bytes) (notAfter : PyValue) :
    Call L R A Dict := do
  let issuer ← Fallible.read MintService.issuer
  let signed ← Fallible.ofExcept (issuer.buildAndSign env attributes publicKeyDer notAfter)
  Fallible.atomically (fun service =>
    match LineageStore.record service.issuer.lineage env.vaidId attributes.parentVaid with
    | .ok lineage => (.ok signed, { service with issuer := { service.issuer with lineage := lineage } })
    | .error e => (.error e, service))

def issueVaidWithKey (env : IssueEnv) (attributes : IssueAttributes) (publicKeyDer : Bytes)
    (notAfter : PyValue) : Call L R A Dict :=
  issue env attributes publicKeyDer notAfter

/-- Generate and discard: the holder key is the issuer's own. -/
def issueVaidWithLineage (env : IssueEnv) (attributes : IssueAttributes) (notAfter : PyValue) :
    Call L R A Dict :=
  issue env attributes (PrivateKeys.publicBytesRaw env.ephemeral) notAfter

/-- The issuing half of `mintRoot`. -/
def issueRoot (env : MintEnv) (seed : VaidSeed) (pop : Option MintPop) : Call L R A Dict :=
  match seed.publicKeyDer with
  | some key => do
    verifyPopAtMint env.popNow seed key pop
    issueVaidWithKey env.issue seed.attributes key .null
  | none => issueVaidWithLineage env.issue seed.attributes .null

variable [AuditSink A]

/-- The shape first, then the gate, before any key work or nonce. -/
def mintRoot (env : MintEnv) (seed : VaidSeed) (pop : Option MintPop) : Call L R A Dict := do
  requireWellFormedBoundary seed
  Fallible.ofExcept (env.authz seed)
  let vaid ← issueRoot env seed pop
  recordAudit (rootDetails seed)
  pure vaid

omit [PrivateKeys] [LineageStore L] [AuditSink A] [Libraries] in
/-- Condition (2) of `mintChild`. The trust domain is passed as the parent's own. -/
def requireSameTenant (seed : VaidSeed) (parent : Dict) : Call L R A PUnit := do
  let trustDomain ← Fallible.ofExcept (raising (parent.item "trust_domain"))
  let tenant ← Fallible.ofExcept (raising (tenantAttenuates parent trustDomain (.str seed.tenantId)))
  if tenant then pure ⟨⟩
  else
    let parentTenant ← Fallible.ofExcept (raising (parent.item "tenant_id"))
    Fallible.fail (.unauthorized (py "child tenant '" ++ seed.tenantId ++
      py "' != authenticated parent tenant '" ++ format parentTenant ++
      py "' — cross-tenant delegation is denied"))

omit [PrivateKeys] [AuditSink A] in
/-- Conditions (1b) to (5a) of `mintChild`, on the parent and the seed alone. -/
def authorizeChild (now : UtcDatetime) (seed : VaidSeed) (parent : Dict) : Call L R A PUnit := do
  -- (1b) delegation depth
  let issuer ← Fallible.read MintService.issuer
  let assembled ← Fallible.ofExcept (raising (assembleLineage parent issuer.resolveParent))
  let assembled ← Fallible.required assembled (.unauthorized
    (py "mint_child: the authenticated parent's delegation depth could not be determined (lineage " ++
      py "assembly incomplete) — fail closed"))
  let parentDepth := assembled.length - 1
  let childDepth := parentDepth + 1
  let maxDelegationDepth ← Fallible.read (fun service => service.maxDelegationDepth.val)
  Fallible.refuseIf (maxDelegationDepth < childDepth) (.unauthorized
    (py "mint_child: minting this child would reach delegation depth " ++ py (toString childDepth) ++
      py ", exceeding this mint's configured maximum of " ++ py (toString maxDelegationDepth) ++
      py " (the authenticated parent is already at depth " ++ py (toString parentDepth) ++ py ")"))
  requireSameTenant seed parent
  -- (3) lineage bound to the authenticated parent
  let vaidId ← Fallible.ofExcept (raising (parent.item "vaid_id"))
  Fallible.refuseIf (pyEq (optional seed.parentVaid) vaidId = false) (.unauthorized
    (py "child parent_vaid " ++ Libraries.repr (optional seed.parentVaid) ++
      py " must equal the authenticated parent vaid_id " ++ format vaidId ++
      py " — the parent comes from the verified VAID, never the body"))
  -- (4) scope and (5) capabilities
  let scope ← Fallible.ofExcept (raising (scopeAttenuates parent seed.scopeBoundary))
  Fallible.refuseIf (scope = false) (.unauthorized
    (py "child scope_boundary exceeds the parent's — least-privilege attenuation denied"))
  let caps ← Fallible.ofExcept (raising (capsAttenuate parent (.arr (seed.capabilitySet.map .str))))
  Fallible.refuseIf (caps = false) (.unauthorized
    (py "child capability_set exceeds the parent's — least-privilege attenuation denied"))
  -- (5a) the parent is alive
  let expired ← Fallible.ofExcept (raising (isExpiredAt parent now))
  Fallible.refuseIf (expired = true) (.unauthorized
    (py "authenticated parent " ++ format vaidId ++ py " expired at " ++
      Libraries.repr (parent.get "expires_at") ++ py " — a child may not outlive the authority it " ++
      py "derives from, and a child of a dead parent would be issued already expired. Renew the " ++
      py "parent, then delegate"))

omit [AuditSink A] in
/-- Steps (6) to (7a) of `mintChild`. The parent's expiry is passed to the issuer as a ceiling, and
what came back is checked against it. -/
def issueChild (env : MintEnv) (seed : VaidSeed) (pop : Option MintPop) (parent : Dict) :
    Call L R A Dict := do
  let key ← Fallible.required seed.publicKeyDer (.identity
    (py "BYO-key required — a delegated child registers the parent-held child public key with a " ++
      py "proof-of-possession"))
  verifyPopAtMint env.popNow seed key pop
  let notAfter ← Fallible.ofExcept (raising (parent.item "expires_at"))
  let vaid ← issueVaidWithKey env.issue seed.attributes key notAfter
  let contained ← Fallible.ofExcept (raising (expiryAttenuates parent (vaid.get "expires_at")))
  Fallible.refuseIf (contained = false) (.unauthorized
    (py "issuer returned a child expiring " ++ Libraries.repr (vaid.get "expires_at") ++
      py ", after the parent's " ++ Libraries.repr (parent.get "expires_at") ++
      py ", despite a not_after ceiling — the issuer does not honour expiry containment and the " ++
      py "child has not been returned"))
  pure vaid

/-- Attenuated delegation. Every condition on the parent is checked before the proof of possession,
so that a refused delegation does not burn a nonce. -/
def mintChild (env : MintEnv) (seed : VaidSeed) (parent : Option Dict) (pop : Option MintPop) :
    Call L R A MintChildResponse := do
  requireWellFormedBoundary seed
  -- (1) the parent's authority must have travelled
  let parent ← Fallible.required parent (.unauthorized
    (py "no verified parent VAID in context — delegation requires an authenticated parent " ++
      py "principal, fail-closed"))
  authorizeChild env.parentNow seed parent
  let vaid ← issueChild env seed pop parent
  -- (8) was the child's life cut short by its parent's?
  let expiresAt ← Fallible.ofExcept (raising (vaid.item "expires_at"))
  let parentExpiresAt ← Fallible.ofExcept (raising (parent.item "expires_at"))
  let expiryBoundedByParent := pyEq expiresAt parentExpiresAt
  -- (9) delegated audit
  let parentTenant ← Fallible.ofExcept (raising (parent.item "tenant_id"))
  recordAudit (childDetails seed parentTenant expiresAt parentExpiresAt expiryBoundedByParent)
  pure ⟨vaid, expiryBoundedByParent, parentExpiresAt⟩

end Issuing

end MintService

end VaidSuite.Python
