import VaidSuite.Attenuation
import VaidSuite.Issuer

/-! The mint: root mints behind an authorization gate, and attenuated delegation.
A call is a program over the service's shared state, atomic where the source holds
a lock. -/
namespace VaidSuite

/-- The audit write seam. A refused write fails the mint. -/
class AuditSink (A : Type) where
  record : A → (eventType : String) → (details : Json String) → Except MintError Unit × A

structure AuditEntry where
  eventType : String
  details : Json String

structure InMemoryAudit where
  entries : List AuditEntry

instance : AuditSink InMemoryAudit where
  record audit eventType details := (.ok (), ⟨audit.entries ++ [⟨eventType, details⟩]⟩)

/-- The root-mint authorization seam, by its one method. -/
abbrev AuthorizationGate := VaidSeed → Except MintError Unit

def permitAll : AuthorizationGate := fun _ => .ok ()

/-- A delegation depth limit within its bounds. There is no unlimited one. -/
structure MaxDelegationDepth where
  val : Nat
  positive : 1 ≤ val
  bounded : val ≤ maxLineageDepth

theorem maxLineageDepth_pos : 1 ≤ maxLineageDepth := by decide

def defaultMaxDelegationDepth : MaxDelegationDepth := ⟨1, le_refl 1, maxLineageDepth_pos⟩

def validateMaxDelegationDepth (maxDelegationDepth : Nat) : Except MintError MaxDelegationDepth :=
  if low : maxDelegationDepth < 1 then
    .error (.config ("max_delegation_depth must be at least 1, got " ++
      toString maxDelegationDepth ++ " — there is no value meaning unlimited"))
  else if high : maxLineageDepth < maxDelegationDepth then
    .error (.config ("max_delegation_depth " ++ toString maxDelegationDepth ++
      " exceeds the maximum lineage depth bound " ++ toString maxLineageDepth))
  else .ok ⟨maxDelegationDepth, Nat.le_of_not_lt low, Nat.le_of_not_lt high⟩

theorem validateMaxDelegationDepth_eq_ok_iff (n : Nat) (depth : MaxDelegationDepth) :
    validateMaxDelegationDepth n = .ok depth ↔ depth.val = n := by
  obtain ⟨d, positive, bounded⟩ := depth
  unfold validateMaxDelegationDepth
  constructor
  · intro h
    split at h
    · cases h
    · split at h
      · cases h
      · cases h
        rfl
  · rintro rfl
    rw [dif_neg (Nat.not_lt.mpr positive), dif_neg (Nat.not_lt.mpr bounded)]

/-- The service: the kernel signer, the audit sink, the single-use nonces, and the
deepest delegation it mints. The gate is part of what a call reads from outside. -/
structure MintService (L R A : Type) where
  issuer : ReferenceIssuer L R
  audit : A
  consumedPopNonces : Finset String
  maxDelegationDepth : MaxDelegationDepth

/-- What one call reads from outside: the gate, the clock where it is read, and what
issuing reads. -/
structure MintEnv where
  authz : AuthorizationGate
  popNow : Instant
  parentNow : Instant
  issue : IssueEnv

def VaidSeed.attributes (seed : VaidSeed) : IssueAttributes where
  agentClass := ⟨seed.agentClass⟩
  version := seed.version
  tenantId := ⟨seed.tenantId⟩
  parentVaid := seed.parentVaid
  scopeBoundary := seed.scopeBoundary
  capabilitySet := seed.capabilitySet

/-- `{:?}` of an optional id. -/
def debugVaidId : Option VaidId → String
  | none => "None"
  | some id => "Some(VaidId(" ++ toString id ++ "))"

def rootDetails (seed : VaidSeed) : Json String :=
  .object
    [("agent_class", .str seed.agentClass),
     ("version", .str seed.version),
     ("tenant_id", .str seed.tenantId),
     ("parent_vaid", vaidIdJson seed.parentVaid),
     ("scope_boundary", .arr (seed.scopeBoundary.map ScopeBoundaryEntry.toJson)),
     ("capability_set_len", .ofNat seed.capabilitySet.length),
     ("byo_key", .bool seed.publicKeyDer.isSome),
     ("pop_verified", .bool seed.publicKeyDer.isSome),
     ("delegated", .bool false)]

def childDetails (seed : VaidSeed) (parent vaid : Vaid) (expiryBoundedByParent : Bool) :
    Json String :=
  .object
    [("agent_class", .str seed.agentClass),
     ("version", .str seed.version),
     ("parent_vaid", vaidIdJson seed.parentVaid),
     ("scope_boundary", .arr (seed.scopeBoundary.map ScopeBoundaryEntry.toJson)),
     ("capability_set_len", .ofNat seed.capabilitySet.length),
     ("byo_key", .bool true),
     ("pop_verified", .bool true),
     ("delegated", .bool true),
     ("attenuation_verified", .bool true),
     ("parent_tenant", .str parent.tenantId.asStr),
     ("expiry_bounded_by_parent", .bool expiryBoundedByParent),
     ("expires_at", .str vaid.expiresAtAsPresented),
     ("parent_expires_at", .str parent.expiresAtAsPresented)]

namespace MintService

variable {L R A : Type}

def withMaxDelegationDepth (issuer : ReferenceIssuer L R) (audit : A) (maxDelegationDepth : Nat) :
    Except MintError (MintService L R A) :=
  (validateMaxDelegationDepth maxDelegationDepth).map (fun depth => ⟨issuer, audit, ∅, depth⟩)

def new (issuer : ReferenceIssuer L R) (audit : A) : MintService L R A :=
  ⟨issuer, audit, ∅, defaultMaxDelegationDepth⟩

abbrev Call (L R A α : Type) := Fallible (MintService L R A) MintError α

/-- The nonce's check-and-insert, under the lock. -/
def spendNonce (nonce : String) : Call L R A PUnit :=
  Fallible.atomically (fun service =>
    if nonce ∈ service.consumedPopNonces then
      (.error (.identity "PoP nonce already used — replay rejected"), service)
    else (.ok ⟨⟩, { service with consumedPopNonces := insert nonce service.consumedPopNonces }))

def recordAudit [AuditSink A] (details : Json String) : Call L R A PUnit :=
  Fallible.atomically (fun service =>
    match AuditSink.record service.audit "vaid_minted" details with
    | (.ok (), audit) => (.ok ⟨⟩, { service with audit := audit })
    | (.error e, audit) => (.error e, { service with audit := audit }))

section Issuing

variable [Crypto] [Chrono] [LineageStore L]

def issueVaidWithKey (env : IssueEnv) (attributes : IssueAttributes) (publicKeyDer : Bytes)
    (notAfter : Option String) : Call L R A Vaid :=
  Fallible.atomically (fun service =>
    let issued := service.issuer.issueVaidWithKey env attributes publicKeyDer notAfter
    (issued.1, { service with issuer := issued.2 }))

def issueVaidWithLineage (env : IssueEnv) (attributes : IssueAttributes)
    (notAfter : Option String) : Call L R A Vaid :=
  Fallible.atomically (fun service =>
    let issued := service.issuer.issueVaidWithLineage env attributes notAfter
    (issued.1, { service with issuer := issued.2 }))

/-- Proof-of-possession at mint: present, fresh, not replayed, and signed by the key
being registered. The nonce is spent before the signature is looked at. -/
def verifyPopAtMint (now : Instant) (seed : VaidSeed) (registeredKey : Bytes)
    (pop : Option MintPop) : Call L R A PUnit := do
  let pop ← Fallible.required pop (.identity
    "proof-of-possession required — public_key_der was supplied (BYO-key) without a `pop` signature")
  let skew := (now.secondsSince pop.issuedAt).natAbs
  Fallible.refuseIf (mintPopFreshnessSecs < (skew : Int)) (.identity
    ("PoP timestamp outside freshness window (" ++ toString skew ++ "s > " ++
      toString mintPopFreshnessSecs ++ "s)"))
  spendNonce pop.nonce
  Fallible.refuseIf
    (verifySignedPayload (seed.popPayload registeredKey pop.nonce pop.issuedAt).toJson registeredKey
      pop.signature = false)
    (.identity ("PoP signature does not verify against the registered public key — cannot register a " ++
      "key you do not control"))

/-- The issuing half of `mintRoot`. A root has no parent to be contained by. -/
def issueRoot (env : MintEnv) (request : MintVaidRequest) : Call L R A Vaid :=
  match request.seed.publicKeyDer with
  | some key => do
    verifyPopAtMint env.popNow request.seed key request.pop
    issueVaidWithKey env.issue request.seed.attributes key none
  | none => issueVaidWithLineage env.issue request.seed.attributes none

variable [AuditSink A]

/-- The gate answers first, before any key work or nonce consumption. -/
def mintRoot (env : MintEnv) (request : MintVaidRequest) : Call L R A MintVaidResponse := do
  let seed := request.seed
  Fallible.ofExcept (env.authz seed)
  let vaid ← issueRoot env request
  recordAudit (rootDetails seed)
  pure ⟨vaid, false, none⟩

/-- The depth of an authenticated parent: its assembled ancestry, less itself. -/
def parentDepth (parent : Vaid) : Call L R A Nat := do
  let assembled ← Fallible.read (fun service =>
    assembleLineage parent service.issuer.resolveParent)
  match assembled with
  | .complete chain => pure (chain.length - 1)
  | .incomplete => Fallible.fail (.unauthorized
    ("mint_child: the authenticated parent's delegation depth could not be determined (lineage " ++
      "assembly incomplete) — fail closed"))

/-- Conditions (1b) to (5a) of `mintChild`, on the parent and the seed alone. -/
def authorizeChild (now : Instant) (seed : VaidSeed) (parent : Vaid) : Call L R A PUnit := do
  -- (1b) delegation depth
  let parentDepth ← parentDepth parent
  let childDepth := parentDepth + 1
  let maxDelegationDepth ← Fallible.read (fun service => service.maxDelegationDepth.val)
  Fallible.refuseIf (maxDelegationDepth < childDepth) (.unauthorized
    ("mint_child: minting this child would reach delegation depth " ++ toString childDepth ++
      ", exceeding this mint's configured maximum of " ++ toString maxDelegationDepth ++
      " (the authenticated parent is already at depth " ++ toString parentDepth ++ ")"))
  -- (2) same tenant; the trust domain is passed as the parent's own
  Fallible.refuseIf (tenantAttenuates parent parent.trustDomain seed.tenantId = false) (.unauthorized
    ("child tenant '" ++ seed.tenantId ++ "' != authenticated parent tenant '" ++
      parent.tenantId.asStr ++ "' — cross-tenant delegation is denied"))
  -- (3) lineage bound to the authenticated parent
  Fallible.refuseIf (seed.parentVaid ≠ some parent.vaidId) (.unauthorized
    ("child parent_vaid " ++ debugVaidId seed.parentVaid ++
      " must equal the authenticated parent vaid_id " ++ toString parent.vaidId ++
      " — the parent comes from the verified VAID, never the body"))
  -- (4) scope and (5) capabilities
  Fallible.refuseIf (scopeAttenuates parent seed.scopeBoundary = false) (.unauthorized
    "child scope_boundary exceeds the parent's — least-privilege attenuation denied")
  Fallible.refuseIf (capsAttenuate parent seed.capabilitySet = false) (.unauthorized
    "child capability_set exceeds the parent's — least-privilege attenuation denied")
  -- (5a) the parent is alive
  Fallible.refuseIf (parent.isExpiredAt now = true) (.unauthorized
    ("authenticated parent " ++ toString parent.vaidId ++ " expired at '" ++
      parent.expiresAtAsPresented ++ "' — a child may not outlive the authority it derives from, and " ++
      "a child of a dead parent would be issued already expired. Renew the parent, then delegate"))

/-- Steps (6) to (7a) of `mintChild`. The parent's expiry is passed to the issuer as
a ceiling, and what came back is checked against it. -/
def issueChild (env : MintEnv) (request : MintVaidRequest) (parent : Vaid) : Call L R A Vaid := do
  let key ← Fallible.required request.seed.publicKeyDer (.identity
    ("BYO-key required — a delegated child registers the parent-held child public key with a " ++
      "proof-of-possession"))
  verifyPopAtMint env.popNow request.seed key request.pop
  let vaid ← issueVaidWithKey env.issue request.seed.attributes key (some parent.expiresAtAsPresented)
  Fallible.refuseIf (expiryAttenuates parent (some vaid.expiresAtAsPresented) = false) (.unauthorized
    ("issuer returned a child expiring '" ++ vaid.expiresAtAsPresented ++ "', after the parent's '" ++
      parent.expiresAtAsPresented ++ "', despite a not_after ceiling — the issuer does not honour " ++
      "expiry containment and the child has not been returned"))
  pure vaid

/-- Attenuated delegation. Every condition on the parent is checked before any key
work, so that a refused delegation does not burn a nonce. -/
def mintChild (env : MintEnv) (request : MintVaidRequest) (parent : Option Vaid) :
    Call L R A MintVaidResponse := do
  -- (1) the parent's authority must have travelled
  let parent ← Fallible.required parent (.unauthorized
    ("no verified parent VAID in context — delegation requires an authenticated parent principal, " ++
      "fail-closed"))
  authorizeChild env.parentNow request.seed parent
  let vaid ← issueChild env request parent
  -- (8) was the child's life cut short by its parent's?
  let expiryBoundedByParent := vaid.expiresAtAsPresented == parent.expiresAtAsPresented
  -- (9) delegated audit
  recordAudit (childDetails request.seed parent vaid expiryBoundedByParent)
  pure ⟨vaid, expiryBoundedByParent, some parent.expiresAtAsPresented⟩

end Issuing

end MintService

end VaidSuite
