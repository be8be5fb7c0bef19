import VaidSuite.Lib.RelyGuarantee
import VaidSuite.TypeScript.ChainSpec
import VaidSuite.TypeScript.Mint
import VaidSuite.UuidSpellings

/-! What a call of the TypeScript mint leaves, whatever other calls do between its actions: a
document that is authentic under the kernel key, bound by the proof it cost, and within its
parent. -/
namespace VaidSuite.TypeScript

theorem throwing_eq_ok_iff {α : Type} (body : Throws α) (a : α) :
    throwing body = .ok a ↔ body = .ok a := by
  cases body <;> simp [throwing, Except.mapError]

class LawfulLineageStore (L : Type) [LineageStore L] : Prop where
  record_self : ∀ {store store' : L} {id : JsStr} {parent : Option JsStr},
    LineageStore.record store id parent = .ok store' →
      LineageStore.resolveParent store' (some id) ≠ .unknown
  record_kept : ∀ {store store' : L} {id : JsStr} {parent : Option JsStr} {other : VaidId},
    LineageStore.record store id parent = .ok store' →
      LineageStore.resolveParent store other ≠ .unknown →
        LineageStore.resolveParent store' other ≠ .unknown

theorem InMemoryLineageStore.resolveParent_ne_unknown_iff (store : InMemoryLineageStore) (id : VaidId) :
    store.resolveParent id ≠ .unknown ↔ (id.bind (fun id => store.entries.lookup id)).isSome = true := by
  rw [InMemoryLineageStore.resolveParent]
  rcases id.bind (fun id => store.entries.lookup id) with _ | _ | parent <;> simp

instance : LawfulLineageStore InMemoryLineageStore where
  record_self {store store' id parent} recorded := by
    cases recorded
    refine (InMemoryLineageStore.resolveParent_ne_unknown_iff _ _).mpr ?_
    rw [Option.bind_some, InMemoryLineageStore.record, InsertionMap.lookup_set_self]
    rfl
  record_kept {store store' id parent other} recorded known := by
    cases recorded
    have held := (InMemoryLineageStore.resolveParent_ne_unknown_iff _ _).mp known
    refine (InMemoryLineageStore.resolveParent_ne_unknown_iff _ _).mpr ?_
    cases other with
    | none => exact held
    | some other =>
      rw [Option.bind_some, InMemoryLineageStore.record]
      by_cases same : other = id
      · rw [same, InsertionMap.lookup_set_self]
        rfl
      · rwa [InsertionMap.lookup_set_ne same]

/-! ### What the issuer signs -/

variable [Runtime] [Ed25519]

def SigningKey (seed : Bytes) : Prop :=
  ∀ message, Runtime.ed25519Verify (Ed25519.ed25519Sign message seed) message
    (Ed25519.ed25519PublicKey seed) = true

omit [Ed25519] in
theorem numbersToBytes_ofBytes (b : Bytes) : numbersToBytes (.ofBytes b) = .ok b := by
  have byte : ∀ x : UInt8, toByte (.ofNat x.toNat) = .ok x := by
    intro x
    obtain ⟨-, -, -, denotes⟩ := Binary64.ofNat_byte x.toNat x.toNat_lt
    rw [JsValue.ofNat, toByte, denotes, UInt8.ofNat_toNat]
  rw [JsValue.ofBytes, numbersToBytes]
  induction b with
  | nil => rfl
  | cons x b ih =>
    rw [List.map_cons, List.mapM_cons, byte, ih]
    rfl

omit [Runtime] [Ed25519] in
theorem isByteList_ofBytes (b : Bytes) : isByteList (.ofBytes b) = true := by
  refine List.all_eq_true.mpr (fun v member => ?_)
  obtain ⟨x, _, rfl⟩ := List.mem_map.mp member
  exact (Binary64.ofNat_byte x.toNat x.toNat_lt).2.1

omit [Runtime] [Ed25519] in
theorem isStringList_map (strs : List JsStr) : isStringList (.arr (strs.map .str)) = true := by
  refine List.all_eq_true.mpr (fun v member => ?_)
  obtain ⟨s, _, rfl⟩ := List.mem_map.mp member
  rfl

omit [Runtime] [Ed25519] in
theorem any_of_lookup {d : Members} {key : String} {v : JsValue} {isWellTyped : JsValue → Bool}
    (found : d.lookup (js key) = some v) (typed : isWellTyped v = true) :
    (d.lookup (js key)).any isWellTyped = true := by
  rw [found]
  exact typed

omit [Ed25519] in
theorem canonicalVaidSigningBytes_set (signature : JsValue) (d : Members) :
    canonicalVaidSigningBytes (InsertionMap.set (js "kernel_signature") signature d) =
      canonicalVaidSigningBytes d := by
  rw [canonicalVaidSigningBytes, InsertionMap.set_set, canonicalVaidSigningBytes]

namespace ReferenceIssuer

variable {L R : Type}

structure IssuedAs (issuer : ReferenceIssuer L R) (env : IssueEnv) (attributes : IssueAttributes)
    (vaid : Members) : Prop where
  vaidId : vaid.get "vaid_id" = .str env.vaidId
  agentClass : vaid.get "agent_class" = .str attributes.agentClass
  version : vaid.get "version" = .str attributes.version
  tenantId : vaid.get "tenant_id" = .str attributes.tenantId
  parentVaid : vaid.get "parent_vaid" = nullable attributes.parentVaid
  scopeBoundary : vaid.get "scope_boundary" = .arr attributes.scopeBoundary
  capabilitySet : vaid.get "capability_set" = .arr (attributes.capabilitySet.map .str)
  trustDomain : vaid.get "trust_domain" = .str issuer.trustDomain.val
  authentic : verifyVaidAuthenticityGraded issuer.kernelPublicKey (.obj vaid) = .ok .valid
  contract : isWellFormedScopeBoundary (.arr attributes.scopeBoundary) = true →
    parentIsUuid vaid = true → satisfiesContract vaid = true

/-- The document that is signed. -/
def unsigned (issuer : ReferenceIssuer L R) (env : IssueEnv) (attributes : IssueAttributes)
    (publicKeyDer : Bytes) (expires : Int) (lineageHash thumbprint : JsStr) : Members :=
  buildUnsignedVaidDocument env.vaidId env.vaidId attributes.agentClass attributes.version
    attributes.tenantId (utcWholeSecondRfc3339 env.now) (utcWholeSecondRfc3339 expires) publicKeyDer
    attributes.parentVaid attributes.scopeBoundary lineageHash attributes.capabilitySet
    issuer.trustDomain.val thumbprint

/-- The document as it is returned. -/
def signed (issuer : ReferenceIssuer L R) (env : IssueEnv) (attributes : IssueAttributes)
    (publicKeyDer : Bytes) (expires : Int) (lineageHash thumbprint : JsStr) (digest : Bytes) : Members :=
  InsertionMap.set (js "kernel_signature") (.ofBytes (Ed25519.ed25519Sign digest issuer.kernelSeed))
    (issuer.unsigned env attributes publicKeyDer expires lineageHash thumbprint)

variable {issuer : ReferenceIssuer L R} {env : IssueEnv} {attributes : IssueAttributes}
  {publicKeyDer : Bytes} {notAfter : JsValue} {expires : Int} {lineageHash thumbprint : JsStr}
  {digest : Bytes} {vaid : Members}

theorem of_buildAndSign_eq_ok
    (built : issuer.buildAndSign env attributes publicKeyDer notAfter = .ok vaid) :
    ∃ expires lineageHash thumbprint digest,
      computeLineageHash (nullable attributes.parentVaid) env.vaidId = .ok lineageHash ∧
      TypeScript.kernelKeyThumbprint issuer.kernelPublicKey = .ok thumbprint ∧
      canonicalVaidSigningBytes
        (issuer.unsigned env attributes publicKeyDer expires lineageHash thumbprint) = .ok digest ∧
      vaid = issuer.signed env attributes publicKeyDer expires lineageHash thumbprint digest := by
  obtain ⟨expires, _, built⟩ := Raising.of_bind_eq_ok built
  obtain ⟨lineageHash, hashed, built⟩ := Raising.of_bind_eq_ok built
  cases expires with
  | none => cases built
  | some expires =>
    obtain ⟨thumbprint, named, built⟩ := Raising.of_bind_eq_ok built
    obtain ⟨digest, digested, built⟩ := Raising.of_bind_eq_ok built
    simp only [throwing_eq_ok_iff] at hashed named digested
    exact ⟨expires, lineageHash, thumbprint, digest, hashed, named, digested, (Except.ok.inj built).symm⟩

omit [Runtime] in
theorem hasShape_signed : hasShape
    (issuer.signed env attributes publicKeyDer expires lineageHash thumbprint digest) = true := by
  have reads := env.agentId.isUuidText_typescript
  have own : (issuer.signed env attributes publicKeyDer expires lineageHash thumbprint digest).get
      "vaid_id" = .str env.vaidId := rfl
  have parent : (issuer.signed env attributes publicKeyDer expires lineageHash thumbprint digest).get
      "parent_vaid" = nullable attributes.parentVaid := rfl
  rw [hasShape, own, parent]
  cases id : env.vaidId with
  | nil =>
    rw [show js env.agentId.toString = [] from id] at reads
    cases reads
  | cons unit rest => cases attributes.parentVaid <;> rfl

omit [Ed25519] in
theorem graded_valid {key : Bytes} {d : Members} (shape : hasShape d = true)
    (version : (d.get "sig_version").strictEq (.ofNat vaidSigVersionV4) = true)
    (domain : isValidTrustDomain (d.get "trust_domain") = true)
    (named : TypeScript.kernelKeyThumbprint key = .ok thumbprint)
    (own : d.get "kernel_key_thumbprint" = .str thumbprint) (lineage : verifyLineageHash d = .ok true)
    (signature : verifyKernelSignature key d = .ok true) :
    verifyVaidAuthenticityGraded key (.obj d) = .ok .valid := by
  unfold verifyVaidAuthenticityGraded
  simp only [requireVaidShape_ok shape, version, domain, named, own, lineage, signature,
    JsValue.strictEq_str, beq_self_eq_true, Raising.ok_bind]
  rfl

theorem authentic_signed (signing : SigningKey issuer.kernelSeed)
    (hashed : computeLineageHash (nullable attributes.parentVaid) env.vaidId = .ok lineageHash)
    (named : TypeScript.kernelKeyThumbprint issuer.kernelPublicKey = .ok thumbprint)
    (digested : canonicalVaidSigningBytes
      (issuer.unsigned env attributes publicKeyDer expires lineageHash thumbprint) = .ok digest) :
    verifyVaidAuthenticityGraded issuer.kernelPublicKey
      (.obj (issuer.signed env attributes publicKeyDer expires lineageHash thumbprint digest)) =
        .ok .valid := by
  refine graded_valid hasShape_signed ?version issuer.trustDomain.property named rfl ?lineage ?signature
  case version => exact Binary64.eq_four 4 (by decide)
  case lineage =>
    have parent : (nullable attributes.parentVaid).orElse .null = nullable attributes.parentVaid := by
      cases attributes.parentVaid <;> rfl
    have computed : computeLineageHash ((nullable attributes.parentVaid).orElse .null) env.vaidId =
        .ok lineageHash := by rw [parent, hashed]
    show (computeLineageHash ((nullable attributes.parentVaid).orElse .null) env.vaidId >>=
      fun h => pure ((JsValue.str h).strictEq (.str lineageHash))) = _
    rw [computed, Raising.ok_bind, JsValue.strictEq_str, beq_self_eq_true]
    rfl
  case signature =>
    have signed : canonicalVaidSigningBytes
        (issuer.signed env attributes publicKeyDer expires lineageHash thumbprint digest) = .ok digest :=
      (canonicalVaidSigningBytes_set _ _).trans digested
    show (numbersToBytes (.ofBytes (Ed25519.ed25519Sign digest issuer.kernelSeed)) >>= _) = _
    rw [numbersToBytes_ofBytes, Raising.ok_bind, signed, Raising.ok_bind]
    exact congrArg Except.ok (signing digest)

omit [Runtime] in
/-- A verifier that parses it off the wire accepts the document, if it accepts the boundary and
the parent. -/
theorem signed_satisfiesContract
    (boundary : isWellFormedScopeBoundary (.arr attributes.scopeBoundary) = true)
    (parent : parentIsUuid
      (issuer.signed env attributes publicKeyDer expires lineageHash thumbprint digest) = true) :
    satisfiesContract
      (issuer.signed env attributes publicKeyDer expires lineageHash thumbprint digest) = true := by
  have uuid : isUuid (.str env.vaidId) = true := env.agentId.isUuidText_typescript
  have members : ∀ m ∈ requiredMembers, ((issuer.signed env attributes publicKeyDer expires lineageHash
      thumbprint digest).lookup (js m.1)).any m.2 = true := by
    simp only [requiredMembers, List.forall_mem_cons]
    exact ⟨any_of_lookup rfl uuid, any_of_lookup rfl uuid, any_of_lookup rfl rfl,
      any_of_lookup rfl rfl, any_of_lookup rfl rfl, any_of_lookup rfl rfl, any_of_lookup rfl rfl,
      any_of_lookup rfl (isByteList_ofBytes _), any_of_lookup rfl (isByteList_ofBytes _),
      any_of_lookup rfl boundary, any_of_lookup rfl rfl, any_of_lookup rfl (isStringList_map _),
      any_of_lookup rfl rfl, any_of_lookup rfl rfl, by simp⟩
  have version : sigVersionIsByte
      (issuer.signed env attributes publicKeyDer expires lineageHash thumbprint digest) = true :=
    (Binary64.ofNat_byte 4 (by decide)).2.1
  rw [satisfiesContract, List.all_eq_true.mpr members, version, parent]
  rfl

theorem issuedAs_of_buildAndSign (signing : SigningKey issuer.kernelSeed)
    (built : issuer.buildAndSign env attributes publicKeyDer notAfter = .ok vaid) :
    issuer.IssuedAs env attributes vaid ∧ vaid.get "public_key_der" = .ofBytes publicKeyDer := by
  obtain ⟨expires, lineageHash, thumbprint, digest, hashed, named, digested, rfl⟩ :=
    of_buildAndSign_eq_ok built
  exact ⟨⟨rfl, rfl, rfl, rfl, rfl, rfl, rfl, rfl, authentic_signed signing hashed named digested,
    signed_satisfiesContract⟩, rfl⟩

end ReferenceIssuer

namespace MintService

open Fallible

variable {L R A : Type} [LineageStore L]

/-- What every action keeps: the issuer's identity, the nonces that are spent, and the ids that
are on record. -/
structure Extends (s t : MintService L R A) : Prop where
  kernelSeed : t.issuer.kernelSeed = s.issuer.kernelSeed
  trustDomain : t.issuer.trustDomain = s.issuer.trustDomain
  spent : s.consumedPopNonces ⊆ t.consumedPopNonces
  recorded : ∀ id, s.issuer.resolveParent id ≠ .unknown → t.issuer.resolveParent id ≠ .unknown

namespace Extends

omit [Runtime] [Ed25519] in
theorem refl (s : MintService L R A) : Extends s s := ⟨rfl, rfl, Finset.Subset.refl _, fun _ h => h⟩

omit [Runtime] [Ed25519] in
theorem trans {s t u : MintService L R A} (first : Extends s t) (second : Extends t u) : Extends s u where
  kernelSeed := second.kernelSeed.trans first.kernelSeed
  trustDomain := second.trustDomain.trans first.trustDomain
  spent := first.spent.trans second.spent
  recorded id held := second.recorded id (first.recorded id held)

theorem issuedAs {s t : MintService L R A} (moved : Extends s t) {env : IssueEnv}
    {attributes : IssueAttributes} {vaid : Members} (issued : t.issuer.IssuedAs env attributes vaid) :
    s.issuer.IssuedAs env attributes vaid := by
  have key : t.issuer.kernelPublicKey = s.issuer.kernelPublicKey :=
    congrArg Ed25519.ed25519PublicKey moved.kernelSeed
  exact ⟨issued.vaidId, issued.agentClass, issued.version, issued.tenantId, issued.parentVaid,
    issued.scopeBoundary, issued.capabilitySet, moved.trustDomain ▸ issued.trustDomain,
    key ▸ issued.authentic, issued.contract⟩

end Extends

def documentPayload (vaid : Members) (pop : MintPop) : Members :=
  [(js "publicKeyDer", vaid.get "public_key_der"),
   (js "tenantId", vaid.get "tenant_id"),
   (js "agentClass", vaid.get "agent_class"),
   (js "version", vaid.get "version"),
   (js "parentVaid", vaid.get "parent_vaid"),
   (js "scopeBoundary", vaid.get "scope_boundary"),
   (js "capabilitySet", vaid.get "capability_set"),
   (js "nonce", .str pop.nonce),
   (js "issuedAt", .str pop.issuedAt)]

/-- A proof was presented, its nonce is spent, and it signs this payload. -/
def Proved (s : MintService L R A) (pop : Option MintPop) (key : Bytes) (payload : MintPop → Members) :
    Prop :=
  ∃ p, pop = some p ∧ p.nonce ∈ s.consumedPopNonces ∧
    verifySignedPayload (.obj (payload p)) key p.signature = .ok true

/-- The document of a request: as this issuer signs it, on record, and bought with a proof over
its own members if it registers a key of the caller's. -/
structure IssuedFor (issuer : ReferenceIssuer L R) (env : IssueEnv) (request : MintVaidRequest)
    (s : MintService L R A) (vaid : Members) : Prop where
  issued : issuer.IssuedAs env (seedAttributes request.seed) vaid
  recorded : s.issuer.resolveParent (some env.vaidId) ≠ .unknown
  proved : ∀ key, request.seed.publicKeyDer = some key → vaid.get "public_key_der" = .ofBytes key ∧
    Proved s request.pop key (documentPayload vaid)

theorem IssuedFor.later {issuer : ReferenceIssuer L R} {env : IssueEnv} {request : MintVaidRequest}
    {s t : MintService L R A} {vaid : Members} (h : IssuedFor issuer env request s vaid)
    (moved : Extends s t) : IssuedFor issuer env request t vaid where
  issued := h.issued
  recorded := moved.recorded _ h.recorded
  proved key own := by
    obtain ⟨registered, p, presented, spent, signed⟩ := h.proved key own
    exact ⟨registered, p, presented, moved.spent spent, signed⟩

theorem Extends.issuedFor {env : IssueEnv} {request : MintVaidRequest} {s t u : MintService L R A}
    {vaid : Members} (moved : Extends s t) (h : IssuedFor t.issuer env request u vaid) :
    IssuedFor s.issuer env request u vaid :=
  ⟨moved.issuedAs h.issued, h.recorded, h.proved⟩

/-- A child is within the parent it was delegated under. -/
structure Attenuates (parent vaid : Members) : Prop where
  link : (vaid.get "parent_vaid").strictEq (parent.get "vaid_id") = true
  tenant : (parent.get "tenant_id").strictEq (vaid.get "tenant_id") = true
  scope : scopeAttenuates parent (vaid.get "scope_boundary") = .ok true
  caps : capsAttenuate parent (vaid.get "capability_set") = .ok true
  expiry : expiryAttenuates parent (vaid.get "expires_at") = true

/-- A child, after the parent that delegates: the parent that was presented, which is alive. -/
structure Delegates (now : Int) (presented : Option Members) (child : Members × Members) : Prop extends
    Attenuates child.1 child.2 where
  parent : presented = some child.1
  alive : isExpired child.1 now = false

section Ensures

omit [Runtime] [Ed25519] in
theorem ensures_spendNonce (s : MintService L R A) (nonce : JsStr) :
    Ensures Extends (fun t _ => nonce ∈ t.consumedPopNonces) (spendNonce nonce : Call L R A PUnit) s := by
  refine ensures_atomically (fun t _ => ?_)
  split
  · exact ⟨Extends.refl t, by rintro _ ⟨⟩⟩
  · exact ⟨⟨rfl, rfl, Finset.subset_insert .., fun _ h => h⟩, fun _ _ => Finset.mem_insert_self ..⟩

omit [Runtime] [Ed25519] in
theorem ensures_recordAudit [AuditSink A] (s : MintService L R A) (details : Members) :
    Ensures Extends (fun _ _ => True) (recordAudit details : Call L R A PUnit) s := by
  refine ensures_atomically (fun t _ => ⟨?_, fun _ _ => trivial⟩)
  split <;> exact ⟨rfl, rfl, Finset.Subset.refl _, fun _ h => h⟩

omit [Ed25519] in
theorem ensures_verifyPopAtMint (s : MintService L R A) (now : Int) (seed : VaidSeed) (key : Bytes)
    (pop : Option MintPop) :
    Ensures Extends
      (fun t _ => Proved t pop key (fun p => buildMintPopPayload seed key p.nonce p.issuedAt))
      (verifyPopAtMint now seed key pop : Call L R A PUnit) s := by
  refine (ensures_required _ _).bind (fun _ p ⟨_, presented⟩ => ?_)
  refine (ensures_required _ _).bind (fun _ _ _ => (ensures_refuseIf _ _).bind (fun _ _ _ => ?_))
  refine (ensures_spendNonce _ _).bind (fun t _ spent => ?_)
  refine (ensures_ofExcept _).bind (fun t' verified ⟨here, checked⟩ => ?_)
  subst here
  refine (ensures_refuseIf _ _).mono (fun t' _ ⟨here, held⟩ => ?_)
  subst here
  rw [Bool.not_eq_false] at held
  rw [throwing_eq_ok_iff, held] at checked
  exact ⟨p, presented, spent, checked⟩

variable [LawfulLineageStore L]

omit [Runtime] [Ed25519] [LawfulLineageStore L] in
theorem ensures_requireWellFormedBoundary (s : MintService L R A) (seed : VaidSeed) :
    Ensures Extends (fun t _ => s = t ∧ isWellFormedScopeBoundary (.arr seed.entries) = true)
      (requireWellFormedBoundary seed : Call L R A PUnit) s := by
  refine (ensures_refuseIf _ _).mono (fun t _ ⟨here, held⟩ => ⟨here, ?_⟩)
  rw [Bool.not_eq_false] at held
  unfold VaidSeed.entries
  cases boundary : seed.scopeBoundary with
  | undefined => rfl
  | arr entries => rwa [boundary] at held
  | _ =>
    rw [boundary] at held
    cases held

theorem ensures_issue (s : MintService L R A) (signing : SigningKey s.issuer.kernelSeed) (env : IssueEnv)
    (attributes : IssueAttributes) (key : Bytes) (notAfter : JsValue) :
    Ensures Extends (fun t v => s.issuer.IssuedAs env attributes v ∧
      v.get "public_key_der" = .ofBytes key ∧ t.issuer.resolveParent (some env.vaidId) ≠ .unknown)
      (issue env attributes key notAfter : Call L R A Members) s := by
  refine (ensures_read Extends.refl _).bind (fun t issuer ⟨moved, found⟩ => ?_)
  subst found
  refine (ensures_ofExcept _).bind (fun _ v ⟨_, built⟩ => ?_)
  obtain ⟨issued, registered⟩ := ReferenceIssuer.issuedAs_of_buildAndSign
    (moved.kernelSeed.symm ▸ signing) built
  refine ensures_atomically (fun u _ => ?_)
  cases recorded : LineageStore.record u.issuer.lineage env.vaidId attributes.parentVaid with
  | error e => exact ⟨Extends.refl u, by rintro _ ⟨⟩⟩
  | ok lineage =>
    refine ⟨⟨rfl, rfl, Finset.Subset.refl _, fun _ => LawfulLineageStore.record_kept recorded⟩, ?_⟩
    rintro _ ⟨⟩
    exact ⟨moved.issuedAs issued, registered, LawfulLineageStore.record_self recorded⟩

omit [LineageStore L] [LawfulLineageStore L] in
theorem documentPayload_issued {issuer : ReferenceIssuer L R} {env : IssueEnv} {seed : VaidSeed}
    {vaid : Members} {key : Bytes} (issued : issuer.IssuedAs env (seedAttributes seed) vaid)
    (registered : vaid.get "public_key_der" = .ofBytes key) (p : MintPop) :
    documentPayload vaid p = buildMintPopPayload seed key p.nonce p.issuedAt := by
  rw [documentPayload, registered, issued.tenantId, issued.agentClass, issued.version,
    issued.parentVaid, issued.scopeBoundary, issued.capabilitySet]
  rfl

theorem ensures_issueVaidWithKey (s : MintService L R A) (signing : SigningKey s.issuer.kernelSeed)
    (env : IssueEnv) (request : MintVaidRequest) (key : Bytes) (notAfter : JsValue)
    (own : request.seed.publicKeyDer = some key)
    (proved : Proved s request.pop key (fun p =>
      buildMintPopPayload request.seed key p.nonce p.issuedAt)) :
    Ensures Extends (fun t v => IssuedFor s.issuer env request t v)
      (issueVaidWithKey env (seedAttributes request.seed) key notAfter : Call L R A Members) s := by
  refine ((ensures_issue s signing _ _ _ _).framed Extends.refl Extends.trans).mono ?_
  rintro t v ⟨moved, issued, registered, recorded⟩
  refine ⟨issued, recorded, fun key' own' => ?_⟩
  cases own.symm.trans own'
  obtain ⟨p, presented, spent, signed⟩ := proved
  exact ⟨registered, p, presented, moved.spent spent, by
    rwa [documentPayload_issued issued registered]⟩

theorem ensures_issueRoot (s : MintService L R A) (signing : SigningKey s.issuer.kernelSeed)
    (env : MintEnv) (request : MintVaidRequest) :
    Ensures Extends (fun t v => IssuedFor s.issuer env.issue request t v)
      (issueRoot env request : Call L R A Members) s := by
  unfold issueRoot
  cases own : request.seed.publicKeyDer with
  | none =>
    refine (ensures_issue s signing _ _ _ _).mono (fun t v ⟨issued, _, recorded⟩ => ?_)
    refine ⟨issued, recorded, fun key own' => ?_⟩
    cases own.symm.trans own'
  | some key =>
    refine ((ensures_verifyPopAtMint s _ _ _ _).framed Extends.refl Extends.trans).bind ?_
    rintro t _ ⟨moved, proved⟩
    refine (ensures_issueVaidWithKey t (moved.kernelSeed.symm ▸ signing) _ _ _ _ own proved).mono ?_
    exact fun u v => moved.issuedFor

/-- Conditions (2) to (5a), on the parent and the seed. -/
structure Delegable (now : Int) (seed : VaidSeed) (parent : Members) : Prop where
  link : (nullable seed.parentVaid).strictEq (parent.get "vaid_id") = true
  tenant : (parent.get "tenant_id").strictEq (.str seed.tenantId) = true
  scope : scopeAttenuates parent (.arr seed.entries) = .ok true
  caps : capsAttenuate parent (.arr (seed.capabilitySet.map .str)) = .ok true
  alive : isExpired parent now = false

omit [Ed25519] [LawfulLineageStore L] in
theorem ensures_authorizeChild (s : MintService L R A) (now : Int) (seed : VaidSeed) (parent : Members) :
    Ensures Extends (fun _ _ => Delegable now seed parent)
      (authorizeChild now seed parent : Call L R A PUnit) s := by
  refine (ensures_read Extends.refl _).bind (fun _ _ _ => (ensures_ofExcept _).bind (fun _ _ _ => ?_))
  refine (ensures_required _ _).bind (fun _ _ _ => (ensures_read Extends.refl _).bind (fun _ _ _ => ?_))
  refine (ensures_refuseIf _ _).bind (fun _ _ _ => ?_)
  refine (ensures_refuseIf _ _).bind (fun _ _ ⟨_, tenant⟩ => ?_)
  refine (ensures_refuseIf _ _).bind (fun _ _ ⟨_, link⟩ => ?_)
  refine (ensures_ofExcept _).bind (fun _ scope ⟨_, scopeHeld⟩ => ?_)
  refine (ensures_refuseIf _ _).bind (fun _ _ ⟨_, within⟩ => ?_)
  refine (ensures_ofExcept _).bind (fun _ caps ⟨_, capsHeld⟩ => ?_)
  refine (ensures_refuseIf _ _).bind (fun _ _ ⟨_, contained⟩ => ?_)
  refine (ensures_refuseIf _ _).mono (fun _ _ ⟨_, alive⟩ => ?_)
  simp only [Bool.not_eq_false, Bool.not_eq_true, throwing_eq_ok_iff] at *
  subst within contained
  exact ⟨link, (Bool.and_eq_true_iff.mp tenant).2, scopeHeld, capsHeld, alive⟩

theorem ensures_issueChild (s : MintService L R A) (signing : SigningKey s.issuer.kernelSeed)
    (env : MintEnv) (request : MintVaidRequest) (parent : Members) :
    Ensures Extends (fun t v => IssuedFor s.issuer env.issue request t v ∧
      expiryAttenuates parent (v.get "expires_at") = true)
      (issueChild env request parent : Call L R A Members) s := by
  refine (ensures_required _ _).bind (fun t key ⟨here, own⟩ => ?_)
  subst here
  refine ((ensures_verifyPopAtMint s _ _ _ _).framed Extends.refl Extends.trans).bind ?_
  rintro t _ ⟨moved, proved⟩
  refine (ensures_issueVaidWithKey t (moved.kernelSeed.symm ▸ signing) _ _ _ _ own proved).bind ?_
  intro u v issuedFor
  refine (ensures_refuseIf _ _).bind (fun u' _ ⟨here, expiry⟩ => ensures_pure ⟨?_, by simpa using expiry⟩)
  subst here
  exact moved.issuedFor issuedFor

theorem ensures_delegateChild (s : MintService L R A) (signing : SigningKey s.issuer.kernelSeed)
    (env : MintEnv) (request : MintVaidRequest) (parent : Option Members) :
    Ensures Extends (fun t child => Delegates env.parentNow parent child ∧
      isWellFormedScopeBoundary (.arr request.seed.entries) = true ∧
      IssuedFor s.issuer env.issue request t child.2)
      (delegateChild env request parent : Call L R A (Members × Members)) s := by
  refine (ensures_requireWellFormedBoundary s _).bind (fun t _ ⟨here, boundary⟩ => ?_)
  subst here
  refine (ensures_required _ _).bind (fun t p ⟨here, presented⟩ => ?_)
  subst here
  refine ((ensures_authorizeChild s _ _ _).framed Extends.refl Extends.trans).bind ?_
  rintro t _ ⟨moved, delegable⟩
  refine (ensures_issueChild t (moved.kernelSeed.symm ▸ signing) _ _ _).bind ?_
  rintro u v ⟨issuedFor, expiry⟩
  have issued := issuedFor.issued
  refine ensures_pure ⟨⟨⟨?_, ?_, ?_, ?_, expiry⟩, presented, delegable.alive⟩, boundary,
    moved.issuedFor issuedFor⟩
  · rw [issued.parentVaid]
    exact delegable.link
  · rw [issued.tenantId]
    exact delegable.tenant
  · rw [issued.scopeBoundary]
    exact delegable.scope
  · rw [issued.capabilitySet]
    exact delegable.caps

variable [AuditSink A]

theorem ensures_mintRoot (s : MintService L R A) (signing : SigningKey s.issuer.kernelSeed)
    (env : MintEnv) (request : MintVaidRequest) :
    Ensures Extends (fun t response => env.authz request.seed = .ok () ∧
      isWellFormedScopeBoundary (.arr request.seed.entries) = true ∧
      IssuedFor s.issuer env.issue request t response.vaid)
      (mintRoot env request : Call L R A MintVaidResponse) s := by
  refine (ensures_requireWellFormedBoundary s _).bind (fun t _ ⟨here, boundary⟩ => ?_)
  subst here
  refine (ensures_ofExcept _).bind (fun t _ ⟨here, allowed⟩ => ?_)
  subst here
  have issue : Ensures Extends (fun t v => IssuedFor s.issuer env.issue request t v)
      (Fallible.uninterrupted (issueRoot env request) : Call L R A Members) s := by
    refine ensures_uninterrupted Extends.refl Extends.trans (fun t moved => ?_)
    have alone := ensures_issueRoot t (moved.kernelSeed.symm ▸ signing) env request
    exact alone.mono (fun u v => moved.issuedFor)
  refine issue.bind (fun t v issuedFor => ?_)
  refine ((ensures_recordAudit t _).framed Extends.refl Extends.trans).bind (fun u _ ⟨moved, _⟩ => ?_)
  exact ensures_pure ⟨allowed, boundary, issuedFor.later moved⟩

theorem ensures_mintChild (s : MintService L R A) (signing : SigningKey s.issuer.kernelSeed)
    (env : MintEnv) (request : MintVaidRequest) (parent : Option Members) :
    Ensures Extends (fun t response => (∃ p, Delegates env.parentNow parent (p, response.vaid)) ∧
      isWellFormedScopeBoundary (.arr request.seed.entries) = true ∧
      IssuedFor s.issuer env.issue request t response.vaid)
      (mintChild env request parent : Call L R A MintVaidResponse) s := by
  have delegate : Ensures Extends (fun t child => Delegates env.parentNow parent child ∧
      isWellFormedScopeBoundary (.arr request.seed.entries) = true ∧
      IssuedFor s.issuer env.issue request t child.2)
      (Fallible.uninterrupted (delegateChild env request parent) : Call L R A (Members × Members)) s := by
    refine ensures_uninterrupted Extends.refl Extends.trans (fun t moved => ?_)
    refine (ensures_delegateChild t (moved.kernelSeed.symm ▸ signing) env request parent).mono ?_
    rintro u child ⟨delegates, boundary, issuedFor⟩
    exact ⟨delegates, boundary, moved.issuedFor issuedFor⟩
  refine delegate.bind ?_
  rintro t ⟨p, v⟩ ⟨delegates, boundary, issuedFor⟩
  refine ((ensures_recordAudit t _).framed Extends.refl Extends.trans).bind (fun u _ ⟨moved, _⟩ => ?_)
  exact ensures_pure ⟨⟨p, delegates⟩, boundary, issuedFor.later moved⟩

end Ensures

end MintService

end VaidSuite.TypeScript
