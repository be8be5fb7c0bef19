import VaidSuite.Mint

/-! What a successful call of the mint has checked, and what it leaves behind. -/
namespace VaidSuite.MintService

variable [Crypto] [Chrono] {L R A : Type} [LineageStore L]

/-- A fresh proof that the caller holds the key it registers, for this very seed. -/
structure ProvesPossession (now : Instant) (seed : VaidSeed) (key : Bytes) (pop : MintPop) :
    Prop where
  fresh : ((now.secondsSince pop.issuedAt).natAbs : Int) ≤ mintPopFreshnessSecs
  signed : verifySignedPayload (seed.popPayload key pop.nonce pop.issuedAt).toJson key
    pop.signature = true

omit [Crypto] [Chrono] [LineageStore L] in
theorem run_spendNonce_iff (nonce : String) (u : PUnit) (s s' : MintService L R A) :
    (spendNonce nonce : Call L R A PUnit).run s = (.ok u, s') ↔
      nonce ∉ s.consumedPopNonces ∧
        { s with consumedPopNonces := insert nonce s.consumedPopNonces } = s' := by
  rw [spendNonce, Fallible.run_atomically]
  by_cases spent : nonce ∈ s.consumedPopNonces <;> simp [spent]

omit [LineageStore L] in
theorem run_verifyPopAtMint_iff (now : Instant) (seed : VaidSeed) (key : Bytes)
    (pop : Option MintPop) (u : PUnit) (s s' : MintService L R A) :
    (verifyPopAtMint now seed key pop : Call L R A PUnit).run s = (.ok u, s') ↔
      ∃ p, pop = some p ∧ ProvesPossession now seed key p ∧ p.nonce ∉ s.consumedPopNonces ∧
        { s with consumedPopNonces := insert p.nonce s.consumedPopNonces } = s' := by
  simp only [verifyPopAtMint, Fallible.run_bind_iff, Fallible.run_required_iff,
    Fallible.run_refuseIf_iff, run_spendNonce_iff]
  constructor
  · rintro ⟨p, _, ⟨present, rfl⟩, _, _, ⟨fresh, rfl⟩, _, _, ⟨unspent, rfl⟩, signed, rfl⟩
    exact ⟨p, present, ⟨by omega, by simpa using signed⟩, unspent, rfl⟩
  · rintro ⟨p, present, ⟨fresh, signed⟩, unspent, rfl⟩
    exact ⟨p, s, ⟨present, rfl⟩, ⟨⟩, s, ⟨by omega, rfl⟩, ⟨⟩, _, ⟨unspent, rfl⟩,
      by simp [signed], rfl⟩

theorem run_issueVaidWithKey_iff (env : IssueEnv) (attributes : IssueAttributes) (key : Bytes)
    (notAfter : Option String) (v : Vaid) (s s' : MintService L R A) :
    (issueVaidWithKey env attributes key notAfter : Call L R A Vaid).run s = (.ok v, s') ↔
      ∃ expires, s.issuer.expiresAt env notAfter = .ok expires ∧
        (LineageStore.tryRecord s.issuer.lineage ⟨env.agentId.uuid⟩ attributes.parentVaid).1 =
          .ok () ∧
        s.issuer.signedVaid env attributes key expires = v ∧
        { s with issuer := { s.issuer with lineage := (LineageStore.tryRecord s.issuer.lineage
          ⟨env.agentId.uuid⟩ attributes.parentVaid).2 } } = s' := by
  have issued := s.issuer.buildAndSignVaid_eq_ok_iff env attributes key notAfter
  rw [issueVaidWithKey, Fallible.run_atomically]
  constructor
  · intro h
    obtain ⟨outcome, after⟩ := Prod.mk.inj h
    obtain ⟨expires, expiry, recorded, signed, same⟩ := (issued v _).mp (Prod.ext outcome rfl)
    refine ⟨expires, expiry, recorded, signed.symm, ?_⟩
    rw [← after, ← same]
    rfl
  · rintro ⟨expires, expiry, recorded, signed, rfl⟩
    have done := (issued v _).mpr ⟨expires, expiry, recorded, signed.symm, rfl⟩
    simp only [ReferenceIssuer.issueVaidWithKey, done]

omit [Crypto] [Chrono] [LineageStore L] in
theorem run_recordAudit_iff [AuditSink A] (details : Json String) (u : PUnit)
    (s s' : MintService L R A) :
    (recordAudit details : Call L R A PUnit).run s = (.ok u, s') ↔
      ∃ audit, AuditSink.record s.audit "vaid_minted" details = (.ok (), audit) ∧
        { s with audit := audit } = s' := by
  rw [recordAudit, Fallible.run_atomically]
  obtain ⟨recorded, audit⟩ := AuditSink.record s.audit "vaid_minted" details
  cases recorded <;> simp

omit [Crypto] [Chrono] in
theorem run_parentDepth_iff (parent : Vaid) (depth : Nat) (s s' : MintService L R A) :
    (parentDepth parent : Call L R A Nat).run s = (.ok depth, s') ↔
      ∃ chain, assembleLineage parent s.issuer.resolveParent = .complete chain ∧
        chain.length - 1 = depth ∧ s = s' := by
  rw [parentDepth, Fallible.run_bind_iff]
  simp only [Fallible.run_read_iff]
  constructor
  · rintro ⟨assembled, _, ⟨rfl, rfl⟩, h⟩
    cases complete : assembleLineage parent s.issuer.resolveParent with
    | incomplete => simp [complete, Fallible.run_fail_iff] at h
    | complete chain =>
      simp only [complete, Fallible.run_pure_iff] at h
      exact ⟨chain, rfl, h⟩
  · rintro ⟨chain, complete, rfl, rfl⟩
    exact ⟨_, s, ⟨rfl, rfl⟩, by simp [complete, Fallible.run_pure_iff]⟩

/-- A delegation of this seed under a parent is within the parent's authority. -/
structure Delegable (s : MintService L R A) (now : Instant) (seed : VaidSeed) (parent : Vaid) :
    Prop where
  depth : ∃ chain, assembleLineage parent s.issuer.resolveParent = .complete chain ∧
    chain.length - 1 + 1 ≤ s.maxDelegationDepth.val
  tenant : parent.tenantId.asStr = seed.tenantId
  lineage : seed.parentVaid = some parent.vaidId
  scope : scopeAttenuates parent seed.scopeBoundary = true
  caps : capsAttenuate parent seed.capabilitySet = true
  alive : parent.isExpiredAt now = false

omit [Crypto] in
theorem run_authorizeChild_iff (now : Instant) (seed : VaidSeed) (parent : Vaid) (u : PUnit)
    (s s' : MintService L R A) :
    (authorizeChild now seed parent : Call L R A PUnit).run s = (.ok u, s') ↔
      Delegable s now seed parent ∧ s = s' := by
  simp only [authorizeChild, Fallible.run_bind_iff, run_parentDepth_iff, Fallible.run_read_iff,
    Fallible.run_refuseIf_iff]
  constructor
  · rintro ⟨_, _, ⟨chain, complete, rfl, rfl⟩, _, _, ⟨rfl, rfl⟩, _, _, ⟨depth, rfl⟩,
      _, _, ⟨tenant, rfl⟩, _, _, ⟨lineage, rfl⟩, _, _, ⟨scope, rfl⟩, _, _, ⟨caps, rfl⟩, alive, rfl⟩
    exact ⟨⟨⟨chain, complete, Nat.le_of_not_lt depth⟩, by simpa [tenantAttenuates] using tenant,
      Decidable.not_not.mp lineage, by simpa using scope, by simpa using caps,
      by simpa using alive⟩, rfl⟩
  · rintro ⟨h, rfl⟩
    obtain ⟨chain, complete, depth⟩ := h.depth
    exact ⟨_, s, ⟨chain, complete, rfl, rfl⟩, _, s, ⟨rfl, rfl⟩, ⟨⟩, s, ⟨Nat.not_lt.mpr depth, rfl⟩,
      ⟨⟩, s, ⟨by simp [tenantAttenuates, h.tenant], rfl⟩, ⟨⟩, s, ⟨not_not.mpr h.lineage, rfl⟩,
      ⟨⟩, s, ⟨by simp [h.scope], rfl⟩, ⟨⟩, s, ⟨by simp [h.caps], rfl⟩, by simp [h.alive], rfl⟩

/-- A document of the seed, bound to a key whose possession was proved, has been
signed under a ceiling, and can be recorded. -/
structure Issuable (s : MintService L R A) (env : MintEnv) (request : MintVaidRequest)
    (notAfter : Option String) (key : Bytes) (pop : MintPop) (expires : Instant) : Prop where
  registered : request.seed.publicKeyDer = some key
  presented : request.pop = some pop
  possession : ProvesPossession env.popNow request.seed key pop
  unspent : pop.nonce ∉ s.consumedPopNonces
  ceiling : s.issuer.expiresAt env.issue notAfter = .ok expires
  recorded : (LineageStore.tryRecord s.issuer.lineage ⟨env.issue.agentId.uuid⟩
    request.seed.parentVaid).1 = .ok ()

def signedVaid (s : MintService L R A) (env : MintEnv) (request : MintVaidRequest)
    (key : Bytes) (expires : Instant) : Vaid :=
  s.issuer.signedVaid env.issue request.seed.attributes key expires

/-- The service once a nonce has been spent. -/
def afterPop (s : MintService L R A) (pop : MintPop) : MintService L R A :=
  { s with consumedPopNonces := insert pop.nonce s.consumedPopNonces }

omit [Crypto] [Chrono] in
/-- The service once a document of the request has been recorded. -/
def afterIssue (s : MintService L R A) (env : MintEnv) (request : MintVaidRequest) :
    MintService L R A :=
  { s with
    issuer := { s.issuer with
      lineage := (LineageStore.tryRecord s.issuer.lineage ⟨env.issue.agentId.uuid⟩
        request.seed.parentVaid).2 } }

theorem run_issueChild_iff (env : MintEnv) (request : MintVaidRequest) (parent child : Vaid)
    (s s' : MintService L R A) :
    (issueChild env request parent : Call L R A Vaid).run s = (.ok child, s') ↔
      ∃ key pop expires,
        Issuable s env request (some parent.expiresAtAsPresented) key pop expires ∧
        s.signedVaid env request key expires = child ∧
        expiryAttenuates parent (some child.expiresAtAsPresented) = true ∧
        (s.afterPop pop).afterIssue env request = s' := by
  simp only [issueChild, Fallible.run_bind_iff, Fallible.run_required_iff, run_verifyPopAtMint_iff,
    run_issueVaidWithKey_iff, Fallible.run_refuseIf_iff, Fallible.run_pure_iff]
  constructor
  · rintro ⟨key, _, ⟨registered, rfl⟩, _, _, ⟨pop, presented, possession, unspent, rfl⟩, _, _,
      ⟨expires, ceiling, recorded, rfl, rfl⟩, _, _, ⟨expiry, rfl⟩, rfl, rfl⟩
    exact ⟨key, pop, expires, ⟨registered, presented, possession, unspent, ceiling, recorded⟩, rfl,
      by simpa [signedVaid] using expiry, rfl⟩
  · rintro ⟨key, pop, expires, h, rfl, expiry, rfl⟩
    exact ⟨key, s, ⟨h.registered, rfl⟩, ⟨⟩, _, ⟨pop, h.presented, h.possession, h.unspent, rfl⟩,
      _, _, ⟨expires, h.ceiling, h.recorded, rfl, rfl⟩, ⟨⟩, _, ⟨by
        rw [Bool.not_eq_false]; exact expiry, rfl⟩, rfl, rfl⟩

/-- A delegation returns a child exactly when the parent allows it, the child can be
issued within the parent's life, and the audit takes it. -/
theorem run_mintChild_iff [AuditSink A] (env : MintEnv) (request : MintVaidRequest)
    (parent : Option Vaid) (response : MintVaidResponse) (s s' : MintService L R A) :
    (mintChild env request parent : Call L R A MintVaidResponse).run s = (.ok response, s') ↔
      ∃ p key pop expires audit, parent = some p ∧ Delegable s env.parentNow request.seed p ∧
        Issuable s env request (some p.expiresAtAsPresented) key pop expires ∧
        s.signedVaid env request key expires = response.vaid ∧
        expiryAttenuates p (some response.vaid.expiresAtAsPresented) = true ∧
        response.expiryBoundedByParent =
          (response.vaid.expiresAtAsPresented == p.expiresAtAsPresented) ∧
        response.parentExpiresAt = some p.expiresAtAsPresented ∧
        AuditSink.record s.audit "vaid_minted" (childDetails request.seed p response.vaid
          response.expiryBoundedByParent) = (.ok (), audit) ∧
        { (s.afterPop pop).afterIssue env request with audit := audit } = s' := by
  simp only [mintChild, Fallible.run_bind_iff, Fallible.run_required_iff, run_authorizeChild_iff,
    run_issueChild_iff, run_recordAudit_iff, Fallible.run_pure_iff]
  constructor
  · rintro ⟨p, _, ⟨rfl, rfl⟩, _, _, ⟨delegable, rfl⟩, child, _,
      ⟨key, pop, expires, issuable, rfl, expiry, rfl⟩, _, _, ⟨audit, audited, rfl⟩, rfl, rfl⟩
    exact ⟨p, key, pop, expires, audit, rfl, delegable, issuable, rfl, expiry, rfl, rfl, audited, rfl⟩
  · rintro ⟨p, key, pop, expires, audit, rfl, delegable, issuable, signed, expiry, bounded, ceiling,
      audited, rfl⟩
    obtain ⟨child, expiryBoundedByParent, parentExpiresAt⟩ := response
    dsimp only at signed bounded ceiling
    subst signed bounded ceiling
    exact ⟨p, s, ⟨rfl, rfl⟩, ⟨⟩, s, ⟨delegable, rfl⟩, _, _,
      ⟨key, pop, expires, issuable, rfl, expiry, rfl⟩, ⟨⟩, _, ⟨audit, audited, rfl⟩, rfl, rfl⟩

/-- The key of a root mint and the service it is issued from: a registered key whose
possession was proved, or one the issuer generates and discards. -/
def RootKeyed (s : MintService L R A) (env : MintEnv) (request : MintVaidRequest) (key : Bytes)
    (t : MintService L R A) : Prop :=
  (∃ pop, request.seed.publicKeyDer = some key ∧ request.pop = some pop ∧
    ProvesPossession env.popNow request.seed key pop ∧ pop.nonce ∉ s.consumedPopNonces ∧
    s.afterPop pop = t) ∨
  request.seed.publicKeyDer = none ∧ Crypto.publicKey env.issue.agentKey = key ∧ s = t

theorem run_issueRoot_iff (env : MintEnv) (request : MintVaidRequest) (v : Vaid)
    (s s' : MintService L R A) :
    (issueRoot env request : Call L R A Vaid).run s = (.ok v, s') ↔
      ∃ key t expires, s.RootKeyed env request key t ∧
        t.issuer.expiresAt env.issue none = .ok expires ∧
        (LineageStore.tryRecord t.issuer.lineage ⟨env.issue.agentId.uuid⟩
          request.seed.parentVaid).1 = .ok () ∧
        t.signedVaid env request key expires = v ∧ t.afterIssue env request = s' := by
  unfold issueRoot RootKeyed
  cases registered : request.seed.publicKeyDer with
  | none =>
    simp only [reduceCtorEq, false_and, exists_false, false_or, true_and]
    rw [show issueVaidWithLineage env.issue request.seed.attributes none =
      (issueVaidWithKey env.issue request.seed.attributes (Crypto.publicKey env.issue.agentKey) none :
        Call L R A Vaid) from rfl, run_issueVaidWithKey_iff]
    constructor
    · rintro ⟨expires, expiry, recorded, signed, after⟩
      exact ⟨_, s, expires, ⟨rfl, rfl⟩, expiry, recorded, signed, after⟩
    · rintro ⟨_, _, expires, ⟨rfl, rfl⟩, expiry, recorded, signed, after⟩
      exact ⟨expires, expiry, recorded, signed, after⟩
  | some registeredKey =>
    simp only [Fallible.run_bind_iff, run_verifyPopAtMint_iff, run_issueVaidWithKey_iff,
      Option.some.injEq, reduceCtorEq, false_and, or_false]
    constructor
    · rintro ⟨_, _, ⟨pop, presented, possession, unspent, rfl⟩, expires, expiry, recorded, signed,
        after⟩
      exact ⟨registeredKey, _, expires, ⟨pop, rfl, presented, possession, unspent, rfl⟩, expiry,
        recorded, signed, after⟩
    · rintro ⟨_, _, expires, ⟨pop, rfl, presented, possession, unspent, rfl⟩, expiry, recorded,
        signed, after⟩
      exact ⟨⟨⟩, _, ⟨pop, presented, possession, unspent, rfl⟩, expires, expiry, recorded, signed,
        after⟩

theorem run_mintRoot_iff [AuditSink A] (env : MintEnv) (request : MintVaidRequest)
    (response : MintVaidResponse) (s s' : MintService L R A) :
    (mintRoot env request : Call L R A MintVaidResponse).run s = (.ok response, s') ↔
      ∃ key t expires audit, env.authz request.seed = .ok () ∧ s.RootKeyed env request key t ∧
        t.issuer.expiresAt env.issue none = .ok expires ∧
        (LineageStore.tryRecord t.issuer.lineage ⟨env.issue.agentId.uuid⟩
          request.seed.parentVaid).1 = .ok () ∧
        ⟨t.signedVaid env request key expires, false, none⟩ = response ∧
        AuditSink.record t.audit "vaid_minted" (rootDetails request.seed) = (.ok (), audit) ∧
        { t.afterIssue env request with audit := audit } = s' := by
  simp only [mintRoot, Fallible.run_bind_iff, Fallible.run_ofExcept_iff, run_issueRoot_iff,
    run_recordAudit_iff, Fallible.run_pure_iff]
  constructor
  · rintro ⟨_, _, ⟨permitted, rfl⟩, _, _, ⟨key, t, expires, keyed, expiry, recorded, rfl, rfl⟩, _, _,
      ⟨audit, audited, rfl⟩, rfl, rfl⟩
    exact ⟨key, t, expires, audit, permitted, keyed, expiry, recorded, rfl, audited, rfl⟩
  · rintro ⟨key, t, expires, audit, permitted, keyed, expiry, recorded, rfl, audited, rfl⟩
    exact ⟨⟨⟩, s, ⟨permitted, rfl⟩, _, _, ⟨key, t, expires, keyed, expiry, recorded, rfl, rfl⟩,
      ⟨⟩, _, ⟨audit, audited, rfl⟩, rfl, rfl⟩

/-! ### What a call leaves alone -/

/-- A relation that every action of a call keeps to, when it draws `id`. -/
structure Kept (id : VaidId) (rel : MintService L R A → MintService L R A → Prop) : Prop where
  refl : ∀ s, rel s s
  nonce : ∀ s nonce, rel s { s with consumedPopNonces := insert nonce s.consumedPopNonces }
  audit : ∀ s audit, rel s { s with audit := audit }
  lineage : ∀ s parent, rel s { s with issuer := { s.issuer with
    lineage := (LineageStore.tryRecord s.issuer.lineage id parent).2 } }

section Guarantees

open Fallible

variable {id : VaidId} {rel : MintService L R A → MintService L R A → Prop}

omit [Crypto] [Chrono] in
theorem Kept.spendNonce (kept : Kept id rel) (nonce : String) :
    (spendNonce nonce : Call L R A PUnit).Guarantees rel := by
  refine guarantees_atomically (fun s => ?_)
  split
  · exact kept.refl s
  · exact kept.nonce s nonce

omit [Crypto] [Chrono] in
theorem Kept.recordAudit [AuditSink A] (kept : Kept id rel) (details : Json String) :
    (recordAudit details : Call L R A PUnit).Guarantees rel := by
  refine guarantees_atomically (fun s => ?_)
  split <;> exact kept.audit s _

theorem Kept.issueVaidWithKey {env : IssueEnv} (kept : Kept ⟨env.agentId.uuid⟩ rel)
    (attributes : IssueAttributes) (key : Bytes) (notAfter : Option String) :
    (issueVaidWithKey env attributes key notAfter : Call L R A Vaid).Guarantees rel := by
  refine guarantees_atomically (fun s => ?_)
  rcases s.issuer.buildAndSignVaid_cases env attributes key notAfter (Prod.mk.eta).symm with
    ⟨_, same⟩ | ⟨_, _, after, _⟩
  · simp only [ReferenceIssuer.issueVaidWithKey, same]
    exact kept.refl s
  · simp only [ReferenceIssuer.issueVaidWithKey, after]
    exact kept.lineage s attributes.parentVaid

theorem Kept.verifyPopAtMint (kept : Kept id rel) (now : Instant) (seed : VaidSeed) (key : Bytes)
    (pop : Option MintPop) :
    (verifyPopAtMint now seed key pop : Call L R A PUnit).Guarantees rel :=
  (guarantees_required _ _).bind (fun _ => (guarantees_refuseIf _ _).bind (fun _ =>
    (kept.spendNonce _).bind (fun _ => guarantees_refuseIf _ _)))

omit [Crypto] in
theorem Kept.authorizeChild (kept : Kept id rel) (now : Instant) (seed : VaidSeed) (parent : Vaid) :
    (authorizeChild now seed parent : Call L R A PUnit).Guarantees rel := by
  have depth : (parentDepth parent : Call L R A Nat).Guarantees rel := by
    refine (guarantees_read kept.refl _).bind (fun assembled => ?_)
    cases assembled with
    | complete chain => exact guarantees_pure _
    | incomplete => exact guarantees_fail _
  exact depth.bind (fun _ => (guarantees_read kept.refl _).bind (fun _ =>
    (guarantees_refuseIf _ _).bind (fun _ => (guarantees_refuseIf _ _).bind (fun _ =>
    (guarantees_refuseIf _ _).bind (fun _ => (guarantees_refuseIf _ _).bind (fun _ =>
    (guarantees_refuseIf _ _).bind (fun _ => guarantees_refuseIf _ _)))))))

variable {env : MintEnv} (kept : Kept ⟨env.issue.agentId.uuid⟩ rel) (request : MintVaidRequest)

include kept

theorem Kept.issueRoot : (issueRoot env request : Call L R A Vaid).Guarantees rel := by
  unfold MintService.issueRoot
  cases request.seed.publicKeyDer with
  | none => exact kept.issueVaidWithKey _ _ _
  | some key =>
    exact (kept.verifyPopAtMint _ _ _ _).bind (fun _ => kept.issueVaidWithKey _ _ _)

theorem Kept.mintRoot [AuditSink A] :
    (mintRoot env request : Call L R A MintVaidResponse).Guarantees rel :=
  (guarantees_ofExcept _).bind (fun _ => (kept.issueRoot request).bind (fun _ =>
    (kept.recordAudit _).bind (fun _ => guarantees_pure _)))

theorem Kept.issueChild (parent : Vaid) :
    (issueChild env request parent : Call L R A Vaid).Guarantees rel :=
  (guarantees_required _ _).bind (fun _ => (kept.verifyPopAtMint _ _ _ _).bind (fun _ =>
    (kept.issueVaidWithKey _ _ _).bind (fun _ => (guarantees_refuseIf _ _).bind (fun _ =>
    guarantees_pure _))))

theorem Kept.mintChild [AuditSink A] (parent : Option Vaid) :
    (mintChild env request parent : Call L R A MintVaidResponse).Guarantees rel :=
  (guarantees_required _ _).bind (fun parent => (kept.authorizeChild _ _ parent).bind (fun _ =>
    (kept.issueChild request parent).bind (fun _ =>
    (kept.recordAudit _).bind (fun _ => guarantees_pure _))))

end Guarantees

/-- A call writes the lineage of its fresh id alone, and keeps the depth limit. -/
structure Frame (id : VaidId) (s t : MintService L R A) : Prop where
  depth : t.maxDelegationDepth = s.maxDelegationDepth
  others : ∀ other, other ≠ id → t.issuer.resolveParent other = s.issuer.resolveParent other

omit [Crypto] [Chrono] in
theorem Frame.refl (id : VaidId) (s : MintService L R A) : Frame id s s := ⟨rfl, fun _ _ => rfl⟩

omit [Crypto] [Chrono] in
theorem Frame.trans {id : VaidId} {s t u : MintService L R A} (h : Frame id s t)
    (h' : Frame id t u) : Frame id s u where
  depth := h'.depth.trans h.depth
  others other distinct := (h'.others other distinct).trans (h.others other distinct)

omit [Crypto] [Chrono] in
theorem Frame.kept [LawfulLineageStore L] (id : VaidId) :
    Kept id (Frame id : MintService L R A → MintService L R A → Prop) where
  refl := .refl id
  nonce _ _ := ⟨rfl, fun _ _ => rfl⟩
  audit _ _ := ⟨rfl, fun _ _ => rfl⟩
  lineage _ _ := ⟨rfl, fun _ distinct => LawfulLineageStore.resolve_other _ _ _ _ distinct⟩

end VaidSuite.MintService
