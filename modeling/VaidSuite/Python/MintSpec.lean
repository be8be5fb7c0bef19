import VaidSuite.Python.IssuerSpec
import VaidSuite.Python.Mint

/-! What a successful call of the Python mint has checked, and what it leaves behind. -/
namespace VaidSuite.Python.MintService

variable [Libraries] {L R A : Type}

/-- A fresh proof that the caller holds the key it registers, for this very seed. -/
structure ProvesPossession (now : UtcDatetime) (seed : VaidSeed) (key : Bytes) (pop : MintPop) :
    Prop where
  fresh : ∃ issued, Libraries.strptime pop.issuedAt = some issued ∧
    ((now.val : Int) - issued.val).natAbs ≤ mintPopFreshnessSecs.toNat * 1000000
  length : key.length = 32
  signed : ∃ payload digest, buildMintPopPayload seed key pop.nonce pop.issuedAt = .ok payload ∧
    canonicalRequestSigningBytes (.obj payload) = .ok digest ∧
    Libraries.ed25519Verify key pop.signature digest = true

/-- The service once a nonce has been spent. -/
def afterPop (s : MintService L R A) (pop : MintPop) : MintService L R A :=
  { s with consumedPopNonces := insert pop.nonce s.consumedPopNonces }

theorem run_verifyPopAtMint_iff (now : UtcDatetime) (seed : VaidSeed) (key : Bytes)
    (pop : Option MintPop) (u : PUnit) (s s' : MintService L R A) :
    (verifyPopAtMint now seed key pop : Call L R A PUnit).run s = (.ok u, s') ↔
      ∃ p, pop = some p ∧ ProvesPossession now seed key p ∧ p.nonce ∉ s.consumedPopNonces ∧
        s.afterPop p = s' := by
  simp only [verifyPopAtMint, Fallible.run_bind_iff, Fallible.run_required_iff,
    Fallible.run_refuseIf_iff, Fallible.run_read_iff, Fallible.run_ofExcept_iff,
    Fallible.run_atomically, raising_eq_ok_iff]
  constructor
  · rintro ⟨p, _, ⟨present, rfl⟩, issued, _, ⟨read, rfl⟩, _, _, ⟨fresh, rfl⟩, _, _, ⟨rfl, rfl⟩,
      _, _, ⟨unspent, rfl⟩, _, _, spent, payload, _, ⟨built, rfl⟩, digest, _, ⟨digested, rfl⟩, _, _,
      ⟨length, rfl⟩, signed, rfl⟩
    cases spent
    exact ⟨p, present, ⟨⟨issued, read, by omega⟩, not_not.mp length,
      ⟨payload, digest, built, digested, by simpa using signed⟩⟩, by simpa using unspent, rfl⟩
  · rintro ⟨p, present, ⟨⟨issued, read, fresh⟩, length, payload, digest, built, digested, signed⟩,
      unspent, rfl⟩
    exact ⟨p, s, ⟨present, rfl⟩, issued, s, ⟨read, rfl⟩, ⟨⟩, s, ⟨by omega, rfl⟩, _, s, ⟨rfl, rfl⟩, ⟨⟩, s,
      ⟨by simpa using unspent, rfl⟩, ⟨⟩, _, rfl, payload, _, ⟨built, rfl⟩, digest, _, ⟨digested, rfl⟩,
      ⟨⟩, _, ⟨not_not.mpr length, rfl⟩, by simp [signed], rfl⟩

omit [Libraries] in
theorem run_requireWellFormedBoundary_iff (seed : VaidSeed) (u : PUnit) (s s' : MintService L R A) :
    (requireWellFormedBoundary seed : Call L R A PUnit).run s = (.ok u, s') ↔
      isWellFormedScopeBoundary seed.scopeBoundary = true ∧ s = s' := by
  rw [requireWellFormedBoundary, Fallible.run_refuseIf_iff, Bool.not_eq_false]

omit [Libraries] in
theorem run_recordAudit_iff [AuditSink A] (details : Dict) (u : PUnit) (s s' : MintService L R A) :
    (recordAudit details : Call L R A PUnit).run s = (.ok u, s') ↔
      ∃ audit, AuditSink.record s.audit (py "vaid_minted") details = (.ok (), audit) ∧
        { s with audit := audit } = s' := by
  rw [recordAudit, Fallible.run_atomically]
  obtain ⟨recorded, audit⟩ := AuditSink.record s.audit (py "vaid_minted") details
  cases recorded <;> simp

section Issuing

variable [PrivateKeys] [LineageStore L]

omit [PrivateKeys] [LineageStore L] [Libraries] in
/-- The service once a document has been recorded. -/
def afterIssue (s : MintService L R A) (lineage : L) : MintService L R A :=
  { s with issuer := { s.issuer with lineage := lineage } }

/-- A document of the attributes was signed, and could be recorded. -/
structure Issued (s : MintService L R A) (env : IssueEnv) (attributes : IssueAttributes)
    (publicKeyDer : Bytes) (notAfter : PyValue) (d : Dict) (lineage : L) : Prop where
  built : s.issuer.buildAndSign env attributes publicKeyDer notAfter = .ok d
  recorded : LineageStore.record s.issuer.lineage env.vaidId attributes.parentVaid = .ok lineage

theorem run_issue_iff (env : IssueEnv) (attributes : IssueAttributes) (publicKeyDer : Bytes)
    (notAfter : PyValue) (d : Dict) (s s' : MintService L R A) :
    (issue env attributes publicKeyDer notAfter : Call L R A Dict).run s = (.ok d, s') ↔
      ∃ lineage, Issued s env attributes publicKeyDer notAfter d lineage ∧ s.afterIssue lineage = s' := by
  simp only [issue, Fallible.run_bind_iff, Fallible.run_read_iff, Fallible.run_ofExcept_iff,
    Fallible.run_atomically]
  constructor
  · rintro ⟨_, _, ⟨rfl, rfl⟩, signed, _, ⟨built, rfl⟩, stored⟩
    cases recorded : LineageStore.record s.issuer.lineage env.vaidId attributes.parentVaid with
    | error e =>
      rw [recorded] at stored
      cases stored
    | ok lineage =>
      rw [recorded] at stored
      cases stored
      exact ⟨lineage, ⟨built, recorded⟩, rfl⟩
  · rintro ⟨lineage, ⟨built, recorded⟩, rfl⟩
    exact ⟨_, s, ⟨rfl, rfl⟩, d, s, ⟨built, rfl⟩, by rw [recorded]; rfl⟩

/-- The key of a root mint and the service it is issued from: a registered key whose
possession was proved, or one the issuer generates and discards. -/
def RootKeyed (s : MintService L R A) (env : MintEnv) (seed : VaidSeed) (pop : Option MintPop)
    (key : Bytes) (t : MintService L R A) : Prop :=
  (∃ p, seed.publicKeyDer = some key ∧ pop = some p ∧ ProvesPossession env.popNow seed key p ∧
    p.nonce ∉ s.consumedPopNonces ∧ s.afterPop p = t) ∨
  seed.publicKeyDer = none ∧ PrivateKeys.publicBytesRaw env.issue.ephemeral = key ∧ s = t

theorem run_issueRoot_iff (env : MintEnv) (seed : VaidSeed) (pop : Option MintPop) (d : Dict)
    (s s' : MintService L R A) :
    (issueRoot env seed pop : Call L R A Dict).run s = (.ok d, s') ↔
      ∃ key t lineage, s.RootKeyed env seed pop key t ∧
        Issued t env.issue seed.attributes key .null d lineage ∧ t.afterIssue lineage = s' := by
  unfold issueRoot RootKeyed
  cases registered : seed.publicKeyDer with
  | none =>
    simp only [issueVaidWithLineage, run_issue_iff, reduceCtorEq, false_and, exists_false, false_or,
      true_and]
    constructor
    · rintro ⟨lineage, issued, after⟩
      exact ⟨_, s, lineage, ⟨rfl, rfl⟩, issued, after⟩
    · rintro ⟨_, _, lineage, ⟨rfl, rfl⟩, issued, after⟩
      exact ⟨lineage, issued, after⟩
  | some registeredKey =>
    simp only [issueVaidWithKey, Fallible.run_bind_iff, run_verifyPopAtMint_iff, run_issue_iff,
      Option.some.injEq, reduceCtorEq, false_and, or_false]
    constructor
    · rintro ⟨_, _, ⟨p, presented, possession, unspent, rfl⟩, lineage, issued, after⟩
      exact ⟨registeredKey, _, lineage, ⟨p, rfl, presented, possession, unspent, rfl⟩, issued, after⟩
    · rintro ⟨_, _, lineage, ⟨p, rfl, presented, possession, unspent, rfl⟩, issued, after⟩
      exact ⟨⟨⟩, _, ⟨p, presented, possession, unspent, rfl⟩, lineage, issued, after⟩

/-- A root mint returns a document exactly when the shape and the gate pass, the key is accounted
for, the document can be issued, and the audit takes it. -/
theorem run_mintRoot_iff [AuditSink A] (env : MintEnv) (seed : VaidSeed) (pop : Option MintPop)
    (d : Dict) (s s' : MintService L R A) :
    (mintRoot env seed pop : Call L R A Dict).run s = (.ok d, s') ↔
      ∃ key t lineage audit, isWellFormedScopeBoundary seed.scopeBoundary = true ∧
        env.authz seed = .ok () ∧ s.RootKeyed env seed pop key t ∧
        Issued t env.issue seed.attributes key .null d lineage ∧
        AuditSink.record t.audit (py "vaid_minted") (rootDetails seed) = (.ok (), audit) ∧
        { t.afterIssue lineage with audit := audit } = s' := by
  simp only [mintRoot, Fallible.run_bind_iff, run_requireWellFormedBoundary_iff,
    Fallible.run_ofExcept_iff, run_issueRoot_iff, run_recordAudit_iff, Fallible.run_pure_iff]
  constructor
  · rintro ⟨_, _, ⟨shape, rfl⟩, _, _, ⟨permitted, rfl⟩, _, _, ⟨key, t, lineage, keyed, issued, rfl⟩,
      _, _, ⟨audit, audited, rfl⟩, rfl, rfl⟩
    exact ⟨key, t, lineage, audit, shape, permitted, keyed, issued, audited, rfl⟩
  · rintro ⟨key, t, lineage, audit, shape, permitted, keyed, issued, audited, rfl⟩
    exact ⟨⟨⟩, s, ⟨shape, rfl⟩, ⟨⟩, s, ⟨permitted, rfl⟩, d, _, ⟨key, t, lineage, keyed, issued, rfl⟩,
      ⟨⟩, _, ⟨audit, audited, rfl⟩, rfl, rfl⟩

/-- A delegation of this seed under a parent is within the parent's authority. -/
structure Delegable (s : MintService L R A) (now : UtcDatetime) (seed : VaidSeed) (parent : Dict) :
    Prop where
  depth : ∃ chain, assembleLineage parent s.issuer.resolveParent = .ok (some chain) ∧
    chain.length - 1 + 1 ≤ s.maxDelegationDepth.val
  tenant : ∃ domain, parent.item "trust_domain" = .ok domain ∧
    tenantAttenuates parent domain (.str seed.tenantId) = .ok true
  lineage : ∃ vaidId, parent.item "vaid_id" = .ok vaidId ∧ pyEq (optional seed.parentVaid) vaidId = true
  scope : scopeAttenuates parent seed.scopeBoundary = .ok true
  caps : capsAttenuate parent (.arr (seed.capabilitySet.map .str)) = .ok true
  alive : isExpiredAt parent now = .ok false

omit [PrivateKeys] [LineageStore L] in
theorem run_requireSameTenant_iff (seed : VaidSeed) (parent : Dict) (u : PUnit)
    (s s' : MintService L R A) :
    (requireSameTenant seed parent : Call L R A PUnit).run s = (.ok u, s') ↔
      (∃ domain, parent.item "trust_domain" = .ok domain ∧
        tenantAttenuates parent domain (.str seed.tenantId) = .ok true) ∧ s = s' := by
  simp only [requireSameTenant, Fallible.run_bind_iff, Fallible.run_ofExcept_iff, raising_eq_ok_iff]
  constructor
  · rintro ⟨domain, _, ⟨read, rfl⟩, holds, _, ⟨tenant, rfl⟩, rest⟩
    cases holds with
    | false =>
      simp only [Bool.false_eq_true, if_false, Fallible.run_bind_iff, Fallible.run_fail_iff, and_false,
        exists_false] at rest
    | true =>
      simp only [if_true, Fallible.run_pure_iff] at rest
      exact ⟨⟨domain, read, tenant⟩, rest.2⟩
  · rintro ⟨⟨domain, read, tenant⟩, rfl⟩
    exact ⟨domain, s, ⟨read, rfl⟩, true, s, ⟨tenant, rfl⟩, rfl⟩

omit [PrivateKeys] in
theorem run_authorizeChild_iff (now : UtcDatetime) (seed : VaidSeed) (parent : Dict) (u : PUnit)
    (s s' : MintService L R A) :
    (authorizeChild now seed parent : Call L R A PUnit).run s = (.ok u, s') ↔
      Delegable s now seed parent ∧ s = s' := by
  simp only [authorizeChild, Fallible.run_bind_iff, Fallible.run_read_iff, Fallible.run_ofExcept_iff,
    Fallible.run_required_iff, Fallible.run_refuseIf_iff, run_requireSameTenant_iff, raising_eq_ok_iff]
  constructor
  · rintro ⟨_, _, ⟨rfl, rfl⟩, _, _, ⟨assembled, rfl⟩, chain, _, ⟨rfl, rfl⟩, _, _, ⟨rfl, rfl⟩, _, _,
      ⟨depth, rfl⟩, _, _, ⟨tenant, rfl⟩, vaidId, _, ⟨read, rfl⟩, _, _, ⟨bound, rfl⟩, _, _, ⟨scope, rfl⟩,
      _, _, ⟨within, rfl⟩, _, _, ⟨caps, rfl⟩, _, _, ⟨held, rfl⟩, expired, _, ⟨lapse, rfl⟩, alive, rfl⟩
    rw [Bool.not_eq_false] at bound within held
    rw [Bool.not_eq_true] at alive
    subst within held alive
    exact ⟨⟨⟨chain, assembled, Nat.le_of_not_lt depth⟩, tenant, ⟨vaidId, read, bound⟩, scope, caps, lapse⟩, rfl⟩
  · rintro ⟨⟨⟨chain, assembled, depth⟩, tenant, ⟨vaidId, read, bound⟩, scope, caps, alive⟩, rfl⟩
    exact ⟨_, s, ⟨rfl, rfl⟩, _, s, ⟨assembled, rfl⟩, chain, s, ⟨rfl, rfl⟩, _, s, ⟨rfl, rfl⟩, ⟨⟩, s,
      ⟨Nat.not_lt.mpr depth, rfl⟩, ⟨⟩, s, ⟨tenant, rfl⟩, vaidId, s, ⟨read, rfl⟩, ⟨⟩, s, ⟨by simp [bound], rfl⟩,
      true, s, ⟨scope, rfl⟩, ⟨⟩, s, ⟨by simp, rfl⟩, true, s, ⟨caps, rfl⟩, ⟨⟩, s, ⟨by simp, rfl⟩, false, s,
      ⟨alive, rfl⟩, by simp, rfl⟩

/-- A child of the seed, bound to a key whose possession was proved, that ends within the
parent's life. -/
structure Delegates (s : MintService L R A) (env : MintEnv) (seed : VaidSeed) (pop : Option MintPop)
    (parent child : Dict) (key : Bytes) (p : MintPop) (lineage : L) : Prop where
  registered : seed.publicKeyDer = some key
  presented : pop = some p
  possession : ProvesPossession env.popNow seed key p
  unspent : p.nonce ∉ s.consumedPopNonces
  issued : ∃ notAfter, parent.item "expires_at" = .ok notAfter ∧
    Issued (s.afterPop p) env.issue seed.attributes key notAfter child lineage
  contained : expiryAttenuates parent (child.get "expires_at") = .ok true

theorem run_issueChild_iff (env : MintEnv) (seed : VaidSeed) (pop : Option MintPop)
    (parent child : Dict) (s s' : MintService L R A) :
    (issueChild env seed pop parent : Call L R A Dict).run s = (.ok child, s') ↔
      ∃ key p lineage, Delegates s env seed pop parent child key p lineage ∧
        (s.afterPop p).afterIssue lineage = s' := by
  simp only [issueChild, issueVaidWithKey, Fallible.run_bind_iff, Fallible.run_required_iff,
    run_verifyPopAtMint_iff, Fallible.run_ofExcept_iff, run_issue_iff, Fallible.run_refuseIf_iff,
    Fallible.run_pure_iff, raising_eq_ok_iff]
  constructor
  · rintro ⟨key, _, ⟨registered, rfl⟩, _, _, ⟨p, presented, possession, unspent, rfl⟩, notAfter, _,
      ⟨ceiling, rfl⟩, _, _, ⟨lineage, issued, rfl⟩, contained, _, ⟨within, rfl⟩, _, _, ⟨holds, rfl⟩, rfl, rfl⟩
    rw [Bool.not_eq_false] at holds
    subst holds
    exact ⟨key, p, lineage, ⟨registered, presented, possession, unspent, ⟨notAfter, ceiling, issued⟩, within⟩,
      rfl⟩
  · rintro ⟨key, p, lineage, ⟨registered, presented, possession, unspent, ⟨notAfter, ceiling, issued⟩,
      within⟩, rfl⟩
    exact ⟨key, s, ⟨registered, rfl⟩, ⟨⟩, _, ⟨p, presented, possession, unspent, rfl⟩, notAfter, _,
      ⟨ceiling, rfl⟩, child, _, ⟨lineage, issued, rfl⟩, true, _, ⟨within, rfl⟩, ⟨⟩, _, ⟨by simp, rfl⟩, rfl, rfl⟩

/-- A delegation returns a child exactly when the parent allows it, the child can be issued
within the parent's life, and the audit takes it. -/
theorem run_mintChild_iff [AuditSink A] (env : MintEnv) (seed : VaidSeed) (parent : Option Dict)
    (pop : Option MintPop) (response : MintChildResponse) (s s' : MintService L R A) :
    (mintChild env seed parent pop : Call L R A MintChildResponse).run s = (.ok response, s') ↔
      ∃ d key p lineage expiresAt tenant audit,
        isWellFormedScopeBoundary seed.scopeBoundary = true ∧ parent = some d ∧
        Delegable s env.parentNow seed d ∧ Delegates s env seed pop d response.vaid key p lineage ∧
        response.vaid.item "expires_at" = .ok expiresAt ∧
        d.item "expires_at" = .ok response.parentExpiresAt ∧
        pyEq expiresAt response.parentExpiresAt = response.expiryBoundedByParent ∧
        d.item "tenant_id" = .ok tenant ∧
        AuditSink.record s.audit (py "vaid_minted") (childDetails seed tenant expiresAt
          response.parentExpiresAt response.expiryBoundedByParent) = (.ok (), audit) ∧
        { (s.afterPop p).afterIssue lineage with audit := audit } = s' := by
  simp only [mintChild, Fallible.run_bind_iff, run_requireWellFormedBoundary_iff,
    Fallible.run_required_iff, run_authorizeChild_iff, run_issueChild_iff, Fallible.run_ofExcept_iff,
    run_recordAudit_iff, Fallible.run_pure_iff, raising_eq_ok_iff]
  constructor
  · rintro ⟨_, _, ⟨shape, rfl⟩, d, _, ⟨rfl, rfl⟩, _, _, ⟨delegable, rfl⟩, child, _,
      ⟨key, p, lineage, delegates, rfl⟩, expiresAt, _, ⟨expiry, rfl⟩, parentExpiresAt, _, ⟨ceiling, rfl⟩,
      tenant, _, ⟨tenanted, rfl⟩, _, _, ⟨audit, audited, rfl⟩, rfl, rfl⟩
    exact ⟨d, key, p, lineage, expiresAt, tenant, audit, shape, rfl, delegable, delegates, expiry, ceiling,
      rfl, tenanted, audited, rfl⟩
  · rintro ⟨d, key, p, lineage, expiresAt, tenant, audit, shape, rfl, delegable, delegates, expiry, ceiling,
      bounded, tenanted, audited, rfl⟩
    obtain ⟨child, expiryBoundedByParent, parentExpiresAt⟩ := response
    dsimp only at delegates expiry ceiling bounded audited
    subst bounded
    exact ⟨⟨⟩, s, ⟨shape, rfl⟩, d, s, ⟨rfl, rfl⟩, ⟨⟩, s, ⟨delegable, rfl⟩, child, _,
      ⟨key, p, lineage, delegates, rfl⟩, expiresAt, _, ⟨expiry, rfl⟩, parentExpiresAt, _, ⟨ceiling, rfl⟩,
      tenant, _, ⟨tenanted, rfl⟩, ⟨⟩, _, ⟨audit, audited, rfl⟩, rfl, rfl⟩

/-- A relation that every action of a call keeps to, when it draws `vaidId`. -/
structure Kept [AuditSink A] (vaidId : PyStr) (rel : MintService L R A → MintService L R A → Prop) :
    Prop where
  refl : ∀ s, rel s s
  nonce : ∀ s nonce, rel s { s with consumedPopNonces := insert nonce s.consumedPopNonces }
  audit : ∀ (s : MintService L R A) details,
    rel s { s with audit := (AuditSink.record s.audit (py "vaid_minted") details).2 }
  lineage : ∀ (s : MintService L R A) parent lineage,
    LineageStore.record s.issuer.lineage vaidId parent = .ok lineage → rel s (s.afterIssue lineage)

section Guarantees

open Fallible

variable [AuditSink A] {vaidId : PyStr} {rel : MintService L R A → MintService L R A → Prop}

omit [Libraries] [PrivateKeys] in
theorem Kept.recordAudit (kept : Kept vaidId rel) (details : Dict) :
    (recordAudit details : Call L R A PUnit).Guarantees rel := by
  refine guarantees_atomically (fun s => ?_)
  have recorded := kept.audit s details
  generalize AuditSink.record s.audit (py "vaid_minted") details = answer at recorded ⊢
  obtain ⟨outcome, audit⟩ := answer
  cases outcome <;> exact recorded

omit [PrivateKeys] in
theorem Kept.verifyPopAtMint (kept : Kept vaidId rel) (now : UtcDatetime) (seed : VaidSeed)
    (key : Bytes) (pop : Option MintPop) :
    (verifyPopAtMint now seed key pop : Call L R A PUnit).Guarantees rel :=
  (guarantees_required _ _).bind (fun _ => (guarantees_required _ _).bind (fun _ =>
    (guarantees_refuseIf _ _).bind (fun _ => (guarantees_read kept.refl _).bind (fun _ =>
    (guarantees_refuseIf _ _).bind (fun _ => (guarantees_atomically (fun s => kept.nonce s _)).bind (fun _ =>
    (guarantees_ofExcept _).bind (fun _ => (guarantees_ofExcept _).bind (fun _ =>
    (guarantees_refuseIf _ _).bind (fun _ => guarantees_refuseIf _ _)))))))))

theorem Kept.issue {env : IssueEnv} (kept : Kept env.vaidId rel) (attributes : IssueAttributes)
    (publicKeyDer : Bytes) (notAfter : PyValue) :
    (issue env attributes publicKeyDer notAfter : Call L R A Dict).Guarantees rel := by
  refine (guarantees_read kept.refl _).bind (fun _ => (guarantees_ofExcept _).bind (fun _ =>
    guarantees_atomically (fun s => ?_)))
  cases recorded : LineageStore.record s.issuer.lineage env.vaidId attributes.parentVaid with
  | ok lineage => exact kept.lineage s _ lineage recorded
  | error e => exact kept.refl s

omit [PrivateKeys] in
theorem Kept.authorizeChild (kept : Kept vaidId rel) (now : UtcDatetime) (seed : VaidSeed)
    (parent : Dict) : (authorizeChild now seed parent : Call L R A PUnit).Guarantees rel := by
  have tenant : (requireSameTenant seed parent : Call L R A PUnit).Guarantees rel := by
    refine (guarantees_ofExcept _).bind (fun _ => (guarantees_ofExcept _).bind (fun holds => ?_))
    cases holds with
    | true => exact guarantees_pure _
    | false => exact (guarantees_ofExcept _).bind (fun _ => guarantees_fail _)
  exact (guarantees_read kept.refl _).bind (fun _ => (guarantees_ofExcept _).bind (fun _ =>
    (guarantees_required _ _).bind (fun _ => (guarantees_read kept.refl _).bind (fun _ =>
    (guarantees_refuseIf _ _).bind (fun _ => tenant.bind (fun _ => (guarantees_ofExcept _).bind (fun _ =>
    (guarantees_refuseIf _ _).bind (fun _ => (guarantees_ofExcept _).bind (fun _ =>
    (guarantees_refuseIf _ _).bind (fun _ => (guarantees_ofExcept _).bind (fun _ =>
    (guarantees_refuseIf _ _).bind (fun _ => (guarantees_ofExcept _).bind (fun _ =>
    guarantees_refuseIf _ _)))))))))))))

variable {env : MintEnv} (kept : Kept env.issue.vaidId rel) (seed : VaidSeed) (pop : Option MintPop)

include kept

theorem Kept.issueRoot : (issueRoot env seed pop : Call L R A Dict).Guarantees rel := by
  unfold MintService.issueRoot
  cases seed.publicKeyDer with
  | none => exact kept.issue _ _ _
  | some key => exact (kept.verifyPopAtMint _ _ _ _).bind (fun _ => kept.issue _ _ _)

theorem Kept.mintRoot : (mintRoot env seed pop : Call L R A Dict).Guarantees rel :=
  (guarantees_refuseIf _ _).bind (fun _ => (guarantees_ofExcept _).bind (fun _ =>
    (kept.issueRoot seed pop).bind (fun _ => (kept.recordAudit _).bind (fun _ => guarantees_pure _))))

theorem Kept.issueChild (parent : Dict) :
    (issueChild env seed pop parent : Call L R A Dict).Guarantees rel :=
  (guarantees_required _ _).bind (fun _ => (kept.verifyPopAtMint _ _ _ _).bind (fun _ =>
    (guarantees_ofExcept _).bind (fun _ => (kept.issue _ _ _).bind (fun _ =>
    (guarantees_ofExcept _).bind (fun _ => (guarantees_refuseIf _ _).bind (fun _ =>
    guarantees_pure _))))))

theorem Kept.mintChild (parent : Option Dict) :
    (mintChild env seed parent pop : Call L R A MintChildResponse).Guarantees rel :=
  (guarantees_refuseIf _ _).bind (fun _ => (guarantees_required _ _).bind (fun parent =>
    (kept.authorizeChild _ _ parent).bind (fun _ => (kept.issueChild seed pop parent).bind (fun _ =>
    (guarantees_ofExcept _).bind (fun _ => (guarantees_ofExcept _).bind (fun _ =>
    (guarantees_ofExcept _).bind (fun _ => (kept.recordAudit _).bind (fun _ => guarantees_pure _))))))))

end Guarantees

end Issuing

end VaidSuite.Python.MintService
