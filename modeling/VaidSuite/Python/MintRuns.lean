import VaidSuite.ChainAgreement
import VaidSuite.Lib.Runs
import VaidSuite.Python.Descent

/-! Runs of the Python mint over its in-memory stores. Whatever is minted, revoked and forgotten
on the way, what was issued is one forest of delegations. -/
namespace VaidSuite.Python.MintRuns

variable [Libraries] [PrivateKeys] {A : Type} [AuditSink A]

/-- The mint over the default stores. -/
abbrev Service (A : Type) := MintService InMemoryLineageStore InMemoryRevocationList A

/-- The service, and the documents that it has returned. -/
structure State (A : Type) where
  service : Service A
  issued : List Dict

def start (service : Service A) : State A := ⟨service, []⟩

inductive Op where
  | mintRoot (env : MintEnv) (seed : VaidSeed) (pop : Option MintPop)
  | mintChild (env : MintEnv) (seed : VaidSeed) (parent : Option Dict) (pop : Option MintPop)
  | revoke (vaidId : PyStr)
  | clearLineage

/-- The state after a call, with the document if one was returned. -/
def settle {α : Type} (s : State A) (document : α → Dict) : Outcome MintError α × Service A → State A
  | (.ok returned, service) => ⟨service, s.issued ++ [document returned]⟩
  | (.error _, service) => ⟨service, s.issued⟩
  | (.panicked, service) => ⟨service, s.issued⟩

def step (s : State A) : Op → State A
  | .mintRoot env seed pop => settle s id ((MintService.mintRoot env seed pop).run s.service)
  | .mintChild env seed parent pop =>
    settle s MintChildResponse.vaid ((MintService.mintChild env seed parent pop).run s.service)
  | .revoke vaidId => { s with service := { s.service with issuer := s.service.issuer.revoke vaidId } }
  | .clearLineage => { s with service := { s.service with issuer := s.service.issuer.clearLineage } }

omit [Libraries] [PrivateKeys] [AuditSink A] in
/-- A root seed names no parent, a parent is an issued document, and a fresh id is nobody's. -/
def Proper (s : State A) : Op → Prop
  | .mintRoot env seed _ => seed.parentVaid = none ∧ env.issue.vaidId ∉ s.issued.map vaidIdOf
  | .mintChild env _ parent _ =>
    (∀ d, parent = some d → d ∈ s.issued) ∧ env.issue.vaidId ∉ s.issued.map vaidIdOf
  | .revoke _ => True
  | .clearLineage => True

omit [AuditSink A] [Libraries] [PrivateKeys] in
theorem settle_service {α : Type} (document : α → Dict) (result : Outcome MintError α × Service A)
    (s : State A) : (settle s document result).service = result.2 := by
  obtain ⟨outcome, service⟩ := result
  cases outcome <;> rfl

structure Settings (s t : Service A) : Prop where
  kernelKey : t.issuer.kernelKey = s.issuer.kernelKey
  trustDomain : t.issuer.trustDomain = s.issuer.trustDomain
  maxDelegationDepth : t.maxDelegationDepth = s.maxDelegationDepth

/-- What a call that draws `vaidId` keeps to. -/
structure Frame (vaidId : PyStr) (s t : Service A) : Prop extends Settings s t where
  revocation : t.issuer.revocation = s.issuer.revocation
  others : ∀ i, i ≠ vaidId → t.issuer.lineage.entries.lookup i = s.issuer.lineage.entries.lookup i

omit [Libraries] [PrivateKeys] [AuditSink A] in
theorem Settings.trans {s t u : Service A} (h : Settings s t) (h' : Settings t u) : Settings s u where
  kernelKey := h'.kernelKey.trans h.kernelKey
  trustDomain := h'.trustDomain.trans h.trustDomain
  maxDelegationDepth := h'.maxDelegationDepth.trans h.maxDelegationDepth

omit [Libraries] [PrivateKeys] [AuditSink A] in
theorem Frame.refl (vaidId : PyStr) (s : Service A) : Frame vaidId s s :=
  ⟨⟨rfl, rfl, rfl⟩, rfl, fun _ _ => rfl⟩

omit [Libraries] [PrivateKeys] [AuditSink A] in
theorem Frame.trans {vaidId : PyStr} {s t u : Service A} (h : Frame vaidId s t)
    (h' : Frame vaidId t u) : Frame vaidId s u where
  toSettings := h.toSettings.trans h'.toSettings
  revocation := h'.revocation.trans h.revocation
  others i other := (h'.others i other).trans (h.others i other)

omit [Libraries] [PrivateKeys] in
theorem kept_frame (vaidId : PyStr) : MintService.Kept vaidId (Frame vaidId (A := A)) where
  refl := Frame.refl vaidId
  nonce _ _ := ⟨⟨rfl, rfl, rfl⟩, rfl, fun _ _ => rfl⟩
  audit _ _ := ⟨⟨rfl, rfl, rfl⟩, rfl, fun _ _ => rfl⟩
  lineage s parent lineage recorded := by
    cases recorded
    exact ⟨⟨rfl, rfl, rfl⟩, rfl, fun i other => InsertionMap.lookup_set_ne other _ _⟩

/-- What holds of a mint that was started from `first`. -/
structure Inv (first : Service A) (s : State A) : Prop where
  settings : Settings first s.service
  distinct : (s.issued.map vaidIdOf).Nodup
  recorded : ∀ d ∈ s.issued, ∀ next,
    s.service.issuer.lineage.entries.lookup (vaidIdOf d) = some next → next = parentOf d
  descended : ∀ d ∈ s.issued, ∃ v ancestors, v.dict = d ∧
    Descent first.issuer first.maxDelegationDepth.val s.issued v ancestors

variable {first : Service A} {s : State A} {t : Service A} {vaidId : PyStr}

omit [AuditSink A] in
theorem Inv.start (first : Service A) : Inv first (start first) :=
  ⟨⟨rfl, rfl, rfl⟩, List.nodup_nil, by simp [MintRuns.start], by simp [MintRuns.start]⟩

omit [AuditSink A] in
theorem Inv.of_frame (inv : Inv first s) (fresh : vaidId ∉ s.issued.map vaidIdOf)
    (frame : Frame vaidId s.service t) : Inv first ⟨t, s.issued⟩ where
  settings := inv.settings.trans frame.toSettings
  distinct := inv.distinct
  recorded d listed next known := by
    have other : vaidIdOf d ≠ vaidId := fun same => fresh (same ▸ List.mem_map_of_mem listed)
    rw [frame.others _ other] at known
    exact inv.recorded d listed next known
  descended := inv.descended

omit [AuditSink A] in
theorem Inv.issue (inv : Inv first s) (fresh : vaidId ∉ s.issued.map vaidIdOf)
    (frame : Frame vaidId s.service t) {v : Presented} (named : v.vaidId = vaidId)
    (own : t.issuer.lineage.entries.lookup vaidId = some v.parentVaid) {ancestors : List Presented}
    (descent : Descent first.issuer first.maxDelegationDepth.val (s.issued ++ [v.dict]) v ancestors) :
    Inv first ⟨t, s.issued ++ [v.dict]⟩ where
  settings := inv.settings.trans frame.toSettings
  distinct := by
    rw [List.map_append, List.map_singleton]
    refine List.nodup_append.mpr ⟨inv.distinct, List.pairwise_singleton _ _, ?_⟩
    rintro i listed _ last rfl
    rw [List.mem_singleton.mp last] at listed
    exact fresh (named ▸ listed)
  recorded d listed next known := by
    rcases List.mem_append.mp listed with earlier | last
    · exact (inv.of_frame fresh frame).recorded d earlier next known
    · rw [List.mem_singleton] at last
      subst last
      rw [show vaidIdOf v.dict = vaidId from named, own] at known
      exact (Option.some.inj known).symm
  descended d listed := by
    rcases List.mem_append.mp listed with earlier | last
    · obtain ⟨w, above, same, line⟩ := inv.descended d earlier
      exact ⟨w, above, same, line.mono (List.subset_append_left _ _)⟩
    · rw [List.mem_singleton] at last
      exact ⟨v, ancestors, last.symm, descent⟩

omit [AuditSink A] in
theorem Settings.minted_iff (h : Settings first t) (v : Presented) :
    t.issuer.Minted v ↔ first.issuer.Minted v := by
  have key : t.issuer.kernelPublicKey = first.issuer.kernelPublicKey :=
    congrArg PrivateKeys.publicBytesRaw h.kernelKey
  constructor
  · rintro ⟨domain, authentic⟩
    exact ⟨domain.trans (congrArg Subtype.val h.trustDomain), key ▸ authentic⟩
  · rintro ⟨domain, authentic⟩
    exact ⟨domain.trans (congrArg Subtype.val h.trustDomain.symm), key ▸ authentic⟩

omit [AuditSink A] in
theorem Inv.issued (kernel : SigningKey first.issuer.kernelKey) (inv : Inv first s) {u : Service A}
    (same : u.issuer = s.service.issuer) {env : IssueEnv} {seed : VaidSeed} {key : Bytes}
    {notAfter : PyValue} {d : Dict} {lineage : InMemoryLineageStore}
    (issued : MintService.Issued u env seed.attributes key notAfter d lineage)
    (boundary : isWellFormedScopeBoundary seed.scopeBoundary = true)
    (parent : ∀ p, seed.parentVaid = some p → isUuidText p = true) :
    ∃ v : Presented, v.dict = d ∧ s.service.issuer.IssuedAs env seed.attributes v ∧
      first.issuer.Minted v ∧ lineage.entries.lookup env.vaidId = some v.parentVaid := by
  have built := issued.built
  rw [same] at built
  obtain ⟨v, rfl, issuedAs⟩ := ReferenceIssuer.issuedAs_of_buildAndSign
    (inv.settings.kernelKey ▸ kernel) boundary parent built
  have recorded := issued.recorded
  cases recorded
  refine ⟨v, rfl, issuedAs, (inv.settings.minted_iff v).mp issuedAs.toMinted, ?_⟩
  rw [issuedAs.parentVaid]
  exact InsertionMap.lookup_set_self _ _ _

theorem Inv.mintRoot (kernel : SigningKey first.issuer.kernelKey) (inv : Inv first s) {env : MintEnv}
    {seed : VaidSeed} {pop : Option MintPop} (proper : Proper s (.mintRoot env seed pop)) :
    Inv first (step s (.mintRoot env seed pop)) := by
  obtain ⟨parentless, fresh⟩ := proper
  have frame := ((kept_frame (A := A) env.issue.vaidId).mintRoot seed pop).run
    (Frame.refl _) Frame.trans s.service
  rw [step]
  cases ran : (MintService.mintRoot env seed pop).run s.service with
  | mk outcome t =>
    rw [ran] at frame
    cases outcome with
    | error e => exact inv.of_frame fresh frame
    | panicked => exact inv.of_frame fresh frame
    | ok d =>
      obtain ⟨key, u, lineage, audit, shape, _, keyed, issued, _, rfl⟩ :=
        (MintService.run_mintRoot_iff env seed pop d s.service t).mp ran
      have same : u.issuer = s.service.issuer := by
        rcases keyed with ⟨p, _, _, _, _, rfl⟩ | ⟨_, _, rfl⟩ <;> rfl
      obtain ⟨v, rfl, issuedAs, minted, own⟩ := inv.issued kernel same issued shape
        (by simp [parentless])
      exact inv.issue fresh frame issuedAs.vaidId own
        (.root (List.mem_append_right _ (by simp)) minted (issuedAs.parentVaid.trans parentless))

theorem Inv.mintChild (kernel : SigningKey first.issuer.kernelKey) (inv : Inv first s) {env : MintEnv}
    {seed : VaidSeed} {parent : Option Dict} {pop : Option MintPop}
    (proper : Proper s (.mintChild env seed parent pop)) :
    Inv first (step s (.mintChild env seed parent pop)) := by
  obtain ⟨presented, fresh⟩ := proper
  have frame := ((kept_frame (A := A) env.issue.vaidId).mintChild seed pop parent).run
    (Frame.refl _) Frame.trans s.service
  rw [step]
  cases ran : (MintService.mintChild env seed parent pop).run s.service with
  | mk outcome t =>
    rw [ran] at frame
    cases outcome with
    | error e => exact inv.of_frame fresh frame
    | panicked => exact inv.of_frame fresh frame
    | ok response =>
      obtain ⟨d, key, p, lineage, expiresAt, tenant, audit, shape, rfl, delegable, delegates, _, _, _, _,
        _, rfl⟩ := (MintService.run_mintChild_iff env seed parent pop response s.service t).mp ran
      obtain ⟨w, above, rfl, line⟩ := inv.descended d (presented d rfl)
      obtain ⟨notAfter, _, issued⟩ := delegates.issued
      have named := delegable.parentVaid
      have uuid : isUuidText w.vaidId = true := (w.get_uuid (by simp [requiredMembers])).2
      obtain ⟨v, same, issuedAs, minted, own⟩ := inv.issued kernel (u := s.service.afterPop p) rfl issued shape (by
        rintro _ parent
        rw [named] at parent
        cases parent
        exact uuid)
      obtain ⟨chain, assembled, depth⟩ := delegable.depth
      rw [inv.settings.maxDelegationDepth] at depth
      obtain ⟨rfl, _⟩ := (line.assembleLineage_eq_some_iff inv.recorded chain).mp assembled
      rw [← same] at delegates
      have parentMinted := (inv.settings.minted_iff w).mpr (line.minted w List.mem_cons_self)
      have delegated := delegable.delegated delegates parentMinted issuedAs
      obtain ⟨parentTimely, timely⟩ := w.timely_of_expiryAttenuates v delegates.contained
      rw [settle, ← same]
      refine inv.issue fresh frame issuedAs.vaidId own (.child
        (line.mono (List.subset_append_left _ _)) (List.mem_append_right _ (by simp)) minted
        (issuedAs.parentVaid.trans named) parentTimely timely delegated (fun a listed same => ?_) ?_)
      · refine fresh (List.mem_map.mpr ⟨a.dict, line.issued a listed, ?_⟩)
        exact same.trans issuedAs.vaidId
      · simpa using depth

theorem Inv.step (kernel : SigningKey first.issuer.kernelKey) (inv : Inv first s) {op : Op}
    (proper : Proper s op) : Inv first (step s op) := by
  cases op with
  | mintRoot env seed pop => exact inv.mintRoot kernel proper
  | mintChild env seed parent pop => exact inv.mintChild kernel proper
  | revoke vaidId => exact { inv with settings := { inv.settings with } }
  | clearLineage =>
    refine { inv with settings := { inv.settings with }, recorded := ?_ }
    intro _ _ _ known
    simp [MintRuns.step, ReferenceIssuer.clearLineage, InMemoryLineageStore.clear,
      InMemoryLineageStore.new] at known

theorem Inv.run (kernel : SigningKey first.issuer.kernelKey) {ops : List Op}
    (proper : Runs.Along MintRuns.step Proper (MintRuns.start first) ops) :
    Inv first (Runs.run MintRuns.step (MintRuns.start first) ops) :=
  Runs.invariant (Inv first) Proper (fun _ _ inv proper => inv.step kernel proper) (.start first) proper

omit [AuditSink A] in
theorem Inv.lift (inv : Inv first s) {documents : List Dict} (listed : documents ⊆ s.issued) :
    ∃ docs : List Presented, docs.map Presented.dict = documents ∧ ∀ d ∈ docs, first.issuer.Minted d := by
  induction documents with
  | nil => exact ⟨[], rfl, by simp⟩
  | cons d documents ih =>
    obtain ⟨docs, same, minted⟩ := ih (fun e member => listed (List.mem_cons_of_mem _ member))
    obtain ⟨v, ancestors, rfl, line⟩ := inv.descended d (listed List.mem_cons_self)
    exact ⟨v :: docs, congrArg (v.dict :: ·) same,
      List.forall_mem_cons.mpr ⟨line.minted v List.mem_cons_self, minted⟩⟩

/-! ### What the verifiers say of what was issued -/

/-- Chain verification of an issued document, presented with issued documents among which its
ancestors are. -/
theorem issued_chain_verdict (first : Service A) (kernel : SigningKey first.issuer.kernelKey)
    (ops : List Op) (proper : Runs.Along step Proper (start first) ops) (keys : KernelKeyResolver)
    (trusts : ∀ t, kernelKeyThumbprint first.issuer.kernelPublicKey = .ok t →
      keys (.str t) = .ok (some first.issuer.kernelPublicKey)) :
    let s := Runs.run step (start first) ops
    ∀ d ∈ s.issued, ∃ v ancestors, v.dict = d ∧
      Descent first.issuer first.maxDelegationDepth.val s.issued v ancestors ∧
      ∀ documents ⊆ s.issued, (∀ a ∈ ancestors, a.dict ∈ documents) →
        ∃ bundle, PresentedBundle.new documents = .ok bundle ∧
          ∀ now, verifyChainAt keys d bundle .empty now = .ok (lineVerdict ancestors now) := by
  intro s d member
  have inv : Inv first s := Inv.run kernel proper
  obtain ⟨v, ancestors, rfl, line⟩ := inv.descended d member
  refine ⟨v, ancestors, rfl, line, fun documents listed presented => ?_⟩
  obtain ⟨docs, rfl, minted⟩ := inv.lift listed
  refine ⟨bundleOf docs, PresentedBundle.new_ok docs, fun now => ?_⟩
  refine line.verifyChainAt inv.distinct (fun e among => listed (List.mem_map_of_mem among)) minted
    (fun a above => ?_) trusts now
  obtain ⟨b, among, same⟩ := List.mem_map.mp (presented a above)
  exact Presented.ext same ▸ among

omit [Libraries] [PrivateKeys] [AuditSink A] in
theorem checkLineage_eq_notRevoked_iff (list : InMemoryRevocationList) (lineage : List PyStr) :
    list.checkLineage lineage = .notRevoked ↔
      ∃ revoked, list.revoked = some revoked ∧ ∀ i ∈ lineage, i ∉ revoked := by
  rw [InMemoryRevocationList.checkLineage]
  cases list.revoked with
  | none => simp
  | some revoked =>
    by_cases held : lineage.any (· ∈ revoked) = true
    · simp only [held, if_true, reduceCtorEq, Option.some.injEq, exists_eq_left', false_iff]
      intro clean
      obtain ⟨i, listed, inside⟩ := List.any_eq_true.mp held
      exact clean i listed (of_decide_eq_true inside)
    · simp only [held, Bool.false_eq_true, if_false, Option.some.injEq, exists_eq_left', true_iff]
      intro i listed inside
      exact held (List.any_eq_true.mpr ⟨i, listed, decide_eq_true inside⟩)

omit [AuditSink A] [Libraries] [PrivateKeys] in
def Revoked (s : State A) (i : PyStr) : Prop :=
  ∃ revoked, s.service.issuer.revocation.revoked = some revoked ∧ i ∈ revoked

theorem Revoked.step {i : PyStr} (h : Revoked s i) (op : Op) : Revoked (MintRuns.step s op) i := by
  obtain ⟨revoked, store, inside⟩ := h
  cases op with
  | mintRoot env seed pop =>
    have frame := ((kept_frame (A := A) env.issue.vaidId).mintRoot seed pop).run
      (Frame.refl _) Frame.trans s.service
    exact ⟨revoked, by rw [MintRuns.step, settle_service, frame.revocation, store], inside⟩
  | mintChild env seed parent pop =>
    have frame := ((kept_frame (A := A) env.issue.vaidId).mintChild seed pop parent).run
      (Frame.refl _) Frame.trans s.service
    exact ⟨revoked, by rw [MintRuns.step, settle_service, frame.revocation, store], inside⟩
  | revoke vaidId =>
    refine ⟨_, rfl, Finset.mem_insert_of_mem ?_⟩
    rw [store]
    exact inside
  | clearLineage => exact ⟨revoked, store, inside⟩

theorem revoked_of_mem {i : PyStr} {ops : List Op} (member : Op.revoke i ∈ ops) (s : State A) :
    Revoked (Runs.run step s ops) i := by
  have later : ∀ (ops : List Op) (s : State A), Revoked s i → Revoked (Runs.run step s ops) i := by
    intro ops
    induction ops with
    | nil => exact fun s h => h
    | cons op ops ih => exact fun s h => ih _ (h.step op)
  induction ops generalizing s with
  | nil => cases member
  | cons op ops ih =>
    rcases List.mem_cons.mp member with rfl | member
    · exact later ops _ ⟨_, rfl, Finset.mem_insert_self _ _⟩
    · exact ih member _

theorem not_revoked {ops : List Op} {s : State A} {lineage : List PyStr}
    (vouched : (Runs.run step s ops).service.issuer.revocation.checkLineage lineage = .notRevoked) :
    ∀ i ∈ lineage, Op.revoke i ∉ ops := by
  intro i listed revocation
  obtain ⟨revoked, store, clean⟩ := (checkLineage_eq_notRevoked_iff _ _).mp vouched
  obtain ⟨revoked', store', inside⟩ := revoked_of_mem revocation s
  cases store.symm.trans store'
  exact clean i listed inside

/-- The issuer's own verifier on an issued document. What it accepts was never revoked, nor was
any ancestor, and any other verifier accepts the chain. -/
theorem issued_verifyVaid_iff (first : Service A) (kernel : SigningKey first.issuer.kernelKey)
    (ops : List Op) (proper : Runs.Along step Proper (start first) ops) :
    let s := Runs.run step (start first) ops
    ∀ d ∈ s.issued, ∃ v ancestors, v.dict = d ∧
      Descent first.issuer first.maxDelegationDepth.val s.issued v ancestors ∧
      (∀ now, s.service.issuer.verifyVaid d now = .ok true ↔
        isExpiredAt d now = .ok false ∧ ancestors.length < maxLineageDepth ∧
        (∀ a ∈ ancestors, s.service.issuer.lineage.entries.lookup a.vaidId ≠ none) ∧
        ∃ revoked, s.service.issuer.revocation.revoked = some revoked ∧
          ∀ a ∈ v :: ancestors, a.vaidId ∉ revoked) ∧
      ∀ now, s.service.issuer.verifyVaid d now = .ok true →
        lineVerdict ancestors now = .attenuated ∧ ∀ a ∈ v :: ancestors, Op.revoke a.vaidId ∉ ops := by
  intro s d member
  have inv : Inv first s := Inv.run kernel proper
  obtain ⟨v, ancestors, rfl, line⟩ := inv.descended d member
  have minted := (inv.settings.minted_iff v).mpr (line.minted v List.mem_cons_self)
  have exact_ : ∀ now, s.service.issuer.verifyVaid v.dict now = .ok true ↔
      isExpiredAt v.dict now = .ok false ∧ ancestors.length < maxLineageDepth ∧
      (∀ a ∈ ancestors, s.service.issuer.lineage.entries.lookup a.vaidId ≠ none) ∧
      ∃ revoked, s.service.issuer.revocation.revoked = some revoked ∧
        ∀ a ∈ v :: ancestors, a.vaidId ∉ revoked := by
    intro now
    rw [minted.verifyVaid_iff now]
    refine and_congr_right (fun _ => ?_)
    constructor
    · rintro ⟨lineage, assembled, vouched⟩
      obtain ⟨rfl, known, short⟩ := (line.assembleLineage_eq_some_iff inv.recorded lineage).mp assembled
      obtain ⟨revoked, store, clean⟩ := (checkLineage_eq_notRevoked_iff _ _).mp vouched
      refine ⟨short, known, revoked, store, fun a listed => clean _ ?_⟩
      exact List.mem_map_of_mem (List.mem_reverse.mpr listed)
    · rintro ⟨short, known, revoked, store, clean⟩
      refine ⟨_, (line.assembleLineage_eq_some_iff inv.recorded _).mpr ⟨rfl, known, short⟩,
        (checkLineage_eq_notRevoked_iff _ _).mpr ⟨revoked, store, fun i listed => ?_⟩⟩
      obtain ⟨a, above, rfl⟩ := List.mem_map.mp listed
      exact clean a (List.mem_reverse.mp above)
  refine ⟨v, ancestors, rfl, line, exact_, fun now accepted => ?_⟩
  obtain ⟨alive, short, _, revoked, store, clean⟩ := (exact_ now).mp accepted
  constructor
  · have parentAlive : ancestors.head?.any (fun a => a.isExpired now) = false := by
      cases ancestors with
      | nil => rfl
      | cons parent above =>
        obtain ⟨⟨_, _, timely, delegated⟩, _⟩ := List.isChain_cons_cons.mp line.linked
        obtain ⟨upper, lower, hp, hv, order⟩ := delegated.expiresAt
        have own : v.isExpired now = false := by
          rw [Presented.isExpiredAt_ok timely] at alive
          exact Except.ok.inj alive
        simp only [Presented.isExpired, hv, Option.all_some, decide_eq_false_iff_not, not_lt] at own
        simp only [List.head?_cons, Option.any_some, Presented.isExpired, hp, Option.all_some,
          decide_eq_false_iff_not, not_lt]
        exact own.trans order
    rw [lineVerdict, if_neg (Nat.not_le.mpr short), parentAlive]
    rfl
  · intro a listed
    refine not_revoked ((checkLineage_eq_notRevoked_iff _ ((v :: ancestors).map Presented.vaidId)).mpr
      ⟨revoked, store, ?_⟩) a.vaidId (List.mem_map_of_mem listed)
    exact List.forall_mem_map.mpr clean

end MintRuns

namespace MintRuns.Example

/-- Hashing to one byte, one signature that verifies, and a proof of possession that was made at the
start of 2030. -/
@[reducible] def lineLibraries : Libraries :=
  { chainLibraries with
    sha256 := fun _ => [0xab]
    ed25519Verify := fun key signature _ => key.length == 32 && signature == [1]
    strptime := fun s =>
      if s = py "2030-01-01T00:00:00Z" then some ⟨64029052800000000, by decide⟩ else none }

@[reducible] def linePrivateKeys : PrivateKeys where
  publicBytesRaw seed := seed
  sign _ _ := [1]

attribute [local instance] lineLibraries linePrivateKeys

def lineService : Service InMemoryAudit :=
  .new (.assumingNothingRevoked (.new (List.replicate 32 0) 1 ⟨py "vaid.acme.com", by decide +kernel⟩))
    ⟨[]⟩ defaultMaxDelegationDepth

theorem lineKey : SigningKey lineService.issuer.kernelKey := ⟨rfl, fun _ => rfl⟩

def lineEnv (d : Fin 16) : MintEnv where
  authz := permitAll
  popNow := ⟨64029052800000000, by decide⟩
  parentNow := ⟨64029052800000000, by decide⟩
  issue := ⟨⟨List.replicate 31 0 ++ [d], rfl⟩, ⟨64029052800000000, by decide⟩, []⟩

def rootSeed : VaidSeed where
  agentClass := []
  version := []
  tenantId := py "acme"
  parentVaid := none
  scopeBoundary := .arr []
  capabilitySet := [py "read"]
  publicKeyDer := none

def childSeed : VaidSeed :=
  { rootSeed with
    parentVaid := some (lineEnv 1).issue.vaidId
    publicKeyDer := some (List.replicate 32 0) }

def mintsRoot : Op := .mintRoot (lineEnv 1) rootSeed none

/-- The child is delegated by the root that the first call has returned. -/
def mintsChild : Op :=
  .mintChild (lineEnv 2) childSeed (step (start lineService) mintsRoot).issued.head?
    (some ⟨[], py "2030-01-01T00:00:00Z", [1]⟩)

theorem lineProper : Runs.Along step Proper (start lineService) [mintsRoot, mintsChild] :=
  .cons ⟨rfl, List.not_mem_nil⟩
    (.cons ⟨fun _ first => List.mem_of_head? first, by decide +kernel⟩ .nil)

/-- `SingleKernelKey` of the issuer. -/
def lineKeys : KernelKeyResolver :=
  Mcp.singleKernelKey (thumbprintUriPrefix ++ py "qw") lineService.issuer.kernelPublicKey

theorem lineTrusts (t : PyStr) (named : kernelKeyThumbprint lineService.issuer.kernelPublicKey = .ok t) :
    lineKeys (.str t) = .ok (some lineService.issuer.kernelPublicKey) := by
  have same : thumbprintUriPrefix ++ py "qw" = t := Except.ok.inj named
  rw [lineKeys, Mcp.singleKernelKey, same]
  simp

theorem line_issued : (Runs.run step (start lineService) [mintsRoot, mintsChild]).issued.map
    (fun d => (parentOf d).isSome) = [false, true] := by
  decide +kernel

theorem issued_chain_verdict_child :
    let s := Runs.run step (start lineService) [mintsRoot, mintsChild]
    s.issued.map (fun d => (parentOf d).isSome) = [false, true] ∧
      ∀ d ∈ s.issued, ∃ v ancestors, v.dict = d ∧
        Descent lineService.issuer 1 s.issued v ancestors ∧
        ∀ documents ⊆ s.issued, (∀ a ∈ ancestors, a.dict ∈ documents) →
          ∃ bundle, PresentedBundle.new documents = .ok bundle ∧
            ∀ now, verifyChainAt lineKeys d bundle .empty now = .ok (lineVerdict ancestors now) :=
  ⟨line_issued,
    issued_chain_verdict lineService lineKey [mintsRoot, mintsChild] lineProper lineKeys lineTrusts⟩

theorem issued_verifyVaid_iff_child :
    let s := Runs.run step (start lineService) [mintsRoot, mintsChild]
    s.issued.map (fun d => (parentOf d).isSome) = [false, true] ∧
      ∀ d ∈ s.issued, ∃ v ancestors, v.dict = d ∧
        Descent lineService.issuer 1 s.issued v ancestors ∧
        (∀ now, s.service.issuer.verifyVaid d now = .ok true ↔
          isExpiredAt d now = .ok false ∧ ancestors.length < maxLineageDepth ∧
          (∀ a ∈ ancestors, s.service.issuer.lineage.entries.lookup a.vaidId ≠ none) ∧
          ∃ revoked, s.service.issuer.revocation.revoked = some revoked ∧
            ∀ a ∈ v :: ancestors, a.vaidId ∉ revoked) ∧
        ∀ now, s.service.issuer.verifyVaid d now = .ok true →
          lineVerdict ancestors now = .attenuated ∧
            ∀ a ∈ v :: ancestors, Op.revoke a.vaidId ∉ [mintsRoot, mintsChild] :=
  ⟨line_issued, issued_verifyVaid_iff lineService lineKey [mintsRoot, mintsChild] lineProper⟩

end MintRuns.Example

end VaidSuite.Python
