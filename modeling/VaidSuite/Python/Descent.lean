import VaidSuite.Python.MintSpec

/-! The line of an issued document: every ancestor delegated what is below it, and the chain
verifies as far as it assembles and lives. -/
namespace VaidSuite.Python

namespace ReferenceIssuer

variable [Libraries] [PrivateKeys] {L R : Type} {issuer : ReferenceIssuer L R}

theorem Minted.thumbprint {v : Presented} (minted : Minted issuer v) :
    Python.kernelKeyThumbprint issuer.kernelPublicKey = .ok v.thumbprint := by
  have steps := (Guards.firstRefusal_eq_accepted_iff _ _
    (by simp [Presented.authenticitySteps])).mp minted.authentic
  simp only [Presented.authenticitySteps, List.forall_mem_cons, decide_eq_true_eq] at steps
  exact steps.2.2.1

theorem Minted.authenticate {v : Presented} (minted : Minted issuer v) {keys : KernelKeyResolver}
    (trusts : ∀ t, Python.kernelKeyThumbprint issuer.kernelPublicKey = .ok t →
      keys (.str t) = .ok (some issuer.kernelPublicKey)) :
    authenticate keys v.dict = .ok true := by
  have text : Encodable v.trustDomain := by
    rw [minted.trustDomain]
    exact (of_isValidTrustDomain issuer.trustDomain.property).1
  rw [Python.authenticate, v.get_thumbprint, trusts _ minted.thumbprint, Raising.ok_bind]
  dsimp only
  rw [verifyVaidAuthenticity, v.verifyVaidAuthenticityGraded_ok _ text, minted.authentic]
  rfl

end ReferenceIssuer

namespace MintService

variable [Libraries] [PrivateKeys] {L R A : Type} [LineageStore L]

omit [PrivateKeys] in
theorem Delegable.parentVaid {s : MintService L R A} {now : UtcDatetime} {seed : VaidSeed}
    {parent : Presented} (h : Delegable s now seed parent.dict) :
    seed.parentVaid = some parent.vaidId := by
  obtain ⟨vaidId, read, bound⟩ := h.lineage
  rw [(parent.required (show ("vaid_id", isUuid) ∈ requiredMembers by simp [requiredMembers])).1,
    parent.get_vaidId] at read
  cases read
  cases named : seed.parentVaid with
  | none =>
    rw [named] at bound
    cases bound
  | some p =>
    rw [named, optional, pyEq_str, beq_iff_eq] at bound
    rw [bound]

theorem Delegable.delegated {s : MintService L R A} {env : MintEnv} {seed : VaidSeed}
    {pop : Option MintPop} {parent child : Presented} {key : Bytes} {p : MintPop} {lineage : L}
    (h : Delegable s env.parentNow seed parent.dict)
    (delegates : Delegates s env seed pop parent.dict child.dict key p lineage)
    (parentMinted : s.issuer.Minted parent)
    (childIssued : s.issuer.IssuedAs env.issue seed.attributes child) :
    Presented.Delegated parent child := by
  have thumbprint := parentMinted.thumbprint.symm.trans childIssued.toMinted.thumbprint
  have sameDomain : parent.trustDomain = child.trustDomain :=
    parentMinted.trustDomain.trans childIssued.trustDomain.symm
  obtain ⟨domain, read, tenant⟩ := h.tenant
  have readDomain : parent.dict.item "trust_domain" = .ok (.str parent.trustDomain) :=
    parent.item_str (by simp [requiredMembers])
  rw [readDomain] at read
  cases read
  have sameTenant : seed.tenantId = child.tenantId := childIssued.tenantId.symm
  rw [sameDomain, sameTenant, parent.tenantAttenuates_ok child, Presented.tenantWithin] at tenant
  have pair := Except.ok.inj tenant
  rw [Bool.and_eq_true, beq_iff_eq, beq_iff_eq] at pair
  have scope := h.scope
  rw [show seed.scopeBoundary = .arr child.scopeBoundary from childIssued.scopeBoundary.symm,
    parent.scopeAttenuates_ok child] at scope
  have caps := h.caps
  rw [show seed.capabilitySet = child.capabilitySet from childIssued.capabilitySet.symm,
    parent.capsAttenuate_ok child] at caps
  obtain ⟨parentTimely, childTimely⟩ := parent.timely_of_expiryAttenuates child delegates.contained
  have expiry := delegates.contained
  rw [Presented.expiryAttenuates_ok parentTimely childTimely] at expiry
  exact ⟨Except.ok.inj thumbprint, sameDomain, pair.2, Except.ok.inj scope, Except.ok.inj caps,
    Except.ok.inj expiry⟩

end MintService

/-- The ancestors of an issued document, nearest first: each of them was issued by this issuer,
delegated what is below it, and the last of them has no parent. -/
structure Descent [Libraries] [PrivateKeys] {L R : Type} (issuer : ReferenceIssuer L R) (maxDepth : Nat)
    (issued : List Dict) (v : Presented) (ancestors : List Presented) : Prop where
  issued : ∀ a ∈ v :: ancestors, a.dict ∈ issued
  minted : ∀ a ∈ v :: ancestors, issuer.Minted a
  linked : (v :: ancestors).IsChain (fun child parent =>
    child.parentVaid = some parent.vaidId ∧ parent.Timely ∧ child.Timely ∧
      Presented.Delegated parent child)
  rooted : ∀ root ∈ (v :: ancestors).getLast?, root.parentVaid = none
  distinct : ((v :: ancestors).map Presented.vaidId).Nodup
  depth : ancestors.length ≤ maxDepth

namespace Descent

variable [Libraries] [PrivateKeys] {L R : Type} {issuer : ReferenceIssuer L R} {maxDepth : Nat}
  {issued : List Dict} {v : Presented} {ancestors : List Presented}

theorem mono {issued' : List Dict} (more : issued ⊆ issued')
    (h : Descent issuer maxDepth issued v ancestors) : Descent issuer maxDepth issued' v ancestors :=
  { h with issued := fun a member => more (h.issued a member) }

theorem root (member : v.dict ∈ issued) (minted : issuer.Minted v) (parentless : v.parentVaid = none) :
    Descent issuer maxDepth issued v [] where
  issued := by simpa using member
  minted := by simpa using minted
  linked := by simp
  rooted := by simpa using parentless
  distinct := by simp
  depth := by simp

theorem child {parent : Presented} (h : Descent issuer maxDepth issued parent ancestors)
    (member : v.dict ∈ issued) (minted : issuer.Minted v) (named : v.parentVaid = some parent.vaidId)
    (parentTimely : parent.Timely) (timely : v.Timely) (delegated : Presented.Delegated parent v)
    (fresh : ∀ a ∈ parent :: ancestors, a.vaidId ≠ v.vaidId) (depth : ancestors.length + 1 ≤ maxDepth) :
    Descent issuer maxDepth issued v (parent :: ancestors) where
  issued := List.forall_mem_cons.mpr ⟨member, h.issued⟩
  minted := List.forall_mem_cons.mpr ⟨minted, h.minted⟩
  linked := List.isChain_cons_cons.mpr ⟨⟨named, parentTimely, timely, delegated⟩, h.linked⟩
  rooted := by simpa using h.rooted
  distinct := by
    rw [List.map_cons, List.nodup_cons]
    refine ⟨fun member => ?_, h.distinct⟩
    obtain ⟨a, listed, same⟩ := List.mem_map.mp member
    exact fresh a listed same
  depth := by simpa using depth

theorem timely (h : Descent issuer maxDepth issued v ancestors) (several : ancestors ≠ []) :
    ∀ a ∈ v :: ancestors, a.Timely := by
  have linked := h.linked
  clear h
  induction ancestors generalizing v with
  | nil => exact absurd rfl several
  | cons parent ancestors ih =>
    obtain ⟨⟨_, parentTimely, childTimely, _⟩, above⟩ := List.isChain_cons_cons.mp linked
    refine List.forall_mem_cons.mpr ⟨childTimely, ?_⟩
    cases ancestors with
    | nil => simpa using parentTimely
    | cons next ancestors => exact ih (List.cons_ne_nil _ _) above

theorem hops (h : Descent issuer maxDepth issued v ancestors) :
    (v :: ancestors).IsChain (fun child parent => ∀ s ∈ parent.hopSteps child, s.1 = true) :=
  h.linked.imp (fun _ _ hop => (Presented.hopSteps_pass_iff _ _).mpr hop.2.2.2)

theorem any_isExpired (h : Descent issuer maxDepth issued v ancestors) (now : UtcDatetime) :
    ancestors.any (fun a => a.isExpired now) = ancestors.head?.any (fun a => a.isExpired now) := by
  cases ancestors with
  | nil => rfl
  | cons parent ancestors =>
    have below := (List.pairwise_cons.mp (List.pairwise_cons.mp (Presented.pairwise_delegated h.hops)).2).1
    have lapses : ∀ a ∈ ancestors, a.isExpired now = true → parent.isExpired now = true := by
      intro a member lapsed
      obtain ⟨upper, lower, ha, hp, order⟩ := (below a member).expiresAt
      simp only [Presented.isExpired, ha, hp, Option.all_some, decide_eq_true_eq] at lapsed ⊢
      exact lt_of_le_of_lt order lapsed
    rw [List.any_cons, List.head?_cons, Option.any_some]
    cases own : parent.isExpired now with
    | true => rfl
    | false =>
      rw [Bool.false_or, List.any_eq_false]
      intro a member lapsed
      rw [lapses a member lapsed] at own
      cases own

end Descent

section Presenting

variable [Libraries] [PrivateKeys] {L R : Type} {issuer : ReferenceIssuer L R} {maxDepth : Nat}
  {issued : List Dict} {v : Presented} {ancestors : List Presented}

omit [PrivateKeys] in
theorem Presented.ext {a b : Presented} (same : a.dict = b.dict) : a = b := by
  obtain ⟨d, contract⟩ := a
  obtain ⟨d', contract'⟩ := b
  dsimp only at same
  subst same
  rfl

omit [PrivateKeys] in
theorem find_of_issued (distinct : (issued.map vaidIdOf).Nodup) {documents : List Presented}
    (listed : ∀ d ∈ documents, d.dict ∈ issued) {a : Presented} (member : a ∈ documents) :
    (presentation v documents).find a.vaidId = some a := by
  refine InsertionMap.lookup_ofList_of_unique member (fun b other same => Presented.ext ?_)
  exact List.inj_on_of_nodup_map distinct (listed b other) (listed a member) same

theorem Descent.isLineage (h : Descent issuer maxDepth issued v ancestors)
    (distinct : (issued.map vaidIdOf).Nodup) {documents : List Presented}
    (listed : ∀ d ∈ documents, d.dict ∈ issued) (presented : ∀ a ∈ ancestors, a ∈ documents)
    (short : ancestors.length < maxLineageDepth) :
    (presentation v documents).IsLineage maxLineageDepth ancestors where
  presented a member := find_of_issued distinct listed (presented a member)
  linked := h.linked.imp (fun _ _ hop => hop.1)
  rooted := h.rooted
  distinct := h.distinct
  short := short

theorem Descent.unassembled (h : Descent issuer maxDepth issued v ancestors)
    (distinct : (issued.map vaidIdOf).Nodup) {documents : List Presented}
    (listed : ∀ d ∈ documents, d.dict ∈ issued) (presented : ∀ a ∈ ancestors, a ∈ documents)
    (long : maxLineageDepth ≤ ancestors.length) :
    (presentation v documents).names maxLineageDepth = none := by
  have path := (presentation v documents).path_of_documents
    (fun a member => find_of_issued distinct listed (presented a member))
    (h.linked.imp (fun _ _ hop => hop.1)) h.rooted
  refine Option.eq_none_iff_forall_ne_some.mpr (fun ids assembled => ?_)
  obtain ⟨others, lineage, -⟩ := (Presentation.names_eq_some_iff _ (by decide) _).mp assembled
  have other := (presentation v documents).path_of_documents lineage.presented lineage.linked
    lineage.rooted
  have lengths := congrArg List.length (path.unique other)
  have short := lineage.short
  rw [List.length_map, List.length_map] at lengths
  rw [List.length_cons, ← lengths] at short
  omega

omit [PrivateKeys] in
/-- What a verifier that accepts the kernel key says of the chain of an issued document. -/
def lineVerdict (ancestors : List Presented) (now : UtcDatetime) : ChainVerification :=
  if maxLineageDepth ≤ ancestors.length then .unverifiable
  else if ancestors.head?.any (fun a => a.isExpired now) then .expired
  else .attenuated

theorem Descent.verifyHops (h : Descent issuer maxDepth issued v ancestors) (keys : KernelKeyResolver)
    (now : UtcDatetime) : verifyHops keys .empty now ((v :: ancestors).reverse.map Presented.dict) =
      .ok .attenuated := by
  cases several : ancestors with
  | nil => rfl
  | cons parent above =>
    have timely := h.timely (by simp [several])
    rw [← several, verifyHops_ok keys now _ (fun a member => timely a (List.mem_reverse.mp member))]
    refine congrArg Except.ok ((Guards.firstRefusal_eq_accepted_iff _ _
      (Presentation.hops_refuse hopSteps_refuse _)).mpr ?_)
    rw [Presentation.hops_pass_iff]
    exact List.isChain_reverse.mpr h.hops

theorem Descent.verifyChainAt (h : Descent issuer maxDepth issued v ancestors)
    (distinct : (issued.map vaidIdOf).Nodup) {documents : List Presented}
    (listed : ∀ d ∈ documents, d.dict ∈ issued) (minted : ∀ d ∈ documents, issuer.Minted d)
    (presented : ∀ a ∈ ancestors, a ∈ documents) {keys : KernelKeyResolver}
    (trusts : ∀ t, kernelKeyThumbprint issuer.kernelPublicKey = .ok t →
      keys (.str t) = .ok (some issuer.kernelPublicKey)) (now : UtcDatetime) :
    Python.verifyChainAt keys v.dict (bundleOf documents) .empty now =
      .ok (lineVerdict ancestors now) := by
  have leafAuthentic := (h.minted v List.mem_cons_self).authenticate trusts
  have allAuthentic : (bundleOf documents).documents.allM (authenticate keys) = .ok true := by
    rw [bundleOf_documents]
    refine (Raising.allM_map_ok (q := fun _ => true) (fun d member =>
      (minted d (mem_of_mem_kept member)).authenticate trusts)).trans ?_
    simp
  unfold Python.verifyChainAt lineVerdict
  simp only [v.requireVaidShape_ok, leafAuthentic, allAuthentic, assembleLineage_ok, Raising.ok_bind]
  by_cases long : maxLineageDepth ≤ ancestors.length
  · rw [h.unassembled distinct listed presented long, if_pos long]
    rfl
  · have lineage := h.isLineage distinct listed presented (Nat.lt_of_not_le long)
    have named : (presentation v documents).names maxLineageDepth =
        some ((v :: ancestors).reverse.map Presented.vaidId) :=
      (Presentation.names_eq_some_iff _ (by decide) _).mpr ⟨ancestors, lineage, rfl⟩
    have docs : ((v :: ancestors).reverse.map Presented.vaidId).mapM (chainDoc v.dict (bundleOf documents)) =
        some ((v :: ancestors).reverse.map Presented.dict) :=
      (mapM_chainDoc v documents _).trans (congrArg (Option.map (List.map Presented.dict))
        ((presentation v documents).mapM_docOf (lineage.docOf _)))
    have lapse : ((v :: ancestors).reverse.map Presented.dict).dropLast.anyM
        (fun d => isExpiredAt d now) = .ok (ancestors.any (fun a => a.isExpired now)) := by
      rw [List.reverse_cons, List.map_append, List.map_singleton, List.dropLast_concat]
      refine (Raising.anyM_map_ok (fun a member => ?_)).trans (congrArg Except.ok List.any_reverse)
      have above := List.mem_reverse.mp member
      exact Presented.isExpiredAt_ok
        (h.timely (List.ne_nil_of_mem above) a (List.mem_cons_of_mem _ above)) now
    simp only [named, docs, lapse, h.any_isExpired, if_neg long, Raising.ok_bind]
    cases ancestors.head?.any (fun a => a.isExpired now) with
    | true => rfl
    | false => exact h.verifyHops keys now

omit [Libraries] [PrivateKeys] in
theorem toPointer_resolveParent (store : InMemoryLineageStore) (i : PyStr) :
    (store.resolveParent i).toPointer = store.entries.lookup i := by
  rw [InMemoryLineageStore.resolveParent]
  cases store.entries.lookup i with
  | none => rfl
  | some parent => cases parent <;> rfl

/-- The recorded lineage of an issued document is its line, while all of it is recorded and the
bound allows it. -/
theorem Descent.assembleLineage_eq_some_iff (h : Descent issuer maxDepth issued v ancestors)
    {store : InMemoryLineageStore} (recorded : ∀ d ∈ issued, ∀ next,
      store.entries.lookup (vaidIdOf d) = some next → next = parentOf d) (chain : List PyStr) :
    Python.assembleLineage v.dict store.resolveParent = .ok (some chain) ↔
      chain = (v :: ancestors).reverse.map Presented.vaidId ∧
        (∀ a ∈ ancestors, store.entries.lookup a.vaidId ≠ none) ∧ ancestors.length < maxLineageDepth := by
  have paths : ∀ path, Ancestry.Path (fun i => store.entries.lookup i) v.parentVaid path ↔
      path = ancestors.map Presented.vaidId ∧ ∀ a ∈ ancestors, store.entries.lookup a.vaidId ≠ none :=
    Ancestry.path_iff_of_linked (h.linked.imp (fun _ _ hop => hop.1)) h.rooted
      (fun a listed => recorded a.dict (h.issued a (List.mem_cons_of_mem _ listed)))
  rw [Python.assembleLineage, v.requireVaidShape_ok, Raising.ok_bind, assembleLoop_eq_climb]
  simp only [toPointer_resolveParent, List.reverse_singleton]
  have climbs := Ancestry.climb_eq_some_iff (fun i => store.entries.lookup i) maxLineageDepth (by decide)
    v.vaidId v.parentVaid chain
  constructor
  · intro assembled
    obtain ⟨path, found, _, short, rfl⟩ := climbs.mp (Except.ok.inj assembled)
    obtain ⟨rfl, known⟩ := (paths path).mp found
    rw [List.length_cons, List.length_map] at short
    exact ⟨by simp, known, short⟩
  · rintro ⟨rfl, known, short⟩
    refine congrArg Except.ok (climbs.mpr ⟨_, (paths _).mpr ⟨rfl, known⟩, h.distinct, ?_, by simp⟩)
    rw [List.length_cons, List.length_map]
    exact short

end Presenting

end VaidSuite.Python
