import VaidSuite.Lib.Presentation
import VaidSuite.Python.Presented

/-! What chain verification without attestations decides about documents that satisfy
the contract: the same ordered checks, with nothing left that could raise. -/
namespace VaidSuite.Python

open Guards (firstRefusal)

variable [Libraries]

namespace Presented

/-- Scope containment. A boundary that cannot be read contains and is contained in none. -/
def scopeWithin (parent child : Presented) : Bool :=
  match parent.claimed, child.claimed with
  | some ps, some cs => Containment.attenuates prefixContains ps cs
  | _, _ => false

def capsWithin (parent child : Presented) : Bool :=
  child.capabilitySet.all (fun c => parent.capabilitySet.contains c)

def tenantWithin (parent child : Presented) : Bool :=
  parent.trustDomain == child.trustDomain && parent.tenantId == child.tenantId

def expiryWithin (parent child : Presented) : Bool :=
  match parent.expiresAt, child.expiresAt with
  | some p, some c => decide (c ≤ p)
  | _, _ => false

/-- The checks of one hop. Without attestations, the last refuses two kernel keys. -/
def hopSteps (parent child : Presented) : List (Bool × ChainVerification) :=
  let sameKey := parent.thumbprint == child.thumbprint
  [(!sameKey || parent.tenantWithin child, .notAttenuated),
    (parent.scopeWithin child, .notAttenuated),
    (parent.capsWithin child, .notAttenuated),
    (parent.expiryWithin child, .notAttenuated),
    (sameKey, .inauthentic)]

variable (parent child : Presented)

theorem item_scopeBoundary : parent.dict.item "scope_boundary" = .ok (.arr parent.scopeBoundary) := by
  rw [(parent.required (show ("scope_boundary", isWellFormedScopeBoundary) ∈ requiredMembers by
    simp [requiredMembers])).1, parent.get_scopeBoundary]

theorem item_capabilitySet :
    parent.dict.item "capability_set" = .ok (.arr (parent.capabilitySet.map .str)) := by
  rw [(parent.required (show ("capability_set", isStrList) ∈ requiredMembers by
    simp [requiredMembers])).1, parent.get_capabilitySet]

theorem scopeAttenuates_ok :
    scopeAttenuates parent.dict (.arr child.scopeBoundary) = .ok (parent.scopeWithin child) := by
  rw [scopeAttenuates, parent.item_scopeBoundary, Raising.ok_bind, scopeAttenuatesWithin_arr]
  rfl

theorem capsAttenuate_ok : capsAttenuate parent.dict (.arr (child.capabilitySet.map .str)) =
    .ok (parent.capsWithin child) := by
  have one : ∀ c ∈ child.capabilitySet, contains (.arr (parent.capabilitySet.map .str)) (.str c) =
      .ok (parent.capabilitySet.contains c) := by
    intro c _
    simp only [contains, List.any_map, Function.comp_def, pyEq_str, List.contains_eq_any_beq]
  rw [capsAttenuate, parent.item_capabilitySet, Raising.ok_bind, capsAttenuateWithin, iter,
    Raising.ok_bind, Raising.allM_map_ok one, capsWithin]

theorem tenantAttenuates_ok :
    tenantAttenuates parent.dict (.str child.trustDomain) (.str child.tenantId) =
      .ok (parent.tenantWithin child) := by
  have domain : parent.dict.item "trust_domain" = .ok (.str parent.trustDomain) :=
    parent.item_str (by simp [requiredMembers])
  have tenant : parent.dict.item "tenant_id" = .ok (.str parent.tenantId) :=
    parent.item_str (by simp [requiredMembers])
  rw [tenantAttenuates, domain, tenant, tenantWithin]
  simp only [Raising.ok_bind, pyEq_str]
  cases parent.trustDomain == child.trustDomain <;> rfl

variable {parent child} in
theorem expiryAttenuates_ok (parentTimely : parent.Timely) (childTimely : child.Timely) :
    expiryAttenuates parent.dict (child.dict.get "expires_at") =
      .ok (parent.expiryWithin child) := by
  rw [expiryAttenuates, parentTimely, childTimely, expiryWithin]
  cases parent.expiresAt <;> cases child.expiresAt <;> rfl

theorem timely_of_expiryAttenuates {holds : Bool}
    (decided : expiryAttenuates parent.dict (child.dict.get "expires_at") = .ok holds) :
    parent.Timely ∧ child.Timely := by
  unfold expiryAttenuates at decided
  cases hp : parseRfc3339 (parent.dict.get "expires_at") with
  | error e =>
    rw [hp] at decided
    cases decided
  | ok p =>
    cases hc : parseRfc3339 (child.dict.get "expires_at") with
    | error e =>
      rw [hp, hc] at decided
      cases decided
    | ok c => exact ⟨parent.timely_of_parse hp, child.timely_of_parse hc⟩

theorem verifyHop_eq (keys : KernelKeyResolver) (now : UtcDatetime) :
    verifyHop keys .empty now parent.dict child.dict =
      if parent.thumbprint == child.thumbprint && !parent.tenantWithin child then .ok .notAttenuated
      else if !parent.scopeWithin child then .ok .notAttenuated
      else if !parent.capsWithin child then .ok .notAttenuated
      else expiryAttenuates parent.dict (child.dict.get "expires_at") >>= fun holds =>
        if !holds then .ok .notAttenuated
        else if parent.thumbprint == child.thumbprint then .ok .attenuated
        else .ok .inauthentic := by
  have thumbprints : ∀ d : Presented, d.dict.item "kernel_key_thumbprint" = .ok (.str d.thumbprint) :=
    fun d => d.item_str (by simp [requiredMembers])
  have domain : child.dict.item "trust_domain" = .ok (.str child.trustDomain) :=
    child.item_str (by simp [requiredMembers])
  have tenant : child.dict.item "tenant_id" = .ok (.str child.tenantId) :=
    child.item_str (by simp [requiredMembers])
  have ids : ∀ d : Presented, d.dict.item "vaid_id" = .ok (.str d.vaidId) := by
    intro d
    rw [(d.required (show ("vaid_id", isUuid) ∈ requiredMembers by simp [requiredMembers])).1,
      d.get_vaidId]
  unfold verifyHop
  simp only [thumbprints, domain, tenant, ids, child.item_scopeBoundary, child.item_capabilitySet,
    scopeAttenuates_ok, capsAttenuate_ok, tenantAttenuates_ok, pyEq_str, Raising.ok_bind,
    AttestationBundle.get, AttestationBundle.empty, List.reverse_nil, List.find?_nil]
  cases parent.thumbprint == child.thumbprint <;> cases parent.tenantWithin child <;>
    cases parent.scopeWithin child <;> cases parent.capsWithin child <;> rfl

variable {parent child} in
theorem verifyHop_ok (keys : KernelKeyResolver) (now : UtcDatetime) (parentTimely : parent.Timely)
    (childTimely : child.Timely) : verifyHop keys .empty now parent.dict child.dict =
      .ok (firstRefusal .attenuated (parent.hopSteps child)) := by
  rw [verifyHop_eq, expiryAttenuates_ok parentTimely childTimely, hopSteps]
  cases parent.thumbprint == child.thumbprint <;> cases parent.tenantWithin child <;>
    cases parent.scopeWithin child <;> cases parent.capsWithin child <;>
    cases parent.expiryWithin child <;> rfl

theorem timely_of_hop {keys : KernelKeyResolver} {now : UtcDatetime}
    (held : verifyHop keys .empty now parent.dict child.dict = .ok .attenuated) :
    parent.Timely ∧ child.Timely := by
  rw [verifyHop_eq] at held
  split at held
  · cases held
  · split at held
    · cases held
    · split at held
      · cases held
      · cases decided : expiryAttenuates parent.dict (child.dict.get "expires_at") with
        | ok holds => exact parent.timely_of_expiryAttenuates child decided
        | error e =>
          rw [decided] at held
          cases held

/-- Authority delegated under one key: what a hop without attestations must satisfy. -/
structure Delegated (parent child : Presented) : Prop where
  thumbprint : parent.thumbprint = child.thumbprint
  trustDomain : parent.trustDomain = child.trustDomain
  tenantId : parent.tenantId = child.tenantId
  scope : parent.scopeWithin child = true
  caps : parent.capsWithin child = true
  expiry : parent.expiryWithin child = true

theorem hopSteps_pass_iff : (∀ s ∈ parent.hopSteps child, s.1 = true) ↔ Delegated parent child := by
  simp only [hopSteps, List.forall_mem_cons, tenantWithin, Bool.or_eq_true, Bool.not_eq_true',
    beq_eq_false_iff_ne, Bool.and_eq_true, beq_iff_eq]
  constructor
  · rintro ⟨tenant, scope, caps, expiry, sameKey, _⟩
    obtain ⟨domain, tenant⟩ := tenant.resolve_left (not_not.mpr sameKey)
    exact ⟨sameKey, domain, tenant, scope, caps, expiry⟩
  · intro h
    exact ⟨.inr ⟨h.trustDomain, h.tenantId⟩, h.scope, h.caps, h.expiry, h.thumbprint, by simp⟩

theorem scopeWithin_iff : parent.scopeWithin child = true ↔ ∃ ps cs, parent.claimed = some ps ∧
    child.claimed = some cs ∧ Containment.attenuates prefixContains ps cs = true := by
  unfold scopeWithin
  cases parent.claimed <;> cases child.claimed <;> simp

theorem capsWithin_iff : parent.capsWithin child = true ↔
    child.capabilitySet ⊆ parent.capabilitySet := by
  simp [capsWithin, List.subset_def]

theorem expiryWithin_iff : parent.expiryWithin child = true ↔ ∃ p c, parent.expiresAt = some p ∧
    child.expiresAt = some c ∧ c ≤ p := by
  unfold expiryWithin
  cases parent.expiresAt <;> cases child.expiresAt <;> simp

namespace Delegated

variable {a b c : Presented}

theorem trans (hab : Delegated a b) (hbc : Delegated b c) : Delegated a c where
  thumbprint := hab.thumbprint.trans hbc.thumbprint
  trustDomain := hab.trustDomain.trans hbc.trustDomain
  tenantId := hab.tenantId.trans hbc.tenantId
  scope := by
    obtain ⟨ps, qs, ha, hb, upper⟩ := (scopeWithin_iff a b).mp hab.scope
    obtain ⟨qs', cs, hb', hc, lower⟩ := (scopeWithin_iff b c).mp hbc.scope
    cases hb.symm.trans hb'
    exact (scopeWithin_iff a c).mpr
      ⟨ps, cs, ha, hc, Containment.attenuates_trans prefixContains_trans upper lower⟩
  caps := (capsWithin_iff a c).mpr
    (fun _ held => (capsWithin_iff a b).mp hab.caps ((capsWithin_iff b c).mp hbc.caps held))
  expiry := by
    obtain ⟨ta, tb, ha, hb, upper⟩ := (expiryWithin_iff a b).mp hab.expiry
    obtain ⟨tb', tc, hb', hc, lower⟩ := (expiryWithin_iff b c).mp hbc.expiry
    cases hb.symm.trans hb'
    exact (expiryWithin_iff a c).mpr ⟨ta, tc, ha, hc, lower.trans upper⟩

theorem inScope (h : Delegated a b) {resource : PyStr} (held : b.inScope resource = true) :
    a.inScope resource = true := by
  obtain ⟨ps, cs, ha, hb, attenuates⟩ := (scopeWithin_iff a b).mp h.scope
  rw [Presented.claimed] at ha hb
  rw [Presented.inScope, scopeContains_eq] at held ⊢
  rw [hb] at held
  rw [ha]
  exact Containment.within_trans prefixContains_trans attenuates held

theorem capabilities (h : Delegated a b) : b.capabilitySet ⊆ a.capabilitySet :=
  (capsWithin_iff a b).mp h.caps

theorem expiresAt (h : Delegated a b) :
    ∃ p c, a.expiresAt = some p ∧ b.expiresAt = some c ∧ c ≤ p :=
  (expiryWithin_iff a b).mp h.expiry

end Delegated

theorem pairwise_delegated {docs : List Presented} (hops : docs.IsChain (fun child parent =>
    ∀ s ∈ parent.hopSteps child, s.1 = true)) :
    docs.Pairwise (fun child ancestor => Delegated ancestor child) := by
  have transitive : Trans (fun child ancestor : Presented => Delegated ancestor child)
      (fun child ancestor => Delegated ancestor child)
      (fun child ancestor => Delegated ancestor child) := ⟨fun hab hbc => hbc.trans hab⟩
  exact List.isChain_iff_pairwise.mp (hops.imp (fun _ _ hop => (hopSteps_pass_iff _ _).mp hop))

end Presented

/-- What the verdict `attenuated` says, of any documents: it was read off this lineage. -/
structure Attenuated (keys : KernelKeyResolver) (leaf : Dict) (bundle : PresentedBundle)
    (now : UtcDatetime) (ids : List PyStr) (docs : List Dict) : Prop where
  shape : requireVaidShape leaf "leaf" = .ok ()
  authentic : ∀ d ∈ leaf :: bundle.documents, authenticate keys d = .ok true
  assembled : assembleLineage leaf bundle.resolveParent = .ok (some ids)
  resolved : ids.mapM (chainDoc leaf bundle) = some docs
  unlapsed : ∀ d ∈ docs.dropLast, isExpiredAt d now = .ok false
  hops : verifyHops keys .empty now docs = .ok .attenuated

theorem of_verifyChainAt {keys : KernelKeyResolver} {leaf : Dict} {bundle : PresentedBundle}
    {now : UtcDatetime} (verdict : verifyChainAt keys leaf bundle .empty now = .ok .attenuated) :
    ∃ ids docs, Attenuated keys leaf bundle now ids docs := by
  obtain ⟨_, shape, verdict⟩ := Raising.of_bind_eq_ok verdict
  obtain ⟨leafHolds, verdict⟩ := Raising.of_unless_eq_ok verdict nofun
  obtain ⟨allHold, verdict⟩ := Raising.of_unless_eq_ok verdict nofun
  obtain ⟨names, assembled, verdict⟩ := Raising.of_bind_eq_ok verdict
  cases names with
  | none => cases verdict
  | some ids =>
    cases resolved : ids.mapM (chainDoc leaf bundle) with
    | none =>
      simp only [resolved] at verdict
      cases verdict
    | some docs =>
      simp only [resolved] at verdict
      obtain ⟨lapsed, lapse, verdict⟩ := Raising.of_bind_eq_ok verdict
      cases lapsed with
      | true => cases verdict
      | false =>
        exact ⟨ids, docs, shape,
          List.forall_mem_cons.mpr ⟨leafHolds, Raising.of_allM_eq_true allHold⟩, assembled,
          resolved, Raising.of_anyM_eq_false lapse, verdict⟩

/-- The leaf among the presented documents. A later document replaces an earlier one of
the same id. -/
def presentation (leaf : Presented) (documents : List Presented) : Presentation Presented PyStr where
  name := Presented.vaidId
  parent := Presented.parentVaid
  leaf := leaf
  find i := (InsertionMap.ofList Presented.vaidId documents).lookup i
  name_of_find found := (InsertionMap.of_lookup_ofList found).1

/-- The presented documents that were not replaced. -/
def kept (documents : List Presented) : List Presented :=
  (InsertionMap.ofList Presented.vaidId documents).map Prod.snd

def bundleOf (documents : List Presented) : PresentedBundle :=
  (InsertionMap.ofList Presented.vaidId documents).map (Prod.map id Presented.dict)

theorem mem_of_mem_kept {documents : List Presented} {d : Presented} (member : d ∈ kept documents) :
    d ∈ documents := by
  obtain ⟨e, inMap, rfl⟩ := List.mem_map.mp member
  exact (InsertionMap.mem_ofList inMap).2

theorem PresentedBundle.new_ok (documents : List Presented) :
    PresentedBundle.new (documents.map Presented.dict) = .ok (bundleOf documents) := by
  have shapes : (documents.map Presented.dict).mapM (fun d => requireVaidShape d "presented document") =
      .ok ((documents.map Presented.dict).map (fun _ => ())) := by
    refine Raising.mapM_ok (fun d member => ?_)
    obtain ⟨e, _, rfl⟩ := List.mem_map.mp member
    exact e.requireVaidShape_ok _
  rw [PresentedBundle.new, shapes]
  exact congrArg Except.ok (InsertionMap.ofList_map Presented.dict (fun _ => rfl) documents)

theorem bundleOf_documents (documents : List Presented) :
    (bundleOf documents).documents = (kept documents).map Presented.dict := by
  simp [PresentedBundle.documents, bundleOf, kept, Function.comp_def]

theorem bundleOf_get (documents : List Presented) (i : PyStr) : (bundleOf documents).get i =
    ((InsertionMap.ofList Presented.vaidId documents).lookup i).map Presented.dict :=
  InsertionMap.lookup_map _ _ _

def ParentResolution.toPointer : ParentResolution → Option (Option PyStr)
  | .root => some none
  | .parent p => some (some p)
  | .unknown => none

omit [Libraries] in
theorem assembleLoop_eq_climb (resolveParent : LineageResolver) (fuel : Nat) (chain : List PyStr)
    (next : Option PyStr) : assembleLoop resolveParent fuel chain next =
      Ancestry.climb (fun i => (resolveParent i).toPointer) maxLineageDepth fuel chain.reverse
        next := by
  induction fuel generalizing chain next with
  | zero => cases next <;> rfl
  | succ fuel ih =>
    cases next with
    | none => rfl
    | some p =>
      simp only [assembleLoop, Ancestry.climb, List.mem_reverse, List.length_reverse]
      split
      · rfl
      · cases h : resolveParent p <;> simp [ParentResolution.toPointer, ih]

structure Presents {D : Type} (p : Presentation D PyStr) (dict : D → Dict) (bundle : PresentedBundle) :
    Prop where
  name : ∀ d, p.name d = vaidIdOf (dict d)
  parent : ∀ d, p.parent d = parentOf (dict d)
  get : ∀ i, bundle.get i = (p.find i).map dict

section Presents

variable {D : Type} {p : Presentation D PyStr} {dict : D → Dict} {bundle : PresentedBundle}

omit [Libraries] in
theorem Presents.assembleLineage (h : Presents p dict bundle)
    (shape : requireVaidShape (dict p.leaf) "leaf" = .ok ()) :
    assembleLineage (dict p.leaf) bundle.resolveParent = .ok (p.names maxLineageDepth) := by
  have pointers : (fun i => (bundle.resolveParent i).toPointer) = p.pointers := by
    funext i
    rw [PresentedBundle.resolveParent, h.get, Presentation.pointers]
    cases p.find i with
    | none => rfl
    | some d =>
      simp only [Option.map_some, h.parent]
      cases parentOf (dict d) <;> rfl
  rw [Python.assembleLineage, shape, Raising.ok_bind, assembleLoop_eq_climb, pointers,
    List.reverse_singleton, ← h.name, ← h.parent]
  rfl

omit [Libraries] in
theorem Presents.chainDocs (h : Presents p dict bundle) (ids : List PyStr) :
    ids.mapM (chainDoc (dict p.leaf) bundle) = (ids.mapM p.docOf).map (List.map dict) := by
  have each : ∀ i, chainDoc (dict p.leaf) bundle i = (p.docOf i).map dict := by
    intro i
    rw [chainDoc, h.get, Presentation.docOf, h.name]
    exact (apply_ite (Option.map dict) (i = vaidIdOf (dict p.leaf)) (some p.leaf) _).symm
  induction ids with
  | nil => rfl
  | cons i ids ih =>
    simp only [List.mapM_cons, each, ih]
    cases p.docOf i with
    | none => rfl
    | some d => cases ids.mapM p.docOf <;> rfl

end Presents

variable (leaf : Presented) (documents : List Presented)

theorem presents : Presents (presentation leaf documents) Presented.dict (bundleOf documents) :=
  ⟨fun _ => rfl, fun _ => rfl, bundleOf_get documents⟩

theorem assembleLineage_ok : assembleLineage leaf.dict (bundleOf documents).resolveParent =
    .ok ((presentation leaf documents).names maxLineageDepth) :=
  (presents leaf documents).assembleLineage (leaf.requireVaidShape_ok _)

theorem mapM_chainDoc (ids : List PyStr) : ids.mapM (chainDoc leaf.dict (bundleOf documents)) =
    (ids.mapM (presentation leaf documents).docOf).map (List.map Presented.dict) :=
  (presents leaf documents).chainDocs ids

/-! ### The verdict on a chain -/

/-- The key accepted for each thumbprint. -/
abbrev Trust := PyStr → Option Bytes

def Presented.isAuthentic (trusted : Trust) (d : Presented) : Bool :=
  (trusted d.thumbprint).any (fun key => d.authenticity key == .valid)

/-- What chain verification asks, without attestations. -/
def chainChecks (trusted : Trust) (now : UtcDatetime) :
    Presentation.Checks Presented ChainVerification where
  authentic := Presented.isAuthentic trusted
  lapsed d := d.isExpired now
  hop := Presented.hopSteps
  inauthentic := .inauthentic
  unverifiable := .unverifiable
  expired := .expired

def chainSteps (trusted : Trust) (now : UtcDatetime) : List (Bool × ChainVerification) :=
  (presentation leaf documents).steps (chainChecks trusted now) (kept documents) maxLineageDepth

theorem hopSteps_refuse (parent child : Presented) :
    ∀ s ∈ parent.hopSteps child, s.2 ≠ .attenuated := by
  simp [Presented.hopSteps]

theorem chainSteps_refuse (trusted : Trust) (now : UtcDatetime) :
    ∀ s ∈ chainSteps leaf documents trusted now, s.2 ≠ .attenuated :=
  Presentation.steps_refuse _ _ _ _ (by simp [chainChecks]) (by simp [chainChecks])
    (by simp [chainChecks]) hopSteps_refuse

theorem authenticate_ok {keys : KernelKeyResolver} {trusted : Trust}
    (resolves : ∀ t, keys (.str t) = .ok (trusted t)) (d : Presented)
    (text : ∀ key, trusted d.thumbprint = some key → Encodable d.trustDomain) :
    authenticate keys d.dict = .ok (d.isAuthentic trusted) := by
  rw [authenticate, d.get_thumbprint, resolves, Presented.isAuthentic, Raising.ok_bind]
  cases found : trusted d.thumbprint with
  | none => rfl
  | some key =>
    dsimp only [Option.any_some]
    rw [verifyVaidAuthenticity, d.verifyVaidAuthenticityGraded_ok key (text key found)]
    rfl

theorem verifyHops_ok (keys : KernelKeyResolver) (now : UtcDatetime) (docs : List Presented)
    (timely : ∀ d ∈ docs, d.Timely) : verifyHops keys .empty now (docs.map Presented.dict) =
      .ok (firstRefusal .attenuated (Presentation.hops Presented.hopSteps docs)) := by
  induction docs with
  | nil => rfl
  | cons parent docs ih =>
    cases docs with
    | nil => rfl
    | cons child docs =>
      have rest := ih (fun d hd => timely d (List.mem_cons_of_mem _ hd))
      have here := Presented.verifyHop_ok keys now (timely parent (by simp)) (timely child (by simp))
      rw [List.map_cons] at rest
      rw [List.map_cons, List.map_cons, verifyHops, here, Raising.ok_bind, rest, Presentation.hops,
        Guards.firstRefusal_append,
        Guards.firstRefusal_then .attenuated
          (firstRefusal .attenuated (Presentation.hops Presented.hopSteps (child :: docs))) _
          (hopSteps_refuse parent child)]
      cases firstRefusal .attenuated (parent.hopSteps child) <;> rfl

theorem verifyHops_cons {keys : KernelKeyResolver} {now : UtcDatetime} {parent child : Dict}
    {docs : List Dict}
    (held : verifyHops keys .empty now (parent :: child :: docs) = .ok .attenuated) :
    verifyHop keys .empty now parent child = .ok .attenuated ∧
      verifyHops keys .empty now (child :: docs) = .ok .attenuated := by
  rw [verifyHops] at held
  cases hop : verifyHop keys .empty now parent child with
  | error e =>
    rw [hop] at held
    cases held
  | ok verdict =>
    rw [hop, Raising.ok_bind] at held
    cases verdict with
    | attenuated => exact ⟨rfl, held⟩
    | _ => cases held

theorem timely_of_hops {keys : KernelKeyResolver} {now : UtcDatetime} {docs : List Presented}
    (held : verifyHops keys .empty now (docs.map Presented.dict) = .ok .attenuated)
    (several : 1 < docs.length) : ∀ d ∈ docs, d.Timely := by
  induction docs with
  | nil => simp
  | cons parent docs ih =>
    cases docs with
    | nil => simp at several
    | cons child docs =>
      obtain ⟨hop, rest⟩ := verifyHops_cons held
      obtain ⟨parentTimely, childTimely⟩ := parent.timely_of_hop child hop
      refine List.forall_mem_cons.mpr ⟨parentTimely, ?_⟩
      cases docs with
      | nil => simpa using childTimely
      | cons next docs => exact ih rest (by simp)

variable {leaf documents}

theorem mem_of_mem_lineage {docs : List Presented}
    (assembled : (presentation leaf documents).lineage maxLineageDepth = some docs) {d : Presented}
    (member : d ∈ docs) : d ∈ leaf :: documents := by
  obtain ⟨ancestors, h, rfl⟩ := (Presentation.lineage_eq_some_iff _ (by decide)).mp assembled
  rcases List.mem_cons.mp (List.mem_reverse.mp member) with rfl | member
  · exact List.mem_cons_self
  · exact List.mem_cons_of_mem _ (InsertionMap.of_lookup_ofList (h.presented d member)).2

/-- On documents that satisfy the contract, an attenuated chain is a lineage of unlapsed
ancestors, each of whom holds what is below it. -/
theorem delegated_of_attenuated {keys : KernelKeyResolver} {now : UtcDatetime} {ids : List PyStr}
    {docs : List Dict} (h : Attenuated keys leaf.dict (bundleOf documents) now ids docs) :
    ∃ ancestors, (presentation leaf documents).IsLineage maxLineageDepth ancestors ∧
      ids = (leaf :: ancestors).reverse.map Presented.vaidId ∧
      docs = (leaf :: ancestors).reverse.map Presented.dict ∧
      (∀ a ∈ ancestors, a.Timely ∧ a.isExpired now = false) ∧
      (leaf :: ancestors).Pairwise (fun child ancestor => Presented.Delegated ancestor child) := by
  have named : (presentation leaf documents).names maxLineageDepth = some ids := by
    have assembled := h.assembled
    rw [assembleLineage_ok] at assembled
    exact Except.ok.inj assembled
  obtain ⟨ancestors, lineage, rfl⟩ := (Presentation.names_eq_some_iff _ (by decide) _).mp named
  have resolved := h.resolved
  rw [mapM_chainDoc] at resolved
  rw [(presentation leaf documents).mapM_docOf (lineage.docOf _)] at resolved
  cases resolved
  refine ⟨ancestors, lineage, rfl, rfl, fun a member => ?_, ?_⟩
  · refine a.of_isExpiredAt (h.unlapsed a.dict ?_)
    rw [List.reverse_cons, List.map_append, List.map_singleton, List.dropLast_concat]
    exact List.mem_map_of_mem (List.mem_reverse.mpr member)
  · cases ancestors with
    | nil => exact List.pairwise_singleton _ _
    | cons a ancestors =>
      have hops := h.hops
      rw [verifyHops_ok keys now _ (timely_of_hops hops (by simp))] at hops
      have refuses : ∀ docs : List Presented, ∀ s ∈ Presentation.hops Presented.hopSteps docs,
          s.2 ≠ ChainVerification.attenuated :=
        Presentation.hops_refuse hopSteps_refuse
      have passes := (Guards.firstRefusal_eq_accepted_iff _ _ (refuses _)).mp (Except.ok.inj hops)
      rw [Presentation.hops_pass_iff] at passes
      exact Presented.pairwise_delegated (List.isChain_reverse.mp passes)

/-- Chain verification without attestations decides by its steps, whatever the
documents, once the expiries on the lineage can be read. -/
theorem verifyChainAt_ok {keys : KernelKeyResolver} {trusted : Trust} (now : UtcDatetime)
    (resolves : ∀ t, keys (.str t) = .ok (trusted t))
    (text : ∀ d ∈ leaf :: documents, ∀ key, trusted d.thumbprint = some key →
      Encodable d.trustDomain)
    (timely : ∀ docs, (presentation leaf documents).lineage maxLineageDepth = some docs →
      ∀ d ∈ docs, d.Timely) :
    verifyChainAt keys leaf.dict (bundleOf documents) .empty now =
      .ok (firstRefusal .attenuated (chainSteps leaf documents trusted now)) := by
  have leafAuthentic := authenticate_ok resolves leaf (text leaf List.mem_cons_self)
  have allAuthentic : (bundleOf documents).documents.allM (authenticate keys) =
      .ok ((kept documents).all (Presented.isAuthentic trusted)) := by
    rw [bundleOf_documents]
    exact Raising.allM_map_ok (fun d member => authenticate_ok resolves d
      (text d (List.mem_cons_of_mem _ (mem_of_mem_kept member))))
  unfold verifyChainAt chainSteps Presentation.steps
  simp only [leaf.requireVaidShape_ok, leafAuthentic, allAuthentic, assembleLineage_ok,
    mapM_chainDoc, Raising.ok_bind]
  change (if _ then _ else _) = Except.ok (firstRefusal _ ((leaf.isAuthentic trusted, _) ::
    ((kept documents).all (Presented.isAuthentic trusted), _) :: _))
  cases leaf.isAuthentic trusted with
  | false => rfl
  | true =>
    cases (kept documents).all (Presented.isAuthentic trusted) with
    | false => rfl
    | true =>
      simp only [Presentation.lineage] at timely ⊢
      cases named : (presentation leaf documents).names maxLineageDepth with
      | none => rfl
      | some ids =>
        simp only [named, Option.bind_some] at timely ⊢
        cases resolved : ids.mapM (presentation leaf documents).docOf with
        | none => rfl
        | some docs =>
          have inTime := timely docs resolved
          have lapse : (docs.map Presented.dict).dropLast.anyM (fun d => isExpiredAt d now) =
              .ok (docs.dropLast.any (fun d => d.isExpired now)) := by
            rw [← List.map_dropLast]
            exact Raising.anyM_map_ok (fun d member =>
              Presented.isExpiredAt_ok (inTime d (List.dropLast_subset docs member)) now)
          simp only [Option.map_some, lapse, verifyHops_ok keys now docs inTime, Raising.ok_bind]
          change (if _ then _ else _) = Except.ok (firstRefusal _
            ((!docs.dropLast.any (fun d => d.isExpired now), _) :: _))
          cases docs.dropLast.any (fun d => d.isExpired now) <;> rfl

end VaidSuite.Python
