import VaidSuite.Lib.Presentation
import VaidSuite.TypeScript.Chain

/-! What chain verification without attestations has established, of any objects, when it
answers `attenuated`, and what time can change about that. -/
namespace VaidSuite.TypeScript

/-- What `requireVaidShape` asks of an object. -/
def hasShape (document : Members) : Bool :=
  match document.get "vaid_id" with
  | .str (_ :: _) =>
    match document.get "parent_vaid" with
    | .null | .undefined | .str _ => true
    | _ => false
  | _ => false

theorem requireVaidShape_ok {document : Members} (shape : hasShape document = true)
    (context : String) : requireVaidShape (.obj document) context = .ok document := by
  unfold hasShape at shape
  unfold requireVaidShape
  rcases vaidId : document.get "vaid_id" with _ | _ | _ | _ | (_ | ⟨c, s⟩) | _ | _ <;>
    simp only [vaidId, Bool.false_eq_true] at shape ⊢
  cases parent : document.get "parent_vaid" <;> simp only [parent, Bool.false_eq_true] at shape ⊢

theorem of_requireVaidShape {document shaped : Members} {context : String}
    (returned : requireVaidShape (.obj document) context = .ok shaped) :
    hasShape document = true ∧ document = shaped := by
  unfold requireVaidShape at returned
  unfold hasShape
  rcases vaidId : document.get "vaid_id" with _ | _ | _ | _ | (_ | ⟨c, s⟩) | _ | _ <;>
    simp only [vaidId, reduceCtorEq] at returned
  cases parent : document.get "parent_vaid" <;> simp_all

def bundleOf (documents : List Members) : PresentedBundle := InsertionMap.ofList vaidIdOf documents

theorem PresentedBundle.new_ok {documents : List Members}
    (shapes : ∀ d ∈ documents, hasShape d = true) :
    PresentedBundle.new (documents.map .obj) = .ok (bundleOf documents) := by
  have each : (documents.map JsValue.obj).mapM (fun d => requireVaidShape d "presented document") =
      .ok documents := by
    have shaped := Raising.mapM_ok (g := id)
      (fun d member => requireVaidShape_ok (shapes d member) "presented document")
    rw [List.map_id] at shaped
    rw [List.mapM_map]
    exact shaped
  rw [PresentedBundle.new, each]
  rfl

theorem PresentedBundle.of_new {documents : List Members} {bundle : PresentedBundle}
    (returned : PresentedBundle.new (documents.map .obj) = .ok bundle) :
    bundle = bundleOf documents ∧ ∀ d ∈ documents, hasShape d = true := by
  obtain ⟨shaped, each, built⟩ := Raising.of_bind_eq_ok returned
  rw [List.mapM_map] at each
  obtain ⟨rfl, shapes⟩ :=
    Raising.of_mapM_eq_ok (g := id) (fun d e returned => (of_requireVaidShape returned).2.symm) each
  cases built
  rw [List.map_id]
  exact ⟨rfl, fun d member => (of_requireVaidShape (shapes d member)).1⟩

/-- The leaf among the presented documents. A later document replaces an earlier one of
the same id. -/
def presentation (leaf : Members) (documents : List Members) : Presentation Members VaidId where
  name := vaidIdOf
  parent := parentOf
  leaf := leaf
  find i := (bundleOf documents).lookup i
  name_of_find found := (InsertionMap.of_lookup_ofList found).1

def ParentResolution.toPointer : ParentResolution → Option (Option VaidId)
  | .root => some none
  | .parent p => some (some p)
  | .unknown => none

theorem assembleLoop_eq_climb (resolveParent : LineageResolver) (fuel : Nat) (chain : List VaidId)
    (next : Option VaidId) : assembleLoop resolveParent fuel chain next =
      Ancestry.climb (fun i => (resolveParent i).toPointer) maxLineageDepth fuel chain.reverse
        next := by
  induction fuel generalizing chain next with
  | zero => cases next <;> rfl
  | succ fuel ih =>
    cases next with
    | none => rfl
    | some p =>
      simp only [assembleLoop, Ancestry.climb, List.mem_reverse, List.length_reverse]
      split
      · rfl
      · cases h : resolveParent p <;> simp [ParentResolution.toPointer, ih]

variable {leaf : Members} {documents : List Members}

theorem assembleLineage_ok (shape : hasShape leaf = true) :
    assembleLineage (.obj leaf) (bundleOf documents).resolveParent =
      .ok ((presentation leaf documents).names maxLineageDepth) := by
  have pointers : (fun i => ((bundleOf documents).resolveParent i).toPointer) =
      (presentation leaf documents).pointers := by
    funext i
    have pointer : (presentation leaf documents).pointers i =
        ((bundleOf documents).lookup i).map parentOf := rfl
    rw [pointer, PresentedBundle.resolveParent, PresentedBundle.get]
    cases (bundleOf documents).lookup i with
    | none => rfl
    | some d =>
      dsimp only [Option.map_some]
      cases parentOf d <;> rfl
  rw [assembleLineage, requireVaidShape_ok shape, Raising.ok_bind, assembleLoop_eq_climb, pointers]
  rfl

theorem chainDoc_eq : chainDoc leaf (bundleOf documents) = (presentation leaf documents).docOf := rfl

/-- The documents from the root to the leaf. -/
def lineageOf (leaf : Members) (documents : List Members) : Option (List Members) :=
  (presentation leaf documents).lineage maxLineageDepth

/-- The leaf is on its own lineage, and with an ancestor unless its parent is `null`. -/
theorem lineageOf_cases {docs : List Members} (assembled : lineageOf leaf documents = some docs) :
    (parentOf leaf = none ∧ docs = [leaf]) ∨
      ∃ parent ancestors, parentOf leaf ≠ none ∧ docs = (leaf :: parent :: ancestors).reverse := by
  obtain ⟨ancestors, h, rfl⟩ := (Presentation.lineage_eq_some_iff _ (by decide)).mp assembled
  cases ancestors with
  | nil => exact .inl ⟨h.rooted leaf (by simp [presentation]), rfl⟩
  | cons parent ancestors =>
    have named : parentOf leaf = some (vaidIdOf parent) := (List.isChain_cons_cons.mp h.linked).1
    exact .inr ⟨parent, ancestors, by simp [named], rfl⟩

variable [Runtime]

/-- What the verdict `attenuated` says: it was read off this lineage. -/
structure Attenuated (keys : KernelKeyResolver) (leaf : Members) (documents : List Members)
    (now : Int) (docs : List Members) : Prop where
  shape : hasShape leaf = true
  authentic : ∀ d ∈ leaf :: (bundleOf documents).documents, authenticate keys d = .ok true
  assembled : lineageOf leaf documents = some docs
  unlapsed : ∀ d ∈ docs.dropLast, isExpired d now = false
  hops : verifyHops keys .empty now docs = .ok .attenuated

variable {keys : KernelKeyResolver} {now : Int}

theorem of_verifyChainAt
    (verdict : verifyChainAt keys (.obj leaf) (bundleOf documents) .empty now = .ok .attenuated) :
    ∃ docs, Attenuated keys leaf documents now docs := by
  obtain ⟨_, returned, went⟩ := Raising.of_bind_eq_ok verdict
  obtain ⟨shape, rfl⟩ := of_requireVaidShape returned
  obtain ⟨leafHolds, verdict⟩ := Raising.of_unless_eq_ok went nofun
  obtain ⟨allHold, verdict⟩ := Raising.of_unless_eq_ok verdict nofun
  obtain ⟨names, assembled, verdict⟩ := Raising.of_bind_eq_ok verdict
  rw [assembleLineage_ok shape] at assembled
  cases assembled
  cases named : (presentation leaf documents).names maxLineageDepth with
  | none =>
    simp only [named] at verdict
    cases verdict
  | some ids =>
    simp only [named, chainDoc_eq] at verdict
    cases resolved : ids.mapM (presentation leaf documents).docOf with
    | none =>
      simp only [resolved] at verdict
      cases verdict
    | some docs =>
      simp only [resolved] at verdict
      split at verdict
      · cases verdict
      · rename_i unlapsed
        refine ⟨docs, shape, List.forall_mem_cons.mpr ⟨leafHolds,
          Raising.of_allM_eq_true allHold⟩, ?_, ?_, verdict⟩
        · rw [lineageOf, Presentation.lineage, named, Option.bind_some, resolved]
        · simpa using unlapsed

theorem verifyHop_clock (keys : KernelKeyResolver) (t u : Int) (parent child : Members) :
    verifyHop keys .empty t parent child = verifyHop keys .empty u parent child := by
  have none_ : ∀ p c, AttestationBundle.get .empty p c =
      (AttestationBundle.key p c >>= fun _ => pure none) := fun _ _ => rfl
  simp only [verifyHop, none_, bind_assoc, pure_bind]

theorem verifyHops_clock (keys : KernelKeyResolver) (t u : Int) (docs : List Members) :
    verifyHops keys .empty t docs = verifyHops keys .empty u docs := by
  induction docs with
  | nil => rfl
  | cons parent docs ih =>
    cases docs with
    | nil => rfl
    | cons child docs => rw [verifyHops, verifyHops, verifyHop_clock keys t u, ih]

theorem Attenuated.verifyChainAt {docs : List Members}
    (h : Attenuated keys leaf documents now docs) (later : Int) :
    verifyChainAt keys (.obj leaf) (bundleOf documents) .empty later =
      .ok (if docs.dropLast.any (fun d => isExpired d later) then .expired else .attenuated) := by
  have leafHolds := h.authentic leaf List.mem_cons_self
  have allHold : (bundleOf documents).documents.allM (authenticate keys) = .ok true := by
    have each := Raising.allM_map_ok (f := id) (q := fun _ => true) (p := authenticate keys)
      (fun d member => h.authentic d (List.mem_cons_of_mem _ member))
    rwa [List.map_id, List.all_eq_true.mpr (fun _ _ => rfl)] at each
  have assembled := h.assembled
  rw [lineageOf, Presentation.lineage, Option.bind_eq_some_iff] at assembled
  obtain ⟨ids, named, resolved⟩ := assembled
  unfold TypeScript.verifyChainAt
  simp only [requireVaidShape_ok h.shape, leafHolds, allHold, assembleLineage_ok h.shape, named,
    chainDoc_eq, resolved, verifyHops_clock keys later now, h.hops, Raising.ok_bind]
  cases docs.dropLast.any (fun d => isExpired d later) <;> rfl

/-- Every entry of the scope boundary is of a recognised kind. -/
def Evaluable (d : Members) : Prop := boundaryIsEvaluable (d.get "scope_boundary") = .ok true

omit [Runtime] in
theorem evaluable_of_scopeAttenuates {parent child : Members}
    (held : scopeAttenuates parent (child.get "scope_boundary") = .ok true) :
    Evaluable parent ∧ Evaluable child := by
  obtain ⟨reason, returned, held⟩ := Raising.of_bind_eq_ok held
  have attenuated : reason = .attenuated := beq_iff_eq.mp (Except.ok.inj held)
  subst attenuated
  obtain ⟨parentBoundary, returned⟩ := Raising.of_unless_eq_ok returned nofun
  obtain ⟨childBoundary, _⟩ := Raising.of_unless_eq_ok returned nofun
  exact ⟨parentBoundary, childBoundary⟩

theorem verifyHops_cons {parent child : Members} {docs : List Members}
    (held : verifyHops keys .empty now (parent :: child :: docs) = .ok .attenuated) :
    verifyHop keys .empty now parent child = .ok .attenuated ∧
      verifyHops keys .empty now (child :: docs) = .ok .attenuated := by
  rw [verifyHops] at held
  obtain ⟨verdict, hop, held⟩ := Raising.of_bind_eq_ok held
  cases verdict with
  | attenuated => exact ⟨hop, held⟩
  | _ => cases held

theorem evaluable_of_verifyHop {parent child : Members}
    (held : verifyHop keys .empty now parent child = .ok .attenuated) :
    Evaluable parent ∧ Evaluable child := by
  unfold verifyHop at held
  dsimp only at held
  split at held
  · cases held
  · obtain ⟨scope, _⟩ := Raising.of_unless_eq_ok held nofun
    exact evaluable_of_scopeAttenuates scope

theorem evaluable_of_verifyHops {docs : List Members}
    (held : verifyHops keys .empty now docs = .ok .attenuated) (several : 1 < docs.length) :
    ∀ d ∈ docs, Evaluable d := by
  induction docs with
  | nil => simp
  | cons parent docs ih =>
    cases docs with
    | nil => simp at several
    | cons child docs =>
      obtain ⟨hop, rest⟩ := verifyHops_cons held
      obtain ⟨parentReads, childReads⟩ := evaluable_of_verifyHop hop
      refine List.forall_mem_cons.mpr ⟨parentReads, ?_⟩
      cases docs with
      | nil => simpa using childReads
      | cons next docs => exact ih rest (by simp)

end VaidSuite.TypeScript
