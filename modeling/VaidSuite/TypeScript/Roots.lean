import VaidSuite.Chain
import VaidSuite.Python.ChainSpec
import VaidSuite.TypeScript.FromJson
import VaidSuite.TypeScript.VerifyCoreSpec

/-! What counts as having no parent. In Rust and in Python an absent `parent_vaid` and a null
one are alike. Here lineage assembly and the bundle compare with `null` only. -/
namespace VaidSuite.TypeScript

structure Spelling {α : Type} (spell : VaidSuite.VaidId → List α) : Prop where
  injective : Function.Injective spell
  nonempty : ∀ i, spell i ≠ []

/-- One document as the three hosts hold it, with its ids spelled in one way. -/
structure Shared (spell : VaidSuite.VaidId → JsStr) (pySpell : VaidSuite.VaidId → Python.PyStr) where
  document : Members
  vaid : Vaid
  dict : Python.Dict
  vaidId : document.get "vaid_id" = .str (spell vaid.vaidId)
  dictId : dict.get "vaid_id" = .str (pySpell vaid.vaidId)
  parent : (document.get "parent_vaid").orElse .null =
    vaid.parentVaid.elim .null (fun p => .str (spell p))
  dictParent : dict.get "parent_vaid" = vaid.parentVaid.elim .null (fun p => .str (pySpell p))

/-- The parent of a document where absent and null are alike. -/
def rootedParent (document : Members) : Option VaidId :=
  match document.get "parent_vaid" with
  | .null | .undefined => none
  | parent => some parent.asStr

theorem parentOf_eq {document : Members} (present : document.get "parent_vaid" ≠ .undefined) :
    parentOf document = rootedParent document := by
  unfold parentOf rootedParent
  cases given : document.get "parent_vaid" with
  | undefined => exact absurd given present
  | _ => rfl

section Shared

variable {spell : VaidSuite.VaidId → JsStr} {pySpell : VaidSuite.VaidId → Python.PyStr}

theorem Shared.vaidIdOf (d : Shared spell pySpell) :
    TypeScript.vaidIdOf d.document = some (spell d.vaid.vaidId) := by
  rw [TypeScript.vaidIdOf, d.vaidId]
  rfl

theorem Shared.rootedParent (d : Shared spell pySpell) :
    TypeScript.rootedParent d.document = d.vaid.parentVaid.map (fun i => some (spell i)) := by
  have same := d.parent
  unfold TypeScript.rootedParent
  cases named : d.vaid.parentVaid with
  | none =>
    rw [named] at same
    cases given : d.document.get "parent_vaid" <;> rw [given] at same <;> first | rfl | cases same
  | some p =>
    rw [named] at same
    cases given : d.document.get "parent_vaid" <;> rw [given] at same <;> cases same
    rfl

theorem Shared.hasShape (spelling : Spelling spell) (d : Shared spell pySpell) :
    TypeScript.hasShape d.document = true := by
  have same := d.parent
  unfold TypeScript.hasShape
  rw [d.vaidId]
  cases spelled : spell d.vaid.vaidId with
  | nil => exact absurd spelled (spelling.nonempty _)
  | cons =>
    dsimp only
    cases named : d.vaid.parentVaid <;> rw [named] at same <;>
      cases given : d.document.get "parent_vaid" <;> rw [given] at same <;>
        first | rfl | cases same

theorem Shared.dictShape (spelling : Spelling pySpell) (d : Shared spell pySpell)
    (context : String) : Python.requireVaidShape d.dict context = .ok () := by
  unfold Python.requireVaidShape
  rw [d.dictId, d.dictParent]
  cases spelled : pySpell d.vaid.vaidId with
  | nil => exact absurd spelled (spelling.nonempty _)
  | cons => cases d.vaid.parentVaid <;> rfl

/-- The presented documents, under renamed ids. An absent parent is none. -/
def presentedAs {κ : Type} [DecidableEq κ] [BEq κ] [LawfulBEq κ] (rename : VaidSuite.VaidId → κ)
    (leaf : Shared spell pySpell) (documents : List (Shared spell pySpell)) :
    Presentation (Shared spell pySpell) κ where
  name d := rename d.vaid.vaidId
  parent d := d.vaid.parentVaid.map rename
  leaf := leaf
  find i := (InsertionMap.ofList (fun d => rename d.vaid.vaidId) documents).lookup i
  name_of_find found := (InsertionMap.of_lookup_ofList found).1

variable (leaf : Shared spell pySpell) (documents : List (Shared spell pySpell))

def lineageIds : Option (List VaidSuite.VaidId) := (presentedAs id leaf documents).names maxLineageDepth

theorem names_presentedAs {κ : Type} [DecidableEq κ] [BEq κ] [LawfulBEq κ]
    {rename : VaidSuite.VaidId → κ} (injective : rename.Injective) : (presentedAs rename leaf documents).names maxLineageDepth =
      (lineageIds leaf documents).map (List.map rename) := by
  refine Presentation.Renaming.names (f := id) ⟨injective, rfl, fun _ => rfl, fun d => ?_, fun i => ?_⟩ _
  · simp [presentedAs]
  · rw [Option.map_id]
    exact InsertionMap.lookup_ofList_rename injective (fun d => d.vaid.vaidId) documents i

theorem keyed_get (i : VaidSuite.VaidId) :
    (VaidSuite.PresentedBundle.new (documents.map Shared.vaid)).get i =
      ((presentedAs id leaf documents).find i).map Shared.vaid :=
  Keyed.get_ofList_image (fun _ => rfl) documents i

def foundIds : LineageAssembly → Option (List VaidSuite.VaidId)
  | .complete lineage => some lineage
  | .incomplete => none

theorem rust_assembles : foundIds (VaidSuite.assembleLineage leaf.vaid
    (VaidSuite.PresentedBundle.new (documents.map Shared.vaid)).resolveParent) =
      lineageIds leaf documents := by
  have pointers : LineageResolver.pointers
      (VaidSuite.PresentedBundle.new (documents.map Shared.vaid)).resolveParent =
        (presentedAs id leaf documents).pointers := by
    funext i
    rw [LineageResolver.pointers, VaidSuite.PresentedBundle.resolveParent, keyed_get leaf,
      Presentation.pointers]
    cases (presentedAs id leaf documents).find i with
    | none => rfl
    | some d =>
      simp only [Option.map_some, presentedAs, Option.map_id]
      cases d.vaid.parentVaid <;> rfl
  have climbs : lineageIds leaf documents =
      Ancestry.climb (presentedAs id leaf documents).pointers maxLineageDepth maxLineageDepth
        [leaf.vaid.vaidId] leaf.vaid.parentVaid := by
    rw [lineageIds, Presentation.names]
    simp only [presentedAs, Option.map_id, id]
  rw [VaidSuite.assembleLineage, VaidSuite.assembleLoop_eq_climb, pointers, climbs,
    List.reverse_singleton]
  split <;> rename_i found <;> rw [found] <;> rfl

theorem python_assembles (spelling : Spelling pySpell) {bundle : Python.PresentedBundle}
    (built : Python.PresentedBundle.new (documents.map Shared.dict) = .ok bundle) :
    Python.assembleLineage leaf.dict bundle.resolveParent =
      .ok ((lineageIds leaf documents).map (List.map pySpell)) := by
  obtain ⟨_, _, made⟩ := Raising.of_bind_eq_ok built
  cases made
  have named : ∀ d : Shared spell pySpell, Python.vaidIdOf d.dict = pySpell d.vaid.vaidId := by
    intro d
    rw [Python.vaidIdOf, d.dictId]
    rfl
  have collected : InsertionMap.ofList Python.vaidIdOf (documents.map Shared.dict) =
      (InsertionMap.ofList (fun d => pySpell d.vaid.vaidId) documents).map (Prod.map id Shared.dict) :=
    InsertionMap.ofList_map Shared.dict named documents
  have presents : Python.Presents (presentedAs pySpell leaf documents) Shared.dict
      (InsertionMap.ofList Python.vaidIdOf (documents.map Shared.dict)) := by
    refine ⟨fun d => (named d).symm, fun d => ?_, fun i => ?_⟩
    · rw [Python.parentOf, d.dictParent]
      show d.vaid.parentVaid.map pySpell = _
      cases d.vaid.parentVaid <;> rfl
    · rw [Python.PresentedBundle.get, collected]
      exact InsertionMap.lookup_map Shared.dict i _
  rw [← names_presentedAs leaf documents spelling.injective]
  exact presents.assembleLineage (leaf.dictShape spelling "leaf")

omit leaf documents in
/-- The parent links of the leaf lead through the bundle to this document. -/
inductive EndsIn (bundle : PresentedBundle) (document : Members) : Members → Prop where
  | here : EndsIn bundle document document
  | above {child parent : Members} {id : JsStr} :
      child.get "parent_vaid" = .str id → bundle.get (some id) = some parent →
        EndsIn bundle document parent → EndsIn bundle document child

/-- A chain that ends in a document whose parent is `null` is followed to its end, over
documents that all have a `parent_vaid`. -/
theorem EndsIn.path {bundle : PresentedBundle} {document leaf : Members}
    (h : EndsIn bundle document leaf) (null : document.get "parent_vaid" = .null) :
    leaf.get "parent_vaid" ≠ .undefined ∧ ∃ path,
      Ancestry.Path (fun i => (bundle.resolveParent i).toPointer) (parentOf leaf) path ∧
        ∀ i ∈ path, ∀ d, bundle.get i = some d → d.get "parent_vaid" ≠ .undefined := by
  induction h with
  | here =>
    have parentless : parentOf document = none := by rw [parentOf, null]
    exact ⟨by simp [null], [], by rw [parentless]; exact .root, by simp⟩
  | @above child parent id named found _ ih =>
    obtain ⟨present, path, walks, presents⟩ := ih
    have next : parentOf child = some (some id) := by rw [parentOf, named]; rfl
    have pointer : (bundle.resolveParent (some id)).toPointer = some (parentOf parent) := by
      rw [PresentedBundle.resolveParent, found]
      dsimp only
      cases parentOf parent <;> rfl
    refine ⟨by simp [named], some id :: path, by rw [next]; exact .hop pointer walks, ?_⟩
    refine List.forall_mem_cons.mpr ⟨fun d held => ?_, presents⟩
    cases found.symm.trans held
    exact present

theorem assembles (spelling : Spelling spell) {document : Members}
    (null : document.get "parent_vaid" = .null) {bundle : PresentedBundle}
    (built : PresentedBundle.new ((documents.map Shared.document).map .obj) = .ok bundle)
    (ends : EndsIn bundle document leaf.document) :
    assembleLineage (.obj leaf.document) bundle.resolveParent =
      .ok ((lineageIds leaf documents).map (List.map (fun i => some (spell i)))) := by
  have injective : Function.Injective (fun i => some (spell i)) :=
    (Option.some_injective _).comp spelling.injective
  obtain ⟨rfl, -⟩ := PresentedBundle.of_new built
  have collected : bundleOf (documents.map Shared.document) =
      (InsertionMap.ofList (fun d => some (spell d.vaid.vaidId)) documents).map
        (Prod.map id Shared.document) :=
    InsertionMap.ofList_map Shared.document Shared.vaidIdOf documents
  have get : ∀ i, (bundleOf (documents.map Shared.document)).get i =
      ((presentedAs (fun i => some (spell i)) leaf documents).find i).map Shared.document := by
    intro i
    rw [PresentedBundle.get, collected]
    exact InsertionMap.lookup_map Shared.document i _
  obtain ⟨present, path, walks, presents⟩ := ends.path null
  have agree : ∀ i ∈ path, (presentedAs (fun i => some (spell i)) leaf documents).pointers i =
      ((bundleOf (documents.map Shared.document)).resolveParent i).toPointer := by
    intro i member
    have known := presents i member
    rw [PresentedBundle.resolveParent, get, Presentation.pointers]
    rw [get] at known
    cases found : (presentedAs (fun i => some (spell i)) leaf documents).find i with
    | none => rfl
    | some d =>
      rw [found] at known
      have parent : (presentedAs (fun i => some (spell i)) leaf documents).parent d =
          parentOf d.document :=
        d.rootedParent.symm.trans (parentOf_eq (known d.document rfl)).symm
      rw [Option.map_some, Option.map_some, parent]
      dsimp only
      cases parentOf d.document <;> rfl
  have climbs := Ancestry.climb_congr (show 0 < maxLineageDepth by decide)
    (vaidIdOf leaf.document) walks agree
  rw [assembleLineage, requireVaidShape_ok (leaf.hasShape spelling), Raising.ok_bind,
    assembleLoop_eq_climb, List.reverse_singleton, ← climbs, ← names_presentedAs leaf documents injective,
    Presentation.names, parentOf_eq present, leaf.rootedParent, leaf.vaidIdOf]
  rfl

end Shared

/-- The document is a root: for itself, in a bundle, and at the end of a chain, which
assembles as in Rust and in Python. -/
structure KnownRoot (document : Members) : Prop where
  leaf : ∀ resolveParent : LineageResolver,
    assembleLineage (.obj document) resolveParent = .ok (some [vaidIdOf document])
  presented : ∀ documents bundle, PresentedBundle.new documents = .ok bundle →
    bundle.get (vaidIdOf document) = some document →
      bundle.resolveParent (vaidIdOf document) = .root
  chain : ∀ {spell pySpell} (leaf : Shared spell pySpell) (documents : List (Shared spell pySpell))
    (bundle : PresentedBundle) (pyBundle : Python.PresentedBundle),
    Spelling spell → Spelling pySpell →
    PresentedBundle.new ((documents.map Shared.document).map .obj) = .ok bundle →
    Python.PresentedBundle.new (documents.map Shared.dict) = .ok pyBundle →
    EndsIn bundle document leaf.document →
      ∃ assembled, VaidSuite.assembleLineage leaf.vaid
          (VaidSuite.PresentedBundle.new (documents.map Shared.vaid)).resolveParent = assembled ∧
        Python.assembleLineage leaf.dict pyBundle.resolveParent =
          .ok ((foundIds assembled).map (List.map pySpell)) ∧
        assembleLineage (.obj leaf.document) bundle.resolveParent =
          .ok ((foundIds assembled).map (List.map (fun i => some (spell i))))

theorem assembleLineage_root {document : Members} (shape : hasShape document = true)
    (null : document.get "parent_vaid" = .null) (resolveParent : LineageResolver) :
    assembleLineage (.obj document) resolveParent = .ok (some [vaidIdOf document]) := by
  rw [assembleLineage, requireVaidShape_ok shape, Raising.ok_bind, parentOf, null]
  rfl

theorem assembleLineage_absent {document : Members} (shape : hasShape document = true)
    (absent : document.get "parent_vaid" = .undefined) :
    assembleLineage (.obj document) (fun _ => .unknown) = .ok none := by
  have unnamed : vaidIdOf document ≠ none := by
    unfold hasShape at shape
    rw [vaidIdOf]
    cases named : document.get "vaid_id" with
    | str s => exact Option.some_ne_none s
    | _ =>
      rw [named] at shape
      cases shape
  have fresh : ¬ (none ∈ [vaidIdOf document] ∨ maxLineageDepth ≤ [vaidIdOf document].length) := by
    rintro (member | long)
    · exact unnamed (List.mem_singleton.mp member).symm
    · exact absurd (show maxLineageDepth ≤ 1 from long) (by decide)
  have looked : parentOf document = some none := by rw [parentOf, absent]; rfl
  rw [assembleLineage, requireVaidShape_ok shape, Raising.ok_bind, looked]
  show Except.ok (assembleLoop (fun _ => .unknown) (1023 + 1) [vaidIdOf document] (some none)) = _
  rw [assembleLoop, if_neg fresh]

/-- An accepted document without a parent is a known root exactly when it says so by a `null`. -/
theorem knownRoot_iff {text : JsStr} {document : Members}
    (accepted : parseVaidDocument text = some document)
    (parentless : document.get "parent_vaid" = .undefined ∨ document.get "parent_vaid" = .null) :
    KnownRoot document ↔ document.get "parent_vaid" = .null := by
  have shape := hasShape_of_contract (satisfiesContract_of_parsed accepted)
  constructor
  · intro root
    rcases parentless with absent | null
    · have looked := assembleLineage_absent shape absent
      rw [root.leaf] at looked
      cases looked
    · exact null
  · intro null
    refine ⟨assembleLineage_root shape null, fun documents bundle _ held => ?_, ?_⟩
    · rw [PresentedBundle.resolveParent, held]
      simp only [parentOf, null]
    · intro spell pySpell leaf documents bundle pyBundle spelling pySpelling built pyBuilt ends
      refine ⟨_, rfl, ?_, ?_⟩
      · rw [rust_assembles, python_assembles leaf documents pySpelling pyBuilt]
      · rw [rust_assembles, assembles leaf documents spelling null built ends]

/-- A text that `parseVaidDocument` accepts, with the given members before the others. -/
def rootText (first : List (String × JsStr)) : JsStr :=
  objectText (first ++ [("vaid_id", rootId), ("agent_id", rootId), ("agent_class", quoted []),
    ("version", quoted []), ("tenant_id", quoted []), ("issued_at", quoted []),
    ("expires_at", quoted []), ("public_key_der", js "[]"), ("kernel_signature", js "[]"),
    ("scope_boundary", js "[]"), ("lineage_hash", quoted []), ("capability_set", js "[]"),
    ("trust_domain", quoted []), ("kernel_key_thumbprint", quoted [])])

def parentIsNull (document : Members) : Bool :=
  match document.get "parent_vaid" with
  | .null => true
  | _ => false

def parentIsAbsent (document : Members) : Bool := (document.get "parent_vaid").strictEq .undefined

def nullText : JsStr := rootText [("parent_vaid", js "null")]
def absentText : JsStr := rootText []

theorem knownRoot_iff_nullText : ∃ document, parseVaidDocument nullText = some document ∧
    (KnownRoot document ↔ document.get "parent_vaid" = .null) := by
  have accepted : (parseVaidDocument nullText).any parentIsNull = true := by decide +kernel
  obtain ⟨document, parsed, given⟩ := (Option.any_eq_true _ _).mp accepted
  have null : document.get "parent_vaid" = .null := by
    unfold parentIsNull at given
    split at given
    · assumption
    · cases given
  exact ⟨document, parsed, knownRoot_iff parsed (.inr null)⟩

/-- Without a `parent_vaid` an accepted document is not even the lineage of itself. -/
theorem absentText_not_knownRoot : ∃ document, parseVaidDocument absentText = some document ∧
    document.get "parent_vaid" = .undefined ∧
    assembleLineage (.obj document) (fun _ => .unknown) = .ok none ∧ ¬ KnownRoot document := by
  have accepted : (parseVaidDocument absentText).any parentIsAbsent = true := by decide +kernel
  obtain ⟨document, parsed, given⟩ := (Option.any_eq_true _ _).mp accepted
  have absent : document.get "parent_vaid" = .undefined := by
    unfold parentIsAbsent at given
    cases found : document.get "parent_vaid" <;> rw [found] at given <;> first | rfl | cases given
  have looked := assembleLineage_absent
    (hasShape_of_contract (satisfiesContract_of_parsed parsed)) absent
  refine ⟨document, parsed, absent, looked, fun root => ?_⟩
  rw [root.leaf] at looked
  cases looked

end VaidSuite.TypeScript
