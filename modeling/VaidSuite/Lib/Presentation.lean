import Mathlib.Data.List.Chain
import VaidSuite.Lib.Ancestry
import VaidSuite.Lib.Guards

/-! A leaf document presented together with others, each naming its parent. The lineage
of the leaf is assembled through what was presented, and checked hop by hop. -/

universe u v w

structure Presentation (D : Type u) (ι : Type v) where
  name : D → ι
  parent : D → Option ι
  leaf : D
  find : ι → Option D
  name_of_find : ∀ {i d}, find i = some d → name d = i

namespace Presentation

variable {D : Type u} {ι : Type v} {V : Type w} [DecidableEq ι] (p : Presentation D ι)

omit [DecidableEq ι] in
def pointers : Ancestry.Pointers ι := fun i => (p.find i).map p.parent

/-- The names on the way from the leaf to a root, root first. -/
def names (bound : Nat) : Option (List ι) :=
  Ancestry.climb p.pointers bound bound [p.name p.leaf] (p.parent p.leaf)

/-- The document of a name on the lineage. The leaf is matched first. -/
def docOf (i : ι) : Option D := if i = p.name p.leaf then some p.leaf else p.find i

/-- The documents from the root down to the leaf. -/
def lineage (bound : Nat) : Option (List D) := (p.names bound).bind (fun is => is.mapM p.docOf)

/-- The ancestors that the parent links lead through, nearest first: they are presented,
no name repeats, and the last of them has no parent. -/
structure IsLineage (bound : Nat) (ancestors : List D) : Prop where
  presented : ∀ d ∈ ancestors, p.find (p.name d) = some d
  linked : (p.leaf :: ancestors).IsChain (fun child parent => p.parent child = some (p.name parent))
  rooted : ∀ root ∈ (p.leaf :: ancestors).getLast?, p.parent root = none
  distinct : ((p.leaf :: ancestors).map p.name).Nodup
  short : (p.leaf :: ancestors).length ≤ bound

omit [DecidableEq ι] in
theorem documents_of_path {next : Option ι} {path : List ι} (h : Ancestry.Path p.pointers next path)
    {d : D} (from_ : p.parent d = next) : ∃ docs, docs.map p.name = path ∧
      (∀ a ∈ docs, p.find (p.name a) = some a) ∧
      (d :: docs).IsChain (fun child parent => p.parent child = some (p.name parent)) ∧
      ∀ root ∈ (d :: docs).getLast?, p.parent root = none := by
  induction h generalizing d with
  | root => exact ⟨[], rfl, by simp, by simp, by simpa using from_⟩
  | @hop i next path known _ ih =>
    obtain ⟨a, found, rfl⟩ := Option.map_eq_some_iff.mp known
    obtain ⟨docs, names, presented, linked, rooted⟩ := ih (d := a) rfl
    have named : p.name a = i := p.name_of_find found
    refine ⟨a :: docs, by rw [List.map_cons, names, named], ?_, ?_, ?_⟩
    · intro b member
      rcases List.mem_cons.mp member with rfl | member
      · rwa [named]
      · exact presented b member
    · exact List.isChain_cons_cons.mpr ⟨by rw [from_, named], linked⟩
    · simpa using rooted

omit [DecidableEq ι] in
theorem path_of_documents {d : D} {docs : List D}
    (presented : ∀ a ∈ docs, p.find (p.name a) = some a)
    (linked : (d :: docs).IsChain (fun child parent => p.parent child = some (p.name parent)))
    (rooted : ∀ root ∈ (d :: docs).getLast?, p.parent root = none) :
    Ancestry.Path p.pointers (p.parent d) (docs.map p.name) := by
  induction docs generalizing d with
  | nil =>
    rw [rooted d (by simp)]
    exact .root
  | cons a docs ih =>
    obtain ⟨link, linked⟩ := List.isChain_cons_cons.mp linked
    have known : p.pointers (p.name a) = some (p.parent a) := by
      rw [pointers, presented a List.mem_cons_self]
      rfl
    rw [link]
    exact .hop known (ih (fun b hb => presented b (List.mem_cons_of_mem _ hb)) linked
      (by simpa using rooted))

theorem mapM_docOf {docs : List D} (resolved : ∀ d ∈ docs, p.docOf (p.name d) = some d) :
    (docs.map p.name).mapM p.docOf = some docs := by
  induction docs with
  | nil => rfl
  | cons d docs ih =>
    rw [List.map_cons, List.mapM_cons, resolved d List.mem_cons_self,
      ih (fun d hd => resolved d (List.mem_cons_of_mem _ hd))]
    rfl

variable {bound : Nat} {ancestors docs : List D}

theorem IsLineage.docOf (h : p.IsLineage bound ancestors) :
    ∀ d ∈ (p.leaf :: ancestors).reverse, p.docOf (p.name d) = some d := by
  intro d member
  rcases List.mem_cons.mp (List.mem_reverse.mp member) with rfl | member
  · exact if_pos rfl
  · have other : p.name d ≠ p.name p.leaf := fun same =>
      (List.nodup_cons.mp h.distinct).1 (same ▸ List.mem_map_of_mem member)
    exact (if_neg other).trans (h.presented d member)

theorem names_eq_some_iff (positive : 0 < bound) (is : List ι) : p.names bound = some is ↔
    ∃ ancestors, p.IsLineage bound ancestors ∧ is = (p.leaf :: ancestors).reverse.map p.name := by
  rw [names, Ancestry.climb_eq_some_iff _ _ positive]
  constructor
  · rintro ⟨path, isPath, distinct, short, rfl⟩
    obtain ⟨ancestors, rfl, presented, linked, rooted⟩ := p.documents_of_path isPath rfl
    exact ⟨ancestors, ⟨presented, linked, rooted, distinct, by simpa using short⟩, by simp⟩
  · rintro ⟨ancestors, h, rfl⟩
    exact ⟨_, p.path_of_documents h.presented h.linked h.rooted, h.distinct,
      by simpa using h.short, by simp⟩

theorem lineage_eq_some_iff (positive : 0 < bound) : p.lineage bound = some docs ↔
    ∃ ancestors, p.IsLineage bound ancestors ∧ docs = (p.leaf :: ancestors).reverse := by
  rw [lineage, Option.bind_eq_some_iff]
  constructor
  · rintro ⟨is, named, resolved⟩
    obtain ⟨ancestors, h, rfl⟩ := (p.names_eq_some_iff positive is).mp named
    rw [p.mapM_docOf (h.docOf p)] at resolved
    cases resolved
    exact ⟨ancestors, h, rfl⟩
  · rintro ⟨ancestors, h, rfl⟩
    exact ⟨_, (p.names_eq_some_iff positive _).mpr ⟨ancestors, h, rfl⟩, p.mapM_docOf (h.docOf p)⟩

theorem names_eq (positive : 0 < bound) :
    p.names bound = (p.lineage bound).map (List.map p.name) := by
  refine Option.ext (fun is => ?_)
  rw [p.names_eq_some_iff positive, Option.map_eq_some_iff]
  constructor
  · rintro ⟨ancestors, h, rfl⟩
    exact ⟨_, (p.lineage_eq_some_iff positive).mpr ⟨ancestors, h, rfl⟩, rfl⟩
  · rintro ⟨docs, assembled, rfl⟩
    obtain ⟨ancestors, h, rfl⟩ := (p.lineage_eq_some_iff positive).mp assembled
    exact ⟨ancestors, h, rfl⟩

/-- Checks between neighbours, root first. -/
def hops (hop : D → D → List (Bool × V)) : List D → List (Bool × V)
  | parent :: child :: docs => hop parent child ++ hops hop (child :: docs)
  | _ => []

theorem hops_pass_iff (hop : D → D → List (Bool × V)) (docs : List D) :
    (∀ s ∈ hops hop docs, s.1 = true) ↔
      docs.IsChain (fun parent child => ∀ s ∈ hop parent child, s.1 = true) := by
  induction docs with
  | nil => simp [hops]
  | cons parent docs ih =>
    cases docs with
    | nil => simp [hops]
    | cons child docs =>
      rw [List.isChain_cons_cons, ← ih, hops, List.forall_mem_append]

theorem hops_refuse {hop : D → D → List (Bool × V)} {accepted : V}
    (each : ∀ parent child, ∀ s ∈ hop parent child, s.2 ≠ accepted) (docs : List D) :
    ∀ s ∈ hops hop docs, s.2 ≠ accepted := by
  induction docs with
  | nil => simp [hops]
  | cons parent docs ih =>
    cases docs with
    | nil => simp [hops]
    | cons child docs => exact List.forall_mem_append.mpr ⟨each parent child, ih⟩

/-- What a verifier asks of the documents, and how it refuses. -/
structure Checks (D : Type u) (V : Type w) where
  authentic : D → Bool
  lapsed : D → Bool
  hop : D → D → List (Bool × V)
  inauthentic : V
  unverifiable : V
  expired : V

/-- Everything presented is authentic, the lineage assembles, no ancestor has lapsed, and
every hop holds. The leaf's own expiry is not asked about. -/
def steps (c : Checks D V) (kept : List D) (bound : Nat) : List (Bool × V) :=
  (c.authentic p.leaf, c.inauthentic) :: (kept.all c.authentic, c.inauthentic) ::
    match p.lineage bound with
    | none => [(false, c.unverifiable)]
    | some docs => (!docs.dropLast.any c.lapsed, c.expired) :: hops c.hop docs

theorem steps_refuse (c : Checks D V) (kept : List D) (bound : Nat) {accepted : V}
    (inauthentic : c.inauthentic ≠ accepted) (unverifiable : c.unverifiable ≠ accepted)
    (expired : c.expired ≠ accepted)
    (hop : ∀ parent child, ∀ s ∈ c.hop parent child, s.2 ≠ accepted) :
    ∀ s ∈ p.steps c kept bound, s.2 ≠ accepted := by
  refine List.forall_mem_cons.mpr ⟨inauthentic, List.forall_mem_cons.mpr ⟨inauthentic, ?_⟩⟩
  cases p.lineage bound with
  | none => simpa using unverifiable
  | some docs => exact List.forall_mem_cons.mpr ⟨expired, hops_refuse hop docs⟩

theorem steps_pass_iff (c : Checks D V) (kept : List D) (positive : 0 < bound) :
    (∀ s ∈ p.steps c kept bound, s.1 = true) ↔
      c.authentic p.leaf = true ∧ (∀ d ∈ kept, c.authentic d = true) ∧
        ∃ ancestors, p.IsLineage bound ancestors ∧ (∀ a ∈ ancestors, c.lapsed a = false) ∧
          (p.leaf :: ancestors).IsChain (fun child parent =>
            ∀ s ∈ c.hop parent child, s.1 = true) := by
  rw [steps, List.forall_mem_cons, List.forall_mem_cons, List.all_eq_true]
  refine and_congr_right (fun _ => and_congr_right (fun _ => ?_))
  cases assembled : p.lineage bound with
  | none =>
    constructor
    · intro h
      simpa using h (false, c.unverifiable)
    · rintro ⟨ancestors, h, _⟩
      rw [(p.lineage_eq_some_iff positive).mpr ⟨ancestors, h, rfl⟩] at assembled
      cases assembled
  | some docs =>
    have unlapsed : ∀ ancestors : List D, (!((p.leaf :: ancestors).reverse.dropLast.any c.lapsed)) =
        true ↔ ∀ a ∈ ancestors, c.lapsed a = false := by
      intro ancestors
      rw [List.reverse_cons, List.dropLast_concat, List.any_reverse]
      simp
    simp only [List.forall_mem_cons, hops_pass_iff]
    constructor
    · rintro ⟨lapse, chain⟩
      obtain ⟨ancestors, h, rfl⟩ := (p.lineage_eq_some_iff positive).mp assembled
      exact ⟨ancestors, h, (unlapsed ancestors).mp lapse, List.isChain_reverse.mp chain⟩
    · rintro ⟨ancestors, h, lapse, chain⟩
      have same := assembled.symm.trans ((p.lineage_eq_some_iff positive).mpr ⟨ancestors, h, rfl⟩)
      cases same
      exact ⟨(unlapsed ancestors).mpr lapse, List.isChain_reverse.mpr chain⟩

/-- `q` presents the images of the documents of `p`, under renamed names. -/
structure Renaming {E κ : Type*} (p : Presentation D ι) (q : Presentation E κ) (f : D → E)
    (rename : ι → κ) : Prop where
  injective : rename.Injective
  leaf : q.leaf = f p.leaf
  name : ∀ d, q.name (f d) = rename (p.name d)
  parent : ∀ d, q.parent (f d) = (p.parent d).map rename
  find : ∀ i, q.find (rename i) = (p.find i).map f

namespace Renaming

variable {E κ : Type*} [DecidableEq κ] {p : Presentation D ι} {q : Presentation E κ} {f : D → E}
  {rename : ι → κ}

theorem docOf (h : Renaming p q f rename) (i : ι) : q.docOf (rename i) = (p.docOf i).map f := by
  unfold Presentation.docOf
  rw [h.leaf, h.name, h.find]
  by_cases same : i = p.name p.leaf
  · rw [if_pos same, if_pos (congrArg rename same), Option.map_some]
  · rw [if_neg same, if_neg (fun renamed => same (h.injective renamed))]

theorem names (h : Renaming p q f rename) (bound : Nat) :
    q.names bound = (p.names bound).map (List.map rename) := by
  have agree : ∀ i, q.pointers (rename i) = (p.pointers i).map (Option.map rename) := by
    intro i
    rw [pointers, pointers, h.find]
    cases p.find i with
    | none => rfl
    | some d => exact congrArg some (h.parent d)
  have climbs := Ancestry.climb_map h.injective agree bound bound [p.name p.leaf] (p.parent p.leaf)
  rwa [List.map_cons, List.map_nil, ← h.name, ← h.parent, ← h.leaf] at climbs

theorem lineage (h : Renaming p q f rename) (bound : Nat) :
    q.lineage bound = (p.lineage bound).map (List.map f) := by
  rw [Presentation.lineage, Presentation.lineage, h.names]
  cases p.names bound with
  | none => rfl
  | some is =>
    rw [Option.map_some, Option.bind_some, Option.bind_some]
    induction is with
    | nil => rfl
    | cons i is ih =>
      simp only [List.map_cons, List.mapM_cons, h.docOf, ih]
      cases p.docOf i with
      | none => rfl
      | some d => cases is.mapM p.docOf <;> rfl

theorem steps (h : Renaming p q f rename) {c : Checks D V} {c' : Checks E V} {kept : List D}
    {kept' : List E} (bound : Nat) (authentic : ∀ d, c'.authentic (f d) = c.authentic d)
    (lapsed : ∀ d, c'.lapsed (f d) = c.lapsed d)
    (hop : ∀ parent child, c'.hop (f parent) (f child) = c.hop parent child)
    (sameKept : ∀ e, e ∈ kept' ↔ ∃ d ∈ kept, f d = e) (inauthentic : c'.inauthentic = c.inauthentic)
    (unverifiable : c'.unverifiable = c.unverifiable) (expired : c'.expired = c.expired) :
    q.steps c' kept' bound = p.steps c kept bound := by
  have everyone : kept'.all c'.authentic = kept.all c.authentic := by
    rw [Bool.eq_iff_iff, List.all_eq_true, List.all_eq_true]
    constructor
    · intro all d member
      exact (authentic d) ▸ all (f d) ((sameKept _).mpr ⟨d, member, rfl⟩)
    · intro all e member
      obtain ⟨d, inKept, rfl⟩ := (sameKept e).mp member
      exact (authentic d).trans (all d inKept)
  have hopsEq : ∀ docs : List D, hops c'.hop (docs.map f) = hops c.hop docs := by
    intro docs
    induction docs with
    | nil => rfl
    | cons parent docs ih =>
      cases docs with
      | nil => rfl
      | cons child docs =>
        simp only [List.map_cons, hops, hop] at ih ⊢
        rw [ih]
  rw [Presentation.steps, Presentation.steps, h.leaf, authentic, everyone, h.lineage, inauthentic,
    unverifiable, expired]
  cases p.lineage bound with
  | none => rfl
  | some docs =>
    have lapse : (docs.map f).dropLast.any c'.lapsed = docs.dropLast.any c.lapsed := by
      rw [← List.map_dropLast, List.any_map]
      exact congrArg (fun g => docs.dropLast.any g) (funext lapsed)
    simp only [Option.map_some, lapse, hopsEq]

end Renaming

end Presentation
