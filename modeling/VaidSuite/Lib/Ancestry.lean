import Mathlib.Data.List.Nodup
import Mathlib.Logic.Function.Basic

/-! Bounded walks along parent pointers.
A pointer map answers three ways about a node: unknown, a known root, or a known
child of a named parent. The walk is fuelled, and the fuel is shown to be enough. -/
namespace Ancestry

universe u
variable {ι : Type u}

/-- `none` is unknown, `some none` a known root, `some (some p)` a child of `p`. -/
abbrev Pointers (ι : Type u) := ι → Option (Option ι)

/-- Following `up` from the pointer `next` meets exactly `path`, nearest first,
and ends at a known root. -/
inductive Path (up : Pointers ι) : Option ι → List ι → Prop where
  | root : Path up none []
  | hop {p : ι} {next : Option ι} {path : List ι} :
      up p = some next → Path up next path → Path up (some p) (p :: path)

theorem Path.unique {up : Pointers ι} {next : Option ι} {xs ys : List ι}
    (hx : Path up next xs) (hy : Path up next ys) : xs = ys := by
  induction hx generalizing ys with
  | root => cases hy; rfl
  | hop known _ ih =>
    cases hy with
    | hop known' rest =>
      have same := Option.some.inj (known.symm.trans known')
      subst same
      exact congrArg _ (ih rest)

theorem Path.mono {up vp : Pointers ι} {next : Option ι} {path : List ι}
    (h : Path up next path) (agree : ∀ p ∈ path, vp p = up p) : Path vp next path := by
  induction h with
  | root => exact .root
  | hop known _ ih =>
    exact .hop ((agree _ List.mem_cons_self).trans known)
      (ih (fun q hq => agree q (List.mem_cons_of_mem _ hq)))

theorem Path.known {up : Pointers ι} {next : Option ι} {path : List ι}
    (h : Path up next path) : ∀ p ∈ path, ∃ q, up p = some q := by
  induction h with
  | root => simp
  | hop known _ ih =>
    intro q hq
    rcases List.mem_cons.mp hq with rfl | hq
    · exact ⟨_, known⟩
    · exact ih q hq

theorem Path.above {up : Pointers ι} {next : Option ι} {path : List ι}
    (h : Path up next path) {p : ι} (member : p ∈ path) :
    ∃ q upper, up p = some q ∧ Path up q upper ∧ p :: upper <:+ path := by
  induction h with
  | root => simp at member
  | @hop r q rest known tail ih =>
    rcases List.mem_cons.mp member with rfl | member
    · exact ⟨q, rest, known, tail, List.suffix_refl _⟩
    · obtain ⟨q', upper, h₁, h₂, h₃⟩ := ih member
      exact ⟨q', upper, h₁, h₂, h₃.trans (List.suffix_cons _ _)⟩

/-- On a line of documents, each naming the next as its parent, pointers that are right where
they know anything lead along the line, if they know all of it. -/
theorem path_iff_of_linked {up : Pointers ι} {D : Type*} {name : D → ι} {parent : D → Option ι}
    {d : D} {docs : List D}
    (linked : (d :: docs).IsChain (fun child above => parent child = some (name above)))
    (rooted : ∀ root ∈ (d :: docs).getLast?, parent root = none)
    (right : ∀ a ∈ docs, ∀ next, up (name a) = some next → next = parent a) (path : List ι) :
    Path up (parent d) path ↔ path = docs.map name ∧ ∀ a ∈ docs, up (name a) ≠ none := by
  induction docs generalizing d path with
  | nil =>
    have last : parent d = none := rooted d (by simp)
    rw [last]
    constructor
    · intro h
      cases h
      simp
    · rintro ⟨rfl, _⟩
      exact .root
  | cons a docs ih =>
    obtain ⟨link, above⟩ := List.isChain_cons_cons.mp linked
    have rest := ih above (by simpa using rooted)
      (fun b listed => right b (List.mem_cons_of_mem _ listed))
    rw [link]
    constructor
    · intro h
      cases h with
      | @hop _ next path known tail =>
        cases right a List.mem_cons_self next known
        obtain ⟨rfl, all⟩ := (rest path).mp tail
        exact ⟨rfl, List.forall_mem_cons.mpr ⟨by simp [known], all⟩⟩
    · rintro ⟨rfl, all⟩
      obtain ⟨here, all⟩ := List.forall_mem_cons.mp all
      obtain ⟨next, known⟩ := Option.ne_none_iff_exists'.mp here
      cases right a List.mem_cons_self next known
      exact .hop known ((rest _).mpr ⟨rfl, all⟩)

/-- What is above a name is above it wherever the name occurs, so it occurs once. -/
theorem Path.nodup {up : Pointers ι} {next : Option ι} {path : List ι} (h : Path up next path) :
    path.Nodup := by
  induction h with
  | root => exact List.nodup_nil
  | @hop p next path known tail ih =>
    refine List.nodup_cons.mpr ⟨fun again => ?_, ih⟩
    obtain ⟨_, upper, known', above, suffix⟩ := tail.above again
    cases known.symm.trans known'
    cases above.unique tail
    have length := suffix.length_le
    rw [List.length_cons] at length
    omega

theorem nodup_of_linked {D : Type*} {name : D → ι} {parent : D → Option ι} {line : List D}
    (linked : line.IsChain (fun child above => parent child = some (name above)))
    (rooted : ∀ root ∈ line.getLast?, parent root = none)
    (told : ∀ a ∈ line, ∀ b ∈ line, name a = name b → parent a = parent b) :
    (line.map name).Nodup := by
  cases line with
  | nil => exact List.nodup_nil
  | cons d docs =>
    classical
    let up : Pointers ι := fun i => ((d :: docs).find? (fun a => name a = i)).map parent
    have right : ∀ a ∈ d :: docs, up (name a) = some (parent a) := by
      intro a member
      have some_ : ((d :: docs).find? (fun b => decide (name b = name a))).isSome = true :=
        List.find?_isSome.mpr ⟨a, member, by simp⟩
      obtain ⟨b, found⟩ := Option.isSome_iff_exists.mp some_
      have same : name b = name a := by simpa using List.find?_some found
      exact (congrArg (Option.map parent) found).trans
        (congrArg some (told b (List.mem_of_find?_eq_some found) a member same))
    have path := (path_iff_of_linked linked rooted
      (fun a member next known => Option.some.inj
        (known.symm.trans (right a (List.mem_cons_of_mem _ member)))) (docs.map name)).mpr
      ⟨rfl, fun a member => by simp [right a (List.mem_cons_of_mem _ member)]⟩
    exact (Path.hop (right d List.mem_cons_self) path).nodup

variable [DecidableEq ι]

/-- Climb from `next`, keeping the nodes met so far newest first. A revisited
node, a chain already `bound` long or an unknown node stops the walk. -/
def climb (up : Pointers ι) (bound : Nat) : Nat → List ι → Option ι → Option (List ι)
  | _, chain, none => some chain
  | 0, _, some _ => none
  | fuel + 1, chain, some p =>
    if p ∈ chain ∨ bound ≤ chain.length then none
    else match up p with
      | none => none
      | some next => climb up bound fuel (p :: chain) next

@[simp] theorem climb_none (up : Pointers ι) (bound fuel : Nat) (chain : List ι) :
    climb up bound fuel chain none = some chain := by
  cases fuel <;> rfl

theorem climb_sound (up : Pointers ι) (bound : Nat) (fuel : Nat) (chain : List ι)
    (next : Option ι) (out : List ι) (distinct : chain.Nodup) (short : chain.length ≤ bound)
    (result : climb up bound fuel chain next = some out) :
    ∃ path, Path up next path ∧ out = path.reverse ++ chain ∧ out.Nodup ∧
      out.length ≤ bound := by
  induction fuel generalizing chain next with
  | zero =>
    cases next with
    | none =>
      have h : chain = out := Option.some.inj result
      subst h
      exact ⟨[], .root, rfl, distinct, short⟩
    | some p => simp [climb] at result
  | succ fuel ih =>
    cases next with
    | none =>
      have h : chain = out := Option.some.inj result
      subst h
      exact ⟨[], .root, rfl, distinct, short⟩
    | some p =>
      simp only [climb] at result
      split at result
      · contradiction
      · rename_i fresh
        split at result
        · contradiction
        · rename_i q known
          have hp : p ∉ chain := fun h => fresh (.inl h)
          have hlen : chain.length < bound := Nat.lt_of_not_ge (fun h => fresh (.inr h))
          obtain ⟨path, hpath, hout, hnodup, hle⟩ :=
            ih (p :: chain) q (List.nodup_cons.mpr ⟨hp, distinct⟩) hlen result
          exact ⟨p :: path, .hop known hpath, by simp [hout], hnodup, hle⟩

theorem climb_complete (up : Pointers ι) (bound : Nat) {next : Option ι} {path : List ι}
    (h : Path up next path) (fuel : Nat) (chain : List ι)
    (enough : bound ≤ chain.length + fuel) (distinct : (path.reverse ++ chain).Nodup)
    (short : (path.reverse ++ chain).length ≤ bound) :
    climb up bound fuel chain next = some (path.reverse ++ chain) := by
  induction h generalizing fuel chain with
  | root => exact climb_none up bound fuel chain
  | @hop p next path known _ ih =>
    have whole : (p :: path).reverse ++ chain = path.reverse ++ (p :: chain) := by simp
    rw [whole] at distinct short ⊢
    have hlen : chain.length < bound := by
      simp only [List.length_append, List.length_cons] at short
      omega
    have hp : p ∉ chain :=
      (List.nodup_cons.mp (List.nodup_append.mp distinct).2.1).1
    cases fuel with
    | zero => omega
    | succ fuel =>
      have open_ : ¬ (p ∈ chain ∨ bound ≤ chain.length) := by
        rintro (h | h)
        · exact hp h
        · omega
      simp only [climb, if_neg open_, known]
      exact ih fuel (p :: chain) (by simp only [List.length_cons]; omega) distinct short

/-- The walk succeeds exactly on a complete, repetition-free ancestry within the
bound, and then returns the whole of it. -/
theorem climb_eq_some_iff (up : Pointers ι) (bound : Nat) (positive : 0 < bound) (leaf : ι)
    (next : Option ι) (out : List ι) :
    climb up bound bound [leaf] next = some out ↔
      ∃ path, Path up next path ∧ (leaf :: path).Nodup ∧ (leaf :: path).length ≤ bound ∧
        out = (leaf :: path).reverse := by
  constructor
  · intro result
    obtain ⟨path, hpath, hout, hnodup, hle⟩ :=
      climb_sound up bound bound [leaf] next out (List.nodup_singleton leaf) positive result
    have whole : out = (leaf :: path).reverse := by simp [hout]
    rw [whole] at hnodup hle
    exact ⟨path, hpath, List.nodup_reverse.mp hnodup, by simpa using hle, whole⟩
  · rintro ⟨path, hpath, hnodup, hle, rfl⟩
    have whole : (leaf :: path).reverse = path.reverse ++ [leaf] := by simp
    rw [whole]
    exact climb_complete up bound hpath bound [leaf] (Nat.le_add_left _ _)
      (whole ▸ List.nodup_reverse.mpr hnodup) (by simpa using hle)

theorem climb_congr {up vp : Pointers ι} {bound : Nat} (positive : 0 < bound) (leaf : ι)
    {next : Option ι} {path : List ι} (h : Path up next path) (agree : ∀ p ∈ path, vp p = up p) :
    climb vp bound bound [leaf] next = climb up bound bound [leaf] next := by
  refine Option.ext (fun out => ?_)
  rw [climb_eq_some_iff _ _ positive, climb_eq_some_iff _ _ positive]
  constructor
  · rintro ⟨path', found, facts⟩
    have same := found.unique (h.mono agree)
    subst same
    exact ⟨path', h, facts⟩
  · rintro ⟨path', found, facts⟩
    have same := found.unique h
    subst same
    exact ⟨path', h.mono agree, facts⟩

/-- The walk sees only which nodes are equal, so it commutes with renaming them. -/
theorem climb_map {κ : Type*} [DecidableEq κ] {rename : ι → κ} (injective : rename.Injective)
    {up : Pointers ι} {vp : Pointers κ} (agree : ∀ p, vp (rename p) = (up p).map (Option.map rename))
    (bound fuel : Nat) (chain : List ι) (next : Option ι) :
    climb vp bound fuel (chain.map rename) (next.map rename) =
      (climb up bound fuel chain next).map (List.map rename) := by
  induction fuel generalizing chain next with
  | zero => cases next <;> rfl
  | succ fuel ih =>
    cases next with
    | none => rfl
    | some p =>
      simp only [Option.map_some, climb, agree, List.length_map,
        List.mem_map_of_injective injective]
      split
      · rfl
      · cases up p with
        | none => rfl
        | some next => exact ih (p :: chain) next

/-- Make `id` known, as a root or as a child of `parent`. -/
def extend (up : Pointers ι) (id : ι) (parent : Option ι) : Pointers ι :=
  Function.update up id (some parent)

@[simp] theorem extend_self (up : Pointers ι) (id : ι) (parent : Option ι) :
    extend up id parent id = some parent := Function.update_self ..

theorem extend_of_ne (up : Pointers ι) {id p : ι} (parent : Option ι) (other : p ≠ id) :
    extend up id parent p = up p := Function.update_of_ne other ..

/-- A path meets only known nodes, so it survives the arrival of an unknown one. -/
theorem Path.extend {up : Pointers ι} {next : Option ι} {path : List ι} (h : Path up next path)
    {id : ι} (fresh : up id = none) (parent : Option ι) :
    Path (extend up id parent) next path := by
  refine h.mono (fun p hp => extend_of_ne up parent ?_)
  rintro rfl
  obtain ⟨q, known⟩ := h.known p hp
  rw [fresh] at known
  cases known

/-- Every known node has a complete ancestry without repetition. -/
def Grounded (up : Pointers ι) : Prop :=
  ∀ p next, up p = some next → ∃ path, Path up next path ∧ (p :: path).Nodup

omit [DecidableEq ι] in
theorem Grounded.empty : Grounded (fun _ : ι => none) := fun _ _ known => by cases known

theorem Grounded.extend {up : Pointers ι} (grounded : Grounded up) {id : ι} (fresh : up id = none)
    {parent : Option ι} (known : ∀ p, parent = some p → ∃ next, up p = some next) :
    Grounded (extend up id parent) := by
  intro p next hp
  by_cases same : p = id
  · subst same
    rw [extend_self] at hp
    cases hp
    cases parent with
    | none => exact ⟨[], .root, List.nodup_singleton p⟩
    | some q =>
      obtain ⟨next, hq⟩ := known q rfl
      obtain ⟨path, hpath, nodup⟩ := grounded q next hq
      have whole : Path up (some q) (q :: path) := .hop hq hpath
      refine ⟨q :: path, whole.extend fresh _, List.nodup_cons.mpr ⟨fun member => ?_, nodup⟩⟩
      obtain ⟨r, hr⟩ := whole.known p member
      rw [fresh] at hr
      cases hr
  · rw [extend_of_ne up parent same] at hp
    obtain ⟨path, hpath, nodup⟩ := grounded p next hp
    exact ⟨path, hpath.extend fresh parent, nodup⟩

end Ancestry
