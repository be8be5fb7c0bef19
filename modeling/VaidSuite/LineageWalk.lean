import Mathlib.Data.List.Chain
import VaidSuite.Revocation
import VaidSuite.Lib.Rounds

/-! Lineage assembly as it runs, one call of the resolver after the other. A resolver may be
cyclic, contradict the documents, or change its answers from call to call. -/
namespace VaidSuite.LineageWalk

open Rounds (Exec loop)

/-- A resolver with a state of its own, which a call may change. -/
abbrev Resolver (S : Type) := S → VaidId → ParentResolution × S

abbrev Calls := List (VaidId × ParentResolution)

/-- The locals of the loop, leaf first, and the resolver with the calls it has had. -/
structure Walk (S : Type) where
  chain : List VaidId
  nextParent : Option VaidId
  resolver : S
  calls : Calls

variable {S : Type} (resolveParent : Resolver S)

/-- One round of `assembleLineage`. -/
def assembleRound (w : Walk S) : Exec (Walk S ⊕ (LineageAssembly × Calls)) :=
  match w.nextParent with
  | none => .returned (.inr (.complete w.chain.reverse, w.calls))
  | some pid =>
    if pid ∈ w.chain ∨ maxLineageDepth ≤ w.chain.length then
      .returned (.inr (.incomplete, w.calls))
    else
      let answer := resolveParent w.resolver pid
      let chain := w.chain ++ [pid]
      let calls := w.calls ++ [(pid, answer.1)]
      match answer.1 with
      | .root => .returned (.inl ⟨chain, none, answer.2, calls⟩)
      | .parent grandparent => .returned (.inl ⟨chain, some grandparent, answer.2, calls⟩)
      | .unknown => .returned (.inr (.incomplete, calls))

def assembleLineage (rounds : Nat) (leaf : Vaid) (resolver : S) :
    Exec (LineageAssembly × Calls) :=
  loop (assembleRound resolveParent) rounds ⟨[leaf.vaidId], leaf.parentVaid, resolver, []⟩

/-- Asked about `next`, about the parent it answers, and so on, the resolver comes to a root. -/
inductive Told : S → Option VaidId → Calls → Prop where
  | root {s : S} : Told s none []
  | hop {s : S} {p : VaidId} {next : Option VaidId} {calls : Calls} :
      (resolveParent s p).1.toPointer = some next → Told (resolveParent s p).2 next calls →
      Told s (some p) ((p, (resolveParent s p).1) :: calls)

/-- The ids that were asked about, nearest to the leaf first. -/
def ids (calls : Calls) : List VaidId := calls.map Prod.fst

/-- `parent` is the resolved parent of `child`: the leaf names it, or the resolver does. -/
def Linked (leaf : Vaid) (calls : Calls) (parent child : VaidId) : Prop :=
  (child = leaf.vaidId ∧ leaf.parentVaid = some parent) ∨ (child, .parent parent) ∈ calls

/-- A lineage that is complete: all the way from the leaf to a root, without a repetition and
within the bound. -/
structure Complete (leaf : Vaid) (s : S) (calls : Calls) : Prop where
  told : Told resolveParent s leaf.parentVaid calls
  distinct : (leaf.vaidId :: ids calls).Nodup
  short : (leaf.vaidId :: ids calls).length ≤ maxLineageDepth

variable {resolveParent}

theorem told_none {s : S} {calls : Calls} : Told resolveParent s none calls ↔ calls = [] := by
  constructor
  · intro h
    cases h
    rfl
  · rintro rfl
    exact .root

theorem told_some {s : S} {p : VaidId} {calls : Calls} : Told resolveParent s (some p) calls ↔
    ∃ next rest, (resolveParent s p).1.toPointer = some next ∧
      Told resolveParent (resolveParent s p).2 next rest ∧
      calls = (p, (resolveParent s p).1) :: rest := by
  constructor
  · intro h
    cases h with
    | hop known rest => exact ⟨_, _, known, rest, rfl⟩
  · rintro ⟨next, rest, known, told, rfl⟩
    exact .hop known told

theorem Told.unique {s : S} {next : Option VaidId} {xs ys : Calls}
    (hx : Told resolveParent s next xs) (hy : Told resolveParent s next ys) : xs = ys := by
  induction hx generalizing ys with
  | root => exact (told_none.mp hy).symm
  | hop known _ ih =>
    obtain ⟨next, rest, known', told, rfl⟩ := told_some.mp hy
    cases known.symm.trans known'
    rw [ih told]

/-! ### What the rounds keep -/

variable (resolveParent) in
/-- The chain is the leaf and what was asked about, and every ancestry goes on from there. -/
structure Climbing (leaf : Vaid) (s : S) (w : Walk S) : Prop where
  chain : w.chain = leaf.vaidId :: ids w.calls
  distinct : w.chain.Nodup
  short : w.chain.length ≤ maxLineageDepth
  ahead : ∀ calls, Told resolveParent s leaf.parentVaid calls ↔
    ∃ rest, calls = w.calls ++ rest ∧ Told resolveParent w.resolver w.nextParent rest

theorem ids_append (calls : Calls) (p : VaidId) (answer : ParentResolution) :
    ids (calls ++ [(p, answer)]) = ids calls ++ [p] := by
  rw [ids, List.map_append]
  rfl

theorem assembleRound_cases (resolveParent : Resolver S) (w : Walk S) :
    (w.nextParent = none ∧ assembleRound resolveParent w =
      .returned (.inr (.complete w.chain.reverse, w.calls))) ∨
    ∃ p, w.nextParent = some p ∧
      ((p ∈ w.chain ∨ maxLineageDepth ≤ w.chain.length) ∧
          assembleRound resolveParent w = .returned (.inr (.incomplete, w.calls)) ∨
        p ∉ w.chain ∧ w.chain.length < maxLineageDepth ∧
          ((resolveParent w.resolver p).1.toPointer = none ∧
            assembleRound resolveParent w = .returned (.inr (.incomplete,
              w.calls ++ [(p, (resolveParent w.resolver p).1)])) ∨
          ∃ next, (resolveParent w.resolver p).1.toPointer = some next ∧
            assembleRound resolveParent w = .returned (.inl ⟨w.chain ++ [p], next,
              (resolveParent w.resolver p).2, w.calls ++ [(p, (resolveParent w.resolver p).1)]⟩))) := by
  unfold assembleRound
  cases w.nextParent with
  | none => exact .inl ⟨rfl, rfl⟩
  | some p =>
    refine .inr ⟨p, rfl, ?_⟩
    by_cases stops : p ∈ w.chain ∨ maxLineageDepth ≤ w.chain.length
    · simp only [if_pos stops]
      exact .inl ⟨stops, trivial⟩
    · simp only [if_neg stops]
      rw [not_or, Nat.not_le] at stops
      refine .inr ⟨stops.1, stops.2, ?_⟩
      cases answer : (resolveParent w.resolver p).1 with
      | root => exact .inr ⟨none, rfl, rfl⟩
      | parent g => exact .inr ⟨some g, rfl, rfl⟩
      | unknown => exact .inl ⟨rfl, rfl⟩

theorem climbing_start (leaf : Vaid) (s : S) :
    Climbing resolveParent leaf s ⟨[leaf.vaidId], leaf.parentVaid, s, []⟩ where
  chain := rfl
  distinct := List.nodup_singleton _
  short := (by decide : 1 ≤ maxLineageDepth)
  ahead calls := by simp

theorem Climbing.next {leaf : Vaid} {s : S} {w w' : Walk S}
    (h : Climbing resolveParent leaf s w)
    (again : assembleRound resolveParent w = .returned (.inl w')) :
    Climbing resolveParent leaf s w' := by
  rcases assembleRound_cases resolveParent w with
    ⟨_, left⟩ | ⟨p, asked, ⟨_, left⟩ | ⟨fresh, room, ⟨_, left⟩ | ⟨next, known, goes⟩⟩⟩
  · cases left.symm.trans again
  · cases left.symm.trans again
  · cases left.symm.trans again
  · cases goes.symm.trans again
    exact {
      chain := by rw [ids_append, h.chain, List.cons_append]
      distinct := List.nodup_append_comm.mp (List.nodup_cons.mpr ⟨fresh, h.distinct⟩)
      short := by
        rw [List.length_append, List.length_singleton]
        exact room
      ahead := by
        intro calls
        rw [h.ahead, asked]
        constructor
        · rintro ⟨rest, rfl, told⟩
          obtain ⟨next', rest', known', told', rfl⟩ := told_some.mp told
          cases known.symm.trans known'
          exact ⟨rest', by rw [List.append_assoc, List.singleton_append], told'⟩
        · rintro ⟨rest, rfl, told⟩
          exact ⟨_, by rw [List.append_assoc, List.singleton_append], .hop known told⟩ }

variable (resolveParent) in
/-- What assembly answers, with the calls that it made. -/
structure Settled (leaf : Vaid) (s : S) (r : LineageAssembly × Calls) : Prop where
  few : r.2.length ≤ maxLineageDepth
  complete : ∀ lineage, r.1 = .complete lineage →
    Complete resolveParent leaf s r.2 ∧ lineage = (leaf.vaidId :: ids r.2).reverse
  incomplete : r.1 = .incomplete → ∀ calls, ¬ Complete resolveParent leaf s calls

theorem Climbing.few {leaf : Vaid} {s : S} {w : Walk S}
    (h : Climbing resolveParent leaf s w) :
    w.calls.length < maxLineageDepth := by
  have short := h.short
  rwa [h.chain, List.length_cons, ids, List.length_map] at short

theorem Climbing.stopped {leaf : Vaid} {s : S} {w : Walk S}
    (h : Climbing resolveParent leaf s w) {p : VaidId}
    (asked : w.nextParent = some p) (stops : p ∈ w.chain ∨ maxLineageDepth ≤ w.chain.length)
    (calls : Calls) : ¬ Complete resolveParent leaf s calls := by
  intro whole
  obtain ⟨rest, rfl, told⟩ := (h.ahead calls).mp whole.told
  rw [asked] at told
  obtain ⟨next, more, -, -, rfl⟩ := told_some.mp told
  have chain : leaf.vaidId :: ids (w.calls ++ (p, (resolveParent w.resolver p).1) :: more) =
      w.chain ++ p :: ids more := by
    rw [h.chain, ids, List.map_append]
    rfl
  have distinct := chain ▸ whole.distinct
  have short := chain ▸ whole.short
  rcases stops with seen | deep
  · exact List.disjoint_of_nodup_append distinct seen List.mem_cons_self
  · rw [List.length_append, List.length_cons] at short
    omega

theorem Climbing.settled {leaf : Vaid} {s : S} {w : Walk S}
    (h : Climbing resolveParent leaf s w) {r : LineageAssembly × Calls}
    (left : assembleRound resolveParent w = .returned (.inr r)) :
    Settled resolveParent leaf s r := by
  rcases assembleRound_cases resolveParent w with
    ⟨ended, left'⟩ | ⟨p, asked, ⟨stops, left'⟩ | ⟨fresh, room, ⟨unknown, left'⟩ | ⟨next, known, goes⟩⟩⟩
  · cases left'.symm.trans left
    refine ⟨Nat.le_of_lt h.few, ?_, by rintro ⟨⟩⟩
    rintro lineage ⟨⟩
    have told : Told resolveParent s leaf.parentVaid w.calls :=
      (h.ahead w.calls).mpr ⟨[], (List.append_nil _).symm, ended ▸ .root⟩
    exact ⟨⟨told, h.chain ▸ h.distinct, h.chain ▸ h.short⟩, by rw [h.chain]⟩
  · cases left'.symm.trans left
    exact ⟨Nat.le_of_lt h.few, by rintro lineage ⟨⟩, fun _ => h.stopped asked stops⟩
  · cases left'.symm.trans left
    refine ⟨?_, by rintro lineage ⟨⟩, fun _ calls whole => ?_⟩
    · rw [List.length_append, List.length_singleton]
      exact h.few
    · obtain ⟨rest, rfl, told⟩ := (h.ahead calls).mp whole.told
      rw [asked] at told
      obtain ⟨next, more, known, -, -⟩ := told_some.mp told
      cases unknown.symm.trans known
  · cases goes.symm.trans left

theorem assembleRound_progress (resolveParent : Resolver S) (w : Walk S) :
    (∃ r, assembleRound resolveParent w = .returned (.inr r)) ∨
      ∃ w', assembleRound resolveParent w = .returned (.inl w') ∧
        maxLineageDepth - w'.chain.length < maxLineageDepth - w.chain.length := by
  rcases assembleRound_cases resolveParent w with
    ⟨_, left⟩ | ⟨p, _, ⟨_, left⟩ | ⟨_, room, ⟨_, left⟩ | ⟨next, _, goes⟩⟩⟩
  · exact .inl ⟨_, left⟩
  · exact .inl ⟨_, left⟩
  · exact .inl ⟨_, left⟩
  · refine .inr ⟨_, goes, ?_⟩
    rw [List.length_append, List.length_singleton]
    omega

theorem assembleLineage_settled (resolveParent : Resolver S) (leaf : Vaid) (s : S) :
    ∃ r, (∀ rounds, maxLineageDepth ≤ rounds →
        assembleLineage resolveParent rounds leaf s = .returned r) ∧
      Settled resolveParent leaf s r := by
  obtain ⟨r, ends⟩ := Rounds.loop_terminates (assembleRound_progress resolveParent)
    ⟨[leaf.vaidId], leaf.parentVaid, s, []⟩
  have bound : maxLineageDepth - [leaf.vaidId].length < maxLineageDepth :=
    (by decide : maxLineageDepth - 1 < maxLineageDepth)
  refine ⟨r, fun rounds enough => ends rounds (Nat.lt_of_lt_of_le bound enough), ?_⟩
  exact Rounds.post_of_loop (fun w w' h again => Climbing.next h again)
    (fun w r h left => Climbing.settled h left) (climbing_start leaf s) (ends _ bound)

theorem Told.linked {leaf : Vaid} {all : Calls} {s : S} {next : Option VaidId} {calls : Calls}
    (h : Told resolveParent s next calls) (within : calls ⊆ all) {child : VaidId}
    (named : ∀ p, next = some p → Linked leaf all p child) :
    (child :: ids calls).IsChain (fun child parent => Linked leaf all parent child) := by
  induction h generalizing child with
  | root => exact .singleton _
  | @hop s p next calls known _ ih =>
    refine .cons_cons (named p rfl) (ih (fun c hc => within (List.mem_cons_of_mem _ hc)) ?_)
    rintro q rfl
    have answer : (resolveParent s p).1 = .parent q := by
      cases h : (resolveParent s p).1 with
      | parent g =>
        rw [h] at known
        cases known
        rfl
      | _ =>
        rw [h] at known
        cases known
    exact .inr (within (answer ▸ List.mem_cons_self))

/-- A resolver that answers by a function, as the presented documents do. -/
def fixed (resolveParent : LineageResolver) : Resolver Unit := fun s p => (resolveParent p, s)

theorem Told.path {f : LineageResolver} {s : Unit} {next : Option VaidId} {calls : Calls}
    (h : Told (fixed f) s next calls) : Ancestry.Path (LineageResolver.pointers f) next (ids calls) := by
  induction h with
  | root => exact .root
  | hop known _ ih => exact .hop known ih

theorem told_of_path {f : LineageResolver} {next : Option VaidId} {path : List VaidId}
    (h : Ancestry.Path (LineageResolver.pointers f) next path) :
    ∃ calls, Told (fixed f) () next calls ∧ ids calls = path := by
  induction h with
  | root => exact ⟨[], .root, rfl⟩
  | hop known _ ih =>
    obtain ⟨calls, told, rfl⟩ := ih
    exact ⟨_, .hop known told, rfl⟩

theorem assembleLineage_fixed (f : LineageResolver) (leaf : Vaid) {rounds : Nat}
    (enough : maxLineageDepth ≤ rounds) : ∃ calls,
      assembleLineage (fixed f) rounds leaf () =
        .returned (VaidSuite.assembleLineage leaf f, calls) := by
  obtain ⟨⟨outcome, calls⟩, ends, few, complete, incomplete⟩ :=
    assembleLineage_settled (fixed f) leaf ()
  have same : VaidSuite.assembleLineage leaf f = outcome := by
    cases settled : outcome with
    | complete lineage =>
      obtain ⟨whole, rfl⟩ := complete lineage settled
      exact (assembleLineage_eq_complete_iff leaf f _).mpr
        ⟨ids calls, whole.told.path, whole.distinct, whole.short, rfl⟩
    | incomplete =>
      refine (assembleLineage_eq_incomplete_iff leaf f).mpr (fun path ancestry distinct => ?_)
      obtain ⟨told, tells, rfl⟩ := told_of_path ancestry
      by_contra short
      exact incomplete settled told ⟨tells, distinct, Nat.not_lt.mp short⟩
  exact ⟨calls, by rw [ends rounds enough, same]⟩

/-- For every leaf and every resolver, assembly ends after at most 1024 calls of it. It is
complete exactly when the resolver tells an ancestry that ends at a root, has no repetition and
at most 1024 ids; then it is the whole of that ancestry, root first and leaf last, and each
adjacent pair is a parent link that was resolved. -/
theorem assembleLineage_exact (resolveParent : Resolver S) (leaf : Vaid) (s : S) :
    ∃ (outcome : LineageAssembly) (calls : Calls),
      (∀ rounds, 1024 ≤ rounds →
        assembleLineage resolveParent rounds leaf s = .returned (outcome, calls)) ∧
      calls.length ≤ 1024 ∧
      (∀ lineage, outcome = .complete lineage ↔
        ∃ told, Told resolveParent s leaf.parentVaid told ∧ (leaf.vaidId :: ids told).Nodup ∧
          (leaf.vaidId :: ids told).length ≤ 1024 ∧
          lineage = (leaf.vaidId :: ids told).reverse) ∧
      (outcome = .incomplete ↔
        ¬ ∃ told, Told resolveParent s leaf.parentVaid told ∧ (leaf.vaidId :: ids told).Nodup ∧
          (leaf.vaidId :: ids told).length ≤ 1024) ∧
      (∀ lineage, outcome = .complete lineage →
        lineage.getLast? = some leaf.vaidId ∧ lineage.Nodup ∧ lineage.IsChain (Linked leaf calls)) ∧
      ∀ lineage told, outcome = .complete lineage → Told resolveParent s leaf.parentVaid told →
        ∀ front, front ++ lineage = (leaf.vaidId :: ids told).reverse → front = [] := by
  obtain ⟨⟨outcome, calls⟩, ends, few, complete, incomplete⟩ :=
    assembleLineage_settled resolveParent leaf s
  dsimp only at few complete incomplete
  refine ⟨outcome, calls, ends, few, fun lineage => ⟨fun done => ?_, ?_⟩, ⟨fun failed => ?_, ?_⟩,
    fun lineage done => ?_, fun lineage told done path front longer => ?_⟩
  · obtain ⟨whole, rfl⟩ := complete lineage done
    exact ⟨calls, whole.told, whole.distinct, whole.short, rfl⟩
  · rintro ⟨told, path, distinct, short, rfl⟩
    cases settled : outcome with
    | incomplete => exact absurd ⟨path, distinct, short⟩ (incomplete settled told)
    | complete lineage =>
      obtain ⟨whole, rfl⟩ := complete lineage settled
      rw [whole.told.unique path]
  · rintro ⟨told, path, distinct, short⟩
    exact incomplete failed told ⟨path, distinct, short⟩
  · intro none_
    cases settled : outcome with
    | incomplete => rfl
    | complete lineage =>
      obtain ⟨whole, -⟩ := complete lineage settled
      exact absurd ⟨calls, whole.told, whole.distinct, whole.short⟩ none_
  · obtain ⟨whole, rfl⟩ := complete lineage done
    refine ⟨by simp, List.nodup_reverse.mpr whole.distinct, List.isChain_reverse.mpr ?_⟩
    exact whole.told.linked (List.Subset.refl calls) (fun p named => .inl ⟨rfl, named⟩)
  · obtain ⟨whole, rfl⟩ := complete lineage done
    rw [whole.told.unique path] at longer
    exact List.append_left_eq_self.mp longer

end VaidSuite.LineageWalk
