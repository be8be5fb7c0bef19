import Mathlib.Data.Finset.Insert
import Mathlib.Logic.Function.Basic
import VaidSuite.Document
import VaidSuite.Lib.Ancestry
import VaidSuite.Lib.Runs

/-! The revocation seam: lineage assembly, the three-state check over an
assembled lineage, and the two in-memory stores. -/
namespace VaidSuite

/-- Defensive bound on the number of documents in a lineage. -/
def maxLineageDepth : Nat := 1024

inductive RevocationStatus where
  | notRevoked
  | revoked
  | unavailable
  deriving DecidableEq, Repr

/-- The check answers about a lineage it is handed. It resolves nothing. -/
class RevocationCheck (R : Type) where
  checkLineage : R → List VaidId → RevocationStatus

inductive ParentResolution where
  | root
  | parent (vaidId : VaidId)
  | unknown
  deriving DecidableEq

/-- A resolver is its one method, `resolve_parent`. -/
abbrev LineageResolver := VaidId → ParentResolution

inductive LineageAssembly where
  | complete (lineage : List VaidId)
  | incomplete
  deriving DecidableEq

/-- The loop of `assembleLineage`, leaf first. The fuel is the depth bound, which
stops the source's loop as well. -/
def assembleLoop (resolveParent : LineageResolver) :
    Nat → List VaidId → Option VaidId → LineageAssembly
  | _, chain, none => .complete chain.reverse
  | 0, _, some _ => .incomplete
  | fuel + 1, chain, some pid =>
    if pid ∈ chain ∨ maxLineageDepth ≤ chain.length then .incomplete
    else match resolveParent pid with
      | .root => assembleLoop resolveParent fuel (chain ++ [pid]) none
      | .parent grandparent => assembleLoop resolveParent fuel (chain ++ [pid]) (some grandparent)
      | .unknown => .incomplete

/-- The ordered lineage of `leaf`, root first. -/
def assembleLineage (leaf : Vaid) (resolveParent : LineageResolver) : LineageAssembly :=
  assembleLoop resolveParent maxLineageDepth [leaf.vaidId] leaf.parentVaid

@[simp] theorem assembleLoop_none (resolveParent : LineageResolver) (fuel : Nat)
    (chain : List VaidId) :
    assembleLoop resolveParent fuel chain none = .complete chain.reverse := by
  cases fuel <;> rfl

namespace ParentResolution

def toPointer : ParentResolution → Option (Option VaidId)
  | root => some none
  | parent p => some (some p)
  | unknown => none

end ParentResolution

def LineageResolver.pointers (resolveParent : LineageResolver) : Ancestry.Pointers VaidId :=
  fun id => (resolveParent id).toPointer

theorem assembleLoop_eq_climb (resolveParent : LineageResolver) (fuel : Nat)
    (chain : List VaidId) (next : Option VaidId) :
    assembleLoop resolveParent fuel chain next =
      match Ancestry.climb (LineageResolver.pointers resolveParent) maxLineageDepth fuel
        chain.reverse next with
      | some lineage => .complete lineage
      | none => .incomplete := by
  induction fuel generalizing chain next with
  | zero => cases next <;> rfl
  | succ fuel ih =>
    cases next with
    | none => rfl
    | some pid =>
      simp only [assembleLoop, Ancestry.climb, List.mem_reverse, List.length_reverse]
      split
      · rfl
      · cases h : resolveParent pid <;>
          simp [LineageResolver.pointers, ParentResolution.toPointer, h, ih]

def HasAncestry (resolveParent : LineageResolver) (leaf : Vaid) (path : List VaidId) : Prop :=
  Ancestry.Path (LineageResolver.pointers resolveParent) leaf.parentVaid path

/-- Assembly succeeds exactly on a complete ancestry without repetition and within
the bound, and returns the whole of it. -/
theorem assembleLineage_eq_complete_iff (leaf : Vaid) (resolveParent : LineageResolver)
    (lineage : List VaidId) :
    assembleLineage leaf resolveParent = .complete lineage ↔
      ∃ path, HasAncestry resolveParent leaf path ∧ (leaf.vaidId :: path).Nodup ∧
        (leaf.vaidId :: path).length ≤ maxLineageDepth ∧
        lineage = (leaf.vaidId :: path).reverse := by
  have climbs := Ancestry.climb_eq_some_iff (LineageResolver.pointers resolveParent)
    maxLineageDepth (by decide) leaf.vaidId leaf.parentVaid lineage
  unfold HasAncestry
  rw [← climbs, assembleLineage, assembleLoop_eq_climb, List.reverse_singleton]
  split <;> rename_i h <;> simp [h]

theorem assembleLineage_eq_incomplete_iff (leaf : Vaid) (resolveParent : LineageResolver) :
    assembleLineage leaf resolveParent = .incomplete ↔
      ∀ path, HasAncestry resolveParent leaf path → (leaf.vaidId :: path).Nodup →
        maxLineageDepth < (leaf.vaidId :: path).length := by
  constructor
  · intro h path hpath hnodup
    by_contra short
    have complete := (assembleLineage_eq_complete_iff leaf resolveParent _).mpr
      ⟨path, hpath, hnodup, Nat.le_of_not_lt short, rfl⟩
    rw [h] at complete
    cases complete
  · intro long
    cases h : assembleLineage leaf resolveParent with
    | incomplete => rfl
    | complete lineage =>
      obtain ⟨path, hpath, hnodup, hle, _⟩ :=
        (assembleLineage_eq_complete_iff leaf resolveParent lineage).mp h
      exact absurd (long path hpath hnodup) (Nat.not_lt.mpr hle)

/-- `none` is absent state, which cannot vouch. `some` is a vouching store. -/
structure InMemoryRevocationList where
  state : Option (Finset VaidId)

namespace InMemoryRevocationList

def new : InMemoryRevocationList := ⟨none⟩

def assumeNothingRevoked : InMemoryRevocationList := ⟨some ∅⟩

/-- Revoking populates the store, and so makes it vouch. -/
def revoke (list : InMemoryRevocationList) (vaidId : VaidId) : InMemoryRevocationList :=
  ⟨some (insert vaidId (list.state.getD ∅))⟩

def markUnavailable (_ : InMemoryRevocationList) : InMemoryRevocationList := ⟨none⟩

def checkLineage (list : InMemoryRevocationList) (lineage : List VaidId) : RevocationStatus :=
  match list.state with
  | none => .unavailable
  | some revoked => if lineage.any (fun id => decide (id ∈ revoked)) then .revoked else .notRevoked

instance : RevocationCheck InMemoryRevocationList := ⟨checkLineage⟩

theorem checkLineage_eq_notRevoked_iff (list : InMemoryRevocationList) (lineage : List VaidId) :
    list.checkLineage lineage = .notRevoked ↔
      ∃ revoked, list.state = some revoked ∧ ∀ id ∈ lineage, id ∉ revoked := by
  unfold checkLineage
  cases h : list.state with
  | none => simp
  | some revoked => simp

/-- One call on a list. -/
inductive Op where
  | revoke (vaidId : VaidId)
  | markUnavailable
  | checkLineage (lineage : List VaidId)
  deriving DecidableEq

def step (list : InMemoryRevocationList) : Op → InMemoryRevocationList
  | .revoke vaidId => list.revoke vaidId
  | .markUnavailable => list.markUnavailable
  | .checkLineage _ => list

/-- The calls after the last loss of state. -/
def sinceLoss (history : List Op) : List Op :=
  (history.reverse.takeWhile (· ≠ .markUnavailable)).reverse

theorem sinceLoss_concat (history : List Op) (op : Op) : sinceLoss (history ++ [op]) =
    if op = .markUnavailable then [] else sinceLoss history ++ [op] := by
  by_cases h : op = .markUnavailable <;> simp [sinceLoss, h]

/-- A store holds exactly what was revoked since its state was last lost, and
vouches exactly when something was. -/
theorem run_state (history : List Op) :
    ((Runs.run step new history).state = none ∧ ∀ y, Op.revoke y ∉ sinceLoss history) ∨
    ∃ revoked, (Runs.run step new history).state = some revoked ∧
      (∃ y, Op.revoke y ∈ sinceLoss history) ∧
      ∀ y, y ∈ revoked ↔ Op.revoke y ∈ sinceLoss history := by
  induction history using List.reverseRecOn with
  | nil => exact .inl ⟨rfl, by simp [sinceLoss]⟩
  | append_singleton history op ih =>
    rw [Runs.run_concat, sinceLoss_concat]
    cases op with
    | markUnavailable => exact .inl ⟨rfl, by simp⟩
    | checkLineage lineage => simpa [step] using ih
    | revoke x =>
      refine .inr ⟨_, rfl, ⟨x, by simp⟩, fun y => ?_⟩
      rcases ih with ⟨absent, none_⟩ | ⟨revoked, vouching, _, exact_⟩
      · simp [absent, none_]
      · simp [vouching, exact_, or_comm]

/-- After any history, no check of a lineage containing `x` reports `NotRevoked`
exactly when nothing was revoked since the last loss of state or `x` was. -/
theorem never_notRevoked_iff (history : List Op) (x : VaidId) :
    (∀ lineage, x ∈ lineage →
        (Runs.run step new history).checkLineage lineage ≠ .notRevoked) ↔
      (∀ y, Op.revoke y ∉ sinceLoss history) ∨ Op.revoke x ∈ sinceLoss history := by
  simp only [ne_eq, checkLineage_eq_notRevoked_iff, not_exists, not_and, not_forall,
    not_not]
  rcases run_state history with ⟨absent, none_⟩ | ⟨revoked, vouching, ⟨y, hy⟩, exact_⟩
  · simp [absent, none_]
  · simp only [vouching, Option.some.injEq, forall_eq']
    constructor
    · intro h
      obtain ⟨z, hz, hrevoked⟩ := h [x] (List.mem_singleton_self x)
      rw [List.mem_singleton] at hz
      exact .inr ((exact_ x).mp (hz ▸ hrevoked))
    · rintro (none_ | hx) lineage member
      · exact absurd hy (none_ y)
      · exact ⟨x, member, (exact_ x).mpr hx⟩

/-- A revocation, a loss of state, and a revocation of something else. -/
theorem revoked_then_notRevoked :
    (Runs.run step new [.revoke ⟨.fromU128 1⟩, .markUnavailable, .revoke ⟨.fromU128 2⟩]).checkLineage
      [⟨.fromU128 1⟩] = .notRevoked := by
  decide

end InMemoryRevocationList

structure LineageWriteError where
  message : String

instance : ToString LineageWriteError := ⟨fun e => "lineage write failed: " ++ e.message⟩

/-- The store a mint writes and assembly reads. A write may fail. -/
class LineageStore (L : Type) where
  resolveParent : L → LineageResolver
  tryRecord : L → VaidId → Option VaidId → Except LineageWriteError Unit × L

def ParentResolution.ofRecorded : Option VaidId → ParentResolution
  | none => .root
  | some p => .parent p

/-- A store that resolves what it recorded, and otherwise answers as before. -/
class LawfulLineageStore (L : Type) [LineageStore L] : Prop where
  resolve_recorded : ∀ (store : L) (id : VaidId) (parent : Option VaidId),
    (LineageStore.tryRecord store id parent).1 = .ok () →
    LineageStore.resolveParent (LineageStore.tryRecord store id parent).2 id =
      .ofRecorded parent
  resolve_other : ∀ (store : L) (id other : VaidId) (parent : Option VaidId), other ≠ id →
    LineageStore.resolveParent (LineageStore.tryRecord store id parent).2 other =
      LineageStore.resolveParent store other
  resolve_refused : ∀ (store : L) (id : VaidId) (parent : Option VaidId) (e : LineageWriteError),
    (LineageStore.tryRecord store id parent).1 = .error e →
    LineageStore.resolveParent (LineageStore.tryRecord store id parent).2 =
      LineageStore.resolveParent store

/-- The reference store. Roots are recorded as `some none`. -/
structure InMemoryLineageStore where
  entries : VaidId → Option (Option VaidId)

namespace InMemoryLineageStore

def new : InMemoryLineageStore := ⟨fun _ => none⟩

def clear (_ : InMemoryLineageStore) : InMemoryLineageStore := new

def resolveParent (store : InMemoryLineageStore) (vaidId : VaidId) : ParentResolution :=
  match store.entries vaidId with
  | some (some parent) => .parent parent
  | some none => .root
  | none => .unknown

def record (store : InMemoryLineageStore) (vaidId : VaidId) (parent : Option VaidId) :
    InMemoryLineageStore :=
  ⟨Function.update store.entries vaidId (some parent)⟩

instance : LineageStore InMemoryLineageStore where
  resolveParent := resolveParent
  tryRecord store vaidId parent := (.ok (), store.record vaidId parent)

theorem resolveParent_record (store : InMemoryLineageStore) (id other : VaidId)
    (parent : Option VaidId) : (store.record id parent).resolveParent other =
      if other = id then .ofRecorded parent else store.resolveParent other := by
  by_cases same : other = id
  · subst same
    cases parent <;> simp [resolveParent, record, ParentResolution.ofRecorded]
  · simp [resolveParent, record, same]

instance : LawfulLineageStore InMemoryLineageStore where
  resolve_recorded store id parent _ := by
    exact (resolveParent_record store id id parent).trans (if_pos rfl)
  resolve_other store id other parent distinct := by
    exact (resolveParent_record store id other parent).trans (if_neg distinct)
  resolve_refused _ _ _ _ refused := by cases refused

theorem pointers_eq (store : InMemoryLineageStore) :
    LineageResolver.pointers store.resolveParent = store.entries := by
  funext id
  unfold LineageResolver.pointers resolveParent
  rcases store.entries id with _ | _ | p <;> rfl

end InMemoryLineageStore

end VaidSuite
