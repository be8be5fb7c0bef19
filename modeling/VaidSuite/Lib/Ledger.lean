import Mathlib.Data.List.Induction
import VaidSuite.Lib.Ancestry

/-! A ledger of arrivals whose memory may be wiped.
The truth is every arrival so far, the memory only those since the last wipe. On a
well-formed ledger memory never disagrees with the truth, and an ancestry whose
oldest node arrived after the last wipe is remembered whole. -/
namespace Ledger

universe u
variable {ι : Type u} [DecidableEq ι]

open Ancestry (Pointers Path Grounded extend)

inductive Event (ι : Type u) where
  | arrived (id : ι) (parent : Option ι)
  | wiped

def truth (ledger : List (Event ι)) : Pointers ι :=
  ledger.foldl (fun up e => match e with
    | .arrived id parent => extend up id parent
    | .wiped => up) (fun _ => none)

def memory (ledger : List (Event ι)) : Pointers ι :=
  ledger.foldl (fun up e => match e with
    | .arrived id parent => extend up id parent
    | .wiped => fun _ => none) (fun _ => none)

@[simp] theorem truth_arrived (ledger : List (Event ι)) (id : ι) (parent : Option ι) :
    truth (ledger ++ [.arrived id parent]) = extend (truth ledger) id parent := by simp [truth]

@[simp] theorem truth_wiped (ledger : List (Event ι)) :
    truth (ledger ++ [.wiped]) = truth ledger := by simp [truth]

@[simp] theorem memory_arrived (ledger : List (Event ι)) (id : ι) (parent : Option ι) :
    memory (ledger ++ [.arrived id parent]) = extend (memory ledger) id parent := by simp [memory]

@[simp] theorem memory_wiped (ledger : List (Event ι)) :
    memory (ledger ++ [.wiped]) = fun _ => none := by simp [memory]

/-- Every arrival is new, and its parent arrived before it. -/
inductive WellFormed : List (Event ι) → Prop where
  | nil : WellFormed []
  | arrived {ledger : List (Event ι)} {id : ι} {parent : Option ι} :
      WellFormed ledger → truth ledger id = none →
      (∀ p, parent = some p → ∃ next, truth ledger p = some next) →
      WellFormed (ledger ++ [.arrived id parent])
  | wiped {ledger : List (Event ι)} : WellFormed ledger → WellFormed (ledger ++ [.wiped])

namespace WellFormed

theorem grounded {ledger : List (Event ι)} (wf : WellFormed ledger) : Grounded (truth ledger) := by
  induction wf with
  | nil => exact Grounded.empty
  | arrived _ fresh known ih =>
    rw [truth_arrived]
    exact ih.extend fresh known
  | wiped _ ih => rwa [truth_wiped]

theorem memory_le_truth {ledger : List (Event ι)} (wf : WellFormed ledger) {p : ι}
    {next : Option ι} (remembered : memory ledger p = some next) :
    truth ledger p = some next := by
  induction wf with
  | nil => cases remembered
  | @arrived ledger id parent _ fresh _ ih =>
    rw [memory_arrived] at remembered
    rw [truth_arrived]
    by_cases same : p = id
    · subst same
      rwa [Ancestry.extend_self] at remembered ⊢
    · rw [Ancestry.extend_of_ne _ _ same] at remembered ⊢
      exact ih remembered
  | wiped _ _ =>
    rw [memory_wiped] at remembered
    cases remembered

theorem concat_inv {ledger : List (Event ι)} {e : Event ι} (wf : WellFormed (ledger ++ [e])) :
    WellFormed ledger ∧ ∀ id parent, e = .arrived id parent → truth ledger id = none := by
  generalize whole : ledger ++ [e] = events at wf
  cases wf with
  | nil => simp at whole
  | arrived wf fresh _ =>
    obtain ⟨rfl, last⟩ := List.append_inj' whole rfl
    cases last
    refine ⟨wf, ?_⟩
    rintro _ _ ⟨⟩
    exact fresh
  | wiped wf =>
    obtain ⟨rfl, last⟩ := List.append_inj' whole rfl
    cases last
    refine ⟨wf, ?_⟩
    rintro _ _ ⟨⟩

theorem of_append {before after : List (Event ι)} (wf : WellFormed (before ++ after)) :
    WellFormed before := by
  induction after using List.reverseRecOn with
  | nil => simpa using wf
  | append_singleton after e ih =>
    rw [← List.append_assoc] at wf
    exact ih wf.concat_inv.1

theorem truth_mono {before after : List (Event ι)} (wf : WellFormed (before ++ after)) {p : ι}
    {next : Option ι} (known : truth before p = some next) :
    truth (before ++ after) p = some next := by
  induction after using List.reverseRecOn with
  | nil => simpa using known
  | append_singleton after e ih =>
    rw [← List.append_assoc] at wf ⊢
    have earlier := ih wf.concat_inv.1
    cases e with
    | wiped => rwa [truth_wiped]
    | arrived id parent =>
      have fresh := wf.concat_inv.2 id parent rfl
      rw [truth_arrived, Ancestry.extend_of_ne]
      · exact earlier
      · rintro rfl
        rw [earlier] at fresh
        cases fresh

/-- Without a wipe since, whatever arrived is remembered. -/
theorem memory_of_unwiped {before after : List (Event ι)} (unwiped : Event.wiped ∉ after) {p : ι}
    (unknown : truth before p = none) {next : Option ι}
    (known : truth (before ++ after) p = some next) :
    memory (before ++ after) p = some next := by
  induction after using List.reverseRecOn with
  | nil =>
    rw [List.append_nil, unknown] at known
    cases known
  | append_singleton after e ih =>
    rw [← List.append_assoc] at known ⊢
    have unwiped' : Event.wiped ∉ after := fun h => unwiped (List.mem_append_left _ h)
    cases e with
    | wiped => exact absurd (List.mem_append_right _ (List.mem_singleton_self _)) unwiped
    | arrived id parent =>
      rw [truth_arrived] at known
      rw [memory_arrived]
      by_cases same : p = id
      · subst same
        rwa [Ancestry.extend_self] at known ⊢
      · rw [Ancestry.extend_of_ne _ _ same] at known ⊢
        exact ih unwiped' known

/-- If the oldest node of an ancestry arrived after the last wipe, so did all of
it, and all of it is remembered. -/
theorem path_remembered {ledger : List (Event ι)} (wf : WellFormed ledger) {next : Option ι}
    {path : List ι} (true_ : Path (truth ledger) next path)
    (recent : ∀ oldest, path.getLast? = some oldest → ∃ before after parent,
      ledger = before ++ .arrived oldest parent :: after ∧ Event.wiped ∉ after) :
    Path (memory ledger) next path := by
  refine true_.mono (fun p hp => ?_)
  obtain ⟨q, upper, known, above, suffix⟩ := true_.above hp
  obtain ⟨oldest, last⟩ : ∃ oldest, path.getLast? = some oldest := by
    cases path with
    | nil => cases hp
    | cons a path => exact ⟨_, List.getLast?_eq_some_getLast (by simp)⟩
  obtain ⟨before, after, parent, rfl, unwiped⟩ := recent oldest last
  have wfBefore : WellFormed before := wf.of_append
  have fresh : truth before oldest = none := by
    have prefix_ : WellFormed (before ++ [.arrived oldest parent]) := by
      exact of_append (by simpa using wf : WellFormed
        ((before ++ [.arrived oldest parent]) ++ after))
    exact prefix_.concat_inv.2 oldest parent rfl
  -- a node that had arrived earlier would have its whole ancestry earlier
  have unknown : truth before p = none := by
    cases early : truth before p with
    | none => rfl
    | some r =>
      exfalso
      obtain ⟨earlier, hearlier, _⟩ := wfBefore.grounded p r early
      have known' := wf.truth_mono early
      have same : r = q := Option.some.inj (known'.symm.trans known)
      subst same
      have lifted : Path (truth (before ++ .arrived oldest parent :: after)) r earlier := by
        refine hearlier.mono (fun a ha => ?_)
        obtain ⟨s, hs⟩ := hearlier.known a ha
        rw [hs, wf.truth_mono hs]
      have upperIs : earlier = upper := lifted.unique above
      have member : oldest ∈ p :: upper := by
        obtain ⟨lower, rfl⟩ := suffix
        rw [List.getLast?_append_cons] at last
        exact List.mem_of_getLast? last
      have oldestKnown : ∃ s, truth before oldest = some s := by
        rcases List.mem_cons.mp member with rfl | member
        · exact ⟨_, early⟩
        · exact hearlier.known oldest (upperIs ▸ member)
      obtain ⟨s, hs⟩ := oldestKnown
      rw [fresh] at hs
      cases hs
  rw [known]
  have unwiped' : Event.wiped ∉ .arrived oldest parent :: after := by simpa using unwiped
  exact memory_of_unwiped unwiped' unknown known

end WellFormed

end Ledger
