import Mathlib.Data.List.Basic

/-! Ordered refusals: a procedure that makes its checks one after the other and
answers with the first one that fails. -/
namespace Guards

universe u
variable {V : Type u}

theorem guard_eq_iff {c : Prop} [Decidable c] {refusal rest target : V}
    (distinct : refusal ≠ target) :
    (if c then refusal else rest) = target ↔ ¬ c ∧ rest = target := by
  by_cases h : c <;> simp [h, distinct]

/-- The refusal of the first step that does not pass, or `accepted`. -/
def firstRefusal (accepted : V) : List (Bool × V) → V
  | [] => accepted
  | (passes, refusal) :: steps => if passes then firstRefusal accepted steps else refusal

theorem firstRefusal_append (accepted : V) (before after : List (Bool × V)) :
    firstRefusal accepted (before ++ after) = firstRefusal (firstRefusal accepted after) before := by
  induction before with
  | nil => rfl
  | cons s before ih =>
    obtain ⟨passes, refusal⟩ := s
    simp only [List.cons_append, firstRefusal, ih]

theorem firstRefusal_map {W : Type*} (rename : V → W) (accepted : V) (steps : List (Bool × V)) :
    firstRefusal (rename accepted) (steps.map (Prod.map id rename)) =
      rename (firstRefusal accepted steps) := by
  induction steps with
  | nil => rfl
  | cons s steps ih =>
    obtain ⟨passes, refusal⟩ := s
    cases passes with
    | false => rfl
    | true => exact ih

theorem firstRefusal_of_refused (a b : V) {steps : List (Bool × V)} (refused : ∃ s ∈ steps, s.1 = false) :
    firstRefusal a steps = firstRefusal b steps := by
  induction steps with
  | nil => simp at refused
  | cons s steps ih =>
    obtain ⟨passes, refusal⟩ := s
    cases passes with
    | false => rfl
    | true =>
      obtain ⟨s, member, hs⟩ := refused
      rcases List.mem_cons.mp member with rfl | member
      · cases hs
      · exact ih ⟨s, member, hs⟩

theorem firstRefusal_eq_accepted_iff (accepted : V) (steps : List (Bool × V))
    (distinct : ∀ s ∈ steps, s.2 ≠ accepted) :
    firstRefusal accepted steps = accepted ↔ ∀ s ∈ steps, s.1 = true := by
  induction steps with
  | nil => simp [firstRefusal]
  | cons s steps ih =>
    obtain ⟨passes, refusal⟩ := s
    have rest := ih (fun s hs => distinct s (List.mem_cons_of_mem _ hs))
    have here : refusal ≠ accepted := distinct _ List.mem_cons_self
    cases passes <;> simp [firstRefusal, here, rest]

theorem firstRefusal_then [DecidableEq V] (accepted rest : V) (steps : List (Bool × V))
    (distinct : ∀ s ∈ steps, s.2 ≠ accepted) :
    firstRefusal rest steps =
      if firstRefusal accepted steps = accepted then rest else firstRefusal accepted steps := by
  induction steps with
  | nil => simp [firstRefusal]
  | cons s steps ih =>
    obtain ⟨passes, refusal⟩ := s
    have here : refusal ≠ accepted := distinct _ List.mem_cons_self
    cases passes with
    | false => simp [firstRefusal, here]
    | true => exact ih (fun s hs => distinct s (List.mem_cons_of_mem _ hs))

theorem all_eq_isNone_find {α β : Type*} (f : α → β) {offends : β → Bool} {passes : α → Bool}
    (each : ∀ a, offends (f a) = !passes a) (items : List α) :
    items.all passes = ((items.map f).find? offends).isNone := by
  induction items with
  | nil => rfl
  | cons a items ih =>
    rw [List.all_cons, ih, List.map_cons, List.find?_cons, each]
    cases passes a <;> rfl

end Guards
