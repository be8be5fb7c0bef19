import Mathlib.Data.List.Basic

/-! Runs of a deterministic state machine.
An invariant kept by every step that meets a condition holds after every run
whose steps all meet it. -/
namespace Runs

universe u v
variable {S : Type u} {A : Type v} (step : S → A → S)

def run (s : S) (ops : List A) : S := ops.foldl step s

@[simp] theorem run_nil (s : S) : run step s [] = s := rfl

@[simp] theorem run_cons (s : S) (a : A) (ops : List A) :
    run step s (a :: ops) = run step (step s a) ops := rfl

theorem run_append (s : S) (xs ys : List A) :
    run step s (xs ++ ys) = run step (run step s xs) ys :=
  List.foldl_append

theorem run_concat (s : S) (ops : List A) (a : A) :
    run step s (ops ++ [a]) = step (run step s ops) a := by
  rw [run_append]; rfl

/-- Each step meets `good` in the state it is taken from. -/
inductive Along (good : S → A → Prop) : S → List A → Prop where
  | nil {s : S} : Along good s []
  | cons {s : S} {a : A} {ops : List A} : good s a → Along good (step s a) ops →
      Along good s (a :: ops)

variable {step}

theorem Along.append {good : S → A → Prop} {s : S} {xs ys : List A} (h : Along step good s xs)
    (rest : Along step good (run step s xs) ys) : Along step good s (xs ++ ys) := by
  induction h with
  | nil => exact rest
  | cons here _ ih => exact .cons here (ih rest)

theorem Along.concat {good : S → A → Prop} {s : S} {ops : List A} {a : A}
    (h : Along step good s ops) (last : good (run step s ops) a) :
    Along step good s (ops ++ [a]) :=
  h.append (.cons last .nil)

theorem Along.of_forall {good : S → A → Prop} (all : ∀ s a, good s a) (s : S) (ops : List A) :
    Along step good s ops := by
  induction ops generalizing s with
  | nil => exact .nil
  | cons a ops ih => exact .cons (all s a) (ih _)

theorem Along.imp {good good' : S → A → Prop} (h : ∀ s a, good s a → good' s a) {s : S}
    {ops : List A} (along : Along step good s ops) : Along step good' s ops := by
  induction along with
  | nil => exact .nil
  | cons here _ ih => exact .cons (h _ _ here) ih

theorem invariant (inv : S → Prop) (good : S → A → Prop)
    (preserved : ∀ s a, inv s → good s a → inv (step s a)) {s : S} {ops : List A}
    (initial : inv s) (along : Along step good s ops) : inv (run step s ops) := by
  induction along with
  | nil => exact initial
  | cons here _ ih => exact ih (preserved _ _ initial here)

end Runs
