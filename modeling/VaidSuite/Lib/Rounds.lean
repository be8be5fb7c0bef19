import Mathlib.Logic.Basic

/-! Loops, round by round. A round of a loop leaves it, goes on from another state, or panics.
A run has a number of rounds to spend, and what it comes to in fewer it comes to in more. -/
namespace Rounds

universe u v

/-- What a run has come to. -/
inductive Exec (α : Type u) where
  | returned (value : α)
  | panicked
  | unfinished
  deriving DecidableEq

namespace Exec

variable {α : Type u} {β : Type v}

def bind (x : Exec α) (f : α → Exec β) : Exec β :=
  match x with
  | returned a => f a
  | panicked => panicked
  | unfinished => unfinished

/-- `items[i]`, which panics out of bounds. -/
def index (items : List α) (i : Nat) : Exec α :=
  match items[i]? with
  | some a => returned a
  | none => panicked

@[simp] theorem returned_bind (a : α) (f : α → Exec β) : (returned a).bind f = f a := rfl

theorem index_of_drop {items rest : List α} {i : Nat} {a : α} (here : items.drop i = a :: rest) :
    index items i = returned a := by
  have found : items[i]? = some a := by rw [← List.head?_drop, here, List.head?_cons]
  rw [index, found]

end Exec

variable {σ : Type u} {ρ : Type v}

/-- A loop of which `body` is one round. -/
def loop (body : σ → Exec (σ ⊕ ρ)) : Nat → σ → Exec ρ
  | 0, _ => .unfinished
  | rounds + 1, s => (body s).bind (fun
    | .inl s => loop body rounds s
    | .inr r => .returned r)

/-- A loop of which each round leaves or goes on to a smaller state comes to an end, and to the
same one however many rounds are left over. -/
theorem loop_terminates {body : σ → Exec (σ ⊕ ρ)} {measure : σ → Nat}
    (round : ∀ s, (∃ r, body s = .returned (.inr r)) ∨
      ∃ s', body s = .returned (.inl s') ∧ measure s' < measure s) (s : σ) :
    ∃ r, ∀ rounds, measure s < rounds → loop body rounds s = .returned r := by
  induction bound : measure s using Nat.strongRecOn generalizing s with
  | ind n ih =>
    subst bound
    rcases round s with ⟨r, left⟩ | ⟨s', again, smaller⟩
    · refine ⟨r, fun rounds enough => ?_⟩
      obtain ⟨rounds, rfl⟩ := Nat.exists_eq_add_one_of_ne_zero (Nat.ne_of_gt (Nat.zero_lt_of_lt enough))
      rw [loop, left]
      rfl
    · obtain ⟨r, ends⟩ := ih (measure s') smaller s' rfl
      refine ⟨r, fun rounds enough => ?_⟩
      obtain ⟨rounds, rfl⟩ := Nat.exists_eq_add_one_of_ne_zero (Nat.ne_of_gt (Nat.zero_lt_of_lt enough))
      rw [loop, again]
      exact ends rounds (by omega)

/-- What a loop returns meets `post`, if the rounds keep an invariant under which they leave only
with what meets it. -/
theorem post_of_loop {body : σ → Exec (σ ⊕ ρ)} {inv : σ → Prop} {post : ρ → Prop}
    (keeps : ∀ s s', inv s → body s = .returned (.inl s') → inv s')
    (leaves : ∀ s r, inv s → body s = .returned (.inr r) → post r)
    {rounds : Nat} {s : σ} {r : ρ} (start : inv s) (h : loop body rounds s = .returned r) :
    post r := by
  induction rounds generalizing s with
  | zero => cases h
  | succ rounds ih =>
    rw [loop] at h
    cases round : body s with
    | panicked =>
      rw [round] at h
      cases h
    | unfinished =>
      rw [round] at h
      cases h
    | returned outcome =>
      rw [round] at h
      cases outcome with
      | inl s' => exact ih (keeps s s' start round) h
      | inr r =>
        cases h
        exact leaves s r start round

/-- A loop returns `value`, if each of its rounds leaves with it or goes on to a smaller state
that has it too. -/
theorem loop_returned {body : σ → Exec (σ ⊕ ρ)} {measure : σ → Nat} {value : σ → ρ}
    (round : ∀ s, body s = .returned (.inr (value s)) ∨
      ∃ s', body s = .returned (.inl s') ∧ measure s' < measure s ∧ value s' = value s)
    {rounds : Nat} {s : σ} (enough : measure s < rounds) :
    loop body rounds s = .returned (value s) := by
  induction rounds generalizing s with
  | zero => exact absurd enough (Nat.not_lt_zero _)
  | succ rounds ih =>
    rcases round s with left | ⟨s', again, smaller, same⟩
    · rw [loop, left]
      rfl
    · rw [loop, again, ← same]
      exact ih (by omega)

end Rounds
