import Mathlib.Data.List.Forall2
import VaidSuite.Lib.Raising

/-! Which computations return. A run of checks returns exactly when every check that it
reaches is defined. -/
namespace Raising

universe u
variable {ε : Type u} {α β γ : Type}

/-- The computation raises nothing. -/
def Returns (x : Except ε α) : Prop := ∃ a, x = .ok a

@[simp] theorem returns_ok (a : α) : Returns (.ok a : Except ε α) := ⟨a, rfl⟩

@[simp] theorem returns_pure (a : α) : Returns (pure a : Except ε α) := ⟨a, rfl⟩

@[simp] theorem not_returns_error (e : ε) : ¬ Returns (.error e : Except ε α) := by
  rintro ⟨_, ⟨⟩⟩

@[simp] theorem error_bind (e : ε) (f : β → Except ε γ) : (Except.error e >>= f) = .error e := rfl

theorem returns_bind_iff {x : Except ε β} {f : β → Except ε γ} :
    Returns (x >>= f) ↔ ∃ b, x = .ok b ∧ Returns (f b) := by
  cases x with
  | error e => exact ⟨fun h => absurd h (not_returns_error e), by rintro ⟨_, ⟨⟩, _⟩⟩
  | ok b => exact ⟨fun h => ⟨b, rfl, h⟩, by rintro ⟨_, ⟨⟩, h⟩; exact h⟩

theorem returns_bind_pure {x : Except ε β} {f : β → γ} :
    Returns (x >>= fun b => pure (f b)) ↔ Returns x := by
  rw [returns_bind_iff]
  exact ⟨fun ⟨b, h, _⟩ => ⟨b, h⟩, fun ⟨b, h⟩ => ⟨b, h, returns_pure _⟩⟩

theorem returns_seq_iff {x : Except ε β} {y : Except ε γ} :
    Returns (x >>= fun _ => y) ↔ Returns x ∧ Returns y := by
  rw [returns_bind_iff]
  exact ⟨fun ⟨b, h, rest⟩ => ⟨⟨b, h⟩, rest⟩, fun ⟨⟨b, h⟩, rest⟩ => ⟨b, h, rest⟩⟩

theorem returns_unless_iff {b : Bool} {stop rest : Except ε α} (stops : Returns stop) :
    Returns (if (!b) = true then stop else rest) ↔ (b = true → Returns rest) := by
  cases b <;> simp [stops]

theorem returns_check_iff {c : Except ε Bool} {stop rest : Except ε α} (stops : Returns stop) :
    Returns (c >>= fun b => if (!b) = true then stop else rest) ↔
      Returns c ∧ (c = .ok true → Returns rest) := by
  cases c with
  | error e => simp
  | ok b => cases b <;> simp [stops]

theorem returns_lapse_iff {c : Except ε Bool} {stop rest : Except ε α} (stops : Returns stop) :
    Returns (c >>= fun b => if b = true then stop else rest) ↔
      Returns c ∧ (c = .ok false → Returns rest) := by
  cases c with
  | error e => simp
  | ok b => cases b <;> simp [stops]

theorem returns_verdict_iff [DecidableEq β] {c : Except ε β} {wanted : β} {stop : β → α}
    {rest : Except ε α} : Returns (c >>= fun v => if v ≠ wanted then pure (stop v) else rest) ↔
      Returns c ∧ (c = .ok wanted → Returns rest) := by
  cases c with
  | error e => simp
  | ok v => by_cases same : v = wanted <;> simp [same]

/-- Each check with what it needs, and when the next one is reached: every check that is
reached has what it needs. -/
def Sound : List (Prop × Prop) → Prop
  | [] => True
  | check :: checks => check.1 ∧ (check.2 → Sound checks)

@[simp] theorem sound_nil : Sound [] := trivial

@[simp] theorem sound_cons (needs passes : Prop) (checks : List (Prop × Prop)) :
    Sound ((needs, passes) :: checks) ↔ needs ∧ (passes → Sound checks) := Iff.rfl

theorem sound_append (before after : List (Prop × Prop)) :
    Sound (before ++ after) ↔ Sound before ∧ ((∀ c ∈ before, c.2) → Sound after) := by
  induction before with
  | nil => simp
  | cons c before ih =>
    rw [List.cons_append, List.forall_mem_cons]
    change c.1 ∧ (c.2 → Sound (before ++ after)) ↔ (c.1 ∧ (c.2 → Sound before)) ∧ _
    rw [ih]
    tauto

theorem sound_of_forall {checks : List (Prop × Prop)} (each : ∀ c ∈ checks, c.1) : Sound checks := by
  induction checks with
  | nil => exact trivial
  | cons c checks ih =>
    rw [List.forall_mem_cons] at each
    exact ⟨each.1, fun _ => ih each.2⟩

/-- What a check needs may be stated otherwise, where it is reached. -/
theorem sound_map_congr {items : List α} {needs needs' passes : α → Prop}
    (each : ∀ a ∈ items, needs a ↔ needs' a) :
    Sound (items.map (fun a => (needs a, passes a))) ↔ Sound (items.map (fun a => (needs' a, passes a))) := by
  induction items with
  | nil => rfl
  | cons a items ih =>
    rw [List.forall_mem_cons] at each
    rw [List.map_cons, List.map_cons, sound_cons, sound_cons, ih each.2, each.1]

theorem returns_allM_iff {p : α → Except ε Bool} {items : List α} : Returns (items.allM p) ↔
    Sound (items.map (fun a => (Returns (p a), p a = .ok true))) := by
  induction items with
  | nil => simp [List.allM]
  | cons a items ih =>
    rw [List.allM, List.map_cons, sound_cons, ← ih]
    cases p a with
    | error e => simp
    | ok b => cases b <;> simp

theorem returns_anyM_iff {p : α → Except ε Bool} {items : List α} : Returns (items.anyM p) ↔
    Sound (items.map (fun a => (Returns (p a), p a = .ok false))) := by
  induction items with
  | nil => simp [List.anyM]
  | cons a items ih =>
    rw [List.anyM, List.map_cons, sound_cons, ← ih]
    cases p a with
    | error e => simp
    | ok b => cases b <;> simp

theorem allM_eq_true_iff {p : α → Except ε Bool} {items : List α} :
    items.allM p = .ok true ↔ ∀ a ∈ items, p a = .ok true := by
  refine ⟨of_allM_eq_true, fun each => ?_⟩
  have all := allM_map_ok (f := id) (q := fun _ => true) each
  rwa [List.map_id, List.all_eq_true.mpr (fun _ _ => rfl)] at all

theorem anyM_eq_false_iff {p : α → Except ε Bool} {items : List α} :
    items.anyM p = .ok false ↔ ∀ a ∈ items, p a = .ok false := by
  refine ⟨of_anyM_eq_false, fun each => ?_⟩
  have any := anyM_map_ok (f := id) (q := fun _ => false) each
  rwa [List.map_id, List.any_eq_false.mpr (fun _ _ => Bool.false_ne_true)] at any

theorem returns_mapM_iff {f : α → Except ε β} {items : List α} :
    Returns (items.mapM f) ↔ ∀ a ∈ items, Returns (f a) := by
  induction items with
  | nil => simp
  | cons a items ih =>
    rw [List.mapM_cons, List.forall_mem_cons, ← ih, returns_bind_iff]
    exact ⟨fun ⟨b, h, rest⟩ => ⟨⟨b, h⟩, returns_bind_pure.mp rest⟩,
      fun ⟨⟨b, h⟩, rest⟩ => ⟨b, h, returns_bind_pure.mpr rest⟩⟩

theorem of_mapM_mem {f : α → Except ε β} {items : List α} {results : List β}
    (returned : items.mapM f = .ok results) {b : β} (member : b ∈ results) : ∃ a ∈ items, f a = .ok b := by
  induction items generalizing results with
  | nil =>
    cases returned
    cases member
  | cons a items ih =>
    rw [List.mapM_cons] at returned
    obtain ⟨first, here, returned⟩ := of_bind_eq_ok returned
    obtain ⟨others, there, returned⟩ := of_bind_eq_ok returned
    cases returned
    rcases List.mem_cons.mp member with rfl | member
    · exact ⟨a, List.mem_cons_self, here⟩
    · obtain ⟨c, listed, found⟩ := ih there member
      exact ⟨c, List.mem_cons_of_mem _ listed, found⟩

theorem of_mapM_eq_error {f : α → Except ε β} {items : List α} {e : ε}
    (failed : items.mapM f = .error e) : ∃ a ∈ items, f a = .error e := by
  induction items with
  | nil => cases failed
  | cons a items ih =>
    rw [List.mapM_cons] at failed
    cases here : f a with
    | error e' =>
      rw [here] at failed
      cases failed
      exact ⟨a, List.mem_cons_self, here⟩
    | ok b =>
      rw [here, ok_bind] at failed
      cases rest : items.mapM f with
      | error e' =>
        rw [rest] at failed
        cases failed
        obtain ⟨c, member, there⟩ := ih rest
        exact ⟨c, List.mem_cons_of_mem _ member, there⟩
      | ok bs =>
        rw [rest] at failed
        cases failed

theorem mapM_eq_some_iff {f : α → Option β} {items : List α} {results : List β} :
    items.mapM f = some results ↔ List.Forall₂ (fun a b => f a = some b) items results := by
  induction items generalizing results with
  | nil =>
    rw [List.mapM_nil, List.forall₂_nil_left_iff, eq_comm]
    exact Option.some_inj
  | cons a items ih =>
    rw [List.mapM_cons, List.forall₂_cons_left_iff]
    constructor
    · intro all
      obtain ⟨b, here, all⟩ := Option.bind_eq_some_iff.mp all
      obtain ⟨rest, there, made⟩ := Option.bind_eq_some_iff.mp all
      cases made
      exact ⟨b, rest, here, ih.mp there, rfl⟩
    · rintro ⟨b, rest, here, there, rfl⟩
      rw [here, ih.mpr there]
      rfl

theorem map_of_mapM {f : α → Option β} {items : List α} {results : List β}
    (all : items.mapM f = some results) : items.map f = results.map some := by
  rw [← List.forall₂_eq_eq_eq, List.forall₂_map_left_iff, List.forall₂_map_right_iff]
  exact mapM_eq_some_iff.mp all

end Raising
