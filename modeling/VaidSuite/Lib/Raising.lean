import Mathlib.Data.List.Basic

/-! Computations that may raise, run over lists. A loop none of whose steps raises
is the pure loop. -/
namespace Raising

universe u v w
variable {ε : Type u} {α : Type v} {β : Type w}

@[simp] theorem ok_bind {γ : Type w} (a : β) (f : β → Except ε γ) : (Except.ok a >>= f) = f a := rfl

theorem of_bind_eq_ok {γ : Type w} {x : Except ε β} {f : β → Except ε γ} {c : γ}
    (returned : (x >>= f) = .ok c) : ∃ b, x = .ok b ∧ f b = .ok c := by
  cases x with
  | error e => cases returned
  | ok b => exact ⟨b, rfl, returned⟩

/-- A check that refuses otherwise has held. -/
theorem of_unless_eq_ok {γ : Type} {x : Except ε Bool} {refusal c : γ} {rest : Except ε γ}
    (returned : (x >>= fun held => if !held then pure refusal else rest) = .ok c)
    (accepted : c ≠ refusal) : x = .ok true ∧ rest = .ok c := by
  obtain ⟨held, checked, returned⟩ := of_bind_eq_ok returned
  cases held with
  | false => exact absurd (Except.ok.inj returned).symm accepted
  | true => exact ⟨checked, returned⟩

theorem bind_ne_error {γ : Type w} {x : Except ε β} {f : β → Except ε γ} {e : ε} (first : x ≠ .error e)
    (rest : ∀ b, x = .ok b → f b ≠ .error e) : (x >>= f) ≠ .error e := by
  cases x with
  | error e' =>
    rintro ⟨⟩
    exact first rfl
  | ok b => exact rest b rfl

theorem allM_map_ok {f : α → β} {p : β → Except ε Bool} {q : α → Bool} {items : List α}
    (each : ∀ a ∈ items, p (f a) = .ok (q a)) : (items.map f).allM p = .ok (items.all q) := by
  induction items with
  | nil => rfl
  | cons a items ih =>
    have rest := ih (fun b hb => each b (List.mem_cons_of_mem _ hb))
    simp only [List.map_cons, List.allM, each a List.mem_cons_self, List.all_cons]
    cases q a with
    | false => rfl
    | true => exact rest

theorem anyM_map_ok {f : α → β} {p : β → Except ε Bool} {q : α → Bool} {items : List α}
    (each : ∀ a ∈ items, p (f a) = .ok (q a)) : (items.map f).anyM p = .ok (items.any q) := by
  induction items with
  | nil => rfl
  | cons a items ih =>
    have rest := ih (fun b hb => each b (List.mem_cons_of_mem _ hb))
    simp only [List.map_cons, List.anyM, each a List.mem_cons_self, List.any_cons]
    cases q a with
    | true => rfl
    | false => exact rest

theorem of_allM_eq_true {p : α → Except ε Bool} {items : List α} (held : items.allM p = .ok true) :
    ∀ a ∈ items, p a = .ok true := by
  induction items with
  | nil => simp
  | cons a items ih =>
    rw [List.allM] at held
    obtain ⟨b, here, rest⟩ := of_bind_eq_ok held
    cases b with
    | false => cases rest
    | true => exact List.forall_mem_cons.mpr ⟨here, ih rest⟩

theorem of_anyM_eq_false {p : α → Except ε Bool} {items : List α}
    (none_ : items.anyM p = .ok false) : ∀ a ∈ items, p a = .ok false := by
  induction items with
  | nil => simp
  | cons a items ih =>
    rw [List.anyM] at none_
    obtain ⟨b, here, rest⟩ := of_bind_eq_ok none_
    cases b with
    | true => cases rest
    | false => exact List.forall_mem_cons.mpr ⟨here, ih rest⟩

theorem mapM_ok {f : α → Except ε β} {g : α → β} {items : List α}
    (each : ∀ a ∈ items, f a = .ok (g a)) : items.mapM f = .ok (items.map g) := by
  induction items with
  | nil => rfl
  | cons a items ih =>
    have rest := ih (fun b hb => each b (List.mem_cons_of_mem _ hb))
    rw [List.mapM_cons, each a List.mem_cons_self, rest]
    rfl

theorem of_mapM_eq_ok {f : α → Except ε β} {g : α → β} {items : List α} {results : List β}
    (known : ∀ a b, f a = .ok b → b = g a) (returned : items.mapM f = .ok results) :
    results = items.map g ∧ ∀ a ∈ items, f a = .ok (g a) := by
  induction items generalizing results with
  | nil =>
    cases returned
    exact ⟨rfl, by simp⟩
  | cons a items ih =>
    rw [List.mapM_cons] at returned
    obtain ⟨b, here, returned⟩ := of_bind_eq_ok returned
    obtain ⟨bs, rest, returned⟩ := of_bind_eq_ok returned
    cases returned
    obtain ⟨rfl, each⟩ := ih rest
    cases known a b here
    exact ⟨rfl, List.forall_mem_cons.mpr ⟨here, each⟩⟩

theorem foldlM_map_ok {σ : Type*} {f : α → β} {step : σ → β → Except ε σ} {next : σ → α → σ}
    {items : List α} (each : ∀ s, ∀ a ∈ items, step s (f a) = .ok (next s a)) (s : σ) :
    (items.map f).foldlM step s = .ok (items.foldl next s) := by
  induction items generalizing s with
  | nil => rfl
  | cons a items ih =>
    rw [List.map_cons, List.foldlM_cons, each s a List.mem_cons_self]
    exact ih (fun s b hb => each s b (List.mem_cons_of_mem _ hb)) (next s a)

theorem exists_of_forall₂ {r : α → β → Prop} {as : List α} {bs : List β}
    (each : List.Forall₂ r as bs) {b : β} (member : b ∈ bs) : ∃ a ∈ as, r a b := by
  induction each with
  | nil => cases member
  | @cons a _ as bs here _ ih =>
    rcases List.mem_cons.mp member with rfl | member
    · exact ⟨a, List.mem_cons_self, here⟩
    · obtain ⟨c, listed, related⟩ := ih member
      exact ⟨c, List.mem_cons_of_mem _ listed, related⟩

theorem mapM_ok_of_forall₂ {f : α → Except ε β} {items : List α}
    {results : List β} (each : List.Forall₂ (fun a b => f a = .ok b) items results) :
    items.mapM f = .ok results := by
  induction each with
  | nil => rfl
  | cons here _ ih =>
    rw [List.mapM_cons, here, ih]
    rfl

end Raising
