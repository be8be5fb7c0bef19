import VaidSuite.Lib.Interleaving

/-! Programs that rely on what the others keep to. A program runs without interruption when
all of it is one action. -/

universe u v w

namespace Program

variable {S : Type u} {R : Type v} {T : Type w} {rel : S → S → Prop}

/-- The program, as one action. -/
def uninterrupted (p : Program S R) : Program S R := atomically p.run

/-- From here on every action changes the state within the relation, whatever the others did
within it before, and the result is right where it is returned. -/
def Ensures (rel : S → S → Prop) (post : S → R → Prop) : Program S R → S → Prop
  | ret r, s => post s r
  | act update next, s => ∀ t, rel s t → rel t (update t) ∧ (next t).Ensures rel post (update t)

theorem Ensures.bind {mid : S → R → Prop} {post : S → T → Prop} {p : Program S R}
    {f : R → Program S T} {s : S} (h : p.Ensures rel mid s)
    (rest : ∀ t r, mid t r → (f r).Ensures rel post t) : (p.bind f).Ensures rel post s := by
  induction p generalizing s with
  | ret r => exact rest s r h
  | act update next ih =>
    intro t moved
    obtain ⟨guaranteed, later⟩ := h t moved
    exact ⟨guaranteed, ih t later⟩

variable {post : S → R → Prop}

theorem Ensures.mono {post' : S → R → Prop} {p : Program S R} {s : S} (h : p.Ensures rel post s)
    (weaken : ∀ t r, post t r → post' t r) : p.Ensures rel post' s := by
  induction p generalizing s with
  | ret r => exact weaken s r h
  | act update next ih => exact fun t moved => ⟨(h t moved).1, ih t (h t moved).2⟩

theorem Ensures.later {p : Program S R} {s t : S} (h : p.Ensures rel post s)
    (trans : ∀ {s t u}, rel s t → rel t u → rel s u)
    (stable : ∀ s t r, rel s t → post s r → post t r) (moved : rel s t) : p.Ensures rel post t := by
  cases p with
  | ret r => exact stable s t r moved h
  | act update next => exact fun u further => h u (trans moved further)

theorem Ensures.framed (refl : ∀ s, rel s s) (trans : ∀ {s t u}, rel s t → rel t u → rel s u)
    {p : Program S R} {s : S} (h : p.Ensures rel post s) :
    p.Ensures rel (fun t r => rel s t ∧ post t r) s := by
  have since : ∀ first, rel first s → p.Ensures rel (fun t r => rel first t ∧ post t r) s := by
    intro first before
    induction p generalizing s with
    | ret r => exact ⟨before, h⟩
    | act update next ih =>
      intro t moved
      obtain ⟨guaranteed, later⟩ := h t moved
      exact ⟨guaranteed, ih t later (trans before (trans moved guaranteed))⟩
  exact since s (refl s)

theorem Ensures.run (refl : ∀ s, rel s s) (trans : ∀ {s t u}, rel s t → rel t u → rel s u)
    {p : Program S R} {s : S} (h : p.Ensures rel post s) :
    rel s (p.run s).2 ∧ post (p.run s).2 (p.run s).1 := by
  induction p generalizing s with
  | ret r => exact ⟨refl s, h⟩
  | act update next ih =>
    obtain ⟨guaranteed, later⟩ := h s (refl s)
    obtain ⟨further, right⟩ := ih s later
    exact ⟨trans guaranteed further, right⟩

theorem Spends.run {spent : S → Prop} {won : R → Prop} {p : Program S R} (h : p.Spends spent won)
    (keeps : p.KeepsSpent spent) (s : S) : (¬ spent s ∧ spent (p.run s).2) ∨ ¬ won (p.run s).1 := by
  induction p generalizing s with
  | ret r => exact .inr h
  | act update next ih =>
    obtain ⟨kept, keeps⟩ := keeps s
    rcases h s with ⟨fresh, now⟩ | later
    · exact .inl ⟨fresh, Guarantees.run (fun _ h => h) (fun first second h => second (first h)) keeps
        (update s) now⟩
    · rcases ih s later keeps (update s) with ⟨fresh, ended⟩ | lost
      · exact .inl ⟨fun before => fresh (kept before), ended⟩
      · exact .inr lost

end Program

namespace Fallible

variable {S : Type u} {ε : Type v} {α β : Type w} {rel : S → S → Prop}

/-- The program, as one action. -/
def uninterrupted (p : Fallible S ε α) : Fallible S ε α := Program.uninterrupted p

theorem Guarantees.uninterrupted (refl : ∀ s, rel s s)
    (trans : ∀ {s t u}, rel s t → rel t u → rel s u) {p : Fallible S ε α} (h : Guarantees rel p) :
    Guarantees rel p.uninterrupted :=
  guarantees_atomically (fun s => h.run refl trans s)

theorem Spends.uninterrupted {spent : S → Prop} {p : Fallible S ε α} (h : Spends spent p)
    (keeps : Program.KeepsSpent spent p) : Spends spent p.uninterrupted := by
  refine spends_atomically (fun s => (Program.Spends.run h keeps s).imp_right (fun lost a same => ?_))
  exact lost ⟨a, same⟩

/-- Success is right where it is returned. -/
def Ensures (rel : S → S → Prop) (post : S → α → Prop) (p : Fallible S ε α) (s : S) : Prop :=
  Program.Ensures rel (fun t outcome => ∀ a, outcome = .ok a → post t a) p s

variable {post : S → α → Prop} {s : S}

theorem ensures_pure {a : α} (h : post s a) : Ensures rel post (pure a : Fallible S ε α) s := by
  rintro _ ⟨⟩
  exact h

theorem ensures_fail (e : ε) : Ensures rel post (fail e : Fallible S ε α) s := by
  rintro _ ⟨⟩

theorem ensures_refuseIf (c : Prop) [Decidable c] (e : ε) :
    Ensures rel (fun t _ => s = t ∧ ¬ c) (refuseIf c e : Fallible S ε PUnit) s := by
  unfold refuseIf
  split
  · exact ensures_fail e
  · rename_i passed
    exact ensures_pure ⟨rfl, passed⟩

theorem ensures_required (o : Option α) (e : ε) :
    Ensures rel (fun t a => s = t ∧ o = some a) (required o e : Fallible S ε α) s := by
  cases o with
  | none => exact ensures_fail e
  | some a => exact ensures_pure ⟨rfl, rfl⟩

theorem ensures_ofExcept (x : Except ε α) :
    Ensures rel (fun t a => s = t ∧ x = .ok a) (ofExcept x : Fallible S ε α) s := by
  cases x with
  | error e => exact ensures_fail e
  | ok a => exact ensures_pure ⟨rfl, rfl⟩

theorem ensures_atomically {f : S → Outcome ε α × S}
    (each : ∀ t, rel s t → rel t (f t).2 ∧ ∀ a, (f t).1 = .ok a → post (f t).2 a) :
    Ensures rel post (atomically f) s := each

theorem ensures_read (refl : ∀ s, rel s s) (f : S → α) :
    Ensures rel (fun t a => rel s t ∧ f t = a) (read f : Fallible S ε α) s := by
  refine ensures_atomically (fun t moved => ⟨refl t, ?_⟩)
  rintro _ ⟨⟩
  exact ⟨moved, rfl⟩

theorem Ensures.bind {mid : S → α → Prop} {post : S → β → Prop} {p : Fallible S ε α}
    {f : α → Fallible S ε β} (h : Ensures rel mid p s)
    (rest : ∀ t a, mid t a → Ensures rel post (f a) t) : Ensures rel post (p >>= f) s := by
  refine Program.Ensures.bind h (fun t outcome right => ?_)
  cases outcome with
  | ok a => exact rest t a (right a rfl)
  | error e => exact ensures_fail e
  | panicked => rintro _ ⟨⟩

theorem Ensures.mono {post' : S → α → Prop} {p : Fallible S ε α} (h : Ensures rel post p s)
    (weaken : ∀ t a, post t a → post' t a) : Ensures rel post' p s :=
  Program.Ensures.mono h (fun t _ right a same => weaken t a (right a same))

theorem Ensures.framed (refl : ∀ s, rel s s) (trans : ∀ {s t u}, rel s t → rel t u → rel s u)
    {p : Fallible S ε α} (h : Ensures rel post p s) :
    Ensures rel (fun t a => rel s t ∧ post t a) p s :=
  Program.Ensures.mono (Program.Ensures.framed refl trans h)
    (fun _ _ ⟨moved, right⟩ a same => ⟨moved, right a same⟩)

theorem ensures_uninterrupted (refl : ∀ s, rel s s) (trans : ∀ {s t u}, rel s t → rel t u → rel s u)
    {p : Fallible S ε α} (h : ∀ t, rel s t → Ensures rel post p t) :
    Ensures rel post p.uninterrupted s := fun t moved => (h t moved).run refl trans

end Fallible

namespace Pool

variable {ι : Type u} {S : Type v} {R : Type w} [DecidableEq ι] {rel : S → S → Prop}
  {post : ι → S → R → Prop}

/-- Every program ensures its own result from here on. -/
def Relying (rel : S → S → Prop) (post : ι → S → R → Prop) (pool : Pool ι S R) : Prop :=
  ∀ i, (pool.programs i).Ensures rel (post i) pool.shared

theorem Relying.step (refl : ∀ s, rel s s) (trans : ∀ {s t u}, rel s t → rel t u → rel s u)
    (stable : ∀ i s t r, rel s t → post i s r → post i t r) {pool : Pool ι S R}
    (h : Relying rel post pool) (i : ι) : Relying rel post (pool.step i) := by
  rcases pool.step_cases i with same | ⟨update, next, here, shared, moved, rest⟩
  · rwa [same]
  have own := h i
  rw [here] at own
  obtain ⟨guaranteed, later⟩ := own pool.shared (refl _)
  intro j
  rw [shared]
  by_cases same : j = i
  · subst same
    rwa [moved]
  · rw [rest j same]
    exact (h j).later trans (stable j) guaranteed

theorem Relying.returned (refl : ∀ s, rel s s) (trans : ∀ {s t u}, rel s t → rel t u → rel s u)
    (stable : ∀ i s t r, rel s t → post i s r → post i t r) {pool : Pool ι S R}
    (h : Relying rel post pool) {schedule : List ι} {i : ι} {r : R}
    (returned : (pool.run schedule).Returned i r) : post i (pool.run schedule).shared r := by
  have relying : Relying rel post (pool.run schedule) :=
    Runs.invariant _ (fun _ _ => True) (fun _ i h _ => h.step refl trans stable i) h
      (Runs.Along.of_forall (fun _ _ => trivial) pool schedule)
  have right := relying i
  rw [show (pool.run schedule).programs i = .ret r from returned] at right
  exact right

end Pool
