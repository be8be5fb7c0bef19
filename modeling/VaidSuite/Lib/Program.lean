/-! Programs over shared state, as resumptions of atomic actions, and fallible
programs, which stop at the first error. -/

universe u v w

/-- How a fallible computation ends. `panicked` is an unwinding. -/
inductive Outcome (ε : Type u) (α : Type v) where
  | ok (value : α)
  | error (e : ε)
  | panicked
  deriving DecidableEq

/-- A program either has returned, or performs one atomic action on the shared
state and goes on with what it saw there. -/
inductive Program (S : Type u) (R : Type v) where
  | ret (result : R)
  | act (update : S → S) (next : S → Program S R)

namespace Program

variable {S : Type u} {R : Type v} {T : Type w}

def bind : Program S R → (R → Program S T) → Program S T
  | ret r, f => f r
  | act update next, f => act update (fun s => (next s).bind f)

def atomically (f : S → R × S) : Program S R := act (fun s => (f s).2) (fun s => ret (f s).1)

/-- The program alone, from start to end. -/
def run : Program S R → S → R × S
  | ret r, s => (r, s)
  | act update next, s => (next s).run (update s)

@[simp] theorem run_ret (r : R) (s : S) : (ret r : Program S R).run s = (r, s) := rfl

@[simp] theorem run_atomically (f : S → R × S) (s : S) : (atomically f).run s = f s := rfl

theorem run_bind (p : Program S R) (f : R → Program S T) (s : S) :
    (p.bind f).run s = (f (p.run s).1).run (p.run s).2 := by
  induction p generalizing s with
  | ret r => rfl
  | act update next ih => exact ih s (update s)

/-- Whatever states the program finds, what it returns meets `post`. -/
def Always (post : R → Prop) : Program S R → Prop
  | ret r => post r
  | act _ next => ∀ s, (next s).Always post

theorem Always.bind {mid : R → Prop} {post : T → Prop} {p : Program S R} {f : R → Program S T}
    (h : p.Always mid) (rest : ∀ r, mid r → (f r).Always post) : (p.bind f).Always post := by
  induction p with
  | ret r => exact rest r h
  | act update next ih => exact fun s => ih s (h s)

theorem Always.of_forall {post : R → Prop} (h : ∀ r, post r) (p : Program S R) : p.Always post := by
  induction p with
  | ret r => exact h r
  | act update next ih => exact ih

theorem Always.mono {post post' : R → Prop} (weaken : ∀ r, post r → post' r) {p : Program S R}
    (h : p.Always post) : p.Always post' := by
  induction p with
  | ret r => exact weaken r h
  | act update next ih => exact fun s => ih s (h s)

theorem Always.run {post : R → Prop} {p : Program S R} (h : p.Always post) (s : S) :
    post (p.run s).1 := by
  induction p generalizing s with
  | ret r => exact h
  | act update next ih => exact ih s (h s) (update s)

/-- Every action of the program changes the state within `rel`. -/
def Guarantees (rel : S → S → Prop) : Program S R → Prop
  | ret _ => True
  | act update next => ∀ s, rel s (update s) ∧ (next s).Guarantees rel

theorem Guarantees.bind {rel : S → S → Prop} {p : Program S R} {f : R → Program S T}
    (h : p.Guarantees rel) (rest : ∀ r, (f r).Guarantees rel) : (p.bind f).Guarantees rel := by
  induction p with
  | ret r => exact rest r
  | act update next ih => exact fun s => ⟨(h s).1, ih s (h s).2⟩

theorem Guarantees.mono {rel rel' : S → S → Prop} (weaken : ∀ s t, rel s t → rel' s t)
    {p : Program S R} (h : p.Guarantees rel) : p.Guarantees rel' := by
  induction p with
  | ret r => trivial
  | act update next ih => exact fun s => ⟨weaken _ _ (h s).1, ih s (h s).2⟩

theorem Guarantees.of_forall {rel : S → S → Prop} (all : ∀ s t, rel s t) (p : Program S R) :
    p.Guarantees rel := by
  induction p with
  | ret r => trivial
  | act update next ih => exact fun s => ⟨all _ _, ih s⟩

theorem Guarantees.run {rel : S → S → Prop} (refl : ∀ s, rel s s)
    (trans : ∀ {s t u}, rel s t → rel t u → rel s u) {p : Program S R} (h : p.Guarantees rel)
    (s : S) : rel s (p.run s).2 := by
  induction p generalizing s with
  | ret r => exact refl s
  | act update next ih => exact trans (h s).1 (ih s (h s).2 (update s))

/-- A part of a state that can be read and replaced. -/
structure Part (S : Type u) (T : Type v) where
  get : S → T
  put : T → S → S
  get_put : ∀ t s, get (put t s) = t
  put_put : ∀ t t' s, put t' (put t s) = put t' s
  put_get : ∀ s, put (get s) s = s

/-- The program, on a part of the state. -/
def within (part : Part S T) : Program T R → Program S R
  | ret r => ret r
  | act update next => act (fun s => part.put (update (part.get s)) s)
      (fun s => (next (part.get s)).within part)

theorem Guarantees.within {part : Part S T} {rel : T → T → Prop} {rel' : S → S → Prop} {p : Program T R}
    (h : p.Guarantees rel) (lifts : ∀ s t, rel (part.get s) t → rel' s (part.put t s)) :
    (p.within part).Guarantees rel' := by
  induction p with
  | ret r => trivial
  | act update next ih => exact fun s => ⟨lifts s _ (h _).1, ih _ (h _).2⟩

theorem run_within (part : Part S T) (p : Program T R) (s : S) :
    (p.within part).run s = ((p.run (part.get s)).1, part.put (p.run (part.get s)).2 s) := by
  induction p generalizing s with
  | ret r => exact Prod.ext rfl (part.put_get s).symm
  | act update next ih =>
    rw [within, run, ih, part.get_put, part.put_put]
    rfl

end Program

/-- A program that fails with an error or a panic. -/
def Fallible (S : Type u) (ε : Type v) (α : Type w) := Program S (Outcome ε α)

namespace Fallible

variable {S : Type u} {ε : Type v} {α β : Type w}

def andThen (p : Fallible S ε α) (f : α → Fallible S ε β) : Fallible S ε β :=
  Program.bind p (fun outcome =>
    match outcome with
    | .ok a => f a
    | .error e => .ret (.error e)
    | .panicked => .ret .panicked)

instance : Monad (Fallible S ε) where
  pure a := .ret (.ok a)
  bind := andThen

def run (p : Fallible S ε α) (s : S) : Outcome ε α × S := Program.run p s

def atomically (f : S → Outcome ε α × S) : Fallible S ε α := Program.atomically f

def read (f : S → α) : Fallible S ε α := atomically (fun s => (.ok (f s), s))

def fail (e : ε) : Fallible S ε α := .ret (.error e)

def refuseIf (c : Prop) [Decidable c] (e : ε) : Fallible S ε PUnit :=
  if c then fail e else pure ⟨⟩

def required (o : Option α) (e : ε) : Fallible S ε α :=
  match o with
  | some a => pure a
  | none => fail e

def ofExcept : Except ε α → Fallible S ε α
  | .ok a => pure a
  | .error e => fail e

theorem run_pure_iff (a b : α) (s s' : S) :
    run (pure a : Fallible S ε α) s = (.ok b, s') ↔ a = b ∧ s = s' := by
  show ((Outcome.ok a : Outcome ε α), s) = (.ok b, s') ↔ _
  simp

theorem run_fail_iff (e : ε) (b : α) (s s' : S) :
    ¬ run (fail e : Fallible S ε α) s = (.ok b, s') := by
  intro h
  cases (Prod.mk.inj h).1

theorem run_bind (p : Fallible S ε α) (f : α → Fallible S ε β) (s : S) :
    run (p >>= f) s =
      match run p s with
      | (.ok a, t) => run (f a) t
      | (.error e, t) => (.error e, t)
      | (.panicked, t) => (.panicked, t) := by
  refine (Program.run_bind p _ s).trans ?_
  unfold run
  obtain ⟨outcome, t⟩ := Program.run p s
  cases outcome <;> rfl

theorem run_bind_iff (p : Fallible S ε α) (f : α → Fallible S ε β) (b : β) (s s' : S) :
    run (p >>= f) s = (.ok b, s') ↔
      ∃ a t, run p s = (.ok a, t) ∧ run (f a) t = (.ok b, s') := by
  rw [run_bind]
  obtain ⟨outcome, t⟩ := run p s
  cases outcome with
  | ok a =>
    constructor
    · exact fun h => ⟨a, t, rfl, h⟩
    · rintro ⟨_, _, same, h⟩
      cases same
      exact h
  | error e => simp
  | panicked => simp

@[simp] theorem run_atomically (f : S → Outcome ε α × S) (s : S) : run (atomically f) s = f s := rfl

theorem run_read_iff (f : S → α) (a : α) (s s' : S) :
    run (read f : Fallible S ε α) s = (.ok a, s') ↔ f s = a ∧ s = s' := by
  show ((Outcome.ok (f s) : Outcome ε α), s) = (.ok a, s') ↔ _
  simp

theorem run_refuseIf_iff (c : Prop) [Decidable c] (e : ε) (a : PUnit) (s s' : S) :
    run (refuseIf c e : Fallible S ε PUnit) s = (.ok a, s') ↔ ¬ c ∧ s = s' := by
  unfold refuseIf
  by_cases h : c
  · simp [h, run_fail_iff]
  · simp [h, run_pure_iff]

theorem run_required_iff (o : Option α) (e : ε) (a : α) (s s' : S) :
    run (required o e : Fallible S ε α) s = (.ok a, s') ↔ o = some a ∧ s = s' := by
  cases o <;> simp [required, run_pure_iff, run_fail_iff]

def within {T : Type u} (part : Program.Part S T) (p : Fallible T ε α) : Fallible S ε α :=
  Program.within part p

theorem run_within {T : Type u} (part : Program.Part S T) (p : Fallible T ε α) (s : S) :
    run (within part p) s = ((run p (part.get s)).1, part.put (run p (part.get s)).2 s) :=
  Program.run_within part p s

theorem run_within_iff {T : Type u} (part : Program.Part S T) (p : Fallible T ε α) (a : α) (s s' : S) :
    run (within part p) s = (.ok a, s') ↔ ∃ t, run p (part.get s) = (.ok a, t) ∧ part.put t s = s' := by
  rw [run_within]
  obtain ⟨outcome, t⟩ := run p (part.get s)
  simp only [Prod.mk.injEq]
  constructor
  · rintro ⟨rfl, rfl⟩
    exact ⟨t, ⟨rfl, rfl⟩, rfl⟩
  · rintro ⟨_, ⟨rfl, rfl⟩, rfl⟩
    exact ⟨rfl, rfl⟩

theorem run_ofExcept_iff (x : Except ε α) (a : α) (s s' : S) :
    run (ofExcept x : Fallible S ε α) s = (.ok a, s') ↔ x = .ok a ∧ s = s' := by
  cases x <;> simp [ofExcept, run_pure_iff, run_fail_iff]

/-- The program fails here and leaves everything as it was. -/
def RefusesAt (p : Fallible S ε α) (s : S) : Prop := ∃ e, p.run s = (.error e, s)

/-- The program only looks, and passes or refuses. -/
def Checks (p : Fallible S ε α) : Prop := ∀ s, (∃ a, p.run s = (.ok a, s)) ∨ p.RefusesAt s

theorem run_bind_of_ok {p : Fallible S ε α} {s t : S} {a : α} (h : p.run s = (.ok a, t))
    (f : α → Fallible S ε β) : run (p >>= f) s = run (f a) t := by
  rw [run_bind, h]

theorem run_bind_of_error {p : Fallible S ε α} {s t : S} {e : ε} (h : p.run s = (.error e, t))
    (f : α → Fallible S ε β) : run (p >>= f) s = (.error e, t) := by
  rw [run_bind, h]

theorem RefusesAt.bind {p : Fallible S ε α} {s : S} (h : p.RefusesAt s)
    (f : α → Fallible S ε β) : RefusesAt (p >>= f) s := by
  obtain ⟨e, ran⟩ := h
  exact ⟨e, run_bind_of_error ran f⟩

theorem refusesAt_bind_of_ok {p : Fallible S ε α} {s : S} {a : α} (h : p.run s = (.ok a, s))
    {f : α → Fallible S ε β} (rest : (f a).RefusesAt s) : RefusesAt (p >>= f) s := by
  obtain ⟨e, ran⟩ := rest
  exact ⟨e, (run_bind_of_ok h f).trans ran⟩

theorem refusesAt_fail (e : ε) (s : S) : (fail e : Fallible S ε α).RefusesAt s := ⟨e, rfl⟩

theorem checks_pure (a : α) : (pure a : Fallible S ε α).Checks := fun _ => .inl ⟨a, rfl⟩

theorem checks_fail (e : ε) : (fail e : Fallible S ε α).Checks := fun _ => .inr ⟨e, rfl⟩

theorem checks_read (f : S → α) : (read f : Fallible S ε α).Checks := fun s => .inl ⟨f s, rfl⟩

theorem checks_refuseIf (c : Prop) [Decidable c] (e : ε) :
    (refuseIf c e : Fallible S ε PUnit).Checks := by
  unfold refuseIf
  split
  · exact checks_fail e
  · exact checks_pure _

theorem Checks.bind {p : Fallible S ε α} {f : α → Fallible S ε β} (h : p.Checks)
    (rest : ∀ a, (f a).Checks) : (p >>= f).Checks := by
  intro s
  rcases h s with ⟨a, passed⟩ | refused
  · rcases rest a s with ⟨b, passed'⟩ | refused'
    · exact .inl ⟨b, (run_bind_of_ok passed f).trans passed'⟩
    · exact .inr (refusesAt_bind_of_ok passed refused')
  · exact .inr (refused.bind f)

theorem Checks.refuses {p : Fallible S ε α} (h : p.Checks) {s : S}
    (fails : ∀ a, p.run s ≠ (.ok a, s)) : p.RefusesAt s := by
  rcases h s with ⟨a, passed⟩ | refused
  · exact absurd passed (fails a)
  · exact refused

/-- Whenever the program succeeds, its result meets `post`. -/
def Returns (post : α → Prop) (p : Fallible S ε α) : Prop :=
  Program.Always (fun outcome => ∀ a, outcome = .ok a → post a) p

theorem returns_pure {post : α → Prop} {a : α} (h : post a) :
    Returns post (pure a : Fallible S ε α) := by
  intro b same
  cases same
  exact h

theorem returns_fail {post : α → Prop} (e : ε) : Returns post (fail e : Fallible S ε α) := by
  intro b same
  cases same

theorem returns_atomically {post : α → Prop} {f : S → Outcome ε α × S}
    (h : ∀ s a, (f s).1 = .ok a → post a) : Returns post (atomically f) :=
  fun s => h s

theorem returns_refuseIf (c : Prop) [Decidable c] (e : ε) :
    Returns (fun _ => ¬ c) (refuseIf c e : Fallible S ε PUnit) := by
  unfold refuseIf
  by_cases h : c
  · rw [if_pos h]
    exact returns_fail e
  · rw [if_neg h]
    exact returns_pure h

theorem returns_required (o : Option α) (e : ε) :
    Returns (fun a => o = some a) (required o e : Fallible S ε α) := by
  cases o with
  | none => exact returns_fail e
  | some a => exact returns_pure rfl

theorem returns_any (p : Fallible S ε α) : Returns (fun _ => True) p :=
  Program.Always.of_forall (fun _ _ _ => trivial) p

theorem Returns.bind {mid : α → Prop} {post : β → Prop} {p : Fallible S ε α}
    {f : α → Fallible S ε β} (h : Returns mid p) (rest : ∀ a, mid a → Returns post (f a)) :
    Returns post (p >>= f) := by
  refine Program.Always.bind h (fun outcome ok => ?_)
  cases outcome with
  | ok a => exact rest a (ok a rfl)
  | error e => exact returns_fail e
  | panicked => rintro _ ⟨⟩

theorem Returns.mono {post post' : α → Prop} (weaken : ∀ a, post a → post' a) {p : Fallible S ε α}
    (h : Returns post p) : Returns post' p :=
  Program.Always.mono (fun _ ok a same => weaken a (ok a same)) h

theorem Returns.after {post : β → Prop} (p : Fallible S ε α) {f : α → Fallible S ε β}
    (rest : ∀ a, Returns post (f a)) : Returns post (p >>= f) :=
  (returns_any p).bind (fun a _ => rest a)

def Guarantees (rel : S → S → Prop) (p : Fallible S ε α) : Prop := Program.Guarantees rel p

section Guarantees

variable {rel : S → S → Prop}

theorem guarantees_pure (a : α) : Guarantees rel (pure a : Fallible S ε α) := trivial

theorem guarantees_fail (e : ε) : Guarantees rel (fail e : Fallible S ε α) := trivial

theorem guarantees_atomically {f : S → Outcome ε α × S} (h : ∀ s, rel s (f s).2) :
    Guarantees rel (atomically f) := fun s => ⟨h s, trivial⟩

theorem guarantees_read (refl : ∀ s, rel s s) (f : S → α) :
    Guarantees rel (read f : Fallible S ε α) := guarantees_atomically refl

theorem guarantees_refuseIf (c : Prop) [Decidable c] (e : ε) :
    Guarantees rel (refuseIf c e : Fallible S ε PUnit) := by
  unfold refuseIf
  split
  · exact guarantees_fail e
  · exact guarantees_pure _

theorem guarantees_required (o : Option α) (e : ε) :
    Guarantees rel (required o e : Fallible S ε α) := by
  cases o with
  | none => exact guarantees_fail e
  | some a => exact guarantees_pure a

theorem guarantees_ofExcept (x : Except ε α) : Guarantees rel (ofExcept x : Fallible S ε α) := by
  cases x with
  | error e => exact guarantees_fail e
  | ok a => exact guarantees_pure a

theorem guarantees_of_forall (all : ∀ s t, rel s t) (p : Fallible S ε α) : Guarantees rel p :=
  Program.Guarantees.of_forall all p

theorem Guarantees.bind {p : Fallible S ε α} {f : α → Fallible S ε β} (h : Guarantees rel p)
    (rest : ∀ a, Guarantees rel (f a)) : Guarantees rel (p >>= f) := by
  refine Program.Guarantees.bind h (fun outcome => ?_)
  cases outcome with
  | ok a => exact rest a
  | error e => exact guarantees_fail e
  | panicked => trivial

theorem Guarantees.within {T : Type u} {part : Program.Part S T} {rel' : T → T → Prop}
    {p : Fallible T ε α} (h : Guarantees rel' p)
    (lifts : ∀ s t, rel' (part.get s) t → rel s (part.put t s)) : Guarantees rel (within part p) :=
  Program.Guarantees.within h lifts

theorem Guarantees.run (refl : ∀ s, rel s s) (trans : ∀ {s t u}, rel s t → rel t u → rel s u)
    {p : Fallible S ε α} (h : Guarantees rel p) (s : S) : rel s (p.run s).2 :=
  Program.Guarantees.run refl trans h s

end Guarantees

end Fallible
