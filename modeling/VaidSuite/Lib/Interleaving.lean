import Mathlib.Logic.Function.Basic
import VaidSuite.Lib.Program
import VaidSuite.Lib.Runs

/-! Programs interleaved at their atomic actions, and tokens that only one of them
can spend. -/

universe u v w

/-- One shared state, and what is left of each program. -/
structure Pool (ι : Type u) (S : Type v) (R : Type w) where
  shared : S
  programs : ι → Program S R

namespace Pool

variable {ι : Type u} {S : Type v} {R : Type w} [DecidableEq ι]

/-- The program of `i` performs its next action. -/
def step (pool : Pool ι S R) (i : ι) : Pool ι S R :=
  match pool.programs i with
  | .ret _ => pool
  | .act update next =>
    ⟨update pool.shared, Function.update pool.programs i (next pool.shared)⟩

/-- The pool after a schedule of actions. -/
def run (pool : Pool ι S R) (schedule : List ι) : Pool ι S R := Runs.run step pool schedule

def Returned (pool : Pool ι S R) (i : ι) (r : R) : Prop := pool.programs i = .ret r

theorem step_cases (pool : Pool ι S R) (i : ι) : pool.step i = pool ∨
    ∃ update next, pool.programs i = .act update next ∧
      (pool.step i).shared = update pool.shared ∧
      (pool.step i).programs i = next pool.shared ∧
      ∀ j, j ≠ i → (pool.step i).programs j = pool.programs j := by
  unfold step
  split
  · exact .inl rfl
  · rename_i update next here
    exact .inr ⟨update, next, here, rfl, Function.update_self ..,
      fun j other => Function.update_of_ne other ..⟩

theorem run_other {i : ι} (pool : Pool ι S R) {schedule : List ι} (other : i ∉ schedule) :
    (pool.run schedule).programs i = pool.programs i := by
  induction schedule generalizing pool with
  | nil => rfl
  | cons j rest ih =>
    rw [List.mem_cons, not_or] at other
    refine (ih (pool.step j) other.2).trans ?_
    rcases pool.step_cases j with same | ⟨_, _, _, _, _, untouched⟩
    · rw [same]
    · exact untouched i other.1

theorem step_alone {pool pool' : Pool ι S R} {i : ι} (shared : pool.shared = pool'.shared)
    (same : pool.programs i = pool'.programs i) :
    (pool.step i).shared = (pool'.step i).shared ∧
      (pool.step i).programs i = (pool'.step i).programs i := by
  cases here : pool'.programs i with
  | ret r =>
    rw [here] at same
    simp [step, same, here, shared]
  | act update next =>
    rw [here] at same
    simp [step, same, here, shared]

theorem run_alone {pool pool' : Pool ι S R} {i : ι} (n : ℕ) (shared : pool.shared = pool'.shared)
    (same : pool.programs i = pool'.programs i) :
    (pool.run (List.replicate n i)).programs i = (pool'.run (List.replicate n i)).programs i := by
  induction n generalizing pool pool' with
  | zero => exact same
  | succ n ih => exact ih (step_alone shared same).1 (step_alone shared same).2

theorem always_step {post : ι → R → Prop} (pool : Pool ι S R) (i : ι)
    (h : ∀ j, (pool.programs j).Always (post j)) : ∀ j, ((pool.step i).programs j).Always (post j) := by
  rcases pool.step_cases i with same | ⟨update, next, here, _, moved, rest⟩
  · rwa [same]
  intro j
  by_cases same : j = i
  · subst same
    have now := h j
    rw [here] at now
    rw [moved]
    exact now pool.shared
  · rw [rest j same]
    exact h j

theorem always_run {post : ι → R → Prop} {pool : Pool ι S R}
    (h : ∀ j, (pool.programs j).Always (post j)) {schedule : List ι} {i : ι} {r : R}
    (returned : (pool.run schedule).Returned i r) : post i r := by
  have kept := Runs.invariant (fun pool : Pool ι S R => ∀ j, (pool.programs j).Always (post j))
    (fun _ _ => True)
    (fun pool i h _ => always_step pool i h) h (Runs.Along.of_forall (fun _ _ => trivial) pool schedule)
  have last := kept i
  rw [show ((Runs.run step pool schedule).programs i) = .ret r from returned] at last
  exact last

end Pool

/-- The program cannot return a winning result unless one of its actions finds the
token unspent and spends it. -/
def Program.Spends {S : Type u} {R : Type v} (spent : S → Prop) (won : R → Prop) :
    Program S R → Prop
  | .ret r => ¬ won r
  | .act update next => ∀ s, (¬ spent s ∧ spent (update s)) ∨ (next s).Spends spent won

namespace Program

variable {S : Type u} {R : Type v} {T : Type w} {spent : S → Prop}

theorem Always.spends {won : R → Prop} {p : Program S R} (h : p.Always (fun r => ¬ won r)) :
    p.Spends spent won := by
  induction p with
  | ret r => exact h
  | act update next ih => exact fun s => .inr (ih s (h s))

theorem Spends.mono {won won' : R → Prop} (weaken : ∀ r, won' r → won r) {p : Program S R}
    (h : p.Spends spent won) : p.Spends spent won' := by
  induction p with
  | ret r => exact fun wins => h (weaken r wins)
  | act update next ih => exact fun s => (h s).imp_right (ih s)

theorem Spends.bind {won : R → Prop} {won' : T → Prop} {p : Program S R} {f : R → Program S T}
    (h : p.Spends spent won) (rest : ∀ r, ¬ won r → (f r).Spends spent won') :
    (p.bind f).Spends spent won' := by
  induction p with
  | ret r => exact rest r h
  | act update next ih =>
    intro s
    rcases h s with now | later
    · exact .inl now
    · exact .inr (ih s later)

theorem Always.bind_spends {mid : R → Prop} {won : T → Prop} {p : Program S R}
    {f : R → Program S T} (h : p.Always mid) (rest : ∀ r, mid r → (f r).Spends spent won) :
    (p.bind f).Spends spent won := by
  induction p with
  | ret r => exact rest r h
  | act update next ih => exact fun s => .inr (ih s (h s))

/-- The token never becomes unspent again. -/
def KeepsSpent (spent : S → Prop) (p : Program S R) : Prop :=
  p.Guarantees (fun s s' => spent s → spent s')

end Program

namespace Fallible

variable {S : Type u} {ε : Type v} {α β : Type w} {spent : S → Prop}

/-- The program cannot succeed without spending the token. -/
def Spends (spent : S → Prop) (p : Fallible S ε α) : Prop :=
  Program.Spends spent (fun outcome => ∃ a, outcome = .ok a) p

theorem spends_fail (e : ε) : Spends spent (fail e : Fallible S ε α) := by
  rintro ⟨a, same⟩
  cases same

theorem spends_atomically {f : S → Outcome ε α × S}
    (h : ∀ s, (¬ spent s ∧ spent (f s).2) ∨ ∀ a, (f s).1 ≠ .ok a) : Spends spent (atomically f) := by
  intro s
  rcases h s with now | failed
  · exact .inl now
  · exact .inr (fun ⟨a, same⟩ => failed a same)

theorem Spends.bind {p : Fallible S ε α} (h : Spends spent p) (f : α → Fallible S ε β) :
    Spends spent (p >>= f) := by
  refine Program.Spends.bind h (fun outcome lost => ?_)
  cases outcome with
  | ok a => exact absurd ⟨a, rfl⟩ lost
  | error e => exact spends_fail e
  | panicked => rintro ⟨a, same⟩; cases same

theorem Returns.bind_spends {mid : α → Prop} {p : Fallible S ε α} {f : α → Fallible S ε β}
    (h : Returns mid p) (rest : ∀ a, mid a → Spends spent (f a)) : Spends spent (p >>= f) := by
  refine Program.Always.bind_spends h (fun outcome ok => ?_)
  cases outcome with
  | ok a => exact rest a (ok a rfl)
  | error e => exact spends_fail e
  | panicked => rintro ⟨a, same⟩; cases same

end Fallible

namespace Pool

variable {ι : Type u} {S : Type v} {R : Type w} [DecidableEq ι]

/-- Either nobody has spent the token, or it is spent and only one program may have. -/
structure OneWinner (spent : S → Prop) (won : ι → R → Prop) (pool : Pool ι S R) : Prop where
  keeps : ∀ i, (pool.programs i).KeepsSpent spent
  others : (∀ i, (pool.programs i).Spends spent (won i)) ∨
    spent pool.shared ∧ ∃ winner, ∀ i, i ≠ winner → (pool.programs i).Spends spent (won i)

theorem OneWinner.step {spent : S → Prop} {won : ι → R → Prop} (pool : Pool ι S R) (i : ι)
    (h : OneWinner spent won pool) : OneWinner spent won (pool.step i) := by
  rcases pool.step_cases i with same | ⟨update, next, here, shared, moved, rest⟩
  · rwa [same]
  have keeps := h.keeps i
  rw [here] at keeps
  refine ⟨fun j => ?_, ?_⟩
  · by_cases same : j = i
    · subst same
      rw [moved]
      exact (keeps pool.shared).2
    · rw [rest j same]
      exact h.keeps j
  rcases h.others with unspent | ⟨spent_, winner, losers⟩
  · have own := unspent i
    rw [here] at own
    rcases own pool.shared with ⟨_, now⟩ | later
    · refine .inr ⟨by rwa [shared], i, fun j other => ?_⟩
      rw [rest j other]
      exact unspent j
    · refine .inl (fun j => ?_)
      by_cases same : j = i
      · subst same
        rwa [moved]
      · rw [rest j same]
        exact unspent j
  · refine .inr ⟨by rw [shared]; exact (keeps pool.shared).1 spent_, winner, fun j other => ?_⟩
    by_cases same : j = i
    · subst same
      have own := losers j other
      rw [here] at own
      rcases own pool.shared with ⟨fresh, _⟩ | later
      · exact absurd spent_ fresh
      · rwa [moved]
    · rw [rest j same]
      exact losers j other

theorem OneWinner.unique {spent : S → Prop} {won : ι → R → Prop} {pool : Pool ι S R}
    (spends : ∀ i, (pool.programs i).Spends spent (won i))
    (keeps : ∀ i, (pool.programs i).KeepsSpent spent) {schedule : List ι} {i j : ι} {r r' : R}
    (first : (pool.run schedule).Returned i r) (wonFirst : won i r)
    (second : (pool.run schedule).Returned j r') (wonSecond : won j r') : i = j := by
  have one : OneWinner spent won (pool.run schedule) :=
    Runs.invariant _ (fun _ _ => True) (fun pool i h _ => OneWinner.step pool i h)
      ⟨keeps, .inl spends⟩ (Runs.Along.of_forall (fun _ _ => trivial) pool schedule)
  have wins : ∀ k s, (pool.run schedule).Returned k s → won k s →
      ¬ ((pool.run schedule).programs k).Spends spent (won k) := by
    intro k s returned hwon spends
    rw [show (pool.run schedule).programs k = .ret s from returned] at spends
    exact spends hwon
  rcases one.others with unspent | ⟨_, winner, losers⟩
  · exact absurd (unspent i) (wins i r first wonFirst)
  · have onlyWinner : ∀ k s, (pool.run schedule).Returned k s → won k s → k = winner := by
      intro k s returned hwon
      by_contra other
      exact wins k s returned hwon (losers k other)
    rw [onlyWinner i r first wonFirst, onlyWinner j r' second wonSecond]

end Pool
