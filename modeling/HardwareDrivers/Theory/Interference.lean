import HardwareDrivers.Theory.Transition

/-!
# Freedom from interference

Processes, each at a point of its own, share a state. Each point has an assertion about
the state. If a step of a process takes the assertion of its point to that of its next
point, and a step of another process that meets a condition keeps it, then in every run
whose steps meet the condition every process finds its assertion true.

## What is proved

* `Procs.always_asserted` — the rule for runs.
-/

namespace HardwareDrivers.Theory

variable {ι π σ α : Type}

/-- The shared state, and the point at which each process is. -/
structure Procs (ι π σ : Type) where
  /-- The shared state. -/
  state : σ
  /-- The points. -/
  points : ι → π

namespace Procs

/-- Every assertion is true, and so is what is to hold of the shared state. -/
structure Asserted (G : σ → Prop) (A : π → σ → Prop) (s : Procs ι π σ) : Prop where
  /-- What is to hold of the shared state. -/
  state : G s.state
  /-- The assertion of each process. -/
  points : ∀ i, A (s.points i) s.state

variable [DecidableEq ι]

/-- A process takes a step: `next a p m` is where action `a` leads from point `p` and state `m`. -/
def step (next : α → π → σ → Option (π × σ)) (s : Procs ι π σ) (a : ι × α) :
    Option (Procs ι π σ) :=
  (next a.2 (s.points a.1) s.state).map fun r => ⟨r.2, Function.update s.points a.1 r.1⟩

variable {next : α → π → σ → Option (π × σ)} {s t : Procs ι π σ}

theorem step_cases {a : ι × α} (h : step next s a = some t) :
    ∃ p m, next a.2 (s.points a.1) s.state = some (p, m) ∧
      t = ⟨m, Function.update s.points a.1 p⟩ := by
  obtain ⟨⟨p, m⟩, hnext, rfl⟩ := Option.map_eq_some_iff.mp h
  exact ⟨p, m, hnext, rfl⟩

variable {G : σ → Prop} {A : π → σ → Prop} {C : Procs ι π σ → ι × α → Prop}

/-- In every run whose steps meet the condition all assertions are true. -/
theorem always_asserted
    (own : ∀ a p m p' m', G m → A p m → next a p m = some (p', m') → G m' ∧ A p' m')
    (others : ∀ (s : Procs ι π σ) i a p' m' j, C s (i, a) → Asserted G A s →
      next a (s.points i) s.state = some (p', m') → j ≠ i → A (s.points j) m')
    {as : List (ι × α)} (hs : Asserted G A s) (h : Along (step next) C s as) :
    Always (step next) (Asserted G A) s as := by
  refine always_of_along (fun s a t hs hC ht => ?_) hs h
  obtain ⟨p, m, hnext, rfl⟩ := step_cases ht
  obtain ⟨hG, hA⟩ := own a.2 _ _ p m hs.state (hs.points a.1) hnext
  refine ⟨hG, fun j => ?_⟩
  by_cases hj : j = a.1
  · subst hj
    change A (Function.update s.points a.1 p a.1) m
    rw [Function.update_self]
    exact hA
  · change A (Function.update s.points a.1 p j) m
    rw [Function.update_of_ne hj]
    exact others s a.1 a.2 p m j hC hs hnext hj

end Procs

end HardwareDrivers.Theory
