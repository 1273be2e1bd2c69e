import Mathlib.Data.List.Basic
import Mathlib.Logic.Function.Basic

/-!
# Transition systems

A system is a partial step function: `step s a` is the state after action `a` in
state `s`, and `none` when `a` cannot be taken there. A run is a list of actions.
Two kinds of statement are made about a run: something holds in every state it
passes through (`Always`), and something held of every action when it was taken
(`Along`).

## What is proved

* `run_invariant` — what every step keeps holds at the end of every run.
* `always_of_along` — what every step that meets a condition keeps holds
  throughout every run whose steps meet the condition.
* `always_iff_along` — when a step keeps a property exactly if it meets the
  condition, a run keeps the property throughout exactly if all its steps meet it.
* `along_of_not_marked` — when a step that does not meet the condition leaves a
  mark, a run that ends without it met the condition throughout.
-/

namespace HardwareDrivers.Theory

universe u v

variable {σ : Type u} {α : Type v}

/-- The state a list of actions leads to, if each can be taken in turn. -/
def run (step : σ → α → Option σ) : σ → List α → Option σ
  | s, [] => some s
  | s, a :: as => (step s a).bind fun t => run step t as

/-- `P` holds in every state the run passes through, the first and the last included. -/
def Always (step : σ → α → Option σ) (P : σ → Prop) : σ → List α → Prop
  | s, [] => P s
  | s, a :: as => P s ∧ ∀ t, step s a = some t → Always step P t as

/-- Every action the run takes meets `C` in the state it is taken in. -/
def Along (step : σ → α → Option σ) (C : σ → α → Prop) : σ → List α → Prop
  | _, [] => True
  | s, a :: as => ∀ t, step s a = some t → C s a ∧ Along step C t as

/-- Every action that the run comes to meets `C` in the state it is tried in, the last one also if it
cannot be taken. -/
def AtEvery (step : σ → α → Option σ) (C : σ → α → Prop) : σ → List α → Prop
  | _, [] => True
  | s, a :: as => C s a ∧ ∀ t, step s a = some t → AtEvery step C t as

variable {step : σ → α → Option σ} {P Q I : σ → Prop} {C : σ → α → Prop}

@[simp] theorem run_nil (s : σ) : run step s [] = some s := rfl

theorem run_cons (s : σ) (a : α) (as : List α) :
    run step s (a :: as) = (step s a).bind fun t => run step t as := rfl

theorem run_append (s : σ) (as bs : List α) :
    run step s (as ++ bs) = (run step s as).bind fun t => run step t bs := by
  induction as generalizing s with
  | nil => rfl
  | cons a as ih =>
    simp only [List.cons_append, run_cons, Option.bind_assoc]
    exact congrArg _ (funext fun t => ih t)

/-- One run after another. -/
theorem run_trans {s t u : σ} {as bs : List α} (h₁ : run step s as = some t)
    (h₂ : run step t bs = some u) : run step s (as ++ bs) = some u := by
  rw [run_append, h₁]; exact h₂

theorem run_cons_eq_some {s t : σ} {a : α} {as : List α} :
    run step s (a :: as) = some t ↔ ∃ u, step s a = some u ∧ run step u as = some t := by
  rw [run_cons, Option.bind_eq_some_iff]

theorem Always.head {s : σ} {as : List α} (h : Always step P s as) : P s := by
  cases as with
  | nil => exact h
  | cons a as => exact h.1

/-- `Always` speaks of every prefix of the run. -/
theorem always_iff_initial {s : σ} {as : List α} :
    Always step P s as ↔ ∀ pre t, pre <+: as → run step s pre = some t → P t := by
  induction as generalizing s with
  | nil =>
    constructor
    · intro h pre t hp ht
      rw [List.prefix_nil] at hp
      subst hp
      cases ht
      exact h
    · exact fun h => h [] s (List.prefix_refl _) rfl
  | cons a as ih =>
    constructor
    · rintro ⟨hs, h⟩ pre t hp ht
      cases pre with
      | nil => cases ht; exact hs
      | cons b pre =>
        obtain ⟨rfl, hpre⟩ := List.cons_prefix_cons.mp hp
        obtain ⟨u, hu, hut⟩ := run_cons_eq_some.mp ht
        exact ih.mp (h u hu) pre t hpre hut
    · intro h
      refine ⟨h [] s List.nil_prefix rfl, fun u hu => ih.mpr fun pre t hp ht => ?_⟩
      exact h (a :: pre) t (List.cons_prefix_cons.mpr ⟨rfl, hp⟩) (run_cons_eq_some.mpr ⟨u, hu, ht⟩)

/-- What holds throughout a run holds where it ends. -/
theorem Always.last {s t : σ} {as : List α} (h : Always step P s as) (ht : run step s as = some t) :
    P t :=
  always_iff_initial.mp h as t (List.prefix_refl _) ht

theorem Always.mono {s : σ} {as : List α} (h : Always step P s as) (hPQ : ∀ s, P s → Q s) :
    Always step Q s as := by
  induction as generalizing s with
  | nil => exact hPQ _ h
  | cons a as ih => exact ⟨hPQ _ h.1, fun t ht => ih (h.2 t ht)⟩

/-- In a concrete run a decidable property can be checked. -/
instance decidableAlways [∀ s, Decidable (P s)] : ∀ s as, Decidable (Always step P s as)
  | s, [] => inferInstanceAs (Decidable (P s))
  | s, a :: as =>
    match h : step s a with
    | none =>
      decidable_of_iff (P s)
        ⟨fun hP => ⟨hP, fun t ht => by rw [h] at ht; cases ht⟩, fun hA => hA.1⟩
    | some t =>
      have := decidableAlways t as
      decidable_of_iff (P s ∧ Always step P t as)
        ⟨fun hP => ⟨hP.1, fun u hu => by rw [h] at hu; cases hu; exact hP.2⟩,
          fun hA => ⟨hA.1, hA.2 t h⟩⟩

/-- Along a concrete run a decidable condition can be checked. -/
instance decidableAlong [∀ s a, Decidable (C s a)] : ∀ s as, Decidable (Along step C s as)
  | _, [] => isTrue trivial
  | s, a :: as =>
    match h : step s a with
    | none => isTrue fun t ht => by rw [h] at ht; cases ht
    | some t =>
      have := decidableAlong t as
      decidable_of_iff (C s a ∧ Along step C t as)
        ⟨fun hc u hu => by rw [h] at hu; cases hu; exact hc, fun ha => ha t h⟩

/-- Two conditions along a run. -/
theorem along_and {D : σ → α → Prop} {s : σ} {as : List α} :
    Along step (fun s a => C s a ∧ D s a) s as ↔ Along step C s as ∧ Along step D s as := by
  induction as generalizing s with
  | nil => exact ⟨fun _ => ⟨trivial, trivial⟩, fun _ => trivial⟩
  | cons a as ih =>
    constructor
    · intro h
      exact ⟨fun t ht => ⟨(h t ht).1.1, (ih.mp (h t ht).2).1⟩,
        fun t ht => ⟨(h t ht).1.2, (ih.mp (h t ht).2).2⟩⟩
    · intro h t ht
      exact ⟨⟨(h.1 t ht).1, (h.2 t ht).1⟩, ih.mpr ⟨(h.1 t ht).2, (h.2 t ht).2⟩⟩

/-- `Along` speaks of every step of the run. -/
theorem Along.of_run {s t u : σ} {a : α} {as bs : List α} (h : Along step C s (as ++ a :: bs))
    (hrun : run step s as = some t) (hstep : step t a = some u) : C t a := by
  induction as generalizing s with
  | nil =>
    cases hrun
    exact (h u hstep).1
  | cons b as ih =>
    obtain ⟨v, hv, hrun⟩ := run_cons_eq_some.mp hrun
    exact ih (h v hv).2 hrun

/-- Two conditions that are the same in every state are the same for every run. -/
theorem atEvery_congr {D : σ → α → Prop} (h : ∀ s a, C s a ↔ D s a) (s : σ) (as : List α) :
    AtEvery step C s as ↔ AtEvery step D s as := by
  induction as generalizing s with
  | nil => exact Iff.rfl
  | cons a as ih => exact and_congr (h s a) (forall₂_congr fun t _ => ih t)

/-- Where a condition is the same for each action as what is asked of it, and keeps the invariant, it
is the same for every run. -/
theorem atEvery_iff_atEvery {D : σ → α → Prop}
    (hstep : ∀ s a t, I s → C s a → step s a = some t → I t)
    (hD : ∀ s a, I s → (D s a ↔ C s a)) {s : σ} {as : List α} (hs : I s) :
    AtEvery step D s as ↔ AtEvery step C s as := by
  induction as generalizing s with
  | nil => exact Iff.rfl
  | cons a as ih =>
    constructor
    · rintro ⟨hDa, hA⟩
      have hCa : C s a := (hD s a hs).mp hDa
      exact ⟨hCa, fun t ht => (ih (hstep s a t hs hCa ht)).mp (hA t ht)⟩
    · rintro ⟨hCa, hA⟩
      exact ⟨(hD s a hs).mpr hCa, fun t ht => (ih (hstep s a t hs hCa ht)).mpr (hA t ht)⟩

/-- What holds of the states and of the actions of a run, by the first state and the actions. -/
theorem always_and_atEvery {s : σ} {as : List α} :
    Always step P s as ∧ AtEvery step C s as ↔
      P s ∧ AtEvery step (fun s a => (∀ t, step s a = some t → P t) ∧ C s a) s as := by
  induction as generalizing s with
  | nil => exact Iff.rfl
  | cons a as ih =>
    constructor
    · rintro ⟨⟨hs, hP⟩, hC, hrest⟩
      exact ⟨hs, ⟨fun t ht => (hP t ht).head, hC⟩, fun t ht => (ih.mp ⟨hP t ht, hrest t ht⟩).2⟩
    · rintro ⟨hs, ⟨hP, hC⟩, hrest⟩
      exact ⟨⟨hs, fun t ht => (ih.mpr ⟨hP t ht, hrest t ht⟩).1⟩, hC,
        fun t ht => (ih.mpr ⟨hP t ht, hrest t ht⟩).2⟩

/-- What is tried where a run leads to meets the condition. -/
theorem AtEvery.of_run {s t : σ} {a : α} {as bs : List α} (h : AtEvery step C s (as ++ a :: bs))
    (hrun : run step s as = some t) : C t a := by
  induction as generalizing s with
  | nil =>
    cases hrun
    exact h.1
  | cons b as ih =>
    obtain ⟨v, hv, hrun⟩ := run_cons_eq_some.mp hrun
    exact ih (h.2 v hv) hrun

/-- What every step that meets the condition keeps holds throughout a run whose
steps all meet it. -/
theorem always_of_along (hstep : ∀ s a t, I s → C s a → step s a = some t → I t) {s : σ}
    {as : List α} (hs : I s) (h : Along step C s as) : Always step I s as := by
  induction as generalizing s with
  | nil => exact hs
  | cons a as ih =>
    refine ⟨hs, fun t ht => ?_⟩
    obtain ⟨hC, hA⟩ := h t ht
    exact ih (hstep s a t hs hC ht) hA

/-- What follows of a step that meets the condition, where the invariant holds, follows of every
step of a run whose steps all meet it. -/
theorem along_of_along {D : σ → α → Prop} (hstep : ∀ s a t, I s → C s a → step s a = some t → I t)
    (hD : ∀ s a t, I s → C s a → step s a = some t → D s a) {s : σ} {as : List α} (hs : I s)
    (h : Along step C s as) : Along step D s as := by
  induction as generalizing s with
  | nil => trivial
  | cons a as ih =>
    intro t ht
    obtain ⟨hC, hA⟩ := h t ht
    exact ⟨hD s a t hs hC ht, ih (hstep s a t hs hC ht) hA⟩

/-- What every step between states with `P` keeps holds throughout a run with `P` throughout. -/
theorem always_and_of_always (hstep : ∀ s a t, I s → P s → step s a = some t → I t) {s : σ}
    {as : List α} (hs : I s) (h : Always step P s as) : Always step (fun s => I s ∧ P s) s as := by
  induction as generalizing s with
  | nil => exact ⟨hs, h⟩
  | cons a as ih =>
    obtain ⟨hP, hrest⟩ := h
    exact ⟨⟨hs, hP⟩, fun t ht => ih (hstep s a t hs hP ht) (hrest t ht)⟩

/-- What every step keeps holds throughout every run. -/
theorem always_of_step (hstep : ∀ s a t, I s → step s a = some t → I t) {s : σ} (hs : I s)
    (as : List α) : Always step I s as := by
  induction as generalizing s with
  | nil => exact hs
  | cons a as ih => exact ⟨hs, fun t ht => ih (hstep s a t hs ht)⟩

/-- What every step keeps holds at the end of every run. -/
theorem run_invariant (hstep : ∀ s a t, I s → step s a = some t → I t) {s t : σ} {as : List α}
    (hs : I s) (ht : run step s as = some t) : I t :=
  (always_of_step hstep hs as).last ht

/-- Where an invariant gives `P`, is kept by the steps that meet `C`, and the other steps
break `P`, a run keeps `P` throughout exactly when all its steps meet `C`. -/
theorem always_iff_along (hI : ∀ s a t, I s → C s a → step s a = some t → I t)
    (hP : ∀ s, I s → P s) (hC : ∀ s a t, I s → step s a = some t → P t → C s a) {s : σ}
    (hs : I s) (as : List α) : Always step P s as ↔ Along step C s as := by
  induction as generalizing s with
  | nil => exact ⟨fun _ => trivial, fun _ => hP s hs⟩
  | cons a as ih =>
    constructor
    · rintro ⟨-, h⟩ t ht
      have hCa : C s a := hC s a t hs ht (h t ht).head
      exact ⟨hCa, (ih (hI s a t hs hCa ht)).mp (h t ht)⟩
    · intro h
      refine ⟨hP s hs, fun t ht => ?_⟩
      obtain ⟨hCa, hA⟩ := h t ht
      exact (ih (hI s a t hs hCa ht)).mpr hA

/-- Where a condition is the same for each step as what is asked of it, and keeps the invariant, it
is the same along a run. -/
theorem along_iff_along {D : σ → α → Prop}
    (hstep : ∀ s a t, I s → C s a → step s a = some t → I t)
    (hD : ∀ s a t, I s → step s a = some t → (D s a ↔ C s a)) {s : σ} {as : List α} (hs : I s) :
    Along step D s as ↔ Along step C s as := by
  induction as generalizing s with
  | nil => exact Iff.rfl
  | cons a as ih =>
    constructor
    · intro h t ht
      obtain ⟨hDa, hA⟩ := h t ht
      have hCa : C s a := (hD s a t hs ht).mp hDa
      exact ⟨hCa, (ih (hstep s a t hs hCa ht)).mp hA⟩
    · intro h t ht
      obtain ⟨hCa, hA⟩ := h t ht
      exact ⟨(hD s a t hs ht).mpr hCa, (ih (hstep s a t hs hCa ht)).mpr hA⟩

/-- Where a step that does not meet the condition leaves a mark that no step takes away, a run
without the mark at its end met the condition in every step. -/
theorem along_of_not_marked {B : σ → Prop}
    (hI : ∀ s a t, I s → C s a → step s a = some t → I t)
    (hmark : ∀ s a t, I s → ¬ C s a → step s a = some t → B t)
    (hkeep : ∀ s a t, B s → step s a = some t → B t) {s t : σ} {as : List α} (hs : I s)
    (ht : run step s as = some t) (hB : ¬ B t) : Along step C s as := by
  induction as generalizing s with
  | nil => trivial
  | cons a as ih =>
    intro u hu
    have hrest : run step u as = some t := by
      obtain ⟨u', hu', hrest⟩ := run_cons_eq_some.mp ht
      cases hu.symm.trans hu'
      exact hrest
    by_cases hC : C s a
    · exact ⟨hC, ih (hI s a u hs hC hu) hrest⟩
    · exact absurd (run_invariant hkeep (hmark s a u hs hC hu) hrest) hB

/-! ### Many processes -/

/-- After one process moved, what holds of a process holds of where that one went, or held of the
process before. -/
theorem update_cases {ι : Type u} {β : Type v} [DecidableEq ι] (P : β → Prop) {f : ι → β} {i j : ι}
    {b : β} (h : P (Function.update f i b j)) : (j = i ∧ P b) ∨ (j ≠ i ∧ P (f j)) := by
  by_cases hj : j = i
  · subst hj
    rw [Function.update_self] at h
    exact .inl ⟨rfl, h⟩
  · rw [Function.update_of_ne hj] at h
    exact .inr ⟨hj, h⟩

end HardwareDrivers.Theory
