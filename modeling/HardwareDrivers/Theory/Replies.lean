import Mathlib.Logic.Basic

/-!
# Calls and their replies

A program answers calls: `call s a` is its reply to `a` in state `s` and the state after it, and
`none` when the call goes wrong. What it is to answer is said of a simpler state: `next` is how
calls change that one, and `Allowed` which replies are right. A program behaves so in a list of
calls if all of them are answered rightly and the two states stay related.

## What is proved

* `behaves_iff` — when a call is answered rightly exactly if it meets a condition, a list of
  calls is exactly if all calls in it meet the condition.
-/

namespace HardwareDrivers.Theory

universe u v w x

variable {σ : Type u} {τ : Type v} {α : Type w} {ρ : Type x}

/-- All calls are answered rightly. -/
def Behaves (call : σ → α → Option (ρ × σ)) (next : τ → α → τ) (Allowed : τ → α → ρ → Prop)
    (Rel : σ → τ → Prop) : σ → τ → List α → Prop
  | s, l, [] => Rel s l
  | s, l, a :: as => Rel s l ∧ ∃ r t, call s a = some (r, t) ∧ Allowed l a r ∧
      Behaves call next Allowed Rel t (next l a) as

/-- All calls meet a condition. -/
def Meets (next : τ → α → τ) (C : τ → α → Prop) : τ → List α → Prop
  | _, [] => True
  | l, a :: as => C l a ∧ Meets next C (next l a) as

variable {call : σ → α → Option (ρ × σ)} {next : τ → α → τ} {Allowed : τ → α → ρ → Prop}
  {Rel : σ → τ → Prop} {C : τ → α → Prop}

theorem Behaves.head {s : σ} {l : τ} {as : List α} (h : Behaves call next Allowed Rel s l as) :
    Rel s l := by
  cases as with
  | nil => exact h
  | cons a as => exact h.1

/-- **A list of calls is answered rightly exactly if each call in it is one that can be.** -/
theorem behaves_iff
    (hstep : ∀ s l a, Rel s l →
      ((∃ r t, call s a = some (r, t) ∧ Allowed l a r ∧ Rel t (next l a)) ↔ C l a))
    {s : σ} {l : τ} (h : Rel s l) (as : List α) :
    Behaves call next Allowed Rel s l as ↔ Meets next C l as := by
  induction as generalizing s l with
  | nil => exact iff_of_true h trivial
  | cons a as ih =>
    constructor
    · rintro ⟨-, r, t, hcall, hallowed, hrest⟩
      exact ⟨(hstep s l a h).mp ⟨r, t, hcall, hallowed, hrest.head⟩, (ih hrest.head).mp hrest⟩
    · rintro ⟨hC, hrest⟩
      obtain ⟨r, t, hcall, hallowed, ht⟩ := (hstep s l a h).mpr hC
      exact ⟨h, r, t, hcall, hallowed, (ih ht).mpr hrest⟩

end HardwareDrivers.Theory
