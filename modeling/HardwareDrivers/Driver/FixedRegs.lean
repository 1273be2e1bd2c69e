import HardwareDrivers.Driver.StoredRegs

/-!
# Registers that get one value

Programs share a device, and each of some registers gets one value only, whoever writes it. What was
written to it then stays, so a program that writes these registers leaves them so for good, and a
program that only reads them afterwards gets what it would get by itself.

## What is proved

* `fixed_kept` — a register that has its value keeps it.
* `wrote_all` — behind the writes of a program all registers that it wrote have their values.
* `determined_run` — a program that reads only such registers ends with one result.
-/

namespace HardwareDrivers.Driver

open Theory

/-- Registers, each with the value that it gets. -/
abbrev FixedRegs := List (BitVec 32 × BitVec 32)

/-- An access does not write another value. -/
def FixedRegs.Safe (fixed : FixedRegs) : RegCmd → Prop
  | .write32 offset value => ∀ w ∈ fixed, w.1 = offset → w.2 = value
  | .read32 _ => True

/-- The writes one after the other. -/
def writeRegs : FixedRegs → RegProg Unit
  | [] => pure ()
  | w :: ws => .cmd (.write32 w.1 w.2) fun _ => writeRegs ws

/-- A program that only reads registers that have their values: its result, and its accesses. -/
inductive Determined {α : Type} (fixed : FixedRegs) : RegProg α → α → ℕ → Prop where
  /-- It is done. -/
  | done (a : α) : Determined fixed (pure a) a 0
  /-- It reads one. -/
  | read (w : BitVec 32 × BitVec 32) (next : BitVec 32 → RegProg α) (a : α) (n : ℕ) (hw : w ∈ fixed)
      (hnext : Determined fixed (next w.2) a n) :
      Determined fixed (.cmd (.read32 w.1) next) a (n + 1)

variable {ι α β : Type} [DecidableEq ι] {fixed : FixedRegs} {i j : ι}
  {s t : Shared ι RegCmd RegCmd.Ans α StoredRegs} {is : List ι}

/-- All programs write the registers with their values. -/
def AllSafe (fixed : FixedRegs) (s : Shared ι RegCmd RegCmd.Ans α StoredRegs) : Prop :=
  ∀ i, (s.progs i).All fixed.Safe

theorem AllSafe.step (h : AllSafe fixed s) (hstep : Shared.step storedExec s i = some t) :
    AllSafe fixed t := by
  obtain ⟨c, next, hp, -, hi, hothers⟩ := Shared.step_cases hstep
  intro k
  by_cases hk : k = i
  · have hall := h i
    rw [hp] at hall
    rw [hk, hi]
    exact hall.2 _
  · rw [hothers k hk]
    exact h k

theorem fixed_step (h : AllSafe fixed s) (hstep : Shared.step storedExec s i = some t)
    {w : BitVec 32 × BitVec 32} (hw : w ∈ fixed) (hs : s.state w.1 = w.2) : t.state w.1 = w.2 := by
  obtain ⟨c, next, hp, hstate, -, -⟩ := Shared.step_cases hstep
  rw [hstate]
  cases c with
  | read32 offset => exact hs
  | write32 offset value =>
    by_cases hoff : w.1 = offset
    · have hsafe := h i
      rw [hp] at hsafe
      have hvalue : w.2 = value := hsafe.1 w hw hoff
      rw [hvalue, hoff]
      exact Function.update_self ..
    · exact (Function.update_of_ne hoff ..).trans hs

/-- A register that has its value keeps it. -/
theorem fixed_kept (h : AllSafe fixed s) (hrun : run (Shared.step storedExec) s is = some t)
    {w : BitVec 32 × BitVec 32} (hw : w ∈ fixed) (hs : s.state w.1 = w.2) : t.state w.1 = w.2 := by
  induction is generalizing s with
  | nil =>
    cases hrun
    exact hs
  | cons i is ih =>
    obtain ⟨u, hstep, hrun⟩ := run_cons_eq_some.mp hrun
    exact ih (h.step hstep) hrun (fixed_step h hstep hw hs)

theorem AllSafe.run (h : AllSafe fixed s) (hrun : run (Shared.step storedExec) s is = some t) :
    AllSafe fixed t :=
  run_invariant (I := AllSafe fixed) (fun _ _ _ h hstep => h.step hstep) h hrun

/-- Behind the writes of a program. -/
theorem wrote_all {ws : FixedRegs} {f : Unit → RegProg α} (h : AllSafe fixed s) (hws : ws ⊆ fixed)
    (hi : s.progs i = writeRegs ws >>= f) (hrun : run (Shared.step storedExec) s is = some t)
    (hcount : ws.length ≤ is.count i) : ∀ w ∈ ws, t.state w.1 = w.2 := by
  induction is generalizing s ws with
  | nil =>
    have hnil : ws = [] := List.length_eq_zero_iff.mp (Nat.le_zero.mp hcount)
    rw [hnil]
    exact fun w hw => by cases hw
  | cons k is ih =>
    obtain ⟨u, hstep, hrun⟩ := run_cons_eq_some.mp hrun
    obtain ⟨c, next, hp, hstate, hnext, hothers⟩ := Shared.step_cases hstep
    by_cases hk : k = i
    · subst hk
      cases ws with
      | nil => exact fun w hw => by cases hw
      | cons w ws =>
        rw [hi] at hp
        cases hp
        rw [List.count_cons_self, List.length_cons] at hcount
        have hw : u.state w.1 = w.2 := by
          rw [hstate]
          exact Function.update_self ..
        have hrest := ih (h.step hstep) (fun v hv => hws (List.mem_cons_of_mem _ hv)) hnext hrun
          (Nat.le_of_succ_le_succ hcount)
        rintro v (_ | ⟨_, hv⟩)
        · exact fixed_kept (h.step hstep) hrun (hws List.mem_cons_self) hw
        · exact hrest v hv
    · rw [List.count_cons_of_ne hk] at hcount
      exact ih (h.step hstep) hws ((hothers i (Ne.symm hk)).trans hi) hrun hcount

/-- A program that only reads such registers. -/
theorem determined_run {p : RegProg β} {a : β} {n : ℕ} {g : β → RegProg α} (h : AllSafe fixed s)
    (hfixed : ∀ w ∈ fixed, s.state w.1 = w.2) (hp : Determined fixed p a n)
    (hj : s.progs j = p >>= g) (hrun : run (Shared.step storedExec) s is = some t)
    (hcount : is.count j = n) : t.progs j = g a := by
  induction is generalizing s p n with
  | nil =>
    rw [List.count_nil] at hcount
    subst hcount
    cases hrun
    cases hp
    exact hj
  | cons k is ih =>
    obtain ⟨u, hstep, hrun⟩ := run_cons_eq_some.mp hrun
    obtain ⟨c, next, hcmd, hstate, hnext, hothers⟩ := Shared.step_cases hstep
    have hfixed' : ∀ w ∈ fixed, u.state w.1 = w.2 := fun w hw => fixed_step h hstep hw (hfixed w hw)
    by_cases hk : k = j
    · subst hk
      rw [List.count_cons_self] at hcount
      cases hp with
      | done => cases hcount
      | read w rest a n hw hrest =>
        rw [hj] at hcmd
        cases hcmd
        refine ih (h.step hstep) hfixed' hrest ?_ hrun (Nat.succ.inj hcount)
        rw [hnext]
        exact congrArg (fun v => rest v >>= g) (hfixed w hw)
    · rw [List.count_cons_of_ne hk] at hcount
      exact ih (h.step hstep) hfixed' hp ((hothers j (Ne.symm hk)).trans hj) hrun hcount

end HardwareDrivers.Driver
