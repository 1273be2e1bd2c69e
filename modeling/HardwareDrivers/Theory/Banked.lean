import HardwareDrivers.Theory.Programs

/-!
# Banked registers

A machine with a bank of registers for each channel and one selector: a program
selects a channel, and then reads and writes reach the bank of the channel that was
selected last, by whichever program. What a bank does at an access is a parameter, so
a bank can also show values that were never written, and change as it is read.

Two programs are each meant for a channel of their own. A program is *in a section*
while its next command is an access: it counts on the selector. Another program that
selects then *cuts in*.

## What is proved

* `eval_bankExec` — a program that selects before it accesses, by itself, does to its
  bank what it does to the bank alone.
* `ownAccess_and_sequential_iff` — of two programs that share the machine and run to
  the end, every access reached the program's own bank, and the outcome is that of one
  program after the other, exactly if neither cut into a section of the other.
-/

namespace HardwareDrivers.Theory

variable {ι ρ ν σ α : Type}

/-- The commands. -/
inductive BankCmd (ι ρ ν : Type) where
  /-- Select a channel. -/
  | select (i : ι)
  /-- Write a register of the selected channel. -/
  | write (r : ρ) (v : ν)
  /-- Read a register of the selected channel. -/
  | read (r : ρ)

/-- The answers. -/
def BankCmd.Ans : BankCmd ι ρ ν → Type
  | .read _ => ν
  | _ => Unit

/-- An access to a register, and not a selection. -/
def BankCmd.IsAccess : BankCmd ι ρ ν → Prop
  | .select _ => False
  | _ => True

instance : DecidablePred (BankCmd.IsAccess (ι := ι) (ρ := ρ) (ν := ν))
  | .select _ => isFalse id
  | .write _ _ => isTrue trivial
  | .read _ => isTrue trivial

/-- A selection, if at all, of channel `i`. -/
def BankCmd.Selects (i : ι) : BankCmd ι ρ ν → Prop
  | .select j => j = i
  | _ => True

/-- What a bank does. -/
structure BankHw (ρ ν σ : Type) where
  /-- The bank after a write. -/
  write : ρ → ν → σ → σ
  /-- The value that a read gives, and the bank after it. -/
  read : ρ → σ → ν × σ

/-- The machine: the channel selected, and the banks. -/
structure Banked (ι σ : Type) where
  /-- The channel selected. -/
  sel : ι
  /-- The banks. -/
  bank : ι → σ

abbrev BankProg (ι ρ ν α : Type) := Prog (BankCmd ι ρ ν) BankCmd.Ans α

/-- What a command does to a bank that is always selected. -/
def soloExec (hw : BankHw ρ ν σ) : (c : BankCmd ι ρ ν) → σ → c.Ans × σ
  | .select _, st => ((), st)
  | .write r v, st => ((), hw.write r v st)
  | .read r, st => hw.read r st

/-- What a command does to the machine. -/
def bankExec [DecidableEq ι] (hw : BankHw ρ ν σ) : (c : BankCmd ι ρ ν) → Banked ι σ → c.Ans × Banked ι σ
  | .select i, s => ((), { s with sel := i })
  | .write r v, s =>
    ((), { s with bank := Function.update s.bank s.sel (hw.write r v (s.bank s.sel)) })
  | .read r, s =>
    ((hw.read r (s.bank s.sel)).1,
      { s with bank := Function.update s.bank s.sel (hw.read r (s.bank s.sel)).2 })

/-- The program counts on the selector. -/
def Prog.InSection (p : BankProg ι ρ ν α) : Prop := ∃ c ∈ p.nextCmd, c.IsAccess

instance (p : BankProg ι ρ ν α) : Decidable p.InSection :=
  inferInstanceAs (Decidable (∃ c ∈ p.nextCmd, c.IsAccess))

/-- Whether the program selects, on a bank in the given state. -/
def Prog.selects (hw : BankHw ρ ν σ) : BankProg ι ρ ν α → σ → Bool
  | .done _, _ => false
  | .cmd (.select _) _, _ => true
  | .cmd (.write r v) next, st => (next ()).selects hw (hw.write r v st)
  | .cmd (.read r) next, st => (next (hw.read r st).1).selects hw (hw.read r st).2

/-! ### One program -/

theorem inSection_cmd {c : BankCmd ι ρ ν} {next : c.Ans → BankProg ι ρ ν α} :
    Prog.InSection (.cmd c next) ↔ c.IsAccess := by
  simp [Prog.InSection, Prog.nextCmd]

theorem not_inSection_done {a : α} : ¬ Prog.InSection (.done a : BankProg ι ρ ν α) := by
  simp [Prog.InSection, Prog.nextCmd]

/-- A program followed by another is in a section if the first is, or is done and the second is. -/
theorem inSection_bind {β : Type} {p : BankProg ι ρ ν α} {f : α → BankProg ι ρ ν β} :
    (p >>= f).InSection ↔ p.InSection ∨ ∃ a, p = .done a ∧ (f a).InSection := by
  cases p with
  | done a => simp [not_inSection_done]
  | cmd c next => simp [inSection_cmd]

/-- On its own channel, a command does to the machine what it does to the bank. -/
theorem bankExec_eq [DecidableEq ι] (hw : BankHw ρ ν σ) {i : ι} {c : BankCmd ι ρ ν} {s : Banked ι σ}
    (hc : c.Selects i) (hs : c.IsAccess → s.sel = i) :
    (bankExec hw c s).1 = (soloExec hw c (s.bank i)).1 ∧
      (bankExec hw c s).2.bank = Function.update s.bank i (soloExec hw c (s.bank i)).2 ∧
      (¬ c.IsAccess → (bankExec hw c s).2.sel = i) ∧
      (c.IsAccess → (bankExec hw c s).2.sel = s.sel) := by
  cases c with
  | select j => exact ⟨rfl, (Function.update_eq_self ..).symm, fun _ => hc, fun h => h.elim⟩
  | write r v =>
    have hi : s.sel = i := hs trivial
    subst hi
    exact ⟨rfl, rfl, fun h => (h trivial).elim, fun _ => rfl⟩
  | read r =>
    have hi : s.sel = i := hs trivial
    subst hi
    exact ⟨rfl, rfl, fun h => (h trivial).elim, fun _ => rfl⟩

theorem selects_of_access {hw : BankHw ρ ν σ} {c : BankCmd ι ρ ν} {next : c.Ans → BankProg ι ρ ν α}
    {st : σ} (hc : c.IsAccess) :
    Prog.selects hw (.cmd c next) st =
      (next (soloExec hw c st).1).selects hw (soloExec hw c st).2 := by
  cases c with
  | select j => exact hc.elim
  | write r v => rfl
  | read r => rfl

theorem selects_of_not_access {hw : BankHw ρ ν σ} {c : BankCmd ι ρ ν}
    {next : c.Ans → BankProg ι ρ ν α} {st : σ} (hc : ¬ c.IsAccess) :
    Prog.selects hw (.cmd c next) st = true := by
  cases c with
  | select j => rfl
  | write r v => exact (hc trivial).elim
  | read r => exact (hc trivial).elim

/-- A program that selects its own channel only, by itself, does to its bank what it does to the
bank alone, and leaves the others as they are. -/
theorem eval_bankExec [DecidableEq ι] (hw : BankHw ρ ν σ) {i : ι} {p : BankProg ι ρ ν α} {s : Banked ι σ}
    (hp : p.All (·.Selects i)) (hs : p.InSection → s.sel = i) :
    p.eval (bankExec hw) s =
      ((p.eval (soloExec hw) (s.bank i)).1,
        ⟨if p.selects hw (s.bank i) then i else s.sel,
          Function.update s.bank i (p.eval (soloExec hw) (s.bank i)).2⟩) := by
  induction p generalizing s with
  | done a => simp [Prog.selects]
  | cmd c next ih =>
    rw [inSection_cmd] at hs
    obtain ⟨hans, hbank, hsel, hkeep⟩ := bankExec_eq hw hp.1 hs
    have hown : (bankExec hw c s).2.bank i = (soloExec hw c (s.bank i)).2 := by
      rw [hbank, Function.update_self]
    have hsel' : (bankExec hw c s).2.sel = i := by
      by_cases hc : c.IsAccess
      · rw [hkeep hc, hs hc]
      · exact hsel hc
    rw [Prog.eval_cmd, hans, ih _ (hp.2 _) (fun _ => hsel'), hown, hbank, Function.update_idem,
      hsel', Prog.eval_cmd, ite_self]
    by_cases hc : c.IsAccess
    · rw [hs hc, ite_self]
    · rw [selects_of_not_access hc, if_pos rfl]

/-! ### Two programs -/

section Pair

variable [DecidableEq ι] {hw : BankHw ρ ν σ} {chan : Bool → ι}

/-- Two programs that share the machine. -/
abbrev BankPair (ι ρ ν σ α : Type) := Shared Bool (BankCmd ι ρ ν) BankCmd.Ans α (Banked ι σ)

/-- If program `i` accesses a register now, then that of its own channel: it gets the value that
its own bank shows, and its own bank takes what is written. -/
def OwnAccess (hw : BankHw ρ ν σ) (chan : Bool → ι) (s : BankPair ι ρ ν σ α) (i : Bool) : Prop :=
  ∀ c next, s.progs i = .cmd c next → c.IsAccess →
    s.state.sel = chan i ∧
      (bankExec hw c s.state).1 = (soloExec hw c (s.state.bank (chan i))).1 ∧
      (bankExec hw c s.state).2.bank =
        Function.update s.state.bank (chan i) (soloExec hw c (s.state.bank (chan i))).2

/-- Program `i` selects while the other one counts on the selector. -/
def CutsIn (s : BankPair ι ρ ν σ α) (i : Bool) : Prop :=
  ¬ (s.progs i).InSection ∧ (s.progs !i).InSection

instance (s : BankPair ι ρ ν σ α) (i : Bool) : Decidable (CutsIn s i) :=
  inferInstanceAs (Decidable (_ ∧ _))

/-- One program after the other, `first` being the first. -/
def sequential (hw : BankHw ρ ν σ) (s : BankPair ι ρ ν σ α) (first : Bool) :
    BankPair ι ρ ν σ α :=
  let r := (s.progs first).eval (bankExec hw) s.state
  let r' := (s.progs !first).eval (bankExec hw) r.2
  ⟨r'.2, fun i => .done (if i = first then r.1 else r'.1)⟩

/-- It is what one of the orders of turns gives. -/
theorem run_sequential (s : BankPair ι ρ ν σ α) (first : Bool) :
    ∃ sched, run (Shared.step (bankExec hw)) s sched = some (sequential hw s first) :=
  Shared.run_both (bankExec hw) s first

/-- While neither cuts in, each program has done to its own bank what it would have done to it
alone, and the one that selected last has its channel selected. -/
structure OnOwnBanks (hw : BankHw ρ ν σ) (chan : Bool → ι) (s₀ s : BankPair ι ρ ν σ α) : Prop where
  /-- The programs select their own channels only. -/
  only : ∀ i, (s.progs i).All (·.Selects (chan i))
  /-- What a program counts on holds. -/
  counts : ∀ i, (s.progs i).InSection → s.state.sel = chan i
  /-- What each program comes to on its own bank. -/
  solo : ∀ i, (s.progs i).eval (soloExec hw) (s.state.bank (chan i)) =
    (s₀.progs i).eval (soloExec hw) (s₀.state.bank (chan i))
  /-- The other banks. -/
  others : ∀ c, (∀ i, c ≠ chan i) → s.state.bank c = s₀.state.bank c
  /-- A program that selects later is one that selects. -/
  selects : ∀ i, (s.progs i).selects hw (s.state.bank (chan i)) = true →
    (s₀.progs i).selects hw (s₀.state.bank (chan i)) = true
  /-- Somebody was the last to select, or nobody did. -/
  sel : (∃ i, s.state.sel = chan i ∧ (s₀.progs i).selects hw (s₀.state.bank (chan i)) = true) ∨
    s.state.sel = s₀.state.sel ∧ ∀ i, (s₀.progs i).selects hw (s₀.state.bank (chan i)) = true →
      (s.progs i).selects hw (s.state.bank (chan i)) = true

variable {s₀ s t : BankPair ι ρ ν σ α} {i : Bool}

omit [DecidableEq ι] in
theorem onOwnBanks_start (honly : ∀ i, (s.progs i).All (·.Selects (chan i)))
    (hstart : ∀ i, ¬ (s.progs i).InSection) : OnOwnBanks hw chan s s :=
  ⟨honly, fun i h => absurd h (hstart i), fun _ => rfl, fun _ _ => rfl, fun _ h => h,
    .inr ⟨rfl, fun _ h => h⟩⟩

theorem OnOwnBanks.ownAccess (h : OnOwnBanks hw chan s₀ s) (i : Bool) : OwnAccess hw chan s i := by
  intro c next hp hc
  have hsel : s.state.sel = chan i := h.counts i (hp ▸ inSection_cmd.mpr hc)
  have honly := h.only i
  rw [hp] at honly
  obtain ⟨hans, hbank, -, -⟩ := bankExec_eq hw honly.1 fun _ => hsel
  exact ⟨hsel, hans, hbank⟩

theorem OnOwnBanks.step (hchan : Function.Injective chan) (h : OnOwnBanks hw chan s₀ s)
    (hcut : ¬ CutsIn s i) (ht : Shared.step (bankExec hw) s i = some t) :
    OnOwnBanks hw chan s₀ t := by
  obtain ⟨c, next, hp, hst, hpi, hpj⟩ := Shared.step_cases ht
  have honly := h.only i
  have hsolo := h.solo i
  have hsel₀ := h.selects i
  rw [hp] at honly hsolo hsel₀
  have hcounts : c.IsAccess → s.state.sel = chan i :=
    fun hc => h.counts i (hp ▸ inSection_cmd.mpr hc)
  obtain ⟨hans, hbank, hsel, hkeep⟩ := bankExec_eq hw honly.1 hcounts
  rw [hans] at hpi
  rw [← hst] at hbank hsel hkeep
  have hself : t.state.bank (chan i) = (soloExec hw c (s.state.bank (chan i))).2 := by
    rw [hbank, Function.update_self]
  have hother : ∀ b, b ≠ chan i → t.state.bank b = s.state.bank b := by
    intro b hb
    rw [hbank, Function.update_of_ne hb]
  have hsel' : t.state.sel = chan i := by
    by_cases hc : c.IsAccess
    · rw [hkeep hc, hcounts hc]
    · exact hsel hc
  -- the other program does not count on the selector, or else this one does not select
  have hquiet : ∀ j, j ≠ i → (s.progs j).InSection → s.state.sel = chan i := by
    intro j hj hin
    by_cases hc : c.IsAccess
    · exact hcounts hc
    · rw [Bool.eq_not_of_ne hj] at hin
      exact absurd ⟨fun hi => hc (inSection_cmd.mp (hp ▸ hi)), hin⟩ hcut
  have hselects : c.IsAccess → ∀ j, (t.progs j).selects hw (t.state.bank (chan j)) =
      (s.progs j).selects hw (s.state.bank (chan j)) := by
    intro hc j
    by_cases hj : j = i
    · rw [hj, hpi, hself, hp, selects_of_access hc]
    · rw [hpj j hj, hother _ fun e => hj (hchan e)]
  refine ⟨fun j => ?_, fun j hin => ?_, fun j => ?_, fun b hb => ?_, fun j hj' => ?_, ?_⟩
  · by_cases hj : j = i
    · rw [hj, hpi]
      exact honly.2 _
    · rw [hpj j hj]
      exact h.only j
  · by_cases hj : j = i
    · rw [hj, hsel']
    · rw [hpj j hj] at hin
      exact absurd (hchan ((h.counts j hin).symm.trans (hquiet j hj hin))) hj
  · by_cases hj : j = i
    · rw [hj, hpi, hself]
      exact hsolo
    · rw [hpj j hj, hother _ fun e => hj (hchan e)]
      exact h.solo j
  · exact (hother b (hb i)).trans (h.others b hb)
  · by_cases hj : j = i
    · by_cases hc : c.IsAccess
      · exact h.selects j (hselects hc j ▸ hj')
      · rw [hj]
        exact hsel₀ (selects_of_not_access hc)
    · rw [hpj j hj, hother _ fun e => hj (hchan e)] at hj'
      exact h.selects j hj'
  · by_cases hc : c.IsAccess
    · rw [hkeep hc]
      simp only [hselects hc]
      exact h.sel
    · exact .inl ⟨i, hsel', hsel₀ (selects_of_not_access hc)⟩

/-- What each program comes to on its own bank alone. -/
def soloResult (hw : BankHw ρ ν σ) (chan : Bool → ι) (s : BankPair ι ρ ν σ α) (i : Bool) : α × σ :=
  (s.progs i).eval (soloExec hw) (s.state.bank (chan i))

/-- Programs that select before they access, one after the other. -/
theorem sequential_eq (hchan : Function.Injective chan)
    (honly : ∀ i, (s.progs i).All (·.Selects (chan i))) (hstart : ∀ i, ¬ (s.progs i).InSection)
    (first : Bool) : sequential hw s first =
      ⟨⟨if (s.progs !first).selects hw (s.state.bank (chan !first)) then chan !first
          else if (s.progs first).selects hw (s.state.bank (chan first)) then chan first
          else s.state.sel,
        Function.update (Function.update s.state.bank (chan first) (soloResult hw chan s first).2)
          (chan !first) (soloResult hw chan s !first).2⟩,
        fun i => .done (soloResult hw chan s i).1⟩ := by
  have hne : chan (!first) ≠ chan first := fun e => by simpa using hchan e
  have hfirst := eval_bankExec hw (s := s.state) (honly first) fun h =>
    absurd h (hstart first)
  unfold sequential
  rw [hfirst]
  dsimp only
  rw [eval_bankExec hw (honly !first) fun h => absurd h (hstart !first)]
  simp only [Function.update_of_ne hne, Shared.mk.injEq]
  refine ⟨rfl, funext fun i => ?_⟩
  by_cases hi : i = first
  · rw [if_pos hi, hi]
    rfl
  · rw [if_neg hi, Bool.eq_not_of_ne hi]
    rfl

/-- What neither cuts into ends as one program after the other does. -/
theorem OnOwnBanks.finished (hchan : Function.Injective chan)
    (honly : ∀ i, (s₀.progs i).All (·.Selects (chan i)))
    (hstart : ∀ i, ¬ (s₀.progs i).InSection) (h : OnOwnBanks hw chan s₀ t) (hfin : t.Finished) :
    ∃ first, t = sequential hw s₀ first := by
  have hdone : ∀ i, t.progs i = .done (soloResult hw chan s₀ i).1 ∧
      t.state.bank (chan i) = (soloResult hw chan s₀ i).2 := by
    intro i
    obtain ⟨a, ha⟩ := hfin i
    have hsolo := h.solo i
    rw [ha, Prog.eval_done] at hsolo
    rw [soloResult, ← hsolo, ha]
    exact ⟨rfl, rfl⟩
  -- the program that selected last goes second
  obtain ⟨last, hlast⟩ : ∃ last : Bool, t.state.sel =
      if (s₀.progs last).selects hw (s₀.state.bank (chan last)) then chan last
      else if (s₀.progs !last).selects hw (s₀.state.bank (chan !last)) then chan !last
      else s₀.state.sel := by
    obtain ⟨i, hi, hi'⟩ | ⟨hs, hall⟩ := h.sel
    · exact ⟨i, by rw [if_pos hi', hi]⟩
    · have hnone : ∀ i, ¬ (s₀.progs i).selects hw (s₀.state.bank (chan i)) = true := by
        intro i hi
        have := hall i hi
        rw [(hdone i).1] at this
        cases this
      exact ⟨false, by rw [if_neg (hnone _), if_neg (hnone _), hs]⟩
  refine ⟨!last, ?_⟩
  rw [sequential_eq hchan honly hstart, Bool.not_not, ← hlast]
  have hbank : t.state.bank = Function.update
      (Function.update s₀.state.bank (chan !last) (soloResult hw chan s₀ !last).2) (chan last)
      (soloResult hw chan s₀ last).2 := by
    funext b
    by_cases hb : b = chan last
    · rw [hb, Function.update_self, (hdone last).2]
    · rw [Function.update_of_ne hb]
      by_cases hb' : b = chan !last
      · rw [hb', Function.update_self, (hdone !last).2]
      · rw [Function.update_of_ne hb']
        refine h.others b fun i => ?_
        by_cases hi : i = last
        · rwa [hi]
        · rwa [Bool.eq_not_of_ne hi]
  rw [← hbank, ← funext fun i => (hdone i).1]

/-- A program that counts on a channel that is not selected never comes to its end, if every
access reaches the program's own bank. -/
theorem not_finished_of_cut (hchan : Function.Injective chan)
    (honly : (s.progs i).All (·.Selects (chan i))) (hin : (s.progs !i).InSection)
    (hsel : s.state.sel = chan i) {sched : List Bool}
    (hown : Along (Shared.step (bankExec hw)) (OwnAccess hw chan) s sched)
    (ht : run (Shared.step (bankExec hw)) s sched = some t) : ¬ t.Finished := by
  induction sched generalizing s with
  | nil =>
    cases ht
    intro hfin
    obtain ⟨a, ha⟩ := hfin !i
    rw [ha] at hin
    exact not_inSection_done hin
  | cons j sched ih =>
    obtain ⟨u, hu, hut⟩ := run_cons_eq_some.mp ht
    obtain ⟨hj, hrest⟩ := hown u hu
    obtain ⟨c, next, hp, hst, hpi, hpj⟩ := Shared.step_cases hu
    by_cases hji : j = i
    · subst hji
      rw [hp] at honly
      obtain ⟨hans, hbank, hsel', hkeep⟩ := bankExec_eq hw honly.1 fun _ => hsel
      refine ih ?_ ?_ ?_ hrest hut
      · rw [hpi]
        exact honly.2 _
      · rwa [hpj _ (by simp)]
      · rw [hst]
        by_cases hc : c.IsAccess
        · rw [hkeep hc, hsel]
        · exact hsel' hc
    · rw [Bool.eq_not_of_ne hji] at hp hj
      rw [hp, inSection_cmd] at hin
      have hbad : chan i = chan !i := hsel.symm.trans (hj c next hp hin).1
      simpa using hchan hbad

/-- If every access reaches the program's own bank up to the end, neither program cut in. -/
theorem not_cutsIn_of_ownAccess (hchan : Function.Injective chan)
    (honly : ∀ i, (s.progs i).All (·.Selects (chan i))) {sched : List Bool}
    (ht : run (Shared.step (bankExec hw)) s sched = some t) (hfin : t.Finished)
    (hown : Along (Shared.step (bankExec hw)) (OwnAccess hw chan) s sched) :
    Along (Shared.step (bankExec hw)) (fun u i => ¬ CutsIn u i) s sched := by
  induction sched generalizing s with
  | nil => trivial
  | cons j sched ih =>
    intro v hv
    obtain ⟨u, hu, hut⟩ := run_cons_eq_some.mp ht
    obtain rfl : u = v := Option.some.inj (hu.symm.trans hv)
    obtain ⟨-, hrest⟩ := hown u hu
    obtain ⟨c, next, hp, hst, hpi, hpj⟩ := Shared.step_cases hu
    have hc : (Prog.cmd c next).All (·.Selects (chan j)) := hp ▸ honly j
    have honly' : ∀ k, (u.progs k).All (·.Selects (chan k)) := by
      intro k
      by_cases hk : k = j
      · rw [hk, hpi]
        exact hc.2 _
      · rw [hpj k hk]
        exact honly k
    refine ⟨fun ⟨hjsel, hcut⟩ => ?_, ih honly' hut hrest⟩
    rw [hp, inSection_cmd] at hjsel
    refine not_finished_of_cut hchan (honly' j) ?_ ?_ hrest hut hfin
    · rwa [hpj _ (by simp)]
    · rw [hst]
      exact (bankExec_eq hw hc.1 fun h => absurd h hjsel).2.2.1 hjsel

/-- **Neither cuts in.** Two programs, each of which selects its own channel only, and before it
accesses any, run to the end in some order of turns: then every access reached the program's own
bank and the outcome is that of one program after the other, exactly if neither selected while the
other counted on the selector. -/
theorem ownAccess_and_sequential_iff (hchan : Function.Injective chan)
    (honly : ∀ i, (s.progs i).All (·.Selects (chan i))) (hstart : ∀ i, ¬ (s.progs i).InSection)
    {sched : List Bool} (ht : run (Shared.step (bankExec hw)) s sched = some t)
    (hfin : t.Finished) :
    (Along (Shared.step (bankExec hw)) (OwnAccess hw chan) s sched ∧
        ∃ first, t = sequential hw s first) ↔
      Along (Shared.step (bankExec hw)) (fun u i => ¬ CutsIn u i) s sched := by
  constructor
  · intro ⟨hown, _⟩
    exact not_cutsIn_of_ownAccess hchan honly ht hfin hown
  · intro hcut
    have hstep : ∀ (u : BankPair ι ρ ν σ α) i v, OnOwnBanks hw chan s u → ¬ CutsIn u i →
        Shared.step (bankExec hw) u i = some v → OnOwnBanks hw chan s v :=
      fun u i v hu hc hv => hu.step hchan hc hv
    have hs : OnOwnBanks hw chan s s := onOwnBanks_start honly hstart
    refine ⟨along_of_along hstep (fun u i _ hu _ _ => hu.ownAccess i) hs hcut, ?_⟩
    exact ((always_of_along hstep hs hcut).last ht).finished hchan honly hstart hfin

end Pair

end HardwareDrivers.Theory
