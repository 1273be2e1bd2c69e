import HardwareDrivers.Theory.Transition

/-!
# Programs of atomic commands

A program is a tree: it is done and has a result, or it gives an atomic command to a
machine and goes on with the answer. A program can be run by itself, or a family of
programs can share a machine and take turns, command by command, in any order.

## What is proved

* `Prog.eval_bind` — running one program after another.
* `Shared.run_alone`, `Shared.run_both` — a program that takes all the turns does what it does by
  itself; two programs, one after the other.
-/

namespace HardwareDrivers.Theory

universe u v

variable {κ : Type u} {ans : κ → Type} {α β : Type} {S : Type v}

/-- A program over the commands `κ`, where command `c` is answered by an `ans c`. -/
inductive Prog (κ : Type u) (ans : κ → Type) (α : Type) where
  /-- The program is done. -/
  | done (a : α)
  /-- A command, and how to go on. -/
  | cmd (c : κ) (next : ans c → Prog κ ans α)

namespace Prog

/-- One program and then another. -/
def bind (p : Prog κ ans α) (f : α → Prog κ ans β) : Prog κ ans β :=
  match p with
  | done a => f a
  | cmd c next => cmd c fun x => (next x).bind f

instance : Monad (Prog κ ans) where
  pure := done
  bind := bind

@[simp] theorem done_bind (a : α) (f : α → Prog κ ans β) : (done a >>= f) = f a := rfl

@[simp] theorem pure_bind (a : α) (f : α → Prog κ ans β) :
    ((pure a : Prog κ ans α) >>= f) = f a := rfl

@[simp] theorem cmd_bind (c : κ) (next : ans c → Prog κ ans α) (f : α → Prog κ ans β) :
    (cmd c next >>= f) = cmd c fun x => next x >>= f := rfl

theorem bind_done (p : Prog κ ans α) : p >>= done = p := by
  induction p with
  | done a => rfl
  | cmd c next ih => exact congrArg (cmd c) (funext ih)

theorem bind_assoc {γ : Type} (p : Prog κ ans α) (f : α → Prog κ ans β) (g : β → Prog κ ans γ) :
    p >>= f >>= g = p >>= fun a => f a >>= g := by
  induction p with
  | done a => rfl
  | cmd c next ih => exact congrArg (cmd c) (funext ih)

/-! ### A program by itself -/

/-- The result of a program and the state it leaves, on a machine that obeys the commands. -/
def eval (step : (c : κ) → S → ans c × S) : Prog κ ans α → S → α × S
  | done a, s => (a, s)
  | cmd c next, s => (next (step c s).1).eval step (step c s).2

@[simp] theorem eval_done (step : (c : κ) → S → ans c × S) (a : α) (s : S) :
    (done a : Prog κ ans α).eval step s = (a, s) := rfl

@[simp] theorem eval_pure (step : (c : κ) → S → ans c × S) (a : α) (s : S) :
    (pure a : Prog κ ans α).eval step s = (a, s) := rfl

@[simp] theorem eval_cmd (step : (c : κ) → S → ans c × S) (c : κ) (next : ans c → Prog κ ans α)
    (s : S) : (cmd c next).eval step s = (next (step c s).1).eval step (step c s).2 := rfl

/-- One program after another. -/
theorem eval_bind (step : (c : κ) → S → ans c × S) (p : Prog κ ans α) (f : α → Prog κ ans β)
    (s : S) : (p >>= f).eval step s = (f (p.eval step s).1).eval step (p.eval step s).2 := by
  induction p generalizing s with
  | done a => rfl
  | cmd c next ih => exact ih _ _

@[simp] theorem eval_map (step : (c : κ) → S → ans c × S) (f : α → β) (p : Prog κ ans α) (s : S) :
    (f <$> p).eval step s = (f (p.eval step s).1, (p.eval step s).2) :=
  eval_bind step p (fun a => done (f a)) s

/-- The commands that a program gives. -/
def trace (step : (c : κ) → S → ans c × S) : Prog κ ans α → S → List κ
  | done _, _ => []
  | cmd c next, s => c :: (next (step c s).1).trace step (step c s).2

@[simp] theorem trace_done (step : (c : κ) → S → ans c × S) (a : α) (s : S) :
    (done a : Prog κ ans α).trace step s = [] := rfl

@[simp] theorem trace_cmd (step : (c : κ) → S → ans c × S) (c : κ) (next : ans c → Prog κ ans α)
    (s : S) : (cmd c next).trace step s = c :: (next (step c s).1).trace step (step c s).2 := rfl

/-- One program after another. -/
theorem trace_bind (step : (c : κ) → S → ans c × S) (p : Prog κ ans α) (f : α → Prog κ ans β)
    (s : S) : (p >>= f).trace step s =
      p.trace step s ++ (f (p.eval step s).1).trace step (p.eval step s).2 := by
  induction p generalizing s with
  | done a => rfl
  | cmd c next ih => exact congrArg (c :: ·) (ih _ _)

@[simp] theorem trace_map (step : (c : κ) → S → ans c × S) (f : α → β) (p : Prog κ ans α) (s : S) :
    (f <$> p).trace step s = p.trace step s := by
  refine (trace_bind step p (fun a => done (f a)) s).trans ?_
  rw [trace_done, List.append_nil]

/-- The commands that a program gives, with their answers. -/
def transcript (step : (c : κ) → S → ans c × S) : Prog κ ans α → S → List ((c : κ) × ans c)
  | done _, _ => []
  | cmd c next, s => ⟨c, (step c s).1⟩ :: (next (step c s).1).transcript step (step c s).2

@[simp] theorem transcript_done (step : (c : κ) → S → ans c × S) (a : α) (s : S) :
    (done a : Prog κ ans α).transcript step s = [] := rfl

@[simp] theorem transcript_cmd (step : (c : κ) → S → ans c × S) (c : κ) (next : ans c → Prog κ ans α)
    (s : S) : (cmd c next).transcript step s =
      ⟨c, (step c s).1⟩ :: (next (step c s).1).transcript step (step c s).2 := rfl

/-- One program after another. -/
theorem transcript_bind (step : (c : κ) → S → ans c × S) (p : Prog κ ans α) (f : α → Prog κ ans β)
    (s : S) : (p >>= f).transcript step s =
      p.transcript step s ++ (f (p.eval step s).1).transcript step (p.eval step s).2 := by
  induction p generalizing s with
  | done a => rfl
  | cmd c next ih => exact congrArg (_ :: ·) (ih _ _)

@[simp] theorem transcript_map (step : (c : κ) → S → ans c × S) (f : α → β) (p : Prog κ ans α) (s : S) :
    (f <$> p).transcript step s = p.transcript step s := by
  refine (transcript_bind step p (fun a => done (f a)) s).trans ?_
  rw [transcript_done, List.append_nil]

/-! ### The commands of a program -/

/-- Every command the program can come to meets `P`. -/
def All (P : κ → Prop) : Prog κ ans α → Prop
  | done _ => True
  | cmd c next => P c ∧ ∀ x, (next x).All P

theorem All.bind {P : κ → Prop} {p : Prog κ ans α} {f : α → Prog κ ans β} (hp : p.All P)
    (hf : ∀ a, (f a).All P) : (p >>= f).All P := by
  induction p with
  | done a => exact hf a
  | cmd c next ih => exact ⟨hp.1, fun x => ih x (hp.2 x)⟩

/-- The next command of the program, if it is not done. -/
def nextCmd : Prog κ ans α → Option κ
  | done _ => none
  | cmd c _ => some c

end Prog

/-! ### Programs that share a machine -/

variable {ι : Type} [DecidableEq ι]

/-- The state of the machine, and what is left of each program. -/
structure Shared (ι : Type) (κ : Type u) (ans : κ → Type) (α : Type) (S : Type v) where
  /-- The machine. -/
  state : S
  /-- The programs. -/
  progs : ι → Prog κ ans α

namespace Shared

/-- Program `i` gives its next command. -/
def step (exec : (c : κ) → S → ans c × S) (s : Shared ι κ ans α S) (i : ι) :
    Option (Shared ι κ ans α S) :=
  match s.progs i with
  | .done _ => none
  | .cmd c next =>
    some ⟨(exec c s.state).2, Function.update s.progs i (next (exec c s.state).1)⟩

/-- All programs are done. -/
def Finished (s : Shared ι κ ans α S) : Prop := ∀ i, ∃ a, s.progs i = .done a

theorem step_eq_some {exec : (c : κ) → S → ans c × S} {s t : Shared ι κ ans α S} {i : ι} :
    step exec s i = some t ↔ ∃ c next, s.progs i = .cmd c next ∧
      t = ⟨(exec c s.state).2, Function.update s.progs i (next (exec c s.state).1)⟩ := by
  unfold step
  cases hp : s.progs i with
  | done a => simp
  | cmd c next =>
    constructor
    · intro h
      exact ⟨c, next, rfl, (Option.some.inj h).symm⟩
    · intro ⟨c', next', hc, ht⟩
      cases hc
      exact congrArg some ht.symm

/-- What a turn of program `i` does. -/
theorem step_cases {exec : (c : κ) → S → ans c × S} {s t : Shared ι κ ans α S} {i : ι}
    (h : step exec s i = some t) : ∃ c next, s.progs i = .cmd c next ∧
      t.state = (exec c s.state).2 ∧ t.progs i = next (exec c s.state).1 ∧
      ∀ j, j ≠ i → t.progs j = s.progs j := by
  obtain ⟨c, next, hp, rfl⟩ := step_eq_some.mp h
  exact ⟨c, next, hp, rfl, Function.update_self .., fun j hj => Function.update_of_ne hj ..⟩

/-- A program that takes the turns until its first part is done does what that part does by
itself. -/
theorem run_prefix {β : Type} (exec : (c : κ) → S → ans c × S) (s : Shared ι κ ans α S) (i : ι)
    {p : Prog κ ans β} {f : β → Prog κ ans α} (hp : s.progs i = p >>= f) :
    ∃ n, run (step exec) s (List.replicate n i) = some
      ⟨(p.eval exec s.state).2, Function.update s.progs i (f (p.eval exec s.state).1)⟩ := by
  induction p generalizing s with
  | done a =>
    refine ⟨0, ?_⟩
    rw [Prog.eval_done, ← Prog.done_bind a f, ← hp, Function.update_eq_self]
    rfl
  | cmd c next ih =>
    obtain ⟨n, hn⟩ := ih (exec c s.state).1
      ⟨(exec c s.state).2, Function.update s.progs i (next (exec c s.state).1 >>= f)⟩
      (Function.update_self ..)
    refine ⟨n + 1, ?_⟩
    rw [List.replicate_succ, run_cons, step_eq_some.mpr ⟨c, _, hp, rfl⟩, Option.bind_some]
    refine hn.trans ?_
    rw [Function.update_idem]
    rfl

/-- A program that takes all the turns does what it does by itself. -/
theorem run_alone (exec : (c : κ) → S → ans c × S) (s : Shared ι κ ans α S) (i : ι) :
    ∃ n, run (step exec) s (List.replicate n i) = some
      ⟨((s.progs i).eval exec s.state).2,
        Function.update s.progs i (.done ((s.progs i).eval exec s.state).1)⟩ :=
  run_prefix exec s i (Prog.bind_done _).symm

/-- One of two programs, and then the other. -/
theorem run_both (exec : (c : κ) → S → ans c × S) (s : Shared Bool κ ans α S) (first : Bool) :
    ∃ sched, run (step exec) s sched = some
      ⟨((s.progs !first).eval exec ((s.progs first).eval exec s.state).2).2,
        fun i => .done (if i = first then ((s.progs first).eval exec s.state).1
          else ((s.progs !first).eval exec ((s.progs first).eval exec s.state).2).1)⟩ := by
  have hne : (!first) ≠ first := by simp
  obtain ⟨n, hn⟩ := run_alone exec s first
  obtain ⟨m, hm⟩ := run_alone exec
    (⟨_, Function.update s.progs first (.done ((s.progs first).eval exec s.state).1)⟩ :
      Shared Bool κ ans α S) !first
  refine ⟨_, (run_trans hn hm).trans (congrArg some ?_)⟩
  simp only [Function.update_of_ne hne, Shared.mk.injEq, true_and]
  funext i
  by_cases hi : i = first
  · rw [if_pos hi, hi, Function.update_of_ne hne.symm, Function.update_self]
  · rw [if_neg hi, Bool.eq_not_of_ne hi, Function.update_self]

end Shared

end HardwareDrivers.Theory
