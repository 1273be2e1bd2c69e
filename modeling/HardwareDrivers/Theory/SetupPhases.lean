import HardwareDrivers.Theory.PartialWrites

/-!
# A setup under way

The writes of a setup are done one by one, and others write to other cells in between. At every moment
a module that is started is set up as one of the setups that were asked for, and a setup whose writes
did not fail ends with the module set up.

## What is proved

* `Going` — what holds at every moment: a started module is set up, and what is left sets it up.
* `Going.begin`, `Going.write`, `Going.fail`, `Going.other` — what can happen to a setup.
-/

namespace HardwareDrivers.Theory.Setup

universe u v

variable {α : Type u} {β : Type v} [DecidableEq α]

/-- How far a setup is, by the writes that are left. -/
inductive Phase (p : Setup α β) (mem : α → β) : List (α × β) → Prop where
  /-- It did not begin. -/
  | ready : Phase p mem p.writes
  /-- The module is stopped. -/
  | stopped (fields : List (α × β)) (hsub : fields ⊆ p.fields) (hstop : mem p.control = p.stop) :
    Phase p mem (fields ++ [(p.control, p.last)])
  /-- It is over. -/
  | ended : Phase p mem []

/-- A module that is started has what one of the setups asked for. -/
def Whole (asked : Setup α β → Prop) (start : β) (control : α) (mem : α → β) : Prop :=
  mem control = start → ∃ q, asked q ∧ q.Done mem

/-- A setup of a module: the writes that are left, and whether one failed. -/
structure Going (asked : Setup α β → Prop) (start : β) (p : Setup α β) (broken : Bool)
    (todo : List (α × β)) (mem : α → β) : Prop where
  /-- How far it is. -/
  phase : p.Phase mem todo
  /-- A module that is started is set up. -/
  whole : Whole asked start p.control mem
  /-- It is one of those that were asked for. -/
  asked : broken = false → asked p
  /-- What is left sets it up. -/
  done : broken = false → p.Done (store mem todo)
  /-- Behind a failure nothing is left. -/
  left : broken = true → todo = []

variable {asked : Setup α β → Prop} {start : β} {p q : Setup α β} {broken : Bool} {todo : List (α × β)}
  {mem : α → β} {w : α × β}

omit [DecidableEq α] in
theorem whole_of_stopped {control : α} {stop : β} (h : mem control = stop) (hne : stop ≠ start) :
    Whole asked start control mem := fun hstart => absurd (h.symm.trans hstart) hne

omit [DecidableEq α] in
/-- What is left is for the module. -/
theorem Phase.mem_cells (h : p.Phase mem todo) (hw : w ∈ todo) : w.1 ∈ p.cells := by
  cases h with
  | ready => exact mem_cells_of_writes hw
  | stopped fields hsub =>
    rcases List.mem_append.mp hw with hw | hw
    · exact List.mem_cons_of_mem _ (List.mem_map_of_mem (hsub hw))
    · cases List.mem_singleton.mp hw
      exact List.mem_cons_self
  | ended => cases hw

/-- It begins, when what was before is over. -/
theorem Going.begin (hgoing : Going asked start p broken [] mem) (hcontrol : q.control = p.control)
    (hq : q.cells.Nodup) (hasked : asked q) : Going asked start q false q.writes mem where
  phase := .ready
  whole := hcontrol ▸ hgoing.whole
  asked _ := hasked
  done _ := done_writes hq mem
  left h := absurd h Bool.false_ne_true

/-- It is refused. -/
theorem Going.refuse (hgoing : Going asked start p broken [] mem) (hcontrol : q.control = p.control) :
    Going asked start q true [] mem where
  phase := .ended
  whole := hcontrol ▸ hgoing.whole
  asked h := by cases h
  done h := by cases h
  left _ := rfl

/-- The next write is done. -/
theorem Going.write (hp : p.cells.Nodup) (hne : p.stop ≠ start)
    (hgoing : Going asked start p broken (w :: todo) mem) :
    Going asked start p broken todo (Function.update mem w.1 w.2) := by
  have hbroken : broken = false := by
    cases broken with
    | false => rfl
    | true => cases hgoing.left rfl
  have hdone : p.Done (store (Function.update mem w.1 w.2) todo) := hgoing.done hbroken
  have hleft : broken = true → todo = [] := fun h => absurd (h.symm.trans hbroken) (by decide)
  suffices hsuff : p.Phase (Function.update mem w.1 w.2) todo ∧
      Whole asked start p.control (Function.update mem w.1 w.2) from
    ⟨hsuff.1, hsuff.2, hgoing.asked, fun _ => hdone, hleft⟩
  generalize hws : w :: todo = ws at hgoing
  cases hgoing.phase with
  | ready =>
    -- the first write stops the module
    cases hws
    have hstop : Function.update mem p.control p.stop p.control = p.stop := Function.update_self ..
    exact ⟨.stopped p.fields (List.Subset.refl _) hstop, whole_of_stopped hstop hne⟩
  | stopped fields hsub hstop =>
    cases fields with
    | cons f fields =>
      cases hws
      have hf : p.control ≠ w.1 := fun heq => (List.nodup_cons.mp hp).1
        (heq ▸ List.mem_map_of_mem (hsub List.mem_cons_self))
      have hstop' : Function.update mem w.1 w.2 p.control = p.stop := by
        rw [Function.update_of_ne hf, hstop]
      exact ⟨.stopped fields (fun g hg => hsub (List.mem_cons_of_mem _ hg)) hstop',
        whole_of_stopped hstop' hne⟩
    | nil =>
      -- the last one may start it
      cases hws
      exact ⟨.ended, fun _ => ⟨p, hgoing.asked hbroken, hdone⟩⟩
  | ended => cases hws

/-- The next write fails. -/
theorem Going.fail (hgoing : Going asked start p broken todo mem) : Going asked start p true [] mem where
  phase := .ended
  whole := hgoing.whole
  asked h := by cases h
  done h := by cases h
  left _ := rfl

/-- What writes leave in a cell depends on what was there. -/
theorem store_congr {mem' : α → β} {a : α} (h : mem' a = mem a) (ws : List (α × β)) :
    store mem' ws a = store mem ws a := by
  induction ws generalizing mem mem' with
  | nil => exact h
  | cons w ws ih =>
    rw [store_cons, store_cons]
    refine ih ?_
    by_cases ha : a = w.1
    · rw [ha, Function.update_self, Function.update_self]
    · rw [Function.update_of_ne ha, Function.update_of_ne ha, h]

/-- Somebody writes elsewhere. -/
theorem Going.other (hgoing : Going asked start p broken todo mem) {mem' : α → β}
    (hasked : ∀ q, asked q → q.cells = p.cells) (hsame : ∀ a ∈ p.cells, mem' a = mem a) : Going asked start p broken todo mem' where
  phase := by
    have hc : mem' p.control = mem p.control := hsame _ List.mem_cons_self
    cases hgoing.phase with
    | ready => exact .ready
    | stopped fields hsub hstop => exact .stopped fields hsub (hc.trans hstop)
    | ended => exact .ended
  whole hstart := by
    obtain ⟨q, hq, hdone⟩ := hgoing.whole ((hsame _ List.mem_cons_self).symm.trans hstart)
    refine ⟨q, hq, hdone.congr fun a ha => hsame a ?_⟩
    rwa [← hasked q hq]
  asked := hgoing.asked
  done h := (hgoing.done h).congr fun a ha => store_congr (hsame a ha) todo
  left := hgoing.left

end HardwareDrivers.Theory.Setup
