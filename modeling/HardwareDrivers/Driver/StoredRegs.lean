import HardwareDrivers.Driver.ModuleRegs

/-!
# Registers that keep what is written

The plainest device that the programs of a module can run on: a register gives what was written to
it last.

## What is proved

* `eval_regRead`, `eval_regWrite`, `trace_regWrite` — what the two accesses do.
* `foldl_update_of_mem` — what a loop leaves in the registers that it writes to.
-/

namespace HardwareDrivers.Driver

open Theory

universe u v w

/-- The registers, by their offset. -/
abbrev StoredRegs := BitVec 32 → BitVec 32

/-- An access. -/
def storedExec : (c : RegCmd) → StoredRegs → c.Ans × StoredRegs
  | .read32 offset, regs => (regs offset, regs)
  | .write32 offset value, regs => ((), Function.update regs offset value)

variable (m : FpgaModuleInfo) (offset : BitVec 64) (lane value : BitVec 32) (regs : StoredRegs)

@[simp] theorem eval_regRead : (regRead m offset lane).eval storedExec regs =
    (regs (m.offset offset lane), regs) := rfl

@[simp] theorem eval_regWrite : (regWrite m offset lane value).eval storedExec regs =
    ((), Function.update regs (m.offset offset lane) value) := rfl

@[simp] theorem trace_regWrite : (regWrite m offset lane value).trace storedExec regs =
    [.write32 (m.offset offset lane) value] := rfl

/-- What is written does not depend on the order if the keys are different. -/
theorem foldl_update_of_mem {α : Type u} {κ : Type v} {β : Type w} [DecidableEq α] [DecidableEq κ]
    {key : α → κ} (hkey : Function.Injective key) (val : α → β) {l : List α} {a : α} (ha : a ∈ l)
    (f : κ → β) : l.foldl (fun f a => Function.update f (key a) (val a)) f (key a) = val a := by
  induction l using List.reverseRecOn with
  | nil => cases ha
  | append_singleton l b ih =>
    rw [List.foldl_append, List.foldl_cons, List.foldl_nil]
    by_cases hab : a = b
    · rw [hab, Function.update_self]
    · have hmem := (List.mem_append.mp ha).resolve_right fun hb => hab (List.mem_singleton.mp hb)
      rw [Function.update_of_ne (hkey.ne hab), ih hmem]

end HardwareDrivers.Driver
