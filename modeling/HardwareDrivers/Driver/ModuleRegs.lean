import HardwareDrivers.Theory.Programs
import Mathlib.Data.BitVec

/-!
# The registers of the modules

`reg_read32` and `reg_write32` are the only accesses of the driver to the hardware, each of
them atomic. The functions of a module are programs of them; the lanes of a module follow one
another in the address space.
-/

namespace HardwareDrivers.Driver

open Theory

/-- An access to a register, by its offset in the device. -/
inductive RegCmd where
  /-- `reg_read32`. -/
  | read32 (offset : BitVec 32)
  /-- `reg_write32`. -/
  | write32 (offset value : BitVec 32)
  deriving DecidableEq, Repr

/-- What an access answers. -/
abbrev RegCmd.Ans : RegCmd → Type
  | .read32 _ => BitVec 32
  | .write32 .. => Unit

/-- The register that is read, if the access is a read. -/
def RegCmd.readOffset : RegCmd → Option (BitVec 32)
  | .read32 offset => some offset
  | .write32 .. => none

/-- A program of accesses. -/
abbrev RegProg (α : Type) := Prog RegCmd RegCmd.Ans α

/-- `base` and `len` of `fpga_module_info_t`. -/
structure FpgaModuleInfo where
  /-- `base`. -/
  base : BitVec 64
  /-- `len`, of a lane. -/
  len : BitVec 32
  deriving DecidableEq, Repr

/-- The offset of a register of a lane: the sum has 64 bits, the argument of `reg_read32` has 32. -/
def FpgaModuleInfo.offset (m : FpgaModuleInfo) (offset : BitVec 64) (lane : BitVec 32) : BitVec 32 :=
  (m.base + (m.len * lane).setWidth 64 + offset).setWidth 32

/-- `__reg_read`. -/
def regRead (m : FpgaModuleInfo) (offset : BitVec 64) (lane : BitVec 32) : RegProg (BitVec 32) :=
  .cmd (.read32 (m.offset offset lane)) .done

/-- `__reg_write`. -/
def regWrite (m : FpgaModuleInfo) (offset : BitVec 64) (lane value : BitVec 32) : RegProg Unit :=
  .cmd (.write32 (m.offset offset lane) value) .done

/-- Registers of one lane are one only if their offsets agree in 32 bits. -/
theorem FpgaModuleInfo.offset_inj {m : FpgaModuleInfo} {x y : BitVec 64} {lane : BitVec 32} :
    m.offset x lane = m.offset y lane ↔ x.setWidth 32 = y.setWidth 32 := by
  simp only [FpgaModuleInfo.offset, BitVec.setWidth_add _ _ (by decide : 32 ≤ 64)]
  exact BitVec.add_right_inj _

/-- An offset that fits in 32 bits is the sum. -/
theorem FpgaModuleInfo.toNat_offset {m : FpgaModuleInfo} {x : BitVec 64} {lane : BitVec 32}
    (h : m.base.toNat + m.len.toNat * lane.toNat + x.toNat < 2 ^ 32) :
    (m.offset x lane).toNat = m.base.toNat + m.len.toNat * lane.toNat + x.toNat := by
  have hmul : (m.len * lane).toNat = m.len.toNat * lane.toNat := by
    rw [BitVec.toNat_mul, Nat.mod_eq_of_lt (by omega)]
  rw [FpgaModuleInfo.offset, BitVec.toNat_setWidth, BitVec.toNat_add, BitVec.toNat_add,
    BitVec.toNat_setWidth, hmul]
  omega

end HardwareDrivers.Driver
