import HardwareDrivers.Driver.SetIoctls
import HardwareDrivers.Driver.StoredRegs

/-!
# What is set in the error registers is what is got

Every setting of a fault writes one register, and the GET ioctl of the same fault reads that register
and takes the fields out of it again. The registers are named here by what selects them, so that a
setting and a getting are about one fault exactly if they have one name.

## What is proved

* `ErrReg.decode_encode` — the fields that are put into a register are taken out of it.
* `ErrReg.offset_inj` — no two registers of the lanes have one offset.
* `errRegisters_right` — round trip, frame and distance of all settings.
-/

namespace HardwareDrivers.Driver

open Theory

/-! ### The registers -/

/-- A register of a lane, by the module, the family, the purpose, and the direction and the interface
if the family has one register for each. -/
inductive ErrReg where
  /-- `XPCIE_FPGA_CHAIN_{INGR_RCV,EGR_SND}_DETECT_FAULT_*`. -/
  | chainErr (view : FaultView) (kind : CidKind) (extif : ExtifNumber)
  /-- `XPCIE_FPGA_CHAIN_INGR_SND_DETECT_FAULT_*`. -/
  | chainErrTableIngr (view : FaultView) (extif : ExtifNumber)
  /-- `XPCIE_FPGA_CHAIN_EGR_RCV_DETECT_FAULT_*`. -/
  | chainErrTableEgr (view : FaultView)
  /-- `XPCIE_FPGA_CHAIN_{INGR_SND,EGR_RCV}_PROTOCOL_FAULT*`. -/
  | chainErrProt (view : FaultView) (kind : CidKind)
  /-- `XPCIE_FPGA_CHAIN_EXTIF*_EVENT_FAULT*`. -/
  | chainErrEvt (view : FaultView) (extif : ExtifNumber)
  /-- `XPCIE_FPGA_CHAIN_STREAMIF_STALL*`. -/
  | chainErrStif (view : FaultView)
  /-- `XPCIE_FPGA_CHAIN_EXTIF*_CMDFAULT_INS`. -/
  | chainErrCmdfault (extif : ExtifNumber)
  /-- `XPCIE_FPGA_DIRECT_*_PROTOCOL_FAULT*`. -/
  | directErrProt (view : FaultView) (kind : DirectKind)
  /-- `XPCIE_FPGA_DIRECT_STREAMIF_STALL*`. -/
  | directErrStif (view : FaultView)
  deriving DecidableEq

namespace ErrReg

/-- Its address in the module. -/
def addr : ErrReg → BitVec 64
  | chainErr view kind extif => chainErrReg view kind extif
  | chainErrTableIngr view extif => chainErrTableIngrReg view extif
  | chainErrTableEgr view => chainErrTableEgrReg view
  | chainErrProt view kind => chainErrProtReg view kind
  | chainErrEvt view extif => chainErrEvtReg view extif
  | chainErrStif view => chainErrStifReg view
  | chainErrCmdfault extif => chainCmdfaultIns extif
  | directErrProt view kind => directErrProtReg view kind
  | directErrStif view => directErrStifReg view

/-- It is in the direct module. -/
def isDirect : ErrReg → Bool
  | directErrProt .. | directErrStif .. => true
  | _ => false

/-- Its module. -/
def moduleInfo (dev : StatModules) (reg : ErrReg) : FpgaModuleInfo :=
  if reg.isDirect then dev.direct else dev.chain

/-- Its offset in the device. -/
def offset (dev : StatModules) (reg : ErrReg) (lane : BitVec 32) : BitVec 32 :=
  (reg.moduleInfo dev).offset reg.addr lane

/-- How many bits its fields have, in the order of the user structure. -/
def widths : ErrReg → List ℕ
  | chainErr .ins .ingress _ => [1, 1, 1]
  | chainErr .ins .egress _ => [1, 1, 1, 1, 8, 1, 1, 1]
  | chainErr .. => [1, 1, 1, 1, 8, 1, 1, 1, 1]
  | chainErrTableIngr .. | chainErrTableEgr _ => [1, 1]
  | chainErrProt .. | directErrProt .. => List.replicate 11 1
  | chainErrEvt .. => List.replicate 10 1
  | chainErrStif _ => [1, 1, 1, 1, 1, 1, 2, 2]
  | chainErrCmdfault _ => [1, 16]
  | directErrStif _ => List.replicate 12 1

/-- Where the fields are. -/
def layout : ErrReg → List (BitField 32)
  | chainErr .ins kind _ => chainErrInsLayout kind
  | chainErr .. => chainErrLayout
  | chainErrTableIngr .. | chainErrTableEgr _ => chainErrTableLayout
  | chainErrProt .. | directErrProt .. => errProtLayout
  | chainErrEvt .. => chainErrEvtLayout
  | chainErrStif _ => chainErrStifLayout
  | chainErrCmdfault _ => chainErrCmdfaultLayout
  | directErrStif _ => directErrStifLayout

/-- The bits of a field of the user structure. -/
def fieldBits : ErrReg → ℕ
  | chainErrCmdfault _ => 16
  | _ => 8

end ErrReg

/-! ### The settings -/

/-- The register of a fault in the headers, if the selectors select one. -/
def FpgaIoctlChainErr.reg (chainErr : FpgaIoctlChainErr) (view : FaultView) : Option ErrReg :=
  (cidKind chainErr.dir).bind fun kind => (extifNumber chainErr.extifId).map (.chainErr view kind)

/-- The register of a fault in the tables; egress has one for both interfaces. -/
def FpgaIoctlChainErrTable.reg (chainErr : FpgaIoctlChainErrTable) (view : FaultView) :
    Option ErrReg :=
  (cidKind chainErr.dir).bind fun
    | .ingress => (extifNumber chainErr.extifId).map (.chainErrTableIngr view)
    | .egress => some (.chainErrTableEgr view)

/-- The register of a fault in the protocol, of the chain module. -/
def FpgaIoctlErrProt.chainReg (errProt : FpgaIoctlErrProt) (view : FaultView) : Option ErrReg :=
  (cidKind errProt.dir).map (.chainErrProt view)

/-- The register of a fault in the protocol, of the direct module. -/
def FpgaIoctlErrProt.directReg (errProt : FpgaIoctlErrProt) (view : FaultView) : Option ErrReg :=
  (directKind errProt.dir).map (.directErrProt view)

/-- The register of an event. -/
def FpgaIoctlChainErrEvt.reg (errEvt : FpgaIoctlChainErrEvt) (view : FaultView) : Option ErrReg :=
  (extifNumber errEvt.extifId).map (.chainErrEvt view)

/-- The register of a command fault. -/
def FpgaIoctlChainErrCmdfault.reg (cmdfault : FpgaIoctlChainErrCmdfault) : Option ErrReg :=
  (extifNumber cmdfault.extifId).map .chainErrCmdfault

/-- The fields that are inserted in the direction of the structure. -/
def FpgaIoctlChainErr.insFields (chainErr : FpgaIoctlChainErr) : List (BitVec 32) :=
  (cidKind chainErr.dir).elim [] chainErr.insValues

namespace SetCmd

/-- The register that a setting is about, or none if a selector is not valid. -/
def reg : SetCmd → Option ErrReg
  | chainSetErrMask arg => arg.reg .mask
  | chainSetErrForce arg => arg.reg .force
  | chainErrIns arg => arg.reg .ins
  | chainSetErrTblMask arg => arg.reg .mask
  | chainSetErrTblForce arg => arg.reg .force
  | chainSetErrProtMask arg => arg.chainReg .mask
  | chainSetErrProtForce arg => arg.chainReg .force
  | chainErrProtIns arg => arg.chainReg .ins
  | chainSetErrEvtMask arg => arg.reg .mask
  | chainSetErrEvtForce arg => arg.reg .force
  | chainSetErrStifMask _ => some (.chainErrStif .mask)
  | chainSetErrStifForce _ => some (.chainErrStif .force)
  | chainErrCmdfaultIns arg => arg.reg
  | directSetErrProtMask arg => arg.directReg .mask
  | directSetErrProtForce arg => arg.directReg .force
  | directErrProtIns arg => arg.directReg .ins
  | directSetErrStifMask _ => some (.directErrStif .mask)
  | directSetErrStifForce _ => some (.directErrStif .force)

/-- The lane that it is about. -/
def lane : SetCmd → BitVec 32
  | chainSetErrMask arg | chainSetErrForce arg | chainErrIns arg => arg.lane
  | chainSetErrTblMask arg | chainSetErrTblForce arg => arg.lane
  | chainSetErrProtMask arg | chainSetErrProtForce arg | chainErrProtIns arg => arg.lane
  | chainSetErrEvtMask arg | chainSetErrEvtForce arg => arg.lane
  | chainSetErrStifMask arg | chainSetErrStifForce arg => arg.lane
  | chainErrCmdfaultIns arg => arg.lane
  | directSetErrProtMask arg | directSetErrProtForce arg | directErrProtIns arg => arg.lane
  | directSetErrStifMask arg | directSetErrStifForce arg => arg.lane

/-- The fields that it sets. -/
def values : SetCmd → List (BitVec 32)
  | chainSetErrMask arg | chainSetErrForce arg => arg.values
  | chainErrIns arg => arg.insFields
  | chainSetErrTblMask arg | chainSetErrTblForce arg => arg.values
  | chainSetErrProtMask arg | chainSetErrProtForce arg | chainErrProtIns arg => arg.values
  | chainSetErrEvtMask arg | chainSetErrEvtForce arg => arg.values
  | chainSetErrStifMask arg | chainSetErrStifForce arg => arg.values
  | chainErrCmdfaultIns arg => arg.values
  | directSetErrProtMask arg | directSetErrProtForce arg | directErrProtIns arg => arg.values
  | directSetErrStifMask arg | directSetErrStifForce arg => arg.values

/-- All fields fit in the bits that a register has for them. -/
def Fits (set : SetCmd) (reg : ErrReg) : Prop := ∀ p ∈ set.values.zip reg.widths, p.1.toNat < 2 ^ p.2

/-- The command that gets what the setting sets. -/
def get : SetCmd → GetCmd
  | chainSetErrMask arg => .chainGetErrMask arg
  | chainSetErrForce arg => .chainGetErrForce arg
  | chainErrIns arg => .chainErrGetIns arg
  | chainSetErrTblMask arg => .chainGetErrTblMask arg
  | chainSetErrTblForce arg => .chainGetErrTblForce arg
  | chainSetErrProtMask arg => .chainGetErrProtMask arg
  | chainSetErrProtForce arg => .chainGetErrProtForce arg
  | chainErrProtIns arg => .chainErrProtGetIns arg
  | chainSetErrEvtMask arg => .chainGetErrEvtMask arg
  | chainSetErrEvtForce arg => .chainGetErrEvtForce arg
  | chainSetErrStifMask arg => .chainGetErrStifMask arg
  | chainSetErrStifForce arg => .chainGetErrStifForce arg
  | chainErrCmdfaultIns arg => .chainErrCmdfaultGetIns arg
  | directSetErrProtMask arg => .directGetErrProtMask arg
  | directSetErrProtForce arg => .directGetErrProtForce arg
  | directErrProtIns arg => .directErrProtGetIns arg
  | directSetErrStifMask arg => .directGetErrStifMask arg
  | directSetErrStifForce arg => .directGetErrStifForce arg

end SetCmd

namespace GetCmd

/-- The register that a getting of what can be set is about. -/
def errReg : GetCmd → Option ErrReg
  | chainGetErrMask arg => arg.reg .mask
  | chainGetErrForce arg => arg.reg .force
  | chainErrGetIns arg => arg.reg .ins
  | chainGetErrTblMask arg => arg.reg .mask
  | chainGetErrTblForce arg => arg.reg .force
  | chainGetErrProtMask arg => arg.chainReg .mask
  | chainGetErrProtForce arg => arg.chainReg .force
  | chainErrProtGetIns arg => arg.chainReg .ins
  | chainGetErrEvtMask arg => arg.reg .mask
  | chainGetErrEvtForce arg => arg.reg .force
  | chainGetErrStifMask _ => some (.chainErrStif .mask)
  | chainGetErrStifForce _ => some (.chainErrStif .force)
  | chainErrCmdfaultGetIns arg => arg.reg
  | directGetErrProtMask arg => arg.directReg .mask
  | directGetErrProtForce arg => arg.directReg .force
  | directErrProtGetIns arg => arg.directReg .ins
  | directGetErrStifMask _ => some (.directErrStif .mask)
  | directGetErrStifForce _ => some (.directErrStif .force)
  | _ => none

/-- The lane that it is about. -/
def errLane : GetCmd → BitVec 32
  | chainGetErrMask arg | chainGetErrForce arg | chainErrGetIns arg => arg.lane
  | chainGetErrTblMask arg | chainGetErrTblForce arg => arg.lane
  | chainGetErrProtMask arg | chainGetErrProtForce arg | chainErrProtGetIns arg => arg.lane
  | chainGetErrEvtMask arg | chainGetErrEvtForce arg => arg.lane
  | chainGetErrStifMask arg | chainGetErrStifForce arg => arg.lane
  | chainErrCmdfaultGetIns arg => arg.lane
  | directGetErrProtMask arg | directGetErrProtForce arg | directErrProtGetIns arg => arg.lane
  | directGetErrStifMask arg | directGetErrStifForce arg => arg.lane
  | _ => 0

/-- The fields in its user structure. -/
def errValues : GetCmd → List (BitVec 32)
  | chainGetErrMask arg | chainGetErrForce arg => arg.values
  | chainErrGetIns arg => arg.insFields
  | chainGetErrTblMask arg | chainGetErrTblForce arg => arg.values
  | chainGetErrProtMask arg | chainGetErrProtForce arg | chainErrProtGetIns arg => arg.values
  | chainGetErrEvtMask arg | chainGetErrEvtForce arg => arg.values
  | chainGetErrStifMask arg | chainGetErrStifForce arg => arg.values
  | chainErrCmdfaultGetIns arg => arg.values
  | directGetErrProtMask arg | directGetErrProtForce arg | directErrProtGetIns arg => arg.values
  | directGetErrStifMask arg | directGetErrStifForce arg => arg.values
  | _ => []

end GetCmd

/-! ### The value of a register -/

/-- `SoundLayout k layout`: the fields are in different places of the register, and each is read into
`k` bits. -/
def SoundLayout (k : ℕ) (layout : List (BitField 32)) : Prop :=
  (∀ b ∈ layout, b.Whole ∧ b.mask.toNat < 2 ^ k) ∧ layout.Pairwise BitField.Disjoint

instance (k : ℕ) (layout : List (BitField 32)) : Decidable (SoundLayout k layout) :=
  inferInstanceAs (Decidable (_ ∧ _))

/-- The fields of a register, each read into `k` bits. -/
def readFields (k : ℕ) (layout : List (BitField 32)) (x : BitVec 32) : List (BitVec 32) :=
  layout.map fun b => ((b.read x).setWidth k).setWidth 32

namespace ErrReg

/-- What is written for the fields. -/
def encode (reg : ErrReg) (values : List (BitVec 32)) : BitVec 32 :=
  match reg with
  | chainErrStif _ => packed reg.layout (values ++ values.drop 6)
  | _ => packed reg.layout values

/-- What is got for the fields. -/
def decode (reg : ErrReg) (x : BitVec 32) : List (BitVec 32) :=
  let fields := readFields reg.fieldBits reg.layout x
  match reg with
  | chainErrStif _ => fields.take 6 ++ List.zipWith (· ||| ·) ((fields.drop 6).take 2) (fields.drop 8)
  | _ => fields

theorem soundLayout (reg : ErrReg) : SoundLayout reg.fieldBits reg.layout := by
  have hchainErr : SoundLayout 8 chainErrLayout := by decide
  have hins : SoundLayout 8 (chainErrInsLayout .ingress) ∧ SoundLayout 8 (chainErrInsLayout .egress) := by
    decide
  have htable : SoundLayout 8 chainErrTableLayout := by decide
  have hprot : SoundLayout 8 errProtLayout := by decide
  have hevt : SoundLayout 8 chainErrEvtLayout := by decide
  have hstif : SoundLayout 8 chainErrStifLayout := by decide
  have hcmdfault : SoundLayout 16 chainErrCmdfaultLayout := by decide
  have hdirect : SoundLayout 8 directErrStifLayout := by decide
  cases reg with
  | chainErr view kind =>
    cases view with
    | value | mask | force => exact hchainErr
    | ins => cases kind with
      | ingress => exact hins.1
      | egress => exact hins.2
  | chainErrTableIngr | chainErrTableEgr => exact htable
  | chainErrProt | directErrProt => exact hprot
  | chainErrEvt => exact hevt
  | chainErrStif => exact hstif
  | chainErrCmdfault => exact hcmdfault
  | directErrStif => exact hdirect

end ErrReg

theorem setWidth_setWidth_of_lt {k : ℕ} {v : BitVec 32} (h : v.toNat < 2 ^ k) :
    (v.setWidth k).setWidth 32 = v := by
  apply BitVec.eq_of_toNat_eq
  rw [BitVec.toNat_setWidth, BitVec.toNat_setWidth, Nat.mod_eq_of_lt h, Nat.mod_eq_of_lt v.isLt]

/-- The fields are read as what the masks keep. -/
theorem readFields_packed {k : ℕ} {layout : List (BitField 32)} {values : List (BitVec 32)}
    (hsound : SoundLayout k layout) (hlen : values.length = layout.length) :
    readFields k layout (packed layout values) =
      List.zipWith (fun v b => v &&& b.mask) values layout := by
  rw [← map_read_packFields (fun b hb => (hsound.1 b hb).1) hsound.2 hlen]
  refine List.map_congr_left fun b hb => setWidth_setWidth_of_lt ?_
  exact (BitField.toNat_read_le (hsound.1 b hb).1).trans_lt (hsound.1 b hb).2

namespace ErrReg

variable {reg : ErrReg} {values : List (BitVec 32)}

/-- Values that fit are read as they are, in a register with one place for each field. -/
theorem readFields_packed_fits (hfit : List.Forall₂ (fun v w => v.toNat < 2 ^ w) values reg.widths)
    (hmask : reg.layout.map BitField.mask = reg.widths.map ones) :
    readFields reg.fieldBits reg.layout (packed reg.layout values) = values := by
  have hlen : reg.layout.length = reg.widths.length := by
    rw [← List.length_map, hmask, List.length_map]
  rw [readFields_packed reg.soundLayout (hfit.length_eq.trans hlen.symm), zipWith_mask hfit hmask]

/-- The two bits of a field that has two places. -/
theorem and_one_or_and_two {v : BitVec 32} (h : v.toNat < 2 ^ 2) : v &&& 1 ||| v &&& 2 = v := by
  rw [← BitVec.and_or_distrib_left]
  exact and_ones h

theorem decode_encode_stif {view : FaultView}
    (hfit : List.Forall₂ (fun v w => v.toNat < 2 ^ w) values (chainErrStif view).widths) :
    (chainErrStif view).decode ((chainErrStif view).encode values) = values := by
  obtain _ | ⟨h0, _ | ⟨h1, _ | ⟨h2, _ | ⟨h3, _ | ⟨h4, _ | ⟨h5, _ | ⟨h6, _ | ⟨h7, ⟨⟩⟩⟩⟩⟩⟩⟩⟩⟩ := hfit
  rw [decode, encode, readFields_packed (chainErrStif view).soundLayout rfl]
  refine congrArg₂ List.cons (and_ones h0) ?_
  refine congrArg₂ List.cons (and_ones h1) ?_
  refine congrArg₂ List.cons (and_ones h2) ?_
  refine congrArg₂ List.cons (and_ones h3) ?_
  refine congrArg₂ List.cons (and_ones h4) ?_
  refine congrArg₂ List.cons (and_ones h5) ?_
  exact congrArg₂ List.cons (and_one_or_and_two h6) (congrArg₂ List.cons (and_one_or_and_two h7) rfl)

/-- **What is put into a register is taken out of it.** -/
theorem decode_encode (hfit : List.Forall₂ (fun v w => v.toNat < 2 ^ w) values reg.widths) :
    reg.decode (reg.encode values) = values := by
  cases reg with
  | chainErrStif => exact decode_encode_stif hfit
  | chainErr view kind =>
    cases view with
    | value | mask | force => exact readFields_packed_fits hfit rfl
    | ins => cases kind with
      | ingress | egress => exact readFields_packed_fits hfit rfl
  | _ => exact readFields_packed_fits hfit rfl

end ErrReg

/-! ### What the selectors select -/

section Selectors

variable {view : FaultView} {reg : ErrReg}

theorem FpgaIoctlChainErr.reg_eq_some {arg : FpgaIoctlChainErr} (h : arg.reg view = some reg) :
    ∃ kind extif, cidKind arg.dir = some kind ∧ extifNumber arg.extifId = some extif ∧
      .chainErr view kind extif = reg := by
  obtain ⟨kind, hkind, h⟩ := Option.bind_eq_some_iff.mp h
  obtain ⟨extif, hextif, h⟩ := Option.map_eq_some_iff.mp h
  exact ⟨kind, extif, hkind, hextif, h⟩

theorem FpgaIoctlChainErrTable.reg_eq_some {arg : FpgaIoctlChainErrTable}
    (h : arg.reg view = some reg) :
    (∃ extif, cidKind arg.dir = some .ingress ∧ extifNumber arg.extifId = some extif ∧
        .chainErrTableIngr view extif = reg) ∨
      cidKind arg.dir = some .egress ∧ .chainErrTableEgr view = reg := by
  obtain ⟨kind, hkind, h⟩ := Option.bind_eq_some_iff.mp h
  cases kind with
  | ingress =>
    obtain ⟨extif, hextif, h⟩ := Option.map_eq_some_iff.mp h
    exact .inl ⟨extif, hkind, hextif, h⟩
  | egress => exact .inr ⟨hkind, Option.some.inj h⟩

end Selectors

/-! ### What the settings write -/

section Set

variable {dev : StatModules} {view : FaultView} {reg : ErrReg}

theorem writeChainErr_eq {arg : FpgaIoctlChainErr} (h : arg.reg view = some reg)
    (value : BitVec 32) : writeChainErr dev.chain view arg value =
      regWrite (reg.moduleInfo dev) reg.addr arg.lane value := by
  obtain ⟨kind, extif, hkind, hextif, rfl⟩ := FpgaIoctlChainErr.reg_eq_some h
  simp only [writeChainErr, hkind, hextif]
  rfl

/-- Masks and forces of faults in the headers. -/
theorem setChainErr_eq {arg : FpgaIoctlChainErr} (hview : view ≠ .ins)
    (h : arg.reg view = some reg) :
    writeChainErr dev.chain view arg (packed chainErrLayout arg.values) =
      regWrite (reg.moduleInfo dev) reg.addr arg.lane (reg.encode arg.values) := by
  rw [writeChainErr_eq h]
  obtain ⟨kind, extif, -, -, rfl⟩ := FpgaIoctlChainErr.reg_eq_some h
  cases view with
  | ins => exact absurd rfl hview
  | value | mask | force => rfl

theorem insChainErr_eq {arg : FpgaIoctlChainErr} (h : arg.reg .ins = some reg) :
    xpcieFpgaInsChainErr dev.chain arg =
      regWrite (reg.moduleInfo dev) reg.addr arg.lane (reg.encode arg.insFields) := by
  obtain ⟨kind, extif, hkind, -, hreg⟩ := FpgaIoctlChainErr.reg_eq_some h
  simp only [xpcieFpgaInsChainErr, FpgaIoctlChainErr.insFields, hkind, writeChainErr_eq h]
  rw [← hreg]
  rfl

theorem writeChainErrTable_eq {arg : FpgaIoctlChainErrTable} (h : arg.reg view = some reg) :
    writeChainErrTable dev.chain view arg =
      regWrite (reg.moduleInfo dev) reg.addr arg.lane (reg.encode arg.values) := by
  obtain ⟨extif, hkind, hextif, rfl⟩ | ⟨hkind, rfl⟩ := FpgaIoctlChainErrTable.reg_eq_some h
  · simp only [writeChainErrTable, hkind, hextif]
    rfl
  · simp only [writeChainErrTable, hkind]
    rfl

theorem setChainErrProt_eq {arg : FpgaIoctlErrProt} (h : arg.chainReg view = some reg) :
    setChainErrProt dev.chain view arg =
      regWrite (reg.moduleInfo dev) reg.addr arg.lane (reg.encode arg.values) := by
  obtain ⟨kind, hkind, rfl⟩ := Option.map_eq_some_iff.mp h
  simp only [setChainErrProt, hkind]
  rfl

theorem setDirectErrProt_eq {arg : FpgaIoctlErrProt} (h : arg.directReg view = some reg) :
    setDirectErrProt dev.direct view arg =
      regWrite (reg.moduleInfo dev) reg.addr arg.lane (reg.encode arg.values) := by
  obtain ⟨kind, hkind, rfl⟩ := Option.map_eq_some_iff.mp h
  simp only [setDirectErrProt, hkind]
  rfl

theorem setChainErrEvt_eq {arg : FpgaIoctlChainErrEvt} (h : arg.reg view = some reg) :
    setChainErrEvt dev.chain view arg =
      regWrite (reg.moduleInfo dev) reg.addr arg.lane (reg.encode arg.values) := by
  obtain ⟨extif, hextif, rfl⟩ := Option.map_eq_some_iff.mp h
  simp only [setChainErrEvt, hextif]
  rfl

theorem setChainErrCmdfault_eq {arg : FpgaIoctlChainErrCmdfault} (h : arg.reg = some reg) :
    xpcieFpgaInsChainErrCmdfault dev.chain arg =
      regWrite (reg.moduleInfo dev) reg.addr arg.lane (reg.encode arg.values) := by
  obtain ⟨extif, hextif, rfl⟩ := Option.map_eq_some_iff.mp h
  simp only [xpcieFpgaInsChainErrCmdfault, hextif]
  rfl

/-- **A setting writes its own register**, with its fields. -/
theorem SetCmd.handle_eq {set : SetCmd} (h : set.reg = some reg) : set.handle dev =
    regWrite (reg.moduleInfo dev) reg.addr set.lane (reg.encode set.values) := by
  cases set with
  | chainSetErrMask | chainSetErrForce => exact setChainErr_eq (by decide) h
  | chainErrIns => exact insChainErr_eq h
  | chainSetErrTblMask | chainSetErrTblForce => exact writeChainErrTable_eq h
  | chainSetErrProtMask | chainSetErrProtForce | chainErrProtIns => exact setChainErrProt_eq h
  | chainSetErrEvtMask | chainSetErrEvtForce => exact setChainErrEvt_eq h
  | chainErrCmdfaultIns => exact setChainErrCmdfault_eq h
  | directSetErrProtMask | directSetErrProtForce | directErrProtIns => exact setDirectErrProt_eq h
  | chainSetErrStifMask | chainSetErrStifForce | directSetErrStifMask | directSetErrStifForce =>
    cases h
    rfl

end Set

/-! ### What the gettings read -/

section Get

variable {dev : StatModules} {view : FaultView} {reg : ErrReg} (value : BitVec 32)
  (regs : StoredRegs)

theorem eval_chainErrValue {arg : FpgaIoctlChainErr} (h : arg.reg view = some reg) :
    (chainErrValue dev.chain view value arg).eval storedExec regs =
      (regs (reg.offset dev arg.lane), regs) := by
  obtain ⟨kind, extif, hkind, hextif, rfl⟩ := FpgaIoctlChainErr.reg_eq_some h
  simp only [chainErrValue, hkind, hextif]
  rfl

/-- Masks and forces of faults in the headers. -/
theorem values_getChainErr {arg : FpgaIoctlChainErr} (hview : view ≠ .ins)
    (h : arg.reg view = some reg) :
    ((chainErrValue dev.chain view value arg >>= fun x => pure (arg.decode x)).eval
      storedExec regs).1.values = reg.decode (regs (reg.offset dev arg.lane)) := by
  rw [Prog.eval_bind, eval_chainErrValue value regs h, Prog.eval_pure]
  obtain ⟨kind, extif, -, -, rfl⟩ := FpgaIoctlChainErr.reg_eq_some h
  cases view with
  | ins => exact absurd rfl hview
  | value | mask | force => rfl

theorem insFields_getIns {arg : FpgaIoctlChainErr} (h : arg.reg .ins = some reg) :
    ((xpcieFpgaGetInsChainErr dev.chain value arg).eval storedExec regs).1.insFields =
      reg.decode (regs (reg.offset dev arg.lane)) := by
  have heval : (chainErrValue dev.chain .ins value arg).eval storedExec regs =
      (regs (reg.offset dev arg.lane), regs) := eval_chainErrValue value regs h
  obtain ⟨kind, extif, hkind, -, rfl⟩ := FpgaIoctlChainErr.reg_eq_some h
  cases kind with
  | ingress | egress =>
    simp only [xpcieFpgaGetInsChainErr, hkind, Prog.eval_bind, heval, Prog.eval_pure,
      FpgaIoctlChainErr.insFields, Option.elim_some]
    rfl

theorem eval_chainErrTableValue {arg : FpgaIoctlChainErrTable} (h : arg.reg view = some reg) :
    (chainErrTableValue dev.chain view value arg).eval storedExec regs =
      (regs (reg.offset dev arg.lane), regs) := by
  obtain ⟨extif, hkind, hextif, rfl⟩ | ⟨hkind, rfl⟩ := FpgaIoctlChainErrTable.reg_eq_some h
  · simp only [chainErrTableValue, hkind, hextif]
    rfl
  · simp only [chainErrTableValue, hkind]
    rfl

theorem values_getChainErrTable {arg : FpgaIoctlChainErrTable} (h : arg.reg view = some reg) :
    ((chainErrTableValue dev.chain view value arg >>= fun x => pure (arg.decode x)).eval
      storedExec regs).1.values = reg.decode (regs (reg.offset dev arg.lane)) := by
  rw [Prog.eval_bind, eval_chainErrTableValue value regs h, Prog.eval_pure]
  obtain ⟨extif, -, -, rfl⟩ | ⟨-, rfl⟩ := FpgaIoctlChainErrTable.reg_eq_some h <;> rfl

theorem values_getChainErrProt {arg : FpgaIoctlErrProt} (h : arg.chainReg view = some reg) :
    ((getChainErrProt dev.chain view value arg).eval storedExec regs).1.values =
      reg.decode (regs (reg.offset dev arg.lane)) := by
  obtain ⟨kind, hkind, rfl⟩ := Option.map_eq_some_iff.mp h
  simp only [getChainErrProt, hkind, Prog.eval_bind, eval_regRead]
  rfl

theorem values_getDirectErrProt {arg : FpgaIoctlErrProt} (h : arg.directReg view = some reg) :
    ((getDirectErrProt dev.direct view arg).eval storedExec regs).1.values =
      reg.decode (regs (reg.offset dev arg.lane)) := by
  obtain ⟨kind, hkind, rfl⟩ := Option.map_eq_some_iff.mp h
  simp only [getDirectErrProt, hkind, Prog.eval_bind, eval_regRead]
  rfl

theorem values_getChainErrEvt {arg : FpgaIoctlChainErrEvt} (h : arg.reg view = some reg) :
    ((getChainErrEvt dev.chain view value arg).eval storedExec regs).1.values =
      reg.decode (regs (reg.offset dev arg.lane)) := by
  obtain ⟨extif, hextif, rfl⟩ := Option.map_eq_some_iff.mp h
  simp only [getChainErrEvt, hextif, Prog.eval_bind, eval_regRead]
  rfl

theorem values_getChainErrStif (arg : FpgaIoctlChainErrStif) :
    ((getChainErrStif dev.chain view arg).eval storedExec regs).1.values =
      (ErrReg.chainErrStif view).decode (regs ((ErrReg.chainErrStif view).offset dev arg.lane)) := by
  simp only [getChainErrStif, Prog.eval_bind, eval_regRead, Prog.eval_pure,
    FpgaIoctlChainErrStif.decode, FpgaIoctlChainErrStif.values, List.map_cons, BitVec.setWidth_or]
  rfl

theorem values_getDirectErrStif (arg : FpgaIoctlDirectErrStif) :
    ((getDirectErrStif dev.direct view arg).eval storedExec regs).1.values =
      (ErrReg.directErrStif view).decode
        (regs ((ErrReg.directErrStif view).offset dev arg.lane)) := rfl

theorem values_getInsCmdfault {arg : FpgaIoctlChainErrCmdfault} (h : arg.reg = some reg) :
    ((xpcieFpgaGetInsChainErrCmdfault dev.chain value arg).eval storedExec regs).1.values =
      reg.decode (regs (reg.offset dev arg.lane)) := by
  obtain ⟨extif, hextif, rfl⟩ := Option.map_eq_some_iff.mp h
  simp only [xpcieFpgaGetInsChainErrCmdfault, hextif, Prog.eval_bind, eval_regRead]
  rfl

/-- **A getting reads its own register** and takes the fields out of it. -/
theorem GetCmd.errValues_eval {get : GetCmd} (h : get.errReg = some reg) (unset : UnsetLocals) :
    ((get.handle dev unset).eval storedExec regs).1.errValues =
      reg.decode (regs (reg.offset dev get.errLane)) := by
  cases get with
  | chainGetErrMask | chainGetErrForce =>
    rw [GetCmd.handle, Prog.eval_map]
    exact values_getChainErr unset.value regs (by decide) h
  | chainErrGetIns =>
    rw [GetCmd.handle, Prog.eval_map]
    exact insFields_getIns unset.value regs h
  | chainGetErrTblMask | chainGetErrTblForce =>
    rw [GetCmd.handle, Prog.eval_map]
    exact values_getChainErrTable unset.value regs h
  | chainGetErrProtMask | chainGetErrProtForce | chainErrProtGetIns =>
    rw [GetCmd.handle, Prog.eval_map]
    exact values_getChainErrProt unset.value regs h
  | chainGetErrEvtMask | chainGetErrEvtForce =>
    rw [GetCmd.handle, Prog.eval_map]
    exact values_getChainErrEvt unset.value regs h
  | chainGetErrStifMask arg | chainGetErrStifForce arg =>
    cases h
    rw [GetCmd.handle, Prog.eval_map]
    exact values_getChainErrStif regs arg
  | chainErrCmdfaultGetIns =>
    rw [GetCmd.handle, Prog.eval_map]
    exact values_getInsCmdfault unset.value regs h
  | directGetErrProtMask | directGetErrProtForce | directErrProtGetIns =>
    rw [GetCmd.handle, Prog.eval_map]
    exact values_getDirectErrProt regs h
  | directGetErrStifMask arg | directGetErrStifForce arg =>
    cases h
    rw [GetCmd.handle, Prog.eval_map]
    exact values_getDirectErrStif regs arg
  | _ => cases h

end Get

/-! ### The registers of a device -/

/-- `XPCIE_FPGA_CHAIN_OFFSET` and `XPCIE_FPGA_CHAIN_SIZE`, which
`xpcie_fpga_common_get_chain_module_info` sets. -/
def chainModuleInfo : FpgaModuleInfo := ⟨0x0000001000, 0x1000⟩

/-- `XPCIE_FPGA_DIRECT_OFFSET` and `XPCIE_FPGA_DIRECT_SIZE`, which
`xpcie_fpga_common_get_direct_module_info` sets. -/
def directModuleInfo : FpgaModuleInfo := ⟨0x0000005000, 0x1000⟩

/-- The modules of a device. -/
def errModules : StatModules := ⟨chainModuleInfo, directModuleInfo⟩

namespace ErrReg

/-- The registers that can be set. -/
def settable : List ErrReg :=
  let kinds := [.ingress, .egress]
  let extifs := [.zero, .one]
  [.mask, .force, .ins].flatMap (fun view =>
      (kinds.flatMap fun kind => extifs.map (chainErr view kind)) ++ kinds.map (chainErrProt view) ++
        [.ingrRcv, .ingrSnd, .egrRcv, .egrSnd].map (directErrProt view)) ++
    [.mask, .force].flatMap (fun view =>
      extifs.map (chainErrTableIngr view) ++ extifs.map (chainErrEvt view) ++
        [chainErrTableEgr view, chainErrStif view, directErrStif view]) ++
    extifs.map chainErrCmdfault

/-- They are inside a lane. -/
theorem addr_lt : ∀ reg ∈ settable, reg.addr.toNat < 0x1000 := by decide

/-- No two of them are at one address of a module. -/
theorem addr_inj : ∀ reg ∈ settable, ∀ reg' ∈ settable, reg.isDirect = reg'.isDirect →
    reg.addr = reg'.addr → reg = reg' := by decide +kernel

/-- The lanes of a module follow one another. -/
theorem toNat_offset {reg : ErrReg} {lane : BitVec 32} (hreg : reg ∈ settable)
    (hlane : lane.toNat < xpcieKernelLaneMax) : (reg.offset errModules lane).toNat =
      (if reg.isDirect then 0x5000 else 0x1000) + 0x1000 * lane.toNat + reg.addr.toNat := by
  have haddr := addr_lt reg hreg
  have hbase : (reg.moduleInfo errModules).base.toNat = if reg.isDirect then 0x5000 else 0x1000 := by
    unfold moduleInfo
    cases reg.isDirect <;> rfl
  have hlen : (reg.moduleInfo errModules).len.toNat = 0x1000 := by
    unfold moduleInfo
    cases reg.isDirect <;> rfl
  have hle : (if reg.isDirect then 0x5000 else 0x1000) ≤ 0x5000 := by
    cases reg.isDirect <;> decide
  rw [offset, FpgaModuleInfo.toNat_offset, hbase, hlen]
  have hmax : lane.toNat < 4 := hlane
  rw [hbase, hlen]
  omega

/-- **No two registers of the lanes have one offset**. -/
theorem offset_inj {reg reg' : ErrReg} {lane lane' : BitVec 32} (hreg : reg ∈ settable)
    (hreg' : reg' ∈ settable) (hlane : lane.toNat < xpcieKernelLaneMax)
    (hlane' : lane'.toNat < xpcieKernelLaneMax)
    (h : reg.offset errModules lane = reg'.offset errModules lane') : (reg, lane) = (reg', lane') := by
  have haddr := addr_lt reg hreg
  have haddr' := addr_lt reg' hreg'
  have hnum := congrArg BitVec.toNat h
  rw [toNat_offset hreg hlane, toNat_offset hreg' hlane'] at hnum
  have hmax : lane.toNat < 4 := hlane
  have hmax' : lane'.toNat < 4 := hlane'
  -- the lanes of the chain module end where those of the direct module begin
  have hdirect : reg.isDirect = reg'.isDirect := by
    cases hd : reg.isDirect <;> cases hd' : reg'.isDirect <;>
      simp only [hd, hd', if_true, Bool.false_eq_true, if_false] at hnum ⊢ <;> omega
  rw [hdirect] at hnum
  have hsame : lane.toNat = lane'.toNat ∧ reg.addr.toNat = reg'.addr.toNat := by omega
  rw [addr_inj reg hreg reg' hreg' hdirect (BitVec.eq_of_toNat_eq hsame.2),
    BitVec.eq_of_toNat_eq hsame.1]

end ErrReg

/-! ### Round trip, frame and distance -/

/-- Settings and gettings of faults on the modules of a device. -/
structure ErrRegistersRight (dev : StatModules) : Prop where
  /-- What is set is what is got, whatever else is in the two structures and on the stack. -/
  roundTrip : ∀ (set : SetCmd) (get : GetCmd) (reg : ErrReg) (unset : UnsetLocals)
    (regs : StoredRegs), set.reg = some reg → get.errReg = some reg → get.errLane = set.lane →
      set.Fits reg →
        ((get.handle dev unset).eval storedExec
          ((set.handle dev).eval storedExec regs).2).1.errValues = set.values
  /-- Whatever can be set can be got. -/
  covered : ∀ set : SetCmd, set.get.errReg = set.reg ∧ set.get.errLane = set.lane
  /-- A setting writes its own register only. -/
  frame : ∀ (set : SetCmd) (reg : ErrReg) (regs : StoredRegs), set.reg = some reg →
    ∃ value, (set.handle dev).trace storedExec regs = [.write32 (reg.offset dev set.lane) value]
  /-- Settings of different registers, or of different lanes, write different registers. -/
  apart : ∀ (set set' : SetCmd) (reg reg' : ErrReg), set.reg = some reg → set'.reg = some reg' →
    set.lane.toNat < xpcieKernelLaneMax → set'.lane.toNat < xpcieKernelLaneMax →
      (reg, set.lane) ≠ (reg', set'.lane) →
        reg.offset dev set.lane ≠ reg'.offset dev set'.lane

/-- Every setting is of one of the registers. -/
theorem SetCmd.mem_settable {set : SetCmd} {reg : ErrReg} (h : set.reg = some reg) :
    reg ∈ ErrReg.settable := by
  cases set with
  | chainSetErrMask | chainSetErrForce | chainErrIns =>
    obtain ⟨kind, extif, -, -, rfl⟩ := FpgaIoctlChainErr.reg_eq_some h
    cases kind <;> cases extif <;> decide
  | chainSetErrTblMask | chainSetErrTblForce =>
    obtain ⟨extif, -, -, rfl⟩ | ⟨-, rfl⟩ := FpgaIoctlChainErrTable.reg_eq_some h
    · cases extif <;> decide
    · decide
  | chainSetErrProtMask | chainSetErrProtForce | chainErrProtIns
  | directSetErrProtMask | directSetErrProtForce | directErrProtIns =>
    obtain ⟨kind, -, rfl⟩ := Option.map_eq_some_iff.mp h
    cases kind <;> decide
  | chainSetErrEvtMask | chainSetErrEvtForce | chainErrCmdfaultIns =>
    obtain ⟨extif, -, rfl⟩ := Option.map_eq_some_iff.mp h
    cases extif <;> decide
  | chainSetErrStifMask | chainSetErrStifForce | directSetErrStifMask | directSetErrStifForce =>
    cases h
    decide

/-- A setting has a value for each field of its register. -/
theorem SetCmd.length_values {set : SetCmd} {reg : ErrReg} (h : set.reg = some reg) :
    set.values.length = reg.widths.length := by
  cases set with
  | chainSetErrMask | chainSetErrForce =>
    obtain ⟨kind, extif, -, -, rfl⟩ := FpgaIoctlChainErr.reg_eq_some h
    rfl
  | chainErrIns arg =>
    obtain ⟨kind, extif, hkind, -, rfl⟩ := FpgaIoctlChainErr.reg_eq_some h
    rw [SetCmd.values, FpgaIoctlChainErr.insFields, hkind]
    cases kind <;> rfl
  | chainSetErrTblMask | chainSetErrTblForce =>
    obtain ⟨extif, -, -, rfl⟩ | ⟨-, rfl⟩ := FpgaIoctlChainErrTable.reg_eq_some h <;> rfl
  | chainSetErrProtMask | chainSetErrProtForce | chainErrProtIns
  | directSetErrProtMask | directSetErrProtForce | directErrProtIns =>
    obtain ⟨kind, -, rfl⟩ := Option.map_eq_some_iff.mp h
    rfl
  | chainSetErrEvtMask | chainSetErrEvtForce | chainErrCmdfaultIns =>
    obtain ⟨extif, -, rfl⟩ := Option.map_eq_some_iff.mp h
    rfl
  | chainSetErrStifMask | chainSetErrStifForce | directSetErrStifMask | directSetErrStifForce =>
    cases h
    rfl

/-- **The error registers are right**: what is set is got, and nothing else is touched. -/
theorem errRegisters_right : ErrRegistersRight errModules where
  roundTrip set get reg unset regs hset hget hlane hfits := by
    have hfields : List.Forall₂ (fun v w => v.toNat < 2 ^ w) set.values reg.widths :=
      List.forall₂_iff_zip.mpr ⟨SetCmd.length_values hset, fun hp => hfits _ hp⟩
    rw [SetCmd.handle_eq hset, eval_regWrite, GetCmd.errValues_eval _ hget, hlane, ErrReg.offset]
    dsimp only
    rw [Function.update_self, ErrReg.decode_encode hfields]
  covered set := by cases set <;> exact ⟨rfl, rfl⟩
  frame set reg regs hset := by
    refine ⟨reg.encode set.values, ?_⟩
    rw [SetCmd.handle_eq hset, trace_regWrite, ErrReg.offset]
  apart set set' reg reg' hset hset' hlane hlane' hne h :=
    hne (ErrReg.offset_inj (SetCmd.mem_settable hset) (SetCmd.mem_settable hset') hlane hlane' h)

end HardwareDrivers.Driver
