import HardwareDrivers.Driver.ErrRegisters
import HardwareDrivers.Driver.FixedRegs

/-!
# The buffers of the chain

`xpcie_fpga_set_ddr_offset_frame` writes where an external interface of a lane has its buffers, ten
registers one by one; `xpcie_fpga_get_ddr_offset_frame` reads them one by one. Nothing keeps processes
from doing both at the same time, but what is written depends on the lane and the interface only.
`EXTIFINV` says which of the two interfaces is that of the network.

## What is proved

* `ddr_settled` — who reads behind a request that set the buffers gets all of them, whatever requests
  of whatever lanes come in between.
* `set_safe`, `get_safe`, `control_safe` — the requests of the chain do not get in the way.
-/

namespace HardwareDrivers.Driver

open Theory

/-! ### The requests -/

/-- `fpga_ioctl_extif_t`. -/
structure FpgaIoctlExtif where
  /-- `lane`. -/
  lane : BitVec 32
  /-- `extif_id`. -/
  extifId : BitVec 8
  deriving DecidableEq

/-- `XPCIE_FPGA_DDR_VALUE_AXI_EXTIF*_BUFFER_*`. -/
structure DdrFrame where
  /-- `BASE_L` and `BASE_H`. -/
  (baseL baseH : BitVec 32)
  /-- `RX_OFFSET_L`, `RX_OFFSET_H`, `RX_STRIDE` and `RX_SIZE`. -/
  (rxOffsetL rxOffsetH rxStride rxSize : BitVec 32)
  /-- `TX_OFFSET_L`, `TX_OFFSET_H`, `TX_STRIDE` and `TX_SIZE`. -/
  (txOffsetL txOffsetH txStride txSize : BitVec 32)

/-- The buffers of the interface of LLDMA. -/
def lldmaFrame : DdrFrame :=
  ⟨0x00000000, 0x00000000, 0x00000000, 0x00000000, 0x00100000, 0x0000000A, 0x02000000, 0x00000000,
    0x00100000, 0x0000000A⟩

/-- The buffers of the interface of the network. -/
def nwFrame (lane : BitVec 32) : DdrFrame :=
  ⟨0x00000000,
    if lane = 0 then 0x00000008 else if lane = 1 then 0x00000009 else if lane = 2 then 0x0000000A
      else 0x0000000B,
    0x00000000, 0x00000000, 0x00200000, 0x0000000A, 0x00100000, 0x00000000, 0x00200000, 0x0000000A⟩

/-- The buffers of an interface; `extifinv` says whether `EXTIFINV` is defined. -/
def ddrFrame (extifinv : Bool) : ExtifNumber → BitVec 32 → DdrFrame
  | .zero, lane => if extifinv then nwFrame lane else lldmaFrame
  | .one, lane => if extifinv then lldmaFrame else nwFrame lane

/-- `XPCIE_FPGA_START_MODULE`. -/
def chainStart : BitVec 32 := 0x00000001

/-- `XPCIE_FPGA_STOP_MODULE`. -/
def chainStop : BitVec 32 := 0x00000000

variable (m : FpgaModuleInfo) (extifinv : Bool)

/-- `xpcie_fpga_start_chain_module`. -/
def xpcieFpgaStartChainModule (kernelLane : BitVec 32) : RegProg Unit :=
  regWrite m chainControl kernelLane chainStart

/-- `xpcie_fpga_stop_chain_module`. -/
def xpcieFpgaStopChainModule (kernelLane : BitVec 32) : RegProg Unit :=
  regWrite m chainControl kernelLane chainStop

/-- `xpcie_fpga_set_ddr_offset_frame`. -/
def xpcieFpgaSetDdrOffsetFrame (extif : FpgaIoctlExtif) : RegProg Unit :=
  match extifNumber extif.extifId with
  | some n => do
    let reg := chainDdrBase n
    let value := ddrFrame extifinv n extif.lane
    regWrite m reg extif.lane value.baseL
    regWrite m (reg + 0x04) extif.lane value.baseH
    regWrite m (reg + 0x10) extif.lane value.rxOffsetL
    regWrite m (reg + 0x14) extif.lane value.rxOffsetH
    regWrite m (reg + 0x18) extif.lane value.rxStride
    regWrite m (reg + 0x1C) extif.lane value.rxSize
    regWrite m (reg + 0x20) extif.lane value.txOffsetL
    regWrite m (reg + 0x24) extif.lane value.txOffsetH
    regWrite m (reg + 0x28) extif.lane value.txStride
    regWrite m (reg + 0x2C) extif.lane value.txSize
  | none => pure ()

/-! ### The registers of an interface -/

/-- Their offsets behind the first. -/
def DdrFrame.cells (value : DdrFrame) : List (BitVec 64 × BitVec 32) :=
  [(0x00, value.baseL), (0x04, value.baseH), (0x10, value.rxOffsetL), (0x14, value.rxOffsetH),
    (0x18, value.rxStride), (0x1C, value.rxSize), (0x20, value.txOffsetL), (0x24, value.txOffsetH),
    (0x28, value.txStride), (0x2C, value.txSize)]

/-- The registers of an interface of a lane, with what is written to them. -/
def ddrRegs (n : ExtifNumber) (lane : BitVec 32) : FixedRegs :=
  (ddrFrame extifinv n lane).cells.map fun cell => (m.offset (chainDdrBase n + cell.1) lane, cell.2)

/-- What is read from them. -/
def DdrFrame.fill (value : DdrFrame) (chainDdr : FpgaIoctlChainDdr) : FpgaIoctlChainDdr :=
  { chainDdr with
    base := value.baseH ++ value.baseL
    rxOffset := value.rxOffsetH ++ value.rxOffsetL
    rxStride := value.rxStride
    rxSize := value.rxSize.setWidth 8
    txOffset := value.txOffsetH ++ value.txOffsetL
    txStride := value.txStride
    txSize := value.txSize.setWidth 8 }

variable {m extifinv} {n : ExtifNumber} {lane : BitVec 32} {extif : FpgaIoctlExtif}
  {chainDdr : FpgaIoctlChainDdr}

/-- The request writes its registers. -/
theorem set_eq_writeRegs (hn : extifNumber extif.extifId = some n) :
    xpcieFpgaSetDdrOffsetFrame m extifinv extif = writeRegs (ddrRegs m extifinv n extif.lane) := by
  unfold xpcieFpgaSetDdrOffsetFrame
  rw [hn]
  cases n <;> rfl

variable (extifinv) in
/-- The sizes have four bits. -/
theorem ddrFrame_size (n : ExtifNumber) (lane : BitVec 32) :
    regField (ddrFrame extifinv n lane).rxSize 0x0000000F 0 = (ddrFrame extifinv n lane).rxSize.setWidth 8 ∧
      regField (ddrFrame extifinv n lane).txSize 0x0000000F 0 =
        (ddrFrame extifinv n lane).txSize.setWidth 8 := by
  have hten : ∀ v : BitVec 32, v = 0x0000000A → regField v 0x0000000F 0 = v.setWidth 8 := by
    rintro v rfl
    decide
  cases extifinv <;> cases n <;> exact ⟨hten _ rfl, hten _ rfl⟩

variable (m extifinv) in
/-- The request that reads them has one result. -/
theorem get_determined (hn : extifNumber chainDdr.extifId = some n) :
    Determined (ddrRegs m extifinv n chainDdr.lane) (xpcieFpgaGetDdrOffsetFrame m chainDdr)
      ((ddrFrame extifinv n chainDdr.lane).fill chainDdr) 10 := by
  obtain ⟨hrx, htx⟩ := ddrFrame_size extifinv n chainDdr.lane
  have hmem : ∀ cell ∈ (ddrFrame extifinv n chainDdr.lane).cells,
      (m.offset (chainDdrBase n + cell.1) chainDdr.lane, cell.2) ∈ ddrRegs m extifinv n chainDdr.lane :=
    fun _ hcell => List.mem_map_of_mem hcell
  simp only [DdrFrame.cells, List.forall_mem_cons, List.not_mem_nil, false_implies, implies_true,
    and_true] at hmem
  obtain ⟨h₀, h₁, h₂, h₃, h₄, h₅, h₆, h₇, h₈, h₉⟩ := hmem
  unfold xpcieFpgaGetDdrOffsetFrame
  rw [hn, DdrFrame.fill, ← hrx, ← htx]
  rw [show chainDdrBase n + 0x00 = chainDdrBase n from BitVec.add_zero _] at h₀
  exact .read _ _ _ _ h₀ (.read _ _ _ _ h₁ (.read _ _ _ _ h₂ (.read _ _ _ _ h₃ (.read _ _ _ _ h₄
    (.read _ _ _ _ h₅ (.read _ _ _ _ h₆ (.read _ _ _ _ h₇ (.read _ _ _ _ h₈ (.read _ _ _ _ h₉
      (.done _))))))))))

/-! ### The requests do not get in the way -/

/-- The offsets of the registers of an interface. -/
def ddrOffsets : List (BitVec 64) := [0x00, 0x04, 0x10, 0x14, 0x18, 0x1C, 0x20, 0x24, 0x28, 0x2C]

theorem cells_fst (value : DdrFrame) : value.cells.map Prod.fst = ddrOffsets := rfl

theorem mem_offsets {value : DdrFrame} {cell : BitVec 64 × BitVec 32} (h : cell ∈ value.cells) :
    cell.1.toNat < 0x40 := by
  have hall : ∀ x ∈ ddrOffsets, x.toNat < 0x40 := by simp [ddrOffsets]
  exact hall cell.1 (cells_fst value ▸ List.mem_map_of_mem h)

/-- A register of a lane of the chain is of this lane only. -/
theorem chain_offset {x : BitVec 64} (hx : x.toNat < 0x1000) (hlane : lane.toNat < 4) :
    (chainModuleInfo.offset x lane).toNat = 0x1000 + 0x1000 * lane.toNat + x.toNat := by
  have hbase : chainModuleInfo.base.toNat = 0x1000 := by decide
  have hlen : chainModuleInfo.len.toNat = 0x1000 := by decide
  rw [FpgaModuleInfo.toNat_offset (by rw [hbase, hlen]; omega), hbase, hlen]

theorem toNat_ddr (n : ExtifNumber) {x : BitVec 64} (hx : x.toNat < 0x40) :
    (chainDdrBase n + x).toNat = (if n = .zero then 0x100 else 0x140) + x.toNat := by
  cases n <;> rw [BitVec.toNat_add] <;> simp only [chainDdrBase, BitVec.reduceToNat] <;> simp <;> omega

/-- Two registers of interfaces of lanes are one only if they are the same of both. -/
theorem ddr_inj {n' : ExtifNumber} {lane' : BitVec 32} (hlane : lane.toNat < 4) (hlane' : lane'.toNat < 4)
    {x x' : BitVec 64} (hx : x.toNat < 0x40) (hx' : x'.toNat < 0x40)
    (h : chainModuleInfo.offset (chainDdrBase n + x) lane =
      chainModuleInfo.offset (chainDdrBase n' + x') lane') : n = n' ∧ lane = lane' ∧ x = x' := by
  have hn := toNat_ddr n hx
  have hn' := toNat_ddr n' hx'
  have heq := congrArg BitVec.toNat h
  rw [chain_offset (by rw [hn]; split_ifs <;> omega) hlane,
    chain_offset (by rw [hn']; split_ifs <;> omega) hlane', hn, hn'] at heq
  rw [← BitVec.toNat_inj, ← BitVec.toNat_inj]
  cases n <;> cases n' <;> simp only [reduceCtorEq, if_true, if_false, true_and, false_and] at heq ⊢ <;> omega

theorem all_writeRegs {ws : FixedRegs} {P : RegCmd → Prop} (h : ∀ w ∈ ws, P (.write32 w.1 w.2)) :
    (writeRegs ws).All P := by
  induction ws with
  | nil => exact trivial
  | cons w ws ih =>
    rw [List.forall_mem_cons] at h
    exact ⟨h.1, fun _ => ih h.2⟩

/-- Another request that sets buffers. -/
theorem set_safe (hlane : lane.toNat < 4) (hextif : extif.lane.toNat < 4) :
    (xpcieFpgaSetDdrOffsetFrame chainModuleInfo extifinv extif).All
      (ddrRegs chainModuleInfo extifinv n lane).Safe := by
  cases hn : extifNumber extif.extifId with
  | none =>
    unfold xpcieFpgaSetDdrOffsetFrame
    rw [hn]
    exact trivial
  | some n' =>
    rw [set_eq_writeRegs hn]
    refine all_writeRegs fun w hw v hv heq => ?_
    obtain ⟨cell, hcell, rfl⟩ := List.mem_map.mp hw
    obtain ⟨cell', hcell', rfl⟩ := List.mem_map.mp hv
    obtain ⟨rfl, rfl, hfst⟩ := ddr_inj hlane hextif (mem_offsets hcell') (mem_offsets hcell) heq
    have hnodup : ((ddrFrame extifinv n extif.lane).cells.map Prod.fst).Nodup := by
      rw [cells_fst]
      decide
    rw [List.inj_on_of_nodup_map hnodup hcell' hcell hfst]

/-- Reads. -/
theorem get_safe (fixed : FixedRegs) (chainDdr : FpgaIoctlChainDdr) :
    (xpcieFpgaGetDdrOffsetFrame m chainDdr).All fixed.Safe := by
  unfold xpcieFpgaGetDdrOffsetFrame
  split
  · exact ⟨trivial, fun _ => ⟨trivial, fun _ => ⟨trivial, fun _ => ⟨trivial, fun _ => ⟨trivial, fun _ =>
      ⟨trivial, fun _ => ⟨trivial, fun _ => ⟨trivial, fun _ => ⟨trivial, fun _ => ⟨trivial, fun _ =>
        trivial⟩⟩⟩⟩⟩⟩⟩⟩⟩⟩
  · exact trivial

/-- The register that starts and stops a lane is another. -/
theorem control_safe (hlane : lane.toNat < 4) {kernelLane : BitVec 32} (hkernel : kernelLane.toNat < 4)
    (value : BitVec 32) : (regWrite chainModuleInfo chainControl kernelLane value).All
      (ddrRegs chainModuleInfo extifinv n lane).Safe := by
  refine ⟨fun v hv heq => ?_, fun _ => trivial⟩
  obtain ⟨cell, hcell, rfl⟩ := List.mem_map.mp hv
  have hoff := congrArg BitVec.toNat heq
  have hn := toNat_ddr n (mem_offsets hcell)
  have hlt := mem_offsets hcell
  have hzero : chainControl.toNat = 0 := by decide
  rw [chain_offset (by rw [hn]; split_ifs <;> omega) hlane, chain_offset (by omega) hkernel, hn,
    hzero] at hoff
  split_ifs at hoff <;> omega

/-- **Who reads the buffers behind a request that set them gets all of them**, as they are for the
lane and the interface. Other requests, of all lanes, may come in between at every access. -/
theorem ddr_settled {ι α : Type} [DecidableEq ι] {s t u : Shared ι RegCmd RegCmd.Ans α StoredRegs}
    {i j : ι} {is js : List ι} {f : Unit → RegProg α} {g : FpgaIoctlChainDdr → RegProg α}
    (hn : extifNumber extif.extifId = some n)
    (hsafe : AllSafe (ddrRegs m extifinv n extif.lane) s)
    (hset : s.progs i = xpcieFpgaSetDdrOffsetFrame m extifinv extif >>= f)
    (hrun : run (Shared.step storedExec) s is = some t) (hended : 10 ≤ is.count i)
    (hlane : chainDdr.lane = extif.lane) (hextif : chainDdr.extifId = extif.extifId)
    (hget : t.progs j = xpcieFpgaGetDdrOffsetFrame m chainDdr >>= g)
    (hrun' : run (Shared.step storedExec) t js = some u) (hended' : js.count j = 10) :
    u.progs j = g ((ddrFrame extifinv n extif.lane).fill chainDdr) := by
  rw [set_eq_writeRegs hn] at hset
  have hwrote := wrote_all hsafe (List.Subset.refl _) hset hrun hended
  have hdet := get_determined m extifinv (hextif ▸ hn)
  rw [hlane] at hdet
  exact determined_run (hsafe.run hrun) hwrote hdet hget hrun' hended'

/-- What is asked for the second interface of the second lane. -/
def secondDdr : FpgaIoctlChainDdr := ⟨1, 1, 0, 0, 0, 0, 0, 0, 0⟩

/-- One program sets it, another sets the other interface of the lane and then reads it. -/
def ddrPrograms : Shared Bool RegCmd RegCmd.Ans FpgaIoctlChainDdr StoredRegs where
  state _ := 0
  progs
    | false => xpcieFpgaSetDdrOffsetFrame chainModuleInfo false ⟨1, 1⟩ >>= fun _ => pure secondDdr
    | true => xpcieFpgaSetDdrOffsetFrame chainModuleInfo false ⟨1, 0⟩ >>= fun _ =>
      xpcieFpgaGetDdrOffsetFrame chainModuleInfo secondDdr

theorem ddrPrograms_safe : AllSafe (ddrRegs chainModuleInfo false .one 1) ddrPrograms := by
  rintro (_ | _)
  · exact (set_safe (by decide) (by decide)).bind fun _ => trivial
  · exact (set_safe (by decide) (by decide)).bind fun _ => get_safe _ _

/-- The two set the lane in turns. -/
theorem ddr_settled_turns : ∃ t u,
    run (Shared.step storedExec) ddrPrograms (List.replicate 10 [false, true]).flatten = some t ∧
    run (Shared.step storedExec) t (List.replicate 10 true) = some u ∧
    u.progs true = pure ((ddrFrame false .one 1).fill secondDdr) := by
  obtain ⟨t, ht, hget⟩ : ∃ t,
      run (Shared.step storedExec) ddrPrograms (List.replicate 10 [false, true]).flatten = some t ∧
      t.progs true = xpcieFpgaGetDdrOffsetFrame chainModuleInfo secondDdr >>= pure := ⟨_, rfl, rfl⟩
  obtain ⟨u, hu⟩ : ∃ u, run (Shared.step storedExec) t (List.replicate 10 true) = some u := by
    cases ht
    exact ⟨_, rfl⟩
  have hset : ddrPrograms.progs false =
      xpcieFpgaSetDdrOffsetFrame chainModuleInfo false ⟨1, 1⟩ >>= fun _ => pure secondDdr := rfl
  have hn : extifNumber (FpgaIoctlExtif.mk 1 1).extifId = some .one := rfl
  have hlane : secondDdr.lane = (FpgaIoctlExtif.mk 1 1).lane := rfl
  have hextif : secondDdr.extifId = (FpgaIoctlExtif.mk 1 1).extifId := rfl
  have hread := ddr_settled hn ddrPrograms_safe hset ht (by decide) hlane hextif hget hu (by decide)
  exact ⟨t, u, ht, hu, hread⟩

end HardwareDrivers.Driver
