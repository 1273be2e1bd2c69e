import HardwareDrivers.Driver.Chain
import HardwareDrivers.Driver.StoredRegs

/-!
# The DDR buffer registers of the LLDMA module

`XPCIE_DEV_LLDMA_CTRL_DDR_BUFFER` sets, clears and gets the registers that say where the chain module
has its buffers: four words for each lane, and two sizes. `xpcie_fpga_read_cif_ddr4_regs` reads one of
the four for all of them.

## What is proved

* `cifAddr_injective` — no two of the registers are one.
* `eval_setLldmaBuffer`, `eval_readCifDdr4Regs` — what the commands write and read.
* `bufferRight_iff` — when what is got is what is there.
-/

namespace HardwareDrivers.Driver

open Theory

/-! ### The registers -/

/-- A register of the buffers. -/
inductive CifReg where
  /-- `XPCIE_FPGA_LLDMA_CIF_DN_RX_BASE_L`. -/
  | dnRxBaseL (lane : Lane)
  /-- `XPCIE_FPGA_LLDMA_CIF_DN_RX_BASE_H`. -/
  | dnRxBaseH (lane : Lane)
  /-- `XPCIE_FPGA_LLDMA_CIF_UP_TX_BASE_L`. -/
  | upTxBaseL (lane : Lane)
  /-- `XPCIE_FPGA_LLDMA_CIF_UP_TX_BASE_H`. -/
  | upTxBaseH (lane : Lane)
  /-- `XPCIE_FPGA_LLDMA_CIF_DN_RX_DDR_SIZE`. -/
  | dnRxDdrSize
  /-- `XPCIE_FPGA_LLDMA_CIF_UP_TX_DDR_SIZE`. -/
  | upTxDdrSize
  deriving DecidableEq

/-- A constant of a lane; the last one is that of every lane behind. -/
def byLane (c0 c1 c2 c3 : BitVec 64) (lane : Lane) : BitVec 64 :=
  if lane = 0 then c0 else if lane = 1 then c1 else if lane = 2 then c2 else c3

/-- Its address. -/
def cifAddr : CifReg → BitVec 64
  | .dnRxBaseL lane => byLane 0x0600 0x0608 0x0610 0x0618 lane
  | .dnRxBaseH lane => byLane 0x0600 0x0608 0x0610 0x0618 lane + 0x4
  | .dnRxDdrSize => 0x0680
  | .upTxBaseL lane => byLane 0x0800 0x0808 0x0810 0x0818 lane
  | .upTxBaseH lane => byLane 0x0800 0x0808 0x0810 0x0818 lane + 0x4
  | .upTxDdrSize => 0x0880

/-- `fpga_ioctl_lldma_buffer_regs_t`; also the constants that are set. -/
structure LldmaBufferRegs where
  /-- `dn_rx_val_l`. -/
  dnRxValL : Lane → BitVec 32
  /-- `dn_rx_val_h`. -/
  dnRxValH : Lane → BitVec 32
  /-- `up_tx_val_l`. -/
  upTxValL : Lane → BitVec 32
  /-- `up_tx_val_h`. -/
  upTxValH : Lane → BitVec 32
  /-- `dn_rx_ddr_size`. -/
  dnRxDdrSize : BitVec 32
  /-- `up_tx_ddr_size`. -/
  upTxDdrSize : BitVec 32

/-- The field for a register. -/
def LldmaBufferRegs.field (regs : LldmaBufferRegs) : CifReg → BitVec 32
  | .dnRxBaseL lane => regs.dnRxValL lane
  | .dnRxBaseH lane => regs.dnRxValH lane
  | .upTxBaseL lane => regs.upTxValL lane
  | .upTxBaseH lane => regs.upTxValH lane
  | .dnRxDdrSize => regs.dnRxDdrSize
  | .upTxDdrSize => regs.upTxDdrSize

/-- `XPCIE_FPGA_LLDMA_CIF_*_BASE_VAL_*` and `XPCIE_FPGA_LLDMA_CIF_*_DDR_SIZE_VAL`. -/
def cifConstants : LldmaBufferRegs where
  dnRxValL lane := (byLane 0x00000000 0x00800000 0x01000000 0x01800000 lane).setWidth 32
  dnRxValH _ := 0x00000000
  upTxValL lane := (byLane 0x02000000 0x02800000 0x03000000 0x03800000 lane).setWidth 32
  upTxValH _ := 0x00000000
  dnRxDdrSize := 0x00000000
  upTxDdrSize := 0x00000000

/-! ### The functions -/

/-- `lldma_reg_write`. -/
def cifRegWrite (m : FpgaModuleInfo) (reg : CifReg) (value : BitVec 32) : RegProg Unit :=
  regWrite m (cifAddr reg) 0 value

/-- `lldma_reg_read`. -/
def cifRegRead (m : FpgaModuleInfo) (reg : CifReg) : RegProg (BitVec 32) :=
  regRead m (cifAddr reg) 0

/-- `xpcie_fpga_set_cif_base_addr`. -/
def setCifBaseAddr (m : FpgaModuleInfo) (vals : LldmaBufferRegs) (isInit : Bool) (kernelId : Lane) :
    RegProg Unit := do
  cifRegWrite m (.dnRxBaseL kernelId) (if isInit then vals.dnRxValL kernelId else 0)
  cifRegWrite m (.dnRxBaseH kernelId) (if isInit then vals.dnRxValH kernelId else 0)
  cifRegWrite m (.upTxBaseL kernelId) (if isInit then vals.upTxValL kernelId else 0)
  cifRegWrite m (.upTxBaseH kernelId) (if isInit then vals.upTxValH kernelId else 0)

/-- `xpcie_fpga_set_cif_size_ddr4`. -/
def setCifSizeDdr4 (m : FpgaModuleInfo) (vals : LldmaBufferRegs) (isInit : Bool) : RegProg Unit := do
  cifRegWrite m .dnRxDdrSize (if isInit then vals.dnRxDdrSize else 0)
  cifRegWrite m .upTxDdrSize (if isInit then vals.upTxDdrSize else 0)

/-- `xpcie_fpga_set_lldma_buffer`. -/
def setLldmaBuffer (m : FpgaModuleInfo) (vals : LldmaBufferRegs) (isInit : Bool) : RegProg Unit := do
  (List.finRange xpcieKernelLaneMax).forM (setCifBaseAddr m vals isInit)
  setCifSizeDdr4 m vals isInit

/-- One round of the loop of `xpcie_fpga_read_cif_ddr4_regs`: all four words are read from the first
register. -/
def readCifLane (m : FpgaModuleInfo) (regs : LldmaBufferRegs) (lane : Lane) :
    RegProg LldmaBufferRegs := do
  let dnRxValL ← cifRegRead m (.dnRxBaseL lane)
  let dnRxValH ← cifRegRead m (.dnRxBaseL lane)
  let upTxValL ← cifRegRead m (.dnRxBaseL lane)
  let upTxValH ← cifRegRead m (.dnRxBaseL lane)
  pure { regs with
    dnRxValL := Function.update regs.dnRxValL lane dnRxValL
    dnRxValH := Function.update regs.dnRxValH lane dnRxValH
    upTxValL := Function.update regs.upTxValL lane upTxValL
    upTxValH := Function.update regs.upTxValH lane upTxValH }

/-- `xpcie_fpga_read_cif_ddr4_regs`. -/
def readCifDdr4Regs (m : FpgaModuleInfo) (regs : LldmaBufferRegs) : RegProg LldmaBufferRegs := do
  let regs ← (List.finRange xpcieKernelLaneMax).foldlM (readCifLane m) regs
  let dnRxDdrSize ← cifRegRead m .dnRxDdrSize
  let upTxDdrSize ← cifRegRead m .upTxDdrSize
  pure { regs with dnRxDdrSize, upTxDdrSize }

/-- `CMD_FPGA_IOCTL_LLDMA_BUF_*`. -/
inductive LldmaBufferCmd where
  /-- `CMD_FPGA_IOCTL_LLDMA_BUF_SET`. -/
  | set
  /-- `CMD_FPGA_IOCTL_LLDMA_BUF_CLR`. -/
  | clr
  /-- `CMD_FPGA_IOCTL_LLDMA_BUF_GET`. -/
  | get
  /-- Another number. -/
  | other (cmd : BitVec 32)
  deriving DecidableEq

/-- The errors of `XPCIE_DEV_LLDMA_CTRL_DDR_BUFFER`. -/
inductive LldmaBufferErrno where
  /-- `-EFAULT`. -/
  | efault
  /-- `-EINVAL`. -/
  | einval
  deriving DecidableEq

/-- `XPCIE_DEV_LLDMA_CTRL_DDR_BUFFER`: what is copied out for `ioctl_info.regs`, where the two flags
say whether the copies go through. -/
def ctrlDdrBuffer (m : FpgaModuleInfo) (vals : LldmaBufferRegs) (copyFromUser copyToUser : Bool)
    (cmd : LldmaBufferCmd) (regs : LldmaBufferRegs) :
    RegProg (Except LldmaBufferErrno LldmaBufferRegs) :=
  if copyFromUser = false then pure (.error .efault)
  else
    match cmd with
    | .set => do
      setLldmaBuffer m vals true
      pure (if copyToUser then .ok regs else .error .efault)
    | .clr => do
      setLldmaBuffer m vals false
      pure (if copyToUser then .ok regs else .error .efault)
    | .get => do
      let regs ← readCifDdr4Regs m regs
      pure (if copyToUser then .ok regs else .error .efault)
    | .other _ => pure (.error .einval)

/-! ### The property -/

/-- `XPCIE_DEV_LLDMA_CTRL_DDR_BUFFER` without a failure of a copy: what is copied out, and the
registers. -/
def ctrlDdrBufferRun (m : FpgaModuleInfo) (vals : LldmaBufferRegs) (cmd : LldmaBufferCmd)
    (info : LldmaBufferRegs) (regs : StoredRegs) :
    Except LldmaBufferErrno LldmaBufferRegs × StoredRegs :=
  (ctrlDdrBuffer m vals true true cmd info).eval storedExec regs

/-- What is got is what is there: after the constants were set, after they were cleared, and from
any registers. -/
structure BufferRight (m : FpgaModuleInfo) (vals : LldmaBufferRegs) (regs : StoredRegs) : Prop where
  /-- After `SET`. -/
  set : ∀ info info', ∃ got, (ctrlDdrBufferRun m vals .get info'
    (ctrlDdrBufferRun m vals .set info regs).2).1 = .ok got ∧ ∀ reg, got.field reg = vals.field reg
  /-- After `CLR`. -/
  clr : ∀ info info', ∃ got, (ctrlDdrBufferRun m vals .get info'
    (ctrlDdrBufferRun m vals .clr info regs).2).1 = .ok got ∧ ∀ reg, got.field reg = 0
  /-- At any time. -/
  get : ∀ info, ∃ got, (ctrlDdrBufferRun m vals .get info regs).1 = .ok got ∧
    ∀ reg, got.field reg = regs (m.offset (cifAddr reg) 0)

/-- On each lane the four words are equal: those of the constants, and those in the registers. -/
structure BufferFair (m : FpgaModuleInfo) (vals : LldmaBufferRegs) (regs : StoredRegs) : Prop where
  /-- Those of the constants. -/
  constants : ∀ lane, vals.dnRxValH lane = vals.dnRxValL lane ∧
    vals.upTxValL lane = vals.dnRxValL lane ∧ vals.upTxValH lane = vals.dnRxValL lane
  /-- Those in the registers. -/
  contents : ∀ lane, ∀ reg ∈ [CifReg.dnRxBaseH lane, .upTxBaseL lane, .upTxBaseH lane],
    regs (m.offset (cifAddr reg) 0) = regs (m.offset (cifAddr (.dnRxBaseL lane)) 0)

variable {m : FpgaModuleInfo} {vals info : LldmaBufferRegs} {regs : StoredRegs} {isInit : Bool}

/-! ### What is written -/

/-- The registers of a lane. -/
def cifLaneRegs (lane : Lane) : List CifReg :=
  [.dnRxBaseL lane, .dnRxBaseH lane, .upTxBaseL lane, .upTxBaseH lane]

/-- The registers in the order of the writes. -/
def cifRegs : List CifReg :=
  (List.finRange xpcieKernelLaneMax).flatMap cifLaneRegs ++ [.dnRxDdrSize, .upTxDdrSize]

theorem mem_cifRegs (reg : CifReg) : reg ∈ cifRegs := by
  cases reg with
  | dnRxBaseL lane =>
    revert lane
    decide
  | dnRxBaseH lane =>
    revert lane
    decide
  | upTxBaseL lane =>
    revert lane
    decide
  | upTxBaseH lane =>
    revert lane
    decide
  | dnRxDdrSize => decide
  | upTxDdrSize => decide

/-- **No two registers are one.** -/
theorem cifAddr_injective (m : FpgaModuleInfo) :
    Function.Injective fun reg => m.offset (cifAddr reg) 0 := by
  intro x y h
  have hnodup : (cifRegs.map fun reg => (cifAddr reg).setWidth 32).Nodup := by decide
  exact List.inj_on_of_nodup_map hnodup (mem_cifRegs x) (mem_cifRegs y)
    (FpgaModuleInfo.offset_inj.mp h)

/-- A register gets its constant, or 0. -/
def writeCif (m : FpgaModuleInfo) (vals : LldmaBufferRegs) (isInit : Bool) (regs : StoredRegs)
    (reg : CifReg) : StoredRegs :=
  Function.update regs (m.offset (cifAddr reg) 0) (if isInit then vals.field reg else 0)

theorem eval_setCifLanes (lanes : List Lane) :
    ((lanes.forM (setCifBaseAddr m vals isInit)).eval storedExec regs).2 =
      (lanes.flatMap cifLaneRegs).foldl (writeCif m vals isInit) regs := by
  induction lanes generalizing regs with
  | nil => rfl
  | cons lane lanes ih =>
    change ((setCifBaseAddr m vals isInit lane >>= fun _ =>
      lanes.forM (setCifBaseAddr m vals isInit)).eval storedExec regs).2 = _
    rw [Prog.eval_bind, ih, List.flatMap_cons, List.foldl_append]
    rfl

/-- **Every register is written**, with its constant or 0. -/
theorem eval_setLldmaBuffer (m : FpgaModuleInfo) (vals : LldmaBufferRegs) (isInit : Bool)
    (regs : StoredRegs) (reg : CifReg) :
    ((setLldmaBuffer m vals isInit).eval storedExec regs).2 (m.offset (cifAddr reg) 0) =
      if isInit then vals.field reg else 0 := by
  have hwrites : ((setLldmaBuffer m vals isInit).eval storedExec regs).2 =
      cifRegs.foldl (writeCif m vals isInit) regs := by
    have hsizes : ∀ regs, ((setCifSizeDdr4 m vals isInit).eval storedExec regs).2 =
        [CifReg.dnRxDdrSize, .upTxDdrSize].foldl (writeCif m vals isInit) regs := by
      intro regs
      rw [setCifSizeDdr4, Prog.eval_bind, List.foldl_cons, List.foldl_cons, List.foldl_nil]
      simp only [cifRegWrite, eval_regWrite, writeCif, LldmaBufferRegs.field]
    rw [setLldmaBuffer, Prog.eval_bind, hsizes, eval_setCifLanes, cifRegs, List.foldl_append]
  rw [hwrites]
  exact foldl_update_of_mem (cifAddr_injective m) (fun reg => if isInit then vals.field reg else 0)
    (mem_cifRegs reg) regs

/-! ### What is read -/

/-- The fields of a lane, after the loop. -/
def gotLane (m : FpgaModuleInfo) (regs : StoredRegs) (info : LldmaBufferRegs) (lane : Lane) :
    LldmaBufferRegs :=
  let value := regs (m.offset (cifAddr (.dnRxBaseL lane)) 0)
  { info with
    dnRxValL := Function.update info.dnRxValL lane value
    dnRxValH := Function.update info.dnRxValH lane value
    upTxValL := Function.update info.upTxValL lane value
    upTxValH := Function.update info.upTxValH lane value }

theorem eval_readCifLanes (lanes : List Lane) (info : LldmaBufferRegs) :
    (lanes.foldlM (readCifLane m) info).eval storedExec regs =
      (lanes.foldl (gotLane m regs) info, regs) := by
  induction lanes generalizing info with
  | nil => rfl
  | cons lane lanes ih =>
    rw [List.foldlM_cons, Prog.eval_bind]
    exact ih (gotLane m regs info lane)

/-- The loop sets the fields of each lane to the one word. -/
theorem foldl_gotLane {lanes : List Lane} {lane : Lane} (hlane : lane ∈ lanes) :
    ∀ reg ∈ cifLaneRegs lane, (lanes.foldl (gotLane m regs) info).field reg =
      regs (m.offset (cifAddr (.dnRxBaseL lane)) 0) := by
  induction lanes using List.reverseRecOn with
  | nil => cases hlane
  | append_singleton lanes last ih =>
    rw [List.foldl_append, List.foldl_cons, List.foldl_nil]
    intro reg hreg
    have hfields : reg = .dnRxBaseL lane ∨ reg = .dnRxBaseH lane ∨ reg = .upTxBaseL lane ∨
        reg = .upTxBaseH lane := by simpa [cifLaneRegs] using hreg
    by_cases heq : lane = last
    · subst heq
      rcases hfields with rfl | rfl | rfl | rfl <;> exact Function.update_self ..
    · have hmem := (List.mem_append.mp hlane).resolve_right fun h => heq (List.mem_singleton.mp h)
      rw [← ih hmem reg hreg]
      rcases hfields with rfl | rfl | rfl | rfl <;> exact Function.update_of_ne heq ..

/-- The sizes are read behind the loop. -/
theorem eval_readCifDdr4Regs (m : FpgaModuleInfo) (info : LldmaBufferRegs) (regs : StoredRegs) :
    (readCifDdr4Regs m info).eval storedExec regs =
      ({ (List.finRange xpcieKernelLaneMax).foldl (gotLane m regs) info with
          dnRxDdrSize := regs (m.offset (cifAddr .dnRxDdrSize) 0)
          upTxDdrSize := regs (m.offset (cifAddr .upTxDdrSize) 0) }, regs) := by
  rw [readCifDdr4Regs, Prog.eval_bind, eval_readCifLanes]
  rfl

/-- The register that a field is read from. -/
def CifReg.readFrom : CifReg → CifReg
  | .dnRxBaseL lane | .dnRxBaseH lane | .upTxBaseL lane | .upTxBaseH lane => .dnRxBaseL lane
  | .dnRxDdrSize => .dnRxDdrSize
  | .upTxDdrSize => .upTxDdrSize

/-- Without a failure of a copy `GET` copies out what is read. -/
theorem ctrlDdrBufferRun_get_eq (m : FpgaModuleInfo) (vals info : LldmaBufferRegs)
    (regs : StoredRegs) : (ctrlDdrBufferRun m vals .get info regs).1 =
      .ok ((readCifDdr4Regs m info).eval storedExec regs).1 := by
  rw [ctrlDdrBufferRun, ctrlDdrBuffer, if_neg (by decide), Prog.eval_bind]
  rfl

/-- **Each word of a lane is read from the first register**, each size from its own. -/
theorem ctrlDdrBufferRun_get (m : FpgaModuleInfo) (vals info : LldmaBufferRegs) (regs : StoredRegs) :
    ∃ got, (ctrlDdrBufferRun m vals .get info regs).1 = .ok got ∧
      ∀ reg, got.field reg = regs (m.offset (cifAddr reg.readFrom) 0) := by
  refine ⟨_, ctrlDdrBufferRun_get_eq m vals info regs, fun reg => ?_⟩
  rw [eval_readCifDdr4Regs]
  cases reg with
  | dnRxBaseL lane => exact foldl_gotLane (List.mem_finRange lane) (.dnRxBaseL lane) (by simp [cifLaneRegs])
  | dnRxBaseH lane => exact foldl_gotLane (List.mem_finRange lane) (.dnRxBaseH lane) (by simp [cifLaneRegs])
  | upTxBaseL lane => exact foldl_gotLane (List.mem_finRange lane) (.upTxBaseL lane) (by simp [cifLaneRegs])
  | upTxBaseH lane => exact foldl_gotLane (List.mem_finRange lane) (.upTxBaseH lane) (by simp [cifLaneRegs])
  | dnRxDdrSize => rfl
  | upTxDdrSize => rfl

/-! ### When it is right -/

/-- What is got is `f` exactly if that is what is in the registers that are read. -/
theorem got_iff {f : CifReg → BitVec 32} :
    (∃ got, (ctrlDdrBufferRun m vals .get info regs).1 = .ok got ∧ ∀ reg, got.field reg = f reg) ↔
      ∀ reg : CifReg, regs (m.offset (cifAddr reg.readFrom) 0) = f reg := by
  obtain ⟨got, hgot, hfield⟩ := ctrlDdrBufferRun_get m vals info regs
  constructor
  · rintro ⟨got', hgot', hf⟩ reg
    rw [hgot] at hgot'
    cases hgot'
    rw [← hfield, hf]
  · intro hf
    exact ⟨got, hgot, fun reg => (hfield reg).trans (hf reg)⟩

/-- The fields of each lane are equal exactly if each is equal to the one that is read. -/
theorem readFrom_iff {f : CifReg → BitVec 32} : (∀ reg : CifReg, f reg.readFrom = f reg) ↔
    ∀ lane, ∀ reg ∈ [CifReg.dnRxBaseH lane, .upTxBaseL lane, .upTxBaseH lane],
      f reg = f (.dnRxBaseL lane) := by
  constructor
  · intro h lane reg hreg
    have hfrom : reg.readFrom = .dnRxBaseL lane := by
      simp only [List.mem_cons, List.not_mem_nil, or_false] at hreg
      rcases hreg with rfl | rfl | rfl <;> rfl
    rw [← h reg, hfrom]
  · intro h reg
    cases reg with
    | dnRxBaseL lane => rfl
    | dnRxBaseH lane => exact (h lane (.dnRxBaseH lane) (by simp)).symm
    | upTxBaseL lane => exact (h lane (.upTxBaseL lane) (by simp)).symm
    | upTxBaseH lane => exact (h lane (.upTxBaseH lane) (by simp)).symm
    | dnRxDdrSize => rfl
    | upTxDdrSize => rfl

theorem ctrlDdrBufferRun_set (m : FpgaModuleInfo) (vals info : LldmaBufferRegs) (regs : StoredRegs) :
    (ctrlDdrBufferRun m vals .set info regs).2 =
      ((setLldmaBuffer m vals true).eval storedExec regs).2 := by
  rw [ctrlDdrBufferRun, ctrlDdrBuffer, if_neg (by decide), Prog.eval_bind]
  rfl

theorem ctrlDdrBufferRun_clr (m : FpgaModuleInfo) (vals info : LldmaBufferRegs) (regs : StoredRegs) :
    (ctrlDdrBufferRun m vals .clr info regs).2 =
      ((setLldmaBuffer m vals false).eval storedExec regs).2 := by
  rw [ctrlDdrBufferRun, ctrlDdrBuffer, if_neg (by decide), Prog.eval_bind]
  rfl

/-- After `SET` the constants are got exactly if those of a lane are equal. -/
theorem set_iff : (∀ info info', ∃ got, (ctrlDdrBufferRun m vals .get info'
      (ctrlDdrBufferRun m vals .set info regs).2).1 = .ok got ∧
        ∀ reg, got.field reg = vals.field reg) ↔
    ∀ reg : CifReg, vals.field reg.readFrom = vals.field reg := by
  have hset : ∀ info info', (∃ got, (ctrlDdrBufferRun m vals .get info'
      (ctrlDdrBufferRun m vals .set info regs).2).1 = .ok got ∧
        ∀ reg, got.field reg = vals.field reg) ↔
      ∀ reg : CifReg, vals.field reg.readFrom = vals.field reg := by
    intro info info'
    rw [got_iff, ctrlDdrBufferRun_set]
    refine forall_congr' fun reg => ?_
    rw [eval_setLldmaBuffer, if_pos rfl]
  exact ⟨fun h => (hset cifConstants cifConstants).mp (h _ _), fun h info info' => (hset _ _).mpr h⟩

/-- After `CLR` zeros are got. -/
theorem clr_get (m : FpgaModuleInfo) (vals : LldmaBufferRegs) (regs : StoredRegs)
    (info info' : LldmaBufferRegs) : ∃ got, (ctrlDdrBufferRun m vals .get info'
      (ctrlDdrBufferRun m vals .clr info regs).2).1 = .ok got ∧ ∀ reg, got.field reg = 0 := by
  rw [got_iff, ctrlDdrBufferRun_clr]
  intro reg
  rw [eval_setLldmaBuffer, if_neg Bool.false_ne_true]

/-- **What is got is what is there exactly if the four words of each lane are equal.** -/
theorem bufferRight_iff (m : FpgaModuleInfo) (vals : LldmaBufferRegs) (regs : StoredRegs) :
    BufferRight m vals regs ↔ BufferFair m vals regs := by
  have hconstants : (∀ reg : CifReg, vals.field reg.readFrom = vals.field reg) ↔
      ∀ lane, vals.dnRxValH lane = vals.dnRxValL lane ∧ vals.upTxValL lane = vals.dnRxValL lane ∧
        vals.upTxValH lane = vals.dnRxValL lane := by
    rw [readFrom_iff]
    simp [LldmaBufferRegs.field]
  constructor
  · intro h
    have hget : ∀ reg : CifReg, regs (m.offset (cifAddr reg.readFrom) 0) =
        regs (m.offset (cifAddr reg) 0) := got_iff.mp (h.get cifConstants)
    exact ⟨hconstants.mp (set_iff.mp h.set),
      readFrom_iff (f := fun reg => regs (m.offset (cifAddr reg) 0)) |>.mp hget⟩
  · intro h
    refine ⟨set_iff.mpr (hconstants.mpr h.constants), clr_get m vals regs, fun info => ?_⟩
    exact got_iff.mpr (readFrom_iff.mpr h.contents)

/-- The module, where it is in the devices. -/
def lldmaModule : FpgaModuleInfo := ⟨0x00010000, 0x10000⟩

/-- After `SET`, `GET` gives the address of `DN_RX` for that of `UP_TX`. -/
theorem not_bufferRight : ¬ ∀ regs : StoredRegs, BufferRight lldmaModule cifConstants regs := by
  intro h
  obtain ⟨got, hgot, hfield⟩ := (h fun _ => 0).set cifConstants cifConstants
  obtain ⟨got', hgot', hread⟩ := ctrlDdrBufferRun_get lldmaModule cifConstants cifConstants
    (ctrlDdrBufferRun lldmaModule cifConstants .set cifConstants fun _ => 0).2
  rw [hgot] at hgot'
  cases hgot'
  have hup := (hfield (.upTxBaseL 0)).symm.trans (hread (.upTxBaseL 0))
  rw [ctrlDdrBufferRun_set, eval_setLldmaBuffer] at hup
  exact absurd hup (by decide)

end HardwareDrivers.Driver
