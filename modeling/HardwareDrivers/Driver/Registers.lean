import HardwareDrivers.Driver.XpcieDevice

/-!
# The registers of the LLDMA module

`xpcie_regs_lldma.h`: on each side one register selects a channel, and the other
registers of the side are those of the selected channel.

## What is proved

* `LldmaRegs.bank_writeChannel` — a write after a selection changes the registers of
  the selected channel and no others.
-/

namespace HardwareDrivers.Driver

/-! ### The register map -/

/-- A side of the DMA engine: `RX` from the host or the network to the device, with the command
queues `enqueues[]`, or `TX`, with `dequeues[]`. -/
inductive DmaSide where
  /-- `RX`. -/
  | rx
  /-- `TX`. -/
  | tx
  deriving DecidableEq, Repr

/-- `__IS_RX_DMA`: the side whose registers a direction uses. -/
def DmaDir.side : DmaDir → DmaSide
  | .hostToDev | .d2dRx | .d2dDRx | .nwToDev => .rx
  | _ => .tx

/-- The registers of one channel, 32 bits each. -/
structure ChannelRegs where
  /-- `CH_CTRL0`: `clear`, `oe` and `ie`. -/
  ctrl0 : BitVec 32
  /-- `CH_CTRL1`: the mode. -/
  ctrl1 : BitVec 32
  /-- `Q_CTRL`: the number of descriptors or the channel of the peer. -/
  qCtrl : BitVec 32
  /-- `Q_ADDR_DN`. -/
  qAddrDn : BitVec 32
  /-- `Q_ADDR_UP`. -/
  qAddrUp : BitVec 32
  /-- `BUF_ADDR_DN`. -/
  bufAddrDn : BitVec 32
  /-- `BUF_ADDR_UP`. -/
  bufAddrUp : BitVec 32
  /-- `BUF_SIZE`. -/
  bufSize : BitVec 32
  deriving DecidableEq, Repr

/-- All registers zero. -/
def ChannelRegs.zero : ChannelRegs := ⟨0, 0, 0, 0, 0, 0, 0, 0⟩

/-- The registers of the module: what was last written, and the read-only masks. -/
structure LldmaRegs where
  /-- `RXCH_AVAIL` and `TXCH_AVAIL`: the channels that are implemented. -/
  chAvail : DmaSide → BitVec 32
  /-- `CH_SEL`: the channel the other registers of the side are of. -/
  chSel : DmaSide → ℕ
  /-- The registers of each channel. -/
  bank : DmaSide → ℕ → ChannelRegs

/-- The registers after a reset, with the masks of the two sides. -/
def LldmaRegs.reset (rxAvail txAvail : BitVec 32) : LldmaRegs where
  chAvail
    | .rx => rxAvail
    | .tx => txAvail
  chSel _ := 0
  bank _ _ := .zero

/-- `lldma_reg_write` to `CH_SEL(dir)`. -/
def LldmaRegs.writeChSel (regs : LldmaRegs) (dir : DmaDir) (chid : ℕ) : LldmaRegs :=
  { regs with chSel := Function.update regs.chSel dir.side chid }

/-- `lldma_reg_write` to a register of the selected channel. -/
def LldmaRegs.writeChannel (regs : LldmaRegs) (dir : DmaDir) (f : ChannelRegs → ChannelRegs) :
    LldmaRegs :=
  { regs with bank := fun side ch =>
      if side = dir.side ∧ ch = regs.chSel dir.side then f (regs.bank side ch)
      else regs.bank side ch }

/-- `XPCIE_FPGA_LLDMA_ENABLE_IE`. -/
def enableIe : BitVec 32 := 1

/-- `XPCIE_FPGA_LLDMA_ENABLE_OE`. -/
def enableOe : BitVec 32 := 2

/-- `XPCIE_FPGA_LLDMA_ENABLE_CLEAR`. -/
def enableClear : BitVec 32 := 4

/-- `XPCIE_FPGA_LLDMA_CH_CTRL1_INIT`. -/
def chCtrl1Init : BitVec 32 := 0

/-- `XPCIE_FPGA_LLDMA_CH_CTRL1_HOST`. -/
def chCtrl1Host : BitVec 32 := 0

/-- `XPCIE_FPGA_LLDMA_CH_CTRL1_D2D_H`. -/
def chCtrl1D2dH : BitVec 32 := 1

/-- `XPCIE_FPGA_LLDMA_CH_CTRL1_D2D_D`. -/
def chCtrl1D2dD : BitVec 32 := 2

/-! ### What a write changes -/

variable (regs : LldmaRegs) (dir : DmaDir) (chid : ℕ) (f : ChannelRegs → ChannelRegs)

@[simp] theorem LldmaRegs.chSel_writeChSel : (regs.writeChSel dir chid).chSel dir.side = chid :=
  Function.update_self ..

/-- A write changes the selected channel. -/
theorem LldmaRegs.bank_writeChannel (side : DmaSide) (ch : ℕ) :
    (regs.writeChannel dir f).bank side ch =
      if side = dir.side ∧ ch = regs.chSel dir.side then f (regs.bank side ch)
      else regs.bank side ch := rfl

end HardwareDrivers.Driver
