import Mathlib.Algebra.Group.Nat.Defs
import Mathlib.Logic.Function.Basic

/-!
# What the driver and the library share

The data types of `xpcie_device.h` that both sides use: the direction of a channel
and the command queue that the driver allocates and user space maps.
-/

namespace HardwareDrivers.Driver

/-- `dma_dir_t`. A 16-bit direction from user space may have no meaning. -/
inductive DmaDir where
  /-- `DMA_HOST_TO_DEV`. -/
  | hostToDev
  /-- `DMA_DEV_TO_HOST`. -/
  | devToHost
  /-- `DMA_NW_TO_DEV`. -/
  | nwToDev
  /-- `DMA_DEV_TO_NW`. -/
  | devToNw
  /-- `DMA_D2D_RX`. -/
  | d2dRx
  /-- `DMA_D2D_TX`. -/
  | d2dTx
  /-- `DMA_D2D_D_RX`. -/
  | d2dDRx
  /-- `DMA_D2D_D_TX`. -/
  | d2dDTx
  /-- Any other value. -/
  | other (value : ℕ)
  deriving DecidableEq, Repr

/-- The values of a descriptor's `op` (`libdmacommon.h`). -/
inductive CmdOp where
  /-- `CMD_INVALID`: no valid data. -/
  | invalid
  /-- `CMD_READY`: valid data, not executed. -/
  | ready
  /-- `CMD_DONE`: valid data, executed. -/
  | done
  deriving DecidableEq, Repr

/-- `fpga_desc_t`. -/
structure FpgaDesc where
  /-- `task_id`, 16 bits; `0` in a free descriptor. -/
  taskId : ℕ
  /-- `op`. -/
  op : CmdOp
  /-- `status`. -/
  status : ℕ
  /-- `len`, 32 bits. -/
  len : ℕ
  /-- `addr`, 64 bits, a physical address. -/
  addr : ℕ
  deriving DecidableEq, Repr

/-- A descriptor of zero bytes. -/
def FpgaDesc.zero : FpgaDesc := ⟨0, .invalid, 0, 0, 0⟩

/-- `fpga_queue_t`. -/
structure FpgaQueue where
  /-- `size`, the number of descriptors, 16 bits. -/
  size : ℕ
  /-- `readhead`, 16 bits. -/
  readhead : ℕ
  /-- `writehead`, 16 bits. -/
  writehead : ℕ
  /-- `ring`. -/
  ring : ℕ → FpgaDesc

/-- A queue as the driver starts it: both heads at `h` and every descriptor zero. -/
def FpgaQueue.init (size h : ℕ) : FpgaQueue := ⟨size, h, h, fun _ => .zero⟩

/-- The head after `head`, in 16 bits. -/
def FpgaQueue.nextHead (q : FpgaQueue) (head : ℕ) : ℕ :=
  let next := (head + 1) % 2 ^ 16
  if next = q.size then 0 else next

end HardwareDrivers.Driver
