import HardwareDrivers.Libfpga.Dma

/-!
# Setting up channels from user space

`liblldma.c`: what the library checks before it asks the driver for a channel or for
a connection between two devices.
-/

namespace HardwareDrivers.Libfpga

open Driver

/-- `SHMEM_MIN_SIZE_BUF`. -/
def shmemMinSizeBuf : ℕ := 4096

/-- The loop of `__fpga_lldma_check_buf_valid`: shifting right, the first bit set must be the last
one. A value of `fuel` bits is `0` after `fuel` passes. -/
def onlyOneBit : ℕ → ℕ → Bool
  | 0, _ => true
  | fuel + 1, tempSize =>
    if tempSize = 0 then true
    else if tempSize % 2 = 1 then tempSize ^^^ 1 = 0
    else onlyOneBit fuel (tempSize / 2)

/-- `__fpga_lldma_check_buf_valid`: the physical address of a connection buffer. -/
def fpgaLldmaCheckBufValid (m : ShmemMaps) (va size : ℕ) : Except LibfpgaErr ℕ :=
  if size < shmemMinSizeBuf then .error .invalidArgument
  else if !onlyOneBit 32 size then .error .invalidArgument
  else if size ≠ 0 ∧ va ≠ 0 then
    let (dstPa64, chklen) := dmaPaFromVa m va size
    if dstPa64 = 0 ∨ dstPa64 % shmemBoundarySize ≠ 0 ∨ size ≠ chklen then .error .invalidAddress
    else .ok dstPa64
  else .error .invalidAddress

/-- An accepted connection buffer is translated as it is. -/
theorem fpgaLldmaCheckBufValid_ok {m : ShmemMaps} {va size pa : ℕ}
    (h : fpgaLldmaCheckBufValid m va size = .ok pa) :
    shmemMinSizeBuf ≤ size ∧ pa ≠ 0 ∧ pa % shmemBoundarySize = 0 ∧
      dmaPaFromVa m va size = (pa, size) := by
  unfold fpgaLldmaCheckBufValid at h
  split_ifs at h with h1 h2 h3
  simp only at h
  split_ifs at h with hbad
  cases h
  simp only [not_or, not_not] at hbad
  obtain ⟨hne, hmod, hlen⟩ := hbad
  exact ⟨by omega, hne, hmod, Prod.ext rfl hlen.symm⟩

end HardwareDrivers.Libfpga
