import HardwareDrivers.Driver.XpcieDevice
import HardwareDrivers.Libfpga.Shmem

/-!
# The command queue calls

`libdma.c`: `fpga_enqueue` takes the descriptor under `writehead` if its `task_id` is
`0`, fills it in and marks it ready; `fpga_dequeue` waits for the descriptor under
`readhead` to be done, reads it out and clears it. The calls of one process are
modelled here as they run when no other process is in between; the steps that
processes can interleave are in `DmaShared`.
-/

namespace HardwareDrivers.Libfpga

open Driver

/-- `dmacmd_info_t`. -/
structure DmacmdInfo where
  /-- `task_id`, as the caller set it. -/
  taskId : ℕ
  /-- `data_len`. -/
  dataLen : ℕ
  /-- `data_addr`. -/
  dataAddr : ℕ
  /-- `desc_addr`, the index of the descriptor used. -/
  descAddr : ℕ
  /-- `result_status`. -/
  resultStatus : ℕ
  /-- `result_task_id`. -/
  resultTaskId : ℕ
  /-- `result_data_len`. -/
  resultDataLen : ℕ
  /-- `result_data_addr`. -/
  resultDataAddr : ℕ
  deriving DecidableEq, Repr

/-- A command of zero bytes. -/
def DmacmdInfo.zero : DmacmdInfo := ⟨0, 0, 0, 0, 0, 0, 0, 0⟩

/-- `set_dma_cmd`: the three values the caller chooses. (The rest of the function measures the
polling interval and uses the measurement for a message only.) -/
def setDmaCmd (cmd : DmacmdInfo) (taskId : BitVec 16) (dataAddr : BitVec 64) (dataLen : BitVec 32) :
    DmacmdInfo :=
  { cmd with taskId := taskId.toNat, dataLen := dataLen.toNat, dataAddr := dataAddr.toNat }

/-- `ENQUEUE_ADDR_CHECK_TYPE`. -/
inductive EnqueueAddrCheckType where
  /-- `VIRT_ADDR_WITH_CHECK`: a buffer of the shared memory library. -/
  | virtAddrWithCheck
  /-- `VIRT_ADDR_WITHOUT_CHECK`: any buffer of DPDK. -/
  | virtAddrWithoutCheck
  /-- `PHYS_ADDR`: a physical address. -/
  | physAddr
  deriving DecidableEq, Repr

/-- `SHMEM_BOUNDARY_SIZE`. -/
def shmemBoundarySize : ℕ := 1024

/-- `RTE_CACHE_LINE_SIZE`. -/
def rteCacheLineSize : ℕ := 64

/-- The checks that `__fpga_enqueue` makes before it looks for a descriptor, and the physical
address they give. -/
def enqueueAddr (pm : PageMap) (m : ShmemMaps) (cmd : DmacmdInfo) (flag : EnqueueAddrCheckType) :
    Except LibfpgaErr ℕ :=
  if cmd.dataLen < shmemBoundarySize then .error .invalidArgument
  else if cmd.dataLen % rteCacheLineSize ≠ 0 then .error .invalidArgument
  else if cmd.dataAddr = 0 then .error .invalidAddress
  else
    match flag with
    | .virtAddrWithCheck =>
      let (dstPa64, chklen) := dmaPaFromVa m cmd.dataAddr cmd.dataLen
      if dstPa64 = 0 ∨ dstPa64 % shmemBoundarySize ≠ 0 ∨ cmd.dataLen ≠ chklen then
        .error .invalidAddress
      else .ok dstPa64
    | .virtAddrWithoutCheck => .ok (pm.rteMemVirt2phy cmd.dataAddr)
    | .physAddr => .ok cmd.dataAddr

/-- What the descriptor holds once the command is ready. -/
def FpgaDesc.fill (desc : FpgaDesc) (cmd : DmacmdInfo) (dstPa64 : ℕ) : FpgaDesc :=
  { desc with
    addr := dstPa64
    len := if dstPa64 = 0 then 0 else cmd.dataLen
    taskId := cmd.taskId % 2 ^ 16
    op := .ready }

/-- `__fpga_enqueue`, undisturbed: the head has not moved when the compare-and-set runs. -/
def enqueueWith (pm : PageMap) (m : ShmemMaps) (enq : FpgaQueue) (cmd : DmacmdInfo)
    (flag : EnqueueAddrCheckType) : Except LibfpgaErr DmacmdInfo × FpgaQueue :=
  match enqueueAddr pm m cmd flag with
  | .error e => (.error e, enq)
  | .ok dstPa64 =>
    let currentHead := enq.writehead
    if (enq.ring currentHead).taskId ≠ 0 then (.error .enqueueQuefull, enq)
    else
      (.ok { cmd with descAddr := currentHead },
        { enq with
          writehead := enq.nextHead currentHead
          ring := Function.update enq.ring currentHead
            (FpgaDesc.fill (enq.ring currentHead) cmd dstPa64) })

/-- `fpga_enqueue`. -/
def fpgaEnqueue (pm : PageMap) (m : ShmemMaps) (enq : FpgaQueue) (cmd : DmacmdInfo) :=
  enqueueWith pm m enq cmd .virtAddrWithCheck

/-- `fpga_enqueue_without_addrcheck`. -/
def fpgaEnqueueWithoutAddrcheck (pm : PageMap) (m : ShmemMaps) (enq : FpgaQueue)
    (cmd : DmacmdInfo) :=
  enqueueWith pm m enq cmd .virtAddrWithoutCheck

/-- `fpga_enqueue_with_physaddr`. -/
def fpgaEnqueueWithPhysaddr (pm : PageMap) (m : ShmemMaps) (enq : FpgaQueue) (cmd : DmacmdInfo) :=
  enqueueWith pm m enq cmd .physAddr

/-- What `fpga_dequeue` reports of a descriptor. -/
def DmacmdInfo.report (cmd : DmacmdInfo) (m : ShmemMaps) (desc : FpgaDesc) : DmacmdInfo :=
  { cmd with
    resultTaskId := desc.taskId
    resultStatus := desc.status
    resultDataLen := desc.len
    resultDataAddr := if desc.addr = 0 then 0 else localPhy2virt m desc.addr }

/-- One pass of the loop of `fpga_dequeue`, undisturbed: nothing yet (`none`), or the report,
with the descriptor cleared. -/
def dequeuePass (m : ShmemMaps) (deq : FpgaQueue) (cmd : DmacmdInfo) :
    Option (DmacmdInfo × FpgaQueue) :=
  let currentHead := deq.readhead
  let desc := deq.ring currentHead
  if desc.op ≠ .done then none
  else
    some (cmd.report m desc,
      { deq with
        readhead := deq.nextHead currentHead
        ring := Function.update deq.ring currentHead .zero })

/-- `fpga_dequeue`: pass after pass, each with the maps and the queue it sees and the time in
microseconds since the first pass that found nothing, until a pass finds a descriptor or the time
reaches the timeout; `none` if these passes were not the whole call. -/
def fpgaDequeue (timeout : ℤ) (cmd : DmacmdInfo) :
    List (ShmemMaps × FpgaQueue × ℤ) → Option (Except LibfpgaErr (DmacmdInfo × FpgaQueue))
  | [] => none
  | (m, deq, usec) :: passes =>
    match dequeuePass m deq cmd with
    | some r => some (.ok r)
    | none => if timeout ≤ usec then some (.error .dequeueTimeout) else fpgaDequeue timeout cmd passes

/-- The step of the hardware: the descriptor at its own position, if it is ready, is executed. -/
def completeDesc (q : FpgaQueue) (i : ℕ) : FpgaQueue :=
  { q with ring := Function.update q.ring i { q.ring i with op := .done } }

/-! ### What the calls do -/

variable {pm : PageMap} {m : ShmemMaps} {q : FpgaQueue} {cmd : DmacmdInfo}

/-- An accepted address is the translation of the caller's, aligned, and the whole length lies in
the region it was found in. -/
theorem enqueueAddr_ok {pa : ℕ} (h : enqueueAddr pm m cmd .virtAddrWithCheck = .ok pa) :
    shmemBoundarySize ≤ cmd.dataLen ∧ cmd.dataLen % rteCacheLineSize = 0 ∧
    pa ≠ 0 ∧ pa % shmemBoundarySize = 0 ∧
    dmaPaFromVa m cmd.dataAddr cmd.dataLen = (pa, cmd.dataLen) := by
  unfold enqueueAddr at h
  split_ifs at h with h1 h2 h3
  simp only at h
  split_ifs at h with hbad
  cases h
  simp only [not_or, not_not] at hbad h2
  obtain ⟨hne, hmod, hlen⟩ := hbad
  exact ⟨by omega, h2, hne, hmod, Prod.ext rfl hlen.symm⟩

/-- `__fpga_enqueue` refuses the buffer, or finds the queue full, or fills in the next
descriptor. -/
theorem enqueueWith_cases (pm : PageMap) (m : ShmemMaps) (q : FpgaQueue) (cmd : DmacmdInfo)
    (flag : EnqueueAddrCheckType) :
    (∃ e, enqueueAddr pm m cmd flag = .error e ∧ enqueueWith pm m q cmd flag = (.error e, q)) ∨
    (∃ pa, enqueueAddr pm m cmd flag = .ok pa ∧
      ((q.ring q.writehead).taskId ≠ 0 ∧
          enqueueWith pm m q cmd flag = (.error .enqueueQuefull, q) ∨
        (q.ring q.writehead).taskId = 0 ∧
          enqueueWith pm m q cmd flag = (.ok { cmd with descAddr := q.writehead },
            { q with
              writehead := q.nextHead q.writehead
              ring := Function.update q.ring q.writehead
                (FpgaDesc.fill (q.ring q.writehead) cmd pa) }))) := by
  cases h : enqueueAddr pm m cmd flag with
  | error e => exact .inl ⟨e, rfl, by simp [enqueueWith, h]⟩
  | ok pa =>
    refine .inr ⟨pa, rfl, ?_⟩
    by_cases ht : (q.ring q.writehead).taskId = 0
    · exact .inr ⟨ht, by simp [enqueueWith, h, ht]⟩
    · exact .inl ⟨ht, by simp [enqueueWith, h, ht]⟩

/-- The result of `fpga_dequeue` is that of one of its passes. -/
theorem fpgaDequeue_ok {timeout : ℤ} {passes : List (ShmemMaps × FpgaQueue × ℤ)}
    {r : DmacmdInfo × FpgaQueue} (h : fpgaDequeue timeout cmd passes = some (.ok r)) :
    ∃ p ∈ passes, dequeuePass p.1 p.2.1 cmd = some r := by
  induction passes with
  | nil => cases h
  | cons p passes ih =>
    obtain ⟨m, deq, usec⟩ := p
    simp only [fpgaDequeue] at h
    cases hp : dequeuePass m deq cmd with
    | some r' =>
      rw [hp] at h
      cases h
      exact ⟨_, List.mem_cons_self, hp⟩
    | none =>
      simp only [hp] at h
      split_ifs at h
      · cases h
      · obtain ⟨p', hp', hr⟩ := ih h
        exact ⟨p', List.mem_cons_of_mem _ hp', hr⟩

end HardwareDrivers.Libfpga
