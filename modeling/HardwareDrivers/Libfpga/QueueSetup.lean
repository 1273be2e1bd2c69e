import HardwareDrivers.Libfpga.DeviceTable
import HardwareDrivers.Libfpga.ShmemMmap
import HardwareDrivers.Theory.Ledger

/-!
# Setting up and finishing a queue

`libdma.c`: `fpga_lldma_queue_setup` asks the devices one after another for the queue of a connector,
again and again until the timeout, maps the queue and keeps the descriptor of the device file in
`fd_ref_queue`, by device, direction and channel; `fpga_lldma_queue_finish` unmaps the queue and closes
the descriptor that it finds there. A `dma_info_t` is its caller's, and in use from a setup that
returned 0 on until it is finished.

What each device answers in each round of the search is part of a call. Descriptors and mappings are
numbered as they are made, so that what is closed and unmapped is known.
-/

namespace HardwareDrivers.Libfpga

open Theory

universe u

/-! ### The state -/

/-- `LLDMA_DIR_MAX`. -/
def lldmaDirMax : ℕ := 4

/-- `LLDMA_CH_MAX`. -/
def lldmaChMax : ℕ := 32

/-- `CONNECTOR_ID_NAME_MAX`. -/
def connectorNameMax : ℕ := 128

/-- `REFQ_TIMEOUT_MAX` and `REFQ_INTERVAL_MAX`. -/
def refqMax : ℤ := 60

/-- `sizeof(fpga_queue_t)` and `sizeof(fpga_desc_t)`. -/
def queueBytes : ℕ := 64

/-- The indices of `fd_ref_queue`. -/
abbrev QueueIndex := DevIndex × Fin lldmaDirMax × Fin lldmaChMax

/-- `dma_info_t` in use, with the descriptor that its own setup has opened. -/
structure DmaInfo where
  /-- `dev_id`, `dir` and `chid`. -/
  index : QueueIndex
  /-- `queue_addr`; `none` is `MAP_FAILED`. -/
  queueAddr : Option ℕ
  /-- `queue_size`. -/
  queueSize : ℕ
  /-- The descriptor, which is in no field. -/
  fd : ℕ
  deriving DecidableEq

variable (ι : Type u)

/-- The variables of `libdma.c` for the setup, with the descriptors and mappings. -/
structure RefQueueState where
  /-- The variables of the callers that are in use. -/
  infos : ι → Option DmaInfo
  /-- `fd_ref_queue`; an entry that was not written is 0. -/
  fdRefQueue : QueueIndex → Option ℕ
  /-- `libdma_refqueue_polling_timeout`. -/
  timeout : ℕ
  /-- `libdma_refqueue_polling_interval`. -/
  interval : ℕ
  /-- What `open` gave and `close` got. -/
  fds : Ledger
  /-- What `mmap` gave and `munmap` got. -/
  maps : Ledger
  /-- The length that was mapped. -/
  mapLength : ℕ → ℕ
  /-- The mappings and lengths that were unmapped. -/
  unmapped : List (ℕ × ℕ)

/-- At the start: 20 seconds, with a round each second. -/
def RefQueueState.init : RefQueueState ι where
  infos := fun _ => none
  fdRefQueue := fun _ => none
  timeout := 20
  interval := 1
  fds := .empty
  maps := .empty
  mapLength := fun _ => 0
  unmapped := []

variable {ι}

namespace RefQueueState

/-- `open`. -/
def openFd (s : RefQueueState ι) : RefQueueState ι := { s with fds := s.fds.acquire }

/-- `close`; 0 is not a descriptor of this library. -/
def closeFd (s : RefQueueState ι) : Option ℕ → RefQueueState ι
  | none => s
  | some fd => { s with fds := s.fds.release fd }

/-- `mmap`. -/
def mmap (s : RefQueueState ι) (length : ℕ) : RefQueueState ι :=
  { s with
    maps := s.maps.acquire
    mapLength := Function.update s.mapLength s.maps.next length }

/-- `munmap`; nothing is mapped at `MAP_FAILED`. -/
def munmap (s : RefQueueState ι) (addr : Option ℕ) (length : ℕ) : RefQueueState ι :=
  match addr with
  | none => s
  | some m => { s with maps := s.maps.release m, unmapped := (m, length) :: s.unmapped }

/-- The fields of a variable are written without a setup that returns 0; if it was not in use, it is
not. -/
def overwrite [DecidableEq ι] (s : RefQueueState ι) (i : ι) (index : QueueIndex)
    (queueAddr : Option ℕ) (queueSize : ℕ) : RefQueueState ι :=
  match s.infos i with
  | none => s
  | some info =>
    { s with infos := Function.update s.infos i (some ⟨index, queueAddr, queueSize, info.fd⟩) }

end RefQueueState

/-! ### The search -/

/-- What `mmap` returns. -/
inductive MmapResult where
  /-- `NULL`. -/
  | null
  /-- `MAP_FAILED`. -/
  | failed
  /-- An address. -/
  | mapped
  deriving DecidableEq

/-- What `XPCIE_DEV_LLDMA_BIND_QUEUE` gives. -/
structure BoundQueue where
  /-- `dir`. -/
  dir : Fin lldmaDirMax
  /-- `chid`. -/
  chid : Fin lldmaChMax
  /-- `map_size`. -/
  mapSize : ℕ
  /-- The driver allocates a header and whole descriptors (`queue_que_init`). -/
  size_eq : ∃ size < 2 ^ 16, mapSize = queueBytes + queueBytes * size

/-- What a device answers in a round. -/
structure DeviceAnswer where
  /-- `fpga_get_device` finds it. -/
  present : Bool
  /-- Its file can be opened. -/
  opens : Bool
  /-- It has the connector. -/
  bind : Option BoundQueue
  /-- What `mmap` returns. -/
  mmap : MmapResult
  /-- There is memory for `connector_id`. -/
  strdup : Bool

/-- The answers of all devices in each round. -/
abbrev Answers := ℕ → DevIndex → DeviceAnswer

variable [DecidableEq ι]

/-- `fpga_lldma_queue_setup` with the queue bound and mapped. -/
def setupBound (i : ι) (devId : DevIndex) (bound : BoundQueue) (strdup : Bool) (tmpfd : ℕ)
    (mmapAddr : Option ℕ) (s : RefQueueState ι) : Except LibfpgaErr Unit × RefQueueState ι :=
  let index : QueueIndex := (devId, bound.dir, bound.chid)
  let queueSize := (bound.mapSize - queueBytes) / queueBytes
  if strdup = false then
    (.error .failureMemoryAlloc, (s.overwrite i index mmapAddr queueSize).closeFd (some tmpfd))
  else
    (.ok (), { s with
      infos := Function.update s.infos i (some ⟨index, mmapAddr, queueSize, tmpfd⟩)
      fdRefQueue := Function.update s.fdRefQueue index (some tmpfd) })

/-- The body of the loop over the devices; `none` if the search goes on. -/
def pollDevice (i : ι) (devId : DevIndex) (answer : DeviceAnswer) (s : RefQueueState ι) :
    Option (Except LibfpgaErr Unit) × RefQueueState ι :=
  if answer.present = false then (none, s)
  else if answer.opens = false then (some (.error .failureDeviceOpen), s)
  else
    let tmpfd := s.fds.next
    let s := s.openFd
    match answer.bind with
    | none => (none, s.closeFd (some tmpfd))
    | some bound =>
      match answer.mmap with
      | .null => (some (.error .failureMmap), s.closeFd (some tmpfd))
      | .failed =>
        let r := setupBound i devId bound answer.strdup tmpfd none s
        (some r.1, r.2)
      | .mapped =>
        let r := setupBound i devId bound answer.strdup tmpfd (some s.maps.next)
          (s.mmap bound.mapSize)
        (some r.1, r.2)

/-- The loop over the devices. -/
def pollRound (i : ι) (answers : DevIndex → DeviceAnswer) :
    List DevIndex → RefQueueState ι → Option (Except LibfpgaErr Unit) × RefQueueState ι
  | [], s => (none, s)
  | devId :: devIds, s =>
    match pollDevice i devId (answers devId) s with
    | (some r, s) => (some r, s)
    | (none, s) => pollRound i answers devIds s

/-- The loop until the timeout, from `passed_sec` and a round on; `none` if the fuel is not
enough. Timeout and interval are at most 60, so `passed_sec` does not overflow. -/
def setupLoop (i : ι) (answers : Answers) :
    ℕ → ℕ → ℕ → RefQueueState ι → Option (Except LibfpgaErr Unit × RefQueueState ι)
  | 0, _, _, _ => none
  | fuel + 1, passedSec, round, s =>
    if passedSec < s.timeout then
      match pollRound i (answers round) (List.finRange fpgaMaxDevices) s with
      | (some r, s) => some (r, s)
      | (none, s) => setupLoop i answers fuel (passedSec + s.interval) (round + 1) s
    else some (.error .connectorIdMismatch, s)

/-- The arguments of `fpga_lldma_queue_setup` that are not refused. -/
def connectorOk : Option CString → Bool
  | none => false
  | some connectorId => 0 < connectorId.length && connectorId.length < connectorNameMax

/-- `fpga_lldma_queue_setup`. -/
def fpgaLldmaQueueSetup (connectorId : Option CString) (info : Option ι) (answers : Answers)
    (fuel : ℕ) (s : RefQueueState ι) : Option (Except LibfpgaErr Unit × RefQueueState ι) :=
  match info with
  | none => some (.error .invalidArgument, s)
  | some i =>
    if connectorOk connectorId = false then some (.error .invalidArgument, s)
    else setupLoop i answers fuel 0 0 s

/-- `fpga_lldma_queue_finish`. -/
def fpgaLldmaQueueFinish (info : Option ι) (s : RefQueueState ι) :
    Except LibfpgaErr Unit × RefQueueState ι :=
  match info with
  | none => (.error .invalidArgument, s)
  | some i =>
    match s.infos i with
    | none => (.ok (), s)
    | some info =>
      let s := s.munmap info.queueAddr (queueBytes + queueBytes * info.queueSize)
      let s := s.closeFd (s.fdRefQueue info.index)
      (.ok (), { s with infos := Function.update s.infos i none })

/-- `fpga_set_refqueue_polling_timeout`. -/
def fpgaSetRefqueuePollingTimeout (timeout : ℤ) (s : RefQueueState ι) : RefQueueState ι :=
  if timeout > refqMax ∨ timeout < 0 then s else { s with timeout := timeout.toNat }

/-- `fpga_set_refqueue_polling_interval`. -/
def fpgaSetRefqueuePollingInterval (interval : ℤ) (s : RefQueueState ι) : RefQueueState ι :=
  if interval > refqMax ∨ interval < 0 then s else { s with interval := interval.toNat }

/-! ### Calls -/

/-- A call. -/
inductive QueueCall (ι : Type u) where
  /-- `fpga_lldma_queue_setup`. -/
  | setup (connectorId : Option CString) (info : Option ι) (answers : Answers)
  /-- `fpga_lldma_queue_finish`. -/
  | finish (info : Option ι)
  /-- `fpga_set_refqueue_polling_timeout`. -/
  | setTimeout (timeout : ℤ)
  /-- `fpga_set_refqueue_polling_interval`. -/
  | setInterval (interval : ℤ)

/-- A call: what it returns and the state, if the fuel is enough. -/
def QueueCall.exec (fuel : ℕ) (s : RefQueueState ι) :
    QueueCall ι → Option (Except LibfpgaErr Unit × RefQueueState ι)
  | .setup connectorId info answers => fpgaLldmaQueueSetup connectorId info answers fuel s
  | .finish info => some (fpgaLldmaQueueFinish info s)
  | .setTimeout timeout => some (.ok (), fpgaSetRefqueuePollingTimeout timeout s)
  | .setInterval interval => some (.ok (), fpgaSetRefqueuePollingInterval interval s)

/-- A variable is finished that was got by a setup. -/
def QueueCall.Valid (s : RefQueueState ι) : QueueCall ι → Prop
  | .finish (some i) => (s.infos i).isSome
  | _ => True

instance QueueCall.decidableValid (s : RefQueueState ι) :
    ∀ call : QueueCall ι, Decidable (call.Valid s)
  | .finish (some i) => inferInstanceAs (Decidable ((s.infos i).isSome = true))
  | .setup .. | .finish none | .setTimeout _ | .setInterval _ => isTrue trivial

/-- The step of a call that returns with the fuel. -/
def refQueueStep (s : RefQueueState ι) (call : QueueCall ι × ℕ) : Option (RefQueueState ι) :=
  if call.1.Valid s then (call.1.exec call.2 s).map Prod.snd else none

end HardwareDrivers.Libfpga
