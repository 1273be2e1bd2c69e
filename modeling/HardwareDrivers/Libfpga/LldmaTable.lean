import HardwareDrivers.Driver.LldmaIoctl
import HardwareDrivers.Libfpga.Lldma

/-!
# The descriptors behind the channels

`liblldma.c`: a channel stays with the file that asked for it, so the library opens the
device again for each channel and keeps the descriptor in `fd_get_queue` until the
channel is given back. Any call of the kernel on the way may fail.
-/

namespace HardwareDrivers.Libfpga

open Theory Driver

/-! ### The process and the kernel -/

/-- An open descriptor of a device: the device and `xpcie_file_private`. -/
structure OpenFile where
  /-- The device. -/
  devId : ℕ
  /-- The private data in the driver. -/
  priv : XpcieFilePrivate
  deriving DecidableEq

/-- `[dev_id][dir][chid]`, an index of the table. -/
abbrev QueueSlot := ℕ × DmaDir × Chid

/-- The process, its descriptors and the devices. -/
structure LldmaProcess where
  /-- `fpga_get_device` finds the device. -/
  present : ℕ → Bool
  /-- `fd_get_queue`; `none` for `-1`. -/
  fdGetQueue : QueueSlot → Option ℕ
  /-- The descriptors that are open on a device. -/
  fds : ℕ → Option OpenFile
  /-- The devices in the driver. -/
  devs : ℕ → FpgaDevInfo
  /-- How often a number was closed that was not open. -/
  badCloses : ℕ

/-- The errors of a call of the kernel on a descriptor. -/
inductive KernelErr where
  /-- `EBADF`: the descriptor is not open. -/
  | ebadf
  /-- What the driver returns. -/
  | driver (e : Errno)
  deriving DecidableEq

/-- An assignment to the table. -/
def LldmaProcess.setEntry (p : LldmaProcess) (slot : QueueSlot) (fd : Option ℕ) : LldmaProcess :=
  { p with fdGetQueue := Function.update p.fdGetQueue slot fd }

/-- The descriptor `open` gives: the kernel may fail, and it gives no number that is open. -/
def LldmaProcess.opens (p : LldmaProcess) (answer : Option ℕ) : Option ℕ :=
  answer.filter fun fd => (p.fds fd).isNone

/-- The process with one more descriptor. -/
def LldmaProcess.opened (p : LldmaProcess) (devId fd : ℕ) : LldmaProcess :=
  { p with fds := Function.update p.fds fd (some ⟨devId, none⟩) }

/-- `fpgautil_open` of a device. -/
def LldmaProcess.fpgautilOpen (p : LldmaProcess) (devId : ℕ) (answer : Option ℕ) :
    Option ℕ × LldmaProcess :=
  match p.opens answer with
  | none => (none, p)
  | some fd => (some fd, p.opened devId fd)

/-- The process with another state of a descriptor and of its device. -/
def LldmaProcess.setFile (p : LldmaProcess) (fd devId : ℕ) (file : Option OpenFile)
    (dev : FpgaDevInfo) : LldmaProcess :=
  { p with fds := Function.update p.fds fd file, devs := Function.update p.devs devId dev }

/-- `fpgautil_close`; `monitor` is what the driver polls if the file got a channel. -/
def LldmaProcess.fpgautilClose (p : LldmaProcess) (fd : ℕ) (monitor : ℕ → BitVec 32) :
    LldmaProcess :=
  match p.fds fd with
  | none => { p with badCloses := p.badCloses + 1 }
  | some file =>
    p.setFile fd file.devId none (xpcieCdevRelease (p.devs file.devId) file.priv monitor)

/-- `fpgautil_ioctl` with a command that sets up or tears down a channel. -/
def LldmaProcess.fpgautilIoctl (p : LldmaProcess) (fd : ℕ) (env : CallEnv) (cmd : LldmaCmd) :
    Except KernelErr Unit × LldmaProcess :=
  match p.fds fd with
  | none => (.error .ebadf, p)
  | some file =>
    let (r, dev, priv) := xpcieFpgaIoctlLldma (p.devs file.devId) file.priv env cmd
    ((r.map fun _ => ()).mapError .driver, p.setFile fd file.devId (some ⟨file.devId, priv⟩) dev)

/-! ### The calls -/

/-- What `__fpga_lldma_check_queue` meets outside. -/
structure CheckEnv where
  /-- The number that `open` would give. -/
  fd : Option ℕ
  /-- `copy_from_user` works. -/
  copyFromUser : Bool
  /-- `copy_to_user` works. -/
  copyToUser : Bool
  /-- What the hardware shows in `RXCH_ACTIVE` or `TXCH_ACTIVE`. -/
  activeStatus : BitVec 32
  /-- What the driver polls when the file is closed. -/
  release : ℕ → BitVec 32

/-- `XPCIE_DEV_LLDMA_GET_CH_STAT`: `avail_status` and `active_status`. -/
def LldmaProcess.getChStat (p : LldmaProcess) (fd : ℕ) (dir : DmaDir) (env : CheckEnv) :
    Except KernelErr (BitVec 32 × BitVec 32) :=
  match p.fds fd with
  | none => .error .ebadf
  | some file =>
    if env.copyFromUser = false then .error (.driver .efault)
    else if env.copyToUser = false then .error (.driver .efault)
    else .ok ((p.devs file.devId).regs.chAvail dir.side, env.activeStatus)

/-- `__fpga_lldma_check_queue`, with the descriptor that is in the table afterwards. -/
def fpgaLldmaCheckQueue (p : LldmaProcess) (slot : QueueSlot) (env : CheckEnv) :
    Except LibfpgaErr ℕ × LldmaProcess :=
  let (opened, p) := p.fpgautilOpen slot.1 env.fd
  let p := p.setEntry slot opened
  match opened with
  | none => (.error .failureDeviceOpen, p)
  | some fd =>
    match p.getChStat fd slot.2.1 env with
    | .error _ => (.error .failureIoctl, p.fpgautilClose fd env.release)
    | .ok (availStatus, activeStatus) =>
      if availStatus.getLsbD slot.2.2 = false then
        (.error .unavailableChid, p.fpgautilClose fd env.release)
      else if activeStatus.getLsbD slot.2.2 then
        (.error .alreadyActiveChid, p.fpgautilClose fd env.release)
      else (.ok fd, p)

/-- `dir < LLDMA_DIR_MAX`. -/
def DirInRange (dir : DmaDir) : Prop :=
  dir = .hostToDev ∨ dir = .devToHost ∨ dir = .nwToDev ∨ dir = .devToNw

instance (dir : DmaDir) : Decidable (DirInRange dir) := inferInstanceAs (Decidable (_ ∨ _))

/-- What `fpga_lldma_init` meets outside. -/
structure InitEnv where
  /-- Before the channel is asked for. -/
  check : CheckEnv
  /-- `XPCIE_DEV_LLDMA_ALLOC_QUEUE`. -/
  alloc : CallEnv
  /-- `strdup` gets its memory. -/
  strdup : Bool
  /-- What the driver polls when the file is closed. -/
  release : ℕ → BitVec 32

/-- `fpga_lldma_init`; the name is `none` if it is `NULL` or does not fit. -/
def fpgaLldmaInit (p : LldmaProcess) (slot : QueueSlot) (connectorId : Option ConnectorId)
    (env : InitEnv) : Except LibfpgaErr Unit × LldmaProcess :=
  if p.present slot.1 = false ∨ ¬ DirInRange slot.2.1 then (.error .invalidArgument, p)
  else
    match connectorId with
    | none => (.error .invalidArgument, p)
    | some connectorId =>
      match fpgaLldmaCheckQueue p slot env.check with
      | (.error e, p) => (.error e, p)
      | (.ok fd, p) =>
        match p.fpgautilIoctl fd env.alloc (.allocQueue ⟨slot.2.1, slot.2.2, 0, connectorId⟩) with
        | (.error e, p) =>
          (.error (if e = .driver .ebusy then .alreadyAssigned else .failureIoctl),
            p.fpgautilClose fd env.release)
        | (.ok _, p) =>
          if env.strdup = false then (.error .failureMemoryAlloc, p.fpgautilClose fd env.release)
          else (.ok (), p)

/-- What `fpga_lldma_finish` meets outside. -/
structure FinishEnv where
  /-- `XPCIE_DEV_LLDMA_FREE_QUEUE`. -/
  free : CallEnv
  /-- What the driver polls when the file is closed. -/
  release : ℕ → BitVec 32

/-- `fpga_lldma_finish`; the name in the request is zero. -/
def fpgaLldmaFinish (p : LldmaProcess) (slot : QueueSlot) (env : FinishEnv) :
    Except LibfpgaErr Unit × LldmaProcess :=
  match p.fdGetQueue slot with
  | none => (.error .invalidArgument, p)
  | some fd =>
    match p.fpgautilIoctl fd env.free (.freeQueue ⟨slot.2.1, slot.2.2, 0, .empty⟩) with
    | (.error e, p) =>
      (.error (if e = .driver .ebusy then .invalidArgument else .failureIoctl),
        p.fpgautilClose fd env.release)
    | (.ok _, p) => (.ok (), (p.fpgautilClose fd env.release).setEntry slot none)

/-- `fpga_lldma_connect_t`; the name is `none` if it is `NULL` or does not fit. -/
structure FpgaLldmaConnect where
  /-- `tx_dev_id`. -/
  txDevId : ℕ
  /-- `tx_chid`. -/
  txChid : Chid
  /-- `rx_dev_id`. -/
  rxDevId : ℕ
  /-- `rx_chid`. -/
  rxChid : Chid
  /-- `buf_size`. -/
  bufSize : BitVec 32
  /-- `buf_addr`. -/
  bufAddr : ℕ
  /-- `connector_id`. -/
  connectorId : Option ConnectorId

/-- `[tx_dev_id][DMA_DEV_TO_HOST][tx_chid]`. -/
def FpgaLldmaConnect.txSlot (info : FpgaLldmaConnect) : QueueSlot :=
  (info.txDevId, .devToHost, info.txChid)

/-- `[rx_dev_id][DMA_HOST_TO_DEV][rx_chid]`. -/
def FpgaLldmaConnect.rxSlot (info : FpgaLldmaConnect) : QueueSlot :=
  (info.rxDevId, .hostToDev, info.rxChid)

/-- What `__fpga_lldma_buf_connect` meets outside. -/
structure ConnectEnv where
  /-- Before the `TX` channel is asked for. -/
  tx : CheckEnv
  /-- Before the `RX` channel is asked for. -/
  rx : CheckEnv
  /-- `XPCIE_DEV_LLDMA_ALLOC_CONNECTION` for `TX`. -/
  txAlloc : CallEnv
  /-- `XPCIE_DEV_LLDMA_ALLOC_CONNECTION` for `RX`. -/
  rxAlloc : CallEnv
  /-- `XPCIE_DEV_LLDMA_FREE_CONNECTION` for `TX`. -/
  txFree : CallEnv
  /-- What the driver polls when the file of `TX` is closed. -/
  txRelease : ℕ → BitVec 32
  /-- What the driver polls when the file of `RX` is closed. -/
  rxRelease : ℕ → BitVec 32

/-- What the library makes of an error of `XPCIE_DEV_LLDMA_ALLOC_CONNECTION`. -/
def connectErr (e : KernelErr) : LibfpgaErr :=
  if e = .driver .einval then .invalidArgument else .failureIoctl

/-- The request for the `TX` channel. -/
def FpgaLldmaConnect.txConnect (info : FpgaLldmaConnect) (p : LldmaProcess) (dstPa64 : BitVec 64)
    (connectorId : ConnectorId) : FpgaIoctlConnect :=
  ⟨.tx, info.txChid, BitVec.ofNat 32 info.rxChid, (p.devs info.rxDevId).devId, info.bufSize,
    dstPa64, connectorId⟩

/-- The request for the `RX` channel. -/
def FpgaLldmaConnect.rxConnect (info : FpgaLldmaConnect) (p : LldmaProcess) (dstPa64 : BitVec 64)
    (connectorId : ConnectorId) : FpgaIoctlConnect :=
  ⟨.rx, info.rxChid, BitVec.ofNat 32 info.txChid, (p.devs info.txDevId).devId, info.bufSize,
    dstPa64, connectorId⟩

/-- The requests of `__fpga_lldma_buf_connect`, on the two descriptors in the table. -/
def requestChannels (p : LldmaProcess) (info : FpgaLldmaConnect) (dstPa64 : BitVec 64)
    (connectorId : ConnectorId) (env : ConnectEnv) (txFd rxFd : ℕ) :
    Except LibfpgaErr Unit × LldmaProcess :=
  match p.fpgautilIoctl txFd env.txAlloc
    (.allocConnection (info.txConnect p dstPa64 connectorId)) with
  | (.error e, p) =>
    (.error (connectErr e), (p.fpgautilClose txFd env.txRelease).setEntry info.txSlot none)
  | (.ok _, p) =>
    match p.fpgautilIoctl rxFd env.rxAlloc
      (.allocConnection (info.rxConnect p dstPa64 connectorId)) with
    | (.error e, p) =>
      let p := (p.fpgautilClose rxFd env.rxRelease).setEntry info.rxSlot none
      let (_, p) := p.fpgautilIoctl txFd env.txFree .freeConnection
      (.error (connectErr e), (p.fpgautilClose txFd env.txRelease).setEntry info.txSlot none)
    | (.ok _, p) => (.ok (), p)

/-- `__fpga_lldma_buf_connect`. -/
def fpgaLldmaBufConnectBody (p : LldmaProcess) (info : FpgaLldmaConnect) (dstPa64 : BitVec 64)
    (connectorId : ConnectorId) (env : ConnectEnv) : Except LibfpgaErr Unit × LldmaProcess :=
  match fpgaLldmaCheckQueue p info.txSlot env.tx with
  | (.error e, p) => (.error e, p)
  | (.ok txFd, p) =>
    match fpgaLldmaCheckQueue p info.rxSlot env.rx with
    | (.error e, p) => (.error e, p)
    | (.ok rxFd, p) => requestChannels p info dstPa64 connectorId env txFd rxFd

/-- What both ways of connecting check: the name with its NUL is shorter than the field, and the
devices are two. -/
def FpgaLldmaConnect.accepted (info : FpgaLldmaConnect) (p : LldmaProcess) : Option ConnectorId :=
  info.connectorId.filter fun id =>
    id.bytes.length + 1 < connectorIdNameMax ∧ p.present info.txDevId ∧ p.present info.rxDevId ∧
      info.txDevId ≠ info.rxDevId

/-- `fpga_lldma_buf_connect`. -/
def fpgaLldmaBufConnect (p : LldmaProcess) (m : ShmemMaps) (info : FpgaLldmaConnect)
    (env : ConnectEnv) : Except LibfpgaErr Unit × LldmaProcess :=
  match info.accepted p with
  | none => (.error .invalidArgument, p)
  | some connectorId =>
    match fpgaLldmaCheckBufValid m info.bufAddr info.bufSize.toNat with
    | .error _ => (.error .invalidArgument, p)
    | .ok dstPa64 => fpgaLldmaBufConnectBody p info (BitVec.ofNat 64 dstPa64) connectorId env

/-- `fpga_lldma_direct_connect`. -/
def fpgaLldmaDirectConnect (p : LldmaProcess) (info : FpgaLldmaConnect) (env : ConnectEnv) :
    Except LibfpgaErr Unit × LldmaProcess :=
  match info.accepted p with
  | none => (.error .invalidArgument, p)
  | some connectorId => fpgaLldmaBufConnectBody p info 0 connectorId env

/-- What one side of `__fpga_lldma_buf_disconnect` meets outside. -/
structure DisconnectEnv where
  /-- `XPCIE_DEV_LLDMA_FREE_CONNECTION`. -/
  free : CallEnv
  /-- What the driver polls when the file is closed. -/
  release : ℕ → BitVec 32

/-- One side of `__fpga_lldma_buf_disconnect`, with what `ret` becomes. -/
def disconnectSide (p : LldmaProcess) (slot : QueueSlot) (env : DisconnectEnv)
    (ret : Except LibfpgaErr Unit) : Except LibfpgaErr Unit × LldmaProcess :=
  match p.fdGetQueue slot with
  | none => (.error .invalidArgument, p)
  | some fd =>
    match p.fpgautilIoctl fd env.free .freeConnection with
    | (.error _, p) => (.error .failureIoctl, (p.fpgautilClose fd env.release).setEntry slot none)
    | (.ok _, p) => (ret, (p.fpgautilClose fd env.release).setEntry slot none)

/-- `fpga_lldma_buf_disconnect`, and `fpga_lldma_direct_disconnect`. -/
def fpgaLldmaBufDisconnect (p : LldmaProcess) (info : FpgaLldmaConnect) (rx tx : DisconnectEnv) :
    Except LibfpgaErr Unit × LldmaProcess :=
  if p.present info.txDevId = false ∨ p.present info.rxDevId = false then
    (.error .invalidArgument, p)
  else
    let (ret, p) := disconnectSide p info.rxSlot rx (.ok ())
    disconnectSide p info.txSlot tx ret

/-- A call of the process. -/
inductive LldmaCall where
  /-- `fpga_lldma_init`. -/
  | init (slot : QueueSlot) (connectorId : Option ConnectorId) (env : InitEnv)
  /-- `fpga_lldma_finish`. -/
  | finish (slot : QueueSlot) (env : FinishEnv)
  /-- `fpga_lldma_buf_connect`. -/
  | bufConnect (m : ShmemMaps) (info : FpgaLldmaConnect) (env : ConnectEnv)
  /-- `fpga_lldma_direct_connect`. -/
  | directConnect (info : FpgaLldmaConnect) (env : ConnectEnv)
  /-- `fpga_lldma_buf_disconnect` and `fpga_lldma_direct_disconnect`. -/
  | bufDisconnect (info : FpgaLldmaConnect) (rx tx : DisconnectEnv)

/-- The result of a call, and the process after it. -/
def lldmaCall (p : LldmaProcess) : LldmaCall → Except LibfpgaErr Unit × LldmaProcess
  | .init slot connectorId env => fpgaLldmaInit p slot connectorId env
  | .finish slot env => fpgaLldmaFinish p slot env
  | .bufConnect m info env => fpgaLldmaBufConnect p m info env
  | .directConnect info env => fpgaLldmaDirectConnect p info env
  | .bufDisconnect info rx tx => fpgaLldmaBufDisconnect p info rx tx

/-- One call after another. -/
def lldmaStep (p : LldmaProcess) (call : LldmaCall) : Option LldmaProcess :=
  some (lldmaCall p call).2

/-! ### What the table is to say -/

/-- The direction of the table for a channel bound in a direction. -/
def tableDir : DmaDir → DmaDir
  | .d2dRx | .d2dDRx => .hostToDev
  | .d2dTx | .d2dDTx => .devToHost
  | dir => dir

/-- The channel that the file got in the driver. -/
def OpenFile.slot (file : OpenFile) : Option QueueSlot :=
  match file.priv with
  | some ⟨queKind, chid, true⟩ => some (file.devId, tableDir queKind, chid)
  | _ => none

/-- The channel that an open descriptor owns. -/
def LldmaProcess.ownedSlot (p : LldmaProcess) (fd : ℕ) : Option QueueSlot :=
  (p.fds fd).bind OpenFile.slot

/-- An entry is a number exactly when the number is that of an open descriptor that owns the
channel of the entry. -/
def LldmaProcess.Recorded (p : LldmaProcess) : Prop :=
  ∀ slot, (p.fdGetQueue slot).isSome ↔
    ∃ fd, p.fdGetQueue slot = some fd ∧ p.ownedSlot fd = some slot

/-- The process owns the channel of the driver. -/
def LldmaProcess.OwnsChannel (p : LldmaProcess) (devId : ℕ) (side : DmaSide) (chid : Chid) : Prop :=
  ∃ fd dir, p.ownedSlot fd = some (devId, dir, chid) ∧ dir.side = side

/-- The channel is in use as before, under the same name if it is. -/
def SameChannel (info info' : FpgaQueueEnqdeq) : Prop :=
  info'.status = info.status ∧ (info.status = .used → info'.connectorId = info.connectorId)

/-- What a call is to do to the table, given what comes out of it. -/
structure KeepsTable (p : LldmaProcess) (out : Except LibfpgaErr Unit × LldmaProcess) : Prop where
  /-- The table agrees with the driver. -/
  recorded : out.2.Recorded
  /-- A failure leaves the table. -/
  table : out.1 ≠ .ok () → out.2.fdGetQueue = p.fdGetQueue
  /-- A failure leaves the descriptors. -/
  fds : out.1 ≠ .ok () → out.2.fds = p.fds
  /-- A failure leaves the channels of others. -/
  channels : out.1 ≠ .ok () → ∀ devId side chid, ¬ p.OwnsChannel devId side chid →
    SameChannel ((p.devs devId).queues side chid) ((out.2.devs devId).queues side chid)
  /-- Only open descriptors are closed. -/
  closes : out.2.badCloses = p.badCloses

/-! ### When it does -/

variable (p : LldmaProcess)

/-- Nothing on the way through `__fpga_lldma_check_queue` fails. -/
structure CheckPasses (slot : QueueSlot) (env : CheckEnv) : Prop where
  /-- `open`. -/
  opens : (p.opens env.fd).isSome
  /-- `copy_from_user`. -/
  copyFromUser : env.copyFromUser = true
  /-- `copy_to_user`. -/
  copyToUser : env.copyToUser = true
  /-- The channel is implemented. -/
  avail : (p.devs slot.1).regs.chAvail slot.2.1.side |>.getLsbD slot.2.2
  /-- The channel is not active. -/
  inactive : env.activeStatus.getLsbD slot.2.2 = false

/-- The device cannot be opened, and there was no descriptor in the table. -/
def FailsAtOnce (slot : QueueSlot) (env : CheckEnv) : Prop :=
  p.opens env.fd = none ∧ p.fdGetQueue slot = none

/-- The channel of the driver is free. -/
def ChannelFree (slot : QueueSlot) : Prop :=
  ((p.devs slot.1).queues slot.2.1.side slot.2.2).status = .free

/-- `XPCIE_DEV_LLDMA_ALLOC_CONNECTION` does not fail on the way to the channel. -/
def Connects (selfDev peerDev : ℕ) (env : CallEnv) : Prop :=
  env.copyFromUser = true ∧ (p.devs selfDev).devId ≠ (p.devs peerDev).devId ∧
    env.baseaddr (p.devs peerDev).devId ≠ 0

/-- `__fpga_lldma_buf_connect` opens no device, or nothing fails, or only the last step does while
there was no descriptor in the table. -/
def ConnectMeets (info : FpgaLldmaConnect) (env : ConnectEnv) : Prop :=
  FailsAtOnce p info.txSlot env.tx ∨
    CheckPasses p info.txSlot env.tx ∧ CheckPasses p info.rxSlot env.rx ∧ env.rx.fd ≠ env.tx.fd ∧
      Connects p info.txDevId info.rxDevId env.txAlloc ∧ ChannelFree p info.txSlot ∧
      (Connects p info.rxDevId info.txDevId env.rxAlloc ∧ ChannelFree p info.rxSlot ∨
        p.fdGetQueue info.txSlot = none ∧ p.fdGetQueue info.rxSlot = none)

/-- The condition on a call. -/
def LldmaCall.Meets : LldmaCall → Prop
  | .init slot connectorId env =>
    p.present slot.1 = true → DirInRange slot.2.1 → connectorId ≠ none →
      FailsAtOnce p slot env.check ∨
        CheckPasses p slot env.check ∧ ChannelFree p slot ∧ env.alloc.copyFromUser = true ∧
          env.alloc.copyToUser = true ∧ env.strdup = true
  | .finish slot env =>
    ∀ fd ∈ p.fdGetQueue slot, env.free.copyFromUser = true ∧
      ((p.fds fd).bind OpenFile.priv).map FileBinding.queKind = some slot.2.1 ∧
      ¬ TimesOut env.free.monitor
  | .bufConnect m info env =>
    info.accepted p ≠ none →
      (fpgaLldmaCheckBufValid m info.bufAddr info.bufSize.toNat).isOk = true →
        ConnectMeets p info env
  | .directConnect info env => info.accepted p ≠ none → ConnectMeets p info env
  | .bufDisconnect info rx tx =>
    p.present info.txDevId = true → p.present info.rxDevId = true →
      p.fdGetQueue info.rxSlot = none ∧ p.fdGetQueue info.txSlot = none ∨
        (p.fdGetQueue info.rxSlot ≠ none ∧ p.fdGetQueue info.txSlot ≠ none ∧
          ¬ TimesOut rx.free.monitor ∧ ¬ TimesOut tx.free.monitor)

instance (slot : QueueSlot) (env : CheckEnv) : Decidable (CheckPasses p slot env) :=
  decidable_of_iff ((p.opens env.fd).isSome ∧ env.copyFromUser = true ∧ env.copyToUser = true ∧
      ((p.devs slot.1).regs.chAvail slot.2.1.side).getLsbD slot.2.2 = true ∧
      env.activeStatus.getLsbD slot.2.2 = false)
    ⟨fun ⟨h₁, h₂, h₃, h₄, h₅⟩ => ⟨h₁, h₂, h₃, h₄, h₅⟩,
      fun ⟨h₁, h₂, h₃, h₄, h₅⟩ => ⟨h₁, h₂, h₃, h₄, h₅⟩⟩

instance (slot : QueueSlot) (env : CheckEnv) : Decidable (FailsAtOnce p slot env) :=
  inferInstanceAs (Decidable (_ ∧ _))

instance (slot : QueueSlot) : Decidable (ChannelFree p slot) := inferInstanceAs (Decidable (_ = _))

instance (selfDev peerDev : ℕ) (env : CallEnv) : Decidable (Connects p selfDev peerDev env) :=
  inferInstanceAs (Decidable (_ ∧ _))

instance (info : FpgaLldmaConnect) (env : ConnectEnv) : Decidable (ConnectMeets p info env) :=
  inferInstanceAs (Decidable (_ ∨ _))

instance : ∀ call : LldmaCall, Decidable (call.Meets p)
  | .init .. => inferInstanceAs (Decidable (_ → _))
  | .finish .. => inferInstanceAs (Decidable (∀ fd ∈ _, _))
  | .bufConnect .. => inferInstanceAs (Decidable (_ → _))
  | .directConnect .. => inferInstanceAs (Decidable (_ → _))
  | .bufDisconnect .. => inferInstanceAs (Decidable (_ → _))

/-! ### The calls of the kernel -/

variable {p} {p' : LldmaProcess} {slot : QueueSlot} {fd : ℕ} {file : OpenFile}

@[simp] theorem fdGetQueue_setEntry (x : Option ℕ) :
    (p.setEntry slot x).fdGetQueue = Function.update p.fdGetQueue slot x := rfl

@[simp] theorem fds_setEntry (x : Option ℕ) : (p.setEntry slot x).fds = p.fds := rfl

@[simp] theorem devs_setEntry (x : Option ℕ) : (p.setEntry slot x).devs = p.devs := rfl

@[simp] theorem badCloses_setEntry (x : Option ℕ) :
    (p.setEntry slot x).badCloses = p.badCloses := rfl

@[simp] theorem fdGetQueue_opened (devId : ℕ) : (p.opened devId fd).fdGetQueue = p.fdGetQueue := rfl

@[simp] theorem fds_opened (devId : ℕ) :
    (p.opened devId fd).fds = Function.update p.fds fd (some ⟨devId, none⟩) := rfl

@[simp] theorem devs_opened (devId : ℕ) : (p.opened devId fd).devs = p.devs := rfl

@[simp] theorem badCloses_opened (devId : ℕ) : (p.opened devId fd).badCloses = p.badCloses := rfl

@[simp] theorem fdGetQueue_setFile (devId : ℕ) (x : Option OpenFile) (dev : FpgaDevInfo) :
    (p.setFile fd devId x dev).fdGetQueue = p.fdGetQueue := rfl

@[simp] theorem fds_setFile (devId : ℕ) (x : Option OpenFile) (dev : FpgaDevInfo) :
    (p.setFile fd devId x dev).fds = Function.update p.fds fd x := rfl

@[simp] theorem devs_setFile (devId : ℕ) (x : Option OpenFile) (dev : FpgaDevInfo) :
    (p.setFile fd devId x dev).devs = Function.update p.devs devId dev := rfl

@[simp] theorem badCloses_setFile (devId : ℕ) (x : Option OpenFile) (dev : FpgaDevInfo) :
    (p.setFile fd devId x dev).badCloses = p.badCloses := rfl

theorem fpgautilClose_of_file (hf : p.fds fd = some file) (monitor : ℕ → BitVec 32) :
    p.fpgautilClose fd monitor =
      p.setFile fd file.devId none (xpcieCdevRelease (p.devs file.devId) file.priv monitor) := by
  unfold LldmaProcess.fpgautilClose
  rw [hf]

/-- A call of the driver on an open descriptor. -/
theorem fpgautilIoctl_of_file (hf : p.fds fd = some file) {env : CallEnv} {cmd : LldmaCmd}
    {r : Except Errno (Option FpgaIoctlQueue)} {dev : FpgaDevInfo} {priv : XpcieFilePrivate}
    (h : xpcieFpgaIoctlLldma (p.devs file.devId) file.priv env cmd = (r, dev, priv)) :
    p.fpgautilIoctl fd env cmd = ((r.map fun _ => ()).mapError .driver,
      p.setFile fd file.devId (some ⟨file.devId, priv⟩) dev) := by
  unfold LldmaProcess.fpgautilIoctl
  rw [hf]
  simp only [h]

/-- Whatever a call of the driver did, closing the descriptor leaves the process without it. -/
theorem fpgautilClose_of_ioctl (hf : p.fds fd = some file) (env : CallEnv) (cmd : LldmaCmd)
    (monitor : ℕ → BitVec 32) :
    ∃ dev, ((p.fpgautilIoctl fd env cmd).2.fpgautilClose fd monitor) =
      p.setFile fd file.devId none dev := by
  rcases h : xpcieFpgaIoctlLldma (p.devs file.devId) file.priv env cmd with ⟨r, dev, priv⟩
  rw [fpgautilIoctl_of_file hf h, fpgautilClose_of_file (Function.update_self ..)]
  refine ⟨xpcieCdevRelease dev priv monitor, ?_⟩
  simp [LldmaProcess.setFile]

theorem opens_eq_some {answer : Option ℕ} :
    p.opens answer = some fd ↔ answer = some fd ∧ p.fds fd = none := by
  unfold LldmaProcess.opens
  rw [Option.filter_eq_some_iff, Option.isNone_iff_eq_none]

theorem ownedSlot_of_file (hf : p.fds fd = some file) : p.ownedSlot fd = file.slot := by
  rw [LldmaProcess.ownedSlot, hf]
  rfl

theorem ownedSlot_of_none (hf : p.fds fd = none) : p.ownedSlot fd = none := by
  rw [LldmaProcess.ownedSlot, hf]
  rfl

theorem ownedSlot_eq_some : p.ownedSlot fd = some slot ↔ ∃ queKind,
    p.fds fd = some ⟨slot.1, some ⟨queKind, slot.2.2, true⟩⟩ ∧ tableDir queKind = slot.2.1 := by
  constructor
  · intro h
    obtain ⟨⟨devId, priv⟩, hf, hslot⟩ := Option.bind_eq_some_iff.mp h
    rcases priv with _ | ⟨queKind, chid, _ | _⟩
    · cases hslot
    · cases hslot
    · cases hslot
      exact ⟨queKind, hf, rfl⟩
  · intro ⟨queKind, hf, hdir⟩
    rw [ownedSlot_of_file hf]
    show some (slot.1, tableDir queKind, slot.2.2) = some slot
    rw [hdir]

/-- Closing what was just opened undoes it. -/
theorem close_of_opened (hf : p.fds fd = none) (devId : ℕ) (slot : QueueSlot) (x : Option ℕ)
    (monitor : ℕ → BitVec 32) :
    ((p.opened devId fd).setEntry slot x).fpgautilClose fd monitor = p.setEntry slot x := by
  unfold LldmaProcess.fpgautilClose LldmaProcess.opened LldmaProcess.setEntry LldmaProcess.setFile
  simp only [Function.update_self, Function.update_idem, xpcieCdevRelease, Function.update_eq_self]
  rw [← hf, Function.update_eq_self]

/-- The process between `__fpga_lldma_check_queue` and the request. -/
def LldmaProcess.checked (p : LldmaProcess) (slot : QueueSlot) (fd : ℕ) : LldmaProcess :=
  (p.opened slot.1 fd).setEntry slot (some fd)

/-- The file behind the new entry is bound to no channel yet. -/
theorem checked_fds (slot : QueueSlot) (fd : ℕ) :
    (p.checked slot fd).fds fd = some ⟨slot.1, none⟩ :=
  Function.update_self ..

/-- **`__fpga_lldma_check_queue`**: the entry is gone, or it is the number of a descriptor that is
closed again, or the new descriptor is in the table. -/
theorem fpgaLldmaCheckQueue_cases (p : LldmaProcess) (slot : QueueSlot) (env : CheckEnv) :
    (p.opens env.fd = none ∧
      fpgaLldmaCheckQueue p slot env = (.error .failureDeviceOpen, p.setEntry slot none)) ∨
    ∃ fd, p.opens env.fd = some fd ∧
      ((¬ CheckPasses p slot env ∧
          ∃ e, fpgaLldmaCheckQueue p slot env = (.error e, p.setEntry slot (some fd))) ∨
        (CheckPasses p slot env ∧
          fpgaLldmaCheckQueue p slot env = (.ok fd, p.checked slot fd))) := by
  unfold fpgaLldmaCheckQueue LldmaProcess.fpgautilOpen
  cases ho : p.opens env.fd with
  | none => exact .inl ⟨rfl, rfl⟩
  | some fd =>
    have hclose := close_of_opened (opens_eq_some.mp ho).2 slot.1 slot (some fd) env.release
    have hfile : ((p.opened slot.1 fd).setEntry slot (some fd)).fds fd = some ⟨slot.1, none⟩ :=
      Function.update_self ..
    refine .inr ⟨fd, rfl, ?_⟩
    simp only [LldmaProcess.getChStat, hfile]
    by_cases hfrom : env.copyFromUser = false
    · refine .inl ⟨fun h => absurd h.copyFromUser (ne_true_of_eq_false hfrom), .failureIoctl, ?_⟩
      rw [if_pos hfrom, ← hclose]
    rw [if_neg hfrom]
    by_cases hto : env.copyToUser = false
    · refine .inl ⟨fun h => absurd h.copyToUser (ne_true_of_eq_false hto), .failureIoctl, ?_⟩
      rw [if_pos hto, ← hclose]
    rw [if_neg hto]
    by_cases havail : ((p.devs slot.1).regs.chAvail slot.2.1.side).getLsbD slot.2.2 = false
    · refine .inl ⟨fun h => absurd h.avail (ne_true_of_eq_false havail), .unavailableChid, ?_⟩
      exact (if_pos havail).trans (by rw [hclose])
    by_cases hactive : env.activeStatus.getLsbD slot.2.2 = true
    · refine .inl ⟨fun h => absurd h.inactive (ne_false_of_eq_true hactive), .alreadyActiveChid, ?_⟩
      exact (if_neg havail).trans ((if_pos hactive).trans (by rw [hclose]))
    · rw [Bool.not_eq_false] at hfrom hto havail
      rw [Bool.not_eq_true] at hactive
      refine .inr ⟨⟨by simp [ho], hfrom, hto, havail, hactive⟩, ?_⟩
      exact (if_neg (ne_false_of_eq_true havail)).trans (if_neg (ne_true_of_eq_false hactive))

theorem setFile_self {devId : ℕ} (hf : p.fds fd = some file) :
    p.setFile fd devId (some file) (p.devs devId) = p := by
  unfold LldmaProcess.setFile
  rw [← hf, Function.update_eq_self, Function.update_eq_self]

/-- Giving a connection back and closing its descriptor: the driver puts the channel back. -/
theorem free_and_close {devId : ℕ} {b : FileBinding} (hf : p.fds fd = some ⟨devId, some b⟩)
    (hb : b.isGetQueue = true) (hk : XpcieFilePrivate.Known (some b)) (env : CallEnv)
    (monitor : ℕ → BitVec 32) :
    ∃ r q, p.fpgautilIoctl fd env .freeConnection = (r, q) ∧ (r = .ok () ↔ ¬ TimesOut env.monitor) ∧
      ∃ dev, q.fpgautilClose fd monitor = p.setFile fd devId none dev ∧
        Frees b.queKind.side b.chid (p.devs devId) dev := by
  rcases ioctl_freeConnection_cases (p.devs devId) _ env hk with
    ⟨e, hget, -⟩ | ⟨b', dev, hb', -, ⟨ht, hregs, hr⟩ | ⟨ht, hfrees, hr⟩⟩
  · exact absurd hb (ne_true_of_eq_false hget)
  · cases hb'
    rcases xpcieCdevRelease_cases dev _ hk monitor with ⟨hget, -⟩ | ⟨b', hb', -, hfrees⟩
    · exact absurd hb (ne_true_of_eq_false hget)
    · cases hb'
      refine ⟨_, _, fpgautilIoctl_of_file hf hr, iff_of_false nofun (not_not.mpr ht), _, ?_,
        hregs.leaves.trans hfrees.leaves, hfrees.status, hfrees.name⟩
      rw [fpgautilClose_of_file (Function.update_self ..)]
      simp [LldmaProcess.setFile]
  · cases hb'
    refine ⟨_, _, fpgautilIoctl_of_file hf hr, iff_of_true rfl ht, _, ?_, hfrees⟩
    rw [fpgautilClose_of_file (Function.update_self ..)]
    simp [LldmaProcess.setFile, xpcieCdevRelease]

/-- A request for a connection changes nothing, or the file gets the free channel. -/
theorem allocConnection_cases {devId : ℕ} (hf : p.fds fd = some ⟨devId, none⟩) (env : CallEnv)
    (c : FpgaIoctlConnect) :
    (¬ (env.copyFromUser = true ∧ (p.devs devId).devId ≠ c.peerMinor ∧
          env.baseaddr c.peerMinor ≠ 0 ∧
          ((p.devs devId).queues c.selfSide c.selfChid).status = .free) ∧
        ∃ e, p.fpgautilIoctl fd env (.allocConnection c) = (.error e, p)) ∨
      (env.copyFromUser = true ∧ (p.devs devId).devId ≠ c.peerMinor ∧
          env.baseaddr c.peerMinor ≠ 0 ∧
          ((p.devs devId).queues c.selfSide c.selfChid).status = .free) ∧
        ∃ dev, Takes c.selfSide c.selfChid c.connectorId (p.devs devId) dev ∧
          p.fpgautilIoctl fd env (.allocConnection c) =
            (.ok (), p.setFile fd devId (some ⟨devId, some ⟨c.dir, c.selfChid, true⟩⟩) dev) := by
  rcases ioctl_allocConnection_cases (p.devs devId) none env c with
    ⟨e, hr, hused⟩ | ⟨dev, hfrom, hid, haddr, hfree, htake, hr⟩
  · refine .inl ⟨fun ⟨hfrom, hid, haddr, hfree⟩ => ?_, .driver e, ?_⟩
    · rw [hused hfrom hid haddr] at hfree
      cases hfree
    · rw [fpgautilIoctl_of_file hf hr]
      exact congrArg _ (setFile_self hf)
  · exact .inr ⟨⟨hfrom, hid, haddr, hfree⟩, dev, htake, fpgautilIoctl_of_file hf hr⟩

end HardwareDrivers.Libfpga
