import HardwareDrivers.Driver.LldmaIoctl
import HardwareDrivers.Theory.Faults

/-!
# The calls on the device file, with any arguments

`xpcie_fpga_ioctl_lldma`, `xpcie_cdev_mmap` and `xpcie_cdev_release` as any process can call
them: the numbers and the bytes of the user structures are as they come, and a call ends
in a fault where it leaves an array, uses a variable that is not set or maps a page that
is not its own. The registers are left out: what they show decides nothing but whether a
channel stops in time.
-/

namespace HardwareDrivers.Driver.Raw

open Theory

/-! ### The data -/

/-- What a call is not to do. -/
inductive Fault where
  /-- An index of `enqueues[]` or `dequeues[]` is not below 32. -/
  | index
  /-- `strcpy` or `strcmp` leaves a `connector_id`. -/
  | string
  /-- A local variable is used before it is set. -/
  | unset
  /-- A page is mapped outside the area, or it is not one of the queue. -/
  | mapping
  deriving DecidableEq

/-- The bytes of a `connector_id`. -/
abbrev ConnectorName := Fin connectorIdNameMax → UInt8

/-- The number of a page of memory. -/
abbrev Page := BitVec 52

/-- `fpga_queue_enqdeq_t`. -/
structure FpgaQueueEnqdeq where
  /-- `status`. -/
  status : QueueStatus
  /-- The page that `que` and `qp_mem_addr` are at: `kzalloc` gives whole pages. -/
  que : Page
  /-- `qp_mem_size`. -/
  qpMemSize : ℕ
  /-- `connector_id`. -/
  connectorId : ConnectorName

/-- `fpga_dev_info_t`, as far as the channels go. -/
structure FpgaDevInfo where
  /-- `dev_id`. -/
  devId : ℕ
  /-- `enqueues[]` on the `RX` side, `dequeues[]` on the `TX` side. -/
  queues : DmaSide → Chid → FpgaQueueEnqdeq
  /-- `available_dma_channel_num`. -/
  availableDmaChannelNum : ℕ
  /-- It counts bits of a register. -/
  num_le : availableDmaChannelNum ≤ xpcieMaxQueuePair

/-- `fpga_ioctl_queue_t`. -/
structure FpgaIoctlQueue where
  /-- `dir`. -/
  dir : DmaDir
  /-- `chid`. -/
  chid : BitVec 16
  /-- `map_size`. -/
  mapSize : ℕ
  /-- `connector_id`. -/
  connectorId : ConnectorName

/-- `fpga_ioctl_connect_t`. -/
structure FpgaIoctlConnect where
  /-- `self_dir`. -/
  selfDir : DmaDir
  /-- `self_chid`. -/
  selfChid : BitVec 32
  /-- `peer_minor`. -/
  peerMinor : BitVec 8
  /-- `buf_addr`. -/
  bufAddr : BitVec 64
  /-- `connector_id`. -/
  connectorId : ConnectorName

/-- `struct xpcie_file_private`. -/
structure XpcieFilePrivate where
  /-- `chid`. -/
  chid : BitVec 32
  /-- `que_kind`; `none` for `-1`. -/
  queKind : Option DmaDir
  /-- `is_get_queue`. -/
  isGetQueue : Bool
  deriving DecidableEq

/-- What `xpcie_cdev_open` sets. -/
def XpcieFilePrivate.opened : XpcieFilePrivate := ⟨-1, none, false⟩

/-- The record of another state of a channel. -/
def FpgaDevInfo.setQueue (dev : FpgaDevInfo) (side : DmaSide) (chid : Chid)
    (queueInfo : FpgaQueueEnqdeq) : FpgaDevInfo :=
  { dev with queues := fun s c => if s = side ∧ c = chid then queueInfo else dev.queues s c }

/-- An index of `enqueues[]` or `dequeues[]`. -/
def entry (chid : ℕ) : Except Fault Chid := indexed xpcieMaxQueuePair .index chid

/-! ### Queues -/

/-- What `queue_set_addr` and `queue_set_ctrl` look at in the records. -/
def queueSet (dev : FpgaDevInfo) (chid : BitVec 16) (dir : DmaDir) : Except Fault Unit :=
  if dev.availableDmaChannelNum ≤ chid.toNat then .ok ()
  else
    match dir with
    | .hostToDev | .devToHost => (entry chid.toNat).map fun _ => ()
    | _ => .ok ()

/-- `queue_set_addr`. -/
def queueSetAddr := queueSet

/-- `queue_set_ctrl`. -/
def queueSetCtrl := queueSet

/-- `xpcie_fpga_start_queue`. -/
def xpcieFpgaStartQueue (dev : FpgaDevInfo) (chid : BitVec 16) (dir : DmaDir) : Except Fault Unit :=
  if dev.availableDmaChannelNum ≤ chid.toNat then .ok ()
  else
    match dir.queueSide with
    | none => .ok ()
    | some _ => do
      let _ ← entry chid.toNat
      queueSetAddr dev chid dir
      queueSetCtrl dev chid dir

/-- `xpcie_fpga_stop_queue`, which looks at registers only. -/
def xpcieFpgaStopQueue (monitor : ℕ → BitVec 32) : Except Errno Unit :=
  if drainLoop monitor 0 drainPolls = drainPolls then .error .efault else .ok ()

/-- `xpcie_fpga_get_queue`. -/
def xpcieFpgaGetQueue (dev : FpgaDevInfo) (ioctlQueue : FpgaIoctlQueue) :
    Except Fault (Except Errno FpgaIoctlQueue × FpgaDevInfo) :=
  match ioctlQueue.dir.queueSide with
  | none => .ok (.error .einval, dev)
  | some side => do
    let chid ← entry ioctlQueue.chid.toNat
    let info := dev.queues side chid
    if info.status ≠ .free then .ok (.error .ebusy, dev)
    else
      let dev := dev.setQueue side chid { info with status := .used }
      xpcieFpgaStartQueue dev ioctlQueue.chid ioctlQueue.dir
      let connectorId ← strcpy .string info.connectorId ioctlQueue.connectorId
      .ok (.ok { ioctlQueue with mapSize := info.qpMemSize },
        dev.setQueue side chid { info with status := .used, connectorId })

/-- `xpcie_fpga_put_queue_info`. -/
def xpcieFpgaPutQueueInfo (dev : FpgaDevInfo) (chid : BitVec 16) (dir : DmaDir) :
    Except Fault (Except Errno Unit × FpgaDevInfo) :=
  match dir.anySide with
  | none => .ok (.error .einval, dev)
  | some side => do
    let chid ← entry chid.toNat
    .ok (.ok (), dev.setQueue side chid
      { dev.queues side chid with connectorId := fun _ => 0, status := .free })

/-- `xpcie_fpga_put_queue`. -/
def xpcieFpgaPutQueue (dev : FpgaDevInfo) (ioctlQueue : FpgaIoctlQueue) (monitor : ℕ → BitVec 32) :
    Except Fault (Except Errno Unit × FpgaDevInfo) :=
  match xpcieFpgaStopQueue monitor with
  | .error e => .ok (.error e, dev)
  | .ok _ => do
    match ← xpcieFpgaPutQueueInfo dev ioctlQueue.chid ioctlQueue.dir with
    | (.error _, dev) => .ok (.error .ebusy, dev)
    | (.ok _, dev) => .ok (.ok (), dev)

/-- The loop of `xpcie_fpga_scan_queue` over the channels of a side that are left. -/
def scanLoop (dev : FpgaDevInfo) (connectorId : ConnectorName) (side : DmaSide) :
    List ℕ → Except Fault (Except Errno Chid)
  | [] => .ok (.error .ebusy)
  | i :: is => do
    let chid ← entry i
    if ← strcmp .string (dev.queues side chid).connectorId connectorId then .ok (.ok chid)
    else scanLoop dev connectorId side is

/-- `xpcie_fpga_scan_queue`, in the directions it is called in. -/
def xpcieFpgaScanQueue (dev : FpgaDevInfo) (connectorId : ConnectorName) (side : DmaSide) :
    Except Fault (Except Errno Chid) :=
  scanLoop dev connectorId side (List.range dev.availableDmaChannelNum)

/-- `xpcie_fpga_ref_queue`. -/
def xpcieFpgaRefQueue (dev : FpgaDevInfo) (ioctlQueue : FpgaIoctlQueue) :
    Except Fault (Except Errno FpgaIoctlQueue) := do
  match ← xpcieFpgaScanQueue dev ioctlQueue.connectorId .rx with
  | .ok chid =>
    .ok (.ok { ioctlQueue with
      dir := .hostToDev, mapSize := (dev.queues .rx chid).qpMemSize, chid := BitVec.ofNat 16 chid })
  | .error _ =>
    match ← xpcieFpgaScanQueue dev ioctlQueue.connectorId .tx with
    | .ok chid =>
      .ok (.ok { ioctlQueue with
        dir := .devToHost, mapSize := (dev.queues .tx chid).qpMemSize, chid := BitVec.ofNat 16 chid })
    | .error e => .ok (.error e)

/-! ### Connections -/

/-- `xpcie_fpga_dev_connect`. -/
def xpcieFpgaDevConnect (dev : FpgaDevInfo) (selfChid : BitVec 32) (dir : DmaDir)
    (connectorId : ConnectorName) : Except Fault (Except Errno Unit × FpgaDevInfo) :=
  match dir.connectSide with
  | none => .ok (.error .einval, dev)
  | some side => do
    let chid ← entry selfChid.toNat
    let info := dev.queues side chid
    if info.status ≠ .free then .ok (.error .ebusy, dev)
    else
      let dev := dev.setQueue side chid { info with status := .used }
      queueSetCtrl dev (selfChid.setWidth 16) dir
      queueSetAddr dev (selfChid.setWidth 16) dir
      let connectorId ← strcpy .string info.connectorId connectorId
      .ok (.ok (), dev.setQueue side chid { info with status := .used, connectorId })

/-- `xpcie_fpga_dev_disconnect`. -/
def xpcieFpgaDevDisconnect (dev : FpgaDevInfo) (selfChid : BitVec 32) (dir : DmaDir)
    (monitor : ℕ → BitVec 32) : Except Fault (Except Errno Unit × FpgaDevInfo) :=
  match xpcieFpgaStopQueue monitor with
  | .error e => .ok (.error e, dev)
  | .ok _ => do
    let (_, dev) ← xpcieFpgaPutQueueInfo dev (selfChid.setWidth 16) dir
    .ok (.ok (), dev)

/-- The direction of a connection; in any other direction the variable is not set. -/
def FpgaIoctlConnect.dir (c : FpgaIoctlConnect) : Except Fault DmaDir :=
  match c.selfDir with
  | .hostToDev => .ok (if c.bufAddr = 0 then .d2dDRx else .d2dRx)
  | .devToHost => .ok (if c.bufAddr = 0 then .d2dDTx else .d2dTx)
  | _ => .error .unset

/-! ### `ioctl` and `close` -/

/-- The commands that set up and tear down a channel. -/
inductive LldmaCmd where
  /-- `XPCIE_DEV_LLDMA_ALLOC_QUEUE`. -/
  | allocQueue (ioctlQueue : FpgaIoctlQueue)
  /-- `XPCIE_DEV_LLDMA_BIND_QUEUE`. -/
  | bindQueue (ioctlQueue : FpgaIoctlQueue)
  /-- `XPCIE_DEV_LLDMA_FREE_QUEUE`. -/
  | freeQueue (ioctlQueue : FpgaIoctlQueue)
  /-- `XPCIE_DEV_LLDMA_ALLOC_CONNECTION`. -/
  | allocConnection (ioctlConnect : FpgaIoctlConnect)
  /-- `XPCIE_DEV_LLDMA_FREE_CONNECTION`. -/
  | freeConnection

/-- What a call returns, with the new states. -/
abbrev IoctlResult := Except Errno (Option FpgaIoctlQueue) × FpgaDevInfo × XpcieFilePrivate

/-- A direction in the `uint16_t` of the functions; `-1` is none of the known ones. -/
def XpcieFilePrivate.dir (priv : XpcieFilePrivate) : DmaDir := priv.queKind.getD (.other 65535)

/-- `XPCIE_DEV_LLDMA_ALLOC_QUEUE`. -/
def ioctlAllocQueue (dev : FpgaDevInfo) (priv : XpcieFilePrivate) (env : CallEnv)
    (ioctlQueue : FpgaIoctlQueue) : Except Fault IoctlResult :=
  if env.copyFromUser = false then .ok (.error .efault, dev, priv)
  else do
    match ← xpcieFpgaGetQueue dev ioctlQueue with
    | (.error e, dev) => .ok (.error e, dev, priv)
    | (.ok ioctlQueue, dev) =>
      if env.copyToUser = false then
        let (_, dev) ← xpcieFpgaPutQueue dev ioctlQueue env.monitor
        .ok (.error .efault, dev, priv)
      else
        .ok (.ok (some ioctlQueue), dev, ⟨ioctlQueue.chid.setWidth 32, some ioctlQueue.dir, true⟩)

/-- `XPCIE_DEV_LLDMA_BIND_QUEUE`. -/
def ioctlBindQueue (dev : FpgaDevInfo) (priv : XpcieFilePrivate) (env : CallEnv)
    (ioctlQueue : FpgaIoctlQueue) : Except Fault IoctlResult :=
  if env.copyFromUser = false then .ok (.error .efault, dev, priv)
  else do
    match ← xpcieFpgaRefQueue dev ioctlQueue with
    | .error _ => .ok (.error .ebusy, dev, priv)
    | .ok ioctlQueue =>
      if env.copyToUser = false then .ok (.error .efault, dev, priv)
      else
        .ok (.ok (some ioctlQueue), dev,
          { priv with chid := ioctlQueue.chid.setWidth 32, queKind := some ioctlQueue.dir })

/-- `XPCIE_DEV_LLDMA_FREE_QUEUE`. -/
def ioctlFreeQueue (dev : FpgaDevInfo) (priv : XpcieFilePrivate) (env : CallEnv)
    (ioctlQueue : FpgaIoctlQueue) : Except Fault IoctlResult :=
  if env.copyFromUser = false then .ok (.error .efault, dev, priv)
  else if priv.queKind ≠ some ioctlQueue.dir then .ok (.error .ebusy, dev, priv)
  else do
    match ← xpcieFpgaPutQueue dev ioctlQueue env.monitor with
    | (.error _, dev) => .ok (.error .ebusy, dev, priv)
    | (.ok _, dev) => .ok (.ok none, dev, .opened)

/-- `XPCIE_DEV_LLDMA_ALLOC_CONNECTION`. -/
def ioctlAllocConnection (dev : FpgaDevInfo) (priv : XpcieFilePrivate) (env : CallEnv)
    (ioctlConnect : FpgaIoctlConnect) : Except Fault IoctlResult :=
  if env.copyFromUser = false then .ok (.error .efault, dev, priv)
  else if dev.devId = ioctlConnect.peerMinor.toNat then .ok (.error .einval, dev, priv)
  else if env.baseaddr ioctlConnect.peerMinor.toNat = 0 then .ok (.error .einval, dev, priv)
  else do
    let dir ← ioctlConnect.dir
    match ← xpcieFpgaDevConnect dev ioctlConnect.selfChid dir ioctlConnect.connectorId with
    | (.error e, dev) => .ok (.error e, dev, priv)
    | (.ok _, dev) => .ok (.ok none, dev, ⟨ioctlConnect.selfChid, some dir, true⟩)

/-- `XPCIE_DEV_LLDMA_FREE_CONNECTION`. -/
def ioctlFreeConnection (dev : FpgaDevInfo) (priv : XpcieFilePrivate) (env : CallEnv) :
    Except Fault IoctlResult :=
  if priv.isGetQueue = false then .ok (.error .einval, dev, priv)
  else do
    match ← xpcieFpgaDevDisconnect dev priv.chid priv.dir env.monitor with
    | (.error e, dev) => .ok (.error e, dev, priv)
    | (.ok _, dev) => .ok (.ok none, dev, .opened)

/-- `xpcie_fpga_ioctl_lldma`. -/
def xpcieFpgaIoctlLldma (dev : FpgaDevInfo) (priv : XpcieFilePrivate) (env : CallEnv) :
    LldmaCmd → Except Fault IoctlResult
  | .allocQueue ioctlQueue => ioctlAllocQueue dev priv env ioctlQueue
  | .bindQueue ioctlQueue => ioctlBindQueue dev priv env ioctlQueue
  | .freeQueue ioctlQueue => ioctlFreeQueue dev priv env ioctlQueue
  | .allocConnection ioctlConnect => ioctlAllocConnection dev priv env ioctlConnect
  | .freeConnection => ioctlFreeConnection dev priv env

/-- `xpcie_cdev_release`; the result of `xpcie_fpga_stop_queue` is not looked at. -/
def xpcieCdevRelease (dev : FpgaDevInfo) (priv : XpcieFilePrivate) : Except Fault FpgaDevInfo :=
  if priv.isGetQueue = false then .ok dev
  else do
    let (_, dev) ← xpcieFpgaPutQueueInfo dev (priv.chid.setWidth 16) priv.dir
    .ok dev

/-! ### `mmap` -/

/-- `PAGE_SIZE`. -/
def pageSize : ℕ := 4096

/-- How many pages the memory of a queue has. -/
def FpgaQueueEnqdeq.pages (info : FpgaQueueEnqdeq) : ℕ := (info.qpMemSize + (pageSize - 1)) / pageSize

/-- The page is one of the memory of the queue. -/
def FpgaQueueEnqdeq.Holds (info : FpgaQueueEnqdeq) (page : Page) : Prop :=
  (page - info.que).toNat < info.pages

instance (info : FpgaQueueEnqdeq) (page : Page) : Decidable (info.Holds page) :=
  inferInstanceAs (Decidable (_ < _))

/-- The pages of an area, counted from its start, that get a page of memory, are pages of the area,
and the pages of memory are those of the queue. -/
def MapsInside (info : FpgaQueueEnqdeq) (pages : ℕ) (maps : List (ℕ × Page)) : Prop :=
  ∀ m ∈ maps, m.1 < pages ∧ info.Holds m.2

instance (info : FpgaQueueEnqdeq) (pages : ℕ) (maps : List (ℕ × Page)) :
    Decidable (MapsInside info pages maps) := inferInstanceAs (Decidable (∀ m ∈ maps, _))

/-- Pages are mapped. -/
def mapPages (info : FpgaQueueEnqdeq) (pages : ℕ) (maps : List (ℕ × Page)) : Except Fault Unit :=
  if MapsInside info pages maps then .ok () else .error .mapping

/-- What `remap_pfn_range` maps from the start of an area: whole pages. -/
def remapPfnRange (pfn : Page) (size : ℕ) : List (ℕ × Page) :=
  (List.range ((size + (pageSize - 1)) / pageSize)).map fun k => (k, pfn + BitVec.ofNat 52 k)

/-- `struct vm_area_struct` of a mapped area. -/
structure VmArea where
  /-- The file. -/
  fd : ℕ
  /-- Its length. -/
  pages : ℕ
  /-- `vm_pgoff`. -/
  vmPgoff : Page
  /-- How many of its pages `xpcie_cdev_mmap` has mapped. -/
  mapped : ℕ
  deriving DecidableEq

/-- The directions that a queue is mapped in: the `switch` of `xpcie_cdev_mmap` and
`xpcie_vma_fault`. -/
def mmapSide : Option DmaDir → Option DmaSide
  | some .hostToDev => some .rx
  | some .devToHost => some .tx
  | _ => none

/-- `xpcie_cdev_mmap` of an area with `pages` pages: how many of them it has mapped, and `none` for
an error. `remap` says whether `remap_pfn_range` returns 0. -/
def xpcieCdevMmap (dev : FpgaDevInfo) (priv : XpcieFilePrivate) (pages : ℕ) (remap : Bool) :
    Except Fault (Option ℕ) :=
  if priv.chid.slt 0 then .ok none
  else
    match mmapSide priv.queKind with
    | none => .ok none
    | some side => do
      let chid ← entry priv.chid.toNat
      let info := dev.queues side chid
      if remap = false then .ok none
      else
        mapPages info pages (remapPfnRange info.que info.qpMemSize)
        .ok (some info.pages)

/-- `xpcie_vma_fault`: a page of an area that is not mapped is used; `false` for an error. -/
def xpcieVmaFault (dev : FpgaDevInfo) (priv : XpcieFilePrivate) (vma : VmArea) (page : ℕ) :
    Except Fault Bool :=
  match mmapSide priv.queKind with
  | none => .ok false
  | some side => do
    let chid ← entry priv.chid.toNat
    let info := dev.queues side chid
    let offset := vma.vmPgoff + BitVec.ofNat 52 page
    mapPages info vma.pages [(page, info.que + offset)]
    .ok true

/-! ### The system -/

/-- A device, the files open on it and the areas they are mapped in. -/
structure LldmaSystem where
  /-- The device. -/
  dev : FpgaDevInfo
  /-- The private data of the open files. -/
  files : ℕ → Option XpcieFilePrivate
  /-- The areas. -/
  vmas : List VmArea

/-- `memset` of the record and `queue_que_init`, with the pages that `kzalloc` gives. -/
def LldmaSystem.init (devId : ℕ) (regs : LldmaRegs) (que : DmaSide → Chid → Page) :
    LldmaSystem where
  dev :=
    { devId
      queues := fun side chid =>
        ⟨.free, que side chid, (queueQueInit xpcieQueueSize 0).qpMemSize, fun _ => 0⟩
      availableDmaChannelNum := countAvailable regs
      num_le := countAvailable_le regs }
  files _ := none
  vmas := []

/-- What happens on the files. -/
inductive LldmaOp where
  /-- `open`. -/
  | cdevOpen (fd : ℕ)
  /-- `ioctl`. -/
  | cdevIoctl (fd : ℕ) (env : CallEnv) (cmd : LldmaCmd)
  /-- `mmap` of so many pages at an offset. -/
  | cdevMmap (fd pages : ℕ) (vmPgoff : Page) (remap : Bool)
  /-- A page of an area is used. -/
  | vmaFault (vma page : ℕ)
  /-- `munmap`. -/
  | vmaClose (vma : ℕ)
  /-- The last `close`, when no area is left. -/
  | cdevRelease (fd : ℕ)

/-- One step. -/
def lldmaExec (s : LldmaSystem) : LldmaOp → Option (Except Fault LldmaSystem)
  | .cdevOpen fd =>
    match s.files fd with
    | some _ => none
    | none => some (.ok { s with files := Function.update s.files fd (some .opened) })
  | .cdevIoctl fd env cmd =>
    (s.files fd).map fun priv => do
      let (_, dev, priv) ← xpcieFpgaIoctlLldma s.dev priv env cmd
      .ok { s with dev, files := Function.update s.files fd (some priv) }
  | .cdevMmap fd pages vmPgoff remap =>
    (s.files fd).map fun priv => do
      match ← xpcieCdevMmap s.dev priv pages remap with
      | none => .ok s
      | some mapped => .ok { s with vmas := s.vmas ++ [⟨fd, pages, vmPgoff, mapped⟩] }
  | .vmaFault vma page =>
    match s.vmas[vma]? with
    | none => none
    | some vma =>
      if vma.mapped ≤ page ∧ page < vma.pages then
        (s.files vma.fd).map fun priv => do
          let _ ← xpcieVmaFault s.dev priv vma page
          .ok s
      else none
  | .vmaClose vma => some (.ok { s with vmas := s.vmas.eraseIdx vma })
  | .cdevRelease fd =>
    if ∀ vma ∈ s.vmas, vma.fd ≠ fd then
      (s.files fd).map fun priv => do
        let dev ← xpcieCdevRelease s.dev priv
        .ok { s with dev, files := Function.update s.files fd none }
    else none

end HardwareDrivers.Driver.Raw
