import HardwareDrivers.Driver.Registers
import Mathlib.Data.Fin.Tuple.Basic
import Mathlib.Algebra.Order.BigOperators.Group.List
import Mathlib.Algebra.Order.Ring.Nat

/-!
# The channels of the LLDMA module

`libxpcie_lldma.c`: the driver keeps a record for each channel of each side, with a
status, a command queue and a name, and writes the registers of a channel when it is
taken and put back.

## What is proved

* `xpcieFpgaGetQueue_cases`, `xpcieFpgaPutQueue_cases`, `xpcieFpgaDevConnect_cases`,
  `xpcieFpgaDevDisconnect_cases` — what each of the calls does to the records and to
  the registers that run a channel, and that it leaves every other channel alone.
* `xpcieFpgaRefQueue_eq_ok` — a name is looked up by the order of the scan only.
-/

namespace HardwareDrivers.Driver

/-! ### The records -/

/-- `XPCIE_MAX_QUEUE_PAIR`. -/
abbrev xpcieMaxQueuePair : ℕ := 32

/-- `XPCIE_QUEUE_SIZE`. -/
def xpcieQueueSize : ℕ := 255

/-- `CONNECTOR_ID_NAME_MAX`. -/
def connectorIdNameMax : ℕ := 128

/-- An index of `enqueues[]` and `dequeues[]`. -/
abbrev Chid := Fin xpcieMaxQueuePair

/-- What a `connector_id` with its NUL spells. -/
structure ConnectorId where
  /-- The bytes before the NUL. -/
  bytes : List UInt8
  /-- The first NUL ends the name. -/
  nul_notMem : 0 ∉ bytes
  /-- The NUL fits in too. -/
  length_lt : bytes.length < connectorIdNameMax
  deriving DecidableEq

/-- The name in a record of zero bytes. -/
def ConnectorId.empty : ConnectorId := ⟨[], List.not_mem_nil, by decide⟩

/-- The values of `status`. -/
inductive QueueStatus where
  /-- `FPGA_Q_STAT_FREE`. -/
  | free
  /-- `FPGA_Q_STAT_USED`. -/
  | used
  deriving DecidableEq, Repr

/-- `fpga_queue_enqdeq_t`, with the physical address of the ring for `virt_to_phys`. -/
structure FpgaQueueEnqdeq where
  /-- `status`. -/
  status : QueueStatus
  /-- `que`. -/
  que : FpgaQueue
  /-- The physical address of `que->ring`. -/
  ringPhys : BitVec 64
  /-- `qp_mem_size`. -/
  qpMemSize : ℕ
  /-- `connector_id`. -/
  connectorId : ConnectorId

/-- `fpga_dev_info_t`, as far as the channels go. -/
structure FpgaDevInfo where
  /-- `dev_id`. -/
  devId : ℕ
  /-- `enqueues[]` on the `RX` side, `dequeues[]` on the `TX` side. -/
  queues : DmaSide → Chid → FpgaQueueEnqdeq
  /-- `available_dma_channel_num`. -/
  availableDmaChannelNum : ℕ
  /-- It counts bits of a register. -/
  num_le : availableDmaChannelNum ≤ xpcieMaxQueuePair
  /-- The registers. -/
  regs : LldmaRegs

/-- The errors of the calls. -/
inductive Errno where
  /-- `-EFAULT`. -/
  | efault
  /-- `-EBUSY`. -/
  | ebusy
  /-- `-EINVAL`. -/
  | einval
  deriving DecidableEq, Repr

/-- `fpga_ioctl_queue_t`. -/
structure FpgaIoctlQueue where
  /-- `dir`. -/
  dir : DmaDir
  /-- `chid`. -/
  chid : Chid
  /-- `map_size`. -/
  mapSize : ℕ
  /-- `connector_id`. -/
  connectorId : ConnectorId
  deriving DecidableEq

/-- The record of another state of a channel. -/
def FpgaDevInfo.setQueue (dev : FpgaDevInfo) (side : DmaSide) (chid : Chid)
    (queueInfo : FpgaQueueEnqdeq) : FpgaDevInfo :=
  { dev with queues := fun s c => if s = side ∧ c = chid then queueInfo else dev.queues s c }

/-- `lldma_reg_write` to `CH_SEL(dir)`. -/
def FpgaDevInfo.writeChSel (dev : FpgaDevInfo) (dir : DmaDir) (chid : Chid) : FpgaDevInfo :=
  { dev with regs := dev.regs.writeChSel dir chid }

/-- `lldma_reg_write` to a register of the selected channel. -/
def FpgaDevInfo.writeChannel (dev : FpgaDevInfo) (dir : DmaDir) (f : ChannelRegs → ChannelRegs) :
    FpgaDevInfo :=
  { dev with regs := dev.regs.writeChannel dir f }

/-- The directions with a command queue: the `switch` of `xpcie_fpga_get_queue` and
`xpcie_fpga_start_queue`. -/
def DmaDir.queueSide : DmaDir → Option DmaSide
  | .hostToDev | .nwToDev => some .rx
  | .devToHost | .devToNw => some .tx
  | _ => none

/-- The directions with a peer device: the `switch` of `xpcie_fpga_dev_connect`. -/
def DmaDir.connectSide : DmaDir → Option DmaSide
  | .d2dRx | .d2dDRx => some .rx
  | .d2dTx | .d2dDTx => some .tx
  | _ => none

/-- All directions: the `switch` of `xpcie_fpga_put_queue_info`. -/
def DmaDir.anySide : DmaDir → Option DmaSide
  | .hostToDev | .nwToDev | .d2dRx | .d2dDRx => some .rx
  | .devToHost | .devToNw | .d2dTx | .d2dDTx => some .tx
  | .other _ => none

/-! ### The module and the records at the start -/

/-- `xpcie_fpga_count_available_dma_channel`: the bits set in either mask, counted one by one. -/
def countAvailable (regs : LldmaRegs) : ℕ :=
  let regval := regs.chAvail .rx ||| regs.chAvail .tx
  ((List.range 32).map fun i => ((regval >>> i) &&& 1).toNat).sum

theorem countAvailable_le (regs : LldmaRegs) : countAvailable regs ≤ xpcieMaxQueuePair := by
  refine (List.sum_le_card_nsmul _ 1 fun n hn => ?_).trans (by simp [xpcieMaxQueuePair])
  obtain ⟨i, -, rfl⟩ := List.mem_map.mp hn
  rw [BitVec.toNat_and]
  exact Nat.and_le_right

/-- `queue_que_init`, with the address `kzalloc` gives. -/
def queueQueInit (size : ℕ) (ringPhys : BitVec 64) : FpgaQueueEnqdeq :=
  ⟨.free, .init size 0, ringPhys, 64 + 64 * size, .empty⟩

/-- `xpcie_fpga_dev_init` and `xpcie_fpga_common_get_lldma_module_info`: all channels free, the
available ones counted. -/
def xpcieFpgaDevInit (devId : ℕ) (regs : LldmaRegs) (ringPhys : DmaSide → Chid → BitVec 64) :
    FpgaDevInfo where
  devId
  queues side chid := queueQueInit xpcieQueueSize (ringPhys side chid)
  availableDmaChannelNum := countAvailable regs
  num_le := countAvailable_le regs
  regs

/-! ### Starting and stopping a channel -/

/-- The address that `queue_set_addr` writes, if any. -/
def queueAddr (dev : FpgaDevInfo) (chid : Chid) (addr : BitVec 64) : DmaDir → Option (BitVec 64)
  | .hostToDev => some (dev.queues .rx chid).ringPhys
  | .devToHost => some (dev.queues .tx chid).ringPhys
  | .d2dRx | .d2dDRx | .d2dTx | .d2dDTx => if addr = 0 then none else some addr
  | _ => none

/-- `queue_set_addr`. -/
def queueSetAddr (dev : FpgaDevInfo) (chid : Chid) (dir : DmaDir) (addr : BitVec 64) :
    FpgaDevInfo :=
  if dev.availableDmaChannelNum ≤ chid then dev
  else
    match queueAddr dev chid addr dir with
    | none => dev
    | some physAddr =>
      ((dev.writeChSel dir chid).writeChannel dir
        fun r => { r with qAddrUp := (physAddr >>> 32).setWidth 32 }).writeChannel dir
        fun r => { r with qAddrDn := physAddr.setWidth 32 }

/-- `q_ctrl` and `ch_ctrl1` of `queue_set_ctrl`, if it writes them. -/
def queueCtrl (dev : FpgaDevInfo) (chid : Chid) (cid : BitVec 8) :
    DmaDir → Option (BitVec 32 × BitVec 32)
  | .hostToDev => some (BitVec.ofNat 32 (dev.queues .rx chid).que.size <<< 8, chCtrl1Host)
  | .devToHost => some (BitVec.ofNat 32 (dev.queues .tx chid).que.size <<< 8, chCtrl1Host)
  | .d2dRx | .d2dTx => if cid = 255 then none else some (cid.setWidth 32 <<< 8, chCtrl1D2dH)
  | .d2dDRx | .d2dDTx => if cid = 255 then none else some (cid.setWidth 32 <<< 8, chCtrl1D2dD)
  | _ => none

/-- `queue_set_ctrl`. -/
def queueSetCtrl (dev : FpgaDevInfo) (chid : Chid) (dir : DmaDir) (cid : BitVec 8) : FpgaDevInfo :=
  if dev.availableDmaChannelNum ≤ chid then dev
  else
    match queueCtrl dev chid cid dir with
    | none => dev
    | some (qCtrl, chCtrl1) =>
      ((dev.writeChSel dir chid).writeChannel dir fun r => { r with qCtrl }).writeChannel dir
        fun r => { r with ctrl1 := chCtrl1 }

/-- The bits of `CH_CTRL0` that `xpcie_fpga_start_queue` sets. -/
def DmaDir.enable : DmaDir → BitVec 32
  | .devToNw => enableIe
  | .nwToDev => enableOe
  | _ => enableIe ||| enableOe

/-- `xpcie_fpga_start_queue`; `data` is what the hardware shows in `Q_CTRL`. -/
def xpcieFpgaStartQueue (dev : FpgaDevInfo) (chid : Chid) (dir : DmaDir) (data : BitVec 32) :
    FpgaDevInfo :=
  if dev.availableDmaChannelNum ≤ chid then dev
  else
    match dir.queueSide with
    | none => dev
    | some side =>
      let dev := queueSetAddr dev chid dir 0
      let dev := queueSetCtrl dev chid dir 255
      let dev := dev.writeChSel dir chid
      let info := dev.queues side chid
      let head := ((data &&& 0xFF000000) >>> 24).toNat
      let dev := dev.setQueue side chid
        { info with que := { info.que with writehead := head, readhead := head } }
      dev.writeChannel dir fun r => { r with ctrl0 := dir.enable }

/-- `FPGA_DRAIN_POLLING_MS / wait_msec`. -/
def drainPolls : ℕ := 3000 / 100

/-- The loop of `xpcie_fpga_stop_queue`, from `cnt` on for at most `n` polls; `monitor` is what the
hardware shows in `CH_CTRL0` at each poll. -/
def drainLoop (monitor : ℕ → BitVec 32) (cnt : ℕ) : ℕ → ℕ
  | 0 => cnt
  | n + 1 => if monitor cnt = 0 then cnt else drainLoop monitor (cnt + 1) n

/-- `xpcie_fpga_stop_queue`. -/
def xpcieFpgaStopQueue (dev : FpgaDevInfo) (chid : Chid) (dir : DmaDir) (monitor : ℕ → BitVec 32) :
    Except Errno Unit × FpgaDevInfo :=
  let dev := (dev.writeChSel dir chid).writeChannel dir fun r => { r with ctrl0 := 0 }
  let cnt := drainLoop monitor 0 drainPolls
  let dev := dev.writeChannel dir fun r => { r with ctrl0 := enableClear }
  (if cnt = drainPolls then .error .efault else .ok (), dev)

/-! ### Command queues -/

/-- `xpcie_fpga_get_queue`. -/
def xpcieFpgaGetQueue (dev : FpgaDevInfo) (ioctlQueue : FpgaIoctlQueue) (data : BitVec 32) :
    Except Errno FpgaIoctlQueue × FpgaDevInfo :=
  match ioctlQueue.dir.queueSide with
  | none => (.error .einval, dev)
  | some side =>
    let info := dev.queues side ioctlQueue.chid
    if info.status ≠ .free then (.error .ebusy, dev)
    else
      let dev := dev.setQueue side ioctlQueue.chid
        { info with status := .used, que := { info.que with ring := fun _ => .zero } }
      let dev := xpcieFpgaStartQueue dev ioctlQueue.chid ioctlQueue.dir data
      let info := dev.queues side ioctlQueue.chid
      (.ok { ioctlQueue with mapSize := info.qpMemSize },
        dev.setQueue side ioctlQueue.chid { info with connectorId := ioctlQueue.connectorId })

/-- `xpcie_fpga_put_queue_info`. -/
def xpcieFpgaPutQueueInfo (dev : FpgaDevInfo) (chid : Chid) (dir : DmaDir) :
    Except Errno Unit × FpgaDevInfo :=
  match dir.anySide with
  | none => (.error .einval, dev)
  | some side =>
    (.ok (), dev.setQueue side chid
      { dev.queues side chid with connectorId := .empty, status := .free })

/-- `xpcie_fpga_put_queue`. -/
def xpcieFpgaPutQueue (dev : FpgaDevInfo) (ioctlQueue : FpgaIoctlQueue) (monitor : ℕ → BitVec 32) :
    Except Errno Unit × FpgaDevInfo :=
  match xpcieFpgaStopQueue dev ioctlQueue.chid ioctlQueue.dir monitor with
  | (.error e, dev) => (.error e, dev)
  | (.ok _, dev) =>
    match xpcieFpgaPutQueueInfo dev ioctlQueue.chid ioctlQueue.dir with
    | (.error _, dev) => (.error .ebusy, dev)
    | (.ok _, dev) => (.ok (), dev)

/-- The scan gets to the channel, and the channel has the name. -/
def FpgaDevInfo.Carries (dev : FpgaDevInfo) (id : ConnectorId) (side : DmaSide) (chid : Chid) : Prop :=
  chid < dev.availableDmaChannelNum ∧ (dev.queues side chid).connectorId = id

instance (dev : FpgaDevInfo) (id : ConnectorId) (side : DmaSide) (chid : Chid) :
    Decidable (dev.Carries id side chid) := inferInstanceAs (Decidable (_ ∧ _))

/-- The loop of `xpcie_fpga_scan_queue` over the channels of a side, by number. -/
def scanLoop (dev : FpgaDevInfo) (id : ConnectorId) (side : DmaSide) : Option Chid :=
  Fin.find? fun chid => decide (dev.Carries id side chid)

/-- `xpcie_fpga_scan_queue`. -/
def xpcieFpgaScanQueue (dev : FpgaDevInfo) (id : ConnectorId) (dir : DmaDir) : Except Errno Chid :=
  match dir with
  | .hostToDev => (scanLoop dev id .rx).elim (.error .ebusy) .ok
  | .devToHost => (scanLoop dev id .tx).elim (.error .ebusy) .ok
  | _ => if dev.availableDmaChannelNum = 0 then .error .ebusy else .error .einval

/-- `xpcie_fpga_ref_queue`. -/
def xpcieFpgaRefQueue (dev : FpgaDevInfo) (ioctlQueue : FpgaIoctlQueue) :
    Except Errno FpgaIoctlQueue :=
  match xpcieFpgaScanQueue dev ioctlQueue.connectorId .hostToDev with
  | .ok chid =>
    .ok { ioctlQueue with dir := .hostToDev, mapSize := (dev.queues .rx chid).qpMemSize, chid }
  | .error _ =>
    match xpcieFpgaScanQueue dev ioctlQueue.connectorId .devToHost with
    | .ok chid =>
      .ok { ioctlQueue with dir := .devToHost, mapSize := (dev.queues .tx chid).qpMemSize, chid }
    | .error e => .error e

/-! ### Connections between devices -/

/-- `xpcie_fpga_set_buf`. -/
def xpcieFpgaSetBuf (dev : FpgaDevInfo) (dir : DmaDir) (bufSize : BitVec 32) (bufAddr : BitVec 64) :
    FpgaDevInfo :=
  ((dev.writeChannel dir fun r => { r with bufAddrDn := bufAddr.setWidth 32 }).writeChannel dir
    fun r => { r with bufAddrUp := (bufAddr >>> 32).setWidth 32 }).writeChannel dir
    fun r => { r with bufSize }

/-- The directions through a buffer of the host. -/
def DmaDir.UsesBuf (dir : DmaDir) : Prop := dir = .d2dRx ∨ dir = .d2dTx

instance (dir : DmaDir) : Decidable dir.UsesBuf := inferInstanceAs (Decidable (_ ∨ _))

/-- `xpcie_fpga_dev_connect`. -/
def xpcieFpgaDevConnect (dev : FpgaDevInfo) (selfChid : Chid) (peerChid : BitVec 32) (dir : DmaDir)
    (peerAddr : BitVec 64) (bufSize : BitVec 32) (bufAddr : BitVec 64) (connectorId : ConnectorId) :
    Except Errno Unit × FpgaDevInfo :=
  match dir.connectSide with
  | none => (.error .einval, dev)
  | some side =>
    let cid : BitVec 8 := peerChid.setWidth 8
    let info := dev.queues side selfChid
    if info.status ≠ .free then (.error .ebusy, dev)
    else
      let dev := dev.setQueue side selfChid { info with status := .used }
      let dev := queueSetCtrl dev selfChid dir cid
      let dev := queueSetAddr dev selfChid dir peerAddr
      let dev := if dir.UsesBuf then xpcieFpgaSetBuf dev dir bufSize bufAddr else dev
      let dev := (dev.writeChSel dir selfChid).writeChannel dir
        fun r => { r with ctrl0 := enableIe ||| enableOe }
      (.ok (), dev.setQueue side selfChid { dev.queues side selfChid with connectorId })

/-- `xpcie_fpga_dev_disconnect`. -/
def xpcieFpgaDevDisconnect (dev : FpgaDevInfo) (selfChid : Chid) (dir : DmaDir)
    (monitor : ℕ → BitVec 32) : Except Errno Unit × FpgaDevInfo :=
  match xpcieFpgaStopQueue (dev.writeChSel dir selfChid) selfChid dir monitor with
  | (.error e, dev) => (.error e, dev)
  | (.ok _, dev) =>
    let dev := ((((dev.writeChannel dir fun r => { r with qCtrl := 0x10 <<< 8 }).writeChannel dir
      fun r => { r with ctrl1 := chCtrl1Init }).writeChannel dir
      fun r => { r with qAddrUp := 0 }).writeChannel dir
      fun r => { r with qAddrDn := 0 })
    let dev := if dir.UsesBuf then xpcieFpgaSetBuf dev dir 0 0 else dev
    (.ok (), (xpcieFpgaPutQueueInfo dev selfChid dir).2)

/-! ### What a call leaves alone -/

variable {dev dev' dev'' : FpgaDevInfo} {side : DmaSide} {chid : Chid} {dir : DmaDir}

/-- The records stay as they are, and so do the channels that run, except one. -/
structure RegsOnly (side : DmaSide) (chid : Chid) (dev dev' : FpgaDevInfo) : Prop where
  /-- The records. -/
  queues : dev'.queues = dev.queues
  /-- The count. -/
  count : dev'.availableDmaChannelNum = dev.availableDmaChannelNum
  /-- The masks. -/
  chAvail : dev'.regs.chAvail = dev.regs.chAvail
  /-- The device. -/
  devId : dev'.devId = dev.devId
  /-- What runs the other channels. -/
  ctrl0 : ∀ (s : DmaSide) (c : Chid), ¬ (s = side ∧ c = chid) →
    (dev'.regs.bank s c).ctrl0 = (dev.regs.bank s c).ctrl0

/-- Everything about the other channels stays as it is. -/
structure Leaves (side : DmaSide) (chid : Chid) (dev dev' : FpgaDevInfo) : Prop where
  /-- The other records. -/
  queues : ∀ (s : DmaSide) (c : Chid), ¬ (s = side ∧ c = chid) → dev'.queues s c = dev.queues s c
  /-- The count. -/
  count : dev'.availableDmaChannelNum = dev.availableDmaChannelNum
  /-- The masks. -/
  chAvail : dev'.regs.chAvail = dev.regs.chAvail
  /-- The device. -/
  devId : dev'.devId = dev.devId
  /-- What runs the other channels. -/
  ctrl0 : ∀ (s : DmaSide) (c : Chid), ¬ (s = side ∧ c = chid) →
    (dev'.regs.bank s c).ctrl0 = (dev.regs.bank s c).ctrl0

theorem RegsOnly.refl : RegsOnly side chid dev dev := ⟨rfl, rfl, rfl, rfl, fun _ _ _ => rfl⟩

theorem RegsOnly.trans (h : RegsOnly side chid dev dev') (h' : RegsOnly side chid dev' dev'') :
    RegsOnly side chid dev dev'' where
  queues := h'.queues.trans h.queues
  count := h'.count.trans h.count
  chAvail := h'.chAvail.trans h.chAvail
  devId := h'.devId.trans h.devId
  ctrl0 s c hne := (h'.ctrl0 s c hne).trans (h.ctrl0 s c hne)

theorem RegsOnly.leaves (h : RegsOnly side chid dev dev') : Leaves side chid dev dev' :=
  ⟨fun s c _ => congrFun (congrFun h.queues s) c, h.count, h.chAvail, h.devId, h.ctrl0⟩

theorem Leaves.trans (h : Leaves side chid dev dev') (h' : Leaves side chid dev' dev'') :
    Leaves side chid dev dev'' where
  queues s c hne := (h'.queues s c hne).trans (h.queues s c hne)
  count := h'.count.trans h.count
  chAvail := h'.chAvail.trans h.chAvail
  devId := h'.devId.trans h.devId
  ctrl0 s c hne := (h'.ctrl0 s c hne).trans (h.ctrl0 s c hne)

@[simp] theorem queues_setQueue_self (info : FpgaQueueEnqdeq) :
    (dev.setQueue side chid info).queues side chid = info := if_pos ⟨rfl, rfl⟩

theorem leaves_setQueue (info : FpgaQueueEnqdeq) : Leaves side chid dev (dev.setQueue side chid info) :=
  ⟨fun _ _ hne => if_neg hne, rfl, rfl, rfl, fun _ _ _ => rfl⟩

theorem regsOnly_writeChSel (c : Chid) : RegsOnly side chid dev (dev.writeChSel dir c) :=
  ⟨rfl, rfl, rfl, rfl, fun _ _ _ => rfl⟩

/-- A write to another register than `CH_CTRL0` does not start or stop a channel. -/
theorem RegsOnly.write (h : RegsOnly side chid dev dev') {f : ChannelRegs → ChannelRegs}
    (hf : ∀ r, (f r).ctrl0 = r.ctrl0) : RegsOnly side chid dev (dev'.writeChannel dir f) := by
  refine h.trans ⟨rfl, rfl, rfl, rfl, fun s c _ => ?_⟩
  show ((dev'.regs.writeChannel dir f).bank s c).ctrl0 = _
  rw [LldmaRegs.bank_writeChannel]
  split_ifs
  · exact hf _
  · rfl

/-- A write to the selected channel changes no other. -/
theorem RegsOnly.writeSelected (h : RegsOnly dir.side chid dev dev')
    (hsel : dev'.regs.chSel dir.side = chid) (f : ChannelRegs → ChannelRegs) :
    RegsOnly dir.side chid dev (dev'.writeChannel dir f) := by
  refine h.trans ⟨rfl, rfl, rfl, rfl, fun s c hne => ?_⟩
  show ((dev'.regs.writeChannel dir f).bank s c).ctrl0 = _
  rw [LldmaRegs.bank_writeChannel, if_neg]
  rintro ⟨rfl, hc⟩
  exact hne ⟨rfl, Fin.ext (hc.trans hsel)⟩

theorem regsOnly_queueSetAddr (c : Chid) (addr : BitVec 64) :
    RegsOnly side chid dev (queueSetAddr dev c dir addr) := by
  unfold queueSetAddr
  split
  · exact .refl
  · split
    · exact .refl
    · exact ((regsOnly_writeChSel c).write fun _ => by rfl).write fun _ => by rfl

theorem regsOnly_queueSetCtrl (c : Chid) (cid : BitVec 8) :
    RegsOnly side chid dev (queueSetCtrl dev c dir cid) := by
  unfold queueSetCtrl
  split
  · exact .refl
  · split
    · exact .refl
    · exact ((regsOnly_writeChSel c).write fun _ => by rfl).write fun _ => by rfl

theorem regsOnly_setBuf (bufSize : BitVec 32) (bufAddr : BitVec 64) :
    RegsOnly side chid dev (xpcieFpgaSetBuf dev dir bufSize bufAddr) :=
  ((RegsOnly.refl.write fun _ => by rfl).write fun _ => by rfl).write fun _ => by rfl

/-! ### The sides of a direction -/

theorem DmaDir.side_of_queueSide (h : dir.queueSide = some side) : dir.side = side := by
  cases dir <;> cases h <;> rfl

theorem DmaDir.side_of_connectSide (h : dir.connectSide = some side) : dir.side = side := by
  cases dir <;> cases h <;> rfl

theorem DmaDir.side_of_anySide (h : dir.anySide = some side) : dir.side = side := by
  cases dir <;> cases h <;> rfl

theorem DmaDir.anySide_of_queueSide (h : dir.queueSide = some side) : dir.anySide = some side := by
  cases dir <;> cases h <;> rfl

theorem DmaDir.anySide_of_connectSide (h : dir.connectSide = some side) :
    dir.anySide = some side := by
  cases dir <;> cases h <;> rfl

/-! ### What the calls do -/

/-- Starting a channel changes nothing about the others. -/
theorem xpcieFpgaStartQueue_leaves (dev : FpgaDevInfo) (chid : Chid)
    (hside : dir.queueSide = some side) (data : BitVec 32) :
    Leaves side chid dev (xpcieFpgaStartQueue dev chid dir data) := by
  unfold xpcieFpgaStartQueue
  split
  · exact RegsOnly.refl.leaves
  · simp only [hside]
    have hregs : RegsOnly side chid dev
        ((queueSetCtrl (queueSetAddr dev chid dir 0) chid dir 255).writeChSel dir chid) :=
      ((regsOnly_queueSetAddr chid 0).trans (regsOnly_queueSetCtrl chid 255)).trans
        (regsOnly_writeChSel chid)
    obtain rfl := DmaDir.side_of_queueSide hside
    exact (hregs.leaves.trans (leaves_setQueue _)).trans
      (RegsOnly.refl.writeSelected (LldmaRegs.chSel_writeChSel ..) _).leaves

/-- Below the count the queue gets its heads from the hardware. -/
theorem xpcieFpgaStartQueue_queues (dev : FpgaDevInfo) (chid : Chid)
    (hside : dir.queueSide = some side) (data : BitVec 32) :
    (xpcieFpgaStartQueue dev chid dir data).queues side chid =
      { dev.queues side chid with
        que := if dev.availableDmaChannelNum ≤ chid then (dev.queues side chid).que
          else { (dev.queues side chid).que with
            writehead := ((data &&& 0xFF000000) >>> 24).toNat
            readhead := ((data &&& 0xFF000000) >>> 24).toNat } } := by
  unfold xpcieFpgaStartQueue
  split_ifs with hle
  · rfl
  · simp only [hside]
    have hregs : RegsOnly side chid dev
        (queueSetCtrl (queueSetAddr dev chid dir 0) chid dir 255) :=
      (regsOnly_queueSetAddr chid 0).trans (regsOnly_queueSetCtrl chid 255)
    refine (queues_setQueue_self _).trans ?_
    simp only [FpgaDevInfo.writeChSel, hregs.queues]

/-- The channel is taken under a name, and nothing else changes. -/
structure Takes (side : DmaSide) (chid : Chid) (connectorId : ConnectorId) (dev dev' : FpgaDevInfo) :
    Prop where
  /-- The others. -/
  leaves : Leaves side chid dev dev'
  /-- The status. -/
  status : (dev'.queues side chid).status = .used
  /-- The name. -/
  name : (dev'.queues side chid).connectorId = connectorId

/-- The channel is put back, and nothing else changes. -/
structure Frees (side : DmaSide) (chid : Chid) (dev dev' : FpgaDevInfo) : Prop where
  /-- The others. -/
  leaves : Leaves side chid dev dev'
  /-- The status. -/
  status : (dev'.queues side chid).status = .free
  /-- The name. -/
  name : (dev'.queues side chid).connectorId = .empty

/-- **`xpcie_fpga_get_queue`** takes a free channel, or changes nothing. -/
theorem xpcieFpgaGetQueue_cases (dev : FpgaDevInfo) (q : FpgaIoctlQueue) (data : BitVec 32) :
    (q.dir.queueSide = none ∧ xpcieFpgaGetQueue dev q data = (.error .einval, dev)) ∨
    ∃ side, q.dir.queueSide = some side ∧
      ((dev.queues side q.chid).status = .used ∧
          xpcieFpgaGetQueue dev q data = (.error .ebusy, dev) ∨
        (dev.queues side q.chid).status = .free ∧ ∃ dev',
          xpcieFpgaGetQueue dev q data =
            (.ok { q with mapSize := (dev.queues side q.chid).qpMemSize }, dev') ∧
          Takes side q.chid q.connectorId dev dev') := by
  cases hside : q.dir.queueSide with
  | none => exact .inl ⟨rfl, by simp only [xpcieFpgaGetQueue, hside]⟩
  | some side =>
    refine .inr ⟨side, rfl, ?_⟩
    cases hst : (dev.queues side q.chid).status with
    | used => exact .inl ⟨rfl, by simp [xpcieFpgaGetQueue, hside, hst]⟩
    | free =>
      let mid := dev.setQueue side q.chid { dev.queues side q.chid with
        status := .used
        que := { (dev.queues side q.chid).que with ring := fun _ => .zero } }
      have hleaves := xpcieFpgaStartQueue_leaves mid q.chid hside data
      have hq := xpcieFpgaStartQueue_queues mid q.chid hside data
      rw [show mid.queues side q.chid = _ from queues_setQueue_self _] at hq
      refine .inr ⟨rfl, (xpcieFpgaStartQueue mid q.chid q.dir data).setQueue side q.chid
        { (xpcieFpgaStartQueue mid q.chid q.dir data).queues side q.chid with
          connectorId := q.connectorId }, ?_, ?_⟩
      · have hsize : ((xpcieFpgaStartQueue mid q.chid q.dir data).queues side q.chid).qpMemSize =
            (dev.queues side q.chid).qpMemSize := by rw [hq]
        rw [← hsize]
        simp only [xpcieFpgaGetQueue, hside, hst, ne_eq, not_true_eq_false, if_false]
        rfl
      · refine ⟨((leaves_setQueue _).trans hleaves).trans (leaves_setQueue _), ?_, ?_⟩
        · rw [queues_setQueue_self, hq]
        · rw [queues_setQueue_self]

/-- The hardware is busy at every poll. -/
def TimesOut (monitor : ℕ → BitVec 32) : Prop := ∀ cnt < drainPolls, monitor cnt ≠ 0

instance (monitor : ℕ → BitVec 32) : Decidable (TimesOut monitor) :=
  inferInstanceAs (Decidable (∀ cnt < drainPolls, _))

theorem drainLoop_eq (monitor : ℕ → BitVec 32) (n cnt : ℕ) :
    drainLoop monitor cnt n = cnt + n ↔ ∀ k, cnt ≤ k → k < cnt + n → monitor k ≠ 0 := by
  induction n generalizing cnt with
  | zero =>
    constructor
    · intro _ k hk hk'
      omega
    · intro _
      rfl
  | succ n ih =>
    unfold drainLoop
    split_ifs with hz
    · constructor
      · intro he
        omega
      · intro h
        exact absurd hz (h cnt (Nat.le_refl _) (by omega))
    · rw [show cnt + (n + 1) = cnt + 1 + n by omega, ih]
      constructor
      · intro h k hk hk'
        rcases Nat.eq_or_lt_of_le hk with rfl | hlt
        · exact hz
        · exact h k hlt hk'
      · exact fun h k hk hk' => h k (by omega) hk'

/-- The loop gets to its end exactly if the hardware stays busy. -/
theorem drainLoop_eq_drainPolls_iff (monitor : ℕ → BitVec 32) :
    drainLoop monitor 0 drainPolls = drainPolls ↔ TimesOut monitor := by
  have := drainLoop_eq monitor drainPolls 0
  simpa only [Nat.zero_add, Nat.zero_le, true_implies, TimesOut] using this

/-- `xpcie_fpga_stop_queue` fails exactly if the hardware stays busy. -/
theorem xpcieFpgaStopQueue_cases (dev : FpgaDevInfo) (chid : Chid) (dir : DmaDir)
    (monitor : ℕ → BitVec 32) : ∃ dev', RegsOnly dir.side chid dev dev' ∧
      (TimesOut monitor ∧ xpcieFpgaStopQueue dev chid dir monitor = (.error .efault, dev') ∨
        ¬ TimesOut monitor ∧ xpcieFpgaStopQueue dev chid dir monitor = (.ok (), dev')) := by
  have hsel : (dev.writeChSel dir chid).regs.chSel dir.side = chid :=
    LldmaRegs.chSel_writeChSel ..
  have hloop := drainLoop_eq_drainPolls_iff monitor
  refine ⟨((dev.writeChSel dir chid).writeChannel dir fun r => { r with ctrl0 := 0 }).writeChannel dir
    fun r => { r with ctrl0 := enableClear },
    ((regsOnly_writeChSel chid).writeSelected hsel _).writeSelected hsel _, ?_⟩
  by_cases ht : TimesOut monitor
  · exact .inl ⟨ht, by rw [xpcieFpgaStopQueue, if_pos (hloop.mpr ht)]⟩
  · exact .inr ⟨ht, by rw [xpcieFpgaStopQueue, if_neg (mt hloop.mp ht)]⟩

theorem xpcieFpgaPutQueueInfo_frees (dev : FpgaDevInfo) (chid : Chid)
    (hside : dir.anySide = some side) :
    ∃ dev', xpcieFpgaPutQueueInfo dev chid dir = (.ok (), dev') ∧ Frees side chid dev dev' := by
  refine ⟨dev.setQueue side chid
    { dev.queues side chid with connectorId := .empty, status := .free },
    by simp only [xpcieFpgaPutQueueInfo, hside], leaves_setQueue _, ?_, ?_⟩
  · rw [queues_setQueue_self]
  · rw [queues_setQueue_self]

/-- **`xpcie_fpga_put_queue`** stops the channel; if that times out the record stays as it is, else
the channel is put back. -/
theorem xpcieFpgaPutQueue_cases (dev : FpgaDevInfo) (q : FpgaIoctlQueue) (monitor : ℕ → BitVec 32)
    (hside : q.dir.anySide = some side) :
    (TimesOut monitor ∧ ∃ dev', xpcieFpgaPutQueue dev q monitor = (.error .efault, dev') ∧
      RegsOnly side q.chid dev dev') ∨
    (¬ TimesOut monitor ∧ ∃ dev', xpcieFpgaPutQueue dev q monitor = (.ok (), dev') ∧
      Frees side q.chid dev dev') := by
  obtain rfl := DmaDir.side_of_anySide hside
  obtain ⟨dev', hregs, ⟨ht, hr⟩ | ⟨ht, hr⟩⟩ := xpcieFpgaStopQueue_cases dev q.chid q.dir monitor
  · exact .inl ⟨ht, dev', by simp only [xpcieFpgaPutQueue, hr], hregs⟩
  · obtain ⟨last, hp, hfree⟩ := xpcieFpgaPutQueueInfo_frees dev' q.chid hside
    exact .inr ⟨ht, last, by simp only [xpcieFpgaPutQueue, hr, hp],
      hregs.leaves.trans hfree.leaves, hfree.status, hfree.name⟩

/-- **`xpcie_fpga_dev_connect`** takes a free channel, or changes nothing. -/
theorem xpcieFpgaDevConnect_cases (dev : FpgaDevInfo) (chid : Chid) (peerChid : BitVec 32)
    (dir : DmaDir) (peerAddr : BitVec 64) (bufSize : BitVec 32) (bufAddr : BitVec 64)
    (id : ConnectorId) :
    (dir.connectSide = none ∧
      xpcieFpgaDevConnect dev chid peerChid dir peerAddr bufSize bufAddr id = (.error .einval, dev)) ∨
    ∃ side, dir.connectSide = some side ∧
      ((dev.queues side chid).status = .used ∧
          xpcieFpgaDevConnect dev chid peerChid dir peerAddr bufSize bufAddr id =
            (.error .ebusy, dev) ∨
        (dev.queues side chid).status = .free ∧ ∃ dev',
          xpcieFpgaDevConnect dev chid peerChid dir peerAddr bufSize bufAddr id = (.ok (), dev') ∧
          Takes side chid id dev dev') := by
  cases hside : dir.connectSide with
  | none => exact .inl ⟨rfl, by simp only [xpcieFpgaDevConnect, hside]⟩
  | some side =>
    refine .inr ⟨side, rfl, ?_⟩
    cases hst : (dev.queues side chid).status with
    | used => exact .inl ⟨rfl, by simp [xpcieFpgaDevConnect, hside, hst]⟩
    | free =>
      let mid := dev.setQueue side chid { dev.queues side chid with status := .used }
      let set := queueSetAddr (queueSetCtrl mid chid dir (peerChid.setWidth 8)) chid dir peerAddr
      let buf := if dir.UsesBuf then xpcieFpgaSetBuf set dir bufSize bufAddr else set
      let last := (buf.writeChSel dir chid).writeChannel dir
        fun r => { r with ctrl0 := enableIe ||| enableOe }
      obtain rfl := DmaDir.side_of_connectSide hside
      have hset : RegsOnly dir.side chid mid set :=
        (regsOnly_queueSetCtrl chid _).trans (regsOnly_queueSetAddr chid _)
      have hbuf : RegsOnly dir.side chid set buf := by
        by_cases hb : dir.UsesBuf
        · rw [show buf = _ from if_pos hb]
          exact regsOnly_setBuf _ _
        · rw [show buf = _ from if_neg hb]
          exact .refl
      have hlast : RegsOnly dir.side chid mid last :=
        ((hset.trans hbuf).trans (regsOnly_writeChSel chid)).writeSelected
          (LldmaRegs.chSel_writeChSel ..) _
      refine .inr ⟨rfl, last.setQueue dir.side chid
        { last.queues dir.side chid with connectorId := id }, ?_, ?_⟩
      · simp only [xpcieFpgaDevConnect, hside, hst, ne_eq, not_true_eq_false, if_false]
        rfl
      · refine ⟨((leaves_setQueue _).trans hlast.leaves).trans (leaves_setQueue _), ?_, ?_⟩
        · rw [queues_setQueue_self, hlast.queues]
          exact congrArg FpgaQueueEnqdeq.status (queues_setQueue_self _)
        · rw [queues_setQueue_self]

/-- **`xpcie_fpga_dev_disconnect`** stops the channel; if that times out the record stays as it is,
else the channel is put back. -/
theorem xpcieFpgaDevDisconnect_cases (dev : FpgaDevInfo) (chid : Chid) (dir : DmaDir)
    (monitor : ℕ → BitVec 32) (hside : dir.anySide = some side) :
    (TimesOut monitor ∧ ∃ dev', xpcieFpgaDevDisconnect dev chid dir monitor = (.error .efault, dev') ∧
      RegsOnly side chid dev dev') ∨
    (¬ TimesOut monitor ∧ ∃ dev', xpcieFpgaDevDisconnect dev chid dir monitor = (.ok (), dev') ∧
      Frees side chid dev dev') := by
  obtain rfl := DmaDir.side_of_anySide hside
  have hsel : RegsOnly dir.side chid dev (dev.writeChSel dir chid) := regsOnly_writeChSel chid
  obtain ⟨dev', hregs, ⟨ht, hr⟩ | ⟨ht, hr⟩⟩ :=
    xpcieFpgaStopQueue_cases (dev.writeChSel dir chid) chid dir monitor
  · exact .inl ⟨ht, dev', by simp only [xpcieFpgaDevDisconnect, hr], hsel.trans hregs⟩
  · let init := (((dev'.writeChannel dir fun r => { r with qCtrl := 0x10 <<< 8 }).writeChannel dir
      fun r => { r with ctrl1 := chCtrl1Init }).writeChannel dir
      fun r => { r with qAddrUp := 0 }).writeChannel dir
      fun r => { r with qAddrDn := 0 }
    let last := if dir.UsesBuf then xpcieFpgaSetBuf init dir 0 0 else init
    have hinit : RegsOnly dir.side chid dev init :=
      ((((hsel.trans hregs).write fun _ => by rfl).write fun _ => by rfl).write
        fun _ => by rfl).write fun _ => by rfl
    have hlast : RegsOnly dir.side chid dev last := by
      by_cases hb : dir.UsesBuf
      · rw [show last = _ from if_pos hb]
        exact hinit.trans (regsOnly_setBuf _ _)
      · rw [show last = _ from if_neg hb]
        exact hinit
    obtain ⟨end', hp, hfree⟩ := xpcieFpgaPutQueueInfo_frees last chid hside
    refine .inr ⟨ht, end', ?_, hlast.leaves.trans hfree.leaves, hfree.status, hfree.name⟩
    simp only [xpcieFpgaDevDisconnect, hr]
    exact congrArg (fun r => ((Except.ok () : Except Errno Unit), r.2)) hp

/-! ### Looking up a name -/

/-- The direction between the host and the device on a side. -/
def DmaSide.hostDir : DmaSide → DmaDir
  | .rx => .hostToDev
  | .tx => .devToHost

@[simp] theorem DmaSide.side_hostDir (side : DmaSide) : side.hostDir.side = side := by
  cases side <;> rfl

@[simp] theorem DmaSide.queueSide_hostDir (side : DmaSide) : side.hostDir.queueSide = some side := by
  cases side <;> rfl

/-- The scan gets to the first channel before it gets to the second. -/
def ScanBefore (s : DmaSide) (c : Chid) (side : DmaSide) (chid : Chid) : Prop :=
  (s = .rx ∧ side = .tx) ∨ (s = side ∧ c < chid)

/-- One scan finds the first channel of its side that has the name. -/
theorem xpcieFpgaScanQueue_cases (dev : FpgaDevInfo) (id : ConnectorId) (side : DmaSide) :
    (∃ chid, xpcieFpgaScanQueue dev id side.hostDir = .ok chid ∧ dev.Carries id side chid ∧
      ∀ c < chid, ¬ dev.Carries id side c) ∨
    (xpcieFpgaScanQueue dev id side.hostDir = .error .ebusy ∧ ∀ c, ¬ dev.Carries id side c) := by
  have hscan : xpcieFpgaScanQueue dev id side.hostDir =
      (scanLoop dev id side).elim (.error .ebusy) .ok := by
    cases side <;> rfl
  rw [hscan]
  cases hf : scanLoop dev id side with
  | some chid =>
    obtain ⟨hc, hlt⟩ := Fin.find?_eq_some_iff.mp hf
    exact .inl ⟨chid, rfl, of_decide_eq_true hc, fun c h => of_decide_eq_false (hlt c h)⟩
  | none =>
    exact .inr ⟨rfl, fun c => of_decide_eq_false (Fin.find?_eq_none_iff.mp hf c)⟩

/-- The channel is the first in the order of the scan that has the name. -/
def FpgaDevInfo.First (dev : FpgaDevInfo) (id : ConnectorId) (side : DmaSide) (chid : Chid) : Prop :=
  dev.Carries id side chid ∧ ∀ s c, ScanBefore s c side chid → ¬ dev.Carries id s c

theorem ScanBefore.asymm {s s' : DmaSide} {c c' : Chid} (h : ScanBefore s c s' c') :
    ¬ ScanBefore s' c' s c := by
  rcases h with ⟨rfl, rfl⟩ | ⟨rfl, hlt⟩
  · rintro (⟨h, -⟩ | ⟨h, -⟩)
    · cases h
    · cases h
  · rintro (⟨rfl, h⟩ | ⟨-, hlt'⟩)
    · cases h
    · exact absurd hlt (Nat.lt_asymm hlt')

theorem scanBefore_trichotomy (s s' : DmaSide) (c c' : Chid) :
    ScanBefore s c s' c' ∨ (s = s' ∧ c = c') ∨ ScanBefore s' c' s c := by
  by_cases hs : s = s'
  · subst hs
    rcases Nat.lt_trichotomy c c' with hlt | heq | hgt
    · exact .inl (.inr ⟨rfl, hlt⟩)
    · exact .inr (.inl ⟨rfl, Fin.ext heq⟩)
    · exact .inr (.inr (.inr ⟨rfl, hgt⟩))
  · cases s <;> cases s'
    · exact absurd rfl hs
    · exact .inl (.inl ⟨rfl, rfl⟩)
    · exact .inr (.inr (.inl ⟨rfl, rfl⟩))
    · exact absurd rfl hs

theorem FpgaDevInfo.First.unique {id : ConnectorId} {s s' : DmaSide} {c c' : Chid}
    (h : dev.First id s c) (h' : dev.First id s' c') : s = s' ∧ c = c' := by
  rcases scanBefore_trichotomy s s' c c' with hb | he | hb
  · exact absurd h.1 (h'.2 s c hb)
  · exact he
  · exact absurd h'.1 (h.2 s' c' hb)

theorem xpcieFpgaRefQueue_cases (dev : FpgaDevInfo) (q : FpgaIoctlQueue) :
    (∃ side chid, dev.First q.connectorId side chid ∧
      xpcieFpgaRefQueue dev q = .ok { q with
        dir := side.hostDir, mapSize := (dev.queues side chid).qpMemSize, chid := chid }) ∨
    (xpcieFpgaRefQueue dev q = .error .ebusy ∧ ∀ s c, ¬ dev.Carries q.connectorId s c) := by
  have hrx := xpcieFpgaScanQueue_cases dev q.connectorId .rx
  have htx := xpcieFpgaScanQueue_cases dev q.connectorId .tx
  simp only [DmaSide.hostDir] at hrx htx
  unfold xpcieFpgaRefQueue
  rcases hrx with ⟨chid, hr, hc, hlt⟩ | ⟨hr, hnone⟩
  · refine .inl ⟨.rx, chid, ⟨hc, ?_⟩, by simp only [hr, DmaSide.hostDir]⟩
    rintro s c (⟨-, h⟩ | ⟨rfl, h⟩)
    · cases h
    · exact hlt c h
  · rcases htx with ⟨chid, hr', hc, hlt⟩ | ⟨hr', hnone'⟩
    · refine .inl ⟨.tx, chid, ⟨hc, ?_⟩, by simp only [hr, hr', DmaSide.hostDir]⟩
      rintro s c (⟨rfl, -⟩ | ⟨rfl, h⟩)
      · exact hnone c
      · exact hlt c h
    · refine .inr ⟨by simp only [hr, hr'], fun s c => ?_⟩
      cases s with
      | rx => exact hnone c
      | tx => exact hnone' c

/-- **`xpcie_fpga_ref_queue`** finds the first channel in the order of the scan that has the
name. -/
theorem xpcieFpgaRefQueue_eq_ok {q q' : FpgaIoctlQueue} :
    xpcieFpgaRefQueue dev q = .ok q' ↔ ∃ side chid, dev.First q.connectorId side chid ∧
      q' = { q with
        dir := side.hostDir, mapSize := (dev.queues side chid).qpMemSize, chid := chid } := by
  rcases xpcieFpgaRefQueue_cases dev q with ⟨side, chid, hf, hr⟩ | ⟨hr, hnone⟩
  · rw [hr]
    constructor
    · rintro ⟨⟩
      exact ⟨side, chid, hf, rfl⟩
    · rintro ⟨s, c, hf', rfl⟩
      obtain ⟨rfl, rfl⟩ := hf.unique hf'
      rfl
  · rw [hr]
    constructor
    · nofun
    · rintro ⟨s, c, hf, -⟩
      exact absurd hf.1 (hnone s c)

end HardwareDrivers.Driver
