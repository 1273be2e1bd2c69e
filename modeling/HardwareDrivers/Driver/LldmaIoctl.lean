import HardwareDrivers.Driver.Lldma
import HardwareDrivers.Theory.Transition

/-!
# The calls on the device file

`xpcie_device_fops.c` and `xpcie_device_fops_lldma.c`: any number of files are open on
one device, and each keeps in its private data the channel it is bound to and whether
it got that channel itself. The calls take the channel from the caller or from the
private data, and some of them change the private data.

## What is proved

* `ioctl_allocQueue_cases` and the like — what each command does to the channel, to the
  other channels and to the private data of the file.
* `fileStep_effect` — every call changes no record, or takes one free channel, or puts
  one back, and never changes the count of the channels or their masks.
-/

namespace HardwareDrivers.Driver

open Theory

/-! ### The calls -/

/-- `chid`, `que_kind` and `is_get_queue` of `struct xpcie_file_private`. -/
structure FileBinding where
  /-- `que_kind`. -/
  queKind : DmaDir
  /-- `chid`. -/
  chid : Chid
  /-- `is_get_queue`. -/
  isGetQueue : Bool
  deriving DecidableEq

/-- `struct xpcie_file_private`: what the file is bound to; `none` while `chid` and `que_kind` are
`-1` and `is_get_queue` is false. -/
abbrev XpcieFilePrivate := Option FileBinding

/-- `is_get_queue`. -/
def XpcieFilePrivate.isGetQueue (priv : XpcieFilePrivate) : Bool :=
  priv.elim false FileBinding.isGetQueue

/-- `fpga_ioctl_connect_t`. The side says whether `self_dir` is `DMA_HOST_TO_DEV` or
`DMA_DEV_TO_HOST`; with any other value the call uses a variable that is not set. -/
structure FpgaIoctlConnect where
  /-- `self_dir`. -/
  selfSide : DmaSide
  /-- `self_chid`. -/
  selfChid : Chid
  /-- `peer_chid`. -/
  peerChid : BitVec 32
  /-- `peer_minor`. -/
  peerMinor : ℕ
  /-- `buf_size`. -/
  bufSize : BitVec 32
  /-- `buf_addr`. -/
  bufAddr : BitVec 64
  /-- `connector_id`. -/
  connectorId : ConnectorId

/-- The direction of a connection, used only in the driver. -/
def FpgaIoctlConnect.dir (c : FpgaIoctlConnect) : DmaDir :=
  match c.selfSide with
  | .rx => if c.bufAddr = 0 then .d2dDRx else .d2dRx
  | .tx => if c.bufAddr = 0 then .d2dDTx else .d2dTx

/-- What a call meets outside the driver. -/
structure CallEnv where
  /-- `copy_from_user` works. -/
  copyFromUser : Bool
  /-- `copy_to_user` works. -/
  copyToUser : Bool
  /-- What the hardware shows in `Q_CTRL`. -/
  data : BitVec 32
  /-- What the hardware shows in `CH_CTRL0` at each poll. -/
  monitor : ℕ → BitVec 32
  /-- `xpcie_fpga_get_baseaddr`; `0` if there is no such device. -/
  baseaddr : ℕ → BitVec 64

/-- A call in which nothing fails, on a system with one device. -/
def CallEnv.quiet : CallEnv := ⟨true, true, 0, fun _ => 0, fun _ => 0⟩

/-- The commands that set up and tear down a channel. -/
inductive LldmaCmd where
  /-- `XPCIE_DEV_LLDMA_ALLOC_QUEUE`. -/
  | allocQueue (ioctlQueue : FpgaIoctlQueue)
  /-- `XPCIE_DEV_LLDMA_BIND_QUEUE`. -/
  | bindQueue (ioctlQueue : FpgaIoctlQueue)
  /-- `XPCIE_DEV_LLDMA_FREE_QUEUE`. -/
  | freeQueue (ioctlQueue : FpgaIoctlQueue)
  /-- `XPCIE_DEV_LLDMA_ALLOC_CONNECTION`. -/
  | allocConnection (ioctlConnect : FpgaIoctlConnect)
  /-- `XPCIE_DEV_LLDMA_FREE_CONNECTION`. -/
  | freeConnection

/-- `xpcie_fpga_ioctl_lldma`: the result, with what is copied to the caller, and the new states. -/
def xpcieFpgaIoctlLldma (dev : FpgaDevInfo) (priv : XpcieFilePrivate) (env : CallEnv) :
    LldmaCmd → Except Errno (Option FpgaIoctlQueue) × FpgaDevInfo × XpcieFilePrivate
  | .allocQueue ioctlQueue =>
    if env.copyFromUser = false then (.error .efault, dev, priv)
    else
      match xpcieFpgaGetQueue dev ioctlQueue env.data with
      | (.error e, dev) => (.error e, dev, priv)
      | (.ok ioctlQueue, dev) =>
        if env.copyToUser = false then
          (.error .efault, (xpcieFpgaPutQueue dev ioctlQueue env.monitor).2, priv)
        else (.ok (some ioctlQueue), dev, some ⟨ioctlQueue.dir, ioctlQueue.chid, true⟩)
  | .bindQueue ioctlQueue =>
    if env.copyFromUser = false then (.error .efault, dev, priv)
    else
      match xpcieFpgaRefQueue dev ioctlQueue with
      | .error _ => (.error .ebusy, dev, priv)
      | .ok ioctlQueue =>
        if env.copyToUser = false then (.error .efault, dev, priv)
        else (.ok (some ioctlQueue), dev, some ⟨ioctlQueue.dir, ioctlQueue.chid, priv.isGetQueue⟩)
  | .freeQueue ioctlQueue =>
    if env.copyFromUser = false then (.error .efault, dev, priv)
    else if priv.map FileBinding.queKind ≠ some ioctlQueue.dir then (.error .ebusy, dev, priv)
    else
      match xpcieFpgaPutQueue dev ioctlQueue env.monitor with
      | (.error _, dev) => (.error .ebusy, dev, priv)
      | (.ok _, dev) => (.ok none, dev, none)
  | .allocConnection ioctlConnect =>
    if env.copyFromUser = false then (.error .efault, dev, priv)
    else if dev.devId = ioctlConnect.peerMinor then (.error .einval, dev, priv)
    else
      let peerAddr := env.baseaddr ioctlConnect.peerMinor
      if peerAddr = 0 then (.error .einval, dev, priv)
      else
        match xpcieFpgaDevConnect dev ioctlConnect.selfChid ioctlConnect.peerChid ioctlConnect.dir
          peerAddr ioctlConnect.bufSize ioctlConnect.bufAddr ioctlConnect.connectorId with
        | (.error e, dev) => (.error e, dev, priv)
        | (.ok _, dev) => (.ok none, dev, some ⟨ioctlConnect.dir, ioctlConnect.selfChid, true⟩)
  | .freeConnection =>
    match priv with
    | some ⟨queKind, chid, true⟩ =>
      match xpcieFpgaDevDisconnect dev chid queKind env.monitor with
      | (.error e, dev) => (.error e, dev, priv)
      | (.ok _, dev) => (.ok none, dev, none)
    | _ => (.error .einval, dev, priv)

/-- `xpcie_cdev_release`. -/
def xpcieCdevRelease (dev : FpgaDevInfo) (priv : XpcieFilePrivate) (monitor : ℕ → BitVec 32) :
    FpgaDevInfo :=
  match priv with
  | some ⟨queKind, chid, true⟩ =>
    (xpcieFpgaPutQueueInfo (xpcieFpgaStopQueue dev chid queKind monitor).2 chid queKind).2
  | _ => dev

/-! ### The system -/

/-- A device and the files open on it. -/
structure LldmaSystem where
  /-- The device. -/
  dev : FpgaDevInfo
  /-- The private data of the open files. -/
  files : ℕ → Option XpcieFilePrivate

/-- A device just found, no file open. -/
def LldmaSystem.init (devId : ℕ) (regs : LldmaRegs) (ringPhys : DmaSide → Chid → BitVec 64) :
    LldmaSystem := ⟨xpcieFpgaDevInit devId regs ringPhys, fun _ => none⟩

/-- The channel that the file got. -/
def XpcieFilePrivate.owned (priv : XpcieFilePrivate) : Option (DmaSide × Chid) :=
  match priv with
  | some ⟨queKind, chid, true⟩ => some (queKind.side, chid)
  | _ => none

/-- The channel that the file got, if the file is open. -/
def LldmaSystem.owner (s : LldmaSystem) (fd : ℕ) : Option (DmaSide × Chid) :=
  (s.files fd).bind XpcieFilePrivate.owned

/-- A call on a file. -/
inductive FileOp where
  /-- `open`. -/
  | cdevOpen (fd : ℕ)
  /-- `ioctl`. -/
  | cdevIoctl (fd : ℕ) (env : CallEnv) (cmd : LldmaCmd)
  /-- `close`. -/
  | cdevRelease (fd : ℕ) (monitor : ℕ → BitVec 32)

/-- The file. -/
def FileOp.fd : FileOp → ℕ
  | .cdevOpen fd | .cdevIoctl fd _ _ | .cdevRelease fd _ => fd

/-- One call: a new file is opened, or the file is open. -/
def fileStep (s : LldmaSystem) : FileOp → Option LldmaSystem
  | .cdevOpen fd =>
    match s.files fd with
    | none => some { s with files := Function.update s.files fd (some none) }
    | some _ => none
  | .cdevIoctl fd env cmd =>
    match s.files fd with
    | none => none
    | some priv =>
      let (_, dev, priv) := xpcieFpgaIoctlLldma s.dev priv env cmd
      some { dev, files := Function.update s.files fd (some priv) }
  | .cdevRelease fd monitor =>
    match s.files fd with
    | none => none
    | some priv =>
      some { dev := xpcieCdevRelease s.dev priv monitor, files := Function.update s.files fd none }

/-! ### What a call does -/

/-- The direction the file is bound to is one of the known ones. -/
def XpcieFilePrivate.Known (priv : XpcieFilePrivate) : Prop :=
  ∀ b, priv = some b → b.queKind.anySide = some b.queKind.side

variable (dev : FpgaDevInfo) (priv : XpcieFilePrivate) (env : CallEnv)

/-- `XPCIE_DEV_LLDMA_ALLOC_QUEUE` changes nothing, or takes a free channel for the file; if the
result cannot be copied out, it stops the channel again and puts it back if that does not time
out. -/
theorem ioctl_allocQueue_cases (q : FpgaIoctlQueue) :
    (∃ e, xpcieFpgaIoctlLldma dev priv env (.allocQueue q) = (.error e, dev, priv) ∧
      (env.copyFromUser = true → ∀ side, q.dir.queueSide = some side →
        (dev.queues side q.chid).status = .used)) ∨
    ∃ side dev', env.copyFromUser = true ∧ q.dir.queueSide = some side ∧
      (dev.queues side q.chid).status = .free ∧
      ((env.copyToUser = true ∧ Takes side q.chid q.connectorId dev dev' ∧
          xpcieFpgaIoctlLldma dev priv env (.allocQueue q) =
            (.ok (some { q with mapSize := (dev.queues side q.chid).qpMemSize }), dev',
              some ⟨q.dir, q.chid, true⟩)) ∨
        (env.copyToUser = false ∧
          (TimesOut env.monitor ∧ Takes side q.chid q.connectorId dev dev' ∨
            ¬ TimesOut env.monitor ∧ Frees side q.chid dev dev') ∧
          xpcieFpgaIoctlLldma dev priv env (.allocQueue q) = (.error .efault, dev', priv))) := by
  unfold xpcieFpgaIoctlLldma
  cases hfrom : env.copyFromUser with
  | false => exact .inl ⟨.efault, by simp only [if_true], nofun⟩
  | true =>
    simp only [Bool.true_eq_false, if_false]
    rcases xpcieFpgaGetQueue_cases dev q env.data with
      ⟨hno, hr⟩ | ⟨side, hside, ⟨hused, hr⟩ | ⟨hfree, dev', hr, htake⟩⟩
    · refine .inl ⟨_, by rw [hr], fun _ side hside => ?_⟩
      rw [hno] at hside
      cases hside
    · refine .inl ⟨_, by rw [hr], fun _ side' hside' => ?_⟩
      rw [hside] at hside'
      cases hside'
      exact hused
    · rw [hr]
      cases hto : env.copyToUser with
      | true =>
        exact .inr ⟨side, dev', trivial, hside, hfree, .inl ⟨rfl, htake, by simp⟩⟩
      | false =>
        have hq : xpcieFpgaPutQueue dev' { q with mapSize := (dev.queues side q.chid).qpMemSize }
            env.monitor = xpcieFpgaPutQueue dev' q env.monitor := rfl
        simp only [if_true, hq]
        rcases xpcieFpgaPutQueue_cases dev' q env.monitor (DmaDir.anySide_of_queueSide hside) with
          ⟨ht, last, hput, hregs⟩ | ⟨ht, last, hput, hfrees⟩
        · refine .inr ⟨side, last, trivial, hside, hfree, .inr ⟨trivial, .inl ⟨ht, ?_⟩, by rw [hput]⟩⟩
          exact ⟨htake.leaves.trans hregs.leaves, by rw [hregs.queues]; exact htake.status,
            by rw [hregs.queues]; exact htake.name⟩
        · refine .inr ⟨side, last, trivial, hside, hfree, .inr ⟨trivial, .inr ⟨ht, ?_⟩, by rw [hput]⟩⟩
          exact ⟨htake.leaves.trans hfrees.leaves, hfrees.status, hfrees.name⟩

/-- `XPCIE_DEV_LLDMA_BIND_QUEUE` changes nothing, or binds the file to the first channel in the
order of the scan that has the name. -/
theorem ioctl_bindQueue_cases (q : FpgaIoctlQueue) :
    (∃ e, xpcieFpgaIoctlLldma dev priv env (.bindQueue q) = (.error e, dev, priv)) ∨
    ∃ side chid, env.copyFromUser = true ∧ env.copyToUser = true ∧
      dev.First q.connectorId side chid ∧
      xpcieFpgaIoctlLldma dev priv env (.bindQueue q) =
        (.ok (some { q with
          dir := side.hostDir, mapSize := (dev.queues side chid).qpMemSize, chid := chid }), dev,
          some ⟨side.hostDir, chid, priv.isGetQueue⟩) := by
  unfold xpcieFpgaIoctlLldma
  cases hfrom : env.copyFromUser with
  | false => exact .inl ⟨.efault, by simp only [if_true]⟩
  | true =>
    simp only [Bool.true_eq_false, if_false]
    rcases xpcieFpgaRefQueue_cases dev q with ⟨side, chid, hf, hr⟩ | ⟨hr, -⟩
    · rw [hr]
      cases hto : env.copyToUser with
      | true => exact .inr ⟨side, chid, trivial, rfl, hf, by simp⟩
      | false => exact .inl ⟨.efault, by simp⟩
    · exact .inl ⟨.ebusy, by rw [hr]⟩

/-- `XPCIE_DEV_LLDMA_FREE_QUEUE` on a file bound in the direction given stops the channel given,
and puts it back if that does not time out. -/
theorem ioctl_freeQueue_cases (hp : priv.Known) (q : FpgaIoctlQueue) :
    (∃ e, xpcieFpgaIoctlLldma dev priv env (.freeQueue q) = (.error e, dev, priv) ∧
      (env.copyFromUser = true → priv.map FileBinding.queKind ≠ some q.dir)) ∨
    ∃ b dev', env.copyFromUser = true ∧ priv = some b ∧ b.queKind = q.dir ∧
      (TimesOut env.monitor ∧ RegsOnly q.dir.side q.chid dev dev' ∧
          xpcieFpgaIoctlLldma dev priv env (.freeQueue q) = (.error .ebusy, dev', priv) ∨
        ¬ TimesOut env.monitor ∧ Frees q.dir.side q.chid dev dev' ∧
          xpcieFpgaIoctlLldma dev priv env (.freeQueue q) = (.ok none, dev', none)) := by
  unfold xpcieFpgaIoctlLldma
  cases hfrom : env.copyFromUser with
  | false => exact .inl ⟨.efault, by simp only [if_true], nofun⟩
  | true =>
    simp only [Bool.true_eq_false, if_false]
    by_cases hkind : priv.map FileBinding.queKind = some q.dir
    · obtain ⟨b, rfl, hb⟩ := Option.map_eq_some_iff.mp hkind
      have hside : q.dir.anySide = some q.dir.side := hb ▸ hp b rfl
      rw [if_neg (not_not.mpr hkind)]
      rcases xpcieFpgaPutQueue_cases dev q env.monitor hside with
        ⟨ht, dev', hr, hregs⟩ | ⟨ht, dev', hr, hfrees⟩
      · exact .inr ⟨b, dev', trivial, rfl, hb, .inl ⟨ht, hregs, by rw [hr]⟩⟩
      · exact .inr ⟨b, dev', trivial, rfl, hb, .inr ⟨ht, hfrees, by rw [hr]⟩⟩
    · exact .inl ⟨.ebusy, by rw [if_pos hkind], fun _ => hkind⟩

theorem FpgaIoctlConnect.connectSide_dir (c : FpgaIoctlConnect) :
    c.dir.connectSide = some c.selfSide := by
  unfold FpgaIoctlConnect.dir
  cases c.selfSide <;> split_ifs <;> rfl

/-- `XPCIE_DEV_LLDMA_ALLOC_CONNECTION` changes nothing, or takes a free channel for the file. -/
theorem ioctl_allocConnection_cases (c : FpgaIoctlConnect) :
    (∃ e, xpcieFpgaIoctlLldma dev priv env (.allocConnection c) = (.error e, dev, priv) ∧
      (env.copyFromUser = true → dev.devId ≠ c.peerMinor → env.baseaddr c.peerMinor ≠ 0 →
        (dev.queues c.selfSide c.selfChid).status = .used)) ∨
    ∃ dev', env.copyFromUser = true ∧ dev.devId ≠ c.peerMinor ∧ env.baseaddr c.peerMinor ≠ 0 ∧
      (dev.queues c.selfSide c.selfChid).status = .free ∧
      Takes c.selfSide c.selfChid c.connectorId dev dev' ∧
      xpcieFpgaIoctlLldma dev priv env (.allocConnection c) =
        (.ok none, dev', some ⟨c.dir, c.selfChid, true⟩) := by
  unfold xpcieFpgaIoctlLldma
  cases hfrom : env.copyFromUser with
  | false => exact .inl ⟨.efault, by simp only [if_true], nofun⟩
  | true =>
    simp only [Bool.true_eq_false, if_false]
    by_cases hid : dev.devId = c.peerMinor
    · exact .inl ⟨.einval, by rw [if_pos hid], fun _ hne => absurd hid hne⟩
    · rw [if_neg hid]
      by_cases haddr : env.baseaddr c.peerMinor = 0
      · exact .inl ⟨.einval, by rw [if_pos haddr], fun _ _ hne => absurd haddr hne⟩
      · rw [if_neg haddr]
        rcases xpcieFpgaDevConnect_cases dev c.selfChid c.peerChid c.dir (env.baseaddr c.peerMinor)
          c.bufSize c.bufAddr c.connectorId with
          ⟨hno, hr⟩ | ⟨side, hside, ⟨hused, hr⟩ | ⟨hfree, dev', hr, htake⟩⟩
        · rw [c.connectSide_dir] at hno
          cases hno
        · rw [c.connectSide_dir] at hside
          cases hside
          exact .inl ⟨_, by rw [hr], fun _ _ _ => hused⟩
        · rw [c.connectSide_dir] at hside
          cases hside
          exact .inr ⟨dev', trivial, hid, haddr, hfree, htake, by rw [hr]⟩

/-- `XPCIE_DEV_LLDMA_FREE_CONNECTION` on a file that got a channel stops it, and puts it back if
that does not time out. -/
theorem ioctl_freeConnection_cases (hp : priv.Known) :
    (∃ e, priv.isGetQueue = false ∧
      xpcieFpgaIoctlLldma dev priv env .freeConnection = (.error e, dev, priv)) ∨
    ∃ b dev', priv = some b ∧ b.isGetQueue = true ∧
      (TimesOut env.monitor ∧ RegsOnly b.queKind.side b.chid dev dev' ∧
          xpcieFpgaIoctlLldma dev priv env .freeConnection = (.error .efault, dev', priv) ∨
        ¬ TimesOut env.monitor ∧ Frees b.queKind.side b.chid dev dev' ∧
          xpcieFpgaIoctlLldma dev priv env .freeConnection = (.ok none, dev', none)) := by
  unfold xpcieFpgaIoctlLldma
  rcases priv with _ | ⟨queKind, chid, isGetQueue⟩
  · exact .inl ⟨.einval, rfl, rfl⟩
  · cases isGetQueue with
    | false => exact .inl ⟨.einval, rfl, rfl⟩
    | true =>
      simp only
      rcases xpcieFpgaDevDisconnect_cases dev chid queKind env.monitor (hp _ rfl) with
        ⟨ht, dev', hr, hregs⟩ | ⟨ht, dev', hr, hfrees⟩
      · exact .inr ⟨_, dev', rfl, rfl, .inl ⟨ht, hregs, by rw [hr]⟩⟩
      · exact .inr ⟨_, dev', rfl, rfl, .inr ⟨ht, hfrees, by rw [hr]⟩⟩

/-- `xpcie_cdev_release` puts back the channel the file got, if any. -/
theorem xpcieCdevRelease_cases (hp : priv.Known) (monitor : ℕ → BitVec 32) :
    (priv.isGetQueue = false ∧ xpcieCdevRelease dev priv monitor = dev) ∨
    ∃ b, priv = some b ∧ b.isGetQueue = true ∧
      Frees b.queKind.side b.chid dev (xpcieCdevRelease dev priv monitor) := by
  unfold xpcieCdevRelease
  rcases priv with _ | ⟨queKind, chid, isGetQueue⟩
  · exact .inl ⟨rfl, rfl⟩
  · cases isGetQueue with
    | false => exact .inl ⟨rfl, rfl⟩
    | true =>
      refine .inr ⟨_, rfl, rfl, ?_⟩
      obtain ⟨mid, hregs, hr⟩ := xpcieFpgaStopQueue_cases dev chid queKind monitor
      have hmid : (xpcieFpgaStopQueue dev chid queKind monitor).2 = mid := by
        rcases hr with ⟨-, hr⟩ | ⟨-, hr⟩
        · rw [hr]
        · rw [hr]
      obtain ⟨last, hput, hfrees⟩ := xpcieFpgaPutQueueInfo_frees mid chid (hp _ rfl)
      simp only [hmid, hput]
      exact ⟨hregs.leaves.trans hfrees.leaves, hfrees.status, hfrees.name⟩

/-- What `XPCIE_DEV_LLDMA_BIND_QUEUE` returns is what `xpcie_fpga_ref_queue` finds. -/
theorem ioctl_bindQueue_eq_ok {q q' : FpgaIoctlQueue} (hfrom : env.copyFromUser = true)
    (hto : env.copyToUser = true) :
    (xpcieFpgaIoctlLldma dev priv env (.bindQueue q)).1 = .ok (some q') ↔
      xpcieFpgaRefQueue dev q = .ok q' := by
  unfold xpcieFpgaIoctlLldma
  simp only [hfrom, hto, Bool.true_eq_false, if_false]
  cases xpcieFpgaRefQueue dev q with
  | error e =>
    constructor
    · nofun
    · nofun
  | ok q'' =>
    simp only [Except.ok.injEq, Option.some.injEq]

theorem XpcieFilePrivate.owned_of_get {b : FileBinding} (h : b.isGetQueue = true) :
    XpcieFilePrivate.owned (some b) = some (b.queKind.side, b.chid) := by
  obtain ⟨queKind, chid, isGetQueue⟩ := b
  cases h
  rfl

variable {dev priv env} {s t : LldmaSystem} {fd : ℕ}

theorem XpcieFilePrivate.owned_of_not_get (h : priv.isGetQueue = false) : priv.owned = none := by
  rcases priv with _ | ⟨queKind, chid, isGetQueue⟩
  · rfl
  · cases h
    rfl

theorem owner_of_file (hf : s.files fd = some priv) : s.owner fd = priv.owned := by
  rw [LldmaSystem.owner, hf]
  rfl

/-! ### What a call does to the records -/

/-- The channel that a call takes, with the direction and the name. -/
def FileOp.obtains (s : LldmaSystem) : FileOp → Option (DmaDir × Chid × ConnectorId)
  | .cdevIoctl _ env (.allocQueue q) =>
    if env.copyFromUser = true ∧ q.dir.queueSide = some q.dir.side ∧
        (s.dev.queues q.dir.side q.chid).status = .free ∧
        (env.copyToUser = true ∨ TimesOut env.monitor) then
      some (q.dir, q.chid, q.connectorId)
    else none
  | .cdevIoctl _ env (.allocConnection c) =>
    if env.copyFromUser = true ∧ s.dev.devId ≠ c.peerMinor ∧ env.baseaddr c.peerMinor ≠ 0 ∧
        (s.dev.queues c.dir.side c.selfChid).status = .free then
      some (c.dir, c.selfChid, c.connectorId)
    else none
  | _ => none

/-- The channel that a call puts back, other than one that it takes itself. -/
def FileOp.releases (s : LldmaSystem) : FileOp → Option (DmaSide × Chid)
  | .cdevIoctl fd env (.freeQueue q) =>
    if env.copyFromUser = true ∧ ¬ TimesOut env.monitor ∧
        (s.files fd).join.map FileBinding.queKind = some q.dir then
      some (q.dir.side, q.chid)
    else none
  | .cdevIoctl fd env .freeConnection => if TimesOut env.monitor then none else s.owner fd
  | .cdevRelease fd _ => s.owner fd
  | _ => none

/-- What a call does to the records. -/
inductive RecordEffect (s : LldmaSystem) (op : FileOp) (dev' : FpgaDevInfo) : Prop where
  /-- No record changes. -/
  | same (hobtains : op.obtains s = none) (hreleases : op.releases s = none)
    (h : dev'.queues = s.dev.queues)
  /-- A free channel is taken. -/
  | takes (dir : DmaDir) (chid : Chid) (id : ConnectorId)
    (hobtains : op.obtains s = some (dir, chid, id)) (hreleases : op.releases s = none)
    (hfree : (s.dev.queues dir.side chid).status = .free) (h : Takes dir.side chid id s.dev dev')
  /-- A channel is put back. -/
  | frees (side : DmaSide) (chid : Chid) (hobtains : op.obtains s = none)
    (hreleases : op.releases s = some (side, chid)) (h : Frees side chid s.dev dev')
  /-- A free channel is taken and put back again. -/
  | putsBack (side : DmaSide) (chid : Chid) (hobtains : op.obtains s = none)
    (hreleases : op.releases s = none) (hfree : (s.dev.queues side chid).status = .free)
    (h : Frees side chid s.dev dev')

/-- The files are bound in known directions only. -/
def LldmaSystem.Known (s : LldmaSystem) : Prop := ∀ fd priv, s.files fd = some priv → priv.Known

theorem LldmaSystem.Known.update (h : s.Known) (dev : FpgaDevInfo) (fd : ℕ)
    {x : Option XpcieFilePrivate} (hx : ∀ priv, x = some priv → priv.Known) :
    LldmaSystem.Known ⟨dev, Function.update s.files fd x⟩ := by
  intro g priv hg
  rcases update_cases (· = some priv) hg with ⟨-, he⟩ | ⟨-, hg'⟩
  · exact hx priv he
  · exact h g priv hg'

/-- What a call leaves of the device and of the file. -/
structure CallEffect (s : LldmaSystem) (op : FileOp) (dev' : FpgaDevInfo) (priv' : XpcieFilePrivate) :
    Prop where
  /-- The records. -/
  records : RecordEffect s op dev'
  /-- The count. -/
  count : dev'.availableDmaChannelNum = s.dev.availableDmaChannelNum
  /-- The masks. -/
  chAvail : dev'.regs.chAvail = s.dev.regs.chAvail
  /-- The file. -/
  known : priv'.Known

theorem known_none : XpcieFilePrivate.Known none := by
  intro b hb
  cases hb

theorem known_some {b : FileBinding} (h : b.queKind.anySide = some b.queKind.side) :
    XpcieFilePrivate.Known (some b) := by
  intro b' hb
  cases hb
  exact h

theorem allocQueue_effect (fd : ℕ) (hp : priv.Known) (q : FpgaIoctlQueue) :
    CallEffect s (.cdevIoctl fd env (.allocQueue q))
      (xpcieFpgaIoctlLldma s.dev priv env (.allocQueue q)).2.1
      (xpcieFpgaIoctlLldma s.dev priv env (.allocQueue q)).2.2 := by
  rcases ioctl_allocQueue_cases s.dev priv env q with
    ⟨e, hr, hused⟩ | ⟨side, dev, hfrom, hside, hfree, ⟨hto, htake, hr⟩ | ⟨hto, hput, hr⟩⟩
  · rw [hr]
    refine ⟨.same (if_neg ?_) rfl rfl, rfl, rfl, hp⟩
    rintro ⟨hfrom, hside, hfree, -⟩
    rw [hused hfrom _ hside] at hfree
    cases hfree
  · rw [hr]
    obtain rfl := DmaDir.side_of_queueSide hside
    exact ⟨.takes _ _ _ (if_pos ⟨hfrom, hside, hfree, .inl hto⟩) rfl hfree htake, htake.leaves.count,
      htake.leaves.chAvail, known_some (DmaDir.anySide_of_queueSide hside)⟩
  · rw [hr]
    obtain rfl := DmaDir.side_of_queueSide hside
    rcases hput with ⟨ht, htake⟩ | ⟨ht, hfrees⟩
    · exact ⟨.takes _ _ _ (if_pos ⟨hfrom, hside, hfree, .inr ht⟩) rfl hfree htake,
        htake.leaves.count, htake.leaves.chAvail, hp⟩
    · refine ⟨.putsBack _ _ (if_neg ?_) rfl hfree hfrees, hfrees.leaves.count,
        hfrees.leaves.chAvail, hp⟩
      rintro ⟨-, -, -, hto' | ht'⟩
      · rw [hto] at hto'
        cases hto'
      · exact ht ht'

theorem bindQueue_effect (fd : ℕ) (hp : priv.Known) (q : FpgaIoctlQueue) :
    CallEffect s (.cdevIoctl fd env (.bindQueue q))
      (xpcieFpgaIoctlLldma s.dev priv env (.bindQueue q)).2.1
      (xpcieFpgaIoctlLldma s.dev priv env (.bindQueue q)).2.2 := by
  rcases ioctl_bindQueue_cases s.dev priv env q with ⟨e, hr⟩ | ⟨side, chid, -, -, -, hr⟩
  · rw [hr]
    exact ⟨.same rfl rfl rfl, rfl, rfl, hp⟩
  · rw [hr]
    exact ⟨.same rfl rfl rfl, rfl, rfl, known_some (by cases side <;> rfl)⟩

theorem freeQueue_effect (hf : s.files fd = some priv) (hp : priv.Known) (q : FpgaIoctlQueue) :
    CallEffect s (.cdevIoctl fd env (.freeQueue q))
      (xpcieFpgaIoctlLldma s.dev priv env (.freeQueue q)).2.1
      (xpcieFpgaIoctlLldma s.dev priv env (.freeQueue q)).2.2 := by
  have hjoin : (s.files fd).join = priv := by rw [hf]; rfl
  rcases ioctl_freeQueue_cases s.dev priv env hp q with
    ⟨e, hr, hno⟩ | ⟨b, dev, hfrom, rfl, hb, ⟨ht, hregs, hr⟩ | ⟨ht, hfrees, hr⟩⟩
  · rw [hr]
    refine ⟨.same rfl (if_neg ?_) rfl, rfl, rfl, hp⟩
    rw [hjoin]
    exact fun h => hno h.1 h.2.2
  · rw [hr]
    exact ⟨.same rfl (if_neg fun h => h.2.1 ht) hregs.queues, hregs.count, hregs.chAvail, hp⟩
  · rw [hr]
    refine ⟨.frees _ _ rfl (if_pos ⟨hfrom, ht, ?_⟩) hfrees, hfrees.leaves.count,
      hfrees.leaves.chAvail, known_none⟩
    rw [hjoin, ← hb]
    rfl

theorem allocConnection_effect (fd : ℕ) (hp : priv.Known) (c : FpgaIoctlConnect) :
    CallEffect s (.cdevIoctl fd env (.allocConnection c))
      (xpcieFpgaIoctlLldma s.dev priv env (.allocConnection c)).2.1
      (xpcieFpgaIoctlLldma s.dev priv env (.allocConnection c)).2.2 := by
  have hside : c.dir.side = c.selfSide := DmaDir.side_of_connectSide c.connectSide_dir
  rcases ioctl_allocConnection_cases s.dev priv env c with
    ⟨e, hr, hused⟩ | ⟨dev, hfrom, hid, haddr, hfree, htake, hr⟩
  · rw [hr]
    refine ⟨.same (if_neg ?_) rfl rfl, rfl, rfl, hp⟩
    rintro ⟨hfrom, hid, haddr, hfree⟩
    rw [hside, hused hfrom hid haddr] at hfree
    cases hfree
  · rw [hr]
    rw [← hside] at hfree htake
    exact ⟨.takes _ _ _ (if_pos ⟨hfrom, hid, haddr, hfree⟩) rfl hfree htake, htake.leaves.count,
      htake.leaves.chAvail,
      known_some (by rw [DmaDir.anySide_of_connectSide c.connectSide_dir, hside])⟩

theorem freeConnection_effect (hf : s.files fd = some priv) (hp : priv.Known) :
    CallEffect s (.cdevIoctl fd env .freeConnection)
      (xpcieFpgaIoctlLldma s.dev priv env .freeConnection).2.1
      (xpcieFpgaIoctlLldma s.dev priv env .freeConnection).2.2 := by
  have hown := owner_of_file hf
  rcases ioctl_freeConnection_cases s.dev priv env hp with
    ⟨e, hget, hr⟩ | ⟨b, dev, rfl, hget, ⟨ht, hregs, hr⟩ | ⟨ht, hfrees, hr⟩⟩
  · rw [hr]
    refine ⟨.same rfl ?_ rfl, rfl, rfl, hp⟩
    rw [FileOp.releases, hown, XpcieFilePrivate.owned_of_not_get hget, ite_self]
  · rw [hr]
    exact ⟨.same rfl (if_pos ht) hregs.queues, hregs.count, hregs.chAvail, hp⟩
  · rw [hr]
    refine ⟨.frees _ _ rfl ?_ hfrees, hfrees.leaves.count, hfrees.leaves.chAvail, known_none⟩
    rw [FileOp.releases, if_neg ht, hown, XpcieFilePrivate.owned_of_get hget]

theorem release_effect (hf : s.files fd = some priv) (hp : priv.Known) (monitor : ℕ → BitVec 32) :
    CallEffect s (.cdevRelease fd monitor) (xpcieCdevRelease s.dev priv monitor) none := by
  have hown := owner_of_file hf
  rcases xpcieCdevRelease_cases s.dev priv hp monitor with ⟨hget, hr⟩ | ⟨b, rfl, hget, hfrees⟩
  · rw [hr]
    refine ⟨.same rfl ?_ rfl, rfl, rfl, known_none⟩
    rw [FileOp.releases, hown, XpcieFilePrivate.owned_of_not_get hget]
  · refine ⟨.frees _ _ rfl ?_ hfrees, hfrees.leaves.count, hfrees.leaves.chAvail, known_none⟩
    rw [FileOp.releases, hown, XpcieFilePrivate.owned_of_get hget]

/-- **What every call does.** -/
theorem fileStep_effect (hk : s.Known) {op : FileOp} (ht : fileStep s op = some t) :
    RecordEffect s op t.dev ∧
    t.dev.availableDmaChannelNum = s.dev.availableDmaChannelNum ∧
    t.dev.regs.chAvail = s.dev.regs.chAvail ∧ t.Known := by
  cases op with
  | cdevOpen fd =>
    cases hf : s.files fd with
    | some priv => simp [fileStep, hf] at ht
    | none =>
      simp only [fileStep, hf] at ht
      cases ht
      refine ⟨.same rfl rfl rfl, rfl, rfl, hk.update s.dev fd fun priv hpriv => ?_⟩
      cases hpriv
      exact known_none
  | cdevRelease fd monitor =>
    cases hf : s.files fd with
    | none => simp [fileStep, hf] at ht
    | some priv =>
      simp only [fileStep, hf] at ht
      cases ht
      have h := release_effect hf (hk fd priv hf) monitor
      exact ⟨h.records, h.count, h.chAvail, hk.update _ fd nofun⟩
  | cdevIoctl fd env cmd =>
    cases hf : s.files fd with
    | none => simp [fileStep, hf] at ht
    | some priv =>
      have hp := hk fd priv hf
      have h : CallEffect s (.cdevIoctl fd env cmd) (xpcieFpgaIoctlLldma s.dev priv env cmd).2.1
          (xpcieFpgaIoctlLldma s.dev priv env cmd).2.2 := by
        cases cmd with
        | allocQueue q => exact allocQueue_effect fd hp q
        | bindQueue q => exact bindQueue_effect fd hp q
        | freeQueue q => exact freeQueue_effect hf hp q
        | allocConnection c => exact allocConnection_effect fd hp c
        | freeConnection => exact freeConnection_effect hf hp
      simp only [fileStep, hf] at ht
      cases ht
      refine ⟨h.records, h.count, h.chAvail, hk.update _ fd fun priv hpriv => ?_⟩
      cases hpriv
      exact h.known

end HardwareDrivers.Driver
