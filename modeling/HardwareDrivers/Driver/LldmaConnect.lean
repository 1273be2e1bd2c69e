import HardwareDrivers.Driver.LldmaChannels

/-!
# The registers of a connection

`xpcie_fpga_dev_connect` programs a channel through helpers that return at once when the
number of the channel is not below the count, and writes the buffer of whatever channel
is selected.

## What is proved

* `xpcieFpgaDevConnect_sets` — below the count the registers of the channel are set up as
  a whole, and those of every other channel stay.
* `FpgaDevInfo.Reachable.uncounted` — from the count on no channel ever leaves the mode of a
  transfer with the host.
* `allocConnection_links_iff` — a request that succeeds links the channel exactly if its
  number is below the count.
-/

namespace HardwareDrivers.Driver

open Theory

variable {dev dev' dev'' : FpgaDevInfo} {side : DmaSide} {chid : Chid} {dir : DmaDir}

/-! ### Writing the registers of one channel -/

/-- The registers of the channel change by `f`, those of all others stay, and the channel is
selected. -/
structure Sets (side : DmaSide) (chid : Chid) (f : ChannelRegs → ChannelRegs)
    (dev dev' : FpgaDevInfo) : Prop where
  /-- The registers. -/
  bank : ∀ s c, dev'.regs.bank s c =
    if s = side ∧ c = chid then f (dev.regs.bank s c) else dev.regs.bank s c
  /-- The selection. -/
  sel : dev'.regs.chSel side = chid
  /-- The count. -/
  count : dev'.availableDmaChannelNum = dev.availableDmaChannelNum

variable {f g : ChannelRegs → ChannelRegs}

theorem Sets.trans (h : Sets side chid f dev dev') (h' : Sets side chid g dev' dev'') :
    Sets side chid (g ∘ f) dev dev'' where
  bank s c := by
    rw [h'.bank, h.bank]
    split_ifs
    · rfl
    · rfl
  sel := h'.sel
  count := h'.count.trans h.count

theorem Sets.congr (h : Sets side chid f dev dev') (hfg : ∀ r, f r = g r) :
    Sets side chid g dev dev' :=
  funext hfg ▸ h

theorem sets_writeChSel (dir : DmaDir) (chid : Chid) :
    Sets dir.side chid id dev (dev.writeChSel dir chid) where
  bank _ _ := (ite_self _).symm
  sel := LldmaRegs.chSel_writeChSel ..
  count := rfl

/-- A write after the selection. -/
theorem Sets.write (h : Sets dir.side chid f dev dev') (g : ChannelRegs → ChannelRegs) :
    Sets dir.side chid (g ∘ f) dev (dev'.writeChannel dir g) := by
  refine h.trans ⟨fun s c => ?_, h.sel, rfl⟩
  rw [← h.sel]
  exact LldmaRegs.bank_writeChannel ..

theorem sets_queueSetCtrl {cid : BitVec 8} {qCtrl chCtrl1 : BitVec 32}
    (hlt : chid < dev.availableDmaChannelNum)
    (hctrl : queueCtrl dev chid cid dir = some (qCtrl, chCtrl1)) :
    Sets dir.side chid (fun r => { r with qCtrl, ctrl1 := chCtrl1 }) dev
      (queueSetCtrl dev chid dir cid) := by
  simp only [queueSetCtrl, if_neg (Nat.not_le.mpr hlt), hctrl]
  exact (((sets_writeChSel dir chid).write _).write _).congr fun _ => rfl

theorem sets_queueSetAddr {addr physAddr : BitVec 64} (hlt : chid < dev.availableDmaChannelNum)
    (haddr : queueAddr dev chid addr dir = some physAddr) :
    Sets dir.side chid
      (fun r => { r with
        qAddrUp := (physAddr >>> 32).setWidth 32
        qAddrDn := physAddr.setWidth 32 }) dev (queueSetAddr dev chid dir addr) := by
  simp only [queueSetAddr, if_neg (Nat.not_le.mpr hlt), haddr]
  exact (((sets_writeChSel dir chid).write _).write _).congr fun _ => rfl

/-- The buffer is written in two of the directions. -/
theorem Sets.setBuf (h : Sets dir.side chid f dev dev') (bufSize : BitVec 32) (bufAddr : BitVec 64) :
    Sets dir.side chid
      ((fun r => { r with
        bufAddrDn := if dir.UsesBuf then bufAddr.setWidth 32 else r.bufAddrDn
        bufAddrUp := if dir.UsesBuf then (bufAddr >>> 32).setWidth 32 else r.bufAddrUp
        bufSize := if dir.UsesBuf then bufSize else r.bufSize }) ∘ f) dev
      (if dir.UsesBuf then xpcieFpgaSetBuf dev' dir bufSize bufAddr else dev') := by
  by_cases hbuf : dir.UsesBuf
  · simp only [if_pos hbuf]
    exact (((h.write _).write _).write _).congr fun _ => rfl
  · simp only [if_neg hbuf]
    exact h

/-! ### Setting up a connection -/

/-- The mode of a connection. -/
def DmaDir.connectMode (dir : DmaDir) : BitVec 32 :=
  if dir.UsesBuf then chCtrl1D2dH else chCtrl1D2dD

/-- What a connection makes of the registers of its channel. -/
def connectRegs (dir : DmaDir) (peerChid : BitVec 32) (peerAddr : BitVec 64) (bufSize : BitVec 32)
    (bufAddr : BitVec 64) (r : ChannelRegs) : ChannelRegs :=
  { r with
    ctrl0 := enableIe ||| enableOe
    ctrl1 := dir.connectMode
    qCtrl := (peerChid.setWidth 8).setWidth 32 <<< 8
    qAddrUp := (peerAddr >>> 32).setWidth 32
    qAddrDn := peerAddr.setWidth 32
    bufAddrDn := if dir.UsesBuf then bufAddr.setWidth 32 else r.bufAddrDn
    bufAddrUp := if dir.UsesBuf then (bufAddr >>> 32).setWidth 32 else r.bufAddrUp
    bufSize := if dir.UsesBuf then bufSize else r.bufSize }

theorem queueCtrl_connect (hside : dir.connectSide = some side) {cid : BitVec 8} (hcid : cid ≠ 255) :
    queueCtrl dev chid cid dir = some (cid.setWidth 32 <<< 8, dir.connectMode) := by
  cases dir <;> cases hside <;> exact if_neg hcid

theorem queueAddr_connect (hside : dir.connectSide = some side) {addr : BitVec 64} (haddr : addr ≠ 0) :
    queueAddr dev chid addr dir = some addr := by
  cases dir <;> cases hside <;> exact if_neg haddr

/-- **`xpcie_fpga_dev_connect` below the count** sets up the registers of the channel and no
others. -/
theorem xpcieFpgaDevConnect_sets {peerChid : BitVec 32} {peerAddr bufAddr : BitVec 64}
    {bufSize : BitVec 32} {id : ConnectorId} (hside : dir.connectSide = some side)
    (hlt : chid < dev.availableDmaChannelNum) (hcid : peerChid.setWidth 8 ≠ (255 : BitVec 8))
    (haddr : peerAddr ≠ 0)
    (h : xpcieFpgaDevConnect dev chid peerChid dir peerAddr bufSize bufAddr id = (.ok (), dev')) :
    Sets side chid (connectRegs dir peerChid peerAddr bufSize bufAddr) dev dev' := by
  simp only [xpcieFpgaDevConnect, hside] at h
  by_cases hst : (dev.queues side chid).status ≠ .free
  · rw [if_pos hst] at h
    cases h
  · rw [if_neg hst] at h
    obtain ⟨-, rfl⟩ := Prod.mk.inj h
    obtain rfl := DmaDir.side_of_connectSide hside
    set mid := dev.setQueue dir.side chid { dev.queues dir.side chid with status := .used }
    have hctrl : Sets dir.side chid _ mid _ :=
      sets_queueSetCtrl hlt (queueCtrl_connect hside hcid)
    have hset := hctrl.trans
      (sets_queueSetAddr (hctrl.count ▸ hlt) (queueAddr_connect hside haddr))
    have hall := ((hset.setBuf bufSize bufAddr).trans (sets_writeChSel dir chid)).write
      fun r => { r with ctrl0 := enableIe ||| enableOe }
    exact ⟨hall.bank, hall.sel, hall.count⟩

/-! ### Channels that are not counted -/

/-- The number of the channel is not below the count, and the channel is in the mode of a transfer
with the host. -/
def FpgaDevInfo.Uncounted (dev : FpgaDevInfo) (side : DmaSide) (c : ℕ) : Prop :=
  dev.availableDmaChannelNum ≤ c ∧ (dev.regs.bank side c).ctrl1 = chCtrl1Host

/-- Such channels stay as they are. -/
def KeepsMode (dev dev' : FpgaDevInfo) : Prop :=
  dev'.availableDmaChannelNum = dev.availableDmaChannelNum ∧
    ∀ side c, dev.Uncounted side c → dev'.Uncounted side c

theorem KeepsMode.refl : KeepsMode dev dev := ⟨rfl, fun _ _ h => h⟩

theorem KeepsMode.trans (h : KeepsMode dev dev') (h' : KeepsMode dev' dev'') : KeepsMode dev dev'' :=
  ⟨h'.1.trans h.1, fun side c hc => h'.2 side c (h.2 side c hc)⟩

theorem KeepsMode.setQueue (h : KeepsMode dev dev') (s : DmaSide) (c : Chid) (info : FpgaQueueEnqdeq) :
    KeepsMode dev (dev'.setQueue s c info) := h

theorem KeepsMode.writeChSel (h : KeepsMode dev dev') (d : DmaDir) (c : Chid) :
    KeepsMode dev (dev'.writeChSel d c) := h

/-- A write that changes no mode, or sets the mode of a transfer with the host. -/
theorem KeepsMode.write (h : KeepsMode dev dev') (d : DmaDir) {f : ChannelRegs → ChannelRegs}
    (hf : ∀ r, r.ctrl1 = chCtrl1Host → (f r).ctrl1 = chCtrl1Host) :
    KeepsMode dev (dev'.writeChannel d f) := by
  refine h.trans ⟨rfl, fun side c ⟨hle, hmode⟩ => ⟨hle, ?_⟩⟩
  simp only [FpgaDevInfo.writeChannel, LldmaRegs.bank_writeChannel]
  split_ifs
  · exact hf _ hmode
  · exact hmode

/-- Below the count anything can be written. -/
theorem Sets.keepsMode (h : Sets side chid f dev dev') (hlt : chid < dev.availableDmaChannelNum) :
    KeepsMode dev dev' := by
  refine ⟨h.count, fun s c ⟨hle, hmode⟩ => ⟨h.count ▸ hle, ?_⟩⟩
  rw [h.bank, if_neg]
  · exact hmode
  · rintro ⟨-, rfl⟩
    exact absurd hlt (Nat.not_lt.mpr hle)

variable (dev chid dir)

theorem keepsMode_queueSetCtrl (cid : BitVec 8) : KeepsMode dev (queueSetCtrl dev chid dir cid) := by
  by_cases hle : dev.availableDmaChannelNum ≤ chid
  · rw [queueSetCtrl, if_pos hle]
    exact .refl
  · cases hctrl : queueCtrl dev chid cid dir with
    | none =>
      simp only [queueSetCtrl, if_neg hle, hctrl]
      exact .refl
    | some ctrl => exact (sets_queueSetCtrl (Nat.not_le.mp hle) hctrl).keepsMode (Nat.not_le.mp hle)

theorem keepsMode_queueSetAddr (addr : BitVec 64) : KeepsMode dev (queueSetAddr dev chid dir addr) := by
  by_cases hle : dev.availableDmaChannelNum ≤ chid
  · rw [queueSetAddr, if_pos hle]
    exact .refl
  · cases haddr : queueAddr dev chid addr dir with
    | none =>
      simp only [queueSetAddr, if_neg hle, haddr]
      exact .refl
    | some physAddr =>
      exact (sets_queueSetAddr (Nat.not_le.mp hle) haddr).keepsMode (Nat.not_le.mp hle)

theorem keepsMode_setBuf (bufSize : BitVec 32) (bufAddr : BitVec 64) :
    KeepsMode dev (xpcieFpgaSetBuf dev dir bufSize bufAddr) :=
  ((KeepsMode.refl.write dir fun _ h => by exact h).write dir fun _ h => by exact h).write dir fun _ h => by exact h

theorem keepsMode_startQueue (data : BitVec 32) :
    KeepsMode dev (xpcieFpgaStartQueue dev chid dir data) := by
  unfold xpcieFpgaStartQueue
  split
  · exact .refl
  · cases dir.queueSide with
    | none => exact .refl
    | some side =>
      have hset := (keepsMode_queueSetAddr dev chid dir 0).trans
        (keepsMode_queueSetCtrl (queueSetAddr dev chid dir 0) chid dir 255)
      exact ((hset.writeChSel dir chid).setQueue ..).write dir fun _ h => by exact h

theorem keepsMode_stopQueue (monitor : ℕ → BitVec 32) :
    KeepsMode dev (xpcieFpgaStopQueue dev chid dir monitor).2 :=
  ((KeepsMode.refl.writeChSel dir chid).write dir fun _ h => by exact h).write dir fun _ h => by exact h

theorem keepsMode_putQueueInfo : KeepsMode dev (xpcieFpgaPutQueueInfo dev chid dir).2 := by
  unfold xpcieFpgaPutQueueInfo
  cases dir.anySide with
  | none => exact .refl
  | some side => exact KeepsMode.refl.setQueue ..

theorem keepsMode_getQueue (q : FpgaIoctlQueue) (data : BitVec 32) :
    KeepsMode dev (xpcieFpgaGetQueue dev q data).2 := by
  unfold xpcieFpgaGetQueue
  cases q.dir.queueSide with
  | none => exact .refl
  | some side =>
    simp only
    split_ifs
    · exact .refl
    · exact ((KeepsMode.refl.setQueue ..).trans (keepsMode_startQueue _ q.chid q.dir data)).setQueue ..

theorem keepsMode_putQueue (q : FpgaIoctlQueue) (monitor : ℕ → BitVec 32) :
    KeepsMode dev (xpcieFpgaPutQueue dev q monitor).2 := by
  have hstop := keepsMode_stopQueue dev q.chid q.dir monitor
  unfold xpcieFpgaPutQueue
  generalize xpcieFpgaStopQueue dev q.chid q.dir monitor = r at hstop ⊢
  obtain ⟨_ | _, mid⟩ := r
  · exact hstop
  · have hput := hstop.trans (keepsMode_putQueueInfo mid q.chid q.dir)
    simp only
    generalize xpcieFpgaPutQueueInfo mid q.chid q.dir = r at hput ⊢
    obtain ⟨_ | _, last⟩ := r
    · exact hput
    · exact hput

theorem keepsMode_devConnect (peerChid : BitVec 32) (peerAddr : BitVec 64) (bufSize : BitVec 32)
    (bufAddr : BitVec 64) (id : ConnectorId) :
    KeepsMode dev (xpcieFpgaDevConnect dev chid peerChid dir peerAddr bufSize bufAddr id).2 := by
  unfold xpcieFpgaDevConnect
  cases dir.connectSide with
  | none => exact .refl
  | some side =>
    simp only
    by_cases hst : (dev.queues side chid).status ≠ .free
    · rw [if_pos hst]
      exact .refl
    · rw [if_neg hst]
      set mid := dev.setQueue side chid { dev.queues side chid with status := .used }
      set last := queueSetAddr (queueSetCtrl mid chid dir (peerChid.setWidth 8)) chid dir peerAddr
      have hset : KeepsMode dev last :=
        (keepsMode_queueSetCtrl mid ..).trans (keepsMode_queueSetAddr ..)
      have hbuf : KeepsMode dev
          (if dir.UsesBuf then xpcieFpgaSetBuf last dir bufSize bufAddr else last) := by
        split_ifs
        · exact hset.trans (keepsMode_setBuf ..)
        · exact hset
      exact ((hbuf.writeChSel dir chid).write dir fun _ h => by exact h).setQueue ..

theorem keepsMode_devDisconnect (monitor : ℕ → BitVec 32) :
    KeepsMode dev (xpcieFpgaDevDisconnect dev chid dir monitor).2 := by
  have hsel : KeepsMode dev (dev.writeChSel dir chid) := KeepsMode.refl.writeChSel dir chid
  have hstop := hsel.trans (keepsMode_stopQueue (dev.writeChSel dir chid) chid dir monitor)
  unfold xpcieFpgaDevDisconnect
  generalize xpcieFpgaStopQueue (dev.writeChSel dir chid) chid dir monitor = r at hstop ⊢
  obtain ⟨_ | _, mid⟩ := r
  · exact hstop
  · have hctrl := (hstop.write dir (f := fun r => { r with qCtrl := 0x10 <<< 8 })
      fun _ h => h).write dir (f := fun r => { r with ctrl1 := chCtrl1Init }) fun _ _ => rfl
    have hinit := (hctrl.write dir (f := fun r => { r with qAddrUp := 0 }) fun _ h => h).write dir
      (f := fun r => { r with qAddrDn := 0 }) fun _ h => h
    simp only
    split_ifs
    · exact (hinit.trans (keepsMode_setBuf _ dir 0 0)).trans (keepsMode_putQueueInfo _ chid dir)
    · exact hinit.trans (keepsMode_putQueueInfo _ chid dir)

theorem keepsMode_ioctl (priv : XpcieFilePrivate) (env : CallEnv) (cmd : LldmaCmd) :
    KeepsMode dev (xpcieFpgaIoctlLldma dev priv env cmd).2.1 := by
  cases cmd with
  | allocQueue q =>
    have hget := keepsMode_getQueue dev q env.data
    simp only [xpcieFpgaIoctlLldma]
    split
    · exact .refl
    · generalize xpcieFpgaGetQueue dev q env.data = r at hget ⊢
      obtain ⟨_ | q', mid⟩ := r
      · exact hget
      · simp only
        split_ifs
        · exact hget.trans (keepsMode_putQueue mid q' env.monitor)
        · exact hget
  | bindQueue q =>
    rcases ioctl_bindQueue_cases dev priv env q with ⟨e, h⟩ | ⟨side, chid, -, -, -, h⟩
    · rw [h]
      exact .refl
    · rw [h]
      exact .refl
  | freeQueue q =>
    have hput := keepsMode_putQueue dev q env.monitor
    simp only [xpcieFpgaIoctlLldma]
    split_ifs
    · exact .refl
    · exact .refl
    · generalize xpcieFpgaPutQueue dev q env.monitor = r at hput ⊢
      obtain ⟨_ | _, mid⟩ := r
      · exact hput
      · exact hput
  | allocConnection c =>
    have hconnect := keepsMode_devConnect dev c.selfChid c.dir c.peerChid
      (env.baseaddr c.peerMinor) c.bufSize c.bufAddr c.connectorId
    simp only [xpcieFpgaIoctlLldma]
    split_ifs
    · exact .refl
    · exact .refl
    · exact .refl
    · generalize xpcieFpgaDevConnect dev c.selfChid c.peerChid c.dir (env.baseaddr c.peerMinor)
        c.bufSize c.bufAddr c.connectorId = r at hconnect ⊢
      obtain ⟨_ | _, mid⟩ := r
      · exact hconnect
      · exact hconnect
  | freeConnection =>
    rcases priv with _ | ⟨queKind, chid, _ | _⟩
    · exact .refl
    · exact .refl
    · have hdisconnect := keepsMode_devDisconnect dev chid queKind env.monitor
      simp only [xpcieFpgaIoctlLldma]
      generalize xpcieFpgaDevDisconnect dev chid queKind env.monitor = r at hdisconnect ⊢
      obtain ⟨_ | _, mid⟩ := r
      · exact hdisconnect
      · exact hdisconnect

theorem keepsMode_release (priv : XpcieFilePrivate) (monitor : ℕ → BitVec 32) :
    KeepsMode dev (xpcieCdevRelease dev priv monitor) := by
  rcases priv with _ | ⟨queKind, chid, _ | _⟩
  · exact .refl
  · exact .refl
  · exact (keepsMode_stopQueue dev chid queKind monitor).trans (keepsMode_putQueueInfo ..)

/-! ### Reachable devices -/

/-- The states of a device: any number of files in any states, from any process, and the commands
that read the registers of a channel they select. -/
inductive FpgaDevInfo.Reachable : FpgaDevInfo → Prop
  /-- Just found, with any masks. -/
  | init (devId : ℕ) (rxAvail txAvail : BitVec 32) (ringPhys : DmaSide → Chid → BitVec 64) :
    Reachable (xpcieFpgaDevInit devId (.reset rxAvail txAvail) ringPhys)
  /-- A command that sets up or tears down a channel. -/
  | ioctl {dev : FpgaDevInfo} (priv : XpcieFilePrivate) (env : CallEnv) (cmd : LldmaCmd) :
    Reachable dev → Reachable (xpcieFpgaIoctlLldma dev priv env cmd).2.1
  /-- A close. -/
  | release {dev : FpgaDevInfo} (priv : XpcieFilePrivate) (monitor : ℕ → BitVec 32) :
    Reachable dev → Reachable (xpcieCdevRelease dev priv monitor)
  /-- `xpcie_fpga_get_cid_chain_queue`, `xpcie_fpga_get_rxch_ctrl0` and
  `xpcie_fpga_get_channel_status`. -/
  | select {dev : FpgaDevInfo} (dir : DmaDir) (chid : ℕ) :
    Reachable dev → Reachable { dev with regs := dev.regs.writeChSel dir chid }

variable {dev chid dir}

/-- **From the count on** a channel is always in the mode of a transfer with the host. -/
theorem FpgaDevInfo.Reachable.uncounted (h : dev.Reachable) (side : DmaSide) (c : ℕ)
    (hle : dev.availableDmaChannelNum ≤ c) : dev.Uncounted side c := by
  induction h with
  | init devId rxAvail txAvail ringPhys => exact ⟨hle, rfl⟩
  | @ioctl dev priv env cmd _ ih =>
    obtain ⟨hcount, hkeep⟩ := keepsMode_ioctl dev priv env cmd
    exact hkeep side c (ih (hcount ▸ hle))
  | @release dev priv monitor _ ih =>
    obtain ⟨hcount, hkeep⟩ := keepsMode_release dev priv monitor
    exact hkeep side c (ih (hcount ▸ hle))
  | select dir chid _ ih => exact ih hle

/-- Every run of calls on the files of a device leads to such states. -/
theorem reachable_of_run {devId : ℕ} {rxAvail txAvail : BitVec 32}
    {ringPhys : DmaSide → Chid → BitVec 64} {ops : List FileOp} {s : LldmaSystem}
    (hs : run fileStep (.init devId (.reset rxAvail txAvail) ringPhys) ops = some s) :
    s.dev.Reachable := by
  refine run_invariant (I := fun s => s.dev.Reachable) ?_ (.init ..) hs
  intro s op t hreach ht
  cases op with
  | cdevOpen fd =>
    cases hfile : s.files fd with
    | none =>
      simp only [fileStep, hfile] at ht
      cases ht
      exact hreach
    | some priv =>
      simp only [fileStep, hfile] at ht
      cases ht
  | cdevIoctl fd env cmd =>
    cases hfile : s.files fd with
    | none =>
      simp only [fileStep, hfile] at ht
      cases ht
    | some priv =>
      simp only [fileStep, hfile] at ht
      cases ht
      exact hreach.ioctl priv env cmd
  | cdevRelease fd monitor =>
    cases hfile : s.files fd with
    | none =>
      simp only [fileStep, hfile] at ht
      cases ht
    | some priv =>
      simp only [fileStep, hfile] at ht
      cases ht
      exact hreach.release priv monitor

/-! ### Linking two channels -/

/-- The registers of a channel that is linked to a channel of another device, through a buffer of
the host or without. -/
structure ChannelRegs.LinkedTo (r : ChannelRegs) (peerChid : BitVec 32) (peerAddr : BitVec 64)
    (buf : Option (BitVec 64 × BitVec 32)) : Prop where
  /-- The channel of the peer. -/
  peer : r.qCtrl = peerChid <<< 8
  /-- The address of the other device. -/
  addr : r.qAddrUp ++ r.qAddrDn = peerAddr
  /-- The mode. -/
  mode : r.ctrl1 = if buf.isSome then chCtrl1D2dH else chCtrl1D2dD
  /-- The buffer. -/
  buf : ∀ b ∈ buf, r.bufAddrUp ++ r.bufAddrDn = b.1 ∧ r.bufSize = b.2
  /-- The enable bits. -/
  enable : r.ctrl0 = enableIe ||| enableOe

/-- The channel is linked, and the registers of all others stay. -/
structure Links (side : DmaSide) (chid : Chid) (peerChid : BitVec 32) (peerAddr : BitVec 64)
    (buf : Option (BitVec 64 × BitVec 32)) (dev dev' : FpgaDevInfo) : Prop where
  /-- The channel. -/
  linked : (dev'.regs.bank side chid).LinkedTo peerChid peerAddr buf
  /-- The others. -/
  others : ∀ s (c : ℕ), ¬ (s = side ∧ c = chid) → dev'.regs.bank s c = dev.regs.bank s c

/-- The buffer of a request. -/
def FpgaIoctlConnect.buf (c : FpgaIoctlConnect) : Option (BitVec 64 × BitVec 32) :=
  if c.bufAddr = 0 then none else some (c.bufAddr, c.bufSize)

theorem FpgaIoctlConnect.usesBuf_iff (c : FpgaIoctlConnect) : c.dir.UsesBuf ↔ c.bufAddr ≠ 0 := by
  unfold FpgaIoctlConnect.dir
  by_cases h : c.bufAddr = 0
  · simp only [if_pos h]
    cases c.selfSide <;> exact iff_of_false (by decide) (not_not.mpr h)
  · simp only [if_neg h]
    cases c.selfSide <;> exact iff_of_true (by decide) h

theorem linkedTo_connectRegs (c : FpgaIoctlConnect) (hpeer : c.peerChid.toNat < 256)
    (peerAddr : BitVec 64) (r : ChannelRegs) :
    (connectRegs c.dir c.peerChid peerAddr c.bufSize c.bufAddr r).LinkedTo c.peerChid peerAddr
      c.buf := by
  have hcid : (c.peerChid.setWidth 8).setWidth 32 = c.peerChid := by
    apply BitVec.eq_of_toNat_eq
    rw [BitVec.toNat_setWidth, BitVec.toNat_setWidth]
    omega
  have hmode : c.dir.connectMode = if c.buf.isSome then chCtrl1D2dH else chCtrl1D2dD := by
    unfold DmaDir.connectMode FpgaIoctlConnect.buf
    by_cases hbuf : c.bufAddr = 0
    · rw [if_neg (fun h => c.usesBuf_iff.mp h hbuf), if_pos hbuf]
      rfl
    · rw [if_pos (c.usesBuf_iff.mpr hbuf), if_neg hbuf]
      rfl
  have hqCtrl : (c.peerChid.setWidth 8).setWidth 32 <<< 8 = c.peerChid <<< 8 := by rw [hcid]
  refine ⟨hqCtrl, halves_append peerAddr, hmode, fun b hb => ?_, rfl⟩
  unfold FpgaIoctlConnect.buf at hb
  split_ifs at hb with hbuf
  · cases hb
  · obtain rfl := Option.some.inj hb
    simp only [connectRegs, if_pos (c.usesBuf_iff.mpr hbuf)]
    exact ⟨halves_append c.bufAddr, trivial⟩

/-- What a request that succeeds has done. -/
theorem ioctl_allocConnection_ok {priv priv' : XpcieFilePrivate} {env : CallEnv}
    {c : FpgaIoctlConnect} {r : Option FpgaIoctlQueue}
    (h : xpcieFpgaIoctlLldma dev priv env (.allocConnection c) = (.ok r, dev', priv')) :
    env.baseaddr c.peerMinor ≠ 0 ∧
      xpcieFpgaDevConnect dev c.selfChid c.peerChid c.dir (env.baseaddr c.peerMinor) c.bufSize
        c.bufAddr c.connectorId = (.ok (), dev') ∧ priv' = some ⟨c.dir, c.selfChid, true⟩ := by
  simp only [xpcieFpgaIoctlLldma] at h
  split_ifs at h with hfrom hid haddr
  · cases h
  · cases h
  · cases h
  · rcases hc : xpcieFpgaDevConnect dev c.selfChid c.peerChid c.dir (env.baseaddr c.peerMinor)
      c.bufSize c.bufAddr c.connectorId with ⟨_ | _, mid⟩
    · rw [hc] at h
      cases h
    · rw [hc] at h
      cases h
      exact ⟨haddr, rfl, rfl⟩

/-- **A request that succeeds links the channel** exactly if its number is below the count. -/
theorem allocConnection_links_iff {priv priv' : XpcieFilePrivate} {env : CallEnv}
    {c : FpgaIoctlConnect} {r : Option FpgaIoctlQueue} (hreach : dev.Reachable)
    (hpeer : c.peerChid.toNat < 255)
    (h : xpcieFpgaIoctlLldma dev priv env (.allocConnection c) = (.ok r, dev', priv')) :
    Links c.selfSide c.selfChid c.peerChid (env.baseaddr c.peerMinor) c.buf dev dev' ↔
      c.selfChid < dev.availableDmaChannelNum := by
  have hcount : KeepsMode dev dev' := by
    have := keepsMode_ioctl dev priv env (.allocConnection c)
    rwa [h] at this
  constructor
  · intro hlinks
    by_contra hge
    have hmode := (hcount.2 _ _ (hreach.uncounted c.selfSide c.selfChid (Nat.not_lt.mp hge))).2
    rw [hlinks.linked.mode] at hmode
    revert hmode
    cases c.buf.isSome <;> decide
  · intro hlt
    obtain ⟨haddr, hconnect, -⟩ := ioctl_allocConnection_ok h
    have hcid : c.peerChid.setWidth 8 ≠ (255 : BitVec 8) := by
      intro he
      have hn := congrArg BitVec.toNat he
      rw [BitVec.toNat_setWidth] at hn
      simp at hn
      omega
    have hsets := xpcieFpgaDevConnect_sets c.connectSide_dir hlt hcid haddr hconnect
    refine ⟨?_, fun s ch hne => ?_⟩
    · rw [hsets.bank, if_pos ⟨rfl, rfl⟩]
      exact linkedTo_connectRegs c (by omega) ..
    · rw [hsets.bank, if_neg hne]

end HardwareDrivers.Driver
