import HardwareDrivers.Driver.LldmaConnect

/-!
# Closing a connected file, with and without disconnecting it

A file that got its channel with `ALLOC_CONNECTION` gives it back in two ways: `FREE_CONNECTION`
stops the channel, sets its registers to their initial values and puts it back, unless the drain times
out; `close` stops it and puts it back in any case, and leaves the registers as they are.

## What is proved

* `channel_release`, `channel_disconnect` — what either way leaves of the channel.
* `closeRight_iff` — both leave the same, and no channel that is not drained is handed out, exactly
  if the drain does not time out and the registers have their initial values already.
* `not_closeRight_of_allocConnection` — which they never have after a connection below the count.
-/

namespace HardwareDrivers.Driver

open Theory

/-! ### What the two ways leave -/

/-- The status, the name and the registers of a channel. -/
structure ChannelState where
  /-- `status`. -/
  status : QueueStatus
  /-- `connector_id`. -/
  connectorId : ConnectorId
  /-- The registers. -/
  regs : ChannelRegs

/-- A channel of a device. -/
def FpgaDevInfo.channel (dev : FpgaDevInfo) (side : DmaSide) (chid : Chid) : ChannelState :=
  ⟨(dev.queues side chid).status, (dev.queues side chid).connectorId, dev.regs.bank side chid⟩

/-- A file just opened can get the channel with one command. -/
def FpgaDevInfo.HandsOut (dev : FpgaDevInfo) (side : DmaSide) (chid : Chid) : Prop :=
  ∃ env cmd, (xpcieFpgaIoctlLldma dev none env cmd).2.2.owned = some (side, chid)

/-- A file is closed, or disconnected and closed; the hardware shows the same at the first stop. -/
structure CloseRight (s : LldmaSystem) (fd : ℕ) (side : DmaSide) (chid : Chid) (env : CallEnv)
    (monitor : ℕ → BitVec 32) : Prop where
  /-- Both leave the same of the channel. -/
  same : ∃ t t', fileStep s (.cdevRelease fd env.monitor) = some t ∧
    run fileStep s [.cdevIoctl fd env .freeConnection, .cdevRelease fd monitor] = some t' ∧
    t.dev.channel side chid = t'.dev.channel side chid
  /-- A channel that was not drained by the close is not handed out. -/
  closed : ∀ t, fileStep s (.cdevRelease fd env.monitor) = some t → TimesOut env.monitor →
    ¬ t.dev.HandsOut side chid
  /-- Nor one that was not drained by either stop. -/
  disconnected : ∀ t,
    run fileStep s [.cdevIoctl fd env .freeConnection, .cdevRelease fd monitor] = some t →
    TimesOut env.monitor → TimesOut monitor → ¬ t.dev.HandsOut side chid

/-- The registers have the values that `xpcie_fpga_dev_disconnect` sets. -/
structure ChannelRegs.Initial (r : ChannelRegs) (dir : DmaDir) : Prop where
  /-- `Q_CTRL`. -/
  qCtrl : r.qCtrl = 0x10 <<< 8
  /-- `CH_CTRL1`. -/
  mode : r.ctrl1 = chCtrl1Init
  /-- `Q_ADDR`. -/
  addr : r.qAddrUp = 0 ∧ r.qAddrDn = 0
  /-- `BUF`, of a connection through a buffer. -/
  buf : dir.UsesBuf → r.bufAddrUp = 0 ∧ r.bufAddrDn = 0 ∧ r.bufSize = 0

variable {dev dev' : FpgaDevInfo} {side : DmaSide} {chid : Chid} {dir : DmaDir}
  {f : ChannelRegs → ChannelRegs}

/-- What `xpcie_fpga_dev_disconnect` makes of the registers. -/
def disconnectRegs (dir : DmaDir) (r : ChannelRegs) : ChannelRegs :=
  { ctrl0 := enableClear
    ctrl1 := chCtrl1Init
    qCtrl := 0x10 <<< 8
    qAddrUp := 0
    qAddrDn := 0
    bufAddrDn := if dir.UsesBuf then 0 else r.bufAddrDn
    bufAddrUp := if dir.UsesBuf then 0 else r.bufAddrUp
    bufSize := if dir.UsesBuf then 0 else r.bufSize }

/-- It changes nothing else exactly if they have their initial values. -/
theorem disconnectRegs_eq_iff (r : ChannelRegs) :
    { r with ctrl0 := enableClear } = disconnectRegs dir r ↔ r.Initial dir := by
  rw [disconnectRegs, ChannelRegs.mk.injEq]
  by_cases hbuf : dir.UsesBuf
  · simp only [if_pos hbuf, true_and]
    constructor
    · rintro ⟨hmode, hqCtrl, hdn, hup, hbufDn, hbufUp, hsize⟩
      exact ⟨hqCtrl, hmode, ⟨hup, hdn⟩, fun _ => ⟨hbufUp, hbufDn, hsize⟩⟩
    · intro h
      exact ⟨h.mode, h.qCtrl, h.addr.2, h.addr.1, (h.buf hbuf).2.1, (h.buf hbuf).1, (h.buf hbuf).2.2⟩
  · simp only [if_neg hbuf, true_and, and_true]
    constructor
    · rintro ⟨hmode, hqCtrl, hdn, hup⟩
      exact ⟨hqCtrl, hmode, ⟨hup, hdn⟩, fun h => absurd h hbuf⟩
    · intro h
      exact ⟨h.mode, h.qCtrl, h.addr.2, h.addr.1⟩

theorem sets_stopQueue (dev : FpgaDevInfo) (chid : Chid) (dir : DmaDir) (monitor : ℕ → BitVec 32) :
    Sets dir.side chid (fun r => { r with ctrl0 := enableClear }) dev
      (xpcieFpgaStopQueue dev chid dir monitor).2 :=
  (((sets_writeChSel dir chid).write _).write _).congr fun _ => rfl

/-- A channel whose registers are set and which is then put back. -/
theorem Sets.channel_putQueueInfo (h : Sets side chid f dev dev') (hside : dir.anySide = some side) :
    (xpcieFpgaPutQueueInfo dev' chid dir).2.channel side chid =
      ⟨.free, .empty, f (dev.regs.bank side chid)⟩ := by
  have hput : (xpcieFpgaPutQueueInfo dev' chid dir).2 = dev'.setQueue side chid
      { dev'.queues side chid with connectorId := .empty, status := .free } := by
    simp only [xpcieFpgaPutQueueInfo, hside]
  have hbank : dev'.regs.bank side chid = f (dev.regs.bank side chid) :=
    (h.bank side chid).trans (if_pos ⟨rfl, rfl⟩)
  rw [hput, FpgaDevInfo.channel, queues_setQueue_self, ← hbank]
  rfl

/-- **Closing** puts the channel back with the registers of the connection. -/
theorem channel_release (dev : FpgaDevInfo) (chid : Chid) (hside : dir.connectSide = some side)
    (monitor : ℕ → BitVec 32) :
    (xpcieCdevRelease dev (some ⟨dir, chid, true⟩) monitor).channel side chid =
      ⟨.free, .empty, { dev.regs.bank side chid with ctrl0 := enableClear }⟩ := by
  obtain rfl := DmaDir.side_of_connectSide hside
  exact (sets_stopQueue dev chid dir monitor).channel_putQueueInfo
    (DmaDir.anySide_of_connectSide hside)

/-- The registers after a drain that times out. -/
theorem sets_disconnect_timesOut (dev : FpgaDevInfo) (chid : Chid) (dir : DmaDir) {env : CallEnv}
    (ht : TimesOut env.monitor) :
    ∃ dev', xpcieFpgaIoctlLldma dev (some ⟨dir, chid, true⟩) env .freeConnection =
        (.error .efault, dev', some ⟨dir, chid, true⟩) ∧
      Sets dir.side chid (fun r => { r with ctrl0 := enableClear }) dev dev' := by
  have hstop := (sets_writeChSel dir chid).trans
    (sets_stopQueue (dev.writeChSel dir chid) chid dir env.monitor)
  obtain ⟨mid, -, ⟨-, hr⟩ | ⟨hn, -⟩⟩ :=
    xpcieFpgaStopQueue_cases (dev.writeChSel dir chid) chid dir env.monitor
  · rw [hr] at hstop
    exact ⟨mid, by simp only [xpcieFpgaIoctlLldma, xpcieFpgaDevDisconnect, hr], hstop⟩
  · exact absurd ht hn

/-- **Disconnecting** puts the channel back with its initial registers. -/
theorem channel_disconnect (dev : FpgaDevInfo) (chid : Chid) (hside : dir.connectSide = some side)
    {env : CallEnv} (ht : ¬ TimesOut env.monitor) :
    ∃ dev', xpcieFpgaIoctlLldma dev (some ⟨dir, chid, true⟩) env .freeConnection =
        (.ok none, dev', none) ∧
      dev'.channel side chid = ⟨.free, .empty, disconnectRegs dir (dev.regs.bank side chid)⟩ := by
  obtain rfl := DmaDir.side_of_connectSide hside
  have hstop := (sets_writeChSel dir chid).trans
    (sets_stopQueue (dev.writeChSel dir chid) chid dir env.monitor)
  obtain ⟨mid, -, ⟨ht', -⟩ | ⟨-, hr⟩⟩ :=
    xpcieFpgaStopQueue_cases (dev.writeChSel dir chid) chid dir env.monitor
  · exact absurd ht' ht
  · rw [hr] at hstop
    have hinit := (((hstop.write fun r => { r with qCtrl := 0x10 <<< 8 }).write
      fun r => { r with ctrl1 := chCtrl1Init }).write fun r => { r with qAddrUp := 0 }).write
      fun r => { r with qAddrDn := 0 }
    have hall : Sets dir.side chid (disconnectRegs dir) dev _ :=
      (hinit.setBuf 0 0).congr fun _ => rfl
    refine ⟨_, by simp only [xpcieFpgaIoctlLldma, xpcieFpgaDevDisconnect, hr],
      hall.channel_putQueueInfo (DmaDir.anySide_of_connectSide hside)⟩

/-- A free channel is handed out. -/
theorem handsOut_of_free (h : (dev.queues side chid).status = .free) : dev.HandsOut side chid := by
  let c : FpgaIoctlConnect := ⟨side, chid, 0, dev.devId + 1, 0, 0, .empty⟩
  let env : CallEnv := { CallEnv.quiet with baseaddr := fun _ => 1 }
  refine ⟨env, .allocConnection c, ?_⟩
  rcases ioctl_allocConnection_cases dev none env c with ⟨e, -, hused⟩ | ⟨dev', -, -, -, -, -, hr⟩
  · have hne : dev.devId ≠ c.peerMinor := (Nat.succ_ne_self _).symm
    have haddr : (1 : BitVec 64) ≠ 0 := by decide
    rw [hused rfl hne haddr] at h
    cases h
  · rw [hr]
    exact congrArg (fun side => some (side, chid)) (DmaDir.side_of_connectSide c.connectSide_dir)

/-! ### Both ways -/

section CloseFile

variable {s t : LldmaSystem} {fd : ℕ} {priv : XpcieFilePrivate}

theorem fileStep_release (hf : s.files fd = some priv) (monitor : ℕ → BitVec 32) :
    fileStep s (.cdevRelease fd monitor) =
      some ⟨xpcieCdevRelease s.dev priv monitor, Function.update s.files fd none⟩ := by
  simp only [fileStep, hf]

/-- A command, and a close after it. -/
theorem run_ioctl_release (hf : s.files fd = some priv) {env : CallEnv} {cmd : LldmaCmd}
    {r : Except Errno (Option FpgaIoctlQueue)} {priv' : XpcieFilePrivate}
    (hr : xpcieFpgaIoctlLldma s.dev priv env cmd = (r, dev', priv')) (monitor : ℕ → BitVec 32) :
    ∃ t, run fileStep s [.cdevIoctl fd env cmd, .cdevRelease fd monitor] = some t ∧
      t.dev = xpcieCdevRelease dev' priv' monitor := by
  have hstep : fileStep s (.cdevIoctl fd env cmd) =
      some ⟨dev', Function.update s.files fd (some priv')⟩ := by
    simp only [fileStep, hf, hr]
  let mid : LldmaSystem := ⟨dev', Function.update s.files fd (some priv')⟩
  have hmid : mid.files fd = some priv' := Function.update_self ..
  refine ⟨⟨xpcieCdevRelease dev' priv' monitor, Function.update mid.files fd none⟩, ?_, rfl⟩
  rw [run_cons, hstep, Option.bind_some, run_cons, fileStep_release hmid]
  rfl

/-- What both ways leave: the same after a drain that times out, else other registers. -/
theorem channel_disconnect_release (hf : s.files fd = some (some ⟨dir, chid, true⟩))
    (hside : dir.connectSide = some side) (env : CallEnv) (monitor : ℕ → BitVec 32) :
    ∃ t, run fileStep s [.cdevIoctl fd env .freeConnection, .cdevRelease fd monitor] = some t ∧
      t.dev.channel side chid = ⟨.free, .empty,
        if TimesOut env.monitor then { s.dev.regs.bank side chid with ctrl0 := enableClear }
        else disconnectRegs dir (s.dev.regs.bank side chid)⟩ := by
  by_cases ht : TimesOut env.monitor
  · obtain ⟨dev', hr, hsets⟩ := sets_disconnect_timesOut s.dev chid dir ht
    obtain ⟨t, hrun, hdev⟩ := run_ioctl_release hf hr monitor
    refine ⟨t, hrun, ?_⟩
    rw [DmaDir.side_of_connectSide hside] at hsets
    rw [hdev, channel_release dev' chid hside monitor, if_pos ht, hsets.bank, if_pos ⟨rfl, rfl⟩]
  · obtain ⟨dev', hr, hchannel⟩ := channel_disconnect s.dev chid hside ht
    obtain ⟨t, hrun, hdev⟩ := run_ioctl_release hf hr monitor
    refine ⟨t, hrun, ?_⟩
    rw [hdev, if_neg ht]
    exact hchannel

/-- A close that is right drained the channel. -/
theorem CloseRight.drained (hf : s.files fd = some (some ⟨dir, chid, true⟩))
    (hside : dir.connectSide = some side) {env : CallEnv} {monitor : ℕ → BitVec 32}
    (h : CloseRight s fd side chid env monitor) : ¬ TimesOut env.monitor := fun ht =>
  h.closed _ (fileStep_release hf env.monitor) ht
    (handsOut_of_free (congrArg ChannelState.status (channel_release s.dev chid hside env.monitor)))

/-- And there was nothing to set in the registers. -/
theorem CloseRight.initial (hf : s.files fd = some (some ⟨dir, chid, true⟩))
    (hside : dir.connectSide = some side) {env : CallEnv} {monitor : ℕ → BitVec 32}
    (h : CloseRight s fd side chid env monitor) : (s.dev.regs.bank side chid).Initial dir := by
  obtain ⟨t, t', ht, ht', hsame⟩ := h.same
  obtain ⟨u, hrun, hchannel⟩ := channel_disconnect_release hf hside env monitor
  rw [fileStep_release hf] at ht
  rw [hrun] at ht'
  cases ht
  cases ht'
  rw [channel_release s.dev chid hside, hchannel, if_neg (h.drained hf hside)] at hsame
  exact (disconnectRegs_eq_iff _).mp (congrArg ChannelState.regs hsame)

/-- **No close is right after a connection** below the count. -/
theorem not_closeRight_of_allocConnection {env : CallEnv} {c : FpgaIoctlConnect}
    {r : Option FpgaIoctlQueue} {priv' : XpcieFilePrivate} (hf : s.files fd = some priv)
    (hlt : c.selfChid < s.dev.availableDmaChannelNum)
    (hcid : c.peerChid.setWidth 8 ≠ (255 : BitVec 8))
    (h : xpcieFpgaIoctlLldma s.dev priv env (.allocConnection c) = (.ok r, dev', priv')) :
    ∃ t, fileStep s (.cdevIoctl fd env (.allocConnection c)) = some t ∧
      t.files fd = some (some ⟨c.dir, c.selfChid, true⟩) ∧ ∀ env' monitor, ¬ CloseRight t fd c.selfSide c.selfChid env' monitor := by
  obtain ⟨haddr, hconnect, rfl⟩ := ioctl_allocConnection_ok h
  have hsets := xpcieFpgaDevConnect_sets c.connectSide_dir hlt hcid haddr hconnect
  refine ⟨⟨dev', Function.update s.files fd (some (some ⟨c.dir, c.selfChid, true⟩))⟩,
    by simp only [fileStep, hf, h], Function.update_self .., fun env' monitor hright => ?_⟩
  have hinitial := hright.initial (Function.update_self ..) c.connectSide_dir
  rw [show LldmaSystem.dev _ = dev' from rfl, hsets.bank, if_pos ⟨rfl, rfl⟩] at hinitial
  have hmode : c.dir.connectMode = chCtrl1Init := hinitial.mode
  unfold DmaDir.connectMode at hmode
  split_ifs at hmode
  · exact absurd hmode (by decide)
  · exact absurd hmode (by decide)

/-- **Closing a connected file is what disconnecting it is** exactly if the drain does not time out
and the registers of the channel have their initial values already. -/
theorem closeRight_iff (hf : s.files fd = some (some ⟨dir, chid, true⟩))
    (hside : dir.connectSide = some side) (env : CallEnv) (monitor : ℕ → BitVec 32) :
    CloseRight s fd side chid env monitor ↔
      ¬ TimesOut env.monitor ∧ (s.dev.regs.bank side chid).Initial dir := by
  constructor
  · exact fun h => ⟨h.drained hf hside, h.initial hf hside⟩
  · intro ⟨hdrained, hinitial⟩
    obtain ⟨t, hrun, hchannel⟩ := channel_disconnect_release hf hside env monitor
    refine ⟨⟨_, t, fileStep_release hf env.monitor, hrun, ?_⟩, fun _ _ h => absurd h hdrained,
      fun _ _ h => absurd h hdrained⟩
    rw [channel_release s.dev chid hside, hchannel, if_neg hdrained,
      (disconnectRegs_eq_iff _).mpr hinitial]

/-- A connection of a channel that is not counted leaves its registers alone. -/
theorem closeRight_uncounted :
    let regs : LldmaRegs :=
      ⟨fun _ => 0, fun _ => 0, fun _ _ => { ChannelRegs.zero with qCtrl := 0x1000 }⟩
    let c : FpgaIoctlConnect := ⟨.tx, 3, 0, 1, 0, 0, .empty⟩
    ∃ s, run fileStep (.init 0 regs fun _ _ => 0)
        [.cdevOpen 0, .cdevIoctl 0 ⟨true, true, 0, fun _ => 0, fun _ => 1⟩ (.allocConnection c)] =
          some s ∧
      CloseRight s 0 .tx 3 .quiet fun _ => 0 := by
  intro regs c
  refine ⟨_, rfl, ?_⟩
  refine (closeRight_iff rfl rfl .quiet _).mpr ⟨by decide, by decide +kernel, by decide +kernel,
    by decide +kernel, fun hbuf => ?_⟩
  exact absurd hbuf (by decide)

/-- A channel that is connected to another device, and closed. -/
theorem not_closeRight :
    ¬ ∀ (devId : ℕ) (regs : LldmaRegs) (ringPhys : DmaSide → Chid → BitVec 64) (ops : List FileOp)
      (s : LldmaSystem) (fd : ℕ) (dir : DmaDir) (side : DmaSide) (chid : Chid) (env : CallEnv)
      (monitor : ℕ → BitVec 32),
      run fileStep (.init devId regs ringPhys) ops = some s →
        s.files fd = some (some ⟨dir, chid, true⟩) → dir.connectSide = some side →
          CloseRight s fd side chid env monitor := by
  intro h
  let s : LldmaSystem :=
    ⟨xpcieFpgaDevInit 0 (.reset 1 1) fun _ _ => 0, Function.update (fun _ => none) 0 (some none)⟩
  let c : FpgaIoctlConnect := ⟨.rx, 0, 0, 1, 0, 0, .empty⟩
  let env : CallEnv := ⟨true, true, 0, fun _ => 0, fun _ => 1⟩
  have hfiles : s.files 0 = some none := rfl
  rcases ioctl_allocConnection_cases s.dev none env c with ⟨e, -, hused⟩ | ⟨dev', -, -, -, -, -, hr⟩
  · have husedZero : QueueStatus.free = .used := hused rfl (by decide) (by decide)
    cases husedZero
  · obtain ⟨t, hstep, hfile, hnot⟩ :=
      not_closeRight_of_allocConnection hfiles (by decide) (by decide) hr
    have hrun : run fileStep (.init 0 (.reset 1 1) fun _ _ => 0)
        [.cdevOpen 0, .cdevIoctl 0 env (.allocConnection c)] = some t :=
      (congrArg (Option.bind · some) hstep).trans rfl
    exact hnot .quiet (fun _ => 0)
      (h _ _ _ _ t 0 c.dir .rx 0 .quiet (fun _ => 0) hrun hfile c.connectSide_dir)

end CloseFile

end HardwareDrivers.Driver
