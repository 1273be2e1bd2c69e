import HardwareDrivers.Driver.Lldma
import HardwareDrivers.Theory.Banked

/-!
# Operations on channels that overlap

`lldma_reg_read` and `lldma_reg_write` take the lock of the registers for one access
each, so the operations of `libxpcie_lldma.c` on two channels of a side, through two
descriptors, can take turns at every access, while the side has one `CH_SEL`. Here the
operations are programs of single accesses. What the hardware does at an access is a
parameter.

## What is proved

* `LldmaOp.eval_prog` — without turns the programs do what the functions do that the
  other modules use.
* `overlap_iff` — two operations that overlap reach their own channels only and end as
  one after the other would, exactly if neither selects its channel while the other
  still has to access its own.
-/

namespace HardwareDrivers.Driver

open Theory

/-! ### The accesses -/

/-- A register of the selected channel. -/
inductive ChannelReg where
  /-- `CH_CTRL0`. -/
  | ctrl0
  /-- `CH_CTRL1`. -/
  | ctrl1
  /-- `Q_CTRL`. -/
  | qCtrl
  /-- `Q_ADDR_DN`. -/
  | qAddrDn
  /-- `Q_ADDR_UP`. -/
  | qAddrUp
  /-- `BUF_ADDR_DN`. -/
  | bufAddrDn
  /-- `BUF_ADDR_UP`. -/
  | bufAddrUp
  /-- `BUF_SIZE`. -/
  | bufSize
  deriving DecidableEq, Repr

/-- The registers of a channel after a write. -/
def ChannelRegs.set (regs : ChannelRegs) (value : BitVec 32) : ChannelReg → ChannelRegs
  | .ctrl0 => { regs with ctrl0 := value }
  | .ctrl1 => { regs with ctrl1 := value }
  | .qCtrl => { regs with qCtrl := value }
  | .qAddrDn => { regs with qAddrDn := value }
  | .qAddrUp => { regs with qAddrUp := value }
  | .bufAddrDn => { regs with bufAddrDn := value }
  | .bufAddrUp => { regs with bufAddrUp := value }
  | .bufSize => { regs with bufSize := value }

/-- A program of accesses to the registers of a side. -/
abbrev LldmaProg := BankProg ℕ ChannelReg (BitVec 32)

/-- `lldma_reg_write` to `CH_SEL(dir)`. -/
def writeChSel (chid : Chid) : LldmaProg Unit := .cmd (.select chid.val) .done

/-- `lldma_reg_write` to another register. -/
def lldmaRegWrite (r : ChannelReg) (value : BitVec 32) : LldmaProg Unit :=
  .cmd (.write r value) .done

/-- `lldma_reg_read`. -/
def lldmaRegRead (r : ChannelReg) : LldmaProg (BitVec 32) := .cmd (.read r) .done

/-! ### The operations -/

/-- `queue_set_addr`. -/
def queueSetAddrProg (dev : FpgaDevInfo) (chid : Chid) (dir : DmaDir) (addr : BitVec 64) :
    LldmaProg Unit :=
  if dev.availableDmaChannelNum ≤ chid then pure ()
  else
    match queueAddr dev chid addr dir with
    | none => pure ()
    | some physAddr => do
      writeChSel chid
      lldmaRegWrite .qAddrUp ((physAddr >>> 32).setWidth 32)
      lldmaRegWrite .qAddrDn (physAddr.setWidth 32)

/-- `queue_set_ctrl`. -/
def queueSetCtrlProg (dev : FpgaDevInfo) (chid : Chid) (dir : DmaDir) (cid : BitVec 8) :
    LldmaProg Unit :=
  if dev.availableDmaChannelNum ≤ chid then pure ()
  else
    match queueCtrl dev chid cid dir with
    | none => pure ()
    | some (qCtrl, chCtrl1) => do
      writeChSel chid
      lldmaRegWrite .qCtrl qCtrl
      lldmaRegWrite .ctrl1 chCtrl1

/-- `xpcie_fpga_start_queue`, with the record it leaves. -/
def startQueueProg (dev : FpgaDevInfo) (chid : Chid) (dir : DmaDir) : LldmaProg FpgaQueueEnqdeq :=
  if dev.availableDmaChannelNum ≤ chid then pure (dev.queues dir.side chid)
  else
    match dir.queueSide with
    | none => pure (dev.queues dir.side chid)
    | some side => do
      queueSetAddrProg dev chid dir 0
      queueSetCtrlProg dev chid dir 255
      writeChSel chid
      let data ← lldmaRegRead .qCtrl
      let info := dev.queues side chid
      let head := ((data &&& 0xFF000000) >>> 24).toNat
      lldmaRegWrite .ctrl0 dir.enable
      pure { info with que := { info.que with writehead := head, readhead := head } }

/-- The loop of `xpcie_fpga_stop_queue`, from `cnt` on for at most `n` polls. -/
def drainLoopProg (cnt : ℕ) : ℕ → LldmaProg ℕ
  | 0 => pure cnt
  | n + 1 => do
    let monitorVal ← lldmaRegRead .ctrl0
    if monitorVal = 0 then pure cnt else drainLoopProg (cnt + 1) n

/-- `xpcie_fpga_stop_queue`. -/
def stopQueueProg (chid : Chid) : LldmaProg (Except Errno Unit) := do
  writeChSel chid
  lldmaRegWrite .ctrl0 0
  let cnt ← drainLoopProg 0 drainPolls
  lldmaRegWrite .ctrl0 enableClear
  pure (if cnt = drainPolls then .error .efault else .ok ())

/-- `xpcie_fpga_set_buf`. -/
def setBufProg (bufSize : BitVec 32) (bufAddr : BitVec 64) : LldmaProg Unit := do
  lldmaRegWrite .bufAddrDn (bufAddr.setWidth 32)
  lldmaRegWrite .bufAddrUp ((bufAddr >>> 32).setWidth 32)
  lldmaRegWrite .bufSize bufSize

/-- The `switch` before `xpcie_fpga_set_buf`. -/
def setBufSwitchProg (dir : DmaDir) (bufSize : BitVec 32) (bufAddr : BitVec 64) : LldmaProg Unit :=
  if dir.UsesBuf then setBufProg bufSize bufAddr else pure ()

/-- `xpcie_fpga_dev_connect`, with the record it leaves. -/
def devConnectProg (dev : FpgaDevInfo) (selfChid : Chid) (peerChid : BitVec 32) (dir : DmaDir)
    (peerAddr : BitVec 64) (bufSize : BitVec 32) (bufAddr : BitVec 64) (connectorId : ConnectorId) :
    LldmaProg (Except Errno Unit × FpgaQueueEnqdeq) :=
  match dir.connectSide with
  | none => pure (.error .einval, dev.queues dir.side selfChid)
  | some side =>
    let cid : BitVec 8 := peerChid.setWidth 8
    let info := dev.queues side selfChid
    if info.status ≠ .free then pure (.error .ebusy, info)
    else do
      queueSetCtrlProg dev selfChid dir cid
      queueSetAddrProg dev selfChid dir peerAddr
      setBufSwitchProg dir bufSize bufAddr
      writeChSel selfChid
      lldmaRegWrite .ctrl0 (enableIe ||| enableOe)
      pure (.ok (), { info with status := .used, connectorId })

/-- `xpcie_fpga_dev_disconnect`, with the record it leaves. -/
def devDisconnectProg (dev : FpgaDevInfo) (selfChid : Chid) (dir : DmaDir) :
    LldmaProg (Except Errno Unit × FpgaQueueEnqdeq) := do
  writeChSel selfChid
  let ret ← stopQueueProg selfChid
  match ret with
  | .error e => pure (.error e, dev.queues dir.side selfChid)
  | .ok _ => do
    lldmaRegWrite .qCtrl (0x10 <<< 8)
    lldmaRegWrite .ctrl1 chCtrl1Init
    lldmaRegWrite .qAddrUp 0
    lldmaRegWrite .qAddrDn 0
    setBufSwitchProg dir 0 0
    pure (.ok (), (xpcieFpgaPutQueueInfo dev selfChid dir).2.queues dir.side selfChid)

/-- An operation on a channel. -/
inductive LldmaOp where
  /-- `xpcie_fpga_start_queue`. -/
  | startQueue (chid : Chid) (dir : DmaDir)
  /-- `xpcie_fpga_stop_queue`. -/
  | stopQueue (chid : Chid) (dir : DmaDir)
  /-- `xpcie_fpga_dev_connect`. -/
  | devConnect (selfChid : Chid) (peerChid : BitVec 32) (dir : DmaDir) (peerAddr : BitVec 64)
    (bufSize : BitVec 32) (bufAddr : BitVec 64) (connectorId : ConnectorId)
  /-- `xpcie_fpga_dev_disconnect`. -/
  | devDisconnect (selfChid : Chid) (dir : DmaDir)

namespace LldmaOp

/-- The channel. -/
def chid : LldmaOp → Chid
  | startQueue chid _ | stopQueue chid _ | devConnect chid .. | devDisconnect chid _ => chid

/-- The direction. -/
def dir : LldmaOp → DmaDir
  | startQueue _ dir | stopQueue _ dir | devConnect _ _ dir .. | devDisconnect _ dir => dir

/-- The accesses of an operation, and what it returns and leaves in the record of its channel. -/
def prog (dev : FpgaDevInfo) : LldmaOp → LldmaProg (Except Errno Unit × FpgaQueueEnqdeq)
  | startQueue chid dir => do
    let info ← startQueueProg dev chid dir
    pure (.ok (), info)
  | stopQueue chid dir => do
    let ret ← stopQueueProg chid
    pure (ret, dev.queues dir.side chid)
  | devConnect selfChid peerChid dir peerAddr bufSize bufAddr connectorId =>
    devConnectProg dev selfChid peerChid dir peerAddr bufSize bufAddr connectorId
  | devDisconnect selfChid dir => devDisconnectProg dev selfChid dir

/-- The function itself, all at once; `shown` is what the hardware shows at the reads. -/
def exec (dev : FpgaDevInfo) (shown : ℕ → BitVec 32) :
    LldmaOp → Except Errno Unit × FpgaDevInfo
  | startQueue chid dir => (.ok (), xpcieFpgaStartQueue dev chid dir (shown 0))
  | stopQueue chid dir => xpcieFpgaStopQueue dev chid dir shown
  | devConnect selfChid peerChid dir peerAddr bufSize bufAddr connectorId =>
    xpcieFpgaDevConnect dev selfChid peerChid dir peerAddr bufSize bufAddr connectorId
  | devDisconnect selfChid dir => xpcieFpgaDevDisconnect dev selfChid dir shown

end LldmaOp

/-! ### One operation by itself -/

/-- Hardware that stores what is written, and at each read shows what it will. -/
def storingHw : BankHw ChannelReg (BitVec 32) (ChannelRegs × (ℕ → BitVec 32)) where
  write r value st := (st.1.set value r, st.2)
  read _ st := (st.2 0, (st.1, fun n => st.2 (n + 1)))

/-- The registers of a side; `shown` is what the channels will show. -/
def LldmaRegs.onSide (regs : LldmaRegs) (side : DmaSide) (shown : ℕ → ℕ → BitVec 32) :
    Banked ℕ (ChannelRegs × (ℕ → BitVec 32)) :=
  ⟨regs.chSel side, fun ch => (regs.bank side ch, shown ch)⟩

variable {dev : FpgaDevInfo} {regs : LldmaRegs} {dir : DmaDir} {chid : Chid}
  {shown : ℕ → ℕ → BitVec 32} {α : Type}

theorem eval_writeChSel :
    (writeChSel chid).eval (bankExec storingHw) (regs.onSide dir.side shown) =
      ((), (regs.writeChSel dir chid).onSide dir.side shown) := by
  refine Prod.ext rfl (?_ : Banked.mk chid.val _ = Banked.mk _ _)
  rw [LldmaRegs.chSel_writeChSel]
  rfl

theorem eval_lldmaRegWrite (r : ChannelReg) (value : BitVec 32) :
    (lldmaRegWrite r value).eval (bankExec storingHw) (regs.onSide dir.side shown) =
      ((), (regs.writeChannel dir (·.set value r)).onSide dir.side shown) := by
  refine Prod.ext rfl (congrArg (Banked.mk (regs.chSel dir.side)) (funext fun ch => ?_))
  by_cases h : ch = regs.chSel dir.side
  · subst h
    simp [storingHw, LldmaRegs.onSide, LldmaRegs.writeChannel]
  · simp [LldmaRegs.onSide, LldmaRegs.writeChannel, h]

theorem eval_lldmaRegRead (r : ChannelReg) :
    (lldmaRegRead r).eval (bankExec storingHw) (regs.onSide dir.side shown) =
      (shown (regs.chSel dir.side) 0, regs.onSide dir.side (Function.update shown
        (regs.chSel dir.side) fun n => shown (regs.chSel dir.side) (n + 1))) := by
  refine Prod.ext rfl (congrArg (Banked.mk (regs.chSel dir.side)) (funext fun ch => ?_))
  by_cases h : ch = regs.chSel dir.side
  · subst h
    simp [storingHw, LldmaRegs.onSide]
  · simp [LldmaRegs.onSide, h]

theorem eval_queueSetAddr {dev₀ : FpgaDevInfo} {addr : BitVec 64}
    (hcount : dev₀.availableDmaChannelNum = dev.availableDmaChannelNum)
    (haddr : queueAddr dev₀ chid addr dir = queueAddr dev chid addr dir) :
    (queueSetAddrProg dev₀ chid dir addr).eval (bankExec storingHw)
        (dev.regs.onSide dir.side shown) =
      ((), (queueSetAddr dev chid dir addr).regs.onSide dir.side shown) := by
  unfold queueSetAddrProg queueSetAddr
  rw [hcount, haddr]
  split
  · rfl
  · cases queueAddr dev chid addr dir with
    | none => rfl
    | some physAddr =>
      simp only [Prog.eval_bind, eval_writeChSel, eval_lldmaRegWrite]
      rfl

theorem eval_queueSetCtrl {dev₀ : FpgaDevInfo} {cid : BitVec 8}
    (hcount : dev₀.availableDmaChannelNum = dev.availableDmaChannelNum)
    (hctrl : queueCtrl dev₀ chid cid dir = queueCtrl dev chid cid dir) :
    (queueSetCtrlProg dev₀ chid dir cid).eval (bankExec storingHw)
        (dev.regs.onSide dir.side shown) =
      ((), (queueSetCtrl dev chid dir cid).regs.onSide dir.side shown) := by
  unfold queueSetCtrlProg queueSetCtrl
  rw [hcount, hctrl]
  split
  · rfl
  · cases queueCtrl dev chid cid dir with
    | none => rfl
    | some ctrl =>
      simp only [Prog.eval_bind, eval_writeChSel, eval_lldmaRegWrite]
      rfl

theorem eval_setBufSwitch (dev : FpgaDevInfo) (dir : DmaDir) (shown : ℕ → ℕ → BitVec 32)
    (bufSize : BitVec 32) (bufAddr : BitVec 64) :
    (setBufSwitchProg dir bufSize bufAddr).eval (bankExec storingHw)
        (dev.regs.onSide dir.side shown) =
      ((), (if dir.UsesBuf then xpcieFpgaSetBuf dev dir bufSize bufAddr else dev).regs.onSide
        dir.side shown) := by
  unfold setBufSwitchProg
  split
  · simp only [setBufProg, Prog.eval_bind, eval_lldmaRegWrite]
    rfl
  · rfl

/-- The polls see one value after the other. -/
theorem eval_drainLoop (regs : LldmaRegs) (dir : DmaDir) {shown : ℕ → ℕ → BitVec 32}
    (monitor : ℕ → BitVec 32) (cnt n : ℕ)
    (hmonitor : ∀ k, shown (regs.chSel dir.side) k = monitor (cnt + k)) :
    ∃ shown', (drainLoopProg cnt n).eval (bankExec storingHw) (regs.onSide dir.side shown) =
      (drainLoop monitor cnt n, regs.onSide dir.side shown') := by
  induction n generalizing cnt shown with
  | zero => exact ⟨shown, rfl⟩
  | succ n ih =>
    simp only [drainLoopProg, drainLoop, Prog.eval_bind, eval_lldmaRegRead, hmonitor 0,
      Nat.add_zero]
    split
    · exact ⟨_, rfl⟩
    · refine ih _ fun k => ?_
      rw [Function.update_self, hmonitor]
      congr 1
      omega

theorem eval_stopQueue (dev : FpgaDevInfo) (dir : DmaDir) (chid : Chid)
    (shown : ℕ → ℕ → BitVec 32) : ∃ shown', (stopQueueProg chid).eval (bankExec storingHw)
    (dev.regs.onSide dir.side shown) =
      ((xpcieFpgaStopQueue dev chid dir (shown chid)).1,
        (xpcieFpgaStopQueue dev chid dir (shown chid)).2.regs.onSide dir.side shown') := by
  have hshown : ∀ k, shown (((dev.regs.writeChSel dir chid).writeChannel dir
      (·.set 0 .ctrl0)).chSel dir.side) k = shown chid (0 + k) := by
    intro k
    simp [LldmaRegs.writeChannel]
  obtain ⟨shown', h⟩ := eval_drainLoop _ dir (shown chid) 0 drainPolls hshown
  refine ⟨shown', ?_⟩
  simp only [stopQueueProg, Prog.eval_bind, eval_writeChSel, eval_lldmaRegWrite, h]
  rfl

theorem queueCtrl_congr {dev₀ : FpgaDevInfo} (h : dev₀.queues = dev.queues) (cid : BitVec 8) :
    queueCtrl dev₀ chid cid dir = queueCtrl dev chid cid dir := by
  unfold queueCtrl
  rw [h]

theorem eval_startQueue (dev : FpgaDevInfo) (dir : DmaDir) (chid : Chid)
    (shown : ℕ → ℕ → BitVec 32) : ∃ shown', (startQueueProg dev chid dir).eval (bankExec storingHw)
    (dev.regs.onSide dir.side shown) =
      ((xpcieFpgaStartQueue dev chid dir (shown chid 0)).queues dir.side chid,
        (xpcieFpgaStartQueue dev chid dir (shown chid 0)).regs.onSide dir.side shown') := by
  unfold startQueueProg xpcieFpgaStartQueue
  split
  · exact ⟨shown, rfl⟩
  · cases hside : dir.queueSide with
    | none => exact ⟨shown, rfl⟩
    | some side =>
      obtain rfl := DmaDir.side_of_queueSide hside
      have haddr : RegsOnly dir.side chid dev (queueSetAddr dev chid dir 0) :=
        regsOnly_queueSetAddr chid 0
      have hctrl : RegsOnly dir.side chid dev
          (queueSetCtrl (queueSetAddr dev chid dir 0) chid dir 255) :=
        haddr.trans (regsOnly_queueSetCtrl chid 255)
      refine ⟨Function.update shown chid fun n => shown chid (n + 1), ?_⟩
      simp only [Prog.eval_bind, eval_queueSetAddr rfl rfl,
        eval_queueSetCtrl haddr.count.symm (queueCtrl_congr haddr.queues.symm _),
        eval_writeChSel, eval_lldmaRegRead, eval_lldmaRegWrite, LldmaRegs.chSel_writeChSel,
        FpgaDevInfo.writeChSel, hctrl.queues]
      refine Prod.ext ?_ rfl
      exact (queues_setQueue_self _).symm

/-- The record of a channel after `xpcie_fpga_dev_connect` marked it. -/
theorem queues_setQueue_same (dev : FpgaDevInfo) (chid : Chid) (side : DmaSide)
    {info : FpgaQueueEnqdeq}
    (h : info.que = (dev.queues side chid).que ∧ info.ringPhys = (dev.queues side chid).ringPhys)
    (s : DmaSide) : ((dev.setQueue side chid info).queues s chid).que = (dev.queues s chid).que ∧
      ((dev.setQueue side chid info).queues s chid).ringPhys = (dev.queues s chid).ringPhys := by
  by_cases hs : s = side
  · subst hs
    rwa [queues_setQueue_self]
  · rw [show (dev.setQueue side chid info).queues s chid = _ from if_neg fun h' => hs h'.1]
    exact ⟨rfl, rfl⟩

theorem eval_devConnect (selfChid : Chid) (peerChid : BitVec 32) (peerAddr : BitVec 64)
    (bufSize : BitVec 32) (bufAddr : BitVec 64) (connectorId : ConnectorId) :
    (devConnectProg dev selfChid peerChid dir peerAddr bufSize bufAddr connectorId).eval
        (bankExec storingHw) (dev.regs.onSide dir.side shown) =
      let r := xpcieFpgaDevConnect dev selfChid peerChid dir peerAddr bufSize bufAddr connectorId
      ((r.1, r.2.queues dir.side selfChid), r.2.regs.onSide dir.side shown) := by
  cases hside : dir.connectSide with
  | none => simp [devConnectProg, xpcieFpgaDevConnect, hside]
  | some side =>
    obtain rfl := DmaDir.side_of_connectSide hside
    by_cases hst : (dev.queues dir.side selfChid).status = .free
    · simp only [devConnectProg, xpcieFpgaDevConnect, hside, hst, ne_eq, not_true_eq_false, if_false,
        Prog.eval_bind]
      have hque := queues_setQueue_same dev selfChid dir.side
        (show ({ dev.queues dir.side selfChid with status := .used } : FpgaQueueEnqdeq).que = _ ∧ _
          from ⟨rfl, rfl⟩)
      have hself : (dev.setQueue dir.side selfChid
          { dev.queues dir.side selfChid with status := .used }).queues dir.side selfChid =
            { dev.queues dir.side selfChid with status := .used } := queues_setQueue_self _
      rw [show dev.regs = (dev.setQueue dir.side selfChid
        { dev.queues dir.side selfChid with status := .used }).regs from rfl]
      have hcount : dev.availableDmaChannelNum = (dev.setQueue dir.side selfChid
        { dev.queues dir.side selfChid with status := .used }).availableDmaChannelNum := rfl
      generalize dev.setQueue dir.side selfChid
        { dev.queues dir.side selfChid with status := .used } = mid at hque hself hcount ⊢
      rw [eval_queueSetCtrl hcount (by simp only [queueCtrl, hque])]
      have hctrl : RegsOnly dir.side selfChid mid
        (queueSetCtrl mid selfChid dir (peerChid.setWidth 8)) := regsOnly_queueSetCtrl selfChid _
      generalize queueSetCtrl mid selfChid dir (peerChid.setWidth 8) = ctrl at hctrl ⊢
      rw [eval_queueSetAddr (hcount.trans hctrl.count.symm)
        (by simp only [queueAddr, hctrl.queues, hque])]
      have haddr : RegsOnly dir.side selfChid ctrl (queueSetAddr ctrl selfChid dir peerAddr) :=
        regsOnly_queueSetAddr selfChid _
      generalize queueSetAddr ctrl selfChid dir peerAddr = addr at haddr ⊢
      rw [eval_setBufSwitch, eval_writeChSel, eval_lldmaRegWrite, Prog.eval_pure,
        queues_setQueue_self]
      have hbuf : (if dir.UsesBuf then xpcieFpgaSetBuf addr dir bufSize bufAddr else addr).queues =
          addr.queues := by
        split <;> rfl
      have hlast := (congrFun (congrFun (hbuf.trans (haddr.queues.trans hctrl.queues)) dir.side)
        selfChid).trans hself
      generalize (if dir.UsesBuf then xpcieFpgaSetBuf addr dir bufSize bufAddr else addr) = buf
        at hlast ⊢
      refine Prod.ext (congrArg (Prod.mk _) ?_) rfl
      simp only [FpgaDevInfo.writeChannel, FpgaDevInfo.writeChSel, hlast]
    · simp [devConnectProg, xpcieFpgaDevConnect, hside, hst]

theorem putQueueInfo_regs (dev : FpgaDevInfo) (chid : Chid) (dir : DmaDir) :
    (xpcieFpgaPutQueueInfo dev chid dir).2.regs = dev.regs := by
  unfold xpcieFpgaPutQueueInfo
  split <;> rfl

theorem putQueueInfo_queues {dev₀ : FpgaDevInfo} (h : dev₀.queues = dev.queues) :
    (xpcieFpgaPutQueueInfo dev₀ chid dir).2.queues = (xpcieFpgaPutQueueInfo dev chid dir).2.queues := by
  unfold xpcieFpgaPutQueueInfo
  split
  · exact h
  · simp only [FpgaDevInfo.setQueue, h]

theorem eval_devDisconnect (selfChid : Chid) :
    ∃ shown', (devDisconnectProg dev selfChid dir).eval (bankExec storingHw)
        (dev.regs.onSide dir.side shown) =
      let r := xpcieFpgaDevDisconnect dev selfChid dir (shown selfChid)
      ((r.1, r.2.queues dir.side selfChid), r.2.regs.onSide dir.side shown') := by
  obtain ⟨shown', h⟩ := eval_stopQueue (dev.writeChSel dir selfChid) dir selfChid shown
  refine ⟨shown', ?_⟩
  obtain ⟨dev', hregs, ⟨-, hr⟩ | ⟨-, hr⟩⟩ :=
    xpcieFpgaStopQueue_cases (dev.writeChSel dir selfChid) selfChid dir (shown selfChid)
  · rw [hr] at h
    simp only [devDisconnectProg, xpcieFpgaDevDisconnect, hr, Prog.eval_bind, eval_writeChSel,
      show dev.regs.writeChSel dir selfChid = (dev.writeChSel dir selfChid).regs from rfl, h,
      Prog.eval_pure, hregs.queues]
    rfl
  · rw [hr] at h
    simp only [devDisconnectProg, xpcieFpgaDevDisconnect, hr, Prog.eval_bind, eval_writeChSel,
      show dev.regs.writeChSel dir selfChid = (dev.writeChSel dir selfChid).regs from rfl, h,
      eval_lldmaRegWrite, Prog.eval_pure]
    let init := (((dev'.writeChannel dir fun r => { r with qCtrl := 0x10 <<< 8 }).writeChannel dir
      fun r => { r with ctrl1 := chCtrl1Init }).writeChannel dir
      fun r => { r with qAddrUp := 0 }).writeChannel dir
      fun r => { r with qAddrDn := 0 }
    have hbuf := eval_setBufSwitch init dir shown' 0 0
    have hqueues : (if dir.UsesBuf then xpcieFpgaSetBuf init dir 0 0 else init).queues =
        dev.queues := by
      have hinit : init.queues = dev.queues := hregs.queues
      split
      · have hset : RegsOnly dir.side selfChid init (xpcieFpgaSetBuf init dir 0 0) :=
          regsOnly_setBuf 0 0
        exact hset.queues.trans hinit
      · exact hinit
    refine Prod.ext (congrArg (Prod.mk _) ?_) ((congrArg Prod.snd hbuf).trans ?_)
    · exact congrFun (congrFun (putQueueInfo_queues hqueues).symm dir.side) selfChid
    · exact congrArg (LldmaRegs.onSide · dir.side shown') (putQueueInfo_regs _ selfChid dir).symm

/-- **By itself** an operation does what its function does. -/
theorem LldmaOp.eval_prog (op : LldmaOp) : ∃ shown', (op.prog dev).eval (bankExec storingHw)
    (dev.regs.onSide op.dir.side shown) =
      let r := op.exec dev (shown op.chid)
      ((r.1, r.2.queues op.dir.side op.chid), r.2.regs.onSide op.dir.side shown') := by
  cases op with
  | startQueue chid dir =>
    obtain ⟨shown', h⟩ := eval_startQueue dev dir chid shown
    refine ⟨shown', ?_⟩
    simp only [LldmaOp.prog, LldmaOp.dir, Prog.eval_bind, h]
    rfl
  | stopQueue chid dir =>
    obtain ⟨shown', h⟩ := eval_stopQueue dev dir chid shown
    refine ⟨shown', ?_⟩
    simp only [LldmaOp.prog, LldmaOp.dir, Prog.eval_bind, h]
    rfl
  | devConnect selfChid peerChid dir peerAddr bufSize bufAddr connectorId =>
    exact ⟨shown, eval_devConnect ..⟩
  | devDisconnect selfChid dir => exact eval_devDisconnect selfChid

/-! ### Two operations that overlap -/

/-- `xpcie_fpga_dev_connect` selects the channel before it sets the buffer: one of the functions it
calls does, unless both return early. -/
def LldmaOp.SelectsFirst (dev : FpgaDevInfo) : LldmaOp → Prop
  | .devConnect selfChid peerChid dir peerAddr .. =>
    dir.UsesBuf → (dev.queues dir.side selfChid).status = .free →
      selfChid < dev.availableDmaChannelNum ∧ ((peerChid.setWidth 8 : BitVec 8) ≠ 255 ∨ peerAddr ≠ 0)
  | _ => True

/-- Two operations on different channels of a side. -/
structure Overlap where
  /-- The side. -/
  side : DmaSide
  /-- The operations. -/
  op : Bool → LldmaOp
  /-- Both are on the side. -/
  side_op : ∀ i, (op i).dir.side = side
  /-- The channels are different. -/
  chid_ne : (op false).chid ≠ (op true).chid

namespace Overlap

/-- The channels. -/
def chan (o : Overlap) (i : Bool) : ℕ := (o.op i).chid.val

theorem chan_injective (o : Overlap) : Function.Injective o.chan := by
  have hne : o.chan false ≠ o.chan true := fun h => o.chid_ne (Fin.ext h)
  intro i j h
  cases i <;> cases j
  · rfl
  · exact absurd h hne
  · exact absurd h.symm hne
  · rfl

/-- Both operations about to start. -/
def start {σ : Type} (o : Overlap) (dev : FpgaDevInfo) (regs : Banked ℕ σ) :
    BankPair ℕ ChannelReg (BitVec 32) σ (Except Errno Unit × FpgaQueueEnqdeq) :=
  ⟨regs, fun i => (o.op i).prog dev⟩

end Overlap

/-! #### The commands of an operation -/

theorem selects_writeChSel : (writeChSel chid).All (·.Selects chid.val) := ⟨rfl, fun _ => trivial⟩

theorem selects_lldmaRegWrite (r : ChannelReg) (value : BitVec 32) :
    (lldmaRegWrite r value).All (·.Selects chid.val) := ⟨trivial, fun _ => trivial⟩

theorem selects_lldmaRegRead (r : ChannelReg) :
    (lldmaRegRead r).All (·.Selects chid.val) := ⟨trivial, fun _ => trivial⟩

theorem selects_queueSetAddr (addr : BitVec 64) :
    (queueSetAddrProg dev chid dir addr).All (·.Selects chid.val) := by
  unfold queueSetAddrProg
  split
  · trivial
  · split
    · trivial
    · exact selects_writeChSel.bind fun _ => (selects_lldmaRegWrite ..).bind fun _ =>
        selects_lldmaRegWrite ..

theorem selects_queueSetCtrl (cid : BitVec 8) :
    (queueSetCtrlProg dev chid dir cid).All (·.Selects chid.val) := by
  unfold queueSetCtrlProg
  split
  · trivial
  · split
    · trivial
    · exact selects_writeChSel.bind fun _ => (selects_lldmaRegWrite ..).bind fun _ =>
        selects_lldmaRegWrite ..

theorem selects_setBufSwitch (bufSize : BitVec 32) (bufAddr : BitVec 64) :
    (setBufSwitchProg dir bufSize bufAddr).All (·.Selects chid.val) := by
  unfold setBufSwitchProg
  split
  · exact (selects_lldmaRegWrite ..).bind fun _ => (selects_lldmaRegWrite ..).bind fun _ =>
      selects_lldmaRegWrite ..
  · trivial

theorem selects_drainLoop (cnt n : ℕ) : (drainLoopProg cnt n).All (·.Selects chid.val) := by
  induction n generalizing cnt with
  | zero => trivial
  | succ n ih =>
    apply (selects_lldmaRegRead ..).bind
    intro monitorVal
    split
    · trivial
    · exact ih (cnt + 1)

theorem selects_stopQueue : (stopQueueProg chid).All (·.Selects chid.val) :=
  selects_writeChSel.bind fun _ => (selects_lldmaRegWrite ..).bind fun _ =>
    (selects_drainLoop ..).bind fun _ => (selects_lldmaRegWrite ..).bind fun _ => trivial

theorem selects_startQueue : (startQueueProg dev chid dir).All (·.Selects chid.val) := by
  unfold startQueueProg
  split
  · trivial
  · split
    · trivial
    · exact (selects_queueSetAddr 0).bind fun _ => (selects_queueSetCtrl 255).bind fun _ =>
        selects_writeChSel.bind fun _ => (selects_lldmaRegRead _).bind fun _ =>
          (selects_lldmaRegWrite ..).bind fun _ => trivial

theorem selects_devConnect (peerChid : BitVec 32) (peerAddr : BitVec 64) (bufSize : BitVec 32)
    (bufAddr : BitVec 64) (connectorId : ConnectorId) :
    (devConnectProg dev chid peerChid dir peerAddr bufSize bufAddr connectorId).All
      (·.Selects chid.val) := by
  unfold devConnectProg
  split
  · trivial
  · dsimp only
    split
    · trivial
    · exact (selects_queueSetCtrl _).bind fun _ => (selects_queueSetAddr _).bind fun _ =>
        (selects_setBufSwitch ..).bind fun _ => selects_writeChSel.bind fun _ =>
          (selects_lldmaRegWrite ..).bind fun _ => trivial

theorem selects_devDisconnect :
    (devDisconnectProg dev chid dir).All (·.Selects chid.val) := by
  apply selects_writeChSel.bind
  intro _
  apply selects_stopQueue.bind
  intro ret
  cases ret with
  | error e => trivial
  | ok _ =>
    exact (selects_lldmaRegWrite ..).bind fun _ => (selects_lldmaRegWrite ..).bind fun _ =>
      (selects_lldmaRegWrite ..).bind fun _ => (selects_lldmaRegWrite ..).bind fun _ =>
        (selects_setBufSwitch ..).bind fun _ => trivial

/-- An operation selects its own channel only. -/
theorem LldmaOp.selects_prog (op : LldmaOp) : (op.prog dev).All (·.Selects op.chid.val) := by
  cases op with
  | startQueue chid dir => exact selects_startQueue.bind fun _ => trivial
  | stopQueue chid dir => exact selects_stopQueue.bind fun _ => trivial
  | devConnect selfChid peerChid dir peerAddr bufSize bufAddr connectorId =>
    exact selects_devConnect ..
  | devDisconnect selfChid dir => exact selects_devDisconnect

/-! #### The first command -/

theorem queueSetAddr_start (addr : BitVec 64) :
    ¬ (queueSetAddrProg dev chid dir addr).InSection ∧
      (queueSetAddrProg dev chid dir addr = .done () ↔
        dev.availableDmaChannelNum ≤ chid ∨ queueAddr dev chid addr dir = none) := by
  unfold queueSetAddrProg
  split_ifs with hle
  · exact ⟨not_inSection_done, iff_of_true rfl (.inl hle)⟩
  · cases queueAddr dev chid addr dir with
    | none => exact ⟨not_inSection_done, iff_of_true rfl (.inr rfl)⟩
    | some physAddr =>
      refine ⟨inSection_cmd.not.mpr id, iff_of_false (fun h => by cases h) ?_⟩
      simp [hle]

theorem queueSetCtrl_start (cid : BitVec 8) :
    ¬ (queueSetCtrlProg dev chid dir cid).InSection ∧
      (queueSetCtrlProg dev chid dir cid = .done () ↔
        dev.availableDmaChannelNum ≤ chid ∨ queueCtrl dev chid cid dir = none) := by
  unfold queueSetCtrlProg
  split_ifs with hle
  · exact ⟨not_inSection_done, iff_of_true rfl (.inl hle)⟩
  · cases queueCtrl dev chid cid dir with
    | none => exact ⟨not_inSection_done, iff_of_true rfl (.inr rfl)⟩
    | some ctrl =>
      refine ⟨inSection_cmd.not.mpr id, iff_of_false (fun h => by cases h) ?_⟩
      simp [hle]

theorem setBufSwitch_start (bufSize : BitVec 32) (bufAddr : BitVec 64) (f : Unit → LldmaProg α) :
    (setBufSwitchProg dir bufSize bufAddr >>= fun a => writeChSel chid >>= fun _ => f a).InSection ↔
      dir.UsesBuf := by
  unfold setBufSwitchProg
  split_ifs with hb
  · exact iff_of_true (inSection_cmd.mpr trivial) hb
  · exact iff_of_false (inSection_cmd.not.mpr id) hb

theorem startQueue_start : ¬ (startQueueProg dev chid dir).InSection := by
  unfold startQueueProg
  split
  · exact not_inSection_done
  · split
    · exact not_inSection_done
    · rw [inSection_bind, inSection_bind]
      intro h
      obtain h | ⟨-, -, h | ⟨-, -, h⟩⟩ := h
      · exact (queueSetAddr_start 0).1 h
      · exact (queueSetCtrl_start 255).1 h
      · exact inSection_cmd.mp h

theorem DmaDir.UsesBuf.queueAddr_eq_none (h : dir.UsesBuf) {addr : BitVec 64} :
    queueAddr dev chid addr dir = none ↔ addr = 0 := by
  obtain rfl | rfl := h <;> simp [queueAddr]

theorem DmaDir.UsesBuf.queueCtrl_eq_none (h : dir.UsesBuf) {cid : BitVec 8} :
    queueCtrl dev chid cid dir = none ↔ cid = 255 := by
  obtain rfl | rfl := h <;> simp [queueCtrl]

theorem devConnect_start (selfChid : Chid) (peerChid : BitVec 32) (peerAddr : BitVec 64)
    (bufSize : BitVec 32) (bufAddr : BitVec 64) (connectorId : ConnectorId) :
    (devConnectProg dev selfChid peerChid dir peerAddr bufSize bufAddr connectorId).InSection ↔
      dir.UsesBuf ∧ (dev.queues dir.side selfChid).status = .free ∧
        (dev.availableDmaChannelNum ≤ selfChid ∨
          (peerChid.setWidth 8 : BitVec 8) = 255 ∧ peerAddr = 0) := by
  cases hside : dir.connectSide with
  | none =>
    refine iff_of_false ?_ fun h => ?_
    · simp only [devConnectProg, hside]
      exact not_inSection_done
    · obtain rfl | rfl := h.1 <;> cases hside
  | some side =>
    obtain rfl := DmaDir.side_of_connectSide hside
    by_cases hst : (dev.queues dir.side selfChid).status = .free
    · simp only [devConnectProg, hside, hst, ne_eq, not_true_eq_false, if_false, true_and]
      rw [inSection_bind, or_iff_right (queueSetCtrl_start _).1]
      simp only [inSection_bind (p := queueSetAddrProg ..), or_iff_right (queueSetAddr_start _).1,
        setBufSwitch_start]
      constructor
      · intro ⟨_, hc, _, ha, hb⟩
        have hc := (queueSetCtrl_start _).2.mp hc
        have ha := (queueSetAddr_start _).2.mp ha
        rw [hb.queueCtrl_eq_none] at hc
        rw [hb.queueAddr_eq_none] at ha
        refine ⟨hb, ?_⟩
        by_cases hle : dev.availableDmaChannelNum ≤ selfChid
        · exact .inl hle
        · exact .inr ⟨hc.resolve_left hle, ha.resolve_left hle⟩
      · intro ⟨hb, h⟩
        refine ⟨(), (queueSetCtrl_start _).2.mpr ?_, (), (queueSetAddr_start _).2.mpr ?_, hb⟩
        · rw [hb.queueCtrl_eq_none]
          exact h.imp_right And.left
        · rw [hb.queueAddr_eq_none]
          exact h.imp_right And.right
    · refine iff_of_false ?_ fun h => hst h.2.1
      simp only [devConnectProg, hside, hst, ne_eq, not_false_eq_true, if_true]
      exact not_inSection_done

/-- An operation starts with an access exactly if it is a connection that does not select first. -/
theorem LldmaOp.inSection_prog_iff (op : LldmaOp) :
    (op.prog dev).InSection ↔ ¬ op.SelectsFirst dev := by
  cases op with
  | startQueue chid dir =>
    refine iff_of_false ?_ (not_not.mpr trivial)
    rw [LldmaOp.prog, inSection_bind, or_iff_right startQueue_start]
    intro ⟨info, _, h⟩
    exact not_inSection_done h
  | stopQueue chid dir => exact iff_of_false (inSection_cmd.not.mpr id) (not_not.mpr trivial)
  | devConnect selfChid peerChid dir peerAddr bufSize bufAddr connectorId =>
    rw [LldmaOp.prog, devConnect_start, LldmaOp.SelectsFirst]
    simp only [Classical.not_imp, not_and_or, not_lt, not_or, not_not]
  | devDisconnect selfChid dir => exact iff_of_false (inSection_cmd.not.mpr id) (not_not.mpr trivial)

/-! #### The operations together -/

/-- **Operations that overlap.** Two operations on different channels of a side, each of which
selects its channel first, run to the end in some order of their accesses: then each accessed its
own channel only, and the outcome is that of one after the other, exactly if neither selected its
channel while the other still had to access its own. -/
theorem overlap_iff {σ : Type} (hw : BankHw ChannelReg (BitVec 32) σ) (o : Overlap)
    (dev : FpgaDevInfo) (regs : Banked ℕ σ) (hfirst : ∀ i, (o.op i).SelectsFirst dev)
    {sched : List Bool} {t : BankPair ℕ ChannelReg (BitVec 32) σ _}
    (ht : run (Shared.step (bankExec hw)) (o.start dev regs) sched = some t) (hfin : t.Finished) :
    (Along (Shared.step (bankExec hw)) (OwnAccess hw o.chan) (o.start dev regs) sched ∧
        ∃ first, t = sequential hw (o.start dev regs) first) ↔
      Along (Shared.step (bankExec hw)) (fun s i => ¬ CutsIn s i) (o.start dev regs) sched := by
  have honly : ∀ i, ((o.start dev regs).progs i).All (·.Selects (o.chan i)) :=
    fun i => (o.op i).selects_prog
  have hstart : ∀ i, ¬ ((o.start dev regs).progs i).InSection :=
    fun i => (o.op i).inSection_prog_iff.not.mpr (not_not.mpr (hfirst i))
  exact ownAccess_and_sequential_iff o.chan_injective honly hstart ht hfin

/-- A device with two channels on each side. -/
def twoChannels : FpgaDevInfo := xpcieFpgaDevInit 0 (.reset 3 3) fun _ _ => 0

/-- Channel 0 is stopped while channel 1 is started. -/
def stopAndStart : Overlap where
  side := .rx
  op i := if i then .startQueue 1 .hostToDev else .stopQueue 0 .hostToDev
  side_op i := by cases i <;> rfl
  chid_ne := by decide

/-- All registers zero, nothing to drain. -/
def quietRegs : Banked ℕ (ChannelRegs × (ℕ → BitVec 32)) := ⟨0, fun _ => (.zero, fun _ => 0)⟩

theorem overlap_iff_stop_start :
    ∃ t, run (Shared.step (bankExec storingHw)) (stopAndStart.start twoChannels quietRegs)
        (List.replicate 4 false ++ List.replicate 9 true) = some t ∧
      Along (Shared.step (bankExec storingHw)) (OwnAccess storingHw stopAndStart.chan)
        (stopAndStart.start twoChannels quietRegs)
        (List.replicate 4 false ++ List.replicate 9 true) ∧
      ∃ first, t = sequential storingHw (stopAndStart.start twoChannels quietRegs) first := by
  refine ⟨_, rfl, (overlap_iff storingHw stopAndStart twoChannels quietRegs ?_ rfl ?_).mpr ?_⟩
  · intro i
    cases i <;> trivial
  · intro i
    cases i <;> exact ⟨_, rfl⟩
  · decide

/-- The stop clears the channel that the start selected while the stop was waiting. -/
theorem not_overlap_own :
    ¬ ∀ (o : Overlap) (dev : FpgaDevInfo) (regs : Banked ℕ (ChannelRegs × (ℕ → BitVec 32)))
      (sched : List Bool) (t : BankPair ℕ ChannelReg (BitVec 32) _ _),
      run (Shared.step (bankExec storingHw)) (o.start dev regs) sched = some t → t.Finished →
        Along (Shared.step (bankExec storingHw)) (OwnAccess storingHw o.chan) (o.start dev regs)
            sched ∧
          ∃ first, t = sequential storingHw (o.start dev regs) first := by
  intro h
  obtain ⟨-, first, hfirst⟩ := h stopAndStart twoChannels quietRegs
    (List.replicate 3 false ++ List.replicate 9 true ++ [false]) _ rfl
    (fun i => by cases i <;> exact ⟨_, rfl⟩)
  have hclear := congrArg (fun t => (t.state.bank 1).1.ctrl0) hfirst
  revert hclear
  cases first <;> decide

end HardwareDrivers.Driver
