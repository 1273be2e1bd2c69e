import HardwareDrivers.Driver.LldmaIoctl
import Mathlib.Data.Finset.Card
import Mathlib.Data.Finset.Range
import Mathlib.Data.Nat.Count

/-!
# Channel numbers

The hardware says which channels are implemented by a mask for each side, and the
library tests the bit of a channel before it asks for it. The driver counts the bits
of both masks together and takes the numbers below the count for channels.

## What is proved

* `forall_implemented_lt_iff` — the two agree exactly if the channels of both sides
  together are numbered from 0 without a gap.
* `xpcieFpgaGetQueue_programmed`, `xpcieFpgaGetQueue_regs_of_le` — a channel below the
  count gets the address and the size of its queue and is enabled; for any other no
  register is written.
* `allocQueue_agrees_iff` — an `ALLOC_QUEUE` that succeeds has set up the channel, and
  `BIND_QUEUE` finds its number, exactly if the number is below the count and the scan
  does not come to another number under the name before it.
-/

namespace HardwareDrivers.Driver

open Theory

/-! ### Masks and counts -/

/-- `xpcie_fpga_get_avail_status`. -/
def xpcieFpgaGetAvailStatus (dev : FpgaDevInfo) (dir : DmaDir) : BitVec 32 :=
  dev.regs.chAvail dir.side

/-- `__fpga_lldma_check_queue`: the channel is implemented. -/
def FpgaDevInfo.Implemented (dev : FpgaDevInfo) (dir : DmaDir) (chid : Chid) : Prop :=
  xpcieFpgaGetAvailStatus dev dir &&& (1#32 <<< chid.val) ≠ 0

instance (dev : FpgaDevInfo) (dir : DmaDir) (chid : Chid) : Decidable (dev.Implemented dir chid) :=
  inferInstanceAs (Decidable (_ ≠ _))

/-- The numbers of the channels that either mask has. -/
def LldmaRegs.channels (regs : LldmaRegs) : Finset ℕ :=
  {i ∈ Finset.range xpcieMaxQueuePair | (regs.chAvail .rx ||| regs.chAvail .tx).getLsbD i}

variable {dev dev' : FpgaDevInfo} {side : DmaSide} {chid : Chid} {id : ConnectorId}

theorem implemented_iff (dir : DmaDir) :
    dev.Implemented dir chid ↔ (dev.regs.chAvail dir.side).getLsbD chid := by
  rw [FpgaDevInfo.Implemented, xpcieFpgaGetAvailStatus, ← BitVec.twoPow_eq, BitVec.and_twoPow]
  have hne : BitVec.twoPow 32 chid ≠ 0#32 := by
    intro h
    have hn := congrArg BitVec.toNat h
    rw [BitVec.toNat_twoPow_of_lt chid.isLt] at hn
    exact absurd hn (Nat.two_pow_pos _).ne'
  split_ifs with hbit
  · exact iff_of_true hne hbit
  · exact iff_of_false (fun h => h rfl) hbit

theorem sum_bits_eq_countP (regval : BitVec 32) (l : List ℕ) :
    (l.map fun i => ((regval >>> i) &&& 1).toNat).sum = l.countP fun i => regval.getLsbD i := by
  induction l with
  | nil => rfl
  | cons i l ih =>
    have hbit : ((regval >>> i) &&& 1).toNat = if regval.getLsbD i then 1 else 0 := by
      rw [BitVec.toNat_and, BitVec.toNat_ushiftRight, BitVec.getLsbD,
        Nat.testBit_eq_decide_div_mod_eq, Nat.shiftRight_eq_div_pow]
      rw [show (1 : BitVec 32).toNat = 1 from rfl, Nat.and_one_is_mod]
      split_ifs with h
      · exact of_decide_eq_true h
      · have := of_decide_eq_false (Bool.not_eq_true _ ▸ h)
        omega
    rw [List.map_cons, List.sum_cons, List.countP_cons, ih, hbit, Nat.add_comm]

/-- The driver counts the channels of both masks. -/
theorem countAvailable_eq_card (regs : LldmaRegs) : countAvailable regs = regs.channels.card := by
  rw [LldmaRegs.channels, ← Nat.count_eq_card_filter_range, Nat.count]
  simp only [Bool.decide_eq_true]
  exact sum_bits_eq_countP ..

/-- Numbers are below their count exactly if there is no gap. -/
theorem forall_lt_card_iff {s : Finset ℕ} : (∀ i ∈ s, i < s.card) ↔ s = Finset.range s.card := by
  constructor
  · intro h
    apply Finset.eq_of_subset_of_card_le
    · exact fun i hi => Finset.mem_range.mpr (h i hi)
    · rw [Finset.card_range]
  · intro h i hi
    rw [h] at hi
    exact Finset.mem_range.mp hi

/-- **The masks agree with the count** exactly if the channels are numbered without a gap. -/
theorem forall_implemented_lt_iff (dev : FpgaDevInfo) :
    (∀ (side : DmaSide) (chid : Chid), dev.Implemented side.hostDir chid → chid < countAvailable dev.regs) ↔
      dev.regs.channels = Finset.range (countAvailable dev.regs) := by
  rw [countAvailable_eq_card, ← forall_lt_card_iff]
  constructor
  · intro h i hi
    obtain ⟨hlt, hbit⟩ := Finset.mem_filter.mp hi
    rw [BitVec.getLsbD_or, Bool.or_eq_true] at hbit
    have hlt := Finset.mem_range.mp hlt
    rcases hbit with hbit | hbit
    · exact h .rx ⟨i, hlt⟩ ((implemented_iff _).mpr hbit)
    · exact h .tx ⟨i, hlt⟩ ((implemented_iff _).mpr hbit)
  · intro h side chid himp
    have hbit := (implemented_iff _).mp himp
    rw [DmaSide.side_hostDir] at hbit
    apply h
    apply Finset.mem_filter.mpr
    refine ⟨Finset.mem_range.mpr chid.isLt, ?_⟩
    rw [BitVec.getLsbD_or, Bool.or_eq_true]
    cases side with
    | rx => exact .inl hbit
    | tx => exact .inr hbit

/-! ### Setting up a channel -/

/-- A write reaches the channel that is selected. -/
theorem bank_writeSelected (dir : DmaDir) (h : dev.regs.chSel dir.side = chid) (f : ChannelRegs → ChannelRegs) :
    (dev.writeChannel dir f).regs.bank dir.side chid = f (dev.regs.bank dir.side chid) :=
  if_pos ⟨rfl, h.symm⟩

theorem queueSetAddr_bank (dir : DmaDir) {addr physAddr : BitVec 64}
    (hlt : chid < dev.availableDmaChannelNum)
    (haddr : queueAddr dev chid addr dir = some physAddr) :
    (queueSetAddr dev chid dir addr).regs.bank dir.side chid =
      { dev.regs.bank dir.side chid with
        qAddrUp := (physAddr >>> 32).setWidth 32
        qAddrDn := physAddr.setWidth 32 } := by
  have hsel : (dev.writeChSel dir chid).regs.chSel dir.side = chid := LldmaRegs.chSel_writeChSel ..
  simp only [queueSetAddr, if_neg (Nat.not_le.mpr hlt), haddr]
  rw [bank_writeSelected, bank_writeSelected]
  · rfl
  · exact hsel
  · exact hsel

theorem queueSetCtrl_bank (dir : DmaDir) {cid : BitVec 8} {qCtrl chCtrl1 : BitVec 32}
    (hlt : chid < dev.availableDmaChannelNum)
    (hctrl : queueCtrl dev chid cid dir = some (qCtrl, chCtrl1)) :
    (queueSetCtrl dev chid dir cid).regs.bank dir.side chid =
      { dev.regs.bank dir.side chid with qCtrl, ctrl1 := chCtrl1 } := by
  have hsel : (dev.writeChSel dir chid).regs.chSel dir.side = chid := LldmaRegs.chSel_writeChSel ..
  simp only [queueSetCtrl, if_neg (Nat.not_le.mpr hlt), hctrl]
  rw [bank_writeSelected, bank_writeSelected]
  · rfl
  · exact hsel
  · exact hsel

/-- Below the count the registers of the channel get the queue. -/
theorem xpcieFpgaStartQueue_bank (side : DmaSide) (data : BitVec 32)
    (hlt : chid < dev.availableDmaChannelNum) :
    (xpcieFpgaStartQueue dev chid side.hostDir data).regs.bank side chid =
      { dev.regs.bank side chid with
        ctrl0 := enableIe ||| enableOe
        ctrl1 := chCtrl1Host
        qCtrl := BitVec.ofNat 32 (dev.queues side chid).que.size <<< 8
        qAddrUp := ((dev.queues side chid).ringPhys >>> 32).setWidth 32
        qAddrDn := (dev.queues side chid).ringPhys.setWidth 32 } := by
  let addr := queueSetAddr dev chid side.hostDir 0
  let ctrl := queueSetCtrl addr chid side.hostDir 255
  have hregs : RegsOnly side chid dev addr := regsOnly_queueSetAddr chid 0
  have haddr : addr.regs.bank side chid = { dev.regs.bank side chid with
      qAddrUp := ((dev.queues side chid).ringPhys >>> 32).setWidth 32
      qAddrDn := (dev.queues side chid).ringPhys.setWidth 32 } := by
    cases side with
    | rx => exact queueSetAddr_bank .hostToDev hlt rfl
    | tx => exact queueSetAddr_bank .devToHost hlt rfl
  have hctrl : ctrl.regs.bank side chid = { addr.regs.bank side chid with
      qCtrl := BitVec.ofNat 32 (dev.queues side chid).que.size <<< 8
      ctrl1 := chCtrl1Host } := by
    rw [← hregs.queues]
    have hlt : chid < addr.availableDmaChannelNum := hregs.count ▸ hlt
    cases side with
    | rx => exact queueSetCtrl_bank .hostToDev hlt rfl
    | tx => exact queueSetCtrl_bank .devToHost hlt rfl
  unfold xpcieFpgaStartQueue
  simp only [if_neg (Nat.not_le.mpr hlt), DmaSide.queueSide_hostDir]
  have hend : ∀ info, ((((ctrl.writeChSel side.hostDir chid).setQueue side chid info).writeChannel
      side.hostDir fun r => { r with ctrl0 := side.hostDir.enable }).regs.bank side chid) =
        { ctrl.regs.bank side chid with ctrl0 := side.hostDir.enable } := by
    intro info
    cases side with
    | rx => exact bank_writeSelected .hostToDev (LldmaRegs.chSel_writeChSel ..) _
    | tx => exact bank_writeSelected .devToHost (LldmaRegs.chSel_writeChSel ..) _
  refine (hend _).trans ?_
  rw [hctrl, haddr]
  cases side <;> rfl

/-- The registers of the channel run its command queue. -/
structure FpgaDevInfo.Programmed (dev : FpgaDevInfo) (side : DmaSide) (chid : Chid) : Prop where
  /-- The physical address of the ring. -/
  addr : (dev.regs.bank side chid).qAddrUp ++ (dev.regs.bank side chid).qAddrDn =
    (dev.queues side chid).ringPhys
  /-- The number of descriptors. -/
  size : (dev.regs.bank side chid).qCtrl = BitVec.ofNat 32 (dev.queues side chid).que.size <<< 8
  /-- The enable bits. -/
  enable : (dev.regs.bank side chid).ctrl0 = enableIe ||| enableOe

theorem halves_append (addr : BitVec 64) :
    ((addr >>> 32).setWidth 32 ++ addr.setWidth 32 : BitVec 64) = addr := by
  ext i hi
  rw [BitVec.getElem_append]
  split_ifs with h
  · rw [BitVec.getElem_setWidth, BitVec.getLsbD_eq_getElem]
  · rw [BitVec.getElem_setWidth, BitVec.getLsbD_ushiftRight, Nat.add_sub_cancel' (Nat.not_lt.mp h),
      BitVec.getLsbD_eq_getElem]

/-- **A queue that is got below the count** has its registers set up, and is empty from the head the
hardware is at. -/
theorem xpcieFpgaGetQueue_programmed {q q' : FpgaIoctlQueue} {data : BitVec 32}
    (hdir : q.dir = side.hostDir) (hlt : q.chid < dev.availableDmaChannelNum)
    (h : xpcieFpgaGetQueue dev q data = (.ok q', dev')) :
    dev'.Programmed side q.chid ∧ (dev'.queues side q.chid).que =
      .init (dev.queues side q.chid).que.size ((data &&& 0xFF000000) >>> 24).toNat := by
  have hside : q.dir.queueSide = some side := by rw [hdir, DmaSide.queueSide_hostDir]
  simp only [xpcieFpgaGetQueue, hside] at h
  split_ifs at h with hst
  · cases h
  · rw [hdir] at h
    obtain ⟨-, rfl⟩ := Prod.mk.inj h
    let mid := dev.setQueue side q.chid { dev.queues side q.chid with
      status := .used
      que := { (dev.queues side q.chid).que with ring := fun _ => .zero } }
    have hmid : q.chid < mid.availableDmaChannelNum := hlt
    have hbank := xpcieFpgaStartQueue_bank side data hmid
    have hqueues := xpcieFpgaStartQueue_queues mid q.chid (DmaSide.queueSide_hostDir side) data
    rw [if_neg (Nat.not_le.mpr hmid)] at hqueues
    rw [show mid.queues side q.chid = _ from queues_setQueue_self _] at hbank hqueues
    refine ⟨⟨?_, ?_, ?_⟩, ?_⟩
    · rw [queues_setQueue_self, hqueues]
      exact (congrArg (fun r => r.qAddrUp ++ r.qAddrDn) hbank).trans (halves_append _)
    · rw [queues_setQueue_self, hqueues]
      exact congrArg ChannelRegs.qCtrl hbank
    · exact congrArg ChannelRegs.ctrl0 hbank
    · rw [queues_setQueue_self, hqueues]
      rfl

/-- From the count on a queue is got as well, and no register is written. -/
theorem xpcieFpgaGetQueue_regs_of_le {q : FpgaIoctlQueue} (hdir : q.dir = side.hostDir)
    (hle : dev.availableDmaChannelNum ≤ q.chid) (hfree : (dev.queues side q.chid).status = .free)
    (data : BitVec 32) : ∃ q' dev', xpcieFpgaGetQueue dev q data = (.ok q', dev') ∧
      dev'.regs = dev.regs := by
  have hside : q.dir.queueSide = some side := by rw [hdir, DmaSide.queueSide_hostDir]
  have hstart : ∀ info, xpcieFpgaStartQueue (dev.setQueue side q.chid info) q.chid q.dir data =
      dev.setQueue side q.chid info := fun _ => if_pos hle
  simp only [xpcieFpgaGetQueue, hside, hfree, ne_eq, not_true_eq_false, if_false, hstart]
  exact ⟨_, _, rfl, rfl⟩

/-! ### Finding a channel again -/

/-- `BIND_QUEUE` with the name returns the number. -/
def FpgaDevInfo.BindsTo (dev : FpgaDevInfo) (id : ConnectorId) (chid : Chid) : Prop :=
  ∀ priv env q, env.copyFromUser = true → env.copyToUser = true → q.connectorId = id →
    ∃ q', (xpcieFpgaIoctlLldma dev priv env (.bindQueue q)).1 = .ok (some q') ∧ q'.chid = chid

/-- Before the channel the scan comes to no other number under the name, unless it comes to this
number on the other side even before. -/
def FpgaDevInfo.NameClear (dev : FpgaDevInfo) (id : ConnectorId) (side : DmaSide) (chid : Chid) :
    Prop :=
  ∀ s c, ScanBefore s c side chid → dev.Carries id s c →
    c = chid ∨ ∃ s', ScanBefore s' chid s c ∧ dev.Carries id s' chid

theorem bindsTo_iff : dev.BindsTo id chid ↔ ∃ side, dev.First id side chid := by
  constructor
  · intro h
    obtain ⟨q', hq, rfl⟩ := h none .quiet ⟨.hostToDev, 0, 0, id⟩ rfl rfl rfl
    rw [ioctl_bindQueue_eq_ok _ _ _ rfl rfl, xpcieFpgaRefQueue_eq_ok] at hq
    obtain ⟨side, chid, hfirst, rfl⟩ := hq
    exact ⟨side, hfirst⟩
  · intro ⟨side, hfirst⟩ priv env q hfrom hto hid
    refine ⟨_, (ioctl_bindQueue_eq_ok _ _ _ hfrom hto).mpr
      (xpcieFpgaRefQueue_eq_ok.mpr ⟨side, chid, hid ▸ hfirst, rfl⟩), rfl⟩

theorem ScanBefore.trans {s s' s'' : DmaSide} {c c' c'' : Chid} (h : ScanBefore s c s' c')
    (h' : ScanBefore s' c' s'' c'') : ScanBefore s c s'' c'' := by
  rcases h with ⟨rfl, rfl⟩ | ⟨rfl, hlt⟩
  · rcases h' with ⟨h', -⟩ | ⟨rfl, -⟩
    · cases h'
    · exact .inl ⟨rfl, rfl⟩
  · rcases h' with ⟨rfl, rfl⟩ | ⟨rfl, hlt'⟩
    · exact .inl ⟨rfl, rfl⟩
    · exact .inr ⟨rfl, hlt.trans hlt'⟩

/-- A channel just taken is found by its number exactly if the scan gets to it and is clear before
it. -/
theorem Takes.bindsTo_iff (h : Takes side chid id dev dev') :
    dev'.BindsTo id chid ↔ chid < dev.availableDmaChannelNum ∧ dev.NameClear id side chid := by
  have hother : ∀ {s c}, ScanBefore s c side chid → (dev'.Carries id s c ↔ dev.Carries id s c) := by
    intro s c hb
    rw [FpgaDevInfo.Carries, FpgaDevInfo.Carries, h.leaves.count, h.leaves.queues]
    rintro ⟨rfl, rfl⟩
    exact hb.asymm hb
  rw [Driver.bindsTo_iff]
  constructor
  · intro ⟨s', hcarries, hfirst⟩
    refine ⟨h.leaves.count ▸ hcarries.1, fun s c hb hc => ?_⟩
    rcases scanBefore_trichotomy s s' c chid with hb' | ⟨-, rfl⟩ | hb'
    · exact absurd ((hother hb).mpr hc) (hfirst s c hb')
    · exact .inl rfl
    · exact .inr ⟨s', hb', (hother (hb'.trans hb)).mp hcarries⟩
  · intro ⟨hlt, hclear⟩
    have hcarries : dev'.Carries id side chid := ⟨h.leaves.count ▸ hlt, h.name⟩
    rcases xpcieFpgaRefQueue_cases dev' ⟨.hostToDev, 0, 0, id⟩ with
      ⟨s, c, hfirst, -⟩ | ⟨-, hnone⟩
    · -- the scan stops at the channel or before
      rcases scanBefore_trichotomy s side c chid with hb | ⟨rfl, rfl⟩ | hb
      · rcases hclear s c hb ((hother hb).mp hfirst.1) with rfl | ⟨s', hb', hc'⟩
        · exact ⟨s, hfirst⟩
        · exact absurd ((hother (hb'.trans hb)).mpr hc') (hfirst.2 s' chid hb')
      · exact ⟨s, hfirst⟩
      · exact absurd hcarries (hfirst.2 side chid hb)
    · exact absurd hcarries (hnone side chid)

/-! ### Runs -/

theorem ioctl_allocQueue_ok {priv priv' : XpcieFilePrivate} {env : CallEnv} {q q' : FpgaIoctlQueue}
    (h : xpcieFpgaIoctlLldma dev priv env (.allocQueue q) = (.ok (some q'), dev', priv')) :
    xpcieFpgaGetQueue dev q env.data = (.ok q', dev') := by
  cases hfrom : env.copyFromUser with
  | false => simp [xpcieFpgaIoctlLldma, hfrom] at h
  | true =>
    rcases hget : xpcieFpgaGetQueue dev q env.data with ⟨e | q'', dev''⟩
    · simp [xpcieFpgaIoctlLldma, hfrom, hget] at h
    · cases hto : env.copyToUser with
      | false => simp [xpcieFpgaIoctlLldma, hfrom, hget, hto] at h
      | true =>
        simp only [xpcieFpgaIoctlLldma, hfrom, hget, hto, Bool.true_eq_false, if_false] at h
        cases h
        rfl

/-- The count is that of the masks in every state. -/
theorem run_count {devId : ℕ} {regs : LldmaRegs} {ringPhys : DmaSide → Chid → BitVec 64}
    {ops : List FileOp} {s : LldmaSystem} (hs : run fileStep (.init devId regs ringPhys) ops = some s) :
    s.dev.availableDmaChannelNum = countAvailable regs ∧ s.dev.regs.chAvail = regs.chAvail := by
  have hinv : s.Known ∧ s.dev.availableDmaChannelNum = countAvailable regs ∧
      s.dev.regs.chAvail = regs.chAvail := by
    refine run_invariant (I := fun s => s.Known ∧ s.dev.availableDmaChannelNum = countAvailable regs ∧
      s.dev.regs.chAvail = regs.chAvail) ?_ ⟨nofun, rfl, rfl⟩ hs
    intro s op t ⟨hk, hcount, havail⟩ ht
    obtain ⟨-, hcount', havail', hk'⟩ := fileStep_effect hk ht
    exact ⟨hk', hcount'.trans hcount, havail'.trans havail⟩
  exact hinv.2

/-- **`ALLOC_QUEUE` sets up the channel it was asked for**, and `BIND_QUEUE` finds its number,
exactly if the number is below the count of the channels and no other number is found under the
name before it. -/
theorem allocQueue_agrees_iff (devId : ℕ) (regs : LldmaRegs)
    (ringPhys : DmaSide → Chid → BitVec 64) (ops : List FileOp) (s : LldmaSystem)
    (hs : run fileStep (.init devId regs ringPhys) ops = some s) (side : DmaSide)
    (priv priv' : XpcieFilePrivate) (env : CallEnv) (q q' : FpgaIoctlQueue) (dev' : FpgaDevInfo)
    (hdir : q.dir = side.hostDir)
    (halloc : xpcieFpgaIoctlLldma s.dev priv env (.allocQueue q) = (.ok (some q'), dev', priv')) :
    (dev'.Programmed side q.chid ∧ dev'.BindsTo q.connectorId q.chid) ↔
      q.chid < countAvailable regs ∧ s.dev.NameClear q.connectorId side q.chid := by
  have hget := ioctl_allocQueue_ok halloc
  have htake : Takes side q.chid q.connectorId s.dev dev' := by
    rcases xpcieFpgaGetQueue_cases s.dev q env.data with
      ⟨-, hr⟩ | ⟨side', hside, ⟨-, hr⟩ | ⟨-, dev, hr, htake⟩⟩
    · rw [hr] at hget
      cases hget
    · rw [hr] at hget
      cases hget
    · rw [hdir, DmaSide.queueSide_hostDir] at hside
      cases hside
      rw [hr] at hget
      cases hget
      exact htake
  rw [htake.bindsTo_iff, (run_count hs).1]
  constructor
  · exact And.right
  · intro h
    exact ⟨(xpcieFpgaGetQueue_programmed hdir ((run_count hs).1 ▸ h.1) hget).1, h⟩

/-- A file takes a channel. -/
def gapCalls (chid : Chid) : List FileOp :=
  [.cdevOpen 0, .cdevIoctl 0 .quiet (.allocQueue ⟨.hostToDev, chid, 0, ⟨[97], by decide, by decide⟩⟩),
    .cdevOpen 1]

/-- The device has the channels `0`, `2` and `3`. Another file gets channel `2` under another name: it is
behind the gap, but below the count. -/
theorem allocQueue_agrees_gap :
    ∃ s, run fileStep (.init 0 (.reset 13 13) fun _ _ => 0) (gapCalls 0) = some s ∧
    let id : ConnectorId := ⟨[98], by decide, by decide⟩
    let dev := (xpcieFpgaIoctlLldma s.dev none .quiet (.allocQueue ⟨.hostToDev, 2, 0, id⟩)).2.1
    dev.Programmed .rx 2 ∧ dev.BindsTo id 2 := by
  refine ⟨_, rfl, ?_⟩
  intro id dev
  refine (allocQueue_agrees_iff 0 (.reset 13 13) (fun _ _ => 0) (gapCalls 0) _ rfl .rx none _ .quiet
    ⟨.hostToDev, 2, 0, id⟩ _ dev rfl rfl).mpr ⟨by decide, fun s c hb hcarries => ?_⟩
  rcases hb with ⟨-, hb⟩ | ⟨rfl, hb⟩
  · cases hb
  · refine absurd hcarries ?_
    clear hcarries
    revert c
    decide

/-- The only channel has number 2. -/
theorem not_allocQueue_agrees :
    ¬ ∀ (rx tx : BitVec 32) (ops : List FileOp) (s : LldmaSystem) (side : DmaSide)
      (priv priv' : XpcieFilePrivate) (env : CallEnv) (q q' : FpgaIoctlQueue) (dev' : FpgaDevInfo),
      run fileStep (.init 0 (.reset rx tx) fun _ _ => 0) ops = some s → q.dir = side.hostDir →
      s.dev.Implemented q.dir q.chid →
      xpcieFpgaIoctlLldma s.dev priv env (.allocQueue q) = (.ok (some q'), dev', priv') →
      dev'.Programmed side q.chid ∧ dev'.BindsTo q.connectorId q.chid := by
  intro h
  let id : ConnectorId := ⟨[97], by decide, by decide⟩
  have hbind := (h 4 4 [] _ .rx none _ .quiet ⟨.hostToDev, 2, 0, id⟩ _ _ rfl rfl (by decide) rfl).2
  obtain ⟨side, hfirst⟩ := bindsTo_iff.mp hbind
  exact absurd hfirst.1.1 (by decide)

end HardwareDrivers.Driver
