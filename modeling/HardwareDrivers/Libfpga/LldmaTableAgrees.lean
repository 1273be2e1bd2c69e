import HardwareDrivers.Libfpga.LldmaTable

/-!
# The table and the driver

When `fd_get_queue` agrees with what the driver records: each call of `liblldma.c` is
taken to every point where the kernel can fail it.

## What is proved

* `fpgaLldmaInit_cases`, `disconnectSide_of_some` — what the calls leave behind.
* `keepsTable_iff` — the condition under which a call leaves the table in agreement with the
  driver, undoes itself when it fails, and closes open descriptors only.
* `fdGetQueue_agrees_iff` — the same for runs from an empty table.
-/

namespace HardwareDrivers.Libfpga

open Theory Driver

variable {p p' : LldmaProcess} {slot : QueueSlot} {fd : ℕ} {file : OpenFile}

/-! ### The table after a call -/

theorem recorded_iff :
    p.Recorded ↔ ∀ slot fd, p.fdGetQueue slot = some fd → p.ownedSlot fd = some slot := by
  constructor
  · intro h slot fd hfd
    obtain ⟨fd', hfd', hown⟩ := (h slot).mp (by rw [hfd]; rfl)
    rw [hfd] at hfd'
    cases hfd'
    exact hown
  · intro h slot
    rw [Option.isSome_iff_exists]
    constructor
    · intro ⟨fd, hfd⟩
      exact ⟨fd, hfd, h slot fd hfd⟩
    · intro ⟨fd, hfd, _⟩
      exact ⟨fd, hfd⟩

/-- A new descriptor that owns the channel of its entry. -/
theorem LldmaProcess.Recorded.add (h : p.Recorded) (hfree : p.fds fd = none)
    (hslot : file.slot = some slot)
    (htable : p'.fdGetQueue = Function.update p.fdGetQueue slot (some fd))
    (hfds : p'.fds = Function.update p.fds fd (some file)) : p'.Recorded := by
  rw [recorded_iff] at h ⊢
  intro slot' fd' hfd'
  rw [htable] at hfd'
  rcases update_cases (· = some fd') hfd' with ⟨rfl, he⟩ | ⟨-, he⟩
  · cases he
    rw [ownedSlot_of_file (by rw [hfds, Function.update_self]), hslot]
  · have hown := h slot' fd' he
    have hne : fd' ≠ fd := by
      rintro rfl
      rw [ownedSlot_of_none hfree] at hown
      cases hown
    rw [LldmaProcess.ownedSlot, hfds, Function.update_of_ne hne]
    exact hown

/-- An entry and its descriptor go together. -/
theorem LldmaProcess.Recorded.remove (h : p.Recorded) (hfd : p.fdGetQueue slot = some fd)
    (htable : p'.fdGetQueue = Function.update p.fdGetQueue slot none)
    (hfds : p'.fds = Function.update p.fds fd none) : p'.Recorded := by
  rw [recorded_iff] at h ⊢
  intro slot' fd' hfd'
  rw [htable] at hfd'
  rcases update_cases (· = some fd') hfd' with ⟨-, he⟩ | ⟨hslot, he⟩
  · cases he
  · have hown := h slot' fd' he
    have hne : fd' ≠ fd := by
      rintro rfl
      rw [h slot fd' hfd] at hown
      exact hslot (Option.some.inj hown).symm
    rw [LldmaProcess.ownedSlot, hfds, Function.update_of_ne hne]
    exact hown

/-- An entry that is the number of no open descriptor. -/
theorem not_recorded_of_closed (hfd : p'.fdGetQueue slot = some fd) (hf : p'.fds fd = none) :
    ¬ p'.Recorded := by
  intro h
  have hown := recorded_iff.mp h slot fd hfd
  rw [ownedSlot_of_none hf] at hown
  cases hown

/-- An entry that is the number of a descriptor without a channel. -/
theorem not_recorded_of_unbound {devId : ℕ} (hfd : p'.fdGetQueue slot = some fd)
    (hf : p'.fds fd = some ⟨devId, none⟩) : ¬ p'.Recorded := by
  intro h
  have hown := recorded_iff.mp h slot fd hfd
  rw [ownedSlot_of_file hf] at hown
  cases hown

/-! ### `fpga_lldma_init` -/

theorem DirInRange.queueSide {dir : DmaDir} (h : DirInRange dir) :
    dir.queueSide = some dir.side := by
  rcases h with rfl | rfl | rfl | rfl <;> rfl

theorem DirInRange.tableDir {dir : DmaDir} (h : DirInRange dir) : tableDir dir = dir := by
  rcases h with rfl | rfl | rfl | rfl <;> rfl

/-- Nothing fails in `fpga_lldma_init`. -/
def InitPasses (p : LldmaProcess) (slot : QueueSlot) (env : InitEnv) : Prop :=
  CheckPasses p slot env.check ∧ ChannelFree p slot ∧ env.alloc.copyFromUser = true ∧
    env.alloc.copyToUser = true ∧ env.strdup = true

/-- Closing the file after the request has failed. -/
theorem close_of_checked (hfree : p.fds fd = none) (env : CallEnv) (cmd : LldmaCmd)
    (monitor : ℕ → BitVec 32) :
    ∃ p', ((p.checked slot fd).fpgautilIoctl fd env cmd).2.fpgautilClose fd monitor = p' ∧
      p'.fdGetQueue = Function.update p.fdGetQueue slot (some fd) ∧ p'.fds = p.fds := by
  obtain ⟨dev, h⟩ := fpgautilClose_of_ioctl (checked_fds slot fd) env cmd monitor
  refine ⟨_, h, rfl, ?_⟩
  rw [fds_setFile, LldmaProcess.checked, fds_setEntry, fds_opened, Function.update_idem, ← hfree,
    Function.update_eq_self]

/-- **`fpga_lldma_init`** past its checks. -/
theorem fpgaLldmaInit_cases (hpresent : p.present slot.1 = true) (hdir : DirInRange slot.2.1)
    (id : ConnectorId) (env : InitEnv) :
    (p.opens env.check.fd = none ∧
      fpgaLldmaInit p slot (some id) env = (.error .failureDeviceOpen, p.setEntry slot none)) ∨
    ∃ fd, p.opens env.check.fd = some fd ∧
      ((¬ InitPasses p slot env ∧ ∃ e p', fpgaLldmaInit p slot (some id) env = (.error e, p') ∧
          p'.fdGetQueue = Function.update p.fdGetQueue slot (some fd) ∧ p'.fds = p.fds) ∨
        (InitPasses p slot env ∧ ∃ p', fpgaLldmaInit p slot (some id) env = (.ok (), p') ∧
          p'.fdGetQueue = Function.update p.fdGetQueue slot (some fd) ∧
          p'.fds = Function.update p.fds fd
            (some ⟨slot.1, some ⟨slot.2.1, slot.2.2, true⟩⟩) ∧
          p'.badCloses = p.badCloses)) := by
  unfold fpgaLldmaInit
  rw [if_neg (by simp [hpresent, hdir])]
  rcases fpgaLldmaCheckQueue_cases p slot env.check with
    ⟨ho, hr⟩ | ⟨fd, ho, ⟨hno, e, hr⟩ | ⟨hpass, hr⟩⟩
  · exact .inl ⟨ho, by simp only [hr]⟩
  · exact .inr ⟨fd, ho, .inl ⟨fun h => hno h.1, e,
      p.setEntry slot (some fd), by simp only [hr], rfl, rfl⟩⟩
  · have hfree := (opens_eq_some.mp ho).2
    have hfile := checked_fds (p := p) slot fd
    refine .inr ⟨fd, ho, ?_⟩
    simp only [hr]
    rcases ioctl_allocQueue_cases (p.devs slot.1) none env.alloc ⟨slot.2.1, slot.2.2, 0, id⟩ with
      ⟨e, ha, hused⟩ | ⟨side, dev, hfrom, hside, hchan, ⟨hto, -, ha⟩ | ⟨hto, -, ha⟩⟩
    · obtain ⟨p', hp', htable, hfds⟩ := close_of_checked hfree env.alloc _ env.release
      rw [fpgautilIoctl_of_file hfile ha] at hp' ⊢
      refine .inl ⟨fun h => ?_, _, p', congrArg _ hp', htable, hfds⟩
      have := hused h.2.2.1 _ hdir.queueSide
      rw [h.2.1] at this
      cases this
    · obtain ⟨p', hp', htable, hfds⟩ := close_of_checked hfree env.alloc _ env.release
      rw [fpgautilIoctl_of_file hfile ha] at hp' ⊢
      obtain rfl := DmaDir.side_of_queueSide hside
      by_cases hdup : env.strdup = false
      · refine .inl ⟨fun h => absurd h.2.2.2.2 (ne_true_of_eq_false hdup), .failureMemoryAlloc, p', ?_,
          htable, hfds⟩
        exact (if_pos hdup).trans (congrArg _ hp')
      · refine .inr ⟨⟨hpass, hchan, hfrom, hto, Bool.not_eq_false _ ▸ hdup⟩, _, if_neg hdup, rfl, ?_, rfl⟩
        exact Function.update_idem ..
    · obtain ⟨p', hp', htable, hfds⟩ := close_of_checked hfree env.alloc _ env.release
      rw [fpgautilIoctl_of_file hfile ha] at hp' ⊢
      refine .inl ⟨fun h => ?_, _, p', congrArg _ hp', htable, hfds⟩
      rw [h.2.2.2.1] at hto
      cases hto

/-- A failure that changes nothing. -/
theorem keepsTable_self (h : p.Recorded) (e : LibfpgaErr) : KeepsTable p (.error e, p) :=
  ⟨h, fun _ => rfl, fun _ => rfl, fun _ _ _ _ _ => ⟨rfl, fun _ => rfl⟩, rfl⟩

theorem keepsTable_ok (h : p'.Recorded) (hcloses : p'.badCloses = p.badCloses) :
    KeepsTable p (.ok (), p') :=
  ⟨h, fun h => absurd rfl h, fun h => absurd rfl h, fun h => absurd rfl h, hcloses⟩

/-- An opening that fails at once leaves things as they are exactly if there was no entry. -/
theorem keepsTable_setEntry_none (h : p.Recorded) (e : LibfpgaErr) :
    KeepsTable p (.error e, p.setEntry slot none) ↔ p.fdGetQueue slot = none := by
  constructor
  · intro hk
    rw [← hk.table (by simp)]
    exact Function.update_self ..
  · intro hnone
    have heq : p.setEntry slot none = p := by
      unfold LldmaProcess.setEntry
      rw [← hnone, Function.update_eq_self]
    rw [heq]
    exact keepsTable_self h e

/-- **`fpga_lldma_init`** keeps the table exactly if it meets the condition. -/
theorem keepsTable_init_iff (h : p.Recorded) (connectorId : Option ConnectorId) (env : InitEnv) :
    KeepsTable p (fpgaLldmaInit p slot connectorId env) ↔
      LldmaCall.Meets p (.init slot connectorId env) := by
  by_cases hvalid : p.present slot.1 = true ∧ DirInRange slot.2.1 ∧ connectorId ≠ none
  · obtain ⟨hpresent, hdir, hid⟩ := hvalid
    obtain ⟨id, rfl⟩ := Option.ne_none_iff_exists'.mp hid
    have hmeets : LldmaCall.Meets p (.init slot (some id) env) ↔
        FailsAtOnce p slot env.check ∨ InitPasses p slot env :=
      ⟨fun hm => hm hpresent hdir hid, fun hm _ _ _ => hm⟩
    rw [hmeets]
    rcases fpgaLldmaInit_cases hpresent hdir id env with
      ⟨ho, hr⟩ | ⟨fd, ho, ⟨hno, e, p', hr, htable, hfds⟩ | ⟨hpass, p', hr, htable, hfds, hcl⟩⟩
    · rw [hr, keepsTable_setEntry_none h]
      constructor
      · exact fun hnone => .inl ⟨ho, hnone⟩
      · rintro (⟨-, hnone⟩ | hpass)
        · exact hnone
        · exact absurd hpass.1.opens (by simp [ho])
    · rw [hr]
      refine iff_of_false (fun hk => ?_) ?_
      · have hentry : p'.fdGetQueue slot = some fd := by rw [htable, Function.update_self]
        exact not_recorded_of_closed hentry (hfds ▸ (opens_eq_some.mp ho).2) hk.recorded
      · rintro (⟨hfail, -⟩ | hpass)
        · rw [ho] at hfail
          cases hfail
        · exact hno hpass
    · rw [hr]
      refine iff_of_true (keepsTable_ok ?_ hcl) (.inr hpass)
      refine h.add (opens_eq_some.mp ho).2 ?_ htable hfds
      simp [OpenFile.slot, hdir.tableDir]
  · refine iff_of_true ?_ fun hpresent hdir hid => absurd ⟨hpresent, hdir, hid⟩ hvalid
    have hr : fpgaLldmaInit p slot connectorId env = (.error .invalidArgument, p) := by
      unfold fpgaLldmaInit
      cases connectorId with
      | none => exact ite_self _
      | some id => exact if_pos (by simpa [or_iff_not_imp_left] using hvalid)
    rw [hr]
    exact keepsTable_self h _

/-! ### `fpga_lldma_finish` -/

/-- The open files are bound in known directions only. -/
def LldmaProcess.Known (p : LldmaProcess) : Prop :=
  ∀ fd file, p.fds fd = some file → file.priv.Known

/-- An entry that stays while its descriptor is closed. -/
theorem not_keepsTable_of_closed {r : Except LibfpgaErr Unit} (hfd : p.fdGetQueue slot = some fd)
    (htable : p'.fdGetQueue = p.fdGetQueue) (hfds : p'.fds fd = none) : ¬ KeepsTable p (r, p') := by
  exact fun hk => not_recorded_of_closed (htable ▸ hfd) hfds hk.recorded

/-- **`fpga_lldma_finish`** keeps the table exactly if it meets the condition. -/
theorem keepsTable_finish_iff (h : p.Recorded) (hk : p.Known) (env : FinishEnv) :
    KeepsTable p (fpgaLldmaFinish p slot env) ↔ LldmaCall.Meets p (.finish slot env) := by
  cases hfd : p.fdGetQueue slot with
  | none =>
    refine iff_of_true ?_ fun fd hfd' => ?_
    · unfold fpgaLldmaFinish
      rw [hfd]
      exact keepsTable_self h _
    · rw [hfd] at hfd'
      cases hfd'
  | some fd =>
    obtain ⟨queKind, hf, hdir⟩ := ownedSlot_eq_some.mp (recorded_iff.mp h slot fd hfd)
    have hmeets : LldmaCall.Meets p (.finish slot env) ↔ env.free.copyFromUser = true ∧
        queKind = slot.2.1 ∧ ¬ TimesOut env.free.monitor := by
      constructor
      · intro hm
        obtain ⟨hfrom, hkind, ht⟩ := hm fd hfd
        rw [hf] at hkind
        exact ⟨hfrom, Option.some.inj hkind, ht⟩
      · intro ⟨hfrom, hkind, ht⟩ fd' hfd'
        rw [hfd] at hfd'
        cases hfd'
        rw [hf]
        exact ⟨hfrom, congrArg some hkind, ht⟩
    rw [hmeets]
    obtain ⟨dev, hclose⟩ := fpgautilClose_of_ioctl hf env.free
      (.freeQueue ⟨slot.2.1, slot.2.2, 0, .empty⟩) env.release
    unfold fpgaLldmaFinish
    rw [hfd]
    rcases ioctl_freeQueue_cases (p.devs slot.1) _ env.free (hk fd _ hf)
        ⟨slot.2.1, slot.2.2, 0, .empty⟩ with
      ⟨e, hr, hno⟩ | ⟨b, dev', hfrom, hb, hkind, ⟨ht, -, hr⟩ | ⟨ht, -, hr⟩⟩
    · simp only [fpgautilIoctl_of_file hf hr, Except.map, Except.mapError] at hclose ⊢
      rw [hclose]
      refine iff_of_false (not_keepsTable_of_closed hfd rfl (Function.update_self ..)) fun hm => ?_
      exact hno hm.1 (congrArg some hm.2.1)
    · simp only [fpgautilIoctl_of_file hf hr, Except.map, Except.mapError] at hclose ⊢
      rw [hclose]
      exact iff_of_false (not_keepsTable_of_closed hfd rfl (Function.update_self ..)) fun hm =>
        hm.2.2 ht
    · cases hb
      simp only [fpgautilIoctl_of_file hf hr, Except.map, Except.mapError] at hclose ⊢
      rw [hclose]
      exact iff_of_true (keepsTable_ok (h.remove hfd rfl rfl) rfl) ⟨hfrom, hkind, ht⟩

/-! ### Connections -/

variable {info : FpgaLldmaConnect} {env : ConnectEnv} {dstPa64 : BitVec 64} {id : ConnectorId}

theorem txSlot_ne_rxSlot (info : FpgaLldmaConnect) : info.txSlot ≠ info.rxSlot := by
  intro h
  cases congrArg (·.2.1) h

/-- The second opening meets the same as the first, but for the number that is taken. -/
theorem checkPasses_checked {slot' : QueueSlot} {env env' : CheckEnv} (ho : p.opens env.fd = some fd) :
    CheckPasses (p.checked slot fd) slot' env' ↔ CheckPasses p slot' env' ∧ env'.fd ≠ env.fd := by
  have hopens : ((p.checked slot fd).opens env'.fd).isSome ↔
      (p.opens env'.fd).isSome ∧ env'.fd ≠ env.fd := by
    obtain ⟨hfd, -⟩ := opens_eq_some.mp ho
    simp only [Option.isSome_iff_exists, opens_eq_some]
    constructor
    · rintro ⟨fd', hfd', hnone⟩
      have hne : fd' ≠ fd := by
        rintro rfl
        rw [LldmaProcess.checked, fds_setEntry, fds_opened, Function.update_self] at hnone
        cases hnone
      rw [LldmaProcess.checked, fds_setEntry, fds_opened, Function.update_of_ne hne] at hnone
      exact ⟨⟨fd', hfd', hnone⟩, by rw [hfd', hfd]; simpa using hne⟩
    · rintro ⟨⟨fd', hfd', hnone⟩, hne⟩
      refine ⟨fd', hfd', ?_⟩
      rw [LldmaProcess.checked, fds_setEntry, fds_opened, Function.update_of_ne ?_, hnone]
      rintro rfl
      exact hne (hfd'.trans hfd.symm)
  constructor
  · intro h
    obtain ⟨hop, hne⟩ := hopens.mp h.opens
    exact ⟨⟨hop, h.copyFromUser, h.copyToUser, h.avail, h.inactive⟩, hne⟩
  · intro ⟨h, hne⟩
    exact ⟨hopens.mpr ⟨h.opens, hne⟩, h.copyFromUser, h.copyToUser, h.avail, h.inactive⟩

theorem not_failsAtOnce {env : CheckEnv} (ho : p.opens env.fd = some fd) :
    ¬ FailsAtOnce p slot env := by
  intro h
  rw [h.1] at ho
  cases ho

/-- **`__fpga_lldma_buf_connect`** up to the request for the `TX` channel. -/
theorem keepsTable_connect_of_not_checked (h : p.Recorded)
    (hno : ¬ (CheckPasses p info.txSlot env.tx ∧ CheckPasses p info.rxSlot env.rx ∧
      env.rx.fd ≠ env.tx.fd)) :
    KeepsTable p (fpgaLldmaBufConnectBody p info dstPa64 id env) ↔
      FailsAtOnce p info.txSlot env.tx := by
  unfold fpgaLldmaBufConnectBody
  rcases fpgaLldmaCheckQueue_cases p info.txSlot env.tx with
    ⟨ho, hr⟩ | ⟨fd, ho, ⟨-, e, hr⟩ | ⟨hpass, hr⟩⟩
  · simp only [hr]
    rw [keepsTable_setEntry_none h]
    exact ⟨fun hnone => ⟨ho, hnone⟩, fun hf => hf.2⟩
  · simp only [hr]
    have hstray : ¬ (p.setEntry info.txSlot (some fd)).Recorded :=
      not_recorded_of_closed (Function.update_self ..) (opens_eq_some.mp ho).2
    exact iff_of_false (fun hk => hstray hk.recorded) (not_failsAtOnce ho)
  · simp only [hr]
    -- the file of the `TX` entry stays open and unbound
    have hstray : ∀ x, ¬ ((p.checked info.txSlot fd).setEntry info.rxSlot x).Recorded := by
      intro x
      have hentry : ((p.checked info.txSlot fd).setEntry info.rxSlot x).fdGetQueue info.txSlot =
          some fd := by
        rw [fdGetQueue_setEntry, Function.update_of_ne (txSlot_ne_rxSlot info)]
        exact Function.update_self ..
      exact not_recorded_of_unbound hentry (checked_fds info.txSlot fd)
    rcases fpgaLldmaCheckQueue_cases (p.checked info.txSlot fd) info.rxSlot env.rx with
      ⟨-, hr'⟩ | ⟨fd', -, ⟨-, e, hr'⟩ | ⟨hpass', -⟩⟩
    · simp only [hr']
      exact iff_of_false (fun hk => hstray _ hk.recorded) (not_failsAtOnce ho)
    · simp only [hr']
      exact iff_of_false (fun hk => hstray _ hk.recorded) (not_failsAtOnce ho)
    · exact absurd ⟨hpass, (checkPasses_checked ho).mp hpass'⟩ hno

/-- The process when the `RX` channel was refused: both descriptors are closed, both entries are
gone and the `TX` channel is put back. -/
theorem keepsTable_rollback {q : LldmaProcess} (h : p.Recorded) (e : LibfpgaErr) {dev dev' : FpgaDevInfo}
    (hfree : ChannelFree p info.txSlot)
    (htake : Takes .tx info.txChid id (p.devs info.txDevId) dev)
    (hfrees : Frees .tx info.txChid dev dev')
    (htable : q.fdGetQueue =
      Function.update (Function.update p.fdGetQueue info.txSlot none) info.rxSlot none)
    (hfds : q.fds = p.fds) (hdevs : q.devs = Function.update p.devs info.txDevId dev')
    (hcloses : q.badCloses = p.badCloses) :
    KeepsTable p (.error e, q) ↔
      p.fdGetQueue info.txSlot = none ∧ p.fdGetQueue info.rxSlot = none := by
  constructor
  · intro hk
    have heq := hk.table nofun
    rw [← heq, htable, Function.update_self, Function.update_of_ne (txSlot_ne_rxSlot info),
      Function.update_self]
    exact ⟨rfl, rfl⟩
  · intro ⟨htx, hrx⟩
    have heq : q.fdGetQueue = p.fdGetQueue := by
      rw [htable, Function.update_eq_self_iff.mpr, Function.update_eq_self_iff.mpr htx.symm]
      rw [Function.update_eq_self_iff.mpr htx.symm, hrx]
    refine ⟨?_, fun _ => heq, fun _ => hfds, fun _ devId side chid _ => ?_, hcloses⟩
    · rw [recorded_iff] at h ⊢
      intro slot fd hfd
      rw [LldmaProcess.ownedSlot, hfds]
      exact h slot fd (heq ▸ hfd)
    · show SameChannel _ ((q.devs devId).queues side chid)
      rw [hdevs]
      by_cases hdev : devId = info.txDevId
      · subst hdev
        rw [Function.update_self]
        by_cases hchan : side = .tx ∧ chid = info.txChid
        · obtain ⟨rfl, rfl⟩ := hchan
          refine ⟨hfrees.status.trans hfree.symm, fun hused => ?_⟩
          have := hfree.symm.trans hused
          cases this
        · rw [hfrees.leaves.queues side chid hchan, htake.leaves.queues side chid hchan]
          exact ⟨rfl, fun _ => rfl⟩
      · rw [Function.update_of_ne hdev]
        exact ⟨rfl, fun _ => rfl⟩

/-- Both devices are open and in the table, for no channel yet. -/
structure BothChecked (p : LldmaProcess) (info : FpgaLldmaConnect) (txFd rxFd : ℕ)
    (q : LldmaProcess) : Prop where
  /-- The first number was not open. -/
  txFree : p.fds txFd = none
  /-- Nor was the second. -/
  rxFree : p.fds rxFd = none
  /-- They are two. -/
  ne : rxFd ≠ txFd
  /-- The table. -/
  table : q.fdGetQueue =
    Function.update (Function.update p.fdGetQueue info.txSlot (some txFd)) info.rxSlot (some rxFd)
  /-- The descriptors. -/
  fds : q.fds = Function.update (Function.update p.fds txFd (some ⟨info.txDevId, none⟩)) rxFd
    (some ⟨info.rxDevId, none⟩)
  /-- The devices. -/
  devs : q.devs = p.devs
  /-- The closes. -/
  closes : q.badCloses = p.badCloses

theorem BothChecked.tx {txFd rxFd : ℕ} {q : LldmaProcess} (hq : BothChecked p info txFd rxFd q) :
    q.fds txFd = some ⟨info.txDevId, none⟩ := by
  rw [hq.fds, Function.update_of_ne hq.ne.symm, Function.update_self]

theorem BothChecked.rx {txFd rxFd : ℕ} {q : LldmaProcess} (hq : BothChecked p info txFd rxFd q) :
    q.fds rxFd = some ⟨info.rxDevId, none⟩ := by
  rw [hq.fds, Function.update_self]

/-- `__fpga_lldma_buf_connect` gets to its requests. -/
theorem bufConnectBody_of_checked (hpass : CheckPasses p info.txSlot env.tx)
    (hpass' : CheckPasses p info.rxSlot env.rx) (hne : env.rx.fd ≠ env.tx.fd) :
    ∃ txFd rxFd q, BothChecked p info txFd rxFd q ∧
      fpgaLldmaBufConnectBody p info dstPa64 id env =
        requestChannels q info dstPa64 id env txFd rxFd := by
  unfold fpgaLldmaBufConnectBody
  rcases fpgaLldmaCheckQueue_cases p info.txSlot env.tx with
    ⟨ho, -⟩ | ⟨txFd, ho, ⟨hno, -⟩ | ⟨-, hr⟩⟩
  · exact absurd hpass.opens (by simp [ho])
  · exact absurd hpass hno
  have hsecond : CheckPasses (p.checked info.txSlot txFd) info.rxSlot env.rx :=
    (checkPasses_checked ho).mpr ⟨hpass', hne⟩
  rcases fpgaLldmaCheckQueue_cases (p.checked info.txSlot txFd) info.rxSlot env.rx with
    ⟨ho', -⟩ | ⟨rxFd, ho', ⟨hno, -⟩ | ⟨-, hr'⟩⟩
  · exact absurd hsecond.opens (by simp [ho'])
  · exact absurd hsecond hno
  obtain ⟨htxFd, htxFree⟩ := opens_eq_some.mp ho
  obtain ⟨hrxFd, hrxFree⟩ := opens_eq_some.mp ho'
  have hfd : rxFd ≠ txFd := by
    rintro rfl
    exact hne (hrxFd.trans htxFd.symm)
  rw [LldmaProcess.checked, fds_setEntry, fds_opened, Function.update_of_ne hfd] at hrxFree
  exact ⟨txFd, rxFd, (p.checked info.txSlot txFd).checked info.rxSlot rxFd,
    ⟨htxFree, hrxFree, hfd, rfl, rfl, rfl, rfl⟩, by simp only [hr, hr']⟩

variable {txFd rxFd : ℕ} {q : LldmaProcess}

/-- The `TX` channel refused: the file of the `RX` entry stays open and unbound. -/
theorem not_recorded_of_tx_refused (hq : BothChecked p info txFd rxFd q) (monitor : ℕ → BitVec 32) :
    ¬ ((q.fpgautilClose txFd monitor).setEntry info.txSlot none).Recorded := by
  rw [fpgautilClose_of_file hq.tx]
  generalize xpcieCdevRelease _ _ _ = dev
  have hentry : ((q.setFile txFd info.txDevId none dev).setEntry info.txSlot none).fdGetQueue
      info.rxSlot = some rxFd := by
    rw [fdGetQueue_setEntry, Function.update_of_ne (txSlot_ne_rxSlot info).symm,
      fdGetQueue_setFile, hq.table, Function.update_self]
  have hfile : ((q.setFile txFd info.txDevId none dev).setEntry info.txSlot none).fds rxFd =
      some ⟨info.rxDevId, none⟩ := by
    rw [fds_setEntry, fds_setFile, Function.update_of_ne hq.ne, hq.rx]
  exact not_recorded_of_unbound hentry hfile

/-- The `TX` channel granted. -/
structure TxGranted (p : LldmaProcess) (info : FpgaLldmaConnect) (txFd rxFd : ℕ) (b : FileBinding)
    (dev : FpgaDevInfo) (q : LldmaProcess) : Prop where
  /-- The first number was not open. -/
  txFree : p.fds txFd = none
  /-- Nor was the second. -/
  rxFree : p.fds rxFd = none
  /-- They are two. -/
  ne : rxFd ≠ txFd
  /-- The table. -/
  table : q.fdGetQueue =
    Function.update (Function.update p.fdGetQueue info.txSlot (some txFd)) info.rxSlot (some rxFd)
  /-- The descriptors. -/
  fds : q.fds = Function.update (Function.update p.fds txFd (some ⟨info.txDevId, some b⟩)) rxFd
    (some ⟨info.rxDevId, none⟩)
  /-- The devices. -/
  devs : q.devs = Function.update p.devs info.txDevId dev
  /-- The closes. -/
  closes : q.badCloses = p.badCloses
  /-- The binding. -/
  side : b.queKind.connectSide = some .tx
  /-- The channel. -/
  chid : b.chid = info.txChid
  /-- The file got it. -/
  get : b.isGetQueue = true

theorem BothChecked.granted (hq : BothChecked p info txFd rxFd q) {b : FileBinding}
    (hside : b.queKind.connectSide = some .tx) (hchid : b.chid = info.txChid)
    (hget : b.isGetQueue = true) (dev : FpgaDevInfo) :
    TxGranted p info txFd rxFd b dev (q.setFile txFd info.txDevId (some ⟨info.txDevId, some b⟩) dev) where
  txFree := hq.txFree
  rxFree := hq.rxFree
  ne := hq.ne
  table := hq.table
  fds := by rw [fds_setFile, hq.fds, Function.update_comm hq.ne, Function.update_idem]
  devs := by rw [devs_setFile, hq.devs]
  closes := hq.closes
  side := hside
  chid := hchid
  get := hget

/-- A file that got a channel for a connection stands for the entry of its side. -/
theorem slot_of_connectSide {devId : ℕ} {b : FileBinding} {side : DmaSide}
    (hside : b.queKind.connectSide = some side) (hget : b.isGetQueue = true) :
    OpenFile.slot ⟨devId, some b⟩ = some (devId, side.hostDir, b.chid) := by
  obtain ⟨queKind, chid, isGetQueue⟩ := b
  cases hget
  cases queKind <;> cases hside <;> rfl

/-- The `RX` channel granted too. -/
theorem TxGranted.recorded {b : FileBinding} {dev : FpgaDevInfo} (h : p.Recorded)
    (hq : TxGranted p info txFd rxFd b dev q) {c : FileBinding} (hside : c.queKind.connectSide = some .rx)
    (hchid : c.chid = info.rxChid) (hget : c.isGetQueue = true) (dev' : FpgaDevInfo) :
    (q.setFile rxFd info.rxDevId (some ⟨info.rxDevId, some c⟩) dev').Recorded := by
  have hmid : ((p.setFile txFd info.txDevId (some ⟨info.txDevId, some b⟩) dev).setEntry info.txSlot
      (some txFd)).Recorded := by
    refine h.add hq.txFree ?_ rfl rfl
    rw [slot_of_connectSide hq.side hq.get, hq.chid]
    rfl
  have hslot : OpenFile.slot ⟨info.rxDevId, some c⟩ = some info.rxSlot := by
    rw [slot_of_connectSide hside hget, hchid]
    rfl
  refine hmid.add ?_ hslot hq.table ?_
  · rw [fds_setEntry, fds_setFile, Function.update_of_ne hq.ne, hq.rxFree]
  · rw [fds_setFile, hq.fds, Function.update_idem]
    rfl

/-- The `RX` channel refused: both descriptors are closed, both entries are gone and the `TX`
channel is put back. -/
theorem TxGranted.rollback {b : FileBinding} {dev : FpgaDevInfo} (h : p.Recorded)
    (hq : TxGranted p info txFd rxFd b dev q) (hfree : ChannelFree p info.txSlot)
    (htake : Takes .tx info.txChid id (p.devs info.txDevId) dev) (e : LibfpgaErr) :
    KeepsTable p (.error e,
        ((((q.fpgautilClose rxFd env.rxRelease).setEntry info.rxSlot none).fpgautilIoctl txFd
          env.txFree .freeConnection).2.fpgautilClose txFd env.txRelease).setEntry info.txSlot none) ↔
      p.fdGetQueue info.txSlot = none ∧ p.fdGetQueue info.rxSlot = none := by
  have hrx : q.fds rxFd = some ⟨info.rxDevId, none⟩ := by
    rw [hq.fds, Function.update_self]
  rw [fpgautilClose_of_file hrx]
  generalize hq' : (q.setFile rxFd info.rxDevId none _).setEntry info.rxSlot none = q'
  have htx : q'.fds txFd = some ⟨info.txDevId, some b⟩ := by
    rw [← hq', fds_setEntry, fds_setFile, Function.update_of_ne hq.ne.symm, hq.fds,
      Function.update_of_ne hq.ne.symm, Function.update_self]
  have hside : b.queKind.side = .tx := DmaDir.side_of_connectSide hq.side
  have hk : XpcieFilePrivate.Known (some b) := by
    apply known_some
    rw [hside]
    exact DmaDir.anySide_of_connectSide hq.side
  obtain ⟨r, q'', hr, -, dev', hclose, hfrees⟩ :=
    free_and_close htx hq.get hk env.txFree env.txRelease
  have hdevs : q'.devs = Function.update p.devs info.txDevId dev := by
    rw [← hq', devs_setEntry, devs_setFile, ← hq.devs]
    exact Function.update_eq_self ..
  rw [hdevs, Function.update_self, hside, hq.chid] at hfrees
  rw [hr, hclose]
  refine keepsTable_rollback h e hfree htake hfrees ?_ ?_ ?_ ?_
  · rw [fdGetQueue_setEntry, fdGetQueue_setFile, ← hq', fdGetQueue_setEntry, fdGetQueue_setFile,
      hq.table, Function.update_idem, Function.update_comm (txSlot_ne_rxSlot info),
      Function.update_idem, Function.update_comm (txSlot_ne_rxSlot info).symm]
  · have htxNone : Function.update p.fds txFd none = p.fds :=
      Function.update_eq_self_iff.mpr hq.txFree.symm
    have hrxNone : Function.update p.fds rxFd none = p.fds :=
      Function.update_eq_self_iff.mpr hq.rxFree.symm
    rw [fds_setEntry, fds_setFile, ← hq', fds_setEntry, fds_setFile, hq.fds, Function.update_idem,
      Function.update_comm hq.ne, Function.update_idem, htxNone, hrxNone]
  · rw [devs_setEntry, devs_setFile, hdevs, Function.update_idem]
  · exact (congrArg LldmaProcess.badCloses hq'.symm).trans hq.closes

/-- Granting the `TX` channel leaves what the request for the `RX` channel looks at. -/
theorem TxGranted.others {b : FileBinding} {dev : FpgaDevInfo}
    (hq : TxGranted p info txFd rxFd b dev q)
    (htake : Takes .tx info.txChid id (p.devs info.txDevId) dev) :
    (∀ d, (q.devs d).devId = (p.devs d).devId) ∧
      ∀ d c, (q.devs d).queues .rx c = (p.devs d).queues .rx c := by
  rw [hq.devs]
  constructor
  · intro d
    rcases eq_or_ne d info.txDevId with rfl | hd
    · rw [Function.update_self, htake.leaves.devId]
    · rw [Function.update_of_ne hd]
  · intro d c
    rcases eq_or_ne d info.txDevId with rfl | hd
    · rw [Function.update_self, htake.leaves.queues .rx c (by simp)]
    · rw [Function.update_of_ne hd]

/-- **The requests** keep the table exactly if both are granted, or only the second is refused and
there were no descriptors in the table. -/
theorem keepsTable_requestChannels_iff (h : p.Recorded) (hq : BothChecked p info txFd rxFd q) :
    KeepsTable p (requestChannels q info dstPa64 id env txFd rxFd) ↔
      Connects p info.txDevId info.rxDevId env.txAlloc ∧ ChannelFree p info.txSlot ∧
      (Connects p info.rxDevId info.txDevId env.rxAlloc ∧ ChannelFree p info.rxSlot ∨
        p.fdGetQueue info.txSlot = none ∧ p.fdGetQueue info.rxSlot = none) := by
  have htx : info.txConnect q dstPa64 id = info.txConnect p dstPa64 id := by
    unfold FpgaLldmaConnect.txConnect
    rw [hq.devs]
  unfold requestChannels
  rw [htx]
  rcases allocConnection_cases hq.tx env.txAlloc (info.txConnect p dstPa64 id) with
    ⟨hno, e, ha⟩ | ⟨⟨hfrom, hid, haddr, hfree⟩, dev, htake, ha⟩
  · simp only [ha]
    refine iff_of_false (fun hk => not_recorded_of_tx_refused hq _ hk.recorded) fun hm => hno ?_
    obtain ⟨⟨hfrom, hid, haddr⟩, hfree, -⟩ := hm
    rw [hq.devs]
    exact ⟨hfrom, hid, haddr, hfree⟩
  · simp only [ha]
    rw [hq.devs] at hid hfree htake
    have hgranted := hq.granted
      (b := ⟨(info.txConnect p dstPa64 id).dir, (info.txConnect p dstPa64 id).selfChid, true⟩)
      (info.txConnect p dstPa64 id).connectSide_dir rfl rfl dev
    generalize q.setFile txFd info.txDevId _ dev = q' at hgranted ⊢
    have hrx : q'.fds rxFd = some ⟨info.rxDevId, none⟩ := by
      rw [hgranted.fds, Function.update_self]
    obtain ⟨hdevId, hqueue⟩ := hgranted.others htake
    have hrxConnect : info.rxConnect q' dstPa64 id = info.rxConnect p dstPa64 id := by
      unfold FpgaLldmaConnect.rxConnect
      rw [hdevId]
    have hinfo : (q'.devs info.rxDevId).queues (info.rxConnect p dstPa64 id).selfSide
        (info.rxConnect p dstPa64 id).selfChid = (p.devs info.rxDevId).queues .rx info.rxChid :=
      hqueue ..
    rcases allocConnection_cases hrx env.rxAlloc (info.rxConnect q' dstPa64 id) with
      ⟨hno, e, ha'⟩ | ⟨hyes', dev', htake', ha'⟩
    · simp only [ha']
      rw [hgranted.rollback h hfree htake]
      constructor
      · exact fun hnone => ⟨⟨hfrom, hid, haddr⟩, hfree, .inr hnone⟩
      · rintro ⟨-, -, ⟨⟨hfrom', hid', haddr'⟩, hfree'⟩ | hnone⟩
        · rw [hrxConnect, hdevId, hinfo] at hno
          exact absurd ⟨hfrom', hid', haddr', hfree'⟩ hno
        · exact hnone
    · simp only [ha']
      rw [hrxConnect, hdevId, hinfo] at hyes'
      obtain ⟨hfrom', hid', haddr', hfree'⟩ := hyes'
      refine iff_of_true (keepsTable_ok (hgranted.recorded h ?_ rfl rfl dev') hgranted.closes)
        ⟨⟨hfrom, hid, haddr⟩, hfree, .inl ⟨⟨hfrom', hid', haddr'⟩, hfree'⟩⟩
      exact (info.rxConnect q' dstPa64 id).connectSide_dir

/-! ### Disconnecting -/

theorem disconnectSide_of_none (hfd : p.fdGetQueue slot = none) (env : DisconnectEnv)
    (ret : Except LibfpgaErr Unit) : disconnectSide p slot env ret = (.error .invalidArgument, p) := by
  unfold disconnectSide
  rw [hfd]

/-- A side that is connected goes, whatever the driver says. -/
theorem disconnectSide_of_some (h : p.Recorded) (hk : p.Known) (hfd : p.fdGetQueue slot = some fd)
    (env : DisconnectEnv) (ret : Except LibfpgaErr Unit) :
    ∃ r q, disconnectSide p slot env ret = (r, q) ∧ q.Recorded ∧ q.Known ∧
      q.fdGetQueue = Function.update p.fdGetQueue slot none ∧ q.badCloses = p.badCloses ∧
      (r = .ok () ↔ ret = .ok () ∧ ¬ TimesOut env.free.monitor) := by
  obtain ⟨queKind, hf, -⟩ := ownedSlot_eq_some.mp (recorded_iff.mp h slot fd hfd)
  obtain ⟨r, q, hr, hok, dev, hclose, -⟩ :=
    free_and_close hf rfl (hk fd _ hf) env.free env.release
  have hrecorded : ((p.setFile fd slot.1 none dev).setEntry slot none).Recorded := h.remove hfd rfl rfl
  have hknown : ((p.setFile fd slot.1 none dev).setEntry slot none).Known := by
    intro fd' file hf'
    rcases update_cases (· = some file) hf' with ⟨-, he⟩ | ⟨-, he⟩
    · cases he
    · exact hk fd' file he
  unfold disconnectSide
  simp only [hfd, hr]
  cases r with
  | error e =>
    refine ⟨.error .failureIoctl, _, by rw [← hclose], hrecorded, hknown, rfl, rfl, ?_⟩
    exact iff_of_false nofun fun hm => nomatch hok.mpr hm.2
  | ok u =>
    refine ⟨ret, _, by rw [← hclose], hrecorded, hknown, rfl, rfl, ?_⟩
    exact ⟨fun hret => ⟨hret, hok.mp rfl⟩, fun hm => hm.1⟩

/-- **`fpga_lldma_buf_disconnect`** keeps the table exactly if it meets the condition. -/
theorem keepsTable_disconnect_iff (h : p.Recorded) (hk : p.Known) (rx tx : DisconnectEnv) :
    KeepsTable p (fpgaLldmaBufDisconnect p info rx tx) ↔
      LldmaCall.Meets p (.bufDisconnect info rx tx) := by
  unfold fpgaLldmaBufDisconnect
  by_cases hpresent : p.present info.txDevId = true ∧ p.present info.rxDevId = true
  · obtain ⟨htxp, hrxp⟩ := hpresent
    have hmeets : LldmaCall.Meets p (.bufDisconnect info rx tx) ↔
        p.fdGetQueue info.rxSlot = none ∧ p.fdGetQueue info.txSlot = none ∨
        (p.fdGetQueue info.rxSlot ≠ none ∧ p.fdGetQueue info.txSlot ≠ none ∧
          ¬ TimesOut rx.free.monitor ∧ ¬ TimesOut tx.free.monitor) :=
      ⟨fun hm => hm htxp hrxp, fun hm _ _ => hm⟩
    rw [hmeets, if_neg (by simp [htxp, hrxp])]
    cases hrx : p.fdGetQueue info.rxSlot with
    | none =>
      rw [disconnectSide_of_none hrx]
      cases htx : p.fdGetQueue info.txSlot with
      | none =>
        simp only [disconnectSide_of_none htx]
        exact iff_of_true (keepsTable_self h _) (.inl ⟨trivial, trivial⟩)
      | some txFd =>
        obtain ⟨r, q, hr, -, -, htable, -, hok⟩ :=
          disconnectSide_of_some h hk htx tx (.error .invalidArgument)
        simp only [hr]
        refine iff_of_false (fun hkeeps => ?_) (by simp)
        have heq := hkeeps.table fun hret => nomatch (hok.mp hret).1
        rw [← heq, htable, Function.update_self] at htx
        cases htx
    | some rxFd =>
      obtain ⟨r, q, hr, hrec, hkn, htable, hcl, hok⟩ := disconnectSide_of_some h hk hrx rx (.ok ())
      have htxEntry : q.fdGetQueue info.txSlot = p.fdGetQueue info.txSlot := by
        rw [htable, Function.update_of_ne (txSlot_ne_rxSlot info)]
      rw [hr]
      cases htx : p.fdGetQueue info.txSlot with
      | none =>
        simp only [disconnectSide_of_none (htxEntry.trans htx)]
        refine iff_of_false (fun hkeeps => ?_) (by simp)
        have heq := hkeeps.table nofun
        rw [← heq, htable, Function.update_self] at hrx
        cases hrx
      | some txFd =>
        obtain ⟨r', q', hr', hrec', -, htable', hcl', hok'⟩ :=
          disconnectSide_of_some hrec hkn (htxEntry.trans htx) tx r
        simp only [hr']
        have hdone : r' = .ok () ↔ ¬ TimesOut rx.free.monitor ∧ ¬ TimesOut tx.free.monitor := by
          rw [hok', hok]
          simp
        constructor
        · intro hkeeps
          refine .inr ⟨nofun, nofun, hdone.mp ?_⟩
          by_contra hne
          have heq := hkeeps.table hne
          rw [← heq, htable', Function.update_self] at htx
          cases htx
        · rintro (⟨hnone, -⟩ | ⟨-, -, ht⟩)
          · cases hnone
          · rw [hdone.mpr ht]
            exact keepsTable_ok hrec' (hcl'.trans hcl)
  · rw [if_pos (by simpa [or_iff_not_imp_left] using hpresent)]
    exact iff_of_true (keepsTable_self h _) fun htxp hrxp => absurd ⟨htxp, hrxp⟩ hpresent

/-! ### The files stay in known directions -/

theorem ioctl_known {dev : FpgaDevInfo} {priv : XpcieFilePrivate} (hp : priv.Known) (env : CallEnv)
    (cmd : LldmaCmd) : (xpcieFpgaIoctlLldma dev priv env cmd).2.2.Known := by
  have hs : LldmaSystem.Known ⟨dev, fun _ => some priv⟩ := by
    intro fd priv' h
    cases h
    exact hp
  have hstep : fileStep ⟨dev, fun _ => some priv⟩ (.cdevIoctl 0 env cmd) =
      some ⟨(xpcieFpgaIoctlLldma dev priv env cmd).2.1, Function.update (fun _ => some priv) 0
        (some (xpcieFpgaIoctlLldma dev priv env cmd).2.2)⟩ := rfl
  generalize xpcieFpgaIoctlLldma dev priv env cmd = out at hstep ⊢
  obtain ⟨-, -, -, ht⟩ := fileStep_effect hs hstep
  refine ht 0 out.2.2 ?_
  show Function.update (fun _ => some priv) 0 (some out.2.2) 0 = some out.2.2
  exact Function.update_self ..

theorem LldmaProcess.Known.update {p' : LldmaProcess} (hk : p.Known) {x : Option OpenFile}
    (hx : ∀ file, x = some file → file.priv.Known) (hfds : p'.fds = Function.update p.fds fd x) :
    p'.Known := by
  intro fd' file hf
  rw [hfds] at hf
  rcases update_cases (· = some file) hf with ⟨-, he⟩ | ⟨-, he⟩
  · exact hx file he
  · exact hk fd' file he

theorem LldmaProcess.Known.ioctl (hk : p.Known) (fd : ℕ) (env : CallEnv) (cmd : LldmaCmd) :
    (p.fpgautilIoctl fd env cmd).2.Known := by
  unfold LldmaProcess.fpgautilIoctl
  cases hf : p.fds fd with
  | none => exact hk
  | some file =>
    refine hk.update (fun file' he => ?_) rfl
    cases he
    exact ioctl_known (hk fd file hf) env cmd

theorem LldmaProcess.Known.close (hk : p.Known) (fd : ℕ) (monitor : ℕ → BitVec 32) :
    (p.fpgautilClose fd monitor).Known := by
  unfold LldmaProcess.fpgautilClose
  cases hf : p.fds fd with
  | none => exact hk
  | some file => exact hk.update (x := none) nofun rfl

theorem LldmaProcess.Known.checkQueue (hk : p.Known) (slot : QueueSlot) (env : CheckEnv) :
    (fpgaLldmaCheckQueue p slot env).2.Known := by
  rcases fpgaLldmaCheckQueue_cases p slot env with ⟨-, hr⟩ | ⟨fd, -, ⟨-, e, hr⟩ | ⟨-, hr⟩⟩
  · rw [hr]
    exact hk
  · rw [hr]
    exact hk
  · rw [hr]
    refine hk.update (fun file he => ?_) rfl
    cases he
    exact known_none

theorem LldmaProcess.Known.requestChannels (hk : p.Known) :
    (requestChannels p info dstPa64 id env txFd rxFd).2.Known := by
  unfold Libfpga.requestChannels
  have htx := hk.ioctl txFd env.txAlloc (.allocConnection (info.txConnect p dstPa64 id))
  generalize p.fpgautilIoctl txFd env.txAlloc _ = out at htx ⊢
  obtain ⟨_ | _, q⟩ := out
  · exact htx.close txFd env.txRelease
  have hrx := htx.ioctl rxFd env.rxAlloc (.allocConnection (info.rxConnect q dstPa64 id))
  simp only
  generalize q.fpgautilIoctl rxFd env.rxAlloc _ = out at hrx ⊢
  obtain ⟨_ | _, q'⟩ := out
  · have hclosed : ((q'.fpgautilClose rxFd env.rxRelease).setEntry info.rxSlot none).Known :=
      hrx.close rxFd env.rxRelease
    exact (hclosed.ioctl txFd env.txFree .freeConnection).close txFd env.txRelease
  · exact hrx

theorem LldmaProcess.Known.connectBody (hk : p.Known) :
    (fpgaLldmaBufConnectBody p info dstPa64 id env).2.Known := by
  unfold fpgaLldmaBufConnectBody
  have htx := hk.checkQueue info.txSlot env.tx
  generalize fpgaLldmaCheckQueue p info.txSlot env.tx = out at htx ⊢
  obtain ⟨_ | _, q⟩ := out
  · exact htx
  have hrx := htx.checkQueue info.rxSlot env.rx
  simp only
  generalize fpgaLldmaCheckQueue q info.rxSlot env.rx = out at hrx ⊢
  obtain ⟨_ | _, q'⟩ := out
  · exact hrx
  · exact hrx.requestChannels

theorem LldmaProcess.Known.init (hk : p.Known) (connectorId : Option ConnectorId) (env : InitEnv) :
    (fpgaLldmaInit p slot connectorId env).2.Known := by
  unfold fpgaLldmaInit
  split
  · exact hk
  cases connectorId with
  | none => exact hk
  | some id =>
    have hcheck := hk.checkQueue slot env.check
    simp only
    generalize fpgaLldmaCheckQueue p slot env.check = out at hcheck ⊢
    obtain ⟨_ | fd, q⟩ := out
    · exact hcheck
    have halloc := hcheck.ioctl fd env.alloc (.allocQueue ⟨slot.2.1, slot.2.2, 0, id⟩)
    simp only
    generalize q.fpgautilIoctl fd env.alloc _ = out at halloc ⊢
    obtain ⟨_ | _, q'⟩ := out
    · exact halloc.close fd env.release
    · simp only
      split
      · exact halloc.close fd env.release
      · exact halloc

theorem LldmaProcess.Known.finish (hk : p.Known) (env : FinishEnv) :
    (fpgaLldmaFinish p slot env).2.Known := by
  unfold fpgaLldmaFinish
  split
  · exact hk
  · rename_i fd _
    have hfree := hk.ioctl fd env.free (.freeQueue ⟨slot.2.1, slot.2.2, 0, .empty⟩)
    generalize p.fpgautilIoctl fd env.free _ = out at hfree ⊢
    obtain ⟨_ | _, q⟩ := out
    · exact hfree.close fd env.release
    · exact hfree.close fd env.release

theorem LldmaProcess.Known.disconnectSide (hk : p.Known) (env : DisconnectEnv)
    (ret : Except LibfpgaErr Unit) : (disconnectSide p slot env ret).2.Known := by
  unfold Libfpga.disconnectSide
  split
  · exact hk
  · rename_i fd _
    have hfree := hk.ioctl fd env.free .freeConnection
    generalize p.fpgautilIoctl fd env.free _ = out at hfree ⊢
    obtain ⟨_ | _, q⟩ := out
    · exact hfree.close fd env.release
    · exact hfree.close fd env.release

theorem LldmaProcess.Known.call (hk : p.Known) (call : LldmaCall) : (lldmaCall p call).2.Known := by
  cases call with
  | init slot connectorId env => exact hk.init connectorId env
  | finish slot env => exact hk.finish env
  | bufConnect m info env =>
    show (fpgaLldmaBufConnect p m info env).2.Known
    unfold fpgaLldmaBufConnect
    split
    · exact hk
    · split
      · exact hk
      · exact hk.connectBody
  | directConnect info env =>
    show (fpgaLldmaDirectConnect p info env).2.Known
    unfold fpgaLldmaDirectConnect
    split
    · exact hk
    · exact hk.connectBody
  | bufDisconnect info rx tx =>
    show (fpgaLldmaBufDisconnect p info rx tx).2.Known
    unfold fpgaLldmaBufDisconnect
    split
    · exact hk
    · exact (hk.disconnectSide rx _).disconnectSide tx _

/-! ### Runs -/

/-- **A connection** keeps the table exactly if it meets the condition. -/
theorem keepsTable_connectBody_iff (h : p.Recorded) :
    KeepsTable p (fpgaLldmaBufConnectBody p info dstPa64 id env) ↔ ConnectMeets p info env := by
  unfold ConnectMeets
  by_cases hchecked : CheckPasses p info.txSlot env.tx ∧ CheckPasses p info.rxSlot env.rx ∧
      env.rx.fd ≠ env.tx.fd
  · obtain ⟨htx, hrx, hne⟩ := hchecked
    obtain ⟨txFd, rxFd, q, hq, hr⟩ := bufConnectBody_of_checked htx hrx hne
    rw [hr, keepsTable_requestChannels_iff h hq]
    constructor
    · exact fun hm => .inr ⟨htx, hrx, hne, hm⟩
    · rintro (hfails | ⟨-, -, -, hm⟩)
      · exact absurd htx.opens (by simp [hfails.1])
      · exact hm
  · rw [keepsTable_connect_of_not_checked h hchecked]
    constructor
    · exact .inl
    · rintro (hfails | ⟨htx, hrx, hne, -⟩)
      · exact hfails
      · exact absurd ⟨htx, hrx, hne⟩ hchecked

/-- **Every call** keeps the table exactly if it meets the condition. -/
theorem keepsTable_iff (h : p.Recorded) (hk : p.Known) (call : LldmaCall) :
    KeepsTable p (lldmaCall p call) ↔ call.Meets p := by
  cases call with
  | init slot connectorId env => exact keepsTable_init_iff h connectorId env
  | finish slot env => exact keepsTable_finish_iff h hk env
  | bufDisconnect info rx tx => exact keepsTable_disconnect_iff h hk rx tx
  | bufConnect m info env =>
    show KeepsTable p (fpgaLldmaBufConnect p m info env) ↔
      (info.accepted p ≠ none → (fpgaLldmaCheckBufValid m info.bufAddr info.bufSize.toNat).isOk = true →
        ConnectMeets p info env)
    unfold fpgaLldmaBufConnect
    cases ha : info.accepted p with
    | none => exact iff_of_true (keepsTable_self h _) fun hne => absurd rfl hne
    | some id =>
      simp only
      cases fpgaLldmaCheckBufValid m info.bufAddr info.bufSize.toNat with
      | error e => exact iff_of_true (keepsTable_self h _) fun _ hok => nomatch hok
      | ok dstPa64 =>
        simp only
        rw [keepsTable_connectBody_iff h]
        exact ⟨fun hm _ _ => hm, fun hm => hm nofun rfl⟩
  | directConnect info env =>
    show KeepsTable p (fpgaLldmaDirectConnect p info env) ↔
      (info.accepted p ≠ none → ConnectMeets p info env)
    unfold fpgaLldmaDirectConnect
    cases ha : info.accepted p with
    | none => exact iff_of_true (keepsTable_self h _) fun hne => absurd rfl hne
    | some id =>
      simp only
      rw [keepsTable_connectBody_iff h]
      exact ⟨fun hm _ => hm, fun hm => hm nofun⟩

/-- The table as `__liblldma_init` leaves it, with no channel owned. -/
structure LldmaProcess.Start (p : LldmaProcess) : Prop where
  /-- Every entry is `-1`. -/
  table : ∀ slot, p.fdGetQueue slot = none
  /-- The descriptors that are open are bound to nothing. -/
  unbound : ∀ fd file, p.fds fd = some file → file.priv = none

/-- **The table and the driver.** A run from the start keeps the table at every call exactly if
every call meets the condition. -/
theorem fdGetQueue_agrees_iff (hp : p.Start) (calls : List LldmaCall) :
    Along lldmaStep (fun p call => KeepsTable p (lldmaCall p call)) p calls ↔
      Along lldmaStep (fun p call => call.Meets p) p calls := by
  have hrec : p.Recorded := by
    rw [recorded_iff]
    intro slot fd hfd
    rw [hp.table] at hfd
    cases hfd
  have hknown : p.Known := by
    intro fd file hf
    rw [hp.unbound fd file hf]
    exact known_none
  refine along_iff_along (I := fun p => p.Recorded ∧ p.Known) ?_ ?_ ⟨hrec, hknown⟩
  · intro q call t ⟨hq, hk⟩ hm ht
    cases ht
    exact ⟨((keepsTable_iff hq hk call).mpr hm).recorded, hk.call call⟩
  · intro q call t ⟨hq, hk⟩ _
    exact keepsTable_iff hq hk call

/-- Two devices with all channels implemented and free, each open once. -/
def twoDevices : LldmaProcess where
  present devId := devId < 2
  fdGetQueue _ := none
  fds fd := if fd = 3 then some ⟨0, none⟩ else if fd = 4 then some ⟨1, none⟩ else none
  devs devId := xpcieFpgaDevInit devId (.reset 0xFFFF 0xFFFF) fun _ _ => 0
  badCloses := 0

/-- The next descriptor is `fd`, the hardware shows the channels in `active`, nothing fails. -/
def CheckEnv.quiet (fd : ℕ) (active : BitVec 32) : CheckEnv :=
  ⟨some fd, true, true, active, fun _ => 0⟩

/-- Nothing fails. -/
def InitEnv.quiet (fd : ℕ) (active : BitVec 32) : InitEnv :=
  ⟨.quiet fd active, .quiet, true, fun _ => 0⟩

theorem twoDevices_start : twoDevices.Start := by
  refine ⟨fun _ => rfl, fun fd file hf => ?_⟩
  unfold twoDevices at hf
  simp only at hf
  split_ifs at hf
  · cases hf
    rfl
  · cases hf
    rfl

/-- A channel taken and given back, and a device that cannot be opened. -/
theorem fdGetQueue_agrees_twoDevices :
    Along lldmaStep (fun p call => KeepsTable p (lldmaCall p call)) twoDevices
      [.init (0, .hostToDev, 0) (some .empty) (.quiet 5 0),
        .init (1, .devToHost, 3) (some .empty)
          ⟨⟨none, true, true, 0, fun _ => 0⟩, .quiet, true, fun _ => 0⟩,
        .finish (0, .hostToDev, 0) ⟨.quiet, fun _ => 0⟩] :=
  (fdGetQueue_agrees_iff twoDevices_start _).mpr (by decide)

/-- A second `fpga_lldma_init` on a channel that is active: the table forgets the descriptor that owns
the channel and keeps the number of a closed one, and `fpga_lldma_finish` closes that number again. -/
theorem stale_entry_closed_again :
    (run lldmaStep twoDevices
      [.init (0, .hostToDev, 0) (some .empty) (.quiet 5 0),
        .init (0, .hostToDev, 0) (some .empty) (.quiet 6 1),
        .finish (0, .hostToDev, 0) ⟨.quiet, fun _ => 0⟩]).map
      (fun p => (p.fdGetQueue (0, .hostToDev, 0), p.ownedSlot 5, (p.fds 6).isSome, p.badCloses)) =
        some (some 6, some (0, .hostToDev, 0), false, 1) ∧
    ¬ ∀ p : LldmaProcess, p.Start → ∀ calls,
      Along lldmaStep (fun p call => KeepsTable p (lldmaCall p call)) p calls := by
  refine ⟨by decide, fun h => ?_⟩
  obtain ⟨-, hrun⟩ := h twoDevices twoDevices_start
    [.init (0, .hostToDev, 0) (some .empty) (.quiet 5 0),
      .init (0, .hostToDev, 0) (some .empty) (.quiet 6 1)] _ rfl
  obtain ⟨hkeeps, -⟩ := hrun _ rfl
  have htable := congrFun (hkeeps.table (by decide)) (0, .hostToDev, 0)
  revert htable
  decide

end HardwareDrivers.Libfpga
