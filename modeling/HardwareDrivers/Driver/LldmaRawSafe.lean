import HardwareDrivers.Driver.LldmaRaw

/-!
# What the calls need

When a call with any arguments is free of faults, and what the calls before it have to do
with it: the number of the channel in the private data of a file and the names in the
records come from them.

## What is proved

* `noFault_getQueue_iff` and the like — when each of the functions is free of faults.
* `noFault_ioctl_iff`, `ioctl_keeps` — what a command needs, and that it leaves names that
  end and numbers of channels.
* `lldma_safe_iff` — a run of calls is free of faults exactly if all its calls meet the
  condition.
-/

namespace HardwareDrivers.Driver.Raw

open Theory

/-! ### What a call needs -/

/-- The index is one of the arrays, and the name that is copied there if the channel is free has its
NUL. -/
def FpgaDevInfo.Takes (dev : FpgaDevInfo) (side : DmaSide) (i : ℕ) (connectorId : ConnectorName) :
    Prop :=
  ∃ chid : Chid, i = chid ∧ ((dev.queues side chid).status = .free → Terminated connectorId)

/-- The condition on a command. -/
def LldmaCmd.Meets (dev : FpgaDevInfo) (priv : XpcieFilePrivate) (env : CallEnv) : LldmaCmd → Prop
  | .allocQueue q =>
    env.copyFromUser = true → ∀ side ∈ q.dir.queueSide, dev.Takes side q.chid.toNat q.connectorId
  | .bindQueue _ => True
  | .freeQueue q =>
    env.copyFromUser = true → priv.queKind = some q.dir → ¬ TimesOut env.monitor →
      q.dir.anySide ≠ none → q.chid.toNat < xpcieMaxQueuePair
  | .allocConnection c =>
    env.copyFromUser = true → dev.devId ≠ c.peerMinor.toNat → env.baseaddr c.peerMinor.toNat ≠ 0 →
      (c.selfDir = .hostToDev ∨ c.selfDir = .devToHost) ∧
        dev.Takes c.selfDir.side c.selfChid.toNat c.connectorId
  | .freeConnection => True

/-- The condition on a step: a command meets its own; an area that is mapped is no smaller than the
memory of the queue, and the pages that are used behind it are, from the offset of the area on, in
the memory too. -/
def Meets (s : LldmaSystem) : LldmaOp → Prop
  | .cdevOpen _ | .vmaClose _ | .cdevRelease _ => True
  | .cdevIoctl fd env cmd => ∀ priv ∈ s.files fd, cmd.Meets s.dev priv env
  | .cdevMmap fd pages _ remap =>
    ∀ priv ∈ s.files fd, ∀ side ∈ mmapSide priv.queKind, ∀ chid : Chid,
      priv.chid.toNat = chid → remap = true → (s.dev.queues side chid).pages ≤ pages
  | .vmaFault vma page =>
    ∀ area ∈ s.vmas[vma]?, ∀ priv ∈ s.files area.fd, ∀ side ∈ mmapSide priv.queKind,
      ∀ chid : Chid, priv.chid.toNat = chid →
        (area.vmPgoff + BitVec.ofNat 52 page).toNat < (s.dev.queues side chid).pages

instance (dev : FpgaDevInfo) (side : DmaSide) (i : ℕ) (connectorId : ConnectorName) :
    Decidable (dev.Takes side i connectorId) := inferInstanceAs (Decidable (∃ _, _))

instance (dev : FpgaDevInfo) (priv : XpcieFilePrivate) (env : CallEnv) :
    ∀ cmd : LldmaCmd, Decidable (cmd.Meets dev priv env)
  | .allocQueue _ => inferInstanceAs (Decidable (_ → ∀ side ∈ _, _))
  | .bindQueue _ => isTrue trivial
  | .freeQueue _ => inferInstanceAs (Decidable (_ → _))
  | .allocConnection _ => inferInstanceAs (Decidable (_ → _))
  | .freeConnection => isTrue trivial

instance (s : LldmaSystem) : ∀ op : LldmaOp, Decidable (Meets s op)
  | .cdevOpen _ => isTrue trivial
  | .cdevIoctl .. => inferInstanceAs (Decidable (∀ priv ∈ _, _))
  | .cdevMmap .. => inferInstanceAs (Decidable (∀ priv ∈ _, ∀ side ∈ _, ∀ _, _))
  | .vmaFault .. =>
    inferInstanceAs (Decidable (∀ area ∈ _, ∀ priv ∈ _, ∀ side ∈ _, ∀ _, _))
  | .vmaClose _ => isTrue trivial
  | .cdevRelease _ => isTrue trivial

/-! ### The functions -/

variable {dev dev' : FpgaDevInfo} {priv priv' : XpcieFilePrivate} {env : CallEnv}

theorem noFault_entry_iff {i : ℕ} : NoFault (entry i) ↔ i < xpcieMaxQueuePair := noFault_indexed_iff

theorem entry_eq_ok {i : ℕ} {chid : Chid} : entry i = .ok chid ↔ i = chid := indexed_eq_ok

theorem stopQueue_cases (monitor : ℕ → BitVec 32) :
    (TimesOut monitor ∧ xpcieFpgaStopQueue monitor = .error .efault) ∨
      (¬ TimesOut monitor ∧ xpcieFpgaStopQueue monitor = .ok ()) := by
  unfold xpcieFpgaStopQueue
  split_ifs with h
  · exact .inl ⟨(drainLoop_eq_drainPolls_iff monitor).mp h, rfl⟩
  · exact .inr ⟨mt (drainLoop_eq_drainPolls_iff monitor).mpr h, rfl⟩

/-- Below the count the index is one of the arrays. -/
theorem queueSet_eq_ok (dev : FpgaDevInfo) (chid : BitVec 16) (dir : DmaDir) :
    queueSet dev chid dir = .ok () := by
  unfold queueSet
  split_ifs with hle
  · rfl
  · have hlt := (Nat.not_le.mp hle).trans_le dev.num_le
    have hentry : entry chid.toNat = .ok ⟨chid.toNat, hlt⟩ := indexed_of_lt hlt
    cases dir <;> simp [hentry, Except.map]

theorem startQueue_eq_ok (dev : FpgaDevInfo) (chid : BitVec 16) (dir : DmaDir) :
    xpcieFpgaStartQueue dev chid dir = .ok () := by
  unfold xpcieFpgaStartQueue
  split_ifs with hle
  · rfl
  · have hlt := (Nat.not_le.mp hle).trans_le dev.num_le
    have hentry : entry chid.toNat = .ok ⟨chid.toNat, hlt⟩ := indexed_of_lt hlt
    cases dir.queueSide with
    | none => rfl
    | some side =>
      simp only [hentry, queueSetAddr, queueSetCtrl, queueSet_eq_ok]
      rfl

/-- All stored names have their NUL. -/
def FpgaDevInfo.Tidy (dev : FpgaDevInfo) : Prop :=
  ∀ side chid, Terminated (dev.queues side chid).connectorId

theorem FpgaDevInfo.Tidy.setQueue (h : dev.Tidy) {side : DmaSide} {chid : Chid}
    {info : FpgaQueueEnqdeq} (hinfo : Terminated info.connectorId) :
    (dev.setQueue side chid info).Tidy := by
  intro s c
  simp only [FpgaDevInfo.setQueue]
  split_ifs
  · exact hinfo
  · exact h s c

theorem FpgaDevInfo.Tidy.take (h : dev.Tidy) {side : DmaSide} {chid : Chid}
    {connectorId name : ConnectorName}
    (hcopy : strcpy Fault.string (dev.queues side chid).connectorId connectorId = .ok name) :
    ((dev.setQueue side chid { dev.queues side chid with status := .used }).setQueue side chid
      { dev.queues side chid with status := .used, connectorId := name }).Tidy := by
  have hused : (dev.setQueue side chid { dev.queues side chid with status := .used }).Tidy :=
    h.setQueue (h side chid)
  exact hused.setQueue (terminated_of_strcpy hcopy)

/-- The part that `ALLOC_QUEUE` and `ALLOC_CONNECTION` share: the entry, the check that it is free
and the copy of the name. -/
theorem noFault_take_iff {β : Type} {side : DmaSide} {i : ℕ} {connectorId : ConnectorName}
    {refused : β} {taken : Chid → ConnectorName → β} :
    NoFault (do
      let chid ← entry i
      if (dev.queues side chid).status ≠ .free then .ok refused
      else
        let name ← strcpy Fault.string (dev.queues side chid).connectorId connectorId
        .ok (taken chid name)) ↔ dev.Takes side i connectorId := by
  simp only [noFault_bind, entry_eq_ok, FpgaDevInfo.Takes]
  refine exists_congr fun chid => and_congr_right fun _ => ?_
  by_cases hst : (dev.queues side chid).status = .free
  · simp only [hst, ne_eq, not_true_eq_false, if_false, noFault_bind, noFault_ok, and_true,
      true_implies]
    exact noFault_strcpy_iff
  · simp [hst]

/-- **`xpcie_fpga_get_queue`** is free of faults exactly if the channel is one and its name ends. -/
theorem noFault_getQueue_iff (dev : FpgaDevInfo) (q : FpgaIoctlQueue) :
    NoFault (xpcieFpgaGetQueue dev q) ↔
      ∀ side ∈ q.dir.queueSide, dev.Takes side q.chid.toNat q.connectorId := by
  unfold xpcieFpgaGetQueue
  cases q.dir.queueSide with
  | none => exact iff_of_true (noFault_ok _) nofun
  | some side =>
    simp only [startQueue_eq_ok, ok_bind, Option.mem_some_iff, forall_eq']
    exact noFault_take_iff

theorem getQueue_eq_ok {q : FpgaIoctlQueue} {r : Except Errno FpgaIoctlQueue}
    (h : xpcieFpgaGetQueue dev q = .ok (r, dev')) (ht : dev.Tidy) :
    dev'.Tidy ∧ ∀ q', r = .ok q' → q'.dir = q.dir ∧ q'.chid = q.chid ∧
      q.chid.toNat < xpcieMaxQueuePair := by
  unfold xpcieFpgaGetQueue at h
  cases hside : q.dir.queueSide with
  | none =>
    simp only [hside] at h
    cases h
    exact ⟨ht, nofun⟩
  | some side =>
    simp only [hside, bind_eq_ok, entry_eq_ok, startQueue_eq_ok] at h
    obtain ⟨chid, hchid, h⟩ := h
    split_ifs at h with hst
    · cases h
      exact ⟨ht, nofun⟩
    · simp only [ok_bind, bind_eq_ok] at h
      obtain ⟨connectorId, hcopy, h⟩ := h
      cases h
      refine ⟨ht.take hcopy, ?_⟩
      rintro _ ⟨⟩
      exact ⟨rfl, rfl, hchid ▸ chid.isLt⟩

/-- `xpcie_fpga_put_queue_info` in a known direction needs the index to be one of the arrays. -/
theorem noFault_putQueueInfo_iff (dev : FpgaDevInfo) (chid : BitVec 16) (dir : DmaDir) :
    NoFault (xpcieFpgaPutQueueInfo dev chid dir) ↔
      (dir.anySide ≠ none → chid.toNat < xpcieMaxQueuePair) := by
  unfold xpcieFpgaPutQueueInfo
  cases dir.anySide with
  | none => simp
  | some side =>
    simp only [noFault_bind, noFault_ok, and_true, ne_eq, reduceCtorEq, not_false_eq_true,
      true_implies]
    exact noFault_entry_iff

theorem putQueueInfo_eq_ok {chid : BitVec 16} {dir : DmaDir} {r : Except Errno Unit}
    (h : xpcieFpgaPutQueueInfo dev chid dir = .ok (r, dev')) (ht : dev.Tidy) : dev'.Tidy := by
  unfold xpcieFpgaPutQueueInfo at h
  cases hside : dir.anySide with
  | none =>
    simp only [hside] at h
    cases h
    exact ht
  | some side =>
    simp only [hside, bind_eq_ok] at h
    obtain ⟨i, -, h⟩ := h
    cases h
    exact ht.setQueue ⟨⟨0, by decide⟩, rfl⟩

theorem putQueue_eq (dev : FpgaDevInfo) (q : FpgaIoctlQueue) (monitor : ℕ → BitVec 32) :
    (TimesOut monitor ∧ xpcieFpgaPutQueue dev q monitor = .ok (.error .efault, dev)) ∨
      (¬ TimesOut monitor ∧ xpcieFpgaPutQueue dev q monitor =
        (xpcieFpgaPutQueueInfo dev q.chid q.dir).map fun p => (p.1.mapError fun _ => .ebusy, p.2)) := by
  rcases stopQueue_cases monitor with ⟨ht, hstop⟩ | ⟨ht, hstop⟩
  · exact .inl ⟨ht, by simp only [xpcieFpgaPutQueue, hstop]⟩
  · refine .inr ⟨ht, ?_⟩
    simp only [xpcieFpgaPutQueue, hstop]
    rcases xpcieFpgaPutQueueInfo dev q.chid q.dir with _ | ⟨_ | _, dev⟩
    · rfl
    · rfl
    · rfl

/-- **`xpcie_fpga_put_queue`** needs the same if the channel stops. -/
theorem noFault_putQueue_iff (dev : FpgaDevInfo) (q : FpgaIoctlQueue) (monitor : ℕ → BitVec 32) :
    NoFault (xpcieFpgaPutQueue dev q monitor) ↔
      (¬ TimesOut monitor → q.dir.anySide ≠ none → q.chid.toNat < xpcieMaxQueuePair) := by
  rcases putQueue_eq dev q monitor with ⟨ht, h⟩ | ⟨ht, h⟩
  · rw [h]
    exact iff_of_true (noFault_ok _) fun hno => absurd ht hno
  · rw [h, noFault_map, noFault_putQueueInfo_iff]
    exact ⟨fun hlt _ => hlt, fun hlt => hlt ht⟩

theorem putQueue_eq_ok {q : FpgaIoctlQueue} {monitor : ℕ → BitVec 32} {r : Except Errno Unit}
    (h : xpcieFpgaPutQueue dev q monitor = .ok (r, dev')) (ht : dev.Tidy) : dev'.Tidy := by
  rcases putQueue_eq dev q monitor with ⟨-, he⟩ | ⟨-, he⟩
  · rw [he] at h
    cases h
    exact ht
  · rw [he, map_eq_ok] at h
    obtain ⟨⟨r', mid⟩, hput, h⟩ := h
    cases h
    exact putQueueInfo_eq_ok hput ht

/-- **The scan** is free of faults because all names that it compares with end. -/
theorem noFault_scanLoop (ht : dev.Tidy) (connectorId : ConnectorName) (side : DmaSide)
    {l : List ℕ} (hl : ∀ i ∈ l, i < xpcieMaxQueuePair) :
    NoFault (scanLoop dev connectorId side l) := by
  induction l with
  | nil => exact noFault_ok _
  | cons i is ih =>
    have hi := hl i (List.mem_cons_self ..)
    obtain ⟨equal, hequal⟩ :
        NoFault (strcmp Fault.string (dev.queues side ⟨i, hi⟩).connectorId connectorId) :=
      noFault_strcmp (ht side ⟨i, hi⟩)
    unfold scanLoop
    rw [entry, indexed_of_lt hi]
    simp only [ok_bind, hequal]
    cases equal with
    | true => exact noFault_ok _
    | false => exact ih fun j hj => hl j (List.mem_cons_of_mem _ hj)

theorem noFault_scanQueue (ht : dev.Tidy) (connectorId : ConnectorName) (side : DmaSide) :
    NoFault (xpcieFpgaScanQueue dev connectorId side) :=
  noFault_scanLoop ht connectorId side fun _ hi =>
    (List.mem_range.mp hi).trans_le dev.num_le

/-- **`xpcie_fpga_ref_queue`** returns an index of the arrays, or an error. -/
theorem refQueue_cases (ht : dev.Tidy) (q : FpgaIoctlQueue) :
    (∃ e, xpcieFpgaRefQueue dev q = .ok (.error e)) ∨
      ∃ q', xpcieFpgaRefQueue dev q = .ok (.ok q') ∧ q'.chid.toNat < xpcieMaxQueuePair := by
  have hlt : ∀ chid : Chid, (BitVec.ofNat 16 chid).toNat < xpcieMaxQueuePair := by
    intro chid
    rw [BitVec.toNat_ofNat]
    exact (Nat.mod_le ..).trans_lt chid.isLt
  obtain ⟨rx, hrx⟩ := noFault_scanQueue ht q.connectorId .rx
  obtain ⟨tx, htx⟩ := noFault_scanQueue ht q.connectorId .tx
  unfold xpcieFpgaRefQueue
  cases rx with
  | ok chid =>
    simp only [hrx, ok_bind]
    exact .inr ⟨_, rfl, hlt chid⟩
  | error _ =>
    cases tx with
    | ok chid =>
      simp only [hrx, htx, ok_bind]
      exact .inr ⟨_, rfl, hlt chid⟩
    | error e =>
      simp only [hrx, htx, ok_bind]
      exact .inl ⟨e, rfl⟩

/-- **`xpcie_fpga_dev_connect`** is free of faults under the same condition as
`xpcie_fpga_get_queue`. -/
theorem noFault_devConnect_iff (dev : FpgaDevInfo) (selfChid : BitVec 32) (dir : DmaDir)
    (connectorId : ConnectorName) :
    NoFault (xpcieFpgaDevConnect dev selfChid dir connectorId) ↔
      ∀ side ∈ dir.connectSide, dev.Takes side selfChid.toNat connectorId := by
  unfold xpcieFpgaDevConnect
  cases dir.connectSide with
  | none => exact iff_of_true (noFault_ok _) nofun
  | some side =>
    simp only [queueSetCtrl, queueSetAddr, queueSet_eq_ok, ok_bind, Option.mem_some_iff,
      forall_eq']
    exact noFault_take_iff

theorem devConnect_eq_ok {selfChid : BitVec 32} {dir : DmaDir} {connectorId : ConnectorName}
    {r : Except Errno Unit} (h : xpcieFpgaDevConnect dev selfChid dir connectorId = .ok (r, dev'))
    (ht : dev.Tidy) : dev'.Tidy ∧ (r = .ok () → selfChid.toNat < xpcieMaxQueuePair) := by
  unfold xpcieFpgaDevConnect at h
  cases hside : dir.connectSide with
  | none =>
    simp only [hside] at h
    cases h
    exact ⟨ht, nofun⟩
  | some side =>
    simp only [hside, bind_eq_ok, entry_eq_ok, queueSetCtrl, queueSetAddr, queueSet_eq_ok] at h
    obtain ⟨chid, hchid, h⟩ := h
    split_ifs at h with hst
    · cases h
      exact ⟨ht, nofun⟩
    · simp only [ok_bind, bind_eq_ok] at h
      obtain ⟨connectorId, hcopy, h⟩ := h
      cases h
      exact ⟨ht.take hcopy, fun _ => hchid ▸ chid.isLt⟩

theorem toNat_setWidth16 {chid : BitVec 32} (h : chid.toNat < xpcieMaxQueuePair) :
    (chid.setWidth 16).toNat < xpcieMaxQueuePair := by
  rw [BitVec.toNat_setWidth]
  exact (Nat.mod_le ..).trans_lt h

/-- **`xpcie_fpga_dev_disconnect`** of a channel is free of faults. -/
theorem devDisconnect_cases (ht : dev.Tidy) {selfChid : BitVec 32}
    (hlt : selfChid.toNat < xpcieMaxQueuePair) (dir : DmaDir) (monitor : ℕ → BitVec 32) :
    ∃ r dev', xpcieFpgaDevDisconnect dev selfChid dir monitor = .ok (r, dev') ∧ dev'.Tidy := by
  rcases stopQueue_cases monitor with ⟨-, hstop⟩ | ⟨-, hstop⟩
  · exact ⟨.error .efault, dev, by simp only [xpcieFpgaDevDisconnect, hstop], ht⟩
  · obtain ⟨⟨r, mid⟩, hput⟩ :=
      (noFault_putQueueInfo_iff dev (selfChid.setWidth 16) dir).mpr fun _ => toNat_setWidth16 hlt
    refine ⟨.ok (), mid, ?_, putQueueInfo_eq_ok hput ht⟩
    simp only [xpcieFpgaDevDisconnect, hstop, hput, ok_bind]

/-! ### The commands -/

/-- The file is as it was opened, or it is bound to a channel. -/
def XpcieFilePrivate.Bounded (priv : XpcieFilePrivate) : Prop :=
  priv = .opened ∨ priv.chid.toNat < xpcieMaxQueuePair

theorem XpcieFilePrivate.Bounded.of_get (h : priv.Bounded) (hget : priv.isGetQueue ≠ false) :
    priv.chid.toNat < xpcieMaxQueuePair := by
  rcases h with rfl | h
  · exact absurd rfl hget
  · exact h

theorem XpcieFilePrivate.Bounded.of_mmapSide {side : DmaSide} (h : priv.Bounded)
    (hside : mmapSide priv.queKind = some side) : priv.chid.toNat < xpcieMaxQueuePair := by
  rcases h with rfl | h
  · cases hside
  · exact h

/-- A channel of `ALLOC_QUEUE` stays one when it is stopped again. -/
theorem FpgaDevInfo.Takes.lt {side : DmaSide} {i : ℕ} {connectorId : ConnectorName}
    (h : dev.Takes side i connectorId) : i < xpcieMaxQueuePair := by
  obtain ⟨chid, rfl, -⟩ := h
  exact chid.isLt

theorem noFault_allocQueue_iff (ht : dev.Tidy) (q : FpgaIoctlQueue) :
    NoFault (ioctlAllocQueue dev priv env q) ↔ (LldmaCmd.allocQueue q).Meets dev priv env := by
  unfold ioctlAllocQueue LldmaCmd.Meets
  by_cases hfrom : env.copyFromUser = false
  · simp [hfrom]
  · rw [if_neg hfrom]
    simp only [Bool.not_eq_false] at hfrom
    simp only [hfrom, true_implies, ← noFault_getQueue_iff, noFault_bind]
    constructor
    · exact fun ⟨r, hr, _⟩ => ⟨r, hr⟩
    · intro ⟨⟨r, dev'⟩, hget⟩
      refine ⟨_, hget, ?_⟩
      cases r with
      | error e => exact noFault_ok _
      | ok q' =>
        obtain ⟨-, hlt⟩ := getQueue_eq_ok hget ht
        obtain ⟨-, hchid, hlt⟩ := hlt q' rfl
        simp only
        split_ifs
        · -- the channel is put back by the same number
          obtain ⟨⟨r, last⟩, hput⟩ :=
            (noFault_putQueue_iff dev' q' env.monitor).mpr fun _ _ => hchid ▸ hlt
          rw [hput]
          exact noFault_ok _
        · exact noFault_ok _

theorem allocQueue_keeps {q : FpgaIoctlQueue} {r : Except Errno (Option FpgaIoctlQueue)}
    (h : ioctlAllocQueue dev priv env q = .ok (r, dev', priv')) (ht : dev.Tidy) (hp : priv.Bounded) :
    dev'.Tidy ∧ priv'.Bounded := by
  unfold ioctlAllocQueue at h
  by_cases hfrom : env.copyFromUser = false
  · rw [if_pos hfrom] at h
    cases h
    exact ⟨ht, hp⟩
  · rw [if_neg hfrom] at h
    obtain ⟨⟨r, mid⟩, hget, h⟩ := bind_eq_ok.mp h
    obtain ⟨hmid, hlt⟩ := getQueue_eq_ok hget ht
    cases r with
    | error e =>
      cases h
      exact ⟨hmid, hp⟩
    | ok q' =>
      simp only at h
      split_ifs at h
      · obtain ⟨⟨r, last⟩, hput, h⟩ := bind_eq_ok.mp h
        cases h
        exact ⟨putQueue_eq_ok hput hmid, hp⟩
      · cases h
        obtain ⟨-, hchid, hlt⟩ := hlt q' rfl
        refine ⟨hmid, .inr ?_⟩
        simp only [BitVec.toNat_setWidth]
        rw [← hchid] at hlt
        exact (Nat.mod_le ..).trans_lt hlt

theorem noFault_bindQueue (ht : dev.Tidy) (q : FpgaIoctlQueue) :
    NoFault (ioctlBindQueue dev priv env q) := by
  unfold ioctlBindQueue
  by_cases hfrom : env.copyFromUser = false
  · rw [if_pos hfrom]
    exact noFault_ok _
  · rw [if_neg hfrom]
    rcases refQueue_cases ht q with ⟨e, hr⟩ | ⟨q', hr, -⟩
    · rw [hr]
      exact noFault_ok _
    · simp only [hr, ok_bind]
      split_ifs
      · exact noFault_ok _
      · exact noFault_ok _

theorem bindQueue_keeps {q : FpgaIoctlQueue} {r : Except Errno (Option FpgaIoctlQueue)}
    (h : ioctlBindQueue dev priv env q = .ok (r, dev', priv')) (ht : dev.Tidy) (hp : priv.Bounded) :
    dev'.Tidy ∧ priv'.Bounded := by
  unfold ioctlBindQueue at h
  by_cases hfrom : env.copyFromUser = false
  · rw [if_pos hfrom] at h
    cases h
    exact ⟨ht, hp⟩
  · rw [if_neg hfrom] at h
    rcases refQueue_cases ht q with ⟨e, hr⟩ | ⟨q', hr, hlt⟩
    · rw [hr] at h
      cases h
      exact ⟨ht, hp⟩
    · simp only [hr, ok_bind] at h
      split_ifs at h
      · cases h
        exact ⟨ht, hp⟩
      · cases h
        refine ⟨ht, .inr ?_⟩
        simp only [BitVec.toNat_setWidth]
        exact (Nat.mod_le ..).trans_lt hlt

theorem noFault_freeQueue_iff (q : FpgaIoctlQueue) :
    NoFault (ioctlFreeQueue dev priv env q) ↔ (LldmaCmd.freeQueue q).Meets dev priv env := by
  unfold ioctlFreeQueue LldmaCmd.Meets
  by_cases hfrom : env.copyFromUser = false
  · simp [hfrom]
  · rw [if_neg hfrom]
    simp only [Bool.not_eq_false] at hfrom
    by_cases hkind : priv.queKind = some q.dir
    · rw [if_neg (not_not.mpr hkind)]
      simp only [hfrom, hkind, true_implies, ← noFault_putQueue_iff dev q env.monitor, noFault_bind]
      constructor
      · exact fun ⟨r, hr, _⟩ => ⟨r, hr⟩
      · rintro ⟨⟨_ | _, dev'⟩, hput⟩
        · exact ⟨_, hput, noFault_ok _⟩
        · exact ⟨_, hput, noFault_ok _⟩
    · rw [if_pos hkind]
      exact iff_of_true (noFault_ok _) fun _ h => absurd h hkind

theorem freeQueue_keeps {q : FpgaIoctlQueue} {r : Except Errno (Option FpgaIoctlQueue)}
    (h : ioctlFreeQueue dev priv env q = .ok (r, dev', priv')) (ht : dev.Tidy) (hp : priv.Bounded) :
    dev'.Tidy ∧ priv'.Bounded := by
  unfold ioctlFreeQueue at h
  split_ifs at h
  · cases h
    exact ⟨ht, hp⟩
  · cases h
    exact ⟨ht, hp⟩
  · obtain ⟨⟨_ | _, mid⟩, hput, h⟩ := bind_eq_ok.mp h
    · cases h
      exact ⟨putQueue_eq_ok hput ht, hp⟩
    · cases h
      exact ⟨putQueue_eq_ok hput ht, .inl rfl⟩

/-- The direction is set exactly if it is one of the two, and then it has a side. -/
theorem connectDir_cases (c : FpgaIoctlConnect) :
    (¬ (c.selfDir = .hostToDev ∨ c.selfDir = .devToHost) ∧ c.dir = .error .unset) ∨
      ((c.selfDir = .hostToDev ∨ c.selfDir = .devToHost) ∧
        ∃ dir, c.dir = .ok dir ∧ dir.connectSide = some c.selfDir.side) := by
  unfold FpgaIoctlConnect.dir
  cases hdir : c.selfDir with
  | hostToDev => exact .inr ⟨.inl rfl, _, rfl, by split_ifs <;> rfl⟩
  | devToHost => exact .inr ⟨.inr rfl, _, rfl, by split_ifs <;> rfl⟩
  | _ => exact .inl ⟨by simp, rfl⟩

theorem noFault_allocConnection_iff (c : FpgaIoctlConnect) :
    NoFault (ioctlAllocConnection dev priv env c) ↔
      (LldmaCmd.allocConnection c).Meets dev priv env := by
  unfold ioctlAllocConnection LldmaCmd.Meets
  by_cases hfrom : env.copyFromUser = false
  · simp [hfrom]
  rw [if_neg hfrom]
  by_cases hid : dev.devId = c.peerMinor.toNat
  · simp [hid]
  rw [if_neg hid]
  by_cases haddr : env.baseaddr c.peerMinor.toNat = 0
  · simp [haddr]
  rw [if_neg haddr]
  simp only [Bool.not_eq_false] at hfrom
  simp only [hfrom, hid, haddr, ne_eq, not_false_eq_true, true_implies]
  rcases connectDir_cases c with ⟨hno, hdir⟩ | ⟨hyes, dir, hdir, hside⟩
  · rw [hdir]
    exact iff_of_false (not_noFault_error _) fun h => hno h.1
  · have hconnect := noFault_devConnect_iff dev c.selfChid dir c.connectorId
    simp only [hside, Option.mem_some_iff, forall_eq'] at hconnect
    simp only [hdir, ok_bind, hyes, true_and, ← hconnect, noFault_bind]
    constructor
    · exact fun ⟨r, hr, _⟩ => ⟨r, hr⟩
    · rintro ⟨⟨_ | _, dev'⟩, hr⟩
      · exact ⟨_, hr, noFault_ok _⟩
      · exact ⟨_, hr, noFault_ok _⟩

theorem allocConnection_keeps {c : FpgaIoctlConnect} {r : Except Errno (Option FpgaIoctlQueue)}
    (h : ioctlAllocConnection dev priv env c = .ok (r, dev', priv')) (ht : dev.Tidy)
    (hp : priv.Bounded) : dev'.Tidy ∧ priv'.Bounded := by
  unfold ioctlAllocConnection at h
  split_ifs at h
  · cases h
    exact ⟨ht, hp⟩
  · cases h
    exact ⟨ht, hp⟩
  · cases h
    exact ⟨ht, hp⟩
  · obtain ⟨dir, -, h⟩ := bind_eq_ok.mp h
    obtain ⟨⟨_ | _, mid⟩, hconnect, h⟩ := bind_eq_ok.mp h
    · cases h
      exact ⟨(devConnect_eq_ok hconnect ht).1, hp⟩
    · cases h
      obtain ⟨hmid, hlt⟩ := devConnect_eq_ok hconnect ht
      exact ⟨hmid, .inr (hlt rfl)⟩

theorem freeConnection_cases (env : CallEnv) (ht : dev.Tidy) (hp : priv.Bounded) :
    ∃ r dev' priv', ioctlFreeConnection dev priv env = .ok (r, dev', priv') ∧ dev'.Tidy ∧
      priv'.Bounded := by
  unfold ioctlFreeConnection
  split_ifs with hget
  · exact ⟨_, _, _, rfl, ht, hp⟩
  · obtain ⟨r, mid, hr, hmid⟩ := devDisconnect_cases ht (hp.of_get hget) priv.dir env.monitor
    cases r with
    | error e => exact ⟨.error e, mid, priv, by simp only [hr, ok_bind], hmid, hp⟩
    | ok _ => exact ⟨.ok none, mid, .opened, by simp only [hr, ok_bind], hmid, .inl rfl⟩

/-- **A command** is free of faults exactly if it meets its condition. -/
theorem noFault_ioctl_iff (ht : dev.Tidy) (hp : priv.Bounded) (cmd : LldmaCmd) :
    NoFault (xpcieFpgaIoctlLldma dev priv env cmd) ↔ cmd.Meets dev priv env := by
  cases cmd with
  | allocQueue q => exact noFault_allocQueue_iff ht q
  | bindQueue q => exact iff_of_true (noFault_bindQueue ht q) trivial
  | freeQueue q => exact noFault_freeQueue_iff q
  | allocConnection c => exact noFault_allocConnection_iff c
  | freeConnection =>
    obtain ⟨r, mid, priv', h, -⟩ := freeConnection_cases env ht hp
    exact iff_of_true ⟨_, h⟩ trivial

/-- **A command** leaves names that end, and a number of a channel. -/
theorem ioctl_keeps {cmd : LldmaCmd} {r : Except Errno (Option FpgaIoctlQueue)}
    (h : xpcieFpgaIoctlLldma dev priv env cmd = .ok (r, dev', priv')) (ht : dev.Tidy)
    (hp : priv.Bounded) : dev'.Tidy ∧ priv'.Bounded := by
  cases cmd with
  | allocQueue q => exact allocQueue_keeps h ht hp
  | bindQueue q => exact bindQueue_keeps h ht hp
  | freeQueue q => exact freeQueue_keeps h ht hp
  | allocConnection c => exact allocConnection_keeps h ht hp
  | freeConnection =>
    obtain ⟨r', mid, priv'', h', hmid, hp'⟩ := freeConnection_cases env ht hp
    obtain ⟨-, rfl, rfl⟩ := (Prod.mk.inj (Except.ok.inj (h'.symm.trans h))).imp_right Prod.mk.inj
    exact ⟨hmid, hp'⟩

/-! ### `close` and `mmap` -/

theorem release_cases (ht : dev.Tidy) (hp : priv.Bounded) :
    ∃ dev', xpcieCdevRelease dev priv = .ok dev' ∧ dev'.Tidy := by
  unfold xpcieCdevRelease
  split_ifs with hget
  · exact ⟨dev, rfl, ht⟩
  · obtain ⟨⟨r, mid⟩, hput⟩ := (noFault_putQueueInfo_iff dev (priv.chid.setWidth 16) priv.dir).mpr
      fun _ => toNat_setWidth16 (hp.of_get hget)
    exact ⟨mid, by simp only [hput, ok_bind], putQueueInfo_eq_ok hput ht⟩

theorem noFault_mapPages_iff {info : FpgaQueueEnqdeq} {pages : ℕ} {maps : List (ℕ × Page)} :
    NoFault (mapPages info pages maps) ↔ MapsInside info pages maps := by
  unfold mapPages
  split_ifs with h
  · exact iff_of_true (noFault_ok _) h
  · exact iff_of_false (not_noFault_error _) h

theorem holds_add {info : FpgaQueueEnqdeq} {offset : Page} :
    info.Holds (info.que + offset) ↔ offset.toNat < info.pages := by
  rw [FpgaQueueEnqdeq.Holds, BitVec.add_comm, BitVec.add_sub_cancel]

/-- The memory of a queue, mapped from the start of an area, lies inside exactly if the area is no
smaller. -/
theorem mapsInside_remap_iff {info : FpgaQueueEnqdeq} {pages : ℕ} :
    MapsInside info pages (remapPfnRange info.que info.qpMemSize) ↔ info.pages ≤ pages := by
  simp only [MapsInside, remapPfnRange, List.mem_map, List.mem_range, forall_exists_index, and_imp,
    forall_apply_eq_imp_iff₂, holds_add]
  constructor
  · intro h
    by_contra hlt
    exact absurd (h pages (Nat.not_le.mp hlt)).1 (Nat.lt_irrefl _)
  · intro hle k hk
    refine ⟨hk.trans_le hle, ?_⟩
    rw [BitVec.toNat_ofNat]
    exact (Nat.mod_le ..).trans_lt hk

theorem forall_chid_iff {i : ℕ} (hlt : i < xpcieMaxQueuePair) {P : Chid → Prop} :
    (∀ chid : Chid, i = chid → P chid) ↔ P ⟨i, hlt⟩ := by
  constructor
  · exact fun h => h _ rfl
  · intro h chid hc
    obtain rfl : chid = ⟨i, hlt⟩ := Fin.ext hc.symm
    exact h

/-- **`xpcie_cdev_mmap`** is free of faults exactly if the area is no smaller than the queue. -/
theorem noFault_mmap_iff (hp : priv.Bounded) (pages : ℕ) (remap : Bool) :
    NoFault (xpcieCdevMmap dev priv pages remap) ↔
      ∀ side ∈ mmapSide priv.queKind, ∀ chid : Chid, priv.chid.toNat = chid → remap = true →
        (dev.queues side chid).pages ≤ pages := by
  unfold xpcieCdevMmap
  by_cases hneg : priv.chid.slt 0
  · rw [if_pos hneg]
    refine iff_of_true (noFault_ok _) fun side hside => ?_
    rcases hp with rfl | hlt
    · cases hside
    · -- a number of a channel is not negative
      have hneg : priv.chid.slt 0#32 = true := hneg
      rw [BitVec.slt_zero_iff_msb_cond, BitVec.msb_eq_decide] at hneg
      have hbig := of_decide_eq_true hneg
      exact absurd (hlt.trans_le (by decide : xpcieMaxQueuePair ≤ 2 ^ 31)) (Nat.not_lt.mpr hbig)
  · rw [if_neg hneg]
    cases hside : mmapSide priv.queKind with
    | none => exact iff_of_true (noFault_ok _) nofun
    | some side =>
      have hlt := hp.of_mmapSide hside
      have hentry : entry priv.chid.toNat = .ok ⟨priv.chid.toNat, hlt⟩ := indexed_of_lt hlt
      simp only [hentry, ok_bind, Option.mem_some_iff, forall_eq']
      rw [forall_chid_iff hlt]
      cases remap with
      | false => simp
      | true =>
        simp only [Bool.true_eq_false, if_false, noFault_bind, noFault_ok, and_true, true_implies,
          ← mapsInside_remap_iff]
        exact noFault_mapPages_iff

/-- **`xpcie_vma_fault`** is free of faults exactly if the page is one of the queue. -/
theorem noFault_vmaFault_iff (hp : priv.Bounded) {vma : VmArea} {page : ℕ} (hpage : page < vma.pages) :
    NoFault (xpcieVmaFault dev priv vma page) ↔
      ∀ side ∈ mmapSide priv.queKind, ∀ chid : Chid, priv.chid.toNat = chid →
        (vma.vmPgoff + BitVec.ofNat 52 page).toNat < (dev.queues side chid).pages := by
  unfold xpcieVmaFault
  cases hside : mmapSide priv.queKind with
  | none => exact iff_of_true (noFault_ok _) nofun
  | some side =>
    have hlt := hp.of_mmapSide hside
    have hentry : entry priv.chid.toNat = .ok ⟨priv.chid.toNat, hlt⟩ := indexed_of_lt hlt
    simp only [hentry, ok_bind, Option.mem_some_iff, forall_eq', noFault_bind, noFault_ok, and_true]
    refine noFault_mapPages_iff.trans ?_
    simp only [MapsInside, List.mem_singleton, forall_eq, hpage, true_and, holds_add]
    rw [forall_chid_iff hlt]

/-! ### Runs -/

/-- All stored names end, and all files are bound to channels or to none. -/
structure LldmaSystem.Bounded (s : LldmaSystem) : Prop where
  /-- The names. -/
  tidy : s.dev.Tidy
  /-- The files. -/
  files : ∀ fd priv, s.files fd = some priv → priv.Bounded

theorem bounded_init (devId : ℕ) (regs : LldmaRegs) (que : DmaSide → Chid → Page) :
    (LldmaSystem.init devId regs que).Bounded :=
  ⟨fun _ _ => ⟨⟨0, by decide⟩, rfl⟩, nofun⟩

variable {s t : LldmaSystem}

theorem LldmaSystem.Bounded.update (h : s.Bounded) (hdev : dev.Tidy) {fd : ℕ}
    {file : Option XpcieFilePrivate} (hfile : ∀ priv, file = some priv → priv.Bounded) :
    LldmaSystem.Bounded { s with dev, files := Function.update s.files fd file } where
  tidy := hdev
  files fd' priv hf := by
    rcases update_cases (· = some priv) hf with ⟨-, hf⟩ | ⟨-, hf⟩
    · exact hfile priv hf
    · exact h.files fd' priv hf

/-- **A step** keeps the names and the numbers. -/
theorem LldmaSystem.Bounded.step (h : s.Bounded) {op : LldmaOp}
    (ht : lldmaExec s op = some (.ok t)) : t.Bounded := by
  cases op with
  | cdevOpen fd =>
    simp only [lldmaExec] at ht
    cases hf : s.files fd with
    | some priv => simp [hf] at ht
    | none =>
      simp only [hf] at ht
      cases ht
      refine h.update h.tidy ?_
      rintro _ ⟨⟩
      exact .inl rfl
  | cdevIoctl fd env cmd =>
    obtain ⟨priv, hf, ht⟩ := Option.map_eq_some_iff.mp ht
    obtain ⟨⟨r, dev, priv'⟩, hr, ht⟩ := bind_eq_ok.mp ht
    cases ht
    obtain ⟨hdev, hp⟩ := ioctl_keeps hr h.tidy (h.files fd priv hf)
    refine h.update hdev ?_
    rintro _ ⟨⟩
    exact hp
  | cdevMmap fd pages vmPgoff remap =>
    obtain ⟨priv, hf, ht⟩ := Option.map_eq_some_iff.mp ht
    obtain ⟨mapped, -, ht⟩ := bind_eq_ok.mp ht
    cases mapped with
    | none =>
      cases ht
      exact h
    | some mapped =>
      cases ht
      exact ⟨h.tidy, h.files⟩
  | vmaFault vma page =>
    simp only [lldmaExec] at ht
    cases hv : s.vmas[vma]? with
    | none => simp [hv] at ht
    | some vma =>
      simp only [hv, Option.ite_none_right_eq_some, Option.map_eq_some_iff] at ht
      obtain ⟨-, priv, -, ht⟩ := ht
      obtain ⟨-, -, ht⟩ := bind_eq_ok.mp ht
      cases ht
      exact h
  | vmaClose vma =>
    cases ht
    exact ⟨h.tidy, h.files⟩
  | cdevRelease fd =>
    simp only [lldmaExec, Option.ite_none_right_eq_some, Option.map_eq_some_iff] at ht
    obtain ⟨-, priv, hf, ht⟩ := ht
    obtain ⟨dev, hr, hdev⟩ := release_cases h.tidy (h.files fd priv hf)
    rw [hr] at ht
    cases ht
    exact h.update hdev nofun

/-- **A step** is free of faults exactly if it meets the condition. -/
theorem lldmaExec_noFault_iff (h : s.Bounded) {op : LldmaOp} {r : Except Fault LldmaSystem}
    (hr : lldmaExec s op = some r) : NoFault r ↔ Meets s op := by
  cases op with
  | cdevOpen fd =>
    simp only [lldmaExec] at hr
    cases hf : s.files fd with
    | some priv => simp [hf] at hr
    | none =>
      simp only [hf] at hr
      cases hr
      exact iff_of_true (noFault_ok _) trivial
  | cdevIoctl fd env cmd =>
    obtain ⟨priv, hf, rfl⟩ := Option.map_eq_some_iff.mp hr
    have hmeets : Meets s (.cdevIoctl fd env cmd) ↔ cmd.Meets s.dev priv env := by
      simp only [Meets, hf, Option.mem_some_iff, forall_eq']
    rw [hmeets, ← noFault_ioctl_iff h.tidy (h.files fd priv hf)]
    simp only [noFault_bind, noFault_ok, and_true]
    rfl
  | cdevMmap fd pages vmPgoff remap =>
    obtain ⟨priv, hf, rfl⟩ := Option.map_eq_some_iff.mp hr
    have hmeets : Meets s (.cdevMmap fd pages vmPgoff remap) ↔
        NoFault (xpcieCdevMmap s.dev priv pages remap) := by
      rw [noFault_mmap_iff (h.files fd priv hf)]
      simp only [Meets, hf, Option.mem_some_iff, forall_eq']
    rw [hmeets, noFault_bind]
    constructor
    · rintro ⟨mapped, hm, -⟩
      exact ⟨mapped, hm⟩
    · rintro ⟨_ | mapped, hm⟩
      · exact ⟨_, hm, noFault_ok _⟩
      · exact ⟨_, hm, noFault_ok _⟩
  | vmaFault i page =>
    simp only [lldmaExec] at hr
    cases hv : s.vmas[i]? with
    | none => simp [hv] at hr
    | some vma =>
      simp only [hv, Option.ite_none_right_eq_some, Option.map_eq_some_iff] at hr
      obtain ⟨⟨-, hpage⟩, priv, hf, rfl⟩ := hr
      have hmeets : Meets s (.vmaFault i page) ↔ NoFault (xpcieVmaFault s.dev priv vma page) := by
        rw [noFault_vmaFault_iff (h.files vma.fd priv hf) hpage]
        simp only [Meets, hv, hf, Option.mem_some_iff, forall_eq']
      rw [hmeets]
      simp only [noFault_bind, noFault_ok, and_true]
      rfl
  | vmaClose vma =>
    cases hr
    exact iff_of_true (noFault_ok _) trivial
  | cdevRelease fd =>
    simp only [lldmaExec, Option.ite_none_right_eq_some, Option.map_eq_some_iff] at hr
    obtain ⟨-, priv, hf, rfl⟩ := hr
    obtain ⟨dev, hrel, -⟩ := release_cases h.tidy (h.files fd priv hf)
    rw [hrel]
    exact iff_of_true (noFault_ok _) trivial

/-- **A run of calls with any arguments** is free of faults exactly if all its calls meet the
condition. -/
theorem lldma_safe_iff (devId : ℕ) (regs : LldmaRegs) (que : DmaSide → Chid → Page)
    (ops : List LldmaOp) :
    Always (faultStep lldmaExec) NoFault (.ok (.init devId regs que)) ops ↔
      Along (faultStep lldmaExec) (BeforeFault Meets) (.ok (.init devId regs que)) ops :=
  always_noFault_iff (fun _ _ _ h hr => lldmaExec_noFault_iff h hr) (fun _ _ _ h ht => h.step ht)
    (bounded_init devId regs que) ops

/-- A channel is taken under a name that ends, mapped in its four pages, and put back. -/
example : Along (faultStep lldmaExec) (BeforeFault Meets)
    (.ok (.init 0 (.reset 0xFFFF 0xFFFF) fun _ _ => 0))
    [.cdevOpen 3, .cdevIoctl 3 .quiet (.allocQueue ⟨.hostToDev, 7, 0, fun _ => 0⟩),
      .cdevMmap 3 4 0 true, .vmaClose 0,
      .cdevIoctl 3 .quiet (.freeQueue ⟨.hostToDev, 7, 0, fun _ => 0⟩), .cdevRelease 3] := by
  decide +kernel

/-- After `open` and a command: a channel with number 32, a name without a NUL, a connection in a
direction that is neither of the two, an area of one page, and the fifth page of an area of
eight. -/
theorem not_lldma_safe :
    ¬ ∃ ops ∈ ([
      [.cdevIoctl 3 .quiet (.allocQueue ⟨.hostToDev, 32, 0, fun _ => 0⟩)],
      [.cdevIoctl 3 .quiet (.allocQueue ⟨.hostToDev, 0, 0, fun _ => 97⟩)],
      [.cdevIoctl 3 { CallEnv.quiet with baseaddr := fun _ => 1 }
        (.allocConnection ⟨.nwToDev, 0, 1, 0, fun _ => 0⟩)],
      [.cdevIoctl 3 .quiet (.allocQueue ⟨.hostToDev, 0, 0, fun _ => 0⟩), .cdevMmap 3 1 0 true],
      [.cdevIoctl 3 .quiet (.allocQueue ⟨.hostToDev, 0, 0, fun _ => 0⟩), .cdevMmap 3 8 0 true,
        .vmaFault 0 4]] : List (List LldmaOp)),
      Always (faultStep lldmaExec) NoFault (.ok (.init 0 (.reset 0xFFFF 0xFFFF) fun _ _ => 0))
        (.cdevOpen 3 :: ops) := by
  decide +kernel

end HardwareDrivers.Driver.Raw
