import HardwareDrivers.Libfpga.ShmemManager

/-!
# The table of the managers

Each manager has an entry below the limit, under a prefix of its own, and the entries of no
child are empty. Every call keeps this, as long as a prefix has room in its entry and the
limit stays above the managers there are.

## What is proved

* `setManagerInfo_eq` — a prefix with room for its terminator changes its own entry alone.
* `Listed.reaped`, `Listed.mark`, `Listed.enter`, `Listed.setLimits` — what keeps the table.
* `Listed.init` — a new manager, or none, keeps it.
* `Entered.init` — so it is where the limit was lowered, if the prefix is not that of a manager there.
-/

namespace HardwareDrivers.Libfpga

/-- An entry that belongs to a child. -/
def ShmemManager.Active (s : ShmemManager) (index : ℕ) : Prop := 0 < (s.managerInfos index).pid

instance (s : ShmemManager) : DecidablePred s.Active := fun _ => inferInstanceAs (Decidable (_ < _))

/-- A table with a manager in each entry that is not empty, and whose loops and strings stay
inside it. -/
structure Listed (s : ShmemManager) : Prop where
  /-- Each manager has a prefix of its own. -/
  prefixes : ∀ i < shmemMaxHugepages, ∀ j < shmemMaxHugepages, s.Active i → s.Active j →
    (s.managerInfos i).filePrefix = (s.managerInfos j).filePrefix → i = j
  /-- No manager is at the limit of all or beyond. -/
  below : ∀ i < shmemMaxHugepages, s.Active i → i < s.limit
  /-- The loops end where the table does, or before. -/
  limit_le : s.limit ≤ shmemMaxHugepages
  /-- An entry of no child is empty. -/
  free : ∀ i < shmemMaxHugepages, ¬ s.Active i → ∃ value, s.managerInfos i = .marked value
  /-- A prefix has room for its terminator, and is not empty. -/
  named : ∀ i < shmemMaxHugepages, s.Active i → (s.managerInfos i).filePrefix ≠ [] ∧
    (s.managerInfos i).filePrefix.length < shmemMaxHugepagePrefix

variable {s t : ShmemManager}

/-! ### Fewer managers -/

theorem Reaped.active (h : Reaped s t) {i : ℕ} (hi : t.Active i) :
    s.Active i ∧ t.managerInfos i = s.managerInfos i := by
  obtain he | ⟨hpid, hzero⟩ := h.entry i
  · unfold ShmemManager.Active at hi ⊢
    rw [← he]
    exact ⟨hi, rfl⟩
  · unfold ShmemManager.Active at hi
    rw [hzero] at hi
    exact absurd hi (lt_irrefl 0)

/-- An entry without a prefix is that of no child. -/
theorem Listed.marked_of_prefix (h : Listed s) {i : ℕ} (hi : i < shmemMaxHugepages)
    (hempty : (s.managerInfos i).filePrefix = []) : ∃ value, s.managerInfos i = .marked value :=
  h.free i hi fun ha => (h.named i hi ha).1 hempty

/-- What `strcmp` reads of an entry of the table is its prefix. -/
theorem Listed.prefixString_eq (h : Listed s) {i : ℕ} (hi : i < shmemMaxHugepages)
    (ha : s.Active i) : prefixString s.managerInfos i = (s.managerInfos i).filePrefix :=
  if_pos (h.named i hi ha).2

/-- **Clearing entries keeps the table.** -/
theorem Listed.reaped (h : Listed s) (hr : Reaped s t) : Listed t where
  prefixes i hi j hj hai haj heq := by
    obtain ⟨hsi, hei⟩ := hr.active hai
    obtain ⟨hsj, hej⟩ := hr.active haj
    rw [hei, hej] at heq
    exact h.prefixes i hi j hj hsi hsj heq
  below i hi ha := by
    rw [hr.limit]
    exact h.below i hi (hr.active ha).1
  limit_le := by
    rw [hr.limit]
    exact h.limit_le
  free i hi hactive := by
    obtain he | ⟨-, hzero⟩ := hr.entry i
    · unfold ShmemManager.Active at hactive
      rw [he] at hactive ⊢
      exact h.free i hi hactive
    · exact ⟨0, hzero⟩
  named i hi ha := by
    obtain ⟨hs, he⟩ := hr.active ha
    rw [he]
    exact h.named i hi hs

/-! ### The mark of an entry -/

theorem setInitialized_self {index : ℕ} {value : BitVec 32}
    (hempty : s.managerInfos index = .marked value) (value' : BitVec 32) :
    (setInitialized index value' s).managerInfos index = .marked value' := by
  refine (Function.update_self ..).trans ?_
  rw [hempty]
  rfl

theorem setInitialized_of_ne {index i : ℕ} (hi : i ≠ index) (value : BitVec 32) :
    (setInitialized index value s).managerInfos i = s.managerInfos i := Function.update_of_ne hi ..

theorem active_setInitialized {index i : ℕ} {value value' : BitVec 32}
    (hempty : s.managerInfos index = .marked value)
    (ha : (setInitialized index value' s).Active i) :
    s.Active i ∧ (setInitialized index value' s).managerInfos i = s.managerInfos i := by
  unfold ShmemManager.Active at ha ⊢
  by_cases hi : i = index
  · rw [hi, setInitialized_self hempty] at ha
    exact absurd ha (lt_irrefl 0)
  · rw [setInitialized_of_ne hi] at ha ⊢
    exact ⟨ha, rfl⟩

theorem setInitialized_socketLimit {index : ℕ} {value : BitVec 32}
    (hempty : s.managerInfos index = .marked value) (value' : BitVec 32) (i k : ℕ) :
    ((setInitialized index value' s).managerInfos i).socketLimit k =
      (s.managerInfos i).socketLimit k := by
  by_cases hi : i = index
  · rw [hi, setInitialized_self hempty, hempty]
    rfl
  · rw [setInitialized_of_ne hi]

/-- The mark of an entry of no child is no matter. -/
theorem Listed.mark (h : Listed s) {index : ℕ} {value : BitVec 32}
    (hempty : s.managerInfos index = .marked value) (value' : BitVec 32) :
    Listed (setInitialized index value' s) where
  prefixes i hi j hj hai haj heq := by
    obtain ⟨hsi, hei⟩ := active_setInitialized hempty hai
    obtain ⟨hsj, hej⟩ := active_setInitialized hempty haj
    rw [hei, hej] at heq
    exact h.prefixes i hi j hj hsi hsj heq
  below i hi ha := h.below i hi (active_setInitialized hempty ha).1
  limit_le := h.limit_le
  free i hi ha := by
    by_cases hii : i = index
    · exact ⟨value', hii ▸ setInitialized_self hempty value'⟩
    · rw [setInitialized_of_ne hii]
      refine h.free i hi fun hs => ha ?_
      unfold ShmemManager.Active at hs ⊢
      rwa [setInitialized_of_ne hii]
  named i hi ha := by
    obtain ⟨hs, he⟩ := active_setInitialized hempty ha
    rw [he]
    exact h.named i hi hs

/-! ### A new manager -/

theorem setInfo_self (index : ℕ) (info : ManagerInfo) (s : ShmemManager) :
    (s.setInfo index info).managerInfos index = info := Function.update_self ..

theorem setInfo_of_ne {index i : ℕ} (hi : i ≠ index) (info : ManagerInfo) (s : ShmemManager) :
    (s.setInfo index info).managerInfos i = s.managerInfos i := Function.update_of_ne hi ..

theorem active_setInfo_of_ne {index i : ℕ} (hi : i ≠ index) (info : ManagerInfo)
    (s : ShmemManager) : (s.setInfo index info).Active i ↔ s.Active i := by
  unfold ShmemManager.Active
  rw [setInfo_of_ne hi]

/-- **A manager in an empty entry, under a new prefix.** -/
theorem Listed.enter (h : Listed s) {index : ℕ} {info : ManagerInfo} (hindex : index < s.limit)
    (hpid : 0 < info.pid)
    (hname : info.filePrefix ≠ [] ∧ info.filePrefix.length < shmemMaxHugepagePrefix)
    (hfresh : ∀ i < s.limit, s.Active i → info.filePrefix ≠ (s.managerInfos i).filePrefix) :
    Listed (s.setInfo index info) := by
  refine ⟨fun i hi j hj hai haj heq => ?_, fun i hi ha => ?_, h.limit_le, fun i hi ha => ?_,
    fun i hi ha => ?_⟩
  · by_cases hii : i = index
    · subst hii
      by_cases hjj : j = i
      · exact hjj.symm
      · rw [setInfo_self, setInfo_of_ne hjj] at heq
        have hsj := (active_setInfo_of_ne hjj info s).mp haj
        exact absurd heq (hfresh j (h.below j hj hsj) hsj)
    · have hsi := (active_setInfo_of_ne hii info s).mp hai
      by_cases hjj : j = index
      · subst hjj
        rw [setInfo_self, setInfo_of_ne hii] at heq
        exact absurd heq.symm (hfresh i (h.below i hi hsi) hsi)
      · rw [setInfo_of_ne hii, setInfo_of_ne hjj] at heq
        exact h.prefixes i hi j hj hsi ((active_setInfo_of_ne hjj info s).mp haj) heq
  · by_cases hii : i = index
    · exact hii ▸ hindex
    · exact h.below i hi ((active_setInfo_of_ne hii info s).mp ha)
  · by_cases hii : i = index
    · subst hii
      unfold ShmemManager.Active at ha
      rw [setInfo_self] at ha
      exact absurd hpid ha
    · rw [setInfo_of_ne hii]
      exact h.free i hi fun hs => ha ((active_setInfo_of_ne hii info s).mpr hs)
  · by_cases hii : i = index
    · rw [hii, setInfo_self]
      exact hname
    · rw [setInfo_of_ne hii]
      exact h.named i hi ((active_setInfo_of_ne hii info s).mp ha)

theorem setSocketLimits_frame (n : ℕ) (r : ℕ → BitVec 32) (info : ManagerInfo) :
    (setSocketLimits n r info).pid = info.pid ∧
      (setSocketLimits n r info).filePrefix = info.filePrefix ∧
      ∀ k, (setSocketLimits n r info).socketLimit k = if k < n then r k else info.socketLimit k := by
  unfold setSocketLimits
  induction n with
  | zero => exact ⟨rfl, rfl, fun k => rfl⟩
  | succ n ih =>
    rw [List.range_succ, List.foldl_append, List.foldl_cons, List.foldl_nil]
    obtain ⟨hpid, hpre, hlimit⟩ := ih
    refine ⟨hpid, hpre, fun k => ?_⟩
    dsimp only
    by_cases hk : k = n
    · subst hk
      rw [Function.update_self, if_pos (Nat.lt_succ_self k)]
    · rw [Function.update_of_ne hk, hlimit]
      by_cases hlt : k < n
      · rw [if_pos hlt, if_pos (Nat.lt_succ_of_lt hlt)]
      · rw [if_neg hlt, if_neg (by omega)]

/-- A prefix that leaves room for its terminator changes its own entry alone. -/
theorem setManagerInfo_eq {p : CStr} (hlen : p.bytes.length < shmemMaxHugepagePrefix)
    (env : HealthEnv) (index : ℕ) (pid : ℤ) (socketLimit : Option (ℕ → BitVec 32))
    (s : ShmemManager) :
    ∃ info : ManagerInfo,
      setManagerInfo env index p pid socketLimit s = (checkHealth env s).setInfo index info ∧
        info.pid = pid ∧ info.filePrefix = p.bytes ∧
        ∀ k < (checkHealth env s).socketNum, info.socketLimit k =
          match socketLimit with
          | none => ((checkHealth env s).managerInfos index).socketLimit k
          | some r => r k := by
  unfold setManagerInfo strcpyPrefix
  simp only [if_neg hlen.ne, Function.update_self, Function.update_idem]
  cases socketLimit with
  | none => exact ⟨_, rfl, rfl, rfl, fun k _ => rfl⟩
  | some r =>
    refine ⟨_, rfl, ?_⟩
    obtain ⟨hpid, hpre, hlimit⟩ := setSocketLimits_frame (checkHealth env s).socketNum r
      { (checkHealth env s).managerInfos index with filePrefix := p.bytes, pid := pid, hpLimit := 0 }
    exact ⟨hpid, hpre, fun k hk => (hlimit k).trans (if_pos hk)⟩

/-- A child that was made is entered. -/
theorem Listed.setManagerInfo (h : Listed s) {index : ℕ} {p : CStr} {pid : ℤ} (env : HealthEnv)
    (hindex : index < s.limit) (hpid : 0 < pid)
    (hname : p.bytes ≠ [] ∧ p.bytes.length < shmemMaxHugepagePrefix)
    (hfresh : ∀ i < s.limit, s.Active i → p.bytes ≠ (s.managerInfos i).filePrefix)
    (socketLimit : Option (ℕ → BitVec 32)) :
    Listed (setManagerInfo env index p pid socketLimit s) := by
  have hr := checkHealth_reaps env s
  obtain ⟨info, heq, hipid, hiname, -⟩ := setManagerInfo_eq hname.2 env index pid socketLimit s
  rw [heq]
  refine (h.reaped hr).enter (hr.limit ▸ hindex) (hipid ▸ hpid) (hiname ▸ hname) fun i hi ha => ?_
  obtain ⟨hsa, hse⟩ := hr.active ha
  rw [hiname, hse]
  exact hfresh i (hr.limit ▸ hi) hsa

/-- The parent of a child that was made enters it, or leaves the table as it is. -/
theorem Listed.parentProcess (h : Listed s) {p : CStr} {pid : ℤ} (env : ManagerInitEnv)
    (hpid : 0 < pid) (hname : p.bytes ≠ [] ∧ p.bytes.length < shmemMaxHugepagePrefix)
    (hfresh : ∀ i < s.limit, s.Active i → p.bytes ≠ (s.managerInfos i).filePrefix)
    (socketLimit : Option (ℕ → BitVec 32)) :
    Listed (parentProcess env pid p socketLimit s).2 := by
  have hr := checkHealth_reaps env.index s
  have hu := h.reaped hr
  obtain heq | ⟨index, hindex, hname', hentry⟩ := parentProcess_cases env pid p socketLimit s
  · rw [heq]
    exact hu
  · obtain ⟨value, hempty⟩ := hu.marked_of_prefix (lt_of_lt_of_le hindex h.limit_le) hname'
    obtain heq | ⟨value', heq⟩ := hentry
    · rw [heq]
      exact hu.mark hempty 0
    · rw [heq]
      refine (hu.mark hempty value').setManagerInfo env.set (hr.limit ▸ hindex) hpid hname
        (fun i hi ha => ?_) socketLimit
      obtain ⟨hua, hue⟩ := active_setInitialized hempty ha
      obtain ⟨hsa, hse⟩ := hr.active hua
      rw [hue, hse]
      exact hfresh i (hr.limit ▸ hi) hsa

/-- A prefix that passes is that of no manager. -/
theorem Listed.fresh_of_pass (h : Listed s) {env : HealthEnv} {p : CStr}
    (hpass : (checkFilePrefix env (some p) s).1 = true) {i : ℕ} (hi : i < s.limit)
    (ha : (checkHealth env s).Active i) :
    p.bytes ≠ ((checkHealth env s).managerInfos i).filePrefix := by
  have hs := h.reaped (checkHealth_reaps env s)
  have hbelow := lt_of_lt_of_le hi h.limit_le
  obtain ⟨p', hp', -, hall⟩ := (checkFilePrefix_cases env (some p) s).2.mp hpass
  cases hp'
  obtain hempty | hne := hall i hi
  · exact absurd hempty (hs.named i hbelow ha).1
  · rwa [hs.prefixString_eq hbelow ha] at hne

/-- **A new manager, or none.** -/
theorem Listed.init (h : Listed s) {filePrefix : Option CStr} (env : ManagerInitEnv)
    (hname : ∀ p, filePrefix = some p → p.bytes ≠ [] ∧ p.bytes.length < shmemMaxHugepagePrefix)
    (socketLimit : Option (ℕ → BitVec 32)) :
    Listed (fpgaShmemManagerInit filePrefix socketLimit env s).2 := by
  have hq : env.All fun _ => True := ⟨trivial, trivial, fun _ => trivial, trivial, trivial⟩
  obtain hchecked | ⟨p, u, pid, rfl, hpass, hmemory, hpid, -, heq⟩ :=
    managerInit_cases hq filePrefix socketLimit s
  · exact h.reaped hchecked.reaped
  · have hr₁ := checkHealth_reaps env.filePrefix s
    have hr₂ := (checkMemory_checked hq socketLimit (checkHealth env.filePrefix s)).reaped
    rw [hmemory] at hr₂
    have hr₃ := reaped_of_children (s := u) (Function.update u.children pid .alive)
    rw [heq]
    refine (((h.reaped hr₁).reaped hr₂).reaped hr₃).parentProcess env hpid (hname p rfl)
      (fun i hi ha => ?_) socketLimit
    obtain ⟨hsa, hse⟩ := (hr₂.trans hr₃).active ha
    rw [hse]
    exact h.fresh_of_pass hpass (by rwa [(hr₂.trans hr₃).limit, hr₁.limit] at hi) hsa

/-! ### A lower limit -/

/-- The loops that go over the whole table. -/
def ShmemManager.widened (s : ShmemManager) : ShmemManager :=
  { s with hugepageLimit := BitVec.ofNat 32 shmemMaxHugepages }

/-- A table with a manager in each entry that is not empty; there may be managers at the limit or
beyond. -/
structure Entered (s : ShmemManager) : Prop where
  /-- With loops over all of it. -/
  table : Listed s.widened
  /-- The loops end where the table does, or before. -/
  limit_le : s.limit ≤ shmemMaxHugepages

theorem Listed.entered (h : Listed s) : Entered s :=
  ⟨⟨h.prefixes, fun _ hi _ => hi, le_refl shmemMaxHugepages, h.free, h.named⟩, h.limit_le⟩

theorem Reaped.widened (h : Reaped s t) : Reaped s.widened t.widened :=
  ⟨h.entry, rfl, h.socketLimit, h.socketNum⟩

theorem Entered.reaped (h : Entered s) (hr : Reaped s t) : Entered t :=
  ⟨h.table.reaped hr.widened, hr.limit ▸ h.limit_le⟩

theorem Entered.free (h : Entered s) {i : ℕ} (hi : i < shmemMaxHugepages) (ha : ¬ s.Active i) :
    ∃ value, s.managerInfos i = .marked value := h.table.free i hi ha

theorem Entered.named (h : Entered s) {i : ℕ} (hi : i < shmemMaxHugepages) (ha : s.Active i) :
    (s.managerInfos i).filePrefix ≠ [] ∧
      (s.managerInfos i).filePrefix.length < shmemMaxHugepagePrefix := h.table.named i hi ha

theorem Entered.marked_of_prefix (h : Entered s) {i : ℕ} (hi : i < s.limit)
    (hempty : (s.managerInfos i).filePrefix = []) : ∃ value, s.managerInfos i = .marked value :=
  h.table.marked_of_prefix (lt_of_lt_of_le hi h.limit_le) hempty

theorem Entered.prefixString_eq (h : Entered s) {i : ℕ} (hi : i < shmemMaxHugepages)
    (ha : s.Active i) : prefixString s.managerInfos i = (s.managerInfos i).filePrefix :=
  h.table.prefixString_eq (s := s.widened) hi ha

theorem Entered.mark (h : Entered s) {index : ℕ} {value : BitVec 32}
    (hempty : s.managerInfos index = .marked value) (value' : BitVec 32) :
    Entered (setInitialized index value' s) :=
  ⟨h.table.mark (s := s.widened) hempty value', h.limit_le⟩

theorem Entered.enter (h : Entered s) {index : ℕ} {info : ManagerInfo} (hindex : index < s.limit)
    (hpid : 0 < info.pid)
    (hname : info.filePrefix ≠ [] ∧ info.filePrefix.length < shmemMaxHugepagePrefix)
    (hfresh : ∀ i < shmemMaxHugepages, s.Active i → info.filePrefix ≠ (s.managerInfos i).filePrefix) :
    Entered (s.setInfo index info) :=
  ⟨h.table.enter (s := s.widened) (lt_of_lt_of_le hindex h.limit_le) hpid hname hfresh, h.limit_le⟩

theorem Entered.setLimits (h : Entered s) {socketLimit : ℕ → BitVec 32}
    (hle : (hugepageNum s.socketNum socketLimit).toInt ≤ shmemMaxHugepages) :
    Entered (setLimits socketLimit s) := by
  refine ⟨⟨h.table.prefixes, h.table.below, h.table.limit_le, h.table.free, h.table.named⟩, ?_⟩
  change (hugepageNum s.socketNum socketLimit).toInt.toNat ≤ shmemMaxHugepages
  omega

/-- The parent of a child that was made enters it, or leaves the table as it is. -/
theorem Entered.parentProcess (h : Entered s) {p : CStr} {pid : ℤ} (env : ManagerInitEnv)
    (hpid : 0 < pid) (hname : p.bytes ≠ [] ∧ p.bytes.length < shmemMaxHugepagePrefix)
    (hfresh : ∀ i < shmemMaxHugepages, s.Active i → p.bytes ≠ (s.managerInfos i).filePrefix)
    (socketLimit : Option (ℕ → BitVec 32)) :
    Entered (parentProcess env pid p socketLimit s).2 := by
  have hr := checkHealth_reaps env.index s
  have hu := h.reaped hr
  obtain heq | ⟨index, hindex, hname', hentry⟩ := parentProcess_cases env pid p socketLimit s
  · rw [heq]
    exact hu
  · rw [← hr.limit] at hindex
    obtain ⟨value, hempty⟩ := hu.marked_of_prefix hindex hname'
    obtain heq | ⟨value', heq⟩ := hentry
    · rw [heq]
      exact hu.mark hempty 0
    · have hset := checkHealth_reaps env.set (setInitialized index value' (checkHealth env.index s))
      obtain ⟨info, hinfo, hipid, hiname, -⟩ := setManagerInfo_eq hname.2 env.set index pid socketLimit
        (setInitialized index value' (checkHealth env.index s))
      have hlimit : index < (checkHealth env.set
          (setInitialized index value' (checkHealth env.index s))).limit := by
        rw [hset.limit]
        exact hindex
      rw [← hipid] at hpid
      rw [← hiname] at hname
      rw [heq, hinfo]
      refine ((hu.mark hempty value').reaped hset).enter hlimit hpid hname fun i hi ha => ?_
      obtain ⟨hma, hme⟩ := hset.active ha
      obtain ⟨hua, hue⟩ := active_setInitialized hempty hma
      obtain ⟨hsa, hse⟩ := hr.active hua
      rw [hiname, hme, hue, hse]
      exact hfresh i hi hsa

/-- **A new manager, or none.** Its prefix is not that of a manager at the limit or beyond. -/
theorem Entered.init (h : Entered s) {filePrefix : Option CStr} (env : ManagerInitEnv)
    (hname : ∀ p, filePrefix = some p → p.bytes ≠ [] ∧ p.bytes.length < shmemMaxHugepagePrefix)
    (hhidden : ∀ p, filePrefix = some p → ∀ i < shmemMaxHugepages, s.limit ≤ i → s.Active i →
      p.bytes ≠ (s.managerInfos i).filePrefix)
    (socketLimit : Option (ℕ → BitVec 32)) :
    Entered (fpgaShmemManagerInit filePrefix socketLimit env s).2 := by
  have hq : env.All fun _ => True := ⟨trivial, trivial, fun _ => trivial, trivial, trivial⟩
  obtain hchecked | ⟨p, u, pid, rfl, hpass, hmemory, hpid, -, heq⟩ :=
    managerInit_cases hq filePrefix socketLimit s
  · exact h.reaped hchecked.reaped
  · have hr₁ := checkHealth_reaps env.filePrefix s
    have hr₂ := (checkMemory_checked hq socketLimit (checkHealth env.filePrefix s)).reaped
    rw [hmemory] at hr₂
    have hr₃ := hr₂.trans (reaped_of_children (s := u) (Function.update u.children pid .alive))
    have hfirst := h.reaped hr₁
    rw [heq]
    refine (hfirst.reaped hr₃).parentProcess env hpid (hname p rfl) (fun i hi ha => ?_) socketLimit
    obtain ⟨hfa, hfe⟩ := hr₃.active ha
    rw [hfe]
    by_cases hlt : i < s.limit
    · obtain ⟨p', hp', -, hall⟩ := (checkFilePrefix_cases env.filePrefix (some p) s).2.mp hpass
      cases hp'
      obtain hempty | hne := hall i hlt
      · exact absurd hempty (hfirst.named hi hfa).1
      · rwa [hfirst.prefixString_eq hi hfa] at hne
    · obtain ⟨hsa, hse⟩ := hr₁.active hfa
      rw [hse]
      exact hhidden p rfl i hi (not_lt.mp hlt) hsa

/-! ### Runs -/

/-- A new limit leaves room for the managers there are, and the loops in the table. -/
structure LimitHolds (s : ShmemManager) (socketLimit : ℕ → BitVec 32) : Prop where
  /-- No manager comes to be at the limit of all or beyond. -/
  below : ∀ i < shmemMaxHugepages, s.Active i → i < (hugepageNum s.socketNum socketLimit).toInt
  /-- The limit of all is not beyond the table. -/
  table : (hugepageNum s.socketNum socketLimit).toInt ≤ shmemMaxHugepages

/-- A prefix has room in its entry, and a limit that is set holds. -/
def KeepsListed (s : ShmemManager) : ManagerOp → Prop
  | .init filePrefix _ _ => ∀ p, filePrefix = some p →
      p.bytes ≠ [] ∧ p.bytes.length < shmemMaxHugepagePrefix
  | .setAvailableLimit socketLimit env =>
      (usedPages (checkHealth env s)).toInt ≤ (hugepageNum s.socketNum socketLimit).toInt →
        LimitHolds (checkHealth env s) socketLimit
  | _ => True

theorem Listed.setLimits (h : Listed s) {socketLimit : ℕ → BitVec 32}
    (hhold : LimitHolds s socketLimit) : Listed (setLimits socketLimit s) where
  prefixes := h.prefixes
  below i hi ha := by
    have hlt := hhold.below i hi ha
    change i < (hugepageNum s.socketNum socketLimit).toInt.toNat
    omega
  limit_le := by
    have hle := hhold.table
    change (hugepageNum s.socketNum socketLimit).toInt.toNat ≤ shmemMaxHugepages
    omega
  free := h.free
  named := h.named

theorem Listed.step (h : Listed s) {op : ManagerOp} (hop : KeepsListed s op)
    (ht : managerStep s op = some t) : Listed t := by
  cases ht
  cases op with
  | init filePrefix socketLimit env => exact h.init env hop socketLimit
  | childrenEnd deaths => exact h.reaped (reaped_of_children _)
  | finish filePrefix killed => exact h
  | setAvailableLimit socketLimit env =>
    have hr := checkHealth_reaps env s
    change Listed (fpgaShmemSetAvailableLimit socketLimit env s).2
    obtain heq | ⟨hused, heq⟩ := setAvailableLimit_cases socketLimit env s
    · rw [heq]
      exact h.reaped hr
    · rw [heq]
      exact (h.reaped hr).setLimits (hop hused)
  | getAvailablePages env => exact h.reaped (checkHealth_reaps env s)
  | getPidFromPrefix filePrefix env =>
    change Listed (fpgaShmemGetPidFromPrefix env filePrefix s).2
    rw [getPidFromPrefix_state]
    exact h.reaped (checkHealth_reaps env s)

theorem ShmemManager.Start.not_active (h : s.Start) {i : ℕ} (hi : i < shmemMaxHugepages) :
    ¬ s.Active i := by
  intro ha
  unfold ShmemManager.Active at ha
  rw [h.table i hi] at ha
  exact absurd ha (lt_irrefl 0)

theorem ShmemManager.Start.listed (h : s.Start) : Listed s := by
  refine ⟨fun i hi j hj ha => absurd ha (h.not_active hi),
    fun i hi ha => absurd ha (h.not_active hi), ?_, fun i hi _ => ⟨0, h.table i hi⟩,
    fun i hi ha => absurd ha (h.not_active hi)⟩
  have hlimit := h.limit
  unfold ShmemManager.limit
  omega

end HardwareDrivers.Libfpga
