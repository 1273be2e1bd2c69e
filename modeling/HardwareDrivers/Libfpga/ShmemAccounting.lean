import HardwareDrivers.Libfpga.ShmemTable
import Mathlib.Algebra.BigOperators.Group.Finset.Basic
import Mathlib.Algebra.Order.BigOperators.Group.Finset

/-!
# The hugepages of the managers

A manager may take of each socket what is left of its limit, under a prefix of its own, in
an entry below the limit of all. The limits can be changed while managers run.

## What is proved

* `checkSockets_fits` — a request that passes fits what is left of each socket.
* `accounted_of_orderly` — in a run that lowers no limit below what is taken, and gives each manager
  a name that has room in its entry, the table keeps to the limits throughout.
-/

namespace HardwareDrivers.Libfpga

open Theory

/-- What the managers may take of a socket. -/
def heldPages (s : ShmemManager) (socket : ℕ) : ℤ :=
  ∑ j ∈ Finset.range shmemMaxHugepages with s.Active j, ((s.managerInfos j).socketLimit socket).toInt

/-- The table keeps to the limits. -/
structure Accounted (s : ShmemManager) : Prop where
  /-- No socket is promised beyond its limit. -/
  sockets : ∀ i < s.socketNum, heldPages s i ≤ (s.socketLimit i).toInt
  /-- Each manager has a prefix of its own. -/
  prefixes : ∀ i < shmemMaxHugepages, ∀ j < shmemMaxHugepages, s.Active i → s.Active j →
    (s.managerInfos i).filePrefix = (s.managerInfos j).filePrefix → i = j
  /-- No manager is at the limit of all or beyond. -/
  below : ∀ i < shmemMaxHugepages, s.Active i → i < s.limit

/-- A table that keeps to the limits, and whose loops and strings stay inside it. -/
structure Ordered (s : ShmemManager) : Prop extends Accounted s where
  /-- The loops end where the table does, or before. -/
  limit_le : s.limit ≤ shmemMaxHugepages
  /-- An entry of no child is empty. -/
  free : ∀ i < shmemMaxHugepages, ¬ s.Active i → ∃ value, s.managerInfos i = .marked value
  /-- A prefix has room for its terminator, and is not empty. -/
  named : ∀ i < shmemMaxHugepages, s.Active i → (s.managerInfos i).filePrefix ≠ [] ∧
    (s.managerInfos i).filePrefix.length < shmemMaxHugepagePrefix
  /-- What a manager may take is no negative number. -/
  nonneg : ∀ i < shmemMaxHugepages, ∀ k < s.socketNum, 0 ≤ ((s.managerInfos i).socketLimit k).toInt

theorem Ordered.listed {s : ShmemManager} (h : Ordered s) : Listed s :=
  ⟨h.prefixes, h.below, h.limit_le, h.free, h.named⟩

/-! ### Sums -/

theorem toInt_add_of_lt {a b : BitVec 32} (ha : 0 ≤ a.toInt) (hb : 0 ≤ b.toInt)
    (h : a.toInt + b.toInt < 2 ^ 31) : (a + b).toInt = a.toInt + b.toInt := by
  rw [BitVec.toInt_add]
  exact Int.bmod_eq_of_le (by omega) (by omega)

/-- A sum of the code that does not overflow. -/
theorem toInt_foldl_add (x : ℕ → BitVec 32) (n : ℕ) (hx : ∀ i < n, 0 ≤ (x i).toInt)
    (hlt : ∑ i ∈ Finset.range n, (x i).toInt < 2 ^ 31) :
    ((List.range n).foldl (fun sum i => sum + x i) 0).toInt = ∑ i ∈ Finset.range n, (x i).toInt := by
  induction n with
  | zero => rfl
  | succ n ih =>
    have hn := hx n (Nat.lt_succ_self n)
    have hsum : 0 ≤ ∑ i ∈ Finset.range n, (x i).toInt :=
      Finset.sum_nonneg fun i hi => hx i (Nat.lt_succ_of_lt (Finset.mem_range.mp hi))
    rw [Finset.sum_range_succ] at hlt ⊢
    have ih := ih (fun i hi => hx i (Nat.lt_succ_of_lt hi)) (by omega)
    rw [List.range_succ, List.foldl_append, List.foldl_cons, List.foldl_nil,
      toInt_add_of_lt (by rw [ih]; exact hsum) hn (by rw [ih]; exact hlt), ih]

variable {s t u : ShmemManager}

/-- Where the entries of no child are empty, all entries may be added up. -/
theorem heldPages_eq_sum
    (hfree : ∀ i < shmemMaxHugepages, ¬ s.Active i → ∃ value, s.managerInfos i = .marked value)
    (k : ℕ) :
    heldPages s k = ∑ j ∈ Finset.range shmemMaxHugepages, ((s.managerInfos j).socketLimit k).toInt := by
  unfold heldPages
  rw [Finset.sum_filter]
  refine Finset.sum_congr rfl fun j hj => ?_
  split
  next => rfl
  next hactive =>
    obtain ⟨value, hj⟩ := hfree j (Finset.mem_range.mp hj) hactive
    rw [hj]
    rfl

/-- Nor do the loops miss an entry. -/
theorem Ordered.heldPages_eq (h : Ordered s) (k : ℕ) :
    heldPages s k = ∑ j ∈ Finset.range s.limit, ((s.managerInfos j).socketLimit k).toInt := by
  rw [heldPages_eq_sum h.free]
  refine (Finset.sum_subset (Finset.range_subset_range.mpr h.limit_le) fun j hj hlimit => ?_).symm
  rw [Finset.mem_range] at hj hlimit
  have hactive : ¬ s.Active j := fun ha => hlimit (h.below j hj ha)
  obtain ⟨value, hj⟩ := h.free j hj hactive
  rw [hj]
  rfl

/-- Fewer entries take no more. -/
theorem Ordered.heldPages_le (h : Ordered s) (hr : Reaped s t) {k : ℕ} (hk : k < s.socketNum) :
    heldPages t k ≤ heldPages s k := by
  rw [heldPages_eq_sum h.free, heldPages_eq_sum (h.listed.reaped hr).free]
  refine Finset.sum_le_sum fun i hi => ?_
  obtain he | ⟨-, hzero⟩ := hr.entry i
  · rw [he]
  · rw [hzero]
    exact h.nonneg i (Finset.mem_range.mp hi) k hk

/-- **Clearing entries keeps the table in order.** -/
theorem Ordered.reaped (h : Ordered s) (hr : Reaped s t) : Ordered t := by
  have ht := h.listed.reaped hr
  refine ⟨⟨fun k hk => ?_, ht.prefixes, ht.below⟩, ht.limit_le, ht.free, ht.named,
    fun i hi k hk => ?_⟩
  · rw [hr.socketNum] at hk
    rw [hr.socketLimit]
    exact (h.heldPages_le hr hk).trans (h.sockets k hk)
  · rw [hr.socketNum] at hk
    obtain he | ⟨-, hzero⟩ := hr.entry i
    · rw [he]
      exact h.nonneg i hi k hk
    · rw [hzero]
      exact le_refl 0

/-! ### A new manager -/

/-- A request that is left of the limit of each socket. -/
def Fits (s : ShmemManager) (socketLimit : ℕ → BitVec 32) : Prop :=
  ∀ k < s.socketNum, heldPages s k + (socketLimit k).toNat ≤ (s.socketLimit k).toInt

theorem Fits.reaped {r : ℕ → BitVec 32} (h : Fits s r) (hs : Ordered s) (hr : Reaped s t) :
    Fits t r := by
  intro k hk
  rw [hr.socketNum] at hk
  rw [hr.socketLimit]
  have hheld := hs.heldPages_le hr hk
  have hfits := h k hk
  omega

/-- **A manager in an empty entry, under a new prefix and with what is left of each socket.** -/
theorem Ordered.enter (h : Ordered s) {index : ℕ} {info : ManagerInfo} {value : BitVec 32}
    (hindex : index < s.limit) (hempty : s.managerInfos index = .marked value) (hpid : 0 < info.pid)
    (hname : info.filePrefix ≠ [] ∧ info.filePrefix.length < shmemMaxHugepagePrefix)
    (hfresh : ∀ i < s.limit, s.Active i → info.filePrefix ≠ (s.managerInfos i).filePrefix)
    (hlimit : ∀ k < s.socketNum, 0 ≤ (info.socketLimit k).toInt ∧
      heldPages s k + (info.socketLimit k).toInt ≤ (s.socketLimit k).toInt) :
    Ordered (s.setInfo index info) := by
  have ht := h.listed.enter hindex hpid hname hfresh
  refine ⟨⟨fun k hk => ?_, ht.prefixes, ht.below⟩, ht.limit_le, ht.free, ht.named,
    fun i hi k hk => ?_⟩
  · have hmem : index ∈ Finset.range shmemMaxHugepages :=
      Finset.mem_range.mpr (lt_of_lt_of_le hindex h.limit_le)
    have hold := heldPages_eq_sum h.free k
    rw [← Finset.add_sum_erase _ _ hmem, hempty] at hold
    rw [heldPages_eq_sum ht.free k, ← Finset.add_sum_erase _ _ hmem, setInfo_self]
    have hrest : ∑ j ∈ (Finset.range shmemMaxHugepages).erase index,
        (((s.setInfo index info).managerInfos j).socketLimit k).toInt =
          ∑ j ∈ (Finset.range shmemMaxHugepages).erase index,
            ((s.managerInfos j).socketLimit k).toInt :=
      Finset.sum_congr rfl fun j hj => by rw [setInfo_of_ne (Finset.ne_of_mem_erase hj)]
    rw [hrest]
    have hz : ((ManagerInfo.marked value).socketLimit k).toInt = 0 := rfl
    have hk' := (hlimit k hk).2
    change _ ≤ (s.socketLimit k).toInt
    omega
  · by_cases hii : i = index
    · rw [hii, setInfo_self]
      exact (hlimit k hk).1
    · rw [setInfo_of_ne hii]
      exact h.nonneg i hi k hk

/-- A sum over the loop is what the managers may take of the socket. -/
theorem getSocketSum_toInt (h : Ordered s) (env : HealthEnv) {k : ℕ} (hk : k < s.socketNum) :
    (getSocketSum env k s).1.toInt = heldPages (checkHealth env s) k := by
  have hr := checkHealth_reaps env s
  have ht := h.reaped hr
  have hkt : k < (checkHealth env s).socketNum := by rwa [hr.socketNum]
  have hsockets := ht.sockets k hkt
  have hlt : ((checkHealth env s).socketLimit k).toInt < 2 ^ 31 := BitVec.toInt_lt
  rw [ht.heldPages_eq] at hsockets ⊢
  exact toInt_foldl_add _ _ (fun i hi => ht.nonneg i (lt_of_lt_of_le hi ht.limit_le) k hkt)
    (lt_of_le_of_lt hsockets hlt)

/-- What is left of a socket is no negative number, so that the comparison as unsigned is right. -/
theorem le_of_not_ult {limit sum request : BitVec 32} (hsum : 0 ≤ sum.toInt)
    (hle : sum.toInt ≤ limit.toInt) (h : ¬ (limit - sum).ult request = true) :
    sum.toInt + request.toNat ≤ limit.toInt := by
  rw [BitVec.ult_iff_lt, BitVec.not_lt, BitVec.le_def, BitVec.toNat_sub] at h
  rw [BitVec.toInt_eq_toNat_cond] at hsum hle ⊢
  rw [BitVec.toInt_eq_toNat_cond] at hle ⊢
  split_ifs at hsum hle ⊢ <;> omega

theorem Ordered.heldPages_nonneg (h : Ordered s) {k : ℕ} (hk : k < s.socketNum) :
    0 ≤ heldPages s k := by
  rw [heldPages_eq_sum h.free]
  exact Finset.sum_nonneg fun i hi => h.nonneg i (Finset.mem_range.mp hi) k hk

/-- **A request that passes fits what is left of each socket.** -/
theorem checkSockets_fits {env : ℕ → HealthEnv} {r : ℕ → BitVec 32} {is : List ℕ} (h : Ordered s)
    (his : ∀ i ∈ is, i < s.socketNum) (hok : (checkSockets env r is s).1 = true) :
    ∀ i ∈ is, heldPages (checkSockets env r is s).2 i + (r i).toNat ≤ (s.socketLimit i).toInt := by
  induction is generalizing s with
  | nil => exact fun i hi => absurd hi List.not_mem_nil
  | cons k is ih =>
    obtain ⟨hk, hrest⟩ := List.forall_mem_cons.mp his
    have hr := checkHealth_reaps (env k) s
    have ht := h.reaped hr
    have hkt : k < (checkHealth (env k) s).socketNum := by rwa [hr.socketNum]
    have hsum := getSocketSum_toInt h (env k) hk
    unfold checkSockets at hok ⊢
    dsimp only at hok ⊢
    split at hok
    · cases hok
    next hult =>
      rw [if_neg hult]
      change ¬ (BitVec.ult ((checkHealth (env k) s).socketLimit k - _) _) = true at hult
      have hnonneg : 0 ≤ (getSocketSum (env k) k s).1.toInt := by
        rw [hsum]
        exact ht.heldPages_nonneg hkt
      have hsockets : (getSocketSum (env k) k s).1.toInt ≤
          ((checkHealth (env k) s).socketLimit k).toInt := by
        rw [hsum]
        exact ht.sockets k hkt
      have hle := le_of_not_ult hnonneg hsockets hult
      rw [hsum, hr.socketLimit] at hle
      have hlater : Reaped (checkHealth (env k) s)
          (checkSockets env r is (getSocketSum (env k) k s).2).2 :=
        (checkSockets_checked (Q := fun _ => True) (fun _ => trivial) r is _).reaped
      refine List.forall_mem_cons.mpr ⟨?_, ?_⟩
      · have hheld := ht.heldPages_le hlater hkt
        omega
      · rw [← hr.socketLimit]
        exact ih ht (fun i hi => (hrest i hi).trans_eq hr.socketNum.symm) hok

theorem checkMemory_fits {env : ManagerInitEnv} {r : ℕ → BitVec 32} (h : Ordered s)
    (hok : (checkMemory env (some r) s).1 = true) : Fits (checkMemory env (some r) s).2 r := by
  have hr := checkHealth_reaps env.memory s
  have hlater : Reaped (checkHealth env.memory s) (checkSockets env.socket r
      (List.range (checkHealth env.memory s).socketNum) (checkHealth env.memory s)).2 :=
    (checkSockets_checked (Q := fun _ => True) (fun _ => trivial) r _ _).reaped
  intro k hk
  change k < (checkSockets env.socket r _ _).2.socketNum at hk
  rw [hlater.socketNum] at hk
  change _ ≤ ((checkSockets env.socket r _ _).2.socketLimit k).toInt
  rw [hlater.socketLimit]
  exact checkSockets_fits (h.reaped hr) (fun i hi => List.mem_range.mp hi) hok k
    (List.mem_range.mpr hk)

theorem Ordered.heldPages_setInitialized (h : Ordered s) {index : ℕ} {value : BitVec 32}
    (hempty : s.managerInfos index = .marked value) (value' : BitVec 32) (k : ℕ) :
    heldPages (setInitialized index value' s) k = heldPages s k := by
  rw [heldPages_eq_sum (h.listed.mark hempty value').free, heldPages_eq_sum h.free]
  simp only [setInitialized_socketLimit hempty]

/-- The mark of an entry of no child is no matter. -/
theorem Ordered.mark (h : Ordered s) {index : ℕ} {value : BitVec 32}
    (hempty : s.managerInfos index = .marked value) (value' : BitVec 32) :
    Ordered (setInitialized index value' s) := by
  have ht := h.listed.mark hempty value'
  refine ⟨⟨fun k hk => ?_, ht.prefixes, ht.below⟩, ht.limit_le, ht.free, ht.named,
    fun i hi k hk => ?_⟩
  · rw [h.heldPages_setInitialized hempty]
    exact h.sockets k hk
  · rw [setInitialized_socketLimit hempty]
    exact h.nonneg i hi k hk

/-- A child that was made is entered. -/
theorem Ordered.setManagerInfo (h : Ordered s) {index : ℕ} {value : BitVec 32} {p : CStr} {pid : ℤ}
    {socketLimit : Option (ℕ → BitVec 32)} (env : HealthEnv)
    (hindex : index < s.limit) (hempty : s.managerInfos index = .marked value) (hpid : 0 < pid)
    (hname : p.bytes ≠ [] ∧ p.bytes.length < shmemMaxHugepagePrefix)
    (hfresh : ∀ i < s.limit, s.Active i → p.bytes ≠ (s.managerInfos i).filePrefix)
    (hfits : ∀ r, socketLimit = some r → Fits s r) :
    Ordered (setManagerInfo env index p pid socketLimit s) := by
  have hr := checkHealth_reaps env s
  have hw := h.reaped hr
  obtain ⟨info, heq, hipid, hiname, hilimit⟩ := setManagerInfo_eq hname.2 env index pid socketLimit s
  rw [heq]
  have hwempty : (checkHealth env s).managerInfos index = .marked value := by
    obtain he | ⟨hp, -⟩ := hr.entry index
    · exact he.trans hempty
    · rw [hempty] at hp
      exact absurd hp (lt_irrefl 0)
  refine hw.enter (hr.limit ▸ hindex) hwempty (hipid ▸ hpid) (hiname ▸ hname)
    (fun i hi ha => ?_) fun k hk => ?_
  · obtain ⟨hsa, hse⟩ := hr.active ha
    rw [hiname, hse]
    exact hfresh i (hr.limit ▸ hi) hsa
  · have hheld := hw.sockets k hk
    rw [hilimit k hk]
    cases socketLimit with
    | none =>
      rw [hwempty]
      change 0 ≤ (0 : ℤ) ∧ heldPages (checkHealth env s) k + 0 ≤ _
      omega
    | some r =>
      have hfit := (hfits r rfl).reaped h hr k hk
      have hnn := hw.heldPages_nonneg hk
      have hlt : ((checkHealth env s).socketLimit k).toInt < 2 ^ 31 := BitVec.toInt_lt
      have hreq : (r k).toInt = (r k).toNat := BitVec.toInt_eq_toNat_of_lt (by omega)
      dsimp only
      omega

/-- The parent of a child that was made enters it, or leaves the table as it is. -/
theorem Ordered.parentProcess (h : Ordered s) {p : CStr} {pid : ℤ}
    {socketLimit : Option (ℕ → BitVec 32)} (env : ManagerInitEnv) (hpid : 0 < pid)
    (hname : p.bytes ≠ [] ∧ p.bytes.length < shmemMaxHugepagePrefix)
    (hfresh : ∀ i < s.limit, s.Active i → p.bytes ≠ (s.managerInfos i).filePrefix)
    (hfits : ∀ r, socketLimit = some r → Fits s r) :
    Ordered (parentProcess env pid p socketLimit s).2 := by
  have hr := checkHealth_reaps env.index s
  have hu := h.reaped hr
  obtain heq | ⟨index, hindex, hname', hentry⟩ := parentProcess_cases env pid p socketLimit s
  · rw [heq]
    exact hu
  · obtain ⟨value, hempty⟩ := hu.listed.marked_of_prefix (lt_of_lt_of_le hindex h.limit_le) hname'
    obtain heq | ⟨value', heq⟩ := hentry
    · rw [heq]
      exact hu.mark hempty 0
    · rw [heq]
      refine (hu.mark hempty value').setManagerInfo env.set (hr.limit ▸ hindex)
        (setInitialized_self hempty value') hpid hname (fun i hi ha => ?_) fun r hsome k hk => ?_
      · obtain ⟨hua, hue⟩ := active_setInitialized hempty ha
        obtain ⟨hsa, hse⟩ := hr.active hua
        rw [hue, hse]
        exact hfresh i (hr.limit ▸ hi) hsa
      · rw [hu.heldPages_setInitialized hempty]
        exact (hfits r hsome).reaped h hr k hk

/-- **A new manager, or none.** -/
theorem Ordered.init (h : Ordered s) {filePrefix : Option CStr}
    {socketLimit : Option (ℕ → BitVec 32)} (env : ManagerInitEnv)
    (hname : ∀ p, filePrefix = some p → p.bytes ≠ [] ∧ p.bytes.length < shmemMaxHugepagePrefix) :
    Ordered (fpgaShmemManagerInit filePrefix socketLimit env s).2 := by
  have hq : env.All fun _ => True := ⟨trivial, trivial, fun _ => trivial, trivial, trivial⟩
  obtain hchecked | ⟨p, u, pid, rfl, hpass, hmemory, hpid, -, heq⟩ :=
    managerInit_cases hq filePrefix socketLimit s
  · exact h.reaped hchecked.reaped
  · have hr₁ := checkHealth_reaps env.filePrefix s
    have hs₁ := h.reaped hr₁
    have hr₂ := (checkMemory_checked hq socketLimit (checkHealth env.filePrefix s)).reaped
    rw [hmemory] at hr₂
    have hr₃ := reaped_of_children (s := u) (Function.update u.children pid .alive)
    have hu := hs₁.reaped hr₂
    rw [heq]
    refine (hu.reaped hr₃).parentProcess env hpid (hname p rfl) (fun i hi ha => ?_) fun r hsome => ?_
    · obtain ⟨hsa, hse⟩ := (hr₂.trans hr₃).active ha
      rw [hse]
      exact h.listed.fresh_of_pass hpass (by rwa [(hr₂.trans hr₃).limit, hr₁.limit] at hi) hsa
    · subst hsome
      have hfits := checkMemory_fits hs₁ (congrArg Prod.fst hmemory)
      rw [hmemory] at hfits
      exact hfits.reaped hu hr₃

/-! ### Runs -/

/-- New limits leave room for the managers there are, and the loops in the table. -/
structure LimitsHold (s : ShmemManager) (socketLimit : ℕ → BitVec 32) : Prop where
  /-- No socket gets less than the managers may take of it. -/
  sockets : ∀ k < s.socketNum, heldPages s k ≤ (socketLimit k).toInt
  /-- No manager comes to be at the limit of all or beyond. -/
  below : ∀ i < shmemMaxHugepages, s.Active i → i < (hugepageNum s.socketNum socketLimit).toInt
  /-- The limit of all is not beyond the table. -/
  table : (hugepageNum s.socketNum socketLimit).toInt ≤ shmemMaxHugepages

/-- A prefix has room in its entry, and limits that are set hold. -/
def Orderly (s : ShmemManager) : ManagerOp → Prop
  | .init filePrefix _ _ => ∀ p, filePrefix = some p →
      p.bytes ≠ [] ∧ p.bytes.length < shmemMaxHugepagePrefix
  | .setAvailableLimit socketLimit env =>
      (usedPages (checkHealth env s)).toInt ≤ (hugepageNum s.socketNum socketLimit).toInt →
        LimitsHold (checkHealth env s) socketLimit
  | _ => True

theorem Ordered.setLimits (h : Ordered s) {socketLimit : ℕ → BitVec 32}
    (hhold : LimitsHold s socketLimit) : Ordered (setLimits socketLimit s) := by
  have ht := h.listed.setLimits ⟨hhold.below, hhold.table⟩
  refine ⟨⟨fun k hk => ?_, ht.prefixes, ht.below⟩, ht.limit_le, ht.free, ht.named, h.nonneg⟩
  have hk' : k < s.socketNum := hk
  change heldPages s k ≤ (if k < s.socketNum then socketLimit k else s.socketLimit k).toInt
  rw [if_pos hk']
  exact hhold.sockets k hk'

theorem Ordered.step (h : Ordered s) {op : ManagerOp} (hop : Orderly s op)
    (ht : managerStep s op = some t) : Ordered t := by
  cases ht
  cases op with
  | init filePrefix socketLimit env => exact h.init env hop
  | childrenEnd deaths => exact h.reaped (reaped_of_children _)
  | finish filePrefix killed => exact h
  | setAvailableLimit socketLimit env =>
    have hr := checkHealth_reaps env s
    change Ordered (fpgaShmemSetAvailableLimit socketLimit env s).2
    obtain heq | ⟨hused, heq⟩ := setAvailableLimit_cases socketLimit env s
    · rw [heq]
      exact h.reaped hr
    · rw [heq]
      exact (h.reaped hr).setLimits (hop hused)
  | getAvailablePages env => exact h.reaped (checkHealth_reaps env s)
  | getPidFromPrefix filePrefix env =>
    change Ordered (fpgaShmemGetPidFromPrefix env filePrefix s).2
    rw [getPidFromPrefix_state]
    exact h.reaped (checkHealth_reaps env s)

theorem ShmemManager.Start.ordered (h : s.Start) : Ordered s := by
  have hs := h.listed
  refine ⟨⟨fun k hk => ?_, hs.prefixes, hs.below⟩, hs.limit_le, hs.free, hs.named,
    fun i hi k hk => ?_⟩
  · rw [heldPages_eq_sum hs.free]
    refine (Finset.sum_nonpos fun i hi => ?_).trans (h.sockets k hk)
    rw [h.table i (Finset.mem_range.mp hi)]
    exact le_refl 0
  · rw [h.table i hi]
    exact le_refl 0

/-- **In a run that lowers no limit below what is taken, and gives each manager a name that has
room in its entry, the table keeps to the limits throughout.** -/
theorem accounted_of_orderly (s : ShmemManager) (hstart : s.Start) (ops : List ManagerOp)
    (hops : Along managerStep Orderly s ops) : Always managerStep Accounted s ops := by
  have hordered := always_of_along (fun s op t hs hop ht => Ordered.step hs hop ht) hstart.ordered hops
  exact hordered.mono fun s hs => hs.toAccounted

/-! ### A limit below what is taken -/

/-- Two sockets with eight pages each, and no manager. -/
def eightEach : ShmemManager :=
  ⟨fun _ => .zero, 16, fun i => if i < 2 then 8 else 0, 2, true, fun _ => .none⟩

/-- No child ends meanwhile. -/
def quiet : HealthEnv := ⟨[], 0⟩

/-- A child with this pid is made, and says that it is ready. -/
def childMade (pid : ℤ) : ManagerInitEnv :=
  ⟨quiet, quiet, fun _ => quiet, quiet, quiet, true, some pid, some shmemInitialized⟩

/-- A prefix of one character. -/
def shortPrefix (c : BitVec 8) (h : 0 ≠ c) : CStr := ⟨[c], by simpa using h⟩

/-- The pages of the two sockets. -/
def pagesOf (a b : BitVec 32) : ℕ → BitVec 32 := fun i => if i = 0 then a else b

theorem eightEach_start : eightEach.Start :=
  ⟨fun _ _ => rfl, by decide, by decide⟩

/-- The prefix `a`. -/
def prefixA : CStr := shortPrefix 97 (by decide)

/-- A manager takes two pages, and each socket keeps that many. -/
theorem accounted_twoEach :
    Always managerStep Accounted eightEach
      [.init (some prefixA) (some (pagesOf 2 0)) (childMade 5),
        .setAvailableLimit (pagesOf 2 2) quiet, .childrenEnd [(5, .exited 0)],
        .getAvailablePages quiet] :=
  accounted_of_orderly eightEach eightEach_start _ (by
    rintro _ ⟨⟩
    refine ⟨by rintro p ⟨⟩; decide, ?_⟩
    rintro _ ⟨⟩
    refine ⟨fun _ => ⟨by decide, by decide, by decide⟩, ?_⟩
    rintro _ ⟨⟩
    refine ⟨trivial, ?_⟩
    rintro _ ⟨⟩
    exact ⟨trivial, trivial⟩)

/-- A manager takes the eight pages of a socket, and the other socket keeps as many: of the first
nothing is left, and the manager has it all. -/
theorem not_accounted_lowered :
    ¬ Always managerStep Accounted eightEach
      [.init (some prefixA) (some (pagesOf 8 0)) (childMade 5),
        .setAvailableLimit (pagesOf 0 8) quiet] := by
  intro h
  have hlast := ((h.2 _ rfl).2 _ rfl).sockets 0 (by decide)
  exact absurd hlast (by decide)

end HardwareDrivers.Libfpga
