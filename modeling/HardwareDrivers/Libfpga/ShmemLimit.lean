import HardwareDrivers.Libfpga.CpuList
import HardwareDrivers.Libfpga.ShmemFinishAll

/-!
# The limit of all managers

`fpga_shmem_hugepage_limit` is where each loop over `manager_infos` ends. It starts as the length of
the table, `__fpga_shmem_init_host_info` lowers it to the free pages of the host, and
`fpga_shmem_set_available_limit` sets it to the sum of what is asked for each socket. The first sum is
signed, and undefined where it is no `int`; the second is unsigned and wraps, and its check is of a number
that is negative and too large at once.

## What is proved

* `freeLoop_cases` — what the probe sums, and where it stops.
* `exec_hugepageLimit` — no other call changes the limit.
* `limit_holds_iff` — which runs keep the loops in the table and refuse what they should.
-/

namespace HardwareDrivers.Libfpga

open Theory

/-! ### The host -/

/-- What `opendir` finds of a NUMA node. -/
inductive NodeDir where
  /-- Its directory. -/
  | present
  /-- `ENOENT`. -/
  | absent
  /-- Another error. -/
  | failed
  deriving DecidableEq, Repr

/-- What the probe finds. -/
structure HostEnv where
  /-- The directory of a node. -/
  dir : ℕ → NodeDir
  /-- The number in `free_hugepages`, or how the probe fails at it. -/
  freeHugepages : ℕ → Except ManagerErr (BitVec 32)
  /-- `cpulist` opens. -/
  cpulist : ℕ → Bool

/-- The loop of `__fpga_shmem_init_host_info` over the directories that are left: the number of
nodes. -/
def nodeLoop (dir : ℕ → NodeDir) : List ℕ → Option ℕ
  | [] => some shmemMaxNumaNode
  | i :: is =>
    match dir i with
    | .absent => some i
    | .failed => none
    | .present => nodeLoop dir is

/-- The loop over the nodes that are left: `free_hugepages_all` where all files could be read, and
`fpga_shmem_socket_limit`. -/
def freeLoop (freeHugepages : ℕ → Except ManagerErr (BitVec 32)) : List ℕ → ℤ → (ℕ → BitVec 32) →
    Except HostFault (Except ManagerErr ℤ × (ℕ → BitVec 32))
  | [], freeHugepagesAll, socketLimit => .ok (.ok freeHugepagesAll, socketLimit)
  | i :: is, freeHugepagesAll, socketLimit =>
    match freeHugepages i with
    | .error err => .ok (.error err, socketLimit)
    | .ok free =>
      if IsInt (freeHugepagesAll + free.toInt) then
        freeLoop freeHugepages is (freeHugepagesAll + free.toInt) (Function.update socketLimit i free)
      else .error .overflow

/-- The library, with the static variables of two of its functions. -/
structure ManagerLib where
  /-- The managers. -/
  manager : ShmemManager
  /-- `is_get_host_info` of `__fpga_shmem_init_host_info`. -/
  isGetHostInfo : Bool
  /-- `set_once` of `fpga_shmem_set_signal`. -/
  setOnce : Bool

/-- `free_hugepages_all` becomes the limit where it is below that of the table. -/
def hostLimit (freeHugepagesAll : ℤ) (s : ShmemManager) : ShmemManager :=
  if freeHugepagesAll < shmemMaxHugepages then { s with hugepageLimit := .ofInt 32 freeHugepagesAll }
  else s

/-- `__fpga_shmem_init_host_info` after its first call was noted; `fpga_shmem_lcore_num` is left
out. -/
def probeHost (env : HostEnv) (s : ShmemManager) :
    Except HostFault (Except ManagerErr Unit × ShmemManager) :=
  match nodeLoop env.dir (List.range shmemMaxNumaNode) with
  | none => .ok (.error .fatalError, s)
  | some nodes =>
    let cleared := fun i => if i < shmemMaxNumaNode then 0 else s.socketLimit i
    match freeLoop env.freeHugepages (List.range nodes) 0 cleared with
    | .error fault => .error fault
    | .ok (.error err, socketLimit) => .ok (.error err, { s with socketNum := nodes, socketLimit })
    | .ok (.ok freeHugepagesAll, socketLimit) =>
      let s := hostLimit freeHugepagesAll { s with socketNum := nodes, socketLimit }
      if (List.range nodes).all env.cpulist then .ok (.ok (), s)
      else .ok (.error (.code .failureOpen), s)

/-- `__fpga_shmem_init_host_info`. -/
def shmemInitHostInfo (env : HostEnv) (s : ManagerLib) :
    Except HostFault (Except ManagerErr Unit × ManagerLib) :=
  if s.isGetHostInfo then .ok (.ok (), s)
  else
    (probeHost env s.manager).map fun (ret, manager) => (ret, { s with manager, isGetHostInfo := true })

/-- The table is cleared, and managers can be made. -/
def enableInit (s : ShmemManager) : ShmemManager :=
  { s with
    managerInfos := fun i => if i < shmemMaxHugepages then .zero else s.managerInfos i
    signalSet := true }

/-- `fpga_shmem_set_signal`; `registered` says whether `sigaction` succeeds. -/
def fpgaShmemSetSignal (registered : Bool) (env : HostEnv) (s : ManagerLib) :
    Except HostFault (Except ManagerErr Unit × ManagerLib) :=
  if s.setOnce then .ok (.error (.code .alreadyInitialized), s)
  else if !registered then .ok (.error (.code .failureRegisterSignal), s)
  else
    (shmemInitHostInfo env { s with manager := enableInit s.manager }).map fun (_, s) =>
      (.ok (), { s with setOnce := true })

/-! ### Runs -/

/-- A call of the library. -/
inductive LibCall where
  /-- `__fpga_shmem_init_host_info`, from `fpga_shmem_init`. -/
  | initHostInfo (env : HostEnv)
  /-- `fpga_shmem_set_signal`. -/
  | setSignal (registered : Bool) (env : HostEnv)
  /-- A call on the managers, or the ends of children. -/
  | manager (call : ManagerCall)

/-- What it does. -/
def LibCall.exec (s : ManagerLib) : LibCall → Except HostFault ManagerLib
  | .initHostInfo env => (shmemInitHostInfo env s).map Prod.snd
  | .setSignal registered env => (fpgaShmemSetSignal registered env s).map Prod.snd
  | .manager call => .ok { s with manager := call.exec s.manager }

/-- A step of a run. -/
def libStep (s : ManagerLib) (call : LibCall) : Option ManagerLib := (call.exec s).toOption

/-- When the program starts; nothing is known of what comes after the table, and of the children
there are. -/
def libStart (after : ℕ → ManagerInfo) (children : ℤ → Child) : ManagerLib where
  manager :=
    { managerInfos := fun i => if i < shmemMaxHugepages then .zero else after i
      hugepageLimit := BitVec.ofNat 32 shmemMaxHugepages
      socketLimit := fun i => if i < 2 then 8 else 0
      socketNum := 2
      signalSet := false
      children := children }
  isGetHostInfo := false
  setOnce := false

/-! ### The property -/

/-- The loops over the table stay inside it. -/
structure InTable (s : ManagerLib) : Prop where
  /-- The limit is not negative. -/
  nonneg : 0 ≤ s.manager.hugepageLimit.toInt
  /-- It is not beyond the table. -/
  le : s.manager.hugepageLimit.toInt ≤ shmemMaxHugepages
  /-- No index of a loop is outside the table. -/
  loops : ∀ i ∈ List.range s.manager.limit, i < shmemMaxHugepages

/-- A limit that the table can have. -/
def InRange (num : BitVec 32) : Prop := 0 ≤ num.toInt ∧ num.toInt ≤ shmemMaxHugepages

/-- No variable of the library changed. -/
structure SameVariables (s t : ShmemManager) : Prop where
  /-- Of the table. -/
  managerInfos : t.managerInfos = s.managerInfos
  /-- The limit of all. -/
  hugepageLimit : t.hugepageLimit = s.hugepageLimit
  /-- Those of the sockets. -/
  socketLimit : t.socketLimit = s.socketLimit
  /-- The number of sockets. -/
  socketNum : t.socketNum = s.socketNum
  /-- Whether the signal is set. -/
  signalSet : t.signalSet = s.signalSet

/-- What is asked for: the sum of the numbers, which no `int` has to hold. -/
def askedPages (socketNum : ℕ) (socketLimit : ℕ → BitVec 32) : ℕ :=
  ((List.range socketNum).map fun i => (socketLimit i).toNat).sum

/-- A request outside the range is answered with an error, and changes nothing. -/
def RefusesLimit (s : ManagerLib) : LibCall → Prop
  | .manager (.op (.setAvailableLimit socketLimit env)) =>
      shmemMaxHugepages < askedPages s.manager.socketNum socketLimit →
        (∃ err, (fpgaShmemSetAvailableLimit socketLimit env s.manager).1 = .error err) ∧
        SameVariables s.manager (fpgaShmemSetAvailableLimit socketLimit env s.manager).2
  | _ => True

/-- A call does what the language defines, and refuses what it should. -/
structure LimitRight (s : ManagerLib) (call : LibCall) : Prop where
  /-- No sum leaves the range of its type. -/
  defined : NoFault (call.exec s)
  /-- A limit outside the table is refused. -/
  refuses : RefusesLimit s call

/-- The pages of a node that are free can be read. -/
def HostEnv.Reads (env : HostEnv) (i : ℕ) : Prop := ∃ free, env.freeHugepages i = .ok free

/-- The pages of a node that are free. -/
def HostEnv.pages (env : HostEnv) (i : ℕ) : ℤ :=
  match env.freeHugepages i with
  | .ok free => free.toInt
  | .error _ => 0

/-- What comes to a sum, up to the first file that cannot be read, keeps it an `int`. -/
def HostEnv.SumsInt (env : HostEnv) (is : List ℕ) (all : ℤ) : Prop :=
  ∀ pre, pre <+: is → (∀ i ∈ pre, env.Reads i) → IsInt (all + (pre.map env.pages).sum)

/-- The free pages of the nodes come to an `int`, which is not negative where all of them can be read. -/
def PagesFair (env : HostEnv) : Prop :=
  ∀ nodes, nodeLoop env.dir (List.range shmemMaxNumaNode) = some nodes →
    env.SumsInt (List.range nodes) 0 ∧
      ((∀ i ∈ List.range nodes, env.Reads i) → 0 ≤ ((List.range nodes).map env.pages).sum)

/-- What is asked for is in the range, or what the code makes of it is below the pages in use while no
child has exited; and the probe sums `int`s and finds no negative number. -/
def LimitFair (s : ManagerLib) : LibCall → Prop
  | .initHostInfo env => s.isGetHostInfo = false → PagesFair env
  | .setSignal registered env =>
      s.setOnce = false → registered = true → s.isGetHostInfo = false → PagesFair env
  | .manager (.op (.setAvailableLimit socketLimit env)) =>
      askedPages s.manager.socketNum socketLimit ≤ shmemMaxHugepages ∨
        ((hugepageNum s.manager.socketNum socketLimit).toInt < (usedPages s.manager).toInt ∧
          (checkHealth env s.manager).managerInfos = s.manager.managerInfos)
  | _ => True

variable {s t : ShmemManager}

theorem inTable_iff {s : ManagerLib} : InTable s ↔ InRange s.manager.hugepageLimit := by
  constructor
  · exact fun h => ⟨h.nonneg, h.le⟩
  · rintro ⟨hnonneg, hle⟩
    refine ⟨hnonneg, hle, fun i hi => ?_⟩
    have hlt := List.mem_range.mp hi
    unfold ShmemManager.limit at hlt
    omega

/-- `hugepage_num` is what is asked for, as far as 32 bits have it. -/
theorem toNat_hugepageNum (socketNum : ℕ) (socketLimit : ℕ → BitVec 32) :
    (hugepageNum socketNum socketLimit).toNat = askedPages socketNum socketLimit % 2 ^ 32 := by
  unfold hugepageNum askedPages
  induction socketNum with
  | zero => rfl
  | succ n ih =>
    rw [List.range_succ, List.foldl_append, List.map_append, List.sum_append, List.foldl_cons,
      List.foldl_nil, List.map_singleton, List.sum_singleton, BitVec.toNat_add, ih, Nat.mod_add_mod]

theorem inRange_hugepageNum {socketNum : ℕ} {socketLimit : ℕ → BitVec 32}
    (h : askedPages socketNum socketLimit ≤ shmemMaxHugepages) :
    InRange (hugepageNum socketNum socketLimit) := by
  have hmax : shmemMaxHugepages = 32 := rfl
  have hnat : (hugepageNum socketNum socketLimit).toNat = askedPages socketNum socketLimit := by
    rw [toNat_hugepageNum, Nat.mod_eq_of_lt (by omega)]
  unfold InRange
  rw [BitVec.toInt_eq_toNat_of_lt (by omega), hnat]
  omega

/-! ### The probe -/

theorem HostEnv.sumsInt_cons {env : HostEnv} {i : ℕ} {is : List ℕ} {all : ℤ} (hi : env.Reads i) :
    env.SumsInt (i :: is) all ↔ IsInt all ∧ env.SumsInt is (all + env.pages i) := by
  constructor
  · refine fun h => ⟨by simpa using h [] List.nil_prefix (by simp), fun pre hpre hread => ?_⟩
    have hint := h (i :: pre) ((List.prefix_cons_inj i).mpr hpre) (List.forall_mem_cons.mpr ⟨hi, hread⟩)
    rwa [List.map_cons, List.sum_cons, ← add_assoc] at hint
  · rintro ⟨hall, h⟩ pre hpre hread
    obtain rfl | ⟨rest, rfl, hrest⟩ := List.prefix_cons_iff.mp hpre
    · simpa using hall
    · have hint := h rest hrest fun j hj => hread j (List.mem_cons_of_mem _ hj)
      rwa [List.map_cons, List.sum_cons, ← add_assoc]

/-- The loop ends with the sum exactly if all files can be read, and faults at a sum that is no `int`. -/
theorem freeLoop_cases (env : HostEnv) (is : List ℕ) {all : ℤ} (hall : IsInt all)
    (socketLimit : ℕ → BitVec 32) :
    (env.SumsInt is all ∧ (∀ i ∈ is, env.Reads i) ∧ ∃ socketLimit',
        freeLoop env.freeHugepages is all socketLimit =
          .ok (.ok (all + (is.map env.pages).sum), socketLimit')) ∨
      (env.SumsInt is all ∧ (¬ ∀ i ∈ is, env.Reads i) ∧ ∃ err socketLimit',
        freeLoop env.freeHugepages is all socketLimit = .ok (.error err, socketLimit')) ∨
      (¬ env.SumsInt is all ∧ freeLoop env.freeHugepages is all socketLimit = .error .overflow) := by
  induction is generalizing all socketLimit with
  | nil =>
    refine .inl ⟨fun pre hpre _ => ?_, by simp, socketLimit, by simp [freeLoop]⟩
    simpa [List.prefix_nil.mp hpre] using hall
  | cons i is ih =>
    unfold freeLoop
    cases hfree : env.freeHugepages i with
    | error err =>
      have hi : ¬ env.Reads i := fun ⟨free, h⟩ => by cases hfree.symm.trans h
      refine .inr (.inl ⟨fun pre hpre hread => ?_, fun h => hi (h i List.mem_cons_self), err, _, rfl⟩)
      obtain rfl | ⟨rest, rfl, -⟩ := List.prefix_cons_iff.mp hpre
      · simpa using hall
      · exact absurd (hread i List.mem_cons_self) hi
    | ok free =>
      have hi : env.Reads i := ⟨free, hfree⟩
      have hpages : env.pages i = free.toInt := by rw [HostEnv.pages, hfree]
      simp only [HostEnv.sumsInt_cons hi, List.forall_mem_cons, List.map_cons, List.sum_cons, ← add_assoc,
        hpages, hi, hall, true_and]
      by_cases hint : IsInt (all + free.toInt)
      · simpa only [if_pos hint] using ih hint (Function.update socketLimit i free)
      · simp only [if_neg hint]
        exact .inr (.inr ⟨fun h => hint (by simpa using h [] List.nil_prefix (by simp)), trivial⟩)

theorem inRange_hostLimit (h : InRange s.hugepageLimit) {all : ℤ} (hall : IsInt all) :
    InRange (hostLimit all s).hugepageLimit ↔ 0 ≤ all := by
  unfold hostLimit
  split
  next hlt =>
    have hint : (BitVec.ofInt 32 all).toInt = all :=
      BitVec.toInt_ofInt_eq_self (by decide) hall.1 hall.2
    change 0 ≤ (BitVec.ofInt 32 all).toInt ∧ (BitVec.ofInt 32 all).toInt ≤ shmemMaxHugepages ↔ 0 ≤ all
    rw [hint]
    exact and_iff_left hlt.le
  next hge =>
    have hmax : (shmemMaxHugepages : ℤ) = 32 := rfl
    refine iff_of_true h ?_
    omega

/-- The probe returns and leaves a limit in the range exactly if what it sums are `int`s and not
negative. -/
theorem inRange_probeHost (h : InRange s.hugepageLimit) (env : HostEnv) :
    (∃ out, probeHost env s = .ok out ∧ InRange out.2.hugepageLimit) ↔ PagesFair env := by
  unfold probeHost PagesFair
  cases hnodes : nodeLoop env.dir (List.range shmemMaxNumaNode) with
  | none => exact iff_of_true ⟨_, rfl, h⟩ nofun
  | some nodes =>
    simp only [Option.some.injEq, forall_eq']
    obtain ⟨hsums, hall, socketLimit, hloop⟩ | ⟨hsums, hnot, err, socketLimit, hloop⟩ | ⟨hsums, hloop⟩ :=
      freeLoop_cases env (List.range nodes) (show IsInt 0 by decide)
        (fun i => if i < shmemMaxNumaNode then 0 else s.socketLimit i)
    · have hint : IsInt (0 + ((List.range nodes).map env.pages).sum) := hsums _ List.prefix_rfl hall
      rw [zero_add] at hloop hint
      have hlimit := inRange_hostLimit (s := { s with socketNum := nodes, socketLimit }) h hint
      rw [and_iff_right hsums, forall_prop_of_true hall, ← hlimit]
      simp only [hloop]
      split <;> simp
    · simp only [hloop]
      exact iff_of_true ⟨_, rfl, h⟩ ⟨hsums, fun hall => absurd hall hnot⟩
    · simp only [hloop]
      exact iff_of_false nofun fun hfair => hsums hfair.1

theorem inRange_initHostInfo {s : ManagerLib} (h : InRange s.manager.hugepageLimit)
    (env : HostEnv) :
    (∃ out, shmemInitHostInfo env s = .ok out ∧ InRange out.2.manager.hugepageLimit) ↔
      (s.isGetHostInfo = false → PagesFair env) := by
  unfold shmemInitHostInfo
  cases hinfo : s.isGetHostInfo with
  | true => exact iff_of_true ⟨_, rfl, h⟩ nofun
  | false =>
    rw [if_neg Bool.false_ne_true, forall_prop_of_true rfl, ← inRange_probeHost h env]
    simp only [map_eq_ok, exists_exists_and_eq_and]

theorem inRange_setSignal {s : ManagerLib} (h : InRange s.manager.hugepageLimit)
    (registered : Bool) (env : HostEnv) :
    (∃ out, fpgaShmemSetSignal registered env s = .ok out ∧ InRange out.2.manager.hugepageLimit) ↔
      (s.setOnce = false → registered = true → s.isGetHostInfo = false → PagesFair env) := by
  unfold fpgaShmemSetSignal
  cases hset : s.setOnce with
  | true => exact iff_of_true ⟨_, rfl, h⟩ nofun
  | false =>
    cases registered with
    | false => exact iff_of_true ⟨_, rfl, h⟩ fun _ => nofun
    | true =>
      rw [if_neg Bool.false_ne_true, forall_prop_of_true rfl, forall_prop_of_true rfl,
        ← inRange_initHostInfo (s := ⟨enableInit s.manager, s.isGetHostInfo, false⟩) h env]
      simp only [Bool.not_true, Bool.false_eq_true, if_false, map_eq_ok, exists_exists_and_eq_and]

/-! ### The calls on the managers -/

theorem setManagerInfo_hugepageLimit (env : HealthEnv) (index : ℕ) (p : CStr) (pid : ℤ)
    (socketLimit : Option (ℕ → BitVec 32)) (s : ShmemManager) :
    (setManagerInfo env index p pid socketLimit s).hugepageLimit = s.hugepageLimit :=
  (checkHealth_reaps env s).hugepageLimit

theorem parentProcess_hugepageLimit (env : ManagerInitEnv) (pid : ℤ) (p : CStr)
    (socketLimit : Option (ℕ → BitVec 32)) (s : ShmemManager) :
    (parentProcess env pid p socketLimit s).2.hugepageLimit = s.hugepageLimit := by
  have hr := checkHealth_reaps env.index s
  obtain heq | ⟨index, -, -, heq | ⟨value, heq⟩⟩ := parentProcess_cases env pid p socketLimit s
  · rw [heq]
    exact hr.hugepageLimit
  · rw [heq]
    exact hr.hugepageLimit
  · rw [heq, setManagerInfo_hugepageLimit]
    exact hr.hugepageLimit

theorem managerInit_hugepageLimit (filePrefix : Option CStr)
    (socketLimit : Option (ℕ → BitVec 32)) (env : ManagerInitEnv) (s : ShmemManager) :
    (fpgaShmemManagerInit filePrefix socketLimit env s).2.hugepageLimit = s.hugepageLimit := by
  have hq : env.All fun _ => True := ⟨trivial, trivial, fun _ => trivial, trivial, trivial⟩
  obtain hchecked | ⟨p, u, pid, -, -, hmemory, -, -, heq⟩ :=
    managerInit_cases hq filePrefix socketLimit s
  · exact hchecked.reaped.hugepageLimit
  · have hr := (checkMemory_checked hq socketLimit (checkHealth env.filePrefix s)).reaped
    rw [hmemory] at hr
    rw [heq, parentProcess_hugepageLimit]
    exact hr.hugepageLimit.trans (checkHealth_reaps env.filePrefix s).hugepageLimit

/-- **Only the setter changes the limit.** -/
theorem exec_hugepageLimit (s : ShmemManager) (call : ManagerCall)
    (hcall : ∀ socketLimit env, call ≠ .op (.setAvailableLimit socketLimit env)) :
    (call.exec s).hugepageLimit = s.hugepageLimit := by
  cases call with
  | finishAll env => exact (finishAll_reaps env s).hugepageLimit
  | op o =>
    cases o with
    | init filePrefix socketLimit env => exact managerInit_hugepageLimit ..
    | childrenEnd deaths => rfl
    | finish filePrefix killed => rfl
    | setAvailableLimit socketLimit env => exact absurd rfl (hcall socketLimit env)
    | getAvailablePages env => exact (checkHealth_reaps env s).hugepageLimit
    | getPidFromPrefix filePrefix env =>
      change (fpgaShmemGetPidFromPrefix env filePrefix s).2.hugepageLimit = s.hugepageLimit
      rw [getPidFromPrefix_state]
      exact (checkHealth_reaps env s).hugepageLimit

theorem checkEntry_signalSet (x : BitVec 32 × ShmemManager) (i : ℕ) :
    (checkEntry x i).2.signalSet = x.2.signalSet := by
  obtain ⟨status, s⟩ := x
  unfold checkEntry
  dsimp only
  split_ifs <;> rfl

theorem checkHealth_signalSet (env : HealthEnv) (s : ShmemManager) :
    (checkHealth env s).signalSet = s.signalSet := by
  have hloop : ∀ (is : List ℕ) (x : BitVec 32 × ShmemManager),
      (is.foldl checkEntry x).2.signalSet = x.2.signalSet := by
    intro is
    induction is with
    | nil => exact fun x => rfl
    | cons i is ih => exact fun x => (ih _).trans (checkEntry_signalSet x i)
  exact hloop (List.range s.limit) (env.status, _)

/-- The setter refuses what is below the pages in use, and nothing else. -/
theorem setAvailableLimit_eq (socketLimit : ℕ → BitVec 32) (env : HealthEnv) (s : ShmemManager) :
    fpgaShmemSetAvailableLimit socketLimit env s =
      if (hugepageNum s.socketNum socketLimit).toInt < (usedPages (checkHealth env s)).toInt then
        (.error (.code .invalidArgument), checkHealth env s)
      else (.ok (), setLimits socketLimit (checkHealth env s)) := by
  have hnever : ¬ ((hugepageNum s.socketNum socketLimit).toInt < 0 ∧
      (shmemMaxHugepages : ℤ) < (hugepageNum s.socketNum socketLimit).toInt) := by omega
  unfold fpgaShmemSetAvailableLimit fpgaShmemGetAvailablePages
  dsimp only
  rw [if_neg hnever, sub_sub_cancel]

theorem usedPages_of_same {env : HealthEnv}
    (hsame : (checkHealth env s).managerInfos = s.managerInfos) :
    usedPages (checkHealth env s) = usedPages s := by
  unfold usedPages
  rw [hsame, (checkHealth_reaps env s).limit]

/-- A request is refused, and changes nothing, exactly if it is below the pages in use while no entry
is cleared. -/
theorem refused_iff (socketLimit : ℕ → BitVec 32) (env : HealthEnv) (s : ShmemManager) :
    ((∃ err, (fpgaShmemSetAvailableLimit socketLimit env s).1 = .error err) ∧
        SameVariables s (fpgaShmemSetAvailableLimit socketLimit env s).2) ↔
      ((hugepageNum s.socketNum socketLimit).toInt < (usedPages s).toInt ∧
        (checkHealth env s).managerInfos = s.managerInfos) := by
  have hr := checkHealth_reaps env s
  rw [setAvailableLimit_eq]
  split
  next hlt =>
    constructor
    · rintro ⟨-, hsame⟩
      exact ⟨usedPages_of_same hsame.managerInfos ▸ hlt, hsame.managerInfos⟩
    · rintro ⟨-, hsame⟩
      exact ⟨⟨_, rfl⟩, hsame, hr.hugepageLimit, hr.socketLimit, hr.socketNum,
        checkHealth_signalSet env s⟩
  next hge =>
    constructor
    · rintro ⟨⟨err, herr⟩, -⟩
      cases herr
    · rintro ⟨hlt, hsame⟩
      rw [usedPages_of_same hsame] at hge
      exact absurd hlt hge

/-- After a request the limit is in the range, if it was and the request was, or was refused. -/
theorem inRange_setAvailableLimit (h : InRange s.hugepageLimit) (socketLimit : ℕ → BitVec 32)
    (env : HealthEnv) :
    InRange (fpgaShmemSetAvailableLimit socketLimit env s).2.hugepageLimit ↔
      InRange (hugepageNum s.socketNum socketLimit) ∨
        (hugepageNum s.socketNum socketLimit).toInt < (usedPages (checkHealth env s)).toInt := by
  have hr := checkHealth_reaps env s
  rw [setAvailableLimit_eq]
  split
  next hlt => exact iff_of_true (hr.hugepageLimit ▸ h) (.inr hlt)
  next hge =>
    rw [or_iff_left hge]
    change InRange (hugepageNum (checkHealth env s).socketNum socketLimit) ↔ _
    rw [hr.socketNum]

/-! ### Runs -/

/-- **What one call must meet.** -/
theorem limitFair_iff {s : ManagerLib} (h : InTable s) (call : LibCall) :
    ((∃ t, call.exec s = .ok t ∧ InTable t) ∧ RefusesLimit s call) ↔ LimitFair s call := by
  simp only [inTable_iff] at h ⊢
  cases call with
  | initHostInfo env =>
    refine (and_iff_left trivial).trans (.trans ?_ (inRange_initHostInfo h env))
    simp only [LibCall.exec, map_eq_ok, exists_exists_and_eq_and]
  | setSignal registered env =>
    refine (and_iff_left trivial).trans (.trans ?_ (inRange_setSignal h registered env))
    simp only [LibCall.exec, map_eq_ok, exists_exists_and_eq_and]
  | manager call =>
    simp only [LibCall.exec, Except.ok.injEq, exists_eq_left']
    have hother : (∀ socketLimit env, call ≠ .op (.setAvailableLimit socketLimit env)) →
        InRange (call.exec s.manager).hugepageLimit := by
      intro hcall
      rw [exec_hugepageLimit s.manager call hcall]
      exact h
    cases call with
    | finishAll env => exact iff_of_true ⟨hother nofun, trivial⟩ trivial
    | op o =>
      cases o with
      | setAvailableLimit socketLimit env =>
        have hrange := inRange_setAvailableLimit h socketLimit env
        have hrefused := refused_iff socketLimit env s.manager
        constructor
        · rintro ⟨hin, hrefuses⟩
          rcases Nat.lt_or_ge shmemMaxHugepages (askedPages s.manager.socketNum socketLimit) with
            hout | hasked
          · exact .inr (hrefused.mp (hrefuses hout))
          · exact .inl hasked
        · rintro (hasked | hbelow)
          · exact ⟨hrange.mpr (.inl (inRange_hugepageNum hasked)),
              fun hout => absurd hasked (Nat.not_le.mpr hout)⟩
          · refine ⟨hrange.mpr (.inr ?_), fun _ => hrefused.mpr hbelow⟩
            rw [usedPages_of_same hbelow.2]
            exact hbelow.1
      | init filePrefix socketLimit env => exact iff_of_true ⟨hother nofun, trivial⟩ trivial
      | childrenEnd deaths => exact iff_of_true ⟨hother nofun, trivial⟩ trivial
      | finish filePrefix killed => exact iff_of_true ⟨hother nofun, trivial⟩ trivial
      | getAvailablePages env => exact iff_of_true ⟨hother nofun, trivial⟩ trivial
      | getPidFromPrefix filePrefix env => exact iff_of_true ⟨hother nofun, trivial⟩ trivial

theorem inTable_libStart (after : ℕ → ManagerInfo) (children : ℤ → Child) :
    InTable (libStart after children) := by
  have hrange : InRange (BitVec.ofNat 32 shmemMaxHugepages) := ⟨by decide, by decide⟩
  exact inTable_iff.mpr hrange

/-- **The loops over the table stay inside it, and a limit outside the table is refused**, exactly in
the runs whose limits are in the range, or come out below the pages in use, and whose probe sums `int`s
and finds no negative number. -/
theorem limit_holds_iff (after : ℕ → ManagerInfo) (children : ℤ → Child) (calls : List LibCall) :
    (Always libStep InTable (libStart after children) calls ∧
        AtEvery libStep LimitRight (libStart after children) calls) ↔
      AtEvery libStep LimitFair (libStart after children) calls := by
  have hstart := inTable_libStart after children
  rw [always_and_atEvery, and_iff_right hstart]
  refine atEvery_iff_atEvery (I := InTable) ?_ ?_ hstart
  · intro s call t hs hfair hstep
    obtain ⟨⟨u, hexec, hu⟩, -⟩ := (limitFair_iff hs call).mpr hfair
    rw [libStep, hexec] at hstep
    cases hstep
    exact hu
  · intro s call hs
    rw [← limitFair_iff hs call]
    constructor
    · rintro ⟨hafter, ⟨t, hexec⟩, hrefuses⟩
      exact ⟨⟨t, hexec, hafter t (by rw [libStep, hexec]; rfl)⟩, hrefuses⟩
    · rintro ⟨⟨t, hexec, ht⟩, hrefuses⟩
      refine ⟨fun u hu => ?_, ⟨t, hexec⟩, hrefuses⟩
      rw [libStep, hexec] at hu
      cases hu
      exact ht

/-- A sum that wraps is accepted, with a socket that may have more pages than there are. -/
example : askedPages 2 (fun i => if i = 0 then 0xFFFFFFFF else 2) = 2 ^ 32 + 1 ∧
    hugepageNum 2 (fun i => if i = 0 then 0xFFFFFFFF else 2) = 1 := by decide

/-- A limit above the length of the table is accepted. -/
theorem not_limit_holds : ¬ ∀ (after : ℕ → ManagerInfo) (children : ℤ → Child)
    (calls : List LibCall),
    Always libStep InTable (libStart after children) calls ∧
      AtEvery libStep LimitRight (libStart after children) calls := by
  intro h
  have hloops := ((h (fun _ => .zero) (fun _ => .none)
    [.manager (.op (.setAvailableLimit (fun i => if i = 0 then 33 else 0) ⟨[], 0⟩))]).1.2 _ rfl).le
  exact absurd hloops (by decide)

end HardwareDrivers.Libfpga
