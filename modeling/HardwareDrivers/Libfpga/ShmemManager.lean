import HardwareDrivers.Libfpga.ShmemMmap
import Mathlib.Data.BitVec

/-!
# The shared memory manager

`libshmem_manager.c`: a process that starts a DPDK primary process for each file prefix
keeps a table of them, with the hugepages that each may take of each socket. Every call
first looks which of the children ended.

The table lies in memory as an array: a loop that goes past its end reads what comes after,
and a prefix without its terminator goes on into the next entry.

## What is proved

* `checkHealth_reaps` — looking after the children only clears entries.
* `checkSockets_checked`, `checkFilePrefix_cases`, `getIndex_cases`, `setAvailableLimit_cases` —
  what the parts of a call leave.
-/

namespace HardwareDrivers.Libfpga

/-! ### Children -/

/-- How a child ends. -/
inductive ChildEnd where
  /-- It exits with a code. -/
  | exited (code : BitVec 8)
  /-- It is killed by signal `signum + 1`. -/
  | signaled (signum : Fin 64) (core : Bool)
  deriving DecidableEq, Repr

/-- The status that `waitpid` stores. -/
def ChildEnd.waitStatus : ChildEnd → BitVec 32
  | .exited code => code.setWidth 32 <<< 8
  | .signaled signum core => BitVec.ofNat 32 (signum + 1) ||| (if core then 0x80 else 0)

/-- What the kernel has for a pid. -/
inductive Child where
  /-- Not a child of this process, or waited for. -/
  | none
  /-- It runs. -/
  | alive
  /-- It ended, and was not waited for. -/
  | ended (how : ChildEnd)
  deriving DecidableEq, Repr

/-- `waitpid(pid, &status, WNOHANG)`: what it returns, the status and the children. -/
def waitpid (pid : ℤ) (status : BitVec 32) (children : ℤ → Child) : ℤ × BitVec 32 × (ℤ → Child) :=
  match children pid with
  | .none => (-1, status, children)
  | .alive => (0, status, children)
  | .ended how => (pid, how.waitStatus, Function.update children pid .none)

/-- `WIFEXITED`. -/
def wifexited (status : BitVec 32) : Bool := status &&& 0x7f = 0

/-- A child ends. -/
def endChild (children : ℤ → Child) (d : ℤ × ChildEnd) : ℤ → Child :=
  if children d.1 = .alive then Function.update children d.1 (.ended d.2) else children

/-- Some children end, in this order. -/
def endChildren (deaths : List (ℤ × ChildEnd)) (children : ℤ → Child) : ℤ → Child :=
  deaths.foldl endChild children

/-! ### The table -/

/-- `SHMEM_MAX_HUGEPAGES`, the length of the table. -/
abbrev shmemMaxHugepages : ℕ := 32

/-- `SHMEM_MAX_HUGEPAGE_PREFIX`, the length of a prefix in the table. -/
abbrev shmemMaxHugepagePrefix : ℕ := 64

/-- `SHMEM_MAX_NUMA_NODE`. -/
abbrev shmemMaxNumaNode : ℕ := 16

/-- A string of C. -/
structure CStr where
  /-- Its characters. -/
  bytes : List (BitVec 8)
  /-- The terminator is none of them. -/
  noNul : 0 ∉ bytes

/-- `fpga_shmem_manager_info_t`. -/
structure ManagerInfo where
  /-- `hp_limit`. -/
  hpLimit : BitVec 32
  /-- `pid`. -/
  pid : ℤ
  /-- `is_initialized`. -/
  isInitialized : BitVec 32
  /-- `socket_limit`. -/
  socketLimit : ℕ → BitVec 32
  /-- `file_prefix` up to its terminator, or all of it. -/
  filePrefix : List (BitVec 8)

/-- An entry of zero bytes. -/
def ManagerInfo.zero : ManagerInfo := ⟨0, 0, 0, fun _ => 0, []⟩

/-- An entry of no child: at most it is marked by one that is being made. -/
def ManagerInfo.marked (value : BitVec 32) : ManagerInfo :=
  { ManagerInfo.zero with isInitialized := value }

/-- The library and its children. -/
structure ShmemManager where
  /-- `manager_infos`, and what comes after it. -/
  managerInfos : ℕ → ManagerInfo
  /-- `fpga_shmem_hugepage_limit`. -/
  hugepageLimit : BitVec 32
  /-- `fpga_shmem_socket_limit`. -/
  socketLimit : ℕ → BitVec 32
  /-- `fpga_shmem_socket_num`. -/
  socketNum : ℕ
  /-- `signal_set`. -/
  signalSet : Bool
  /-- The children of the process. -/
  children : ℤ → Child

/-- `i < fpga_shmem_get_available_limit()` in a loop from `0`. -/
def ShmemManager.limit (s : ShmemManager) : ℕ := s.hugepageLimit.toInt.toNat

/-- The entry at `index` becomes `info`. -/
def ShmemManager.setInfo (s : ShmemManager) (index : ℕ) (info : ManagerInfo) : ShmemManager :=
  { s with managerInfos := Function.update s.managerInfos index info }

/-- The bytes of a word, the lowest first. -/
def leBytes (w : BitVec 32) : List (BitVec 8) :=
  [w.extractLsb' 0 8, w.extractLsb' 8 8, w.extractLsb' 16 8, w.extractLsb' 24 8]

/-- The bytes of an entry before its prefix. -/
def ManagerInfo.headBytes (info : ManagerInfo) : List (BitVec 8) :=
  leBytes info.hpLimit ++ leBytes (BitVec.ofInt 32 info.pid) ++ leBytes info.isInitialized ++
    (List.range shmemMaxNumaNode).flatMap fun i => leBytes (info.socketLimit i)

/-- What `strcmp` reads as the prefix of an entry. -/
def prefixString (infos : ℕ → ManagerInfo) (index : ℕ) : List (BitVec 8) :=
  if (infos index).filePrefix.length < shmemMaxHugepagePrefix then (infos index).filePrefix
  else (infos index).filePrefix ++ (infos (index + 1)).headBytes.takeWhile (· ≠ 0)

/-- `strcpy` to the prefix of an entry: the terminator of a prefix that fills it goes to the
lowest byte of the next `hp_limit`. -/
def strcpyPrefix (infos : ℕ → ManagerInfo) (index : ℕ) (filePrefix : CStr) : ℕ → ManagerInfo :=
  let infos := Function.update infos index
    { infos index with filePrefix := filePrefix.bytes }
  if filePrefix.bytes.length = shmemMaxHugepagePrefix then
    Function.update infos (index + 1)
      { infos (index + 1) with hpLimit := (infos (index + 1)).hpLimit &&& 0xffffff00 }
  else infos

/-! ### Looking after the children -/

/-- What happens around a call of `__fpga_shmem_check_health`. -/
structure HealthEnv where
  /-- The children that end before it. -/
  deaths : List (ℤ × ChildEnd)
  /-- What is in its `status` at the start. -/
  status : BitVec 32

/-- `__fpga_shmem_reset_manager_info`. -/
def resetManagerInfo (index : ℕ) (s : ShmemManager) : ShmemManager := s.setInfo index .zero

/-- The body of the loop of `__fpga_shmem_check_health`. -/
def checkEntry (x : BitVec 32 × ShmemManager) (i : ℕ) : BitVec 32 × ShmemManager :=
  let (status, s) := x
  if (s.managerInfos i).pid ≤ 0 then (status, s)
  else
    let (pid, status, children) := waitpid (s.managerInfos i).pid status s.children
    let s := { s with children }
    if pid = 0 then (status, s)
    else if wifexited status then (status, resetManagerInfo i s)
    else (status, s)

/-- `__fpga_shmem_check_health`. -/
def checkHealth (env : HealthEnv) (s : ShmemManager) : ShmemManager :=
  let s := { s with children := endChildren env.deaths s.children }
  ((List.range s.limit).foldl checkEntry (env.status, s)).2

/-! ### The calls -/

/-- How a call fails. -/
inductive ManagerErr where
  /-- An error code of the library. -/
  | code (err : LibfpgaErr)
  /-- `LIBFPGA_FATAL_ERROR`. -/
  | fatalError
  deriving DecidableEq, Repr

/-- `__fpga_shmem_get_index`. -/
def getIndex (env : HealthEnv) (s : ShmemManager) : Option ℕ × ShmemManager :=
  let s := checkHealth env s
  ((List.range s.limit).find? fun i => (s.managerInfos i).filePrefix.isEmpty, s)

/-- The loop of `__fpga_shmem_set_manager_info` over the sockets. -/
def setSocketLimits (socketNum : ℕ) (socketLimit : ℕ → BitVec 32) (info : ManagerInfo) :
    ManagerInfo :=
  (List.range socketNum).foldl (fun info i =>
    { info with
      socketLimit := Function.update info.socketLimit i (socketLimit i)
      hpLimit := info.hpLimit + socketLimit i }) info

/-- `__fpga_shmem_set_manager_info`. -/
def setManagerInfo (env : HealthEnv) (index : ℕ) (filePrefix : CStr) (pid : ℤ)
    (socketLimit : Option (ℕ → BitVec 32)) (s : ShmemManager) : ShmemManager :=
  let s := checkHealth env s
  let infos := strcpyPrefix s.managerInfos index filePrefix
  let info := { infos index with pid := pid, hpLimit := 0 }
  let info := match socketLimit with
    | none => info
    | some socketLimit => setSocketLimits s.socketNum socketLimit info
  { s with managerInfos := Function.update infos index info }

/-- What happens around a call of `fpga_shmem_manager_init`. -/
structure ManagerInitEnv where
  /-- In `__fpga_shmem_check_file_prefix`. -/
  filePrefix : HealthEnv
  /-- In `__fpga_shmem_check_memory`. -/
  memory : HealthEnv
  /-- In `__fpga_shmem_get_socket_sum`, for each socket. -/
  socket : ℕ → HealthEnv
  /-- In `__fpga_shmem_get_index`. -/
  index : HealthEnv
  /-- In `__fpga_shmem_set_manager_info`. -/
  set : HealthEnv
  /-- The directory was made, or is there. -/
  mkdir : Bool
  /-- The pid that `fork` returns. -/
  fork : Option ℤ
  /-- The number that the parent reads from the file of the child. -/
  tsf : Option (BitVec 32)

/-- A pid from `fork` is positive, and of no child that was not waited for. -/
def forkPid (env : ManagerInitEnv) (s : ShmemManager) : Option ℤ :=
  env.fork.filter fun pid => 0 < pid ∧ s.children pid = .none

/-- `SHMEM_INITIALIZED`. -/
abbrev shmemInitialized : BitVec 32 := 1

/-- `is_initialized` of an entry. -/
def setInitialized (index : ℕ) (value : BitVec 32) (s : ShmemManager) : ShmemManager :=
  s.setInfo index { s.managerInfos index with isInitialized := value }

/-- `__fpga_shmem_parent_process`. -/
def parentProcess (env : ManagerInitEnv) (pid : ℤ) (filePrefix : CStr)
    (socketLimit : Option (ℕ → BitVec 32)) (s : ShmemManager) :
    Except ManagerErr Unit × ShmemManager :=
  match getIndex env.index s with
  | (none, s) => (.error (.code .fullElement), s)
  | (some index, s) =>
    let s := match env.tsf with
      | none => s
      | some value => setInitialized index value s
    if (s.managerInfos index).isInitialized = shmemInitialized then
      (.ok (), setManagerInfo env.set index filePrefix pid socketLimit s)
    else (.error (.code .failureInitialize), setInitialized index 0 s)

/-- `__fpga_shmem_check_file_prefix`: whether it returns `0`. -/
def checkFilePrefix (env : HealthEnv) (filePrefix : Option CStr) (s : ShmemManager) :
    Bool × ShmemManager :=
  let s := checkHealth env s
  match filePrefix with
  | none => (false, s)
  | some filePrefix =>
    if shmemMaxHugepagePrefix < filePrefix.bytes.length then (false, s)
    else ((List.range s.limit).all fun i =>
      (s.managerInfos i).filePrefix.isEmpty || filePrefix.bytes ≠ prefixString s.managerInfos i, s)

/-- `__fpga_shmem_get_socket_sum`. -/
def getSocketSum (env : HealthEnv) (index : ℕ) (s : ShmemManager) : BitVec 32 × ShmemManager :=
  let s := checkHealth env s
  ((List.range s.limit).foldl (fun sum i => sum + (s.managerInfos i).socketLimit index) 0, s)

/-- The loop of `__fpga_shmem_check_memory`: the remainder is signed, and is compared with the
request as unsigned. -/
def checkSockets (env : ℕ → HealthEnv) (socketLimit : ℕ → BitVec 32) :
    List ℕ → ShmemManager → Bool × ShmemManager
  | [], s => (true, s)
  | i :: is, s =>
    let (sum, s) := getSocketSum (env i) i s
    let availablePerSocket := s.socketLimit i - sum
    if availablePerSocket.ult (socketLimit i) then (false, s)
    else checkSockets env socketLimit is s

/-- `__fpga_shmem_check_memory`: whether it returns `0`. -/
def checkMemory (env : ManagerInitEnv) (socketLimit : Option (ℕ → BitVec 32)) (s : ShmemManager) :
    Bool × ShmemManager :=
  let s := checkHealth env.memory s
  match socketLimit with
  | none => (true, s)
  | some socketLimit => checkSockets env.socket socketLimit (List.range s.socketNum) s

/-- `fpga_shmem_manager_init`, in the process that calls it. -/
def fpgaShmemManagerInit (filePrefix : Option CStr) (socketLimit : Option (ℕ → BitVec 32))
    (env : ManagerInitEnv) (s : ShmemManager) : Except ManagerErr Unit × ShmemManager :=
  match checkFilePrefix env.filePrefix filePrefix s, filePrefix with
  | (true, s), some filePrefix =>
    match checkMemory env socketLimit s with
    | (false, s) => (.error (.code .invalidArgument), s)
    | (true, s) =>
      if !s.signalSet then (.error (.code .notRegisteredSignal), s)
      else if !env.mkdir then (.error (.code .failureMkdir), s)
      else match forkPid env s with
        | none => (.error (.code .failureFork), s)
        | some pid => parentProcess env pid filePrefix socketLimit
            { s with children := Function.update s.children pid .alive }
  | (_, s), _ => (.error (.code .invalidArgument), s)

/-- `fpga_shmem_manager_finish`; `killed` says whether `kill` succeeds. What the signal does to
the child comes later. -/
def fpgaShmemManagerFinish (filePrefix : Option CStr) (killed : Bool) (s : ShmemManager) :
    Except ManagerErr Unit :=
  match filePrefix with
  | none => .error (.code .invalidArgument)
  | some filePrefix =>
    match (List.range s.limit).find? fun i =>
        !(s.managerInfos i).filePrefix.isEmpty && prefixString s.managerInfos i = filePrefix.bytes with
    | none => .error (.code .mismatchFilePrefix)
    | some index =>
      if (s.managerInfos index).pid ≤ 0 then .error .fatalError
      else if !killed then .error (.code .failureSendSignal)
      else .ok ()

/-- `fpga_shmem_get_pid_from_prefix`. -/
def fpgaShmemGetPidFromPrefix (env : HealthEnv) (filePrefix : CStr) (s : ShmemManager) :
    ℤ × ShmemManager :=
  let s := checkHealth env s
  match (List.range s.limit).find? fun i => prefixString s.managerInfos i = filePrefix.bytes with
  | none => (0, s)
  | some index => ((s.managerInfos index).pid, s)

/-- The sum of `hp_limit` in `fpga_shmem_get_available_pages`. -/
def usedPages (s : ShmemManager) : BitVec 32 :=
  (List.range s.limit).foldl (fun pages i =>
    if (s.managerInfos i).pid < 0 then pages else pages + (s.managerInfos i).hpLimit) 0

/-- `fpga_shmem_get_available_pages`. -/
def fpgaShmemGetAvailablePages (env : HealthEnv) (s : ShmemManager) : BitVec 32 × ShmemManager :=
  let s := checkHealth env s
  (s.hugepageLimit - usedPages s, s)

/-- `hugepage_num` in `fpga_shmem_set_available_limit`. -/
def hugepageNum (socketNum : ℕ) (socketLimit : ℕ → BitVec 32) : BitVec 32 :=
  (List.range socketNum).foldl (fun num i => num + socketLimit i) 0

/-- New limits. -/
def setLimits (socketLimit : ℕ → BitVec 32) (s : ShmemManager) : ShmemManager :=
  { s with
    socketLimit := fun i => if i < s.socketNum then socketLimit i else s.socketLimit i
    hugepageLimit := hugepageNum s.socketNum socketLimit }

/-- `fpga_shmem_set_available_limit`. -/
def fpgaShmemSetAvailableLimit (socketLimit : ℕ → BitVec 32) (env : HealthEnv) (s : ShmemManager) :
    Except ManagerErr Unit × ShmemManager :=
  let num := hugepageNum s.socketNum socketLimit
  if num.toInt < 0 ∧ shmemMaxHugepages < num.toInt then (.error (.code .invalidArgument), s)
  else
    let (pages, s) := fpgaShmemGetAvailablePages env s
    if num.toInt < (s.hugepageLimit - pages).toInt then (.error (.code .invalidArgument), s)
    else (.ok (), setLimits socketLimit s)

/-! ### Runs -/

/-- What happens. -/
inductive ManagerOp where
  /-- `fpga_shmem_manager_init`. -/
  | init (filePrefix : Option CStr) (socketLimit : Option (ℕ → BitVec 32)) (env : ManagerInitEnv)
  /-- Children end. -/
  | childrenEnd (deaths : List (ℤ × ChildEnd))
  /-- `fpga_shmem_manager_finish`. -/
  | finish (filePrefix : Option CStr) (killed : Bool)
  /-- `fpga_shmem_set_available_limit`. -/
  | setAvailableLimit (socketLimit : ℕ → BitVec 32) (env : HealthEnv)
  /-- `fpga_shmem_get_available_pages`. -/
  | getAvailablePages (env : HealthEnv)
  /-- `fpga_shmem_get_pid_from_prefix`. -/
  | getPidFromPrefix (filePrefix : CStr) (env : HealthEnv)

/-- What it does. -/
def ManagerOp.exec (s : ShmemManager) : ManagerOp → ShmemManager
  | .init filePrefix socketLimit env => (fpgaShmemManagerInit filePrefix socketLimit env s).2
  | .childrenEnd deaths => { s with children := endChildren deaths s.children }
  | .finish _ _ => s
  | .setAvailableLimit socketLimit env => (fpgaShmemSetAvailableLimit socketLimit env s).2
  | .getAvailablePages env => (fpgaShmemGetAvailablePages env s).2
  | .getPidFromPrefix filePrefix env => (fpgaShmemGetPidFromPrefix env filePrefix s).2

/-- A step of a run. -/
def managerStep (s : ShmemManager) (op : ManagerOp) : Option ShmemManager := some (op.exec s)

/-- After `fpga_shmem_set_signal`: no managers, and the limits that `__fpga_shmem_init_host_info`
found. -/
structure ShmemManager.Start (s : ShmemManager) : Prop where
  /-- The table is empty. -/
  table : ∀ i < shmemMaxHugepages, s.managerInfos i = .zero
  /-- A socket has so many free pages. -/
  sockets : ∀ i < s.socketNum, 0 ≤ (s.socketLimit i).toInt
  /-- No more pages than the table is long. -/
  limit : s.hugepageLimit.toInt ≤ shmemMaxHugepages

/-! ### What a call leaves -/

/-- Some entries were cleared, and nothing else of the library changed. -/
structure Reaped (s t : ShmemManager) : Prop where
  /-- An entry is as it was, or that of a child and cleared. -/
  entry : ∀ i, t.managerInfos i = s.managerInfos i ∨
    (0 < (s.managerInfos i).pid ∧ t.managerInfos i = .zero)
  /-- The limit of all is as it was. -/
  hugepageLimit : t.hugepageLimit = s.hugepageLimit
  /-- So are those of the sockets. -/
  socketLimit : t.socketLimit = s.socketLimit
  /-- So is the number of sockets. -/
  socketNum : t.socketNum = s.socketNum

variable {s t u : ShmemManager}

theorem Reaped.limit (h : Reaped s t) : t.limit = s.limit := by
  unfold ShmemManager.limit
  rw [h.hugepageLimit]

theorem reaped_of_children (children : ℤ → Child) : Reaped s { s with children } :=
  ⟨fun _ => .inl rfl, rfl, rfl, rfl⟩

theorem Reaped.refl (s : ShmemManager) : Reaped s s := ⟨fun _ => .inl rfl, rfl, rfl, rfl⟩

theorem Reaped.trans (h : Reaped s t) (h' : Reaped t u) : Reaped s u := by
  refine ⟨fun i => ?_, h'.hugepageLimit.trans h.hugepageLimit, h'.socketLimit.trans h.socketLimit,
    h'.socketNum.trans h.socketNum⟩
  obtain he' | ⟨hpid, hzero⟩ := h'.entry i
  · rw [he']
    exact h.entry i
  · right
    obtain he | ⟨hpid₀, -⟩ := h.entry i
    · rw [← he]
      exact ⟨hpid, hzero⟩
    · exact ⟨hpid₀, hzero⟩

theorem checkEntry_reaps (x : BitVec 32 × ShmemManager) (i : ℕ) : Reaped x.2 (checkEntry x i).2 := by
  obtain ⟨status, s⟩ := x
  unfold checkEntry
  dsimp only
  split
  · exact Reaped.refl s
  next hpid =>
    generalize waitpid (s.managerInfos i).pid status s.children = out
    obtain ⟨pid, status, children⟩ := out
    dsimp only
    split_ifs
    · exact reaped_of_children children
    · refine ⟨fun j => ?_, rfl, rfl, rfl⟩
      by_cases hj : j = i
      · subst hj
        exact .inr ⟨not_le.mp hpid, Function.update_self ..⟩
      · exact .inl (Function.update_of_ne hj ..)
    · exact reaped_of_children children

/-- **Looking after the children only clears entries.** -/
theorem checkHealth_reaps (env : HealthEnv) (s : ShmemManager) : Reaped s (checkHealth env s) := by
  have hloop : ∀ (is : List ℕ) (x : BitVec 32 × ShmemManager),
      Reaped x.2 (is.foldl checkEntry x).2 := by
    intro is
    induction is with
    | nil => exact fun x => Reaped.refl x.2
    | cons i is ih => exact fun x => (checkEntry_reaps x i).trans (ih _)
  exact (reaped_of_children (endChildren env.deaths s.children)).trans
    (hloop (List.range s.limit) (env.status, _))

/-- A state that some health checks lead to, each with `Q`. -/
inductive Checked (Q : HealthEnv → Prop) (s : ShmemManager) : ShmemManager → Prop where
  /-- None. -/
  | refl : Checked Q s s
  /-- One more. -/
  | check {t : ShmemManager} (env : HealthEnv) (h : Checked Q s t) (hq : Q env) :
      Checked Q s (checkHealth env t)

variable {Q : HealthEnv → Prop}

theorem Checked.one {env : HealthEnv} (hq : Q env) : Checked Q s (checkHealth env s) :=
  .check env .refl hq

theorem Checked.trans (h : Checked Q s t) (h' : Checked Q t u) : Checked Q s u := by
  induction h' with
  | refl => exact h
  | check env _ hq ih => exact .check env ih hq

theorem Checked.reaped (h : Checked Q s t) : Reaped s t := by
  induction h with
  | refl => exact Reaped.refl s
  | check env _ _ ih => exact ih.trans (checkHealth_reaps env _)

/-- Every health check of the call has `Q`. -/
structure ManagerInitEnv.All (Q : HealthEnv → Prop) (env : ManagerInitEnv) : Prop where
  /-- The first. -/
  filePrefix : Q env.filePrefix
  /-- The second. -/
  memory : Q env.memory
  /-- Those of the sockets. -/
  socket : ∀ k, Q (env.socket k)
  /-- The last but one. -/
  index : Q env.index
  /-- The last. -/
  set : Q env.set

theorem checkSockets_checked {env : ℕ → HealthEnv} (hq : ∀ k, Q (env k)) (r : ℕ → BitVec 32)
    (is : List ℕ) (s : ShmemManager) : Checked Q s (checkSockets env r is s).2 := by
  induction is generalizing s with
  | nil => exact .refl
  | cons i is ih =>
    have hsum : Checked Q s (getSocketSum (env i) i s).2 := .one (hq i)
    unfold checkSockets
    dsimp only
    split
    · exact hsum
    · exact hsum.trans (ih _)

theorem checkMemory_checked {env : ManagerInitEnv} (hq : env.All Q)
    (socketLimit : Option (ℕ → BitVec 32)) (s : ShmemManager) :
    Checked Q s (checkMemory env socketLimit s).2 := by
  have hfirst : Checked Q s (checkHealth env.memory s) := .one hq.memory
  cases socketLimit with
  | none => exact hfirst
  | some r => exact hfirst.trans (checkSockets_checked hq.socket ..)

/-- A prefix that passes is in no entry below the limit. -/
theorem checkFilePrefix_cases (env : HealthEnv) (filePrefix : Option CStr) (s : ShmemManager) :
    (checkFilePrefix env filePrefix s).2 = checkHealth env s ∧
      ((checkFilePrefix env filePrefix s).1 = true ↔ ∃ p, filePrefix = some p ∧
        p.bytes.length ≤ shmemMaxHugepagePrefix ∧
        ∀ i < s.limit, ((checkHealth env s).managerInfos i).filePrefix = [] ∨
          p.bytes ≠ prefixString (checkHealth env s).managerInfos i) := by
  unfold checkFilePrefix
  cases filePrefix with
  | none => exact ⟨rfl, by simp⟩
  | some p =>
    dsimp only
    split
    next hlen =>
      refine ⟨rfl, iff_of_false (by simp) ?_⟩
      rintro ⟨p', heq, hle, -⟩
      cases heq
      exact absurd hlen (not_lt.mpr hle)
    next hlen =>
      refine ⟨rfl, ?_⟩
      rw [List.all_eq_true, (checkHealth_reaps env s).limit]
      constructor
      · intro hall
        refine ⟨p, rfl, not_lt.mp hlen, fun i hi => ?_⟩
        have hi := hall i (List.mem_range.mpr hi)
        simpa using hi
      · rintro ⟨p', heq, -, hall⟩ i hi
        cases heq
        have hi := hall i (List.mem_range.mp hi)
        simpa using hi

theorem getIndex_cases (env : HealthEnv) (s : ShmemManager) :
    (getIndex env s).2 = checkHealth env s ∧
      ∀ index, (getIndex env s).1 = some index →
        index < s.limit ∧ ((checkHealth env s).managerInfos index).filePrefix = [] := by
  refine ⟨rfl, fun index h => ?_⟩
  unfold getIndex at h
  have hmem := List.mem_of_find?_eq_some h
  have hempty := List.find?_some h
  rw [List.mem_range, (checkHealth_reaps env s).limit] at hmem
  exact ⟨hmem, by simpa using hempty⟩

theorem setInitialized_again (index : ℕ) (value value' : BitVec 32) (s : ShmemManager) :
    setInitialized index value' (setInitialized index value s) = setInitialized index value' s := by
  unfold setInitialized ShmemManager.setInfo
  simp only [Function.update_self, Function.update_idem]

/-- The parent finds no entry, or one without a prefix, and then the child is ready or not. -/
theorem parentProcess_cases (env : ManagerInitEnv) (pid : ℤ) (p : CStr)
    (socketLimit : Option (ℕ → BitVec 32)) (s : ShmemManager) :
    (parentProcess env pid p socketLimit s).2 = checkHealth env.index s ∨
      ∃ index < s.limit, ((checkHealth env.index s).managerInfos index).filePrefix = [] ∧
        ((parentProcess env pid p socketLimit s).2 =
            setInitialized index 0 (checkHealth env.index s) ∨
          ∃ value, (parentProcess env pid p socketLimit s).2 = setManagerInfo env.set index p pid
            socketLimit (setInitialized index value (checkHealth env.index s))) := by
  obtain ⟨hstate, hfound⟩ := getIndex_cases env.index s
  unfold parentProcess
  generalize getIndex env.index s = out at hstate hfound ⊢
  obtain ⟨found, t⟩ := out
  obtain rfl : t = checkHealth env.index s := hstate
  cases found with
  | none => exact .inl rfl
  | some index =>
    obtain ⟨hindex, hempty⟩ := hfound index rfl
    refine .inr ⟨index, hindex, hempty, ?_⟩
    cases env.tsf with
    | none =>
      dsimp only
      split
      next hmark =>
        refine .inr ⟨((checkHealth env.index s).managerInfos index).isInitialized, ?_⟩
        unfold setInitialized ShmemManager.setInfo
        rw [Function.update_eq_self]
      next => exact .inl rfl
    | some value =>
      dsimp only
      split
      · exact .inr ⟨value, rfl⟩
      · exact .inl (setInitialized_again ..)

/-- **A call fails before the fork, or goes on as the parent of a new child.** -/
theorem managerInit_cases {env : ManagerInitEnv} (hq : env.All Q) (filePrefix : Option CStr)
    (socketLimit : Option (ℕ → BitVec 32)) (s : ShmemManager) :
    Checked Q s (fpgaShmemManagerInit filePrefix socketLimit env s).2 ∨
      ∃ p u pid, filePrefix = some p ∧
        (checkFilePrefix env.filePrefix filePrefix s).1 = true ∧
        checkMemory env socketLimit (checkHealth env.filePrefix s) = (true, u) ∧
        0 < pid ∧ u.children pid = .none ∧
        (fpgaShmemManagerInit filePrefix socketLimit env s).2 =
          (parentProcess env pid p socketLimit
            { u with children := Function.update u.children pid .alive }).2 := by
  obtain ⟨hstate, hpass⟩ := checkFilePrefix_cases env.filePrefix filePrefix s
  have hfirst : Checked Q s (checkHealth env.filePrefix s) := .one hq.filePrefix
  have hmemory := checkMemory_checked hq socketLimit (checkHealth env.filePrefix s)
  unfold fpgaShmemManagerInit
  generalize checkFilePrefix env.filePrefix filePrefix s = out at hstate hpass ⊢
  obtain ⟨passed, s₁⟩ := out
  obtain rfl : s₁ = checkHealth env.filePrefix s := hstate
  cases passed with
  | false => exact .inl hfirst
  | true =>
    obtain ⟨p, rfl, -⟩ := hpass.mp rfl
    dsimp only
    generalize checkMemory env socketLimit (checkHealth env.filePrefix s) = out at hmemory ⊢
    obtain ⟨passed, u⟩ := out
    have hu := hfirst.trans hmemory
    cases passed with
    | false => exact .inl hu
    | true =>
      dsimp only
      split_ifs
      · exact .inl hu
      · exact .inl hu
      · cases hfork : forkPid env u with
        | none => exact .inl hu
        | some pid =>
          obtain ⟨-, hpid⟩ := Option.filter_eq_some_iff.mp hfork
          obtain ⟨hpos, hnone⟩ := of_decide_eq_true hpid
          exact .inr ⟨p, u, pid, rfl, rfl, rfl, hpos, hnone, rfl⟩

theorem getPidFromPrefix_state (env : HealthEnv) (filePrefix : CStr) (s : ShmemManager) :
    (fpgaShmemGetPidFromPrefix env filePrefix s).2 = checkHealth env s := by
  unfold fpgaShmemGetPidFromPrefix
  dsimp only
  split <;> rfl

/-- New limits are set where they are not below the pages in use. -/
theorem setAvailableLimit_cases (socketLimit : ℕ → BitVec 32) (env : HealthEnv) (s : ShmemManager) :
    (fpgaShmemSetAvailableLimit socketLimit env s).2 = checkHealth env s ∨
      ((usedPages (checkHealth env s)).toInt ≤ (hugepageNum s.socketNum socketLimit).toInt ∧
        (fpgaShmemSetAvailableLimit socketLimit env s).2 =
          setLimits socketLimit (checkHealth env s)) := by
  have hnever : ¬ ((hugepageNum s.socketNum socketLimit).toInt < 0 ∧
      (shmemMaxHugepages : ℤ) < (hugepageNum s.socketNum socketLimit).toInt) := by omega
  unfold fpgaShmemSetAvailableLimit fpgaShmemGetAvailablePages
  dsimp only
  rw [if_neg hnever, sub_sub_cancel]
  split
  · exact .inl rfl
  next hused => exact .inr ⟨not_lt.mp hused, rfl⟩

end HardwareDrivers.Libfpga
