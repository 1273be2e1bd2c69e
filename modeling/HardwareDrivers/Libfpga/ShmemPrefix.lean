import HardwareDrivers.Libfpga.ShmemFinishAllSound
import Mathlib.Data.List.TakeWhile

/-!
# The prefix of a manager

A prefix comes to a manager by several ways: `fpga_shmem_manager_init` copies it to the table,
`fpga_shmem_enable` copies as many bytes as the command has room for, the controller prints it into
the name of the lock file, and the notification scans it from there. The first checks that it is not
longer than its array, where the terminator has no room then; an empty prefix marks an entry that is
free.

## What is proved

* `managerInit_ok` — a call that succeeds enters its manager.
* `commandPrefix_string` — what the controller reads of a command is the prefix, if it is short.
* `callbackPrefix_eq` — the notification finds the prefix, if there is no slash in it.
* `prefix_works` — a run in which prefixes fit, and no limit is set below a manager, finds every
  manager by its prefix.
-/

namespace HardwareDrivers.Libfpga

open Theory

/-! ### The command -/

/-- `memcpy(command.file_prefix, file_prefix, sizeof(command.file_prefix))`; `beyond` is what comes
after the string. -/
def commandPrefix (filePrefix : CStr) (beyond : ℕ → BitVec 8) : List (BitVec 8) :=
  (List.range shmemMaxHugepagePrefix).map fun i => (filePrefix.bytes ++ [0]).getD i (beyond i)

/-- `command.socket_limit`. -/
def commandLimits (socketLimit : Option (ℕ → BitVec 32)) : List (BitVec 8) :=
  (List.range shmemMaxNumaNode).flatMap fun i => leBytes (socketLimit.elim 0 (· i))

/-- `command.file_prefix` as a string: without a terminator it goes on into the limits, and ends at
the latest in `lcore_mask`, which is zero. -/
def commandString (filePrefix : CStr) (beyond : ℕ → BitVec 8)
    (socketLimit : Option (ℕ → BitVec 32)) : CStr where
  bytes := (commandPrefix filePrefix beyond ++ commandLimits socketLimit).takeWhile (· ≠ 0)
  noNul h := by simpa using List.mem_takeWhile_imp h

/-- `fpga_shmem_enable`, as the controller executes it. -/
def enableCommand (filePrefix : CStr) (beyond : ℕ → BitVec 8)
    (socketLimit : Option (ℕ → BitVec 32)) (env : ManagerInitEnv) (s : ShmemManager) :
    Except ManagerErr Unit × ShmemManager :=
  fpgaShmemManagerInit (some (commandString filePrefix beyond socketLimit)) socketLimit env s

/-! ### The notification -/

/-- `"/var/run/dpdk/"`. -/
def runDir : List (BitVec 8) :=
  [0x2f, 0x76, 0x61, 0x72, 0x2f, 0x72, 0x75, 0x6e, 0x2f, 0x64, 0x70, 0x64, 0x6b, 0x2f]

/-- `'/'`. -/
abbrev slash : BitVec 8 := 0x2f

/-- `"/.lock"`. -/
def lockName : List (BitVec 8) := [slash, 0x2e, 0x6c, 0x6f, 0x63, 0x6b]

/-- `SHMEM_FMT_FLOCK_FILE`. -/
def flockFile (filePrefix : List (BitVec 8)) : List (BitVec 8) := runDir ++ filePrefix ++ lockName

/-- `sscanf(filename, "/var/run/dpdk/%[^/]/.lock", file_prefix)`: what is stored before the
terminator, if anything is. -/
def scanPrefix (filename : List (BitVec 8)) : Option (List (BitVec 8)) :=
  if runDir <+: filename then
    some ((filename.drop runDir.length).takeWhile (· ≠ slash)) |>.filter (· ≠ [])
  else none

/-- `file_prefix` of `callback_function_notification_prefix` for the lock file of a command; it is
zero before. -/
def callbackPrefix (command : CStr) : List (BitVec 8) := (scanPrefix (flockFile command.bytes)).getD []

/-! ### Runs -/

/-- A call of the library, or of the controller. -/
inductive PrefixCall where
  /-- Of the library. -/
  | call (c : ManagerCall)
  /-- `fpga_shmem_enable`. -/
  | enable (filePrefix : CStr) (beyond : ℕ → BitVec 8) (socketLimit : Option (ℕ → BitVec 32))
    (env : ManagerInitEnv)

/-- What it does. -/
def PrefixCall.exec (s : ShmemManager) : PrefixCall → ShmemManager
  | .call c => c.exec s
  | .enable filePrefix beyond socketLimit env =>
    (enableCommand filePrefix beyond socketLimit env s).2

/-- A step of a run. -/
def prefixStep (s : ShmemManager) (call : PrefixCall) : Option ShmemManager := some (call.exec s)

/-! ### The property -/

/-- A string is in an array of the length of a prefix, with its terminator. -/
def FitsPrefix (bytes : List (BitVec 8)) : Prop := bytes.length < shmemMaxHugepagePrefix

/-- The prefix is in an entry, and nothing else was overwritten. -/
structure StoredAt (p : CStr) (index : ℕ) (s t : ShmemManager) : Prop where
  /-- The terminator is in the array. -/
  inside : FitsPrefix (t.managerInfos index).filePrefix
  /-- It is the prefix. -/
  stored : (t.managerInfos index).filePrefix = p.bytes
  /-- The entry counts as occupied. -/
  occupied : (t.managerInfos index).filePrefix ≠ []
  /-- It is that of a manager. -/
  active : t.Active index
  /-- Another entry is as it was, or was cleared when its manager was reaped. -/
  others : ∀ j, j ≠ index → t.managerInfos j = s.managerInfos j ∨
    (0 < (s.managerInfos j).pid ∧ t.managerInfos j = .zero)
  /-- The limit of all is as it was. -/
  hugepageLimit : t.hugepageLimit = s.hugepageLimit
  /-- So are those of the sockets. -/
  socketLimit : t.socketLimit = s.socketLimit
  /-- So is the number of sockets. -/
  socketNum : t.socketNum = s.socketNum

/-- What a call that accepts a prefix has done: with it every other is refused. -/
def AcceptsStored (s : ShmemManager) : PrefixCall → Prop
  | .call (.op (.init (some p) socketLimit env)) =>
      (fpgaShmemManagerInit (some p) socketLimit env s).1 = .ok () →
        ∃ index < shmemMaxHugepages,
          StoredAt p index s (fpgaShmemManagerInit (some p) socketLimit env s).2
  | .enable p beyond socketLimit env =>
      (enableCommand p beyond socketLimit env s).1 = .ok () →
        (∃ index < shmemMaxHugepages,
          StoredAt p index s (enableCommand p beyond socketLimit env s).2) ∧
        p.bytes ++ [0] <+: commandPrefix p beyond ∧
        callbackPrefix (commandString p beyond socketLimit) = p.bytes ∧ FitsPrefix p.bytes
  | _ => True

/-- The manager of an entry is found by its prefix until it is reaped. -/
structure FoundBy (p : CStr) (i : ℕ) (s : ShmemManager) : Prop where
  /-- `fpga_shmem_manager_finish` sends the signal to it. -/
  finish : finishPid p.bytes s = .ok (s.managerInfos i).pid
  /-- `fpga_shmem_get_pid_from_prefix` returns its pid. -/
  pid : ∀ env, (checkHealth env s).Active i →
    (fpgaShmemGetPidFromPrefix env p s).1 = (s.managerInfos i).pid
  /-- A second `fpga_shmem_manager_init` is refused. -/
  again : ∀ socketLimit env, (checkHealth env.filePrefix s).Active i →
    (fpgaShmemManagerInit (some p) socketLimit env s).1 = .error (.code .invalidArgument)
  /-- So is `fpga_shmem_enable`. -/
  enabled : ∀ beyond socketLimit env, (checkHealth env.filePrefix s).Active i →
    (enableCommand p beyond socketLimit env s).1 = .error (.code .invalidArgument)

/-- Every manager is found by its prefix. -/
def FindsAll (s : ShmemManager) : Prop :=
  ∀ i < shmemMaxHugepages, s.Active i →
    ∀ p : CStr, p.bytes = (s.managerInfos i).filePrefix → FoundBy p i s

/-- A prefix is not empty and does not fill its array to the last character, one that fits has no slash
for the notification; and a limit that is set holds. -/
def PrefixFair (s : ShmemManager) : PrefixCall → Prop
  | .call (.op (.init (some p) _ _)) => p.bytes ≠ [] ∧ p.bytes.length ≠ shmemMaxHugepagePrefix
  | .call (.op o) => KeepsListed s o
  | .call (.finishAll _) => True
  | .enable p beyond socketLimit _ => p.bytes ≠ [] ∧
      (commandString p beyond socketLimit).bytes.length ≠ shmemMaxHugepagePrefix ∧
      (FitsPrefix p.bytes → slash ∉ p.bytes)

variable {s t : ShmemManager}

/-! ### The way of the prefix -/

/-- A string that has room for its terminator is in the command as a whole. -/
theorem commandPrefix_eq {p : CStr} (hlen : FitsPrefix p.bytes) (beyond : ℕ → BitVec 8) :
    ∃ rest, commandPrefix p beyond = p.bytes ++ 0 :: rest := by
  have hsplit : shmemMaxHugepagePrefix =
      (p.bytes ++ [0]).length + (shmemMaxHugepagePrefix - (p.bytes.length + 1)) := by
    unfold FitsPrefix at hlen
    rw [List.length_append, List.length_singleton]
    omega
  have hfirst : (List.range (p.bytes ++ [0]).length).map
      (fun i => (p.bytes ++ [0]).getD i (beyond i)) = p.bytes ++ [0] := by
    refine List.ext_getElem (by simp) fun i hi hi' => ?_
    rw [List.getElem_map, List.getElem_range, List.getD_eq_getElem?_getD, List.getElem?_eq_getElem hi']
    rfl
  unfold commandPrefix
  rw [hsplit, List.range_add, List.map_append, hfirst]
  exact ⟨_, List.append_assoc ..⟩

/-- So the controller reads it. -/
theorem commandPrefix_string {p : CStr} (hlen : FitsPrefix p.bytes) (beyond : ℕ → BitVec 8)
    (socketLimit : Option (ℕ → BitVec 32)) :
    (commandString p beyond socketLimit).bytes = p.bytes := by
  obtain ⟨rest, heq⟩ := commandPrefix_eq hlen beyond
  have hnul : ∀ c ∈ p.bytes, decide (c ≠ 0) = true := by
    rintro c hc
    rw [decide_eq_true_iff]
    rintro rfl
    exact p.noNul hc
  unfold commandString
  dsimp only
  rw [heq, List.append_assoc, List.takeWhile_append_of_pos hnul, List.cons_append,
    List.takeWhile_cons_of_neg (by simp), List.append_nil]

/-- **The notification finds the prefix** in the name of the lock file. -/
theorem callbackPrefix_eq {p : CStr} (hne : p.bytes ≠ []) (hslash : slash ∉ p.bytes) :
    callbackPrefix p = p.bytes := by
  have hchars : ∀ c ∈ p.bytes, decide (c ≠ slash) = true := by
    rintro c hc
    rw [decide_eq_true_iff]
    rintro rfl
    exact hslash hc
  have hscan : (p.bytes ++ lockName).takeWhile (· ≠ slash) = p.bytes := by
    unfold lockName
    rw [List.takeWhile_append_of_pos hchars, List.takeWhile_cons_of_neg (by simp), List.append_nil]
  unfold callbackPrefix scanPrefix flockFile
  rw [List.append_assoc, if_pos (List.prefix_append ..), List.drop_left, hscan,
    Option.filter_some, if_pos (decide_eq_true hne)]
  rfl

/-! ### A new manager -/

theorem parentProcess_ok {env : ManagerInitEnv} {pid : ℤ} {p : CStr}
    {socketLimit : Option (ℕ → BitVec 32)}
    (hok : (parentProcess env pid p socketLimit s).1 = .ok ()) :
    ∃ index < s.limit, ((checkHealth env.index s).managerInfos index).filePrefix = [] ∧
      ∃ value, (parentProcess env pid p socketLimit s).2 = setManagerInfo env.set index p pid
        socketLimit (setInitialized index value (checkHealth env.index s)) := by
  obtain ⟨hstate, hfound⟩ := getIndex_cases env.index s
  unfold parentProcess at hok ⊢
  generalize getIndex env.index s = out at hstate hfound hok ⊢
  obtain ⟨found, u⟩ := out
  obtain rfl : u = checkHealth env.index s := hstate
  cases found with
  | none => cases hok
  | some index =>
    obtain ⟨hindex, hempty⟩ := hfound index rfl
    refine ⟨index, hindex, hempty, ?_⟩
    dsimp only at hok ⊢
    generalize env.tsf = tsf at hok ⊢
    cases tsf with
    | none =>
      dsimp only at hok ⊢
      split_ifs at hok ⊢ with hmark
      refine ⟨((checkHealth env.index s).managerInfos index).isInitialized, ?_⟩
      unfold setInitialized ShmemManager.setInfo
      rw [Function.update_eq_self]
    | some value =>
      dsimp only at hok ⊢
      split_ifs at hok ⊢ with hmark
      exact ⟨value, rfl⟩

/-- **A call that succeeds is the parent of a new child, which it enters.** -/
theorem managerInit_ok {filePrefix : Option CStr} {socketLimit : Option (ℕ → BitVec 32)}
    {env : ManagerInitEnv} (hok : (fpgaShmemManagerInit filePrefix socketLimit env s).1 = .ok ()) :
    ∃ p u pid, filePrefix = some p ∧ (checkFilePrefix env.filePrefix filePrefix s).1 = true ∧
      Reaped s u ∧ 0 < pid ∧
      fpgaShmemManagerInit filePrefix socketLimit env s = parentProcess env pid p socketLimit u := by
  have hq : env.All fun _ => True := ⟨trivial, trivial, fun _ => trivial, trivial, trivial⟩
  obtain ⟨hstate, hpass⟩ := checkFilePrefix_cases env.filePrefix filePrefix s
  have hmemory := (checkMemory_checked hq socketLimit (checkHealth env.filePrefix s)).reaped
  unfold fpgaShmemManagerInit at hok ⊢
  generalize checkFilePrefix env.filePrefix filePrefix s = out at hstate hpass hok ⊢
  obtain ⟨passed, s₁⟩ := out
  obtain rfl : s₁ = checkHealth env.filePrefix s := hstate
  cases passed with
  | false => cases hok
  | true =>
    obtain ⟨p, rfl, -⟩ := hpass.mp rfl
    dsimp only at hok ⊢
    generalize checkMemory env socketLimit (checkHealth env.filePrefix s) = out at hmemory hok ⊢
    obtain ⟨passed, u⟩ := out
    cases passed with
    | false => cases hok
    | true =>
      dsimp only at hok ⊢
      split_ifs at hok ⊢
      cases hfork : forkPid env u with
      | none =>
        rw [hfork] at hok
        cases hok
      | some pid =>
        obtain ⟨-, hpid⟩ := Option.filter_eq_some_iff.mp hfork
        obtain ⟨hpos, -⟩ := of_decide_eq_true hpid
        exact ⟨p, _, pid, rfl, rfl, ((checkHealth_reaps env.filePrefix s).trans hmemory).trans
          (reaped_of_children _), hpos, rfl⟩

/-- A prefix with room for its terminator is stored, and nothing else overwritten. -/
theorem storedAt_of_ok {p : CStr} (hlen : FitsPrefix p.bytes) (hne : p.bytes ≠ [])
    (hlimit : s.limit ≤ shmemMaxHugepages) {socketLimit : Option (ℕ → BitVec 32)}
    {env : ManagerInitEnv} (hok : (fpgaShmemManagerInit (some p) socketLimit env s).1 = .ok ()) :
    ∃ index < shmemMaxHugepages,
      StoredAt p index s (fpgaShmemManagerInit (some p) socketLimit env s).2 := by
  obtain ⟨_, u, pid, ⟨⟩, -, hr, hpos, heq⟩ := managerInit_ok hok
  rw [heq] at hok ⊢
  obtain ⟨index, hindex, -, value, hstate⟩ := parentProcess_ok hok
  have hfirst := hr.trans (checkHealth_reaps env.index u)
  have hset := checkHealth_reaps env.set (setInitialized index value (checkHealth env.index u))
  obtain ⟨info, hinfo, hipid, hiname, -⟩ := setManagerInfo_eq hlen env.set index pid socketLimit
    (setInitialized index value (checkHealth env.index u))
  rw [hstate, hinfo]
  have hbelow : index < shmemMaxHugepages := lt_of_lt_of_le (hr.limit ▸ hindex) hlimit
  -- from here on it does not matter how the two states came about
  generalize checkHealth env.set (setInitialized index value (checkHealth env.index u)) = t at hset ⊢
  generalize checkHealth env.index u = v at hfirst hset
  have hentry : (t.setInfo index info).managerInfos index = info := setInfo_self ..
  refine ⟨index, hbelow, ?_⟩
  refine ⟨by rwa [hentry, hiname], by rw [hentry, hiname], by rwa [hentry, hiname], ?_, fun j hj => ?_,
    hset.hugepageLimit.trans hfirst.hugepageLimit, hset.socketLimit.trans hfirst.socketLimit,
    hset.socketNum.trans hfirst.socketNum⟩
  · unfold ShmemManager.Active
    rw [hentry, hipid]
    exact hpos
  · rw [setInfo_of_ne hj]
    have hsame := setInitialized_of_ne (s := v) hj value
    obtain he | ⟨hpid, hzero⟩ := hset.entry j
    · rw [he, hsame]
      exact hfirst.entry j
    · rw [hsame] at hpid
      obtain he' | ⟨hpid', -⟩ := hfirst.entry j
      · exact .inr ⟨he' ▸ hpid, hzero⟩
      · exact .inr ⟨hpid', hzero⟩

/-! ### A manager there is -/

/-- The first entry whose prefix is that of a manager is the one of the manager. -/
theorem Listed.find_by_name (h : Listed s) {i : ℕ} (hi : i < s.limit) (ha : s.Active i) :
    (List.range s.limit).find? (fun j =>
      prefixString s.managerInfos j = (s.managerInfos i).filePrefix) = some i := by
  have hbelow := lt_of_lt_of_le hi h.limit_le
  cases hfind : (List.range s.limit).find? fun j =>
      prefixString s.managerInfos j = (s.managerInfos i).filePrefix with
  | none =>
    have hnot := List.find?_eq_none.mp hfind i (List.mem_range.mpr hi)
    exact absurd (decide_eq_true (h.prefixString_eq hbelow ha)) hnot
  | some j =>
    have hj := lt_of_lt_of_le (List.mem_range.mp (List.mem_of_find?_eq_some hfind)) h.limit_le
    have hfound := List.find?_some hfind
    have heq := of_decide_eq_true hfound
    by_cases haj : s.Active j
    · rw [h.prefixString_eq hj haj] at heq
      rw [h.prefixes j hj i hbelow haj ha heq]
    · obtain ⟨value, hfree⟩ := h.free j hj haj
      unfold prefixString at heq
      rw [hfree] at heq
      exact absurd heq.symm (h.named i hbelow ha).1

/-- **A manager is found by its prefix until it is reaped.** -/
theorem Listed.foundBy (h : Listed s) {i : ℕ} (hi : i < shmemMaxHugepages) (ha : s.Active i) {p : CStr}
    (hp : p.bytes = (s.managerInfos i).filePrefix) : FoundBy p i s := by
  have hlimit := h.below i hi ha
  obtain ⟨hne, hlen⟩ := h.named i hi ha
  have hagain : ∀ (q : CStr) socketLimit env, q.bytes = p.bytes →
      (checkHealth env.filePrefix s).Active i →
      (fpgaShmemManagerInit (some q) socketLimit env s).1 = .error (.code .invalidArgument) := by
    intro q socketLimit env hq hchecked
    have hr := checkHealth_reaps env.filePrefix s
    have hpass : (checkFilePrefix env.filePrefix (some q) s).1 = false := by
      by_contra hnot
      rw [Bool.not_eq_false] at hnot
      have hfresh := h.fresh_of_pass hnot hlimit hchecked
      rw [(hr.active hchecked).2, hq, hp] at hfresh
      exact hfresh rfl
    unfold fpgaShmemManagerInit
    generalize checkFilePrefix env.filePrefix (some q) s = out at hpass ⊢
    obtain ⟨passed, u⟩ := out
    obtain rfl : passed = false := hpass
    rfl
  refine ⟨?_, fun env hchecked => ?_, fun socketLimit env => hagain p socketLimit env rfl,
    fun beyond socketLimit env => hagain _ socketLimit env (commandPrefix_string ?_ ..)⟩
  · rw [hp, ← h.prefixString_eq hi ha]
    exact h.entered.finishPid_eq hlimit ha
  · have hr := checkHealth_reaps env s
    have hsame := (hr.active hchecked).2
    have hfind := (h.reaped hr).find_by_name (hr.limit ▸ hlimit) hchecked
    rw [hsame, ← hp] at hfind
    unfold fpgaShmemGetPidFromPrefix
    dsimp only
    rw [hfind]
    dsimp only
    rw [hsame]
  · unfold FitsPrefix
    rw [hp]
    exact hlen

/-! ### Runs -/

/-- A prefix that is longer than its array is refused. -/
theorem managerInit_long {p : CStr} (hlen : shmemMaxHugepagePrefix < p.bytes.length)
    (socketLimit : Option (ℕ → BitVec 32)) (env : ManagerInitEnv) (s : ShmemManager) :
    fpgaShmemManagerInit (some p) socketLimit env s =
      (.error (.code .invalidArgument), checkHealth env.filePrefix s) := by
  have hcheck : checkFilePrefix env.filePrefix (some p) s = (false, checkHealth env.filePrefix s) := by
    unfold checkFilePrefix
    exact if_pos hlen
  unfold fpgaShmemManagerInit
  rw [hcheck]

/-- So a call keeps the table, if the prefix does not fill its array. -/
theorem Listed.initAny (h : Listed s) {p : CStr} (hne : p.bytes ≠ [])
    (hlen : p.bytes.length ≠ shmemMaxHugepagePrefix) (socketLimit : Option (ℕ → BitVec 32))
    (env : ManagerInitEnv) : Listed (fpgaShmemManagerInit (some p) socketLimit env s).2 := by
  obtain hlt | hgt := lt_or_gt_of_ne hlen
  · refine h.init env ?_ socketLimit
    rintro _ ⟨⟩
    exact ⟨hne, hlt⟩
  · rw [managerInit_long hgt]
    exact h.reaped (checkHealth_reaps env.filePrefix s)

theorem Listed.storedAt (h : Listed s) {p : CStr} (hne : p.bytes ≠ [])
    (hlen : p.bytes.length ≠ shmemMaxHugepagePrefix) {socketLimit : Option (ℕ → BitVec 32)}
    {env : ManagerInitEnv} (hok : (fpgaShmemManagerInit (some p) socketLimit env s).1 = .ok ()) :
    FitsPrefix p.bytes ∧ ∃ index < shmemMaxHugepages,
      StoredAt p index s (fpgaShmemManagerInit (some p) socketLimit env s).2 := by
  obtain hlt | hgt := lt_or_gt_of_ne hlen
  · exact ⟨hlt, storedAt_of_ok hlt hne h.limit_le hok⟩
  · rw [managerInit_long hgt] at hok
    cases hok

/-- A command is a prefix that fits, or fills the array and goes on. -/
theorem commandString_cases (p : CStr) (beyond : ℕ → BitVec 8)
    (socketLimit : Option (ℕ → BitVec 32)) :
    (FitsPrefix p.bytes ∧ (commandString p beyond socketLimit).bytes = p.bytes) ∨
      (¬ FitsPrefix p.bytes ∧
        shmemMaxHugepagePrefix ≤ (commandString p beyond socketLimit).bytes.length) := by
  by_cases hlen : FitsPrefix p.bytes
  · exact .inl ⟨hlen, commandPrefix_string hlen beyond socketLimit⟩
  · refine .inr ⟨hlen, ?_⟩
    have hchars : ∀ c ∈ commandPrefix p beyond, decide (c ≠ 0) = true := by
      intro c hc
      obtain ⟨i, hi, rfl⟩ := List.mem_map.mp hc
      have hlt : i < p.bytes.length := lt_of_lt_of_le (List.mem_range.mp hi) (not_lt.mp hlen)
      rw [List.getD_eq_getElem?_getD, List.getElem?_append_left hlt, List.getElem?_eq_getElem hlt,
        decide_eq_true_iff]
      intro hzero
      exact p.noNul (hzero ▸ List.getElem_mem hlt)
    have hlength : (commandPrefix p beyond).length = shmemMaxHugepagePrefix := by
      unfold commandPrefix
      rw [List.length_map, List.length_range]
    unfold commandString
    dsimp only
    rw [List.takeWhile_append_of_pos hchars, List.length_append, hlength]
    exact Nat.le_add_right ..

theorem commandString_ne_nil {p : CStr} (hne : p.bytes ≠ []) (beyond : ℕ → BitVec 8)
    (socketLimit : Option (ℕ → BitVec 32)) : (commandString p beyond socketLimit).bytes ≠ [] := by
  obtain ⟨-, heq⟩ | ⟨-, hlen⟩ := commandString_cases p beyond socketLimit
  · rwa [heq]
  · rw [← List.length_pos_iff]
    exact lt_of_lt_of_le (by decide) hlen

theorem Listed.prefixStep (h : Listed s) {call : PrefixCall} (hcall : PrefixFair s call) :
    Listed (call.exec s) := by
  cases call with
  | enable p beyond socketLimit env =>
    exact h.initAny (commandString_ne_nil hcall.1 beyond socketLimit) hcall.2.1 socketLimit env
  | call c =>
    cases c with
    | finishAll env => exact h.reaped (finishAll_reaps env s)
    | op o =>
      cases o with
      | init filePrefix socketLimit env =>
        cases filePrefix with
        | none => exact h.init env (fun _ hp => by cases hp) socketLimit
        | some p => exact h.initAny hcall.1 hcall.2 socketLimit env
      | childrenEnd deaths =>
        have hop : KeepsListed s (.childrenEnd deaths) := hcall
        exact h.step hop rfl
      | finish filePrefix killed => exact h
      | setAvailableLimit socketLimit env =>
        have hop : KeepsListed s (.setAvailableLimit socketLimit env) := hcall
        exact h.step hop rfl
      | getAvailablePages env =>
        have hop : KeepsListed s (.getAvailablePages env) := hcall
        exact h.step hop rfl
      | getPidFromPrefix filePrefix env =>
        have hop : KeepsListed s (.getPidFromPrefix filePrefix env) := hcall
        exact h.step hop rfl

theorem StoredAt.of_bytes {p q : CStr} {index : ℕ} (h : StoredAt q index s t)
    (heq : q.bytes = p.bytes) : StoredAt p index s t :=
  ⟨h.inside, h.stored.trans heq, h.occupied, h.active, h.others, h.hugepageLimit, h.socketLimit,
    h.socketNum⟩

/-- What a fair call has stored. -/
theorem Listed.acceptsStored (h : Listed s) {call : PrefixCall} (hcall : PrefixFair s call) :
    AcceptsStored s call := by
  cases call with
  | call c =>
    cases c with
    | finishAll env => trivial
    | op o =>
      cases o with
      | init filePrefix socketLimit env =>
        cases filePrefix with
        | none => trivial
        | some p => exact fun hok => (h.storedAt hcall.1 hcall.2 hok).2
      | childrenEnd deaths => trivial
      | finish filePrefix killed => trivial
      | setAvailableLimit socketLimit env => trivial
      | getAvailablePages env => trivial
      | getPidFromPrefix filePrefix env => trivial
  | enable p beyond socketLimit env =>
    obtain ⟨hne, hlen, hslash⟩ := hcall
    have hstring := commandString_ne_nil hne beyond socketLimit
    intro hok
    obtain ⟨hfits, index, hindex, hat⟩ := h.storedAt hstring hlen hok
    obtain ⟨hshort, heq⟩ | ⟨-, hlong⟩ := commandString_cases p beyond socketLimit
    · obtain ⟨rest, hrest⟩ := commandPrefix_eq hshort beyond
      refine ⟨⟨index, hindex, hat.of_bytes heq⟩, ?_, ?_, hshort⟩
      · rw [hrest]
        exact ⟨rest, by rw [List.append_assoc]; rfl⟩
      · refine (callbackPrefix_eq hstring ?_).trans heq
        rw [heq]
        exact hslash hshort
    · exact absurd hfits (not_lt.mpr hlong)

/-- **Where prefixes fit and limits hold, a prefix that is accepted works everywhere.** -/
theorem prefix_works {s : ShmemManager} (hstart : s.Start) (calls : List PrefixCall)
    (hfair : Along prefixStep PrefixFair s calls) :
    Along prefixStep AcceptsStored s calls ∧ Always prefixStep FindsAll s calls := by
  have hkeep : ∀ (s : ShmemManager) (call : PrefixCall) (t : ShmemManager), Listed s →
      PrefixFair s call → prefixStep s call = some t → Listed t := by
    rintro s call _ h hcall ⟨⟩
    exact h.prefixStep hcall
  constructor
  · exact along_of_along hkeep (fun s call t h hcall _ => h.acceptsStored hcall) hstart.listed hfair
  · refine (always_of_along hkeep hstart.listed hfair).mono fun s h => ?_
    exact fun i hi ha p hp => h.foundBy hi ha hp

/-- A manager is started by a command, and finished. -/
theorem prefix_works_one :
    Along prefixStep AcceptsStored eightEach
        [.enable prefixA (fun _ => 7) none (childMade 5), .call (.op (.finish (some prefixA) true))] ∧
      Always prefixStep FindsAll eightEach
        [.enable prefixA (fun _ => 7) none (childMade 5), .call (.op (.finish (some prefixA) true))] :=
  prefix_works eightEach_start _ (by
    rintro _ ⟨⟩
    refine ⟨⟨by decide, by decide, fun _ => by decide⟩, ?_⟩
    rintro _ ⟨⟩
    exact ⟨trivial, trivial⟩)

/-- The empty prefix is accepted, and its entry counts as free. -/
theorem not_prefix_works : ¬ ∀ (s : ShmemManager) (calls : List PrefixCall), s.Start →
    Along prefixStep AcceptsStored s calls ∧ Always prefixStep FindsAll s calls := by
  intro h
  have hrun := (h eightEach [.call (.op (.init (some ⟨[], List.not_mem_nil⟩) none (childMade 5)))]
    eightEach_start).1
  obtain ⟨index, -, hstored⟩ := (hrun _ rfl).1 rfl
  exact hstored.occupied hstored.stored

end HardwareDrivers.Libfpga
