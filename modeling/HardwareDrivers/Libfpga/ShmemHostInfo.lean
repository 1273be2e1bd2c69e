import HardwareDrivers.Libfpga.CpuList
import HardwareDrivers.Libfpga.ShmemLimit
import Mathlib.Algebra.BigOperators.Group.Finset.Basic

/-!
# What the library knows of the host

`__fpga_shmem_init_host_info` with the files that it reads: the directories of the nodes, their free
pages, and the lists of their cores. It notes that it was called before it does anything, and answers
0 from then on.

## What is proved

* `probeHost_of_probeFiles` — it does to the managers what `probeHost` says.
* `probeFiles_cases` — what the first call comes to.
* `hostRight_iff` — the runs in which 0 means that everything was set from the host.
-/

namespace HardwareDrivers.Libfpga

open Theory

/-! ### The call -/

/-- The files of a host. -/
structure HostFiles where
  /-- The directory of a node. -/
  dir : ℕ → NodeDir
  /-- `free_hugepages`, if it opens. -/
  free : ℕ → Option (List Char)
  /-- `cpulist`, if it opens. -/
  cpulist : ℕ → Option CpuList

/-- The library, with the variable that the managers do not use. -/
structure HostLib where
  /-- The managers, and the static variables. -/
  lib : ManagerLib
  /-- `fpga_shmem_lcore_num`. -/
  lcoreNum : ℤ
  /-- The host that everything was set from last; no variable of the code. -/
  source : Option HostFiles

/-- The loop over the nodes that are left, with the files of free pages. -/
def freeFileLoop (free : ℕ → Option (List Char)) : List ℕ → ℤ → (ℕ → BitVec 32) →
    Except HostFault (Except ManagerErr ℤ × (ℕ → BitVec 32))
  | [], freeHugepagesAll, socketLimit => .ok (.ok freeHugepagesAll, socketLimit)
  | i :: is, freeHugepagesAll, socketLimit =>
    match free i with
    | none => .ok (.error (.code .failureOpen), socketLimit)
    | some text =>
      match (scanD text).1 with
      | .number n =>
        if IsInt n ∧ IsInt (freeHugepagesAll + n) then
          freeFileLoop free is (freeHugepagesAll + n) (Function.update socketLimit i (.ofInt 32 n))
        else .error .overflow
      | _ => .ok (.error .fatalError, socketLimit)

/-- The loop over the nodes that are left, with the lists of cores: `temp_max`. -/
def cpuListLoop (cpulist : ℕ → Option CpuList) : List ℕ → Option ℤ → ℤ →
    Except HostFault (Except ManagerErr ℤ)
  | [], _, tempMax => .ok (.ok tempMax)
  | i :: is, cpuListNum, tempMax =>
    match cpulist i with
    | none => .ok (.error (.code .failureOpen))
    | some file =>
      match cpuLoop file.text cpuListNum with
      | .error fault => .error fault
      | .ok none => .error .unset
      | .ok (some n) => cpuListLoop cpulist is (some n) (if tempMax < n then n else tempMax)

/-- The number of cores. -/
def setLcoreNum (files : HostFiles) (tempMax : ℤ) (s : HostLib) : Except HostFault HostLib :=
  if IsInt (tempMax + 1) then .ok { s with lcoreNum := tempMax + 1, source := some files }
  else .error .overflow

/-- The managers become those. -/
def HostLib.setManager (s : HostLib) (manager : ShmemManager) : HostLib :=
  { s with lib := { s.lib with manager } }

/-- `__fpga_shmem_init_host_info` after its first call was noted. -/
def probeFiles (files : HostFiles) (s : HostLib) :
    Except HostFault (Except ManagerErr Unit × HostLib) :=
  match nodeLoop files.dir (List.range shmemMaxNumaNode) with
  | none => .ok (.error .fatalError, s)
  | some nodes =>
    let cleared := fun i => if i < shmemMaxNumaNode then 0 else s.lib.manager.socketLimit i
    match freeFileLoop files.free (List.range nodes) 0 cleared with
    | .error fault => .error fault
    | .ok (.error err, socketLimit) =>
      .ok (.error err, s.setManager { s.lib.manager with socketNum := nodes, socketLimit })
    | .ok (.ok freeHugepagesAll, socketLimit) =>
      let s := s.setManager
        (hostLimit freeHugepagesAll { s.lib.manager with socketNum := nodes, socketLimit })
      match cpuListLoop files.cpulist (List.range nodes) none (-1) with
      | .error fault => .error fault
      | .ok (.error err) => .ok (.error err, s)
      | .ok (.ok tempMax) => (setLcoreNum files tempMax s).map fun s => (.ok (), s)

/-- `__fpga_shmem_init_host_info`. -/
def initHostFiles (files : HostFiles) (s : HostLib) :
    Except HostFault (Except ManagerErr Unit × HostLib) :=
  if s.lib.isGetHostInfo then .ok (.ok (), s)
  else probeFiles files { s with lib := { s.lib with isGetHostInfo := true } }

/-- When the program starts. -/
def hostStart (after : ℕ → ManagerInfo) (children : ℤ → Child) : HostLib where
  lib := libStart after children
  lcoreNum := 112
  source := none

/-! ### The property -/

/-- The nodes of a host. -/
structure NodesOf (dir : ℕ → NodeDir) (nodes : ℕ) : Prop where
  /-- No more than there can be. -/
  le : nodes ≤ shmemMaxNumaNode
  /-- They are there. -/
  present : ∀ i < nodes, dir i = .present
  /-- The next is not. -/
  absent : nodes < shmemMaxNumaNode → dir nodes = .absent

/-- Everything is as the host has it. -/
structure SetFrom (files : HostFiles) (s : HostLib) : Prop where
  /-- The number of sockets. -/
  socketNum : NodesOf files.dir s.lib.manager.socketNum
  /-- The pages of each. -/
  socketLimit : ∀ i < s.lib.manager.socketNum, ∃ text, files.free i = some text ∧
    (scanD text).1 = .number (s.lib.manager.socketLimit i).toInt
  /-- The lists of cores were there. -/
  cpulist : ∀ i < s.lib.manager.socketNum, ∃ file, files.cpulist i = some file
  /-- One more than the greatest core. -/
  lcoreNum : IsLeast {n : ℤ | 0 ≤ n ∧ ∀ i < s.lib.manager.socketNum, ∀ file ∈ files.cpulist i,
    ∀ core, file.Has core → (core : ℤ) < n} s.lcoreNum

/-- The rest of a run: each call returns, and 0 means that everything was set from the host by this
call or by one before. -/
def HostRight : HostLib → List HostFiles → List HostFiles → Prop
  | _, _, [] => True
  | s, before, files :: calls =>
    ∃ ret s', initHostFiles files s = .ok (ret, s') ∧
      (ret = .ok () → ∃ host ∈ files :: before, s'.source = some host ∧ SetFrom host s') ∧
      HostRight s' (files :: before) calls

/-! ### The condition -/

/-- How a file is. -/
inductive FileStatus where
  /-- It can be used. -/
  | fine
  /-- It is not there or has no number. -/
  | fails
  /-- The language does not say what happens. -/
  | faults
  deriving DecidableEq

/-- The free pages of a node, where there is a number. -/
def freePages (files : HostFiles) (i : ℕ) : ℤ :=
  match (files.free i).map fun text => (scanD text).1 with
  | some (.number n) => n
  | _ => 0

/-- Of the file with the free pages: its number is an `int`, and so is the sum up to it. -/
def freeStatus (files : HostFiles) (i : ℕ) : FileStatus :=
  match files.free i with
  | none => .fails
  | some text =>
    match (scanD text).1 with
    | .number n =>
      if IsInt n ∧ IsInt (∑ j ∈ Finset.range (i + 1), freePages files j) then .fine else .faults
    | _ => .fails

/-- Of the list of cores: that of the first node must have one. -/
def cpuStatus (files : HostFiles) (i : ℕ) : FileStatus :=
  match files.cpulist i with
  | none => .fails
  | some file =>
    if (∀ n ∈ file.numbers, n < 2 ^ 31) ∧ (i = 0 → file.items ≠ []) then .fine else .faults

/-- The first file that is not fine decides. -/
def firstStatus (status : ℕ → FileStatus) (is : List ℕ) : FileStatus :=
  ((is.find? fun i => status i ≠ .fine).map status).getD .fine

/-- The host can be read. -/
def Complete (files : HostFiles) : Prop :=
  ∃ nodes, NodesOf files.dir nodes ∧ (∀ i < nodes, freeStatus files i = .fine) ∧
    ∀ i < nodes, cpuStatus files i = .fine

/-- Nothing that the language leaves open comes before the first file that cannot be read. -/
structure Defined (files : HostFiles) (nodes : ℕ) : Prop where
  /-- Among the free pages. -/
  free : firstStatus (freeStatus files) (List.range nodes) ≠ .faults
  /-- Among the lists of cores. -/
  cpulist : firstStatus (freeStatus files) (List.range nodes) = .fine →
    firstStatus (cpuStatus files) (List.range nodes) ≠ .faults
  /-- The number of cores is an `int`. -/
  cores : firstStatus (freeStatus files) (List.range nodes) = .fine →
    firstStatus (cpuStatus files) (List.range nodes) = .fine →
    ∀ i < nodes, ∀ file ∈ files.cpulist i, ∀ core, file.Has core → core + 1 < 2 ^ 31

/-- The runs that are right: the first call finds a host that can be read, or it is the only one. -/
def HostFair (calls : List HostFiles) : Prop :=
  ∀ files ∈ calls.head?, (∀ nodes, NodesOf files.dir nodes → Defined files nodes) ∧
    (Complete files ∨ calls.tail = [])

/-! ### The loops -/

variable {status : ℕ → FileStatus}

theorem firstStatus_cons (i : ℕ) (is : List ℕ) : firstStatus status (i :: is) =
    if status i = .fine then firstStatus status is else status i := by
  by_cases h : status i = .fine <;> simp [firstStatus, h]

theorem firstStatus_eq_fine {is : List ℕ} :
    firstStatus status is = .fine ↔ ∀ i ∈ is, status i = .fine := by
  induction is with
  | nil => simp [firstStatus]
  | cons i is ih =>
    rw [firstStatus_cons, List.forall_mem_cons]
    by_cases h : status i = .fine <;> simp [h, ih]

/-- The nodes from some on. -/
theorem nodeLoop_range' {dir : ℕ → NodeDir} {a k : ℕ} (hk : a + k = shmemMaxNumaNode) {nodes : ℕ} :
    nodeLoop dir (List.range' a k) = some nodes ↔
      a ≤ nodes ∧ nodes ≤ shmemMaxNumaNode ∧ (∀ i, a ≤ i → i < nodes → dir i = .present) ∧
        (nodes < shmemMaxNumaNode → dir nodes = .absent) := by
  induction k generalizing a with
  | zero =>
    rw [List.range'_zero, nodeLoop, Option.some.injEq]
    constructor
    · rintro rfl
      exact ⟨by omega, le_rfl, fun i hi hlt => by omega, fun hlt => absurd hlt (lt_irrefl _)⟩
    · rintro ⟨ha, hle, -, -⟩
      omega
  | succ k ih =>
    rw [List.range'_succ, nodeLoop]
    cases hdir : dir a with
    | absent =>
      simp only [Option.some.injEq]
      constructor
      · rintro rfl
        exact ⟨le_rfl, by omega, fun i hi hlt => by omega, fun _ => hdir⟩
      · rintro ⟨ha, hle, hpresent, -⟩
        by_contra hne
        have h := hpresent a le_rfl (by omega)
        rw [hdir] at h
        cases h
    | failed =>
      refine iff_of_false (fun h => by cases h) ?_
      rintro ⟨ha, hle, hpresent, habsent⟩
      rcases Nat.lt_or_ge a nodes with hlt | hge
      · have h := hpresent a le_rfl hlt
        rw [hdir] at h
        cases h
      · obtain rfl : a = nodes := by omega
        have h := habsent (by omega)
        rw [hdir] at h
        cases h
    | present =>
      simp only [ih (show a + 1 + k = shmemMaxNumaNode by omega)]
      constructor
      · rintro ⟨ha, hle, hpresent, habsent⟩
        refine ⟨by omega, hle, fun i hi hlt => ?_, habsent⟩
        rcases Nat.eq_or_lt_of_le hi with rfl | hi
        · exact hdir
        · exact hpresent i hi hlt
      · rintro ⟨ha, hle, hpresent, habsent⟩
        refine ⟨?_, hle, fun i hi hlt => hpresent i (by omega) hlt, habsent⟩
        by_contra hlt
        obtain rfl : a = nodes := by omega
        have h := habsent (by omega)
        rw [hdir] at h
        cases h

/-- The loop over the directories counts the nodes. -/
theorem nodeLoop_eq_some {dir : ℕ → NodeDir} {nodes : ℕ} :
    nodeLoop dir (List.range shmemMaxNumaNode) = some nodes ↔ NodesOf dir nodes := by
  rw [List.range_eq_range', nodeLoop_range' (Nat.zero_add _)]
  constructor
  · rintro ⟨-, hle, hpresent, habsent⟩
    exact ⟨hle, fun i hi => hpresent i (Nat.zero_le i) hi, habsent⟩
  · rintro ⟨hle, hpresent, habsent⟩
    exact ⟨Nat.zero_le _, hle, fun i _ hi => hpresent i hi, habsent⟩

/-- The loop over the free pages, by the first file that is not fine. -/
theorem freeFileLoop_cases (files : HostFiles) (a k : ℕ) {all : ℤ}
    (hall : all = ∑ j ∈ Finset.range a, freePages files j) (socketLimit : ℕ → BitVec 32) :
    match firstStatus (freeStatus files) (List.range' a k) with
    | .fine => ∃ all' socketLimit', freeFileLoop files.free (List.range' a k) all socketLimit =
        .ok (.ok all', socketLimit') ∧ (∀ i < a, socketLimit' i = socketLimit i) ∧
        ∀ i, a ≤ i → i < a + k → ∃ text, files.free i = some text ∧
          (scanD text).1 = .number (socketLimit' i).toInt
    | .fails => ∃ err socketLimit', freeFileLoop files.free (List.range' a k) all socketLimit =
        .ok (.error err, socketLimit')
    | .faults => freeFileLoop files.free (List.range' a k) all socketLimit = .error .overflow := by
  induction k generalizing a all socketLimit with
  | zero => exact ⟨all, socketLimit, rfl, fun i _ => rfl, fun i hi hlt => by omega⟩
  | succ k ih =>
    rw [List.range'_succ, firstStatus_cons]
    cases hfree : files.free a with
    | none =>
      have hstatus : freeStatus files a = .fails := by simp [freeStatus, hfree]
      simp only [hstatus, if_neg (show FileStatus.fails ≠ .fine by decide)]
      exact ⟨_, _, by rw [freeFileLoop, hfree]⟩
    | some text =>
      cases hscan : (scanD text).1 with
      | eof =>
        have hstatus : freeStatus files a = .fails := by simp [freeStatus, hfree, hscan]
        simp only [hstatus, if_neg (show FileStatus.fails ≠ .fine by decide)]
        exact ⟨.fatalError, socketLimit, by simp [freeFileLoop, hfree, hscan]⟩
      | mismatch =>
        have hstatus : freeStatus files a = .fails := by simp [freeStatus, hfree, hscan]
        simp only [hstatus, if_neg (show FileStatus.fails ≠ .fine by decide)]
        exact ⟨.fatalError, socketLimit, by simp [freeFileLoop, hfree, hscan]⟩
      | number n =>
        have hsum : all + n = ∑ j ∈ Finset.range (a + 1), freePages files j := by
          rw [Finset.sum_range_succ, ← hall, freePages, hfree, Option.map_some, hscan]
        by_cases hint : IsInt n ∧ IsInt (all + n)
        · have hstatus : freeStatus files a = .fine := by
            simp only [freeStatus, hfree, hscan, ← hsum, if_pos hint]
          have hloop : freeFileLoop files.free (a :: List.range' (a + 1) k) all socketLimit =
              freeFileLoop files.free (List.range' (a + 1) k) (all + n)
                (Function.update socketLimit a (.ofInt 32 n)) := by
            simp only [freeFileLoop, hfree, hscan, if_pos hint]
          have hrest := ih (a + 1) hsum (Function.update socketLimit a (.ofInt 32 n))
          rw [if_pos hstatus, hloop]
          cases hfirst : firstStatus (freeStatus files) (List.range' (a + 1) k) with
          | fine =>
            rw [hfirst] at hrest
            obtain ⟨all', socketLimit', heq, hother, hvalues⟩ := hrest
            refine ⟨all', socketLimit', heq, fun j hj => ?_, fun i hi hlt => ?_⟩
            · rw [hother j (by omega), Function.update_of_ne hj.ne]
            · rcases Nat.eq_or_lt_of_le hi with rfl | hi
              · refine ⟨text, hfree, ?_⟩
                rw [hother a (Nat.lt_succ_self a), Function.update_self, hscan,
                  BitVec.toInt_ofInt_eq_self (by decide) hint.1.1 hint.1.2]
              · exact hvalues i hi (by omega)
          | fails => rwa [hfirst] at hrest
          | faults => rwa [hfirst] at hrest
        · have hstatus : freeStatus files a = .faults := by
            simp only [freeStatus, hfree, hscan, ← hsum, if_neg hint]
          simp only [hstatus, if_neg (show FileStatus.faults ≠ .fine by decide)]
          simp only [freeFileLoop, hfree, hscan, if_neg hint]

/-- What the loop over the lists of cores has found so far. -/
structure GreatestCore (files : HostFiles) (a b : ℕ) (start tempMax : ℤ) : Prop where
  /-- Not less than at the start. -/
  start_le : start ≤ tempMax
  /-- Nothing is greater. -/
  le : ∀ i, a ≤ i → i < b → ∀ file ∈ files.cpulist i, ∀ core, file.Has core → (core : ℤ) ≤ tempMax
  /-- It is one of the cores. -/
  mem : tempMax = start ∨ ∃ i, a ≤ i ∧ i < b ∧ ∃ file ∈ files.cpulist i, ∃ core : ℕ,
    core ∈ file.numbers ∧ file.Has core ∧ tempMax = core

/-- One file more, before the others. -/
theorem GreatestCore.cons {files : HostFiles} {a b : ℕ} {start next tempMax : ℤ} {file : CpuList}
    (hfile : files.cpulist a = some file) (hab : a < b) (hstart : start ≤ next)
    (hle : ∀ core, file.Has core → (core : ℤ) ≤ next)
    (hmem : next = start ∨ ∃ core : ℕ, core ∈ file.numbers ∧ file.Has core ∧ next = core)
    (h : GreatestCore files (a + 1) b next tempMax) : GreatestCore files a b start tempMax := by
  refine ⟨hstart.trans h.start_le, fun i hi hb other hother core hcore => ?_, ?_⟩
  · rcases Nat.eq_or_lt_of_le hi with rfl | hi
    · obtain rfl : file = other := Option.some.inj (hfile.symm.trans hother)
      exact (hle core hcore).trans h.start_le
    · exact h.le i hi hb other hother core hcore
  · rcases h.mem with rfl | ⟨i, hi, hb, other, hother, core, hnum, hcore, rfl⟩
    · rcases hmem with rfl | ⟨core, hnum, hcore, rfl⟩
      · exact .inl rfl
      · exact .inr ⟨a, le_rfl, hab, file, hfile, core, hnum, hcore, rfl⟩
    · exact .inr ⟨i, by omega, hb, other, hother, core, hnum, hcore, rfl⟩

/-- A file of which the loop keeps a number, its own or that of a file before. -/
theorem GreatestCore.kept {files : HostFiles} {a b : ℕ} {tempMax n m : ℤ} {file : CpuList}
    {cpuListNum : Option ℤ} (hfile : files.cpulist a = some file) (hab : a < b)
    (hmax : ∀ n ∈ cpuListNum, n ≤ tempMax) (hkept : keptLast file.items cpuListNum = some n)
    (h : GreatestCore files (a + 1) b (if tempMax < n then n else tempMax) m) :
    GreatestCore files a b tempMax m := by
  refine h.cons hfile hab (by split_ifs <;> omega) ?_ ?_
  · intro core hcore
    obtain ⟨item, hitem, -⟩ := id hcore
    obtain ⟨g, hg, -, -, hle⟩ := file.exists_greatest (List.ne_nil_of_mem hitem) cpuListNum
    obtain rfl := Option.some.inj (hkept.symm.trans hg)
    have hcore := hle core hcore
    split_ifs <;> omega
  · by_cases hnil : file.items = []
    · -- the number of a file before is not greater
      have hsame : cpuListNum = some n := by
        rw [← hkept, hnil]
        rfl
      have hle := hmax n hsame
      exact .inl (if_neg (by omega))
    · obtain ⟨g, hg, hnum, hhas, -⟩ := file.exists_greatest hnil cpuListNum
      obtain rfl := Option.some.inj (hkept.symm.trans hg)
      split_ifs
      · exact .inr ⟨g, hnum, hhas, rfl⟩
      · exact .inl rfl

/-- The loop over the lists of cores, by the first that is not fine. -/
theorem cpuListLoop_cases (files : HostFiles) (a k : ℕ) (cpuListNum : Option ℤ)
    (hnone : cpuListNum = none ↔ a = 0) (tempMax : ℤ) (hmax : ∀ n ∈ cpuListNum, n ≤ tempMax) :
    match firstStatus (cpuStatus files) (List.range' a k) with
    | .fine => ∃ m, cpuListLoop files.cpulist (List.range' a k) cpuListNum tempMax = .ok (.ok m) ∧
        GreatestCore files a (a + k) tempMax m
    | .fails => ∃ err, cpuListLoop files.cpulist (List.range' a k) cpuListNum tempMax =
        .ok (.error err)
    | .faults => ∃ fault, cpuListLoop files.cpulist (List.range' a k) cpuListNum tempMax =
        .error fault := by
  induction k generalizing a cpuListNum tempMax with
  | zero => exact ⟨tempMax, rfl, le_rfl, fun i hi hlt => by omega, .inl rfl⟩
  | succ k ih =>
    rw [List.range'_succ, firstStatus_cons]
    cases hlist : files.cpulist a with
    | none =>
      have hstatus : cpuStatus files a = .fails := by simp [cpuStatus, hlist]
      simp only [hstatus, if_neg (show FileStatus.fails ≠ .fine by decide)]
      exact ⟨_, by rw [cpuListLoop, hlist]⟩
    | some file =>
      by_cases hnumbers : ∀ n ∈ file.numbers, n < 2 ^ 31
      · have hloop := cpuLoop_text file cpuListNum
        rw [if_pos hnumbers] at hloop
        by_cases hfirst : a = 0 → file.items ≠ []
        · -- a number is kept: one of this file, or one of those before
          have hstatus : cpuStatus files a = .fine := by
            simp only [cpuStatus, hlist, if_pos (And.intro hnumbers hfirst)]
          rw [if_pos hstatus]
          cases hkept : keptLast file.items cpuListNum with
          | none =>
            obtain ⟨hnil, hcpu⟩ := keptLast_eq_none.1 hkept
            exact absurd hnil (hfirst (hnone.1 hcpu))
          | some n =>
            have hstep : cpuListLoop files.cpulist (a :: List.range' (a + 1) k) cpuListNum tempMax =
                cpuListLoop files.cpulist (List.range' (a + 1) k) (some n)
                  (if tempMax < n then n else tempMax) := by
              simp only [cpuListLoop, hlist, hloop, hkept]
            have hrest := ih (a + 1) (some n) (by simp) (if tempMax < n then n else tempMax)
              (by intro m hm; obtain rfl := Option.some.inj hm; split_ifs <;> omega)
            rw [hstep]
            cases hother : firstStatus (cpuStatus files) (List.range' (a + 1) k) with
            | fails => rwa [hother] at hrest
            | faults => rwa [hother] at hrest
            | fine =>
              rw [hother] at hrest
              obtain ⟨m, heq, hgreatest⟩ := hrest
              refine ⟨m, heq, ?_⟩
              rw [show a + (k + 1) = a + 1 + k by omega]
              exact hgreatest.kept hlist (by omega) hmax hkept
        · -- nothing was read into the variable
          push Not at hfirst
          obtain ⟨hzero, hnil⟩ := hfirst
          have hstatus : cpuStatus files a = .faults := by
            simp only [cpuStatus, hlist]
            exact if_neg fun h => h.2 hzero hnil
          simp only [hstatus, if_neg (show FileStatus.faults ≠ .fine by decide)]
          refine ⟨.unset, ?_⟩
          have hkept : keptLast file.items cpuListNum = none :=
            keptLast_eq_none.2 ⟨hnil, hnone.2 hzero⟩
          simp only [cpuListLoop, hlist, hloop, hkept]
      · have hloop := cpuLoop_text file cpuListNum
        rw [if_neg hnumbers] at hloop
        have hstatus : cpuStatus files a = .faults := by
          simp only [cpuStatus, hlist]
          exact if_neg fun h => hnumbers h.1
        simp only [hstatus, if_neg (show FileStatus.faults ≠ .fine by decide)]
        exact ⟨.overflow, by simp only [cpuListLoop, hlist, hloop]⟩

/-! ### The managers -/

/-- What the managers see of the files. -/
def HostFiles.env (files : HostFiles) : HostEnv where
  dir := files.dir
  freeHugepages i :=
    match files.free i with
    | none => .error (.code .failureOpen)
    | some text =>
      match (scanD text).1 with
      | .number n => .ok (.ofInt 32 n)
      | _ => .error .fatalError
  cpulist i := (files.cpulist i).isSome

theorem freeLoop_of_freeFileLoop {files : HostFiles} {is : List ℕ} {all : ℤ}
    {socketLimit socketLimit' : ℕ → BitVec 32} {ret : Except ManagerErr ℤ}
    (h : freeFileLoop files.free is all socketLimit = .ok (ret, socketLimit')) :
    freeLoop files.env.freeHugepages is all socketLimit = .ok (ret, socketLimit') := by
  induction is generalizing all socketLimit with
  | nil =>
    cases h
    rfl
  | cons i is ih =>
    unfold freeFileLoop at h
    unfold freeLoop
    cases hfree : files.free i with
    | none =>
      simp only [hfree, Except.ok.injEq, Prod.mk.injEq] at h
      obtain ⟨rfl, rfl⟩ := h
      simp [HostFiles.env, hfree]
    | some text =>
      cases hscan : (scanD text).1 with
      | number n =>
        simp only [hfree, hscan] at h
        split_ifs at h with hint
        have hn : (BitVec.ofInt 32 n).toInt = n :=
          BitVec.toInt_ofInt_eq_self (by decide) hint.1.1 hint.1.2
        simp only [HostFiles.env, hfree, hscan, hn, if_pos hint.2]
        exact ih h
      | eof =>
        simp only [hfree, hscan, Except.ok.injEq, Prod.mk.injEq] at h
        obtain ⟨rfl, rfl⟩ := h
        simp [HostFiles.env, hfree, hscan]
      | mismatch =>
        simp only [hfree, hscan, Except.ok.injEq, Prod.mk.injEq] at h
        obtain ⟨rfl, rfl⟩ := h
        simp [HostFiles.env, hfree, hscan]

/-- The loop over the lists fails where one does not open. -/
theorem all_of_cpuListLoop {files : HostFiles} {is : List ℕ} {cpuListNum : Option ℤ} {tempMax : ℤ}
    {ret : Except ManagerErr ℤ}
    (h : cpuListLoop files.cpulist is cpuListNum tempMax = .ok ret) :
    if is.all files.env.cpulist then ∃ m, ret = .ok m else ret = .error (.code .failureOpen) := by
  induction is generalizing cpuListNum tempMax with
  | nil => exact ⟨tempMax, (Except.ok.inj h).symm⟩
  | cons i is ih =>
    unfold cpuListLoop at h
    cases hlist : files.cpulist i with
    | none =>
      simp only [hlist, Except.ok.injEq] at h
      simp [HostFiles.env, hlist, h]
    | some file =>
      simp only [hlist] at h
      cases hloop : cpuLoop file.text cpuListNum with
      | error fault => simp [hloop] at h
      | ok kept =>
        cases kept with
        | none => simp [hloop] at h
        | some n =>
          simp only [hloop] at h
          simpa [HostFiles.env, hlist] using ih h

/-- **To the managers** the call does what it does with the numbers of the files. -/
theorem probeHost_of_probeFiles {files : HostFiles} {s s' : HostLib} {ret : Except ManagerErr Unit}
    (h : probeFiles files s = .ok (ret, s')) :
    probeHost files.env s.lib.manager = .ok (ret, s'.lib.manager) := by
  unfold probeFiles at h
  have hdir : files.env.dir = files.dir := rfl
  simp only [probeHost, hdir]
  cases hnodes : nodeLoop files.dir (List.range shmemMaxNumaNode) with
  | none =>
    simp only [hnodes, Except.ok.injEq, Prod.mk.injEq] at h
    obtain ⟨rfl, rfl⟩ := h
    rfl
  | some nodes =>
    simp only [hnodes] at h
    cases hfree : freeFileLoop files.free (List.range nodes) 0
        (fun i => if i < shmemMaxNumaNode then 0 else s.lib.manager.socketLimit i) with
    | error fault => simp only [hfree, reduceCtorEq] at h
    | ok out =>
      obtain ⟨free, socketLimit⟩ := out
      have hloop := freeLoop_of_freeFileLoop hfree
      simp only [hloop]
      cases free with
      | error err =>
        simp only [hfree, Except.ok.injEq, Prod.mk.injEq] at h
        obtain ⟨rfl, rfl⟩ := h
        rfl
      | ok all =>
        simp only [hfree] at h
        cases hcpu : cpuListLoop files.cpulist (List.range nodes) none (-1) with
        | error fault => simp only [hcpu, reduceCtorEq] at h
        | ok cores =>
          have hall := all_of_cpuListLoop hcpu
          cases cores with
          | error err =>
            simp only [hcpu, Except.ok.injEq, Prod.mk.injEq] at h
            obtain ⟨rfl, rfl⟩ := h
            split_ifs at hall with hopen
            · obtain ⟨m, hm⟩ := hall
              cases hm
            · cases hall
              simp [hopen, HostLib.setManager]
          | ok tempMax =>
            simp only [hcpu, setLcoreNum] at h
            split_ifs at h
            · simp only [Except.map, Except.ok.injEq, Prod.mk.injEq] at h
              obtain ⟨rfl, rfl⟩ := h
              split_ifs at hall with hopen
              simp [hopen, HostLib.setManager]
            · cases h

/-! ### The first call -/

variable {files : HostFiles} {nodes : ℕ} (s : HostLib)

theorem NodesOf.unique {dir : ℕ → NodeDir} {m n : ℕ} (hm : NodesOf dir m) (hn : NodesOf dir n) :
    m = n :=
  Option.some.inj ((nodeLoop_eq_some.2 hm).symm.trans (nodeLoop_eq_some.2 hn))

theorem complete_iff (hnodes : NodesOf files.dir nodes) : Complete files ↔
    firstStatus (freeStatus files) (List.range nodes) = .fine ∧
      firstStatus (cpuStatus files) (List.range nodes) = .fine := by
  simp only [firstStatus_eq_fine, List.mem_range]
  constructor
  · rintro ⟨m, hm, hfree, hcpu⟩
    obtain rfl := hm.unique hnodes
    exact ⟨hfree, hcpu⟩
  · rintro ⟨hfree, hcpu⟩
    exact ⟨nodes, hnodes, hfree, hcpu⟩

/-- The list of a node that is fine. -/
theorem cpulist_of_fine {i : ℕ} (h : cpuStatus files i = .fine) :
    ∃ file, files.cpulist i = some file := by
  cases hlist : files.cpulist i with
  | none => simp [cpuStatus, hlist] at h
  | some file => exact ⟨file, rfl⟩

/-- The number of cores of the host. -/
theorem GreatestCore.isLeast {m : ℤ} (h : GreatestCore files 0 nodes (-1) m) :
    IsLeast {n : ℤ | 0 ≤ n ∧ ∀ i < nodes, ∀ file ∈ files.cpulist i, ∀ core, file.Has core →
      (core : ℤ) < n} (m + 1) := by
  refine ⟨⟨by have := h.start_le; omega, fun i hi file hfile core hcore => ?_⟩, ?_⟩
  · have hle := h.le i (Nat.zero_le i) hi file hfile core hcore
    omega
  · rintro n ⟨hnonneg, hall⟩
    rcases h.mem with rfl | ⟨i, -, hi, file, hfile, core, -, hcore, rfl⟩
    · omega
    · have hlt := hall i hi file hfile core hcore
      omega

/-- What the probe comes to, if the language says so. -/
structure ProbeDone (files : HostFiles) (s : HostLib) (ret : Except ManagerErr Unit)
    (s' : HostLib) : Prop where
  /-- It succeeds with a host that can be read. -/
  ok_iff : ret = .ok () ↔ Complete files
  /-- Everything is set then. -/
  setFrom : ret = .ok () → s'.source = some files ∧ SetFrom files s'
  /-- It is not noted as set otherwise. -/
  source : ret ≠ .ok () → s'.source = s.source
  /-- The call stays noted. -/
  flag : s'.lib.isGetHostInfo = s.lib.isGetHostInfo

/-- An error. -/
theorem ProbeDone.of_error {err : ManagerErr} {s s' : HostLib} (h : ¬Complete files)
    (hsource : s'.source = s.source) (hflag : s'.lib.isGetHostInfo = s.lib.isGetHostInfo) :
    ProbeDone files s (.error err) s' :=
  ⟨iff_of_false (by simp) h, by simp, fun _ => hsource, hflag⟩

/-- The number of cores can be stored. -/
theorem isInt_of_cores {m : ℤ} (h : GreatestCore files 0 nodes (-1) m) :
    IsInt (m + 1) ↔ ∀ i < nodes, ∀ file ∈ files.cpulist i, ∀ core : ℕ, file.Has core →
      core + 1 < 2 ^ 31 := by
  unfold IsInt
  constructor
  · rintro ⟨-, hlt⟩ i hi file hfile core hcore
    have hle := h.le i (Nat.zero_le i) hi file hfile core hcore
    omega
  · intro hall
    have hstart := h.start_le
    rcases h.mem with rfl | ⟨i, -, hi, file, hfile, core, -, hcore, rfl⟩
    · decide
    · have hlt := hall i hi file hfile core hcore
      omega

/-- **The probe**, by the files. -/
theorem probeFiles_cases (hnodes : NodesOf files.dir nodes) :
    (Defined files nodes ∧ ∃ ret s', probeFiles files s = .ok (ret, s') ∧
        ProbeDone files s ret s') ∨
      (¬Defined files nodes ∧ ∃ fault, probeFiles files s = .error fault) := by
  have hcomplete := complete_iff hnodes
  have hloop := nodeLoop_eq_some.2 hnodes
  have hfree := freeFileLoop_cases files 0 nodes
    (show (0 : ℤ) = ∑ j ∈ Finset.range 0, freePages files j by simp)
    (fun i => if i < shmemMaxNumaNode then 0 else s.lib.manager.socketLimit i)
  rw [← List.range_eq_range', Nat.zero_add] at hfree
  have hcpu := cpuListLoop_cases files 0 nodes none (by simp) (-1) (by simp)
  rw [← List.range_eq_range', Nat.zero_add] at hcpu
  cases hfreeStatus : firstStatus (freeStatus files) (List.range nodes) with
  | faults =>
    rw [hfreeStatus] at hfree
    exact .inr ⟨fun h => h.free hfreeStatus, .overflow, by simp only [probeFiles, hloop, hfree]⟩
  | fails =>
    rw [hfreeStatus] at hfree
    obtain ⟨err, socketLimit, hfree⟩ := hfree
    refine .inl ⟨⟨by simp [hfreeStatus], by simp [hfreeStatus], by simp [hfreeStatus]⟩, _, _,
      by simp only [probeFiles, hloop, hfree]; rfl, ?_⟩
    exact .of_error (by simp [hcomplete, hfreeStatus]) rfl rfl
  | fine =>
    rw [hfreeStatus] at hfree
    obtain ⟨all, socketLimit, hfree, -, hvalues⟩ := hfree
    cases hcpuStatus : firstStatus (cpuStatus files) (List.range nodes) with
    | faults =>
      rw [hcpuStatus] at hcpu
      obtain ⟨fault, hcpu⟩ := hcpu
      exact .inr ⟨fun h => h.cpulist hfreeStatus hcpuStatus, fault,
        by simp only [probeFiles, hloop, hfree, hcpu]⟩
    | fails =>
      rw [hcpuStatus] at hcpu
      obtain ⟨err, hcpu⟩ := hcpu
      refine .inl ⟨⟨by simp [hfreeStatus], by simp [hcpuStatus], by simp [hcpuStatus]⟩, _, _,
        by simp only [probeFiles, hloop, hfree, hcpu]; rfl, ?_⟩
      exact .of_error (by simp [hcomplete, hcpuStatus]) rfl rfl
    | fine =>
      rw [hcpuStatus] at hcpu
      obtain ⟨m, hcpu, hgreatest⟩ := hcpu
      by_cases hint : IsInt (m + 1)
      · refine .inl ⟨⟨by simp [hfreeStatus], by simp [hcpuStatus],
          fun _ _ => (isInt_of_cores hgreatest).1 hint⟩, .ok (), _,
          by simp only [probeFiles, hloop, hfree, hcpu, setLcoreNum, if_pos hint]; rfl, ?_⟩
        refine ⟨by simp [hcomplete, hfreeStatus, hcpuStatus], fun _ => ⟨rfl, ?_⟩,
          fun hne => absurd rfl hne, rfl⟩
        have hnum : ∀ manager : ShmemManager,
            (hostLimit all manager).socketNum = manager.socketNum ∧
              (hostLimit all manager).socketLimit = manager.socketLimit := by
          intro manager
          unfold hostLimit
          split <;> exact ⟨rfl, rfl⟩
        refine ⟨?_, ?_, ?_, ?_⟩
        · simpa [HostLib.setManager, hnum] using hnodes
        · simpa [HostLib.setManager, hnum] using hvalues
        · simp only [HostLib.setManager, hnum]
          exact fun i hi => cpulist_of_fine (firstStatus_eq_fine.1 hcpuStatus i (List.mem_range.2 hi))
        · simpa [HostLib.setManager, hnum] using hgreatest.isLeast
      · exact .inr ⟨fun h => hint ((isInt_of_cores hgreatest).2 (h.cores hfreeStatus hcpuStatus)),
          .overflow, by simp only [probeFiles, hloop, hfree, hcpu, setLcoreNum, if_neg hint]; rfl⟩

/-- Without a directory that can be looked at there are no nodes. -/
theorem probeFiles_of_not (h : ∀ nodes, ¬NodesOf files.dir nodes) :
    ∃ ret s', probeFiles files s = .ok (ret, s') ∧ ProbeDone files s ret s' := by
  have hloop : nodeLoop files.dir (List.range shmemMaxNumaNode) = none := by
    rw [Option.eq_none_iff_forall_ne_some]
    exact fun nodes hnodes => h nodes (nodeLoop_eq_some.1 hnodes)
  refine ⟨.error .fatalError, s, by simp only [probeFiles, hloop], .of_error ?_ rfl rfl⟩
  rintro ⟨nodes, hnodes, -⟩
  exact h nodes hnodes

theorem probeDone_of_ok {ret : Except ManagerErr Unit} {s s' : HostLib}
    (h : probeFiles files s = .ok (ret, s')) : ProbeDone files s ret s' := by
  have hdone : ∃ ret s', probeFiles files s = .ok (ret, s') ∧ ProbeDone files s ret s' := by
    by_cases hnodes : ∃ nodes, NodesOf files.dir nodes
    · obtain ⟨nodes, hnodes⟩ := hnodes
      rcases probeFiles_cases s hnodes with ⟨-, hdone⟩ | ⟨-, fault, hfault⟩
      · exact hdone
      · cases h.symm.trans hfault
    · push Not at hnodes
      exact probeFiles_of_not s hnodes
  obtain ⟨ret', t, heq, hdone⟩ := hdone
  cases h.symm.trans heq
  exact hdone

/-- The first call. -/
theorem probeFiles_done_iff (files : HostFiles) : (∃ ret s', probeFiles files s = .ok (ret, s') ∧
      ProbeDone files s ret s') ↔ ∀ nodes, NodesOf files.dir nodes → Defined files nodes := by
  by_cases hnodes : ∃ nodes, NodesOf files.dir nodes
  · obtain ⟨nodes, hnodes⟩ := hnodes
    rcases probeFiles_cases s hnodes with ⟨hdefined, hdone⟩ | ⟨hdefined, fault, hfault⟩
    · exact iff_of_true hdone fun m hm => hm.unique hnodes ▸ hdefined
    · refine iff_of_false ?_ fun hall => hdefined (hall nodes hnodes)
      rintro ⟨ret, s', heq, -⟩
      rw [hfault] at heq
      cases heq
  · push Not at hnodes
    exact iff_of_true (probeFiles_of_not s hnodes) fun m hm => absurd hm (hnodes m)

/-! ### Runs -/

/-- After the first call nothing is done. -/
theorem initHostFiles_later (h : s.lib.isGetHostInfo = true) (files : HostFiles) :
    initHostFiles files s = .ok (.ok (), s) := if_pos h

/-- Later calls are right if everything was set. -/
theorem hostRight_of_set {s : HostLib} (h : s.lib.isGetHostInfo = true) {before : List HostFiles}
    (hset : ∃ host ∈ before, s.source = some host ∧ SetFrom host s) (calls : List HostFiles) :
    HostRight s before calls := by
  induction calls generalizing before with
  | nil => trivial
  | cons files calls ih =>
    obtain ⟨host, hmem, hhost⟩ := hset
    have hset : ∃ host ∈ files :: before, s.source = some host ∧ SetFrom host s :=
      ⟨host, List.mem_cons_of_mem _ hmem, hhost⟩
    exact ⟨.ok (), s, initHostFiles_later s h files, fun _ => hset, ih hset⟩

/-- **The runs in which 0 means that everything was set from the host.** -/
theorem hostRight_iff (after : ℕ → ManagerInfo) (children : ℤ → Child) (calls : List HostFiles) :
    HostRight (hostStart after children) [] calls ↔ HostFair calls := by
  cases calls with
  | nil => exact iff_of_true trivial fun files h => by cases h
  | cons files calls =>
    let s := hostStart after children
    have hfirst : initHostFiles files s =
        probeFiles files { s with lib := { s.lib with isGetHostInfo := true } } := rfl
    have hdone := probeFiles_done_iff { s with lib := { s.lib with isGetHostInfo := true } } files
    have hfair : HostFair (files :: calls) ↔
        (∀ nodes, NodesOf files.dir nodes → Defined files nodes) ∧
          (Complete files ∨ calls = []) := by
      simp [HostFair]
    rw [hfair, ← hdone]
    constructor
    · rintro ⟨ret, s', heq, hset, hrest⟩
      rw [hfirst] at heq
      have hprobe := probeDone_of_ok heq
      refine ⟨⟨ret, s', heq, hprobe⟩, ?_⟩
      by_cases hret : ret = .ok ()
      · exact .inl (hprobe.ok_iff.1 hret)
      · -- the second call would answer 0
        cases calls with
        | nil => exact .inr rfl
        | cons next calls =>
          obtain ⟨ret', t, hnext, hset', -⟩ := hrest
          rw [initHostFiles_later s' hprobe.flag] at hnext
          cases hnext
          obtain ⟨host, -, hsource, -⟩ := hset' rfl
          rw [hprobe.source hret] at hsource
          cases hsource
    · rintro ⟨⟨ret, s', heq, hprobe⟩, hrest⟩
      refine ⟨ret, s', hfirst.trans heq, fun hret => ?_, ?_⟩
      · exact ⟨files, List.mem_cons_self, hprobe.setFrom hret⟩
      · rcases hrest with hcomplete | rfl
        · exact hostRight_of_set hprobe.flag
            ⟨files, List.mem_cons_self, hprobe.setFrom (hprobe.ok_iff.2 hcomplete)⟩ calls
        · trivial

/-- The free pages cannot be read, and the second call answers 0. -/
theorem not_hostRight : ¬∀ (after : ℕ → ManagerInfo) (children : ℤ → Child)
    (calls : List HostFiles), HostRight (hostStart after children) [] calls := by
  intro hall
  let files : HostFiles :=
    { dir := fun i => if i = 0 then .present else .absent
      free := fun _ => none
      cpulist := fun _ => none }
  obtain ⟨ret, s', hfirst, -, ret', t, hsecond, hset, -⟩ :=
    hall (fun _ => .zero) (fun _ => .none) [files, files]
  have herr : ∃ s, initHostFiles files (hostStart (fun _ => .zero) fun _ => .none) =
      .ok (.error (.code .failureOpen), s) ∧ s.lib.isGetHostInfo = true ∧ s.source = none :=
    ⟨_, rfl, rfl, rfl⟩
  obtain ⟨s, heq, hflag, hsource⟩ := herr
  cases hfirst.symm.trans heq
  rw [initHostFiles_later s' hflag] at hsecond
  cases hsecond
  obtain ⟨host, -, hhost, -⟩ := hset rfl
  rw [hsource] at hhost
  cases hhost

end HardwareDrivers.Libfpga
