import HardwareDrivers.Libfpga.DeviceTable
import HardwareDrivers.Theory.Directory
import HardwareDrivers.Theory.Transition
import Mathlib.Data.List.TakeWhile

/-!
# The version file

A primary process of DPDK writes the version of its DPDK into a file, a secondary process compares it
with its own before it attaches to the memory of the primary. `rte_eal_init` and the file are not one:
between the two of the primary there may be the file of an earlier one, which was killed, and between
the two of the secondary there may be another primary.

The file system and DPDK are outside: `rte_eal_init` makes the memory of a primary, if no other
primary runs, and attaches a secondary to the memory that was made last. All processes have one
`file_prefix`, which is not empty.

## What is proved

* `VersionInv.gone` — a primary that leaves may leave anything in the file.
* `versions_agree` — if no primary starts while a secondary starts and `fclose` writes all of what was
  printed or nothing, each secondary that attached to a primary has its version, wherever processes are
  killed and whatever else the calls on the file come to.
-/

namespace HardwareDrivers.Libfpga

open Theory

/-! ### The state -/

/-- Where a process is in `fpga_shmem_init_sys`, `fpga_shmem_init` and `fpga_shmem_finish`. -/
inductive VersionAt (ι : Type*) where
  /-- In none of them, and without memory. -/
  | outside
  /-- `SHMEM_VERSION_FILE_CREATE`, at `fopen`. -/
  | creating
  /-- At `fprintf`. -/
  | writing (file : ℕ)
  /-- It is a primary process. -/
  | primary
  /-- `SHMEM_VERSION_FILE_DELETE`, at `unlink`. -/
  | deleting
  /-- `SHMEM_VERSION_FILE_COMPARE`, at `fseek`. -/
  | opened (file : ℕ)
  /-- At `fread`. -/
  | measured (file size : ℕ)
  /-- At `rte_eal_init` of a secondary process. -/
  | compared
  /-- At `open` of the lock file; it has the memory of a primary process that was running, or of none. -/
  | attached (of : Option ι)
  /-- It is a secondary process. -/
  | secondary (of : Option ι)
  /-- It ended. -/
  | ended

/-- A process. -/
structure VersionProcess (ι : Type*) where
  /-- Where it is. -/
  pc : VersionAt ι
  /-- `shmem_lock_file_fd` is not negative. -/
  shmemLockFileFd : Bool
  /-- `shmem_file_prefix` is not empty. -/
  shmemFilePrefix : Bool

/-- The processes of one `file_prefix`. -/
structure VersionSystem (ι : Type*) where
  /-- The file that `SHMEM_FMT_VERSION_FILE` names. -/
  dir : Directory Unit Char
  /-- Who made the memory. -/
  memory : Option ι
  /-- The processes. -/
  procs : ι → VersionProcess ι

/-- What a process does; `ok` says whether the call succeeds. -/
inductive VersionOp (ι : Type*) where
  /-- `rte_eal_init` in `fpga_shmem_init_sys`. -/
  | initSys (i : ι) (ok : Bool)
  /-- `fopen` to write; if it fails, `rte_eal_cleanup`. -/
  | create (i : ι) (ok : Bool)
  /-- `fprintf`, `unlink` if that fails, and `fclose`; so many characters come into the file. -/
  | print (i : ι) (ok : Bool) (written : ℕ) (unlinked : Bool)
  /-- `fopen` to read, in `fpga_shmem_init`. -/
  | openFile (i : ι) (ok : Bool)
  /-- `fseek` and `ftell`. -/
  | measure (i : ι) (ok : Bool)
  /-- `malloc`, `fread` and `strcmp`. -/
  | compare (i : ι) (ok : Bool)
  /-- `rte_eal_init` there. -/
  | attach (i : ι) (ok : Bool)
  /-- `__fpga_shmem_create_lock_file`: `open`, and `flock`; if they fail, `fpga_shmem_finish`. -/
  | lock (i : ι) (opened locked : Bool)
  /-- `fpga_shmem_finish`, up to `unlink`. -/
  | finish (i : ι)
  /-- `unlink` there. -/
  | delete (i : ι) (ok : Bool)
  /-- It is killed, or ends. -/
  | kill (i : ι)
  /-- The directory of the prefix is removed. -/
  | remove
deriving DecidableEq

variable {ι : Type*}

/-- `rte_eal_init` made it a primary process of DPDK. -/
def VersionAt.isPrimary : VersionAt ι → Bool
  | .creating | .writing _ | .primary => true
  | _ => false

/-- The primary process that made the memory, if it runs. -/
def VersionSystem.running (s : VersionSystem ι) : Option ι :=
  s.memory.filter fun i => (s.procs i).pc.isPrimary

/-- The rest of `fpga_shmem_finish`, behind `rte_eal_cleanup`. -/
def finishVersion (fd pre : Bool) : VersionProcess ι :=
  if fd = false ∧ pre = true then ⟨.deleting, fd, pre⟩ else ⟨.outside, fd, false⟩

/-- What `strcmp` sees of some characters. -/
def upToNul (buffer : CString) : CString := buffer.takeWhile fun c => c.toNat ≠ 0

variable [DecidableEq ι]

/-- A process is somewhere else. -/
def VersionSystem.goto (i : ι) (p : VersionProcess ι) (s : VersionSystem ι) : VersionSystem ι :=
  { s with procs := Function.update s.procs i p }

/-- A step; `version` is `rte_version` of a process. -/
def versionStep (version : ι → CString) (s : VersionSystem ι) : VersionOp ι → Option (VersionSystem ι)
  | .initSys i ok =>
    match s.procs i with
    | ⟨.outside, fd, pre⟩ =>
      if ok then some { s.goto i ⟨.creating, fd, pre⟩ with memory := some i } else some s
    | _ => none
  | .create i ok =>
    match s.procs i with
    | ⟨.creating, fd, pre⟩ =>
      if ok then
        some { s.goto i ⟨.writing (s.dir.fileOf ()), fd, pre⟩ with
          dir := (s.dir.create ()).truncate (s.dir.fileOf ()) }
      else some (s.goto i ⟨.outside, fd, pre⟩)
    | _ => none
  | .print i ok written unlinked =>
    match s.procs i with
    | ⟨.writing file, fd, pre⟩ =>
      let dir := s.dir.append file ((version i).take written)
      if ok then some { s.goto i ⟨.primary, fd, true⟩ with dir }
      else some { s.goto i ⟨.outside, fd, pre⟩ with dir := if unlinked then dir.remove () else dir }
    | _ => none
  | .openFile i ok =>
    match s.procs i, s.dir.entry () with
    | ⟨.outside, fd, pre⟩, some file => some (if ok then s.goto i ⟨.opened file, fd, pre⟩ else s)
    | ⟨.outside, _, _⟩, none => some s
    | _, _ => none
  | .measure i ok =>
    match s.procs i with
    | ⟨.opened file, fd, pre⟩ =>
      some (s.goto i ⟨if ok ∧ 0 < (s.dir.content file).length then
        .measured file (s.dir.content file).length else .outside, fd, pre⟩)
    | _ => none
  | .compare i ok =>
    match s.procs i with
    | ⟨.measured file size, fd, pre⟩ =>
      let buffer := (s.dir.content file).take size
      some (s.goto i ⟨if ok ∧ buffer.length = size ∧ upToNul buffer = version i then .compared
        else .outside, fd, pre⟩)
    | _ => none
  | .attach i ok =>
    match s.procs i with
    | ⟨.compared, fd, pre⟩ => some (s.goto i ⟨if ok then .attached s.running else .outside, fd, pre⟩)
    | _ => none
  | .lock i opened locked =>
    match s.procs i with
    | ⟨.attached of, _, pre⟩ =>
      some (s.goto i (if opened ∧ locked then ⟨.secondary of, true, true⟩ else finishVersion opened pre))
    | _ => none
  | .finish i =>
    match s.procs i with
    | ⟨.primary, fd, pre⟩ | ⟨.secondary _, fd, pre⟩ => some (s.goto i (finishVersion fd pre))
    | _ => none
  | .delete i ok =>
    match s.procs i with
    | ⟨.deleting, fd, _⟩ =>
      some { s.goto i ⟨.outside, fd, false⟩ with dir := if ok then s.dir.remove () else s.dir }
    | _ => none
  | .kill i => some (s.goto i ⟨.ended, false, false⟩)
  | .remove => some { s with dir := s.dir.remove () }

/-! ### What a step can be -/

variable {version : ι → CString} {s t : VersionSystem ι} {o : VersionOp ι} {i j : ι}

/-- In none of the functions, or about to leave. -/
def VersionAt.Quiet : VersionAt ι → Prop
  | .outside | .deleting | .ended => True
  | _ => False

omit [DecidableEq ι] in
theorem quiet_finishVersion (fd pre : Bool) : (finishVersion fd pre : VersionProcess ι).pc.Quiet := by
  unfold finishVersion
  split <;> trivial

/-- The steps by what they do to the memory and the file. -/
inductive VersionMove (version : ι → CString) (s : VersionSystem ι) :
    VersionOp ι → VersionSystem ι → Prop
  /-- Nothing changes. -/
  | still (o : VersionOp ι) : VersionMove version s o s
  /-- A primary process makes the memory. -/
  | initSys (i : ι) (p : VersionProcess ι) (hp : p.pc = .creating) :
    VersionMove version s (.initSys i true) { s.goto i p with memory := some i }
  /-- It makes the file. -/
  | create (o : VersionOp ι) (i : ι) (p : VersionProcess ι) (hi : (s.procs i).pc = .creating)
      (hp : p.pc = .writing (s.dir.fileOf ())) :
    VersionMove version s o { s.goto i p with dir := (s.dir.create ()).truncate (s.dir.fileOf ()) }
  /-- It writes the file. -/
  | print (i : ι) (p : VersionProcess ι) (file written : ℕ) (unlinked : Bool)
      (hi : (s.procs i).pc = .writing file) (hp : p.pc = .primary) :
    VersionMove version s (.print i true written unlinked)
      { s.goto i p with dir := s.dir.append file ((version i).take written) }
  /-- It cannot, and leaves whatever is in the file, or no file. -/
  | gone (o : VersionOp ι) (i : ι) (p : VersionProcess ι) (dir : Directory Unit Char)
      (hi : (s.procs i).pc.isPrimary = true) (hp : p.pc.Quiet) :
    VersionMove version s o { s.goto i p with dir }
  /-- A secondary process opens the file. -/
  | openFile (i : ι) (p : VersionProcess ι) (file : ℕ) (hentry : s.dir.entry () = some file)
      (hp : p.pc = .opened file) :
    VersionMove version s (.openFile i true) (s.goto i p)
  /-- It finds something in it. -/
  | measure (o : VersionOp ι) (i : ι) (p : VersionProcess ι) (file : ℕ)
      (hi : (s.procs i).pc = .opened file) (hne : s.dir.content file ≠ [])
      (hp : p.pc = .measured file (s.dir.content file).length) : VersionMove version s o (s.goto i p)
  /-- It finds its own version. -/
  | compare (o : VersionOp ι) (i : ι) (p : VersionProcess ι) (file size : ℕ)
      (hi : (s.procs i).pc = .measured file size)
      (hsame : upToNul ((s.dir.content file).take size) = version i) (hp : p.pc = .compared) :
    VersionMove version s o (s.goto i p)
  /-- It attaches. -/
  | attach (o : VersionOp ι) (i : ι) (p : VersionProcess ι) (hi : (s.procs i).pc = .compared)
      (hp : p.pc = .attached s.running) :
    VersionMove version s o (s.goto i p)
  /-- It has the lock. -/
  | lock (o : VersionOp ι) (i : ι) (p : VersionProcess ι) (x : Option ι)
      (hi : (s.procs i).pc = .attached x) (hp : p.pc = .secondary x) :
    VersionMove version s o (s.goto i p)
  /-- A process leaves, and may remove the file. -/
  | leave (o : VersionOp ι) (i : ι) (p : VersionProcess ι) (dir : Directory Unit Char)
      (hp : p.pc.Quiet) (hdir : dir = s.dir ∨ dir = s.dir.remove ()) :
    VersionMove version s o { s.goto i p with dir }
  /-- The file is removed. -/
  | remove (o : VersionOp ι) : VersionMove version s o { s with dir := s.dir.remove () }

theorem initSys_move {ok : Bool} (h : versionStep version s (.initSys i ok) = some t) :
    VersionMove version s (.initSys i ok) t := by
  unfold versionStep at h
  dsimp only at h
  split at h
  · split_ifs at h with hok
    · cases h
      subst hok
      exact .initSys i _ rfl
    · cases h
      exact .still _
  · cases h

theorem create_move {ok : Bool} (h : versionStep version s (.create i ok) = some t) :
    VersionMove version s (.create i ok) t := by
  unfold versionStep at h
  dsimp only at h
  split at h
  · rename_i fd pre hi
    split_ifs at h
    · cases h
      exact .create _ i _ (by rw [hi]) rfl
    · cases h
      exact .leave _ i _ _ trivial (.inl rfl)
  · cases h

theorem print_move {ok unlinked : Bool} {written : ℕ}
    (h : versionStep version s (.print i ok written unlinked) = some t) :
    VersionMove version s (.print i ok written unlinked) t := by
  unfold versionStep at h
  dsimp only at h
  split at h
  · rename_i file fd pre hi
    cases ok with
    | true =>
      cases h
      exact .print i _ file written unlinked (by rw [hi]) rfl
    | false =>
      cases h
      exact .gone _ i _ _ (by rw [hi]; rfl) trivial
  · cases h

theorem openFile_move {ok : Bool} (h : versionStep version s (.openFile i ok) = some t) :
    VersionMove version s (.openFile i ok) t := by
  unfold versionStep at h
  dsimp only at h
  split at h
  · rename_i fd pre file hi hentry
    cases h
    cases ok with
    | true => exact .openFile i _ file hentry rfl
    | false => exact .still _
  · cases h
    exact .still _
  · cases h

theorem measure_move {ok : Bool} (h : versionStep version s (.measure i ok) = some t) :
    VersionMove version s (.measure i ok) t := by
  unfold versionStep at h
  dsimp only at h
  split at h
  · rename_i file fd pre hi
    cases h
    split_ifs with hok
    · exact .measure _ i _ file (by rw [hi]) (List.ne_nil_of_length_pos hok.2) rfl
    · exact .leave _ i _ _ trivial (.inl rfl)
  · cases h

theorem compare_move {ok : Bool} (h : versionStep version s (.compare i ok) = some t) :
    VersionMove version s (.compare i ok) t := by
  unfold versionStep at h
  dsimp only at h
  split at h
  · rename_i file size fd pre hi
    cases h
    split_ifs with hok
    · exact .compare _ i _ file size (by rw [hi]) hok.2.2 rfl
    · exact .leave _ i _ _ trivial (.inl rfl)
  · cases h

theorem attach_move {ok : Bool} (h : versionStep version s (.attach i ok) = some t) :
    VersionMove version s (.attach i ok) t := by
  unfold versionStep at h
  dsimp only at h
  split at h
  · rename_i fd pre hi
    cases h
    split_ifs
    · exact .attach _ i _ (by rw [hi]) rfl
    · exact .leave _ i _ _ trivial (.inl rfl)
  · cases h

theorem lock_move {opened locked : Bool} (h : versionStep version s (.lock i opened locked) = some t) :
    VersionMove version s (.lock i opened locked) t := by
  unfold versionStep at h
  dsimp only at h
  split at h
  · rename_i x fd pre hi
    cases h
    split_ifs
    · exact .lock _ i _ x (by rw [hi]) rfl
    · exact .leave _ i _ _ (quiet_finishVersion ..) (.inl rfl)
  · cases h

theorem finish_move (h : versionStep version s (.finish i) = some t) :
    VersionMove version s (.finish i) t := by
  unfold versionStep at h
  dsimp only at h
  split at h
  · cases h
    exact .leave _ i _ _ (quiet_finishVersion ..) (.inl rfl)
  · cases h
    exact .leave _ i _ _ (quiet_finishVersion ..) (.inl rfl)
  · cases h

theorem delete_move {ok : Bool} (h : versionStep version s (.delete i ok) = some t) :
    VersionMove version s (.delete i ok) t := by
  unfold versionStep at h
  dsimp only at h
  split at h
  · cases h
    refine .leave _ i _ _ trivial ?_
    cases ok
    · exact .inl rfl
    · exact .inr rfl
  · cases h

theorem versionStep_move (h : versionStep version s o = some t) : VersionMove version s o t := by
  cases o with
  | initSys => exact initSys_move h
  | create => exact create_move h
  | print => exact print_move h
  | openFile => exact openFile_move h
  | measure => exact measure_move h
  | compare => exact compare_move h
  | attach => exact attach_move h
  | lock => exact lock_move h
  | finish => exact finish_move h
  | delete => exact delete_move h
  | kill i =>
    cases h
    exact .leave _ i _ _ trivial (.inl rfl)
  | remove =>
    cases h
    exact .remove _

/-! ### What holds of the file -/

/-- It is a primary process of DPDK. -/
def VersionAt.Owns (pc : VersionAt ι) : Prop := pc.isPrimary = true

/-- A primary process that has not written its version. -/
def VersionAt.Starts : VersionAt ι → Prop
  | .creating | .writing _ => True
  | _ => False

/-- A process that becomes a secondary one, and has not attached. -/
def VersionAt.Reads : VersionAt ι → Prop
  | .opened _ | .measured .. | .compared => True
  | _ => False

/-- The memory that a process has. -/
def VersionAt.of : VersionAt ι → Option ι
  | .attached x | .secondary x => x
  | _ => none

/-- What a process found agrees with the version of a primary process. -/
def VersionAt.Agrees (content : ℕ → CString) (mine theirs : CString) : VersionAt ι → Prop
  | .opened file => content file = [] ∨ content file = theirs
  | .measured file size => content file = theirs ∧ size = theirs.length
  | .compared => mine = theirs
  | _ => True

/-- What was printed comes into the file as a whole, or nothing of it. -/
def VersionOp.Whole (version : ι → CString) : VersionOp ι → Prop
  | .print i true written _ => written = 0 ∨ (version i).length ≤ written
  | _ => True

/-- What makes a step fair. -/
structure VersionSystem.Fair (version : ι → CString) (s : VersionSystem ι) (o : VersionOp ι) : Prop where
  /-- `rte_eal_init` lets one process at a time be a primary. -/
  alone : ∀ i j, o = .initSys i true → j ≠ i → ¬ (s.procs j).pc.Owns
  /-- No process becomes a secondary while one starts to become a primary. -/
  noReader : ∀ i j, o = .initSys i true → ¬ (s.procs j).pc.Reads
  /-- And the other way. -/
  noStarter : ∀ i j, o = .openFile i true → ¬ (s.procs j).pc.Starts
  /-- `fclose` of a version that was printed does not fail part way. -/
  whole : o.Whole version

/-- What holds in a fair run. -/
structure VersionInv (version : ι → CString) (s : VersionSystem ι) : Prop where
  /-- One process at a time is a primary. -/
  sole : ∀ i j, (s.procs i).pc.Owns → (s.procs j).pc.Owns → i = j
  /-- It made the memory. -/
  memory : ∀ i, (s.procs i).pc.Owns → s.memory = some i
  /-- Nobody reads while it starts. -/
  apart : ∀ i j, (s.procs i).pc.Starts → ¬ (s.procs j).pc.Reads
  /-- The file that it made is empty at first. -/
  fresh : ∀ i file, (s.procs i).pc = .writing file →
    s.dir.content file = [] ∧ ∀ f, s.dir.entry () = some f → f = file
  /-- In the file of a primary process is its version, if anything. -/
  file : ∀ i f, (s.procs i).pc = .primary → s.dir.entry () = some f →
    s.dir.content f = [] ∨ s.dir.content f = version i
  /-- Who reads, reads that. -/
  reads : ∀ i j, (s.procs i).pc = .primary →
    (s.procs j).pc.Agrees s.dir.content (version j) (version i)
  /-- Who attached to it has its version. -/
  attached : ∀ i j, (s.procs j).pc.of = some i → version j = version i

/-! ### What a step keeps -/

theorem upToNul_eq_self {text : CString} (h : ∀ c ∈ text, c.toNat ≠ 0) : upToNul text = text :=
  List.takeWhile_eq_self_iff.mpr fun c hc => decide_eq_true (h c hc)

omit [DecidableEq ι] in
theorem VersionAt.Quiet.not_owns {pc : VersionAt ι} (h : pc.Quiet) : ¬ pc.Owns := by
  cases pc <;> first | exact h.elim | exact Bool.false_ne_true

omit [DecidableEq ι] in
theorem VersionAt.Quiet.not_reads {pc : VersionAt ι} (h : pc.Quiet) : ¬ pc.Reads := by
  cases pc <;> first | exact h.elim | exact id

omit [DecidableEq ι] in
theorem VersionAt.Quiet.of {pc : VersionAt ι} (h : pc.Quiet) : pc.of = none := by
  cases pc <;> first | exact h.elim | rfl

omit [DecidableEq ι] in
theorem VersionAt.Starts.owns {pc : VersionAt ι} (h : pc.Starts) : pc.Owns := by
  cases pc <;> first | exact h.elim | rfl

omit [DecidableEq ι] in
theorem VersionAt.Reads.not_owns {pc : VersionAt ι} (h : pc.Reads) : ¬ pc.Owns := by
  cases pc <;> first | exact h.elim | exact Bool.false_ne_true

omit [DecidableEq ι] in
/-- Who does not read agrees with everybody. -/
theorem agrees_of_not_reads {pc : VersionAt ι} {content : ℕ → CString} {mine theirs : CString}
    (h : ¬ pc.Reads) : pc.Agrees content mine theirs := by
  cases pc <;> first | exact absurd trivial h | exact trivial

@[simp] theorem goto_procs_same (p : VersionProcess ι) : (s.goto i p).procs i = p :=
  Function.update_self ..

theorem goto_procs_other (p : VersionProcess ι) (h : j ≠ i) : (s.goto i p).procs j = s.procs j :=
  Function.update_of_ne h ..

/-- A process that is no primary behind its step. -/
theorem VersionInv.goto (hinv : VersionInv version s) {p : VersionProcess ι} (hp : ¬ p.pc.Owns)
    (hreads : p.pc.Reads → ∀ k, ¬ (s.procs k).pc.Starts)
    (hagree : ∀ k, (s.procs k).pc = .primary → p.pc.Agrees s.dir.content (version i) (version k))
    (hof : ∀ k, p.pc.of = some k → version i = version k) : VersionInv version (s.goto i p) := by
  have hother : ∀ k, ((s.goto i p).procs k).pc.Owns → (s.goto i p).procs k = s.procs k := by
    intro k hk
    refine goto_procs_other p fun hki => hp ?_
    rwa [hki, goto_procs_same] at hk
  refine ⟨fun k l hk hl => ?_, fun k hk => ?_, fun k l hk hl => ?_, fun k file hk => ?_, fun k f hk => ?_,
    fun k l hk => ?_, fun k l hl => ?_⟩
  · rw [hother k hk] at hk
    rw [hother l hl] at hl
    exact hinv.sole k l hk hl
  · rw [hother k hk] at hk
    exact hinv.memory k hk
  · rw [hother k hk.owns] at hk
    by_cases hli : l = i
    · rw [hli, goto_procs_same] at hl
      exact hreads hl k hk
    · rw [goto_procs_other p hli] at hl
      exact hinv.apart k l hk hl
  · have howns : ((s.goto i p).procs k).pc.Owns := by
      rw [hk]
      rfl
    rw [hother k howns] at hk
    exact hinv.fresh k file hk
  · have howns : ((s.goto i p).procs k).pc.Owns := by
      rw [hk]
      rfl
    rw [hother k howns] at hk
    exact hinv.file k f hk
  · have howns : ((s.goto i p).procs k).pc.Owns := by
      rw [hk]
      rfl
    rw [hother k howns] at hk
    by_cases hli : l = i
    · rw [hli, goto_procs_same]
      exact hagree k hk
    · rw [goto_procs_other p hli]
      exact hinv.reads k l hk
  · by_cases hli : l = i
    · rw [hli, goto_procs_same] at hl
      rw [hli]
      exact hof k hl
    · rw [goto_procs_other p hli] at hl
      exact hinv.attached k l hl

theorem VersionInv.quiet (hinv : VersionInv version s) {p : VersionProcess ι} (hp : p.pc.Quiet) :
    VersionInv version (s.goto i p) := by
  refine hinv.goto hp.not_owns (fun h => absurd h hp.not_reads) (fun _ _ => agrees_of_not_reads hp.not_reads)
    fun k hk => ?_
  rw [hp.of] at hk
  cases hk

omit [DecidableEq ι] in
/-- The name of the file is gone. -/
theorem VersionInv.removed (hinv : VersionInv version s) :
    VersionInv version { s with dir := s.dir.remove () } where
  sole := hinv.sole
  memory := hinv.memory
  apart := hinv.apart
  fresh k file hk := ⟨(hinv.fresh k file hk).1, fun f hf =>
    (hinv.fresh k file hk).2 f (Directory.remove_entry hf)⟩
  file k f hk hf := hinv.file k f hk (Directory.remove_entry hf)
  reads := hinv.reads
  attached := hinv.attached

/-- A process that is a primary behind its step, and the only one. -/
theorem VersionInv.owner {dir : Directory Unit Char} {p : VersionProcess ι} (hinv : VersionInv version s)
    (hother : ∀ j, j ≠ i → ¬ (s.procs j).pc.Owns) (hp : p.pc.Owns)
    (hreader : ∀ j, j ≠ i → ¬ (s.procs j).pc.Reads)
    (hfresh : ∀ file, p.pc = .writing file →
      dir.content file = [] ∧ ∀ f, dir.entry () = some f → f = file)
    (hfile : ∀ f, p.pc = .primary → dir.entry () = some f →
      dir.content f = [] ∨ dir.content f = version i) :
    VersionInv version { s.goto i p with memory := some i, dir } := by
  have hself : ∀ k, ((s.goto i p).procs k).pc.Owns → k = i := by
    intro k hk
    by_contra hki
    rw [goto_procs_other p hki] at hk
    exact hother k hki hk
  have hread : ∀ k, ¬ ((s.goto i p).procs k).pc.Reads := by
    intro k hk
    by_cases hki : k = i
    · rw [hki, goto_procs_same] at hk
      exact hk.not_owns hp
    · rw [goto_procs_other p hki] at hk
      exact hreader k hki hk
  refine ⟨fun k l hk hl => (hself k hk).trans (hself l hl).symm, fun k hk => ?_, fun _ l _ => hread l,
    fun k file hk => ?_, fun k f hk => ?_, fun _ l _ => agrees_of_not_reads (hread l), fun k l hl => ?_⟩
  · rw [hself k hk]
  · have hki := hself k (by rw [hk]; rfl)
    refine hfresh file ?_
    rwa [hki, goto_procs_same] at hk
  · have hki := hself k (by rw [hk]; rfl)
    rw [hki, goto_procs_same] at hk
    rw [hki]
    exact hfile f hk
  · by_cases hli : l = i
    · rw [hli, goto_procs_same] at hl
      cases hpc : p.pc <;> rw [hpc] at hp hl <;> cases hp <;> cases hl
    · rw [goto_procs_other p hli] at hl
      exact hinv.attached k l hl

/-- **A primary that leaves** may leave anything in the file: nobody else is a primary. -/
theorem VersionInv.gone (hinv : VersionInv version s) (hi : (s.procs i).pc.Owns) {p : VersionProcess ι}
    (hp : p.pc.Quiet) (dir : Directory Unit Char) : VersionInv version { s.goto i p with dir } := by
  have hnone : ∀ k, ¬ ((s.goto i p).procs k).pc.Owns := by
    intro k hk
    by_cases hki : k = i
    · rw [hki, goto_procs_same] at hk
      exact hp.not_owns hk
    · rw [goto_procs_other p hki] at hk
      exact hki (hinv.sole k i hk hi)
  refine ⟨fun k _ hk => absurd hk (hnone k), fun k hk => absurd hk (hnone k),
    fun k _ hk => absurd hk.owns (hnone k), fun k _ hk => ?_, fun k _ hk => ?_, fun k _ hk => ?_,
    (hinv.quiet hp).attached⟩ <;>
  · refine absurd ?_ (hnone k)
    change ((s.goto i p).procs k).pc = _ at hk
    rw [hk]
    rfl

/-- A process that was the only primary, and still is. -/
theorem VersionInv.starter {dir : Directory Unit Char} {p : VersionProcess ι} (hinv : VersionInv version s)
    (hi : (s.procs i).pc.Starts) (hp : p.pc.Owns)
    (hfresh : ∀ file, p.pc = .writing file →
      dir.content file = [] ∧ ∀ f, dir.entry () = some f → f = file)
    (hfile : ∀ f, p.pc = .primary → dir.entry () = some f →
      dir.content f = [] ∨ dir.content f = version i) :
    VersionInv version { s.goto i p with dir } := by
  have howner := hinv.owner (fun j hj hown => hj (hinv.sole j i hown hi.owns)) hp
    (fun j _ => hinv.apart i j hi) hfresh hfile
  rwa [← hinv.memory i hi.owns] at howner

theorem VersionInv.initSys (hinv : VersionInv version s) (hfair : s.Fair version (.initSys i true))
    {p : VersionProcess ι} (hp : p.pc = .creating) :
    VersionInv version { s.goto i p with memory := some i } := by
  refine hinv.owner (fun j => hfair.alone i j rfl) (by rw [hp]; rfl) (fun j _ => hfair.noReader i j rfl)
    (fun file hf => ?_) fun f hf => ?_
  · rw [hp] at hf
    cases hf
  · rw [hp] at hf
    cases hf

theorem VersionInv.create (hinv : VersionInv version s) (hi : (s.procs i).pc = .creating)
    {p : VersionProcess ι} (hp : p.pc = .writing (s.dir.fileOf ())) :
    VersionInv version { s.goto i p with dir := (s.dir.create ()).truncate (s.dir.fileOf ()) } := by
  refine hinv.starter (by rw [hi]; trivial) (by rw [hp]; rfl) (fun file hf => ?_) fun f hf => ?_
  · rw [hp] at hf
    cases hf
    refine ⟨Directory.truncate_content_self, fun f hf => ?_⟩
    rw [Directory.truncate_entry, Directory.create_entry_self] at hf
    exact (Option.some.inj hf).symm
  · rw [hp] at hf
    cases hf

theorem VersionInv.print {file written : ℕ} {unlinked : Bool} (hinv : VersionInv version s)
    (hfair : s.Fair version (.print i true written unlinked)) (hi : (s.procs i).pc = .writing file)
    {p : VersionProcess ι} (hp : p.pc = .primary) :
    VersionInv version { s.goto i p with dir := s.dir.append file ((version i).take written) } := by
  obtain ⟨hempty, hentry⟩ := hinv.fresh i file hi
  refine hinv.starter (by rw [hi]; trivial) (by rw [hp]; rfl) (fun file hf => ?_) fun f _ hf => ?_
  · rw [hp] at hf
    cases hf
  · rw [Directory.append_entry] at hf
    rw [hentry f hf, Directory.append_content_self, hempty, List.nil_append]
    have hwhole : written = 0 ∨ (version i).length ≤ written := hfair.whole
    rcases hwhole with hnone | hall
    · left
      rw [hnone, List.take_zero]
    · right
      exact List.take_of_length_le hall

theorem VersionInv.openFile {file : ℕ} (hinv : VersionInv version s)
    (hfair : s.Fair version (.openFile i true)) (hentry : s.dir.entry () = some file)
    {p : VersionProcess ι} (hp : p.pc = .opened file) : VersionInv version (s.goto i p) := by
  refine hinv.goto (by rw [hp]; exact Bool.false_ne_true) (fun _ k => hfair.noStarter i k rfl) (fun k hk => ?_)
    fun k hk => ?_
  · rw [hp]
    exact hinv.file k file hk hentry
  · rw [hp] at hk
    cases hk

theorem VersionInv.measure {file : ℕ} (hinv : VersionInv version s) (hi : (s.procs i).pc = .opened file)
    (hne : s.dir.content file ≠ []) {p : VersionProcess ι}
    (hp : p.pc = .measured file (s.dir.content file).length) : VersionInv version (s.goto i p) := by
  refine hinv.goto (by rw [hp]; exact Bool.false_ne_true) (fun _ k hk => ?_) (fun k hk => ?_) fun k hk => ?_
  · exact hinv.apart k i hk (by rw [hi]; trivial)
  · have hagree := hinv.reads k i hk
    rw [hi] at hagree
    have hfile := hagree.resolve_left hne
    rw [hp]
    exact ⟨hfile, by rw [hfile]⟩
  · rw [hp] at hk
    cases hk

theorem VersionInv.compare {file size : ℕ} (hversion : ∀ k, ∀ c ∈ version k, c.toNat ≠ 0)
    (hinv : VersionInv version s) (hi : (s.procs i).pc = .measured file size)
    (hsame : upToNul ((s.dir.content file).take size) = version i) {p : VersionProcess ι}
    (hp : p.pc = .compared) : VersionInv version (s.goto i p) := by
  refine hinv.goto (by rw [hp]; exact Bool.false_ne_true) (fun _ k hk => ?_) (fun k hk => ?_) fun k hk => ?_
  · exact hinv.apart k i hk (by rw [hi]; trivial)
  · have hagree := hinv.reads k i hk
    rw [hi] at hagree
    rw [hp]
    calc version i = upToNul ((s.dir.content file).take size) := hsame.symm
      _ = upToNul (version k) := by rw [hagree.1, hagree.2, List.take_length]
      _ = version k := upToNul_eq_self (hversion k)
  · rw [hp] at hk
    cases hk

/-- Who made the memory runs, and no process becomes a primary while this one reads. -/
theorem VersionInv.attach (hinv : VersionInv version s) (hi : (s.procs i).pc = .compared)
    {p : VersionProcess ι} (hp : p.pc = .attached s.running) : VersionInv version (s.goto i p) := by
  refine hinv.goto (by rw [hp]; exact Bool.false_ne_true) (fun hr => ?_) (fun k _ => ?_) fun k hk => ?_
  · rw [hp] at hr
    exact hr.elim
  · rw [hp]
    trivial
  · rw [hp] at hk
    obtain ⟨-, hk⟩ := Option.filter_eq_some_iff.mp hk
    have hreads : (s.procs i).pc.Reads := by rw [hi]; trivial
    have hprimary : (s.procs k).pc = .primary := by
      have hstarts : ¬ (s.procs k).pc.Starts := fun hs => hinv.apart k i hs hreads
      cases hpc : (s.procs k).pc <;> rw [hpc] at hk hstarts <;>
        first | rfl | exact absurd trivial hstarts | cases hk
    have hagree := hinv.reads k i hprimary
    rwa [hi] at hagree

theorem VersionInv.lock {x : Option ι} (hinv : VersionInv version s) (hi : (s.procs i).pc = .attached x)
    {p : VersionProcess ι} (hp : p.pc = .secondary x) : VersionInv version (s.goto i p) := by
  refine hinv.goto (by rw [hp]; exact Bool.false_ne_true) (fun hr => ?_) (fun k _ => ?_) fun k hk => ?_
  · rw [hp] at hr
    exact hr.elim
  · rw [hp]
    trivial
  · refine hinv.attached k i ?_
    rw [hp] at hk
    rwa [hi]

theorem VersionInv.step (hversion : ∀ k, ∀ c ∈ version k, c.toNat ≠ 0) (hinv : VersionInv version s)
    (hfair : s.Fair version o) (h : versionStep version s o = some t) : VersionInv version t := by
  cases versionStep_move h with
  | still => exact hinv
  | initSys i p hp => exact hinv.initSys hfair hp
  | create _ i p hi hp => exact hinv.create hi hp
  | print i p file written unlinked hi hp => exact hinv.print hfair hi hp
  | gone _ i p dir hi hp => exact hinv.gone hi hp dir
  | openFile i p file hentry hp => exact hinv.openFile hfair hentry hp
  | measure _ i p file hi hne hp => exact hinv.measure hi hne hp
  | compare _ i p file size hi hsame hp => exact hinv.compare hversion hi hsame hp
  | attach _ i p hi hp => exact hinv.attach hi hp
  | lock _ i p x hi hp => exact hinv.lock hi hp
  | leave _ i p dir hp hdir =>
    have hquiet := hinv.quiet (i := i) hp
    rcases hdir with rfl | rfl
    · exact hquiet
    · exact hquiet.removed
  | remove => exact hinv.removed

/-! ### Whole runs -/

/-- At first every process is in none of the functions, and whatever the file is. -/
def VersionSystem.Start (s : VersionSystem ι) : Prop := ∀ i, (s.procs i).pc = .outside

omit [DecidableEq ι] in
theorem VersionInv.start (h : s.Start) : VersionInv version s := by
  refine ⟨fun i _ hi => ?_, fun i hi => ?_, fun i _ hi => ?_, fun i _ hi => ?_, fun i _ hi => ?_,
    fun i _ hi => ?_, fun _ i hi => ?_⟩ <;>
  · rw [h i] at hi
    cases hi

/-- **A secondary process has the version of its primary process.** If no process starts to be a
primary while another is about to be a secondary, DPDK lets one be a primary at a time and no `fclose`
writes a part of the version that was printed, whoever attached to the memory of a primary has its
version, whatever is killed, fails, or was left in the file by those before. -/
theorem versions_agree {os : List (VersionOp ι)} (hversion : ∀ k, ∀ c ∈ version k, c.toNat ≠ 0)
    (hstart : s.Start) (hfair : Along (versionStep version) (VersionSystem.Fair version) s os)
    (hrun : run (versionStep version) s os = some t) {of : ι}
    (hof : (t.procs j).pc = .attached (some of) ∨ (t.procs j).pc = .secondary (some of)) :
    version j = version of := by
  have hinv : VersionInv version t := (always_of_along (I := VersionInv version)
    (fun _ _ _ hi hf hs => hi.step hversion hf hs) (.start hstart) hfair).last hrun
  refine hinv.attached of j ?_
  rcases hof with h | h <;> rw [h] <;> rfl

/-- The versions of three processes. -/
def rteVersions (i : Fin 3) : CString := if i = 2 then "DPDK 22.11.1".toList else "DPDK 23.11.0".toList

theorem rteVersions_noNul (k : Fin 3) : ∀ c ∈ rteVersions k, c.toNat ≠ 0 := by
  have hall : ((rteVersions k).all fun c => decide (c.toNat ≠ 0)) = true := by revert k; decide
  exact fun c hc => of_decide_eq_true (List.all_eq_true.mp hall c hc)

/-- Nobody made the memory, and there is no file. -/
def versionSystem : VersionSystem (Fin 3) :=
  { dir := .empty, memory := none, procs := fun _ => ⟨.outside, false, false⟩ }

instance (pc : VersionAt ι) : Decidable pc.Owns := inferInstanceAs (Decidable (_ = true))

instance (pc : VersionAt ι) : Decidable pc.Starts :=
  match pc with
  | .creating | .writing _ => isTrue trivial
  | .outside | .primary | .deleting | .opened _ | .measured .. | .compared | .attached _ | .secondary _
  | .ended => isFalse id

instance (pc : VersionAt ι) : Decidable pc.Reads :=
  match pc with
  | .opened _ | .measured .. | .compared => isTrue trivial
  | .outside | .creating | .writing _ | .primary | .deleting | .attached _ | .secondary _ | .ended =>
    isFalse id

instance VersionOp.decidableWhole (version : ι → CString) (o : VersionOp ι) : Decidable (o.Whole version) :=
  match o with
  | .print i true written _ => inferInstanceAs (Decidable (written = 0 ∨ (version i).length ≤ written))
  | .print _ false _ _ | .initSys .. | .create .. | .openFile .. | .measure .. | .compare .. | .attach ..
  | .lock .. | .finish .. | .delete .. | .kill .. | .remove => isTrue trivial

instance [Fintype ι] (version : ι → CString) (s : VersionSystem ι) (o : VersionOp ι) :
    Decidable (s.Fair version o) :=
  decidable_of_iff
    ((∀ i j, o = .initSys i true → j ≠ i → ¬ (s.procs j).pc.Owns) ∧
      (∀ i j, o = .initSys i true → ¬ (s.procs j).pc.Reads) ∧
      (∀ i j, o = .openFile i true → ¬ (s.procs j).pc.Starts) ∧ o.Whole version)
    ⟨fun h => ⟨h.1, h.2.1, h.2.2.1, h.2.2.2⟩, fun h => ⟨h.alone, h.noReader, h.noStarter, h.whole⟩⟩

/-- A primary process prints half of its version, cannot remove the file and leaves it. Another writes it
again and is killed, a third writes its own, and the first attaches to that one. -/
def halfVersionRun : List (VersionOp (Fin 3)) :=
  [.initSys 1 true, .create 1 true, .print 1 false 7 false, .initSys 2 true, .create 2 true,
    .print 2 true 12 false, .kill 2, .initSys 0 true, .create 0 true, .print 0 true 12 false,
    .openFile 1 true, .measure 1 true, .compare 1 true, .attach 1 true, .lock 1 true true]

/-- It has the version of that one, and not that of the one that was killed. -/
theorem versions_agree_killed : ∃ t, run (versionStep rteVersions) versionSystem halfVersionRun = some t ∧
    (t.procs 1).pc = .secondary (some 0) ∧ rteVersions 1 = rteVersions 0 ∧
    rteVersions 1 ≠ rteVersions 2 := by
  obtain ⟨t, ht, hpc⟩ : ∃ t, run (versionStep rteVersions) versionSystem halfVersionRun = some t ∧
      (t.procs 1).pc = .secondary (some 0) := ⟨_, rfl, rfl⟩
  exact ⟨t, ht, hpc,
    versions_agree rteVersions_noNul (fun _ => rfl) (by decide +kernel) ht (.inr hpc), by decide⟩

/-- A primary process is killed after its version was compared, and another one starts. -/
example : ∃ t, run (versionStep rteVersions) versionSystem
    [.initSys 0 true, .create 0 true, .print 0 true 12 false, .openFile 1 true, .measure 1 true,
      .compare 1 true, .kill 0, .initSys 2 true, .attach 1 true, .lock 1 true true] = some t ∧
    (t.procs 1).pc = .secondary (some 2) ∧ rteVersions 1 ≠ rteVersions 2 :=
  ⟨_, rfl, rfl, by decide⟩

end HardwareDrivers.Libfpga
