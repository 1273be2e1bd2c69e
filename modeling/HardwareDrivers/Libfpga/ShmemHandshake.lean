import HardwareDrivers.Libfpga.ShmemAccounting

/-!
# The start of a manager

After the fork, the child removes the file of an earlier attempt, initialises DPDK and writes
to a new file whether it succeeded; the parent waits until it can open the file, for a minute
at most, and scans the number. The file is all that passes between them.

The parent opens whatever is there: the file of an earlier attempt, or that of the child before
the number is in it. Where it does not read that the child succeeded, it returns an error and
leaves the child alone.

## What is proved

* `Follows.step` — the steps of the parent are those of `__fpga_shmem_parent_process`.
* `Agreed.step` — what holds of both processes where the parent reads what the child wrote.
* `handshake_sound` — then the parent returns what became of the child.
-/

namespace HardwareDrivers.Libfpga

open Theory

/-! ### Numbers in a file -/

/-- `isspace`. -/
def isspace (c : BitVec 8) : Bool := c = 0x20 || (0x09 ≤ c && c ≤ 0x0d)

/-- `isdigit`. -/
def isdigit (c : BitVec 8) : Bool := 0x30 ≤ c && c ≤ 0x39

/-- The number that some digits stand for. -/
def digitsValue (digits : List (BitVec 8)) : ℕ :=
  digits.foldl (fun n c => 10 * n + (c.toNat - 0x30)) 0

/-- A number as `long`, and then as `int`. -/
def longToInt (n : ℤ) : BitVec 32 := BitVec.ofInt 32 (max (-2 ^ 63) (min n (2 ^ 63 - 1)))

/-- What `fscanf(fp, "%d", ..)` finds. -/
inductive Scanned where
  /-- The end of the file: it returns `EOF`. -/
  | eof
  /-- No number: it returns `0`. -/
  | mismatch
  /-- A number, which it stores: it returns `1`. -/
  | number (n : BitVec 32)
  deriving DecidableEq

/-- `fscanf(fp, "%d", ..)`, and what is left of the file. A sign without digits is read, the
character that is no digit is not. -/
def fscanfInt (stream : List (BitVec 8)) : Scanned × List (BitVec 8) :=
  match stream.dropWhile isspace with
  | [] => (.eof, [])
  | c :: rest =>
    let digits := if c = 0x2b ∨ c = 0x2d then rest else c :: rest
    let sign : ℤ := if c = 0x2d then -1 else 1
    if (digits.takeWhile isdigit).isEmpty then (.mismatch, digits)
    else (.number (longToInt (sign * digitsValue (digits.takeWhile isdigit))),
      digits.dropWhile isdigit)

/-- `fprintf(fp, "%d", ..)` of a number that is not negative. -/
def fprintfNat (n : ℕ) : List (BitVec 8) := (Nat.toDigits 10 n).map fun c => BitVec.ofNat 8 c.toNat

/-- `while (!fscanf(..)) continue;` ends. -/
inductive ScanEnds : List (BitVec 8) → Prop where
  /-- A number is found, or the end of the file. -/
  | now {stream : List (BitVec 8)} (h : (fscanfInt stream).1 ≠ .mismatch) : ScanEnds stream
  /-- It goes on, and ends. -/
  | later {stream : List (BitVec 8)} (h : (fscanfInt stream).1 = .mismatch)
      (hrest : ScanEnds (fscanfInt stream).2) : ScanEnds stream

/-! ### The two processes -/

/-- `SHMEM_INITIALIZE_FAILED`. -/
abbrev shmemInitializeFailed : BitVec 32 := 2

/-- A file that `SHMEM_PARENT_CHILD_TSF` may name. -/
inductive Tsf where
  /-- That of an earlier attempt. -/
  | stale
  /-- That which the child makes. -/
  | made
  deriving DecidableEq

/-- Where the parent is, in `__fpga_shmem_parent_process`. -/
inductive ParentAt where
  /-- At the call of `__fpga_shmem_get_index`. -/
  | search
  /-- In the loop around `fopen`. -/
  | wait (index count : ℕ)
  /-- The file is open. -/
  | opened (index : ℕ) (file : Tsf)
  /-- In the loop around `fscanf`, with this left of the file. -/
  | scan (index : ℕ) (stream : List (BitVec 8))
  /-- At `fclose`. -/
  | close (index : ℕ)
  /-- At `unlink`. -/
  | remove (index : ℕ)
  /-- At `CHILD_INIT`. -/
  | judge (index : ℕ)
  /-- It returned. -/
  | returned (ret : Except ManagerErr Unit)

/-- Where the child is, in `__fpga_shmem_child_process`; `ok` says that `exit_val` is `0`. -/
inductive ChildAt where
  /-- At `unlink`. -/
  | remove
  /-- In `fpga_shmem_init_sys`. -/
  | initialise
  /-- At `fopen`. -/
  | create (ok : Bool)
  /-- At `fprintf`. -/
  | write (file : Tsf) (ok : Bool)
  /-- At `fclose`. -/
  | close (file : Tsf) (ok : Bool)
  /-- At `if (exit_val)`. -/
  | decide (ok : Bool)
  /-- In the loop of a manager. -/
  | serving
  /-- It ended. -/
  | ended
  deriving DecidableEq

/-- The two processes and the file system. -/
structure Handshake where
  /-- The library in the parent. -/
  lib : ShmemManager
  /-- The file that `SHMEM_PARENT_CHILD_TSF` names. -/
  path : Option Tsf
  /-- What is in the files. -/
  content : Tsf → List (BitVec 8)
  /-- The parent. -/
  parent : ParentAt
  /-- The child. -/
  child : ChildAt
  /-- What the child reported. -/
  report : Option (BitVec 32)

/-- The arguments of `__fpga_shmem_parent_process`, and what happens in its health checks. -/
structure ParentCall where
  /-- `pid`. -/
  pid : ℤ
  /-- `file_prefix`. -/
  filePrefix : CStr
  /-- `socket_limit`. -/
  socketLimit : Option (ℕ → BitVec 32)
  /-- The health checks. -/
  env : ManagerInitEnv

/-- A round of the loop around `fscanf`. -/
def Handshake.scanned (s : Handshake) (index : ℕ) (stream : List (BitVec 8)) : Handshake :=
  match fscanfInt stream with
  | (.eof, _) => { s with parent := .close index }
  | (.mismatch, rest) => { s with parent := .scan index rest }
  | (.number n, _) => { s with lib := setInitialized index n s.lib, parent := .close index }

/-- A step of the parent. -/
def parentStep (c : ParentCall) (s : Handshake) : Option Handshake :=
  match s.parent with
  | .search =>
    match getIndex c.env.index s.lib with
    | (none, lib) => some { s with lib, parent := .returned (.error (.code .fullElement)) }
    | (some index, lib) => some { s with lib, parent := .wait index 0 }
  | .wait index count =>
    if 1200 < count + 1 then some { s with parent := .judge index }
    else match s.path with
      | none => some { s with parent := .wait index (count + 1) }
      | some file => some { s with parent := .opened index file }
  | .opened index file => some (s.scanned index (s.content file))
  | .scan index stream => some (s.scanned index stream)
  | .close index => some { s with parent := .remove index }
  | .remove index => some { s with path := none, parent := .judge index }
  | .judge index =>
    if (s.lib.managerInfos index).isInitialized = shmemInitialized then
      some { s with
        lib := setManagerInfo c.env.set index c.filePrefix c.pid c.socketLimit s.lib
        parent := .returned (.ok ()) }
    else some { s with
      lib := setInitialized index 0 s.lib
      parent := .returned (.error (.code .failureInitialize)) }
  | .returned _ => none

/-- `fopen(filename, "w")`. -/
def Handshake.openWrite (s : Handshake) (ok : Bool) : Handshake :=
  let file := s.path.getD .made
  { s with
    path := some file
    content := Function.update s.content file []
    child := .write file ok }

/-- What the child writes to the file. -/
def childStatus (ok : Bool) : BitVec 32 := if ok then shmemInitialized else shmemInitializeFailed

/-- A step of the child; `ok` says whether `fpga_shmem_init_sys` and `fopen` succeed, and whether
the loop of a manager goes on. -/
def childStep (ok : Bool) (s : Handshake) : Option Handshake :=
  match s.child with
  | .remove => some { s with path := none, child := .initialise }
  | .initialise => some { s with child := .create ok }
  | .create initialised => if ok then some (s.openWrite initialised) else some { s with child := .ended }
  | .write file initialised => some { s with child := .close file initialised }
  | .close file initialised => some { s with
      content := Function.update s.content file (fprintfNat (childStatus initialised).toNat)
      child := .decide initialised
      report := some (childStatus initialised) }
  | .decide initialised => some { s with child := if initialised then .serving else .ended }
  | .serving => some { s with child := if ok then .serving else .ended }
  | .ended => none

/-- Who takes a step. -/
inductive HandshakeOp where
  /-- The parent. -/
  | parent
  /-- The child. -/
  | child (ok : Bool)
  /-- The child is killed. -/
  | kill
  deriving DecidableEq

/-- A step of the two. -/
def handshakeStep (c : ParentCall) (s : Handshake) : HandshakeOp → Option Handshake
  | .parent => parentStep c s
  | .child ok => childStep ok s
  | .kill => some { s with child := .ended }

/-- After the fork: at most the file of an earlier attempt is there. -/
structure Handshake.Start (s : Handshake) : Prop where
  /-- The parent begins. -/
  parent : s.parent = .search
  /-- The child begins. -/
  child : s.child = .remove
  /-- It reported nothing. -/
  report : s.report = none
  /-- Its file is not there. -/
  path : s.path ≠ some .made
  /-- Nothing is in it. -/
  content : s.content .made = []

/-- The parent returns what became of the child. -/
structure Handshake.Sound (c : ParentCall) (s : Handshake) : Prop where
  /-- Where it returns `0`, the child reported success and has an entry. -/
  success : s.parent = .returned (.ok ()) → s.report = some shmemInitialized ∧
    ∃ index < s.lib.limit, (s.lib.managerInfos index).pid = c.pid ∧
      (s.lib.managerInfos index).filePrefix = c.filePrefix.bytes
  /-- Where it returns an error, the child is no manager. -/
  failure : ∀ err, s.parent = .returned (.error err) → s.child ≠ .serving
  /-- The loop around `fscanf` ends. -/
  scan : ∀ index stream, s.parent = .scan index stream → ScanEnds stream

variable {c : ParentCall} {s t : Handshake}

/-! ### The parent by itself -/

/-- The entry that is written is that of the child. -/
theorem setManagerInfo_self (env : HealthEnv) (index : ℕ) (p : CStr) (pid : ℤ)
    (socketLimit : Option (ℕ → BitVec 32)) (lib : ShmemManager) :
    ((setManagerInfo env index p pid socketLimit lib).managerInfos index).pid = pid ∧
      ((setManagerInfo env index p pid socketLimit lib).managerInfos index).filePrefix = p.bytes := by
  have hcopy : (strcpyPrefix (checkHealth env lib).managerInfos index p index).filePrefix =
      p.bytes := by
    unfold strcpyPrefix
    dsimp only
    split
    · rw [Function.update_of_ne (Nat.lt_succ_self index).ne, Function.update_self]
    · rw [Function.update_self]
  unfold setManagerInfo
  dsimp only
  rw [Function.update_self]
  cases socketLimit with
  | none => exact ⟨rfl, hcopy⟩
  | some r =>
    obtain ⟨hpid, hpre, -⟩ := setSocketLimits_frame (checkHealth env lib).socketNum r
      { strcpyPrefix (checkHealth env lib).managerInfos index p index with pid := pid, hpLimit := 0 }
    exact ⟨hpid, hpre.trans hcopy⟩

/-- The mark of the entry after the file was read, or not. -/
def scannedInto (tsf : Option (BitVec 32)) (index : ℕ) (lib : ShmemManager) : ShmemManager :=
  match tsf with
  | none => lib
  | some value => setInitialized index value lib

theorem limit_scannedInto (tsf : Option (BitVec 32)) (index : ℕ) (lib : ShmemManager) :
    (scannedInto tsf index lib).limit = lib.limit := by
  cases tsf <;> rfl

theorem parentProcess_of_index {env : ManagerInitEnv} {index : ℕ} {lib u : ShmemManager}
    (h : getIndex env.index lib = (some index, u)) (pid : ℤ) (p : CStr)
    (socketLimit : Option (ℕ → BitVec 32)) :
    parentProcess env pid p socketLimit lib =
      if ((scannedInto env.tsf index u).managerInfos index).isInitialized = shmemInitialized then
        (.ok (), setManagerInfo env.set index p pid socketLimit (scannedInto env.tsf index u))
      else (.error (.code .failureInitialize),
        setInitialized index 0 (scannedInto env.tsf index u)) := by
  unfold parentProcess
  rw [h]
  rfl

/-- **Where the parent returns `0`, the child is entered.** -/
theorem parentProcess_entry {env : ManagerInitEnv} {pid : ℤ} {p : CStr}
    {socketLimit : Option (ℕ → BitVec 32)} {lib lib' : ShmemManager}
    (h : parentProcess env pid p socketLimit lib = (.ok (), lib')) :
    ∃ index < lib'.limit, (lib'.managerInfos index).pid = pid ∧
      (lib'.managerInfos index).filePrefix = p.bytes := by
  cases hindex : getIndex env.index lib with
  | mk found u =>
    cases found with
    | none =>
      unfold parentProcess at h
      rw [hindex] at h
      cases h
    | some index =>
      obtain ⟨hstate, hfound⟩ := getIndex_cases env.index lib
      rw [hindex] at hstate hfound
      obtain ⟨hlt, -⟩ := hfound index rfl
      have hlimit : u.limit = lib.limit := by
        rw [show u = checkHealth env.index lib from hstate, (checkHealth_reaps env.index lib).limit]
      rw [parentProcess_of_index hindex] at h
      by_cases hmark :
          ((scannedInto env.tsf index u).managerInfos index).isInitialized = shmemInitialized
      · rw [if_pos hmark] at h
        obtain rfl := congrArg Prod.snd h
        refine ⟨index, ?_, setManagerInfo_self ..⟩
        change index < (checkHealth env.set _).limit
        rw [(checkHealth_reaps env.set _).limit, limit_scannedInto, hlimit]
        exact hlt
      · rw [if_neg hmark] at h
        cases h

/-- The parent did what `parentProcess` does, with what it scanned. -/
def Follows (c : ParentCall) (lib : ShmemManager) (s : Handshake) : Prop :=
  match s.parent with
  | .search => s.lib = lib
  | .wait index _ => getIndex c.env.index lib = (some index, s.lib)
  | .opened index _ => getIndex c.env.index lib = (some index, s.lib)
  | .scan index _ => getIndex c.env.index lib = (some index, s.lib)
  | .close index => ∃ u tsf, getIndex c.env.index lib = (some index, u) ∧
      s.lib = scannedInto tsf index u
  | .remove index => ∃ u tsf, getIndex c.env.index lib = (some index, u) ∧
      s.lib = scannedInto tsf index u
  | .judge index => ∃ u tsf, getIndex c.env.index lib = (some index, u) ∧
      s.lib = scannedInto tsf index u
  | .returned ret => ∃ tsf, parentProcess { c.env with tsf } c.pid c.filePrefix c.socketLimit lib =
      (ret, s.lib)

theorem Handshake.scanned_follows {lib : ShmemManager} {index : ℕ}
    (h : getIndex c.env.index lib = (some index, s.lib)) (stream : List (BitVec 8)) :
    Follows c lib (s.scanned index stream) := by
  unfold Handshake.scanned
  split
  · exact ⟨s.lib, none, h, rfl⟩
  · exact h
  next n _ _ => exact ⟨s.lib, some n, h, rfl⟩

theorem childStep_frame {ok : Bool} (ht : childStep ok s = some t) :
    t.lib = s.lib ∧ t.parent = s.parent := by
  unfold childStep at ht
  cases hc : s.child with
  | create initialised =>
    rw [hc] at ht
    dsimp only at ht
    split at ht <;> cases ht <;> exact ⟨rfl, rfl⟩
  | ended =>
    rw [hc] at ht
    cases ht
  | _ =>
    rw [hc] at ht
    cases ht
    exact ⟨rfl, rfl⟩

theorem follows_parentStep {lib : ShmemManager} (h : Follows c lib s)
    (ht : parentStep c s = some t) : Follows c lib t := by
  unfold Follows at h
  unfold parentStep at ht
  cases hp : s.parent with
  | search =>
    rw [hp] at h ht
    dsimp only at h ht
    subst h
    split at ht
    next u hindex =>
      cases ht
      refine ⟨none, ?_⟩
      unfold parentProcess
      dsimp only
      rw [hindex]
    next index u hindex =>
      cases ht
      exact hindex
  | wait index count =>
    rw [hp] at h ht
    dsimp only at h ht
    split at ht
    · cases ht
      exact ⟨s.lib, none, h, rfl⟩
    · split at ht
      · cases ht
        exact h
      · cases ht
        exact h
  | opened index file =>
    rw [hp] at h ht
    cases ht
    exact Handshake.scanned_follows h _
  | scan index stream =>
    rw [hp] at h ht
    cases ht
    exact Handshake.scanned_follows h _
  | close index =>
    rw [hp] at h ht
    cases ht
    exact h
  | remove index =>
    rw [hp] at h ht
    cases ht
    exact h
  | judge index =>
    rw [hp] at h ht
    obtain ⟨u, tsf, hindex, hlib⟩ := h
    have hindex' : getIndex (ManagerInitEnv.index { c.env with tsf }) lib = (some index, u) := hindex
    have hresult := parentProcess_of_index hindex' c.pid c.filePrefix c.socketLimit
    dsimp only at ht hresult
    rw [← hlib] at hresult
    split at ht
    next hmark =>
      cases ht
      exact ⟨tsf, hresult.trans (if_pos hmark)⟩
    next hmark =>
      cases ht
      exact ⟨tsf, hresult.trans (if_neg hmark)⟩
  | returned ret =>
    rw [hp] at ht
    cases ht

/-- **The steps of the parent are those of `__fpga_shmem_parent_process`.** -/
theorem Follows.step {lib : ShmemManager} (h : Follows c lib s) {op : HandshakeOp}
    (ht : handshakeStep c s op = some t) : Follows c lib t := by
  cases op with
  | parent => exact follows_parentStep h ht
  | child ok =>
    obtain ⟨hlib, hparent⟩ := childStep_frame ht
    unfold Follows at h ⊢
    rw [hparent, hlib]
    exact h
  | kill =>
    cases ht
    exact h

/-! ### Both processes -/

/-- A child that comes to no manager. -/
def ChildAt.Doomed : ChildAt → Bool
  | .create ok => !ok
  | .write _ ok => !ok
  | .close _ ok => !ok
  | .decide ok => !ok
  | .ended => true
  | _ => false

/-- The child comes to no manager, and the entry is not marked already. -/
def Handshake.Hopeless (s : Handshake) (index : ℕ) : Prop :=
  s.child.Doomed ∧ (s.lib.managerInfos index).isInitialized ≠ shmemInitialized

/-- The parent finds an entry, opens no file of an earlier attempt, and waits until the child
reported or comes to no manager. -/
def Timely (c : ParentCall) (s : Handshake) : HandshakeOp → Prop
  | .parent =>
    match s.parent with
    | .search => (getIndex c.env.index s.lib).1 ≠ none
    | .wait index count => if 1200 < count + 1 then s.Hopeless index else s.path ≠ some .stale
    | .opened index _ => s.report = none → s.Hopeless index
    | _ => True
  | _ => True

/-- What the child did to the file, and reported. -/
def ChildAgreed (path : Option Tsf) (report : Option (BitVec 32)) : ChildAt → Prop
  | .remove => path ≠ some .made ∧ report = none
  | .initialise => path = none ∧ report = none
  | .create _ => path = none ∧ report = none
  | .write file _ => file = .made ∧ report = none
  | .close file _ => file = .made ∧ report = none
  | .decide ok => report = some (childStatus ok)
  | .serving => report = some shmemInitialized
  | .ended => report = none ∨ ∃ ok, report = some (childStatus ok)

/-- The mark of the entry says what became of the child. -/
def Handshake.Knows (s : Handshake) (index : ℕ) : Prop :=
  if (s.lib.managerInfos index).isInitialized = shmemInitialized then
    s.report = some shmemInitialized
  else s.child.Doomed

/-- What the parent knows of the child. -/
def ParentAgreed (s : Handshake) : Prop :=
  match s.parent with
  | .search => True
  | .wait _ _ => True
  | .opened _ file => file = .made
  | .scan _ _ => False
  | .close index => s.Knows index
  | .remove index => s.Knows index
  | .judge index => s.Knows index
  | .returned (.ok ()) => s.report = some shmemInitialized
  | .returned (.error _) => s.child.Doomed

/-- What holds of both processes. -/
structure Agreed (s : Handshake) : Prop where
  /-- The file of the child has what it reported, or nothing. -/
  content : s.content .made = s.report.elim [] fun status => fprintfNat status.toNat
  /-- The child did what comes before. -/
  child : ChildAgreed s.path s.report s.child
  /-- The parent knows what became of the child. -/
  parent : ParentAgreed s

theorem ChildAgreed.of_report {path : Option Tsf} {report : Option (BitVec 32)} {child : ChildAt}
    (h : ChildAgreed path report child) {status : BitVec 32} (hreport : report = some status) :
    ∃ ok, status = childStatus ok ∧ (ok = false → child.Doomed) := by
  subst hreport
  cases child with
  | remove => cases h.2
  | initialise => cases h.2
  | create _ => cases h.2
  | write _ _ => cases h.2
  | close _ _ => cases h.2
  | decide ok =>
    obtain rfl := Option.some.inj h
    refine ⟨ok, rfl, ?_⟩
    rintro rfl
    rfl
  | serving =>
    obtain rfl := Option.some.inj h
    exact ⟨true, rfl, nofun⟩
  | ended =>
    obtain h | ⟨ok, h⟩ := h
    · cases h
    · exact ⟨ok, Option.some.inj h, fun _ => rfl⟩

/-- Where the parent removes the file, the child goes on as before. -/
theorem ChildAgreed.removed {path : Option Tsf} {report : Option (BitVec 32)} {child : ChildAt}
    (h : ChildAgreed path report child) : ChildAgreed none report child := by
  cases child with
  | remove => exact ⟨nofun, h.2⟩
  | initialise => exact ⟨rfl, h.2⟩
  | create _ => exact ⟨rfl, h.2⟩
  | _ => exact h

/-- What the parent knows stays true while the child goes on. -/
theorem Handshake.Knows.of_later {index : ℕ} (h : s.Knows index) (hlib : t.lib = s.lib)
    (hreport : s.report = some shmemInitialized → t.report = some shmemInitialized)
    (hdoomed : s.child.Doomed → t.child.Doomed) : t.Knows index := by
  unfold Handshake.Knows at h ⊢
  rw [hlib]
  split at h
  next hmark =>
    rw [if_pos hmark]
    exact hreport h
  next hmark =>
    rw [if_neg hmark]
    exact hdoomed h

theorem ParentAgreed.of_later (h : ParentAgreed s) (hlib : t.lib = s.lib)
    (hparent : t.parent = s.parent)
    (hreport : s.report = some shmemInitialized → t.report = some shmemInitialized)
    (hdoomed : s.child.Doomed → t.child.Doomed) : ParentAgreed t := by
  unfold ParentAgreed at h ⊢
  rw [hparent]
  cases hp : s.parent with
  | search => trivial
  | wait _ _ => trivial
  | opened _ _ =>
    rw [hp] at h
    exact h
  | scan _ _ =>
    rw [hp] at h
    exact h
  | close index =>
    rw [hp] at h
    exact Handshake.Knows.of_later h hlib hreport hdoomed
  | remove index =>
    rw [hp] at h
    exact Handshake.Knows.of_later h hlib hreport hdoomed
  | judge index =>
    rw [hp] at h
    exact Handshake.Knows.of_later h hlib hreport hdoomed
  | returned ret =>
    rw [hp] at h
    cases ret with
    | ok _ => exact hreport h
    | error _ => exact hdoomed h

/-- What a step of the child does to the file and what it reported. -/
theorem childStep_agrees {ok : Bool} (h : Agreed s) (ht : childStep ok s = some t) :
    t.content .made = (t.report.elim [] fun status => fprintfNat status.toNat) ∧
      ChildAgreed t.path t.report t.child ∧
      (s.report = some shmemInitialized → t.report = some shmemInitialized) ∧
      (s.child.Doomed → t.child.Doomed) := by
  obtain ⟨hcontent, hchild, -⟩ := h
  unfold childStep at ht
  cases hc : s.child with
  | remove =>
    rw [hc] at ht hchild
    cases ht
    exact ⟨hcontent, ⟨rfl, hchild.2⟩, id, nofun⟩
  | initialise =>
    rw [hc] at ht hchild
    cases ht
    exact ⟨hcontent, hchild, id, nofun⟩
  | create initialised =>
    rw [hc] at ht hchild
    obtain ⟨hpath, hreport⟩ := hchild
    dsimp only at ht
    split at ht
    · cases ht
      refine ⟨?_, ⟨?_, hreport⟩, id, id⟩
      · change Function.update s.content (s.path.getD .made) [] .made = s.report.elim _ _
        rw [hpath, hreport]
        exact Function.update_self ..
      · rw [hpath]
        rfl
    · cases ht
      exact ⟨hcontent, .inl hreport, id, fun _ => rfl⟩
  | write file initialised =>
    rw [hc] at ht hchild
    cases ht
    exact ⟨hcontent, hchild, id, id⟩
  | close file initialised =>
    rw [hc] at ht hchild
    obtain ⟨rfl, hreport⟩ := hchild
    cases ht
    refine ⟨?_, rfl, fun hsome => ?_, id⟩
    · exact Function.update_self Tsf.made (fprintfNat (childStatus initialised).toNat) s.content
    · cases hreport.symm.trans hsome
  | decide initialised =>
    rw [hc] at ht hchild
    cases ht
    cases initialised with
    | true => exact ⟨hcontent, hchild, id, nofun⟩
    | false => exact ⟨hcontent, .inr ⟨false, hchild⟩, id, fun _ => rfl⟩
  | serving =>
    rw [hc] at ht hchild
    cases ht
    cases ok with
    | true => exact ⟨hcontent, hchild, id, nofun⟩
    | false => exact ⟨hcontent, .inr ⟨true, hchild⟩, id, fun _ => rfl⟩
  | ended =>
    rw [hc] at ht
    cases ht

theorem Agreed.childStep (h : Agreed s) {ok : Bool} (ht : childStep ok s = some t) : Agreed t := by
  obtain ⟨hcontent, hchild, hreport, hdoomed⟩ := childStep_agrees h ht
  obtain ⟨hlib, hparent⟩ := childStep_frame ht
  exact ⟨hcontent, hchild, h.parent.of_later hlib hparent hreport hdoomed⟩

/-- A child may be killed wherever it is. -/
theorem Agreed.kill (h : Agreed s) : Agreed { s with child := .ended } := by
  refine ⟨h.content, ?_, h.parent.of_later rfl rfl id fun _ => rfl⟩
  obtain hreport | ⟨status, hreport⟩ := Option.eq_none_or_eq_some s.report
  · exact .inl hreport
  · obtain ⟨ok, rfl, -⟩ := h.child.of_report hreport
    exact .inr ⟨ok, hreport⟩

theorem fscanfInt_childStatus (ok : Bool) :
    fscanfInt (fprintfNat (childStatus ok).toNat) = (.number (childStatus ok), []) := by
  revert ok
  decide

theorem isInitialized_setInitialized (index : ℕ) (value : BitVec 32) (lib : ShmemManager) :
    ((setInitialized index value lib).managerInfos index).isInitialized = value := by
  unfold setInitialized
  rw [setInfo_self]

/-- **The parent reads what the child reported, or the end of the file where the child comes to
no manager.** -/
theorem Agreed.scanned (h : Agreed s) {index : ℕ} (hq : s.report = none → s.Hopeless index) :
    Agreed (s.scanned index (s.content .made)) := by
  obtain hreport | ⟨status, hreport⟩ := Option.eq_none_or_eq_some s.report
  · obtain ⟨hdoomed, hmark⟩ := hq hreport
    have hscan : fscanfInt (s.content .made) = (.eof, []) := by
      rw [h.content, hreport]
      rfl
    unfold Handshake.scanned
    rw [hscan]
    exact ⟨h.content, h.child, (if_neg hmark).mpr hdoomed⟩
  · obtain ⟨ok, rfl, hchild⟩ := h.child.of_report hreport
    have hscan : fscanfInt (s.content .made) = (.number (childStatus ok), []) := by
      rw [h.content, hreport]
      exact fscanfInt_childStatus ok
    unfold Handshake.scanned
    rw [hscan]
    refine ⟨h.content, h.child, ?_⟩
    change Handshake.Knows _ index
    unfold Handshake.Knows
    dsimp only
    rw [isInitialized_setInitialized]
    cases ok with
    | true => exact hreport
    | false => exact hchild rfl

theorem Agreed.parentStep (h : Agreed s) (hq : Timely c s .parent) (ht : parentStep c s = some t) :
    Agreed t := by
  have hparent := h.parent
  unfold ParentAgreed at hparent
  unfold Timely at hq
  unfold Libfpga.parentStep at ht
  cases hp : s.parent with
  | search =>
    rw [hp] at ht hq
    dsimp only at ht hq
    split at ht
    next u hindex => exact absurd (congrArg Prod.fst hindex) hq
    next index u hindex =>
      cases ht
      exact ⟨h.content, h.child, trivial⟩
  | wait index count =>
    rw [hp] at ht hq
    dsimp only at ht hq
    split at ht
    next hcount =>
      rw [if_pos hcount] at hq
      cases ht
      exact ⟨h.content, h.child, (if_neg hq.2).mpr hq.1⟩
    next hcount =>
      rw [if_neg hcount] at hq
      split at ht
      next hpath =>
        cases ht
        exact ⟨h.content, h.child, trivial⟩
      next file hpath =>
        cases ht
        refine ⟨h.content, h.child, ?_⟩
        change file = .made
        cases file with
        | stale => exact absurd hpath hq
        | made => rfl
  | opened index file =>
    rw [hp] at ht hq hparent
    obtain rfl : file = .made := hparent
    cases ht
    exact h.scanned hq
  | scan index stream =>
    rw [hp] at hparent
    exact hparent.elim
  | close index =>
    rw [hp] at ht hparent
    cases ht
    exact ⟨h.content, h.child, hparent⟩
  | remove index =>
    rw [hp] at ht hparent
    cases ht
    exact ⟨h.content, h.child.removed, hparent⟩
  | judge index =>
    rw [hp] at ht hparent
    dsimp only at ht hparent
    unfold Handshake.Knows at hparent
    split at ht
    next hmark =>
      rw [if_pos hmark] at hparent
      cases ht
      exact ⟨h.content, h.child, hparent⟩
    next hmark =>
      rw [if_neg hmark] at hparent
      cases ht
      exact ⟨h.content, h.child, hparent⟩
  | returned ret =>
    rw [hp] at ht
    cases ht

/-- **Where the parent finds an entry and reads what the child wrote, it knows what became of the
child.** -/
theorem Agreed.step (h : Agreed s) {op : HandshakeOp} (hq : Timely c s op)
    (ht : handshakeStep c s op = some t) : Agreed t := by
  cases op with
  | parent => exact h.parentStep hq ht
  | child ok => exact h.childStep ht
  | kill =>
    cases ht
    exact h.kill

theorem Agreed.sound (h : Agreed s) {lib : ShmemManager} (hf : Follows c lib s) : s.Sound c := by
  obtain ⟨-, -, hparent⟩ := h
  unfold ParentAgreed at hparent
  unfold Follows at hf
  refine ⟨fun hp => ?_, fun err hp => ?_, fun index stream hp => ?_⟩
  · rw [hp] at hparent hf
    obtain ⟨tsf, hf⟩ := hf
    exact ⟨hparent, parentProcess_entry hf⟩
  · rw [hp] at hparent
    intro hserving
    rw [hserving] at hparent
    cases hparent
  · rw [hp] at hparent
    exact hparent.elim

theorem Handshake.Start.agreed (h : s.Start) : Agreed s := by
  refine ⟨?_, ?_, ?_⟩
  · rw [h.content, h.report]
    rfl
  · rw [h.child]
    exact ⟨h.path, h.report⟩
  · unfold ParentAgreed
    rw [h.parent]
    trivial

theorem Handshake.Start.follows (h : s.Start) (c : ParentCall) : Follows c s.lib s := by
  unfold Follows
  rw [h.parent]

/-- **In a run in which the parent finds an entry, opens no file of an earlier attempt and waits
for the child, it returns what became of the child.** -/
theorem handshake_sound (c : ParentCall) (s : Handshake) (hstart : s.Start)
    (ops : List HandshakeOp) (hops : Along (handshakeStep c) (Timely c) s ops) :
    Always (handshakeStep c) (Handshake.Sound c) s ops := by
  have hboth : Always (handshakeStep c) (fun t => Agreed t ∧ Follows c s.lib t) s ops :=
    always_of_along (fun _ _ _ h hq ht => ⟨h.1.step hq ht, h.2.step ht⟩)
      ⟨hstart.agreed, hstart.follows c⟩ hops
  exact hboth.mono fun t h => h.1.sound h.2

/-! ### The file before the number is in it -/

/-- After a fork with the pid 5; an earlier attempt left the number `1` in its file. -/
def forkedA : Handshake :=
  ⟨{ eightEach with children := Function.update eightEach.children 5 .alive }, some .stale,
    fun file => if file = .stale then fprintfNat 1 else [], .search, .remove, none⟩

/-- A manager with the prefix `a`, and two pages. -/
def callA : ParentCall := ⟨5, prefixA, some (pagesOf 2 0), childMade 5⟩

theorem forkedA_start : forkedA.Start := ⟨rfl, rfl, rfl, by decide, rfl⟩

/-- The child comes first, and the parent waits for what it writes. -/
theorem handshake_sound_started :
    Always (handshakeStep callA) (Handshake.Sound callA) forkedA
      [.child true, .child true, .parent, .parent, .child true, .child true, .child true, .parent,
        .parent, .parent, .parent, .child true, .parent] :=
  handshake_sound callA forkedA forkedA_start _ (by
    rintro _ ⟨⟩
    refine ⟨trivial, ?_⟩
    rintro _ ⟨⟩
    refine ⟨trivial, ?_⟩
    rintro _ ⟨⟩
    refine ⟨nofun, ?_⟩
    rintro _ ⟨⟩
    refine ⟨nofun, ?_⟩
    rintro _ ⟨⟩
    refine ⟨trivial, ?_⟩
    rintro _ ⟨⟩
    refine ⟨trivial, ?_⟩
    rintro _ ⟨⟩
    refine ⟨trivial, ?_⟩
    rintro _ ⟨⟩
    refine ⟨nofun, ?_⟩
    rintro _ ⟨⟩
    refine ⟨nofun, ?_⟩
    rintro _ ⟨⟩
    refine ⟨trivial, ?_⟩
    rintro _ ⟨⟩
    refine ⟨trivial, ?_⟩
    rintro _ ⟨⟩
    refine ⟨trivial, ?_⟩
    rintro _ ⟨⟩
    exact ⟨trivial, trivial⟩)

/-- The parent opens the file of the child before the number is in it, and returns an error; the
child becomes a manager. -/
theorem not_sound_empty :
    ¬ Always (handshakeStep callA) (Handshake.Sound callA) forkedA
      [.child true, .child true, .child true, .parent, .parent, .parent, .parent, .parent, .parent,
        .child true, .child true, .child true] :=
  fun h => (h.last rfl).failure _ rfl rfl

end HardwareDrivers.Libfpga
