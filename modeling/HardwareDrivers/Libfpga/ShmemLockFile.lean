import HardwareDrivers.Theory.FileLocks
import HardwareDrivers.Libfpga.ShmemPrefix

/-!
# The lock file of a manager

A process that uses the memory of a manager holds the lock of a file, together with others. When it
finishes it writes to the file and then gives up the lock; when it is killed the lock is gone and
nothing was written. The manager tries again and again to have the lock alone. When it gets it, it
looks whether something is in the file: then a user finished, and the manager ends. If nothing is,
it reports its prefix to the thread of the controller, and ends if nobody confirms that.

## What is proved

* `lockUserStep_cases`, `lockManagerStep_cases` — what a step can be.
* `LockInv.step` — who has what open, and who has the lock, in every state.
-/

namespace HardwareDrivers.Libfpga

open Theory

variable {ι : Type*} [DecidableEq ι]

/-! ### The processes -/

/-- Where a user is, in `fpga_shmem_init` and `fpga_shmem_finish`. -/
inductive LockUserAt where
  /-- Not in one of them, and not between them. -/
  | outside
  /-- In `__fpga_shmem_create_lock_file`, at `flock`. -/
  | opened
  /-- Between them: it uses the memory. -/
  | inside
  /-- In `fpga_shmem_finish`, at `write`. -/
  | finishing
  /-- In `__fpga_shmem_unlock_lock_file`. -/
  | unlocking
  /-- The process ended. -/
  | ended
  deriving DecidableEq, Repr

/-- A process that calls `fpga_shmem_init`. -/
structure LockUser where
  /-- Where it is. -/
  pc : LockUserAt
  /-- `shmem_lock_file_fd`, if it is not negative. It is not reset. -/
  shmemLockFileFd : Option ℕ
  deriving DecidableEq

/-- What the callback detects. -/
inductive UserFinish where
  /-- `User pod NORMAL finish detect`. -/
  | normal
  /-- `User pod ERROR finish detect`. -/
  | error
  deriving DecidableEq, Repr

/-- Where a manager is: in the loop of `__fpga_shmem_child_process`, or in
`callback_function_notification_prefix`. -/
inductive LockManagerAt where
  /-- At the call of the callback. -/
  | calling
  /-- At `flock`. -/
  | opened (fd : ℕ)
  /-- At `read`. -/
  | locked (fd : ℕ)
  /-- At `close`. -/
  | closing (fd : ℕ) (how : UserFinish)
  /-- After it. -/
  | detected (how : UserFinish)
  /-- At `fpga_shmem_send`. -/
  | connected
  /-- At `fpga_shmem_recv`. -/
  | waiting
  /-- The callback returned `0`. -/
  | sleeping
  /-- At `fpga_shmem_finish`, with what the callback returned. -/
  | leaving (ret : ℤ)
  /-- It ended. -/
  | ended
  deriving DecidableEq

/-- A manager, its users and the thread of the controller. -/
structure LockSystem (ι : Type*) where
  /-- The files that `SHMEM_FMT_FLOCK_FILE` named. -/
  disk : LockedFile (Option ι)
  /-- The users. -/
  users : ι → LockUser
  /-- Where the manager is. -/
  manager : LockManagerAt
  /-- `notice_once`. -/
  noticeOnce : Bool
  /-- `signal_flg`. -/
  signalFlg : Bool
  /-- The prefix on its way to the thread. -/
  channel : Option (List (BitVec 8))
  /-- The response on its way back: `RES_OK`. -/
  response : Option Bool
  /-- The calls of `fpga_shmem_set_error_prefix` of the thread. -/
  reports : List (List (BitVec 8))

/-! ### The steps -/

/-- What a user does. -/
inductive LockUserOp where
  /-- `open` in `fpga_shmem_init`, and whether it succeeds. -/
  | openFile (ok : Bool)
  /-- `flock` there, which waits for the lock, and whether it succeeds. -/
  | lockFile (ok : Bool)
  /-- It calls `fpga_shmem_finish`. -/
  | finish
  /-- `write` there, of so many bytes. -/
  | write (count : ℕ)
  /-- `flock` with `LOCK_UN`. -/
  | unlock
  /-- It is killed, or ends. -/
  | kill
  deriving DecidableEq

/-- `buf` of `fpga_shmem_finish`. -/
def finishMark : List (BitVec 8) := [1, 0, 0, 0]

/-- A user is somewhere else. -/
def LockSystem.setUser (i : ι) (u : LockUser) (s : LockSystem ι) : LockSystem ι :=
  { s with users := Function.update s.users i u }

/-- A step of a user. -/
def lockUserStep (i : ι) (op : LockUserOp) (s : LockSystem ι) : Option (LockSystem ι) :=
  match op, (s.users i).pc, (s.users i).shmemLockFileFd with
  | .openFile true, .outside, _ =>
    some { s.setUser i ⟨.opened, some s.disk.opens⟩ with disk := s.disk.openCreate (some i) }
  -- `fpga_shmem_finish` is called without a descriptor
  | .openFile false, .outside, _ => some (s.setUser i ⟨.outside, none⟩)
  | .lockFile true, .opened, some fd =>
    (s.disk.lock fd .shared).map fun disk => { s.setUser i ⟨.inside, some fd⟩ with disk }
  | .lockFile false, .opened, some fd => some (s.setUser i ⟨.finishing, some fd⟩)
  | .finish, .outside, some fd => some (s.setUser i ⟨.finishing, some fd⟩)
  | .finish, .inside, some fd => some (s.setUser i ⟨.finishing, some fd⟩)
  | .write count, .finishing, some fd =>
    some { s.setUser i ⟨.unlocking, some fd⟩ with disk := s.disk.write fd (finishMark.take count) }
  | .unlock, .unlocking, some fd =>
    some { s.setUser i ⟨.outside, some fd⟩ with disk := s.disk.unlock fd }
  | .kill, pc, fd =>
    if pc = .ended then none
    else some { s.setUser i ⟨.ended, fd⟩ with disk := s.disk.closeAll (some i) }
  | _, _, _ => none

/-- What is detected of a file of which so many bytes could be read, if it could be read. -/
def detectFinish (readable : Option ℕ) : UserFinish := if readable = some 0 then .error else .normal

/-- A step of the manager of a command; `ok` says whether a call in it succeeds. -/
def lockManagerStep (command : CStr) (ok : Bool) (s : LockSystem ι) : Option (LockSystem ι) :=
  match s.manager with
  | .calling =>
    if s.noticeOnce then some { s with manager := .sleeping }
    else match s.disk.openExisting none with
      | none => some { s with manager := .sleeping }
      | some disk => some { s with disk, manager := .opened s.disk.opens }
  | .opened fd =>
    match s.disk.lock fd .exclusive with
    | none => some { s with disk := s.disk.close fd, manager := .sleeping }
    | some disk => some { s with disk, manager := .locked fd }
  | .locked fd =>
    some { s with
      manager := .closing fd (detectFinish (if ok then some (s.disk.readable fd 4) else none)) }
  | .closing fd how =>
    some { s with disk := s.disk.close fd, noticeOnce := true, manager := .detected how }
  | .detected .normal => some { s with manager := .leaving 1 }
  | .detected .error => some { s with manager := if ok then .connected else .leaving (-1) }
  | .connected =>
    some { s with
      channel := if ok then some (callbackPrefix command) else none
      manager := .waiting }
  | .waiting =>
    if ok then
      match s.response with
      | none => none
      | some true => some { s with response := none, manager := .sleeping }
      | some false => some { s with response := none, manager := .leaving (-1) }
    else some { s with manager := .leaving (-1) }
  | .sleeping => some { s with manager := if s.signalFlg then .leaving 0 else .calling }
  -- the directory is removed, and the file in it
  | .leaving _ => some { s with disk := s.disk.unlink, manager := .ended }
  | .ended => none

/-- A step of `__fpga_shmem_fallingout_notification_thread` that receives something. -/
def noticeStep (ok : Bool) (s : LockSystem ι) : Option (LockSystem ι) :=
  match s.channel with
  | none => none
  | some filePrefix =>
    if ok then
      some { s with channel := none, response := some true, reports := s.reports ++ [filePrefix] }
    else some { s with channel := none, response := some false }

/-- A step of the system. -/
inductive LockOp (ι : Type*) where
  /-- Of a user. -/
  | user (i : ι) (op : LockUserOp)
  /-- Of the manager. -/
  | manager (ok : Bool)
  /-- Of the thread. -/
  | notice (ok : Bool)
  /-- `SIGUSR1` comes to the manager. -/
  | signal
  /-- The controller removes the file. -/
  | unlink
  /-- The manager is killed. -/
  | killManager
  deriving DecidableEq

/-- What it does. -/
def lockStep (command : CStr) (s : LockSystem ι) : LockOp ι → Option (LockSystem ι)
  | .user i op => lockUserStep i op s
  | .manager ok => lockManagerStep command ok s
  | .notice ok => noticeStep ok s
  | .signal => some { s with signalFlg := true }
  | .unlink => some { s with disk := s.disk.unlink }
  | .killManager => some { s with disk := s.disk.closeAll none, manager := .ended }

/-- A manager begins, and nobody has opened a file. -/
structure LockSystem.Start (s : LockSystem ι) : Prop where
  /-- There may be the file of an earlier manager. -/
  disk : s.disk.Sound
  /-- Nobody has it open. -/
  opened : ∀ d, s.disk.opened d = none
  /-- The users begin. -/
  users : ∀ i, s.users i = ⟨.outside, none⟩
  /-- The manager begins. -/
  manager : s.manager = .calling
  /-- It noticed nothing. -/
  noticeOnce : s.noticeOnce = false
  /-- Nothing is on its way. -/
  channel : s.channel = none
  /-- Nor back. -/
  response : s.response = none
  /-- Nothing was reported. -/
  reports : s.reports = []

/-- Something is in the file. -/
def LockSystem.Marked (s : LockSystem ι) : Prop :=
  ∃ file, s.disk.entry = some file ∧ s.disk.content file ≠ []

variable {command : CStr} {s t : LockSystem ι} {i : ι} {op : LockUserOp} {ok : Bool}

/-! ### What a step can be -/

omit [DecidableEq ι] in
/-- The user moves, with the files as they are. -/
def LockUserMoves (i : ι) (op : LockUserOp) (s : LockSystem ι) (u : LockUser) : Prop :=
  (u = ⟨.outside, none⟩ ∧ op = .openFile false ∧ (s.users i).pc = .outside) ∨
    ∃ fd, u = ⟨.finishing, some fd⟩ ∧ (s.users i).shmemLockFileFd = some fd ∧
      (s.users i).pc ≠ .ended ∧ (op = .lockFile false ∨ op = .finish)

theorem lockUserStep_cases (h : lockUserStep i op s = some t) :
    (op = .openFile true ∧ (s.users i).pc = .outside ∧
      t = { s.setUser i ⟨.opened, some s.disk.opens⟩ with disk := s.disk.openCreate (some i) }) ∨
    (∃ fd disk, op = .lockFile true ∧ s.users i = ⟨.opened, some fd⟩ ∧
      s.disk.lock fd .shared = some disk ∧ t = { s.setUser i ⟨.inside, some fd⟩ with disk }) ∨
    (∃ u, LockUserMoves i op s u ∧ t = s.setUser i u) ∨
    (∃ fd count, op = .write count ∧ s.users i = ⟨.finishing, some fd⟩ ∧
      t = { s.setUser i ⟨.unlocking, some fd⟩ with
        disk := s.disk.write fd (finishMark.take count) }) ∨
    (∃ fd, op = .unlock ∧ s.users i = ⟨.unlocking, some fd⟩ ∧
      t = { s.setUser i ⟨.outside, some fd⟩ with disk := s.disk.unlock fd }) ∨
    (op = .kill ∧ (s.users i).pc ≠ .ended ∧
      t = { s.setUser i ⟨.ended, (s.users i).shmemLockFileFd⟩ with
        disk := s.disk.closeAll (some i) }) := by
  unfold lockUserStep at h
  generalize hu : s.users i = u at h ⊢
  obtain ⟨pc, fd⟩ := u
  cases op with
  | openFile opened =>
    cases opened with
    | true =>
      cases pc with
      | outside => exact .inl ⟨rfl, rfl, (Option.some.inj h).symm⟩
      | opened | inside | finishing | unlocking | ended => cases h
    | false =>
      cases pc with
      | outside =>
        exact .inr (.inr (.inl ⟨_, .inl ⟨rfl, rfl, by rw [hu]⟩, (Option.some.inj h).symm⟩))
      | opened | inside | finishing | unlocking | ended => cases h
  | lockFile locked =>
    cases fd with
    | none => cases locked <;> cases pc <;> cases h
    | some fd =>
      cases locked with
      | true =>
        cases pc with
        | opened =>
          obtain ⟨disk, hlock, rfl⟩ := Option.map_eq_some_iff.mp h
          exact .inr (.inl ⟨fd, disk, rfl, rfl, hlock, rfl⟩)
        | outside | inside | finishing | unlocking | ended => cases h
      | false =>
        cases pc with
        | opened =>
          refine .inr (.inr (.inl ⟨_, .inr ⟨fd, rfl, ?_, ?_, .inl rfl⟩, (Option.some.inj h).symm⟩))
          · rw [hu]
          · simp [hu]
        | outside | inside | finishing | unlocking | ended => cases h
  | finish =>
    cases fd with
    | none => cases pc <;> cases h
    | some fd =>
      cases pc with
      | outside | inside =>
        refine .inr (.inr (.inl ⟨_, .inr ⟨fd, rfl, ?_, ?_, .inr rfl⟩, (Option.some.inj h).symm⟩))
        · rw [hu]
        · simp [hu]
      | opened | finishing | unlocking | ended => cases h
  | write count =>
    cases fd with
    | none => cases pc <;> cases h
    | some fd =>
      cases pc with
      | finishing => exact .inr (.inr (.inr (.inl ⟨fd, count, rfl, rfl, (Option.some.inj h).symm⟩)))
      | outside | opened | inside | unlocking | ended => cases h
  | unlock =>
    cases fd with
    | none => cases pc <;> cases h
    | some fd =>
      cases pc with
      | unlocking =>
        exact .inr (.inr (.inr (.inr (.inl ⟨fd, rfl, rfl, (Option.some.inj h).symm⟩))))
      | outside | opened | inside | finishing | ended => cases h
  | kill =>
    dsimp only at h
    split_ifs at h with hpc
    exact .inr (.inr (.inr (.inr (.inr ⟨rfl, hpc, (Option.some.inj h).symm⟩))))

/-- The description that a manager has. -/
def LockManagerAt.fd : LockManagerAt → Option ℕ
  | .opened fd | .locked fd | .closing fd _ => some fd
  | _ => none

/-- It has the lock. -/
def LockManagerAt.hasLock : LockManagerAt → Bool
  | .locked _ | .closing _ _ => true
  | _ => false

omit [DecidableEq ι] in
theorem lockManagerStep_cases (h : lockManagerStep command ok s = some t) :
    t.users = s.users ∧
      ((t.disk = s.disk ∧ t.manager.fd = none ∧ s.manager.fd = none) ∨
      (∃ disk, s.manager = .calling ∧ s.noticeOnce = false ∧ s.disk.openExisting none = some disk ∧
        t = { s with disk, manager := .opened s.disk.opens }) ∨
      (∃ fd disk, s.manager = .opened fd ∧ s.disk.lock fd .exclusive = some disk ∧
        t = { s with disk, manager := .locked fd }) ∨
      (∃ fd, s.manager = .opened fd ∧ s.disk.lock fd .exclusive = none ∧
        t = { s with disk := s.disk.close fd, manager := .sleeping }) ∨
      (∃ fd, s.manager = .locked fd ∧ t = { s with
        manager := .closing fd (detectFinish (if ok then some (s.disk.readable fd 4) else none)) }) ∨
      (∃ fd how, s.manager = .closing fd how ∧
        t = { s with disk := s.disk.close fd, noticeOnce := true, manager := .detected how }) ∨
      (∃ ret, s.manager = .leaving ret ∧ t = { s with disk := s.disk.unlink, manager := .ended })) := by
  unfold lockManagerStep at h
  cases hm : s.manager with
  | calling =>
    simp only [hm] at h
    split at h
    · cases h
      exact ⟨rfl, .inl ⟨rfl, rfl, rfl⟩⟩
    · rename_i hnotice
      split at h
      · cases h
        exact ⟨rfl, .inl ⟨rfl, rfl, rfl⟩⟩
      · rename_i disk hdisk
        cases h
        exact ⟨rfl, .inr (.inl ⟨disk, rfl, by simpa using hnotice, hdisk, rfl⟩)⟩
  | opened fd =>
    simp only [hm] at h
    split at h
    · rename_i hlock
      cases h
      exact ⟨rfl, .inr (.inr (.inr (.inl ⟨fd, rfl, hlock, rfl⟩)))⟩
    · rename_i disk hlock
      cases h
      exact ⟨rfl, .inr (.inr (.inl ⟨fd, disk, rfl, hlock, rfl⟩))⟩
  | locked fd =>
    simp only [hm] at h
    cases h
    exact ⟨rfl, .inr (.inr (.inr (.inr (.inl ⟨fd, rfl, rfl⟩))))⟩
  | closing fd how =>
    simp only [hm] at h
    cases h
    exact ⟨rfl, .inr (.inr (.inr (.inr (.inr (.inl ⟨fd, how, rfl, rfl⟩)))))⟩
  | detected how =>
    cases how <;> simp only [hm] at h <;> cases h
    · exact ⟨rfl, .inl ⟨rfl, rfl, rfl⟩⟩
    · exact ⟨rfl, .inl ⟨rfl, by cases ok <;> rfl, rfl⟩⟩
  | connected =>
    simp only [hm] at h
    cases h
    exact ⟨rfl, .inl ⟨rfl, rfl, rfl⟩⟩
  | waiting =>
    simp only [hm] at h
    split at h
    · split at h <;> cases h
      · exact ⟨rfl, .inl ⟨rfl, rfl, rfl⟩⟩
      · exact ⟨rfl, .inl ⟨rfl, rfl, rfl⟩⟩
    · cases h
      exact ⟨rfl, .inl ⟨rfl, rfl, rfl⟩⟩
  | sleeping =>
    simp only [hm] at h
    cases h
    refine ⟨rfl, .inl ⟨rfl, ?_, rfl⟩⟩
    cases s.signalFlg <;> rfl
  | leaving ret =>
    simp only [hm] at h
    cases h
    exact ⟨rfl, .inr (.inr (.inr (.inr (.inr (.inr ⟨ret, rfl, rfl⟩)))))⟩
  | ended =>
    simp only [hm] at h
    cases h

/-! ### What holds of the lock -/

/-- A user may have the lock there. -/
def LockUserAt.mayHold : LockUserAt → Bool
  | .inside | .finishing | .unlocking => true
  | _ => false

/-- Who has what open, and who has the lock. -/
structure LockInv (s : LockSystem ι) : Prop where
  /-- Of all descriptions. -/
  sound : s.disk.Sound
  /-- The description of a user that has the lock. -/
  userLock : ∀ d x i, s.disk.opened d = some x → x.owner = some i → x.lock ≠ none →
    x.lock = some .shared ∧ (s.users i).shmemLockFileFd = some d ∧ (s.users i).pc.mayHold = true
  /-- The descriptor of a user. -/
  userFd : ∀ i d, (s.users i).shmemLockFileFd = some d → (s.users i).pc ≠ .ended →
    ∃ x, s.disk.opened d = some x ∧ x.owner = some i ∧
      ((s.users i).pc = .inside → x.lock = some .shared)
  /-- A user in `fpga_shmem_init` has one, and so has one that uses the memory. -/
  userBusy : ∀ i, (s.users i).pc = .opened ∨ (s.users i).pc = .inside →
    (s.users i).shmemLockFileFd ≠ none
  /-- The manager closes what it opens. -/
  managerOwns : ∀ d x, s.disk.opened d = some x → x.owner = none → s.manager.fd = some d
  /-- Its descriptor. -/
  managerFd : ∀ d, s.manager.fd = some d → ∃ x, s.disk.opened d = some x ∧ x.owner = none ∧
    x.offset = 0 ∧ x.lock = if s.manager.hasLock then some .exclusive else none

omit [DecidableEq ι] in
theorem LockSystem.Start.inv {s : LockSystem ι} (h : s.Start) : LockInv s where
  sound := h.disk
  userLock := by simp [h.opened]
  userFd := by simp [h.users]
  userBusy := by simp [h.users]
  managerOwns := by simp [h.opened]
  managerFd := by simp [h.manager, LockManagerAt.fd]

/-- A step of a user. -/
theorem LockInv.setUser (h : LockInv s) {u : LockUser} {disk : LockedFile (Option ι)} (hdisk : disk.Sound)
    (hothers : LockedFile.SameBut (some i) s.disk disk)
    (hlock : ∀ d x, disk.opened d = some x → x.owner = some i → x.lock ≠ none →
      x.lock = some .shared ∧ u.shmemLockFileFd = some d ∧ u.pc.mayHold = true)
    (hfd : ∀ d, u.shmemLockFileFd = some d → u.pc ≠ .ended →
      ∃ x, disk.opened d = some x ∧ x.owner = some i ∧ (u.pc = .inside → x.lock = some .shared))
    (hbusy : u.pc = .opened ∨ u.pc = .inside → u.shmemLockFileFd ≠ none) :
    LockInv { s.setUser i u with disk } := by
  refine ⟨hdisk, fun d x j hx ho hl => ?_, fun j d hj hpc => ?_, fun j hj => ?_, fun d x hx ho => ?_,
    fun d hd => ?_⟩
  · change _ ∧ (Function.update s.users i u j).shmemLockFileFd = _ ∧
      (Function.update s.users i u j).pc.mayHold = true
    by_cases hji : j = i
    · subst hji
      rw [Function.update_self]
      exact hlock d x hx ho hl
    · rw [Function.update_of_ne hji]
      refine h.userLock d x j ((hothers d x ?_).mp hx) ho hl
      rw [ho]
      exact fun he => hji (Option.some.inj he)
  · change (Function.update s.users i u j).shmemLockFileFd = _ at hj
    change (Function.update s.users i u j).pc ≠ _ at hpc
    change ∃ x, disk.opened d = some x ∧ x.owner = some j ∧
      ((Function.update s.users i u j).pc = .inside → x.lock = some .shared)
    by_cases hji : j = i
    · subst hji
      rw [Function.update_self] at hj hpc ⊢
      exact hfd d hj hpc
    · rw [Function.update_of_ne hji] at hj hpc ⊢
      obtain ⟨x, hx, ho, hin⟩ := h.userFd j d hj hpc
      refine ⟨x, (hothers d x ?_).mpr hx, ho, hin⟩
      rw [ho]
      exact fun he => hji (Option.some.inj he)
  · change (Function.update s.users i u j).shmemLockFileFd ≠ none
    obtain ⟨rfl, hu⟩ | ⟨hji, hs⟩ := update_cases
      (fun u : LockUser => u.pc = .opened ∨ u.pc = .inside) hj
    · rw [Function.update_self]
      exact hbusy hu
    · rw [Function.update_of_ne hji]
      exact h.userBusy j hs
  · exact h.managerOwns d x ((hothers d x (by simp [ho])).mp hx) ho
  · obtain ⟨x, hx, ho, hl⟩ := h.managerFd d hd
    exact ⟨x, (hothers d x (by simp [ho])).mpr hx, ho, hl⟩

omit [DecidableEq ι] in
/-- A step of the manager. -/
theorem LockInv.setManager (h : LockInv s) (husers : t.users = s.users) (hdisk : t.disk.Sound)
    (hothers : LockedFile.SameBut none s.disk t.disk)
    (howns : ∀ d x, t.disk.opened d = some x → x.owner = none → t.manager.fd = some d)
    (hfd : ∀ d, t.manager.fd = some d → ∃ x, t.disk.opened d = some x ∧ x.owner = none ∧
      x.offset = 0 ∧ x.lock = if t.manager.hasLock then some .exclusive else none) : LockInv t := by
  refine ⟨hdisk, fun d x i hx ho hl => ?_, fun i d hi hpc => ?_, fun i hi => ?_, howns, hfd⟩
  · rw [husers]
    exact h.userLock d x i ((hothers d x (by simp [ho])).mp hx) ho hl
  · rw [husers] at hi hpc ⊢
    obtain ⟨x, hx, ho, hin⟩ := h.userFd i d hi hpc
    exact ⟨x, (hothers d x (by simp [ho])).mpr hx, ho, hin⟩
  · rw [husers] at hi ⊢
    exact h.userBusy i hi

omit [DecidableEq ι] in
/-- The manager closes its descriptor. -/
theorem LockInv.closed (h : LockInv s) {fd : ℕ} (hfd : s.manager.fd = some fd)
    (husers : t.users = s.users) (hdisk : t.disk = s.disk.close fd) (ht : t.manager.fd = none) :
    LockInv t := by
  obtain ⟨x, hx, ho, -⟩ := h.managerFd fd hfd
  refine h.setManager husers (hdisk ▸ h.sound.close fd) (hdisk ▸ LockedFile.sameBut_close hx ho)
    (fun d y hy hyo => ?_) (fun d hd => ?_)
  · rw [hdisk, LockedFile.opened_close] at hy
    split_ifs at hy with hd
    exact absurd (Option.some.inj (hfd.symm.trans (h.managerOwns d y hy hyo))).symm hd
  · rw [ht] at hd
    cases hd

omit [DecidableEq ι] in
theorem noticeStep_same (h : noticeStep ok s = some t) :
    t.users = s.users ∧ t.disk = s.disk ∧ t.manager = s.manager := by
  unfold noticeStep at h
  split at h
  · cases h
  · split_ifs at h <;> cases h <;> exact ⟨rfl, rfl, rfl⟩

theorem LockInv.userStep (h : LockInv s) (hstep : lockUserStep i op s = some t) : LockInv t := by
  obtain ⟨-, hpc, rfl⟩ | ⟨fd, disk, -, hu, hlock, rfl⟩ | ⟨u, hmoves, rfl⟩ | ⟨fd, count, -, hu, rfl⟩ |
    ⟨fd, -, hu, rfl⟩ | ⟨-, hpc, rfl⟩ := lockUserStep_cases hstep
  · -- a description without a lock is new
    obtain ⟨v, file, heq, -, -, hopened, hopens, -⟩ := LockedFile.openCreate_eq (some i) s.disk
    have hnew : ∀ d, (s.disk.openCreate (some i)).opened d =
        if d = s.disk.opens then some ⟨some i, file, 0, none⟩ else s.disk.opened d := by
      intro d
      rw [heq, LockedFile.opened_describe, hopens, hopened]
    refine h.setUser (h.sound.openCreate _) (h.sound.sameBut_openCreate _) (fun d x hx ho hl => ?_)
      (fun d hd _ => ?_) (fun _ => by simp)
    · rw [hnew] at hx
      split_ifs at hx
      · cases hx
        exact absurd rfl hl
      · have hold := (h.userLock d x i hx ho hl).2.2
        rw [hpc] at hold
        cases hold
    · cases hd
      exact ⟨_, (hnew _).trans (if_pos rfl), rfl, by simp⟩
  · obtain ⟨x, hx, ho, -⟩ := h.userFd i fd (by rw [hu]) (by simp [hu])
    have hsame := LockedFile.lock_cases h.sound hlock hx
    obtain ⟨rfl, -⟩ := hsame
    refine h.setUser (h.sound.lock hlock) (LockedFile.sameBut_change hx ho fun _ => rfl)
      (fun d y hy hyo hl => ?_) (fun d hd _ => ?_) (fun _ => by simp)
    · rw [LockedFile.opened_change] at hy
      split_ifs at hy with hd
      · rw [hx] at hy
        cases hy
        exact ⟨rfl, by rw [hd], rfl⟩
      · have hold := (h.userLock d y i hy hyo hl).2.2
        rw [hu] at hold
        cases hold
    · cases hd
      refine ⟨{ x with lock := some .shared }, ?_, ho, fun _ => rfl⟩
      rw [LockedFile.opened_change, if_pos rfl, hx]
      rfl
  · refine h.setUser h.sound (LockedFile.SameBut.refl _ _) (fun d x hx ho hl => ?_) (fun d hd hpc => ?_)
      (fun hbusy => ?_)
    · obtain ⟨hshared, hfd, hold⟩ := h.userLock d x i hx ho hl
      obtain ⟨-, -, hpc⟩ | ⟨fd, rfl, hs, -⟩ := hmoves
      · rw [hpc] at hold
        cases hold
      · exact ⟨hshared, hs.symm.trans hfd, rfl⟩
    · obtain ⟨rfl, -, -⟩ | ⟨fd, rfl, hs, hne, -⟩ := hmoves
      · cases hd
      · cases hd
        obtain ⟨x, hx, ho, -⟩ := h.userFd i _ hs hne
        exact ⟨x, hx, ho, by simp⟩
    · obtain ⟨rfl, -, -⟩ | ⟨fd, rfl, -, -⟩ := hmoves <;> simp at hbusy
  · obtain ⟨x, hx, ho, -⟩ := h.userFd i fd (by rw [hu]) (by simp [hu])
    refine h.setUser (h.sound.write _ _) (LockedFile.sameBut_write hx ho _) (fun d y hy hyo hl => ?_)
      (fun d hd _ => ?_) (fun hbusy => by simp at hbusy)
    · rw [LockedFile.opened_write] at hy
      split_ifs at hy with hd
      · rw [hx] at hy
        cases hy
        exact ⟨(h.userLock fd x i hx ho hl).1, by rw [hd], rfl⟩
      · obtain ⟨hshared, hfd, -⟩ := h.userLock d y i hy hyo hl
        rw [hu] at hfd
        exact ⟨hshared, hfd, rfl⟩
    · cases hd
      refine ⟨{ x with offset := x.offset + (finishMark.take count).length }, ?_, ho, by simp⟩
      rw [LockedFile.opened_write, if_pos rfl, hx]
      rfl
  · obtain ⟨x, hx, ho, -⟩ := h.userFd i fd (by rw [hu]) (by simp [hu])
    refine h.setUser (h.sound.unlock _) (LockedFile.sameBut_change hx ho fun _ => rfl)
      (fun d y hy hyo hl => ?_) (fun d hd _ => ?_) (fun hbusy => by simp at hbusy)
    · rw [LockedFile.unlock, LockedFile.opened_change] at hy
      split_ifs at hy with hd
      · rw [hx] at hy
        cases hy
        exact absurd rfl hl
      · obtain ⟨-, hfd, -⟩ := h.userLock d y i hy hyo hl
        rw [hu] at hfd
        exact absurd (Option.some.inj hfd).symm hd
    · cases hd
      refine ⟨{ x with lock := none }, ?_, ho, by simp⟩
      rw [LockedFile.unlock, LockedFile.opened_change, if_pos rfl, hx]
      rfl
  · refine h.setUser (h.sound.closeAll _) (LockedFile.sameBut_closeAll _ _) (fun d x hx ho _ => ?_)
      (fun d _ hpc => absurd rfl hpc) (fun hbusy => by simp at hbusy)
    exact absurd ho (by simpa using (Option.filter_eq_some_iff.mp hx).2)

omit [DecidableEq ι] in
theorem LockInv.managerStep (h : LockInv s) (hstep : lockManagerStep command ok s = some t) :
    LockInv t := by
  obtain ⟨husers, ⟨hdisk, ht, hs⟩ | ⟨disk, hm, -, hopen, rfl⟩ | ⟨fd, disk, hm, hlock, rfl⟩ |
    ⟨fd, hm, -, rfl⟩ | ⟨fd, hm, rfl⟩ | ⟨fd, how, hm, rfl⟩ | ⟨ret, hm, rfl⟩⟩ :=
    lockManagerStep_cases hstep
  · refine h.setManager husers (hdisk ▸ h.sound) (hdisk ▸ LockedFile.SameBut.refl _ _) ?_ ?_
    · intro d x hx ho
      have hfd := h.managerOwns d x (hdisk ▸ hx) ho
      rw [hs] at hfd
      cases hfd
    · intro d hd
      rw [ht] at hd
      cases hd
  · obtain ⟨file, hfile, rfl⟩ := Option.map_eq_some_iff.mp hopen
    refine h.setManager rfl (h.sound.openExisting none hopen) (h.sound.sameBut_describe none file)
      (fun d x hx ho => ?_) (fun d hd => ?_)
    · rw [LockedFile.opened_describe] at hx
      split_ifs at hx with hd
      · rw [hd]
        rfl
      · have hfd := h.managerOwns d x hx ho
        rw [hm] at hfd
        cases hfd
    · cases hd
      exact ⟨⟨none, file, 0, none⟩, by rw [LockedFile.opened_describe, if_pos rfl], rfl, rfl, rfl⟩
  · obtain ⟨x, hx, ho, hoffset, -⟩ := h.managerFd fd (by rw [hm]; rfl)
    obtain ⟨rfl, -⟩ := LockedFile.lock_cases h.sound hlock hx
    refine h.setManager rfl (h.sound.lock hlock) (LockedFile.sameBut_change hx ho fun _ => rfl)
      (fun d y hy hyo => ?_) (fun d hd => ?_)
    · rw [LockedFile.opened_change] at hy
      split_ifs at hy with hd
      · rw [hd]
        rfl
      · have hfd := h.managerOwns d y hy hyo
        rw [hm] at hfd
        exact hfd
    · cases hd
      refine ⟨{ x with lock := some .exclusive }, ?_, ho, hoffset, rfl⟩
      rw [LockedFile.opened_change, if_pos rfl, hx]
      rfl
  · exact h.closed (by rw [hm]; rfl) rfl rfl rfl
  · refine h.setManager rfl h.sound (LockedFile.SameBut.refl _ _) (fun d x hx ho => ?_) (fun d hd => ?_)
    · have hfd := h.managerOwns d x hx ho
      rw [hm] at hfd
      exact hfd
    · have hfd := h.managerFd d (by rw [hm]; exact hd)
      rw [hm] at hfd
      exact hfd
  · exact h.closed (by rw [hm]; rfl) rfl rfl rfl
  · refine h.setManager rfl h.sound.unlink (LockedFile.SameBut.refl _ _) (fun d x hx ho => ?_)
      (fun d hd => by cases hd)
    have hfd := h.managerOwns d x hx ho
    rw [hm] at hfd
    cases hfd

theorem LockInv.step (h : LockInv s) {o : LockOp ι} (hstep : lockStep command s o = some t) :
    LockInv t := by
  cases o with
  | user i op => exact h.userStep hstep
  | manager ok => exact h.managerStep hstep
  | notice ok =>
    obtain ⟨husers, hdisk, hmanager⟩ := noticeStep_same hstep
    refine h.setManager husers (hdisk ▸ h.sound) (hdisk ▸ LockedFile.SameBut.refl _ _) ?_ ?_
    · rw [hdisk, hmanager]
      exact h.managerOwns
    · rw [hdisk, hmanager]
      exact h.managerFd
  | signal =>
    cases hstep
    exact h.setManager rfl h.sound (LockedFile.SameBut.refl _ _) h.managerOwns h.managerFd
  | unlink =>
    cases hstep
    exact h.setManager rfl h.sound.unlink (LockedFile.SameBut.refl _ _) h.managerOwns h.managerFd
  | killManager =>
    cases hstep
    refine h.setManager rfl (h.sound.closeAll _) (LockedFile.sameBut_closeAll _ _)
      (fun d x hx ho => ?_) (fun d hd => by cases hd)
    exact absurd ho (by simpa using (Option.filter_eq_some_iff.mp hx).2)

/-- Who noticed something goes on having noticed it. -/
theorem noticeOnce_step {o : LockOp ι} (hs : s.noticeOnce = true)
    (hstep : lockStep command s o = some t) : t.noticeOnce = true := by
  cases o with
  | user i op =>
    obtain ⟨-, -, rfl⟩ | ⟨fd, disk, -, -, -, rfl⟩ | ⟨u, -, rfl⟩ | ⟨fd, count, -, -, rfl⟩ |
      ⟨fd, -, -, rfl⟩ | ⟨-, -, rfl⟩ := lockUserStep_cases hstep <;> exact hs
  | manager ok =>
    simp only [lockStep, lockManagerStep] at hstep
    repeat' split at hstep
    all_goals cases hstep
    all_goals first | exact hs | rfl
  | notice ok =>
    simp only [lockStep, noticeStep] at hstep
    repeat' split at hstep
    all_goals cases hstep
    all_goals exact hs
  | signal | unlink | killManager =>
    cases hstep
    exact hs

/-! ### Runs -/

theorem LockSystem.Start.run_inv {s₀ : LockSystem ι} {os : List (LockOp ι)} (h : s₀.Start)
    (hrun : run (lockStep command) s₀ os = some s) : LockInv s :=
  run_invariant (fun _ _ _ h hstep => h.step hstep) h.inv hrun

/-- No lock file is there. -/
def lockStart : LockSystem ι :=
  ⟨.empty, fun _ => ⟨.outside, none⟩, .calling, false, false, none, none, []⟩

omit [DecidableEq ι] in
theorem lockStart_start : (lockStart : LockSystem ι).Start :=
  ⟨LockedFile.sound_empty, fun _ => rfl, fun _ => rfl, rfl, rfl, rfl, rfl, rfl⟩

end HardwareDrivers.Libfpga
