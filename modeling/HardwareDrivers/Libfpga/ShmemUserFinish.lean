import HardwareDrivers.Libfpga.ShmemLockFile

/-!
# How users end

A manager that gets the lock of the file for itself decides by what is in the file whether the users
finished or were killed.

A user opens the file and then takes the lock, in two calls. A manager that gets the lock between
them takes the user for one that was killed.

## What is proved

* `Tracked.step` — what is in the file was written by users.
* `detect_sound` — where the manager detects an end no user has the lock, so that nobody uses the memory,
  and it detects a normal one exactly if a user wrote, or the file could not be read.
* `quiet_iff` — after that nobody comes to use the memory, without opening the file anew, exactly if
  no user was between `open` and `flock`.
* `detect_ends` — once the users are gone the manager detects it, in four of its steps.
-/

namespace HardwareDrivers.Libfpga

open Theory

variable {ι : Type*} [DecidableEq ι] {command : CStr} {s t : LockSystem ι} {i : ι} {op : LockUserOp}
  {ok : Bool}

/-! ### What is in the file -/

/-- A user writes something. -/
def LockOp.Writes (o : LockOp ι) : Prop := ∃ i count, 0 < count ∧ o = .user i (.write count)

/-- The name denotes what everybody has open, and something is in it if `b`. -/
structure Tracked (b : Prop) (disk : LockedFile (Option ι)) : Prop where
  /-- Nothing is in no file. -/
  absent : disk.entry = none → ¬ b
  /-- What is in the file. -/
  content : ∀ file, disk.entry = some file → (disk.content file ≠ [] ↔ b)
  /-- It is the one that is open. -/
  only : ∀ d x, disk.opened d = some x → disk.entry = some x.file

section
variable {b : Prop} {disk disk' : LockedFile (Option ι)}

omit [DecidableEq ι] in
theorem LockSystem.Start.tracked (h : s.Start) : Tracked s.Marked s.disk where
  absent hnone := by
    rintro ⟨file, hfile, -⟩
    rw [hnone] at hfile
    cases hfile
  content file hfile := by
    constructor
    · exact fun hne => ⟨file, hfile, hne⟩
    · rintro ⟨file', hfile', hne⟩
      cases hfile.symm.trans hfile'
      exact hne
  only d x hx := by
    rw [h.opened] at hx
    cases hx

omit [DecidableEq ι] in
/-- What leaves the name, and opens nothing else, leaves what is tracked. -/
theorem Tracked.same (h : Tracked b disk) (hentry : disk'.entry = disk.entry)
    (hcontent : disk'.content = disk.content)
    (hopened : ∀ d y, disk'.opened d = some y → ∃ x, disk.opened d = some x ∧ x.file = y.file) :
    Tracked b disk' where
  absent := by
    rw [hentry]
    exact h.absent
  content := by
    rw [hentry, hcontent]
    exact h.content
  only d y hy := by
    obtain ⟨x, hx, hfile⟩ := hopened d y hy
    rw [hentry, ← hfile]
    exact h.only d x hx

omit [DecidableEq ι] in
theorem Tracked.change (h : Tracked b disk) (fd : ℕ)
    {g : Description (Option ι) → Description (Option ι)} (hg : ∀ x, (g x).file = x.file) :
    Tracked b (disk.change fd g) := by
  refine h.same rfl rfl fun d y hy => ?_
  rw [LockedFile.opened_change] at hy
  split_ifs at hy with hd
  · obtain ⟨x, hx, rfl⟩ := Option.map_eq_some_iff.mp hy
    exact ⟨x, hd ▸ hx, (hg x).symm⟩
  · exact ⟨y, hy, rfl⟩

omit [DecidableEq ι] in
theorem Tracked.close (h : Tracked b disk) (fd : ℕ) : Tracked b (disk.close fd) := by
  refine h.same rfl rfl fun d y hy => ?_
  rw [LockedFile.opened_close] at hy
  split_ifs at hy
  exact ⟨y, hy, rfl⟩

theorem Tracked.closeAll (h : Tracked b disk) (o : Option ι) : Tracked b (disk.closeAll o) :=
  h.same rfl rfl fun _ y hy => ⟨y, (Option.filter_eq_some_iff.mp hy).1, rfl⟩

omit [DecidableEq ι] in
theorem Tracked.describe (h : Tracked b disk) (o : Option ι) {file : ℕ}
    (hfile : disk.entry = some file) : Tracked b (disk.describe o file) where
  absent := h.absent
  content := h.content
  only d x hx := by
    rw [LockedFile.opened_describe] at hx
    split_ifs at hx
    · cases hx
      exact hfile
    · exact h.only d x hx

omit [DecidableEq ι] in
/-- A file that is made is empty. -/
theorem Tracked.openCreate (h : Tracked b disk) (hsound : disk.Sound) (o : Option ι) :
    Tracked b (disk.openCreate o) := by
  unfold LockedFile.openCreate
  cases hentry : disk.entry with
  | some file => exact h.describe o hentry
  | none =>
    refine Tracked.describe ⟨fun hnone => ?_, fun file hfile => ?_, fun d x hx => ?_⟩ o rfl
    · cases hnone
    · cases hfile
      exact iff_of_false (fun hne => hne (hsound.unmade _ le_rfl)) (h.absent hentry)
    · cases hentry.symm.trans (h.only d x hx)

omit [DecidableEq ι] in
theorem Tracked.write (h : Tracked b disk) {fd : ℕ} {x : Description (Option ι)}
    (hx : disk.opened fd = some x) (bytes : List (BitVec 8)) :
    Tracked (b ∨ bytes ≠ []) (disk.write fd bytes) := by
  have hentry := h.only fd x hx
  have hwritten : Tracked (b ∨ bytes ≠ []) { disk with
      content := Function.update disk.content x.file
        (LockedFile.overwrite x.offset bytes (disk.content x.file)) } := by
    refine ⟨fun hnone => ?_, fun file hfile => ?_, h.only⟩
    · cases hentry.symm.trans hnone
    · cases hentry.symm.trans hfile
      dsimp only
      rw [Function.update_self, LockedFile.overwrite_ne_nil_iff, h.content _ hentry, or_comm]
  unfold LockedFile.write
  rw [hx]
  exact hwritten.change fd fun _ => rfl

end

theorem finishMark_take {count : ℕ} : finishMark.take count ≠ [] ↔ 0 < count := by
  simp [finishMark, Nat.pos_iff_ne_zero]

theorem Tracked.userStep {b : Prop} (h : Tracked b s.disk) (hinv : LockInv s)
    (hstep : lockUserStep i op s = some t) :
    Tracked (b ∨ (LockOp.user i op).Writes) t.disk := by
  obtain ⟨rfl, -, rfl⟩ | ⟨fd, disk, rfl, hu, hlock, rfl⟩ | ⟨u, hmoves, rfl⟩ |
    ⟨fd, count, rfl, hu, rfl⟩ | ⟨fd, rfl, -, rfl⟩ | ⟨rfl, -, rfl⟩ := lockUserStep_cases hstep
  · rw [or_iff_left (by simp [LockOp.Writes])]
    exact h.openCreate hinv.sound _
  · rw [or_iff_left (by simp [LockOp.Writes])]
    obtain ⟨x, hx, -⟩ := hinv.userFd i fd (by rw [hu]) (by simp [hu])
    obtain ⟨rfl, -⟩ := LockedFile.lock_cases hinv.sound hlock hx
    exact h.change fd fun _ => rfl
  · rw [or_iff_left]
    · exact h
    · rintro ⟨j, count, -, heq⟩
      cases heq
      obtain ⟨-, hop, -⟩ | ⟨fd, -, -, -, hop | hop⟩ := hmoves <;> cases hop
  · obtain ⟨x, hx, -⟩ := hinv.userFd i fd (by rw [hu]) (by simp [hu])
    have hwrites : (LockOp.user i (.write count)).Writes ↔ finishMark.take count ≠ [] := by
      rw [finishMark_take]
      constructor
      · rintro ⟨j, n, hn, heq⟩
        cases heq
        exact hn
      · exact fun hn => ⟨i, count, hn, rfl⟩
    rw [hwrites]
    exact h.write hx _
  · rw [or_iff_left (by simp [LockOp.Writes])]
    exact h.change fd fun _ => rfl
  · rw [or_iff_left (by simp [LockOp.Writes])]
    exact h.closeAll _

omit [DecidableEq ι] in
theorem Tracked.managerStep {b : Prop} (h : Tracked b s.disk) (hinv : LockInv s)
    (hstep : lockManagerStep command ok s = some t) (hend : t.manager ≠ .ended) :
    Tracked b t.disk := by
  obtain ⟨-, ⟨hdisk, -, -⟩ | ⟨disk, -, -, hopen, rfl⟩ | ⟨fd, disk, hm, hlock, rfl⟩ | ⟨fd, -, -, rfl⟩ |
    ⟨fd, -, rfl⟩ | ⟨fd, how, -, rfl⟩ | ⟨ret, -, rfl⟩⟩ := lockManagerStep_cases hstep
  · exact hdisk ▸ h
  · obtain ⟨file, hfile, rfl⟩ := Option.map_eq_some_iff.mp hopen
    exact h.describe _ hfile
  · obtain ⟨x, hx, -⟩ := hinv.managerFd fd (by rw [hm]; rfl)
    obtain ⟨rfl, -⟩ := LockedFile.lock_cases hinv.sound hlock hx
    exact h.change fd fun _ => rfl
  · exact h.close fd
  · exact h
  · exact h.close fd
  · exact absurd rfl hend

theorem Tracked.step {b : Prop} (h : Tracked b s.disk) (hinv : LockInv s) {o : LockOp ι}
    (hstep : lockStep command s o = some t) (hunlink : o ≠ .unlink) (hend : t.manager ≠ .ended) :
    Tracked (b ∨ o.Writes) t.disk := by
  cases o with
  | user i op => exact h.userStep hinv hstep
  | manager ok =>
    rw [or_iff_left (by simp [LockOp.Writes])]
    exact h.managerStep hinv hstep hend
  | notice ok =>
    rw [or_iff_left (by simp [LockOp.Writes]), (noticeStep_same hstep).2.1]
    exact h
  | signal =>
    cases hstep
    rw [or_iff_left (by simp [LockOp.Writes])]
    exact h
  | unlink => exact absurd rfl hunlink
  | killManager =>
    cases hstep
    exact absurd rfl hend

/-- A manager that ended takes no step. -/
theorem ended_step {o : LockOp ι} (hs : s.manager = .ended)
    (hstep : lockStep command s o = some t) : t.manager = .ended := by
  cases o with
  | user i op =>
    obtain ⟨-, -, rfl⟩ | ⟨fd, disk, -, -, -, rfl⟩ | ⟨u, -, rfl⟩ | ⟨fd, count, -, -, rfl⟩ |
      ⟨fd, -, -, rfl⟩ | ⟨-, -, rfl⟩ := lockUserStep_cases hstep <;> exact hs
  | manager ok => simp [lockStep, lockManagerStep, hs] at hstep
  | notice ok => exact (noticeStep_same hstep).2.2.trans hs
  | signal | unlink | killManager => cases hstep; first | exact hs | rfl

/-- What is in the file at the end of a run was written in it, or was there. -/
theorem Tracked.run {b : Prop} {os : List (LockOp ι)} (h : Tracked b s.disk) (hinv : LockInv s)
    (hrun : run (lockStep command) s os = some t) (hunlink : .unlink ∉ os) (hend : t.manager ≠ .ended) :
    Tracked (b ∨ ∃ o ∈ os, o.Writes) t.disk := by
  induction os generalizing s b with
  | nil =>
    cases hrun
    simpa using h
  | cons o os ih =>
    obtain ⟨u, hu, hrest⟩ := run_cons_eq_some.mp hrun
    have hend' : u.manager ≠ .ended := fun hue =>
      hend (run_invariant (fun _ _ _ => ended_step) hue hrest)
    have hstep := h.step hinv hu (fun ho => hunlink (ho ▸ List.mem_cons_self)) hend'
    have htail := ih hstep (hinv.step hu) hrest fun ho => hunlink (List.mem_cons_of_mem _ ho)
    rwa [or_assoc, ← List.exists_mem_cons_iff] at htail

/-! ### What the manager detects -/

/-- The user is between its shared lock and its unlock. -/
def LockSystem.HasLock (s : LockSystem ι) (i : ι) : Prop :=
  ∃ d x, s.disk.opened d = some x ∧ x.owner = some i ∧ x.lock ≠ none

omit [DecidableEq ι] in
/-- While the manager has the lock no user has that of the file. -/
theorem LockInv.not_hasLock (h : LockInv s) (hm : s.manager.hasLock = true) {fd : ℕ}
    (hfd : s.manager.fd = some fd) (htracked : ∀ d x, s.disk.opened d = some x →
      s.disk.entry = some x.file) (i : ι) : ¬ s.HasLock i := by
  rintro ⟨d, y, hy, hyo, hyl⟩
  obtain ⟨x, hx, ho, -, hl⟩ := h.managerFd fd hfd
  rw [if_pos hm] at hl
  have hne : fd ≠ d := by
    rintro rfl
    cases hx.symm.trans hy
    cases ho.symm.trans hyo
  have hfile : x.file = y.file := Option.some.inj ((htracked fd x hx).symm.trans (htracked d y hy))
  exact hyl (h.sound.alone fd d x y hne hx hy hfile hl)

omit [DecidableEq ι] in
/-- A user that uses the memory has the lock. -/
theorem LockInv.hasLock_of_inside (h : LockInv s) (hi : (s.users i).pc = .inside) : s.HasLock i := by
  obtain ⟨d, hd⟩ := Option.ne_none_iff_exists'.mp (h.userBusy i (.inr hi))
  obtain ⟨y, hy, hyo, hyl⟩ := h.userFd i d hd (by simp [hi])
  exact ⟨d, y, hy, hyo, by simp [hyl hi]⟩

/-- **Where the manager detects an end, no user has the lock**, so that nobody uses the memory, and it
detects a normal one exactly if something was written in the file, by a user or before, or the file
cannot be read. -/
theorem detect_sound {s₀ : LockSystem ι} {os : List (LockOp ι)} (hstart : s₀.Start)
    (hunlink : .unlink ∉ os) (hrun : run (lockStep command) s₀ os = some s) {fd : ℕ}
    (hm : s.manager = .locked fd) (hstep : lockStep command s (.manager ok) = some t) :
    (∀ i, ¬ s.HasLock i ∧ (s.users i).pc ≠ .inside) ∧ ∃ how, t.manager = .closing fd how ∧
      (how = .normal ↔ ok = false ∨ s₀.Marked ∨ ∃ o ∈ os, o.Writes) := by
  have hinv := hstart.run_inv hrun
  have htracked := hstart.tracked.run hstart.inv hrun hunlink (by rw [hm]; simp)
  have hlock : ∀ i, ¬ s.HasLock i :=
    hinv.not_hasLock (by rw [hm]; rfl) (by rw [hm]; rfl) htracked.only
  refine ⟨fun i => ⟨hlock i, fun hi => hlock i (hinv.hasLock_of_inside hi)⟩, ?_⟩
  obtain ⟨x, hx, -, hoffset, -⟩ := hinv.managerFd fd (by rw [hm]; rfl)
  have hcontent := htracked.content x.file (htracked.only fd x hx)
  have hreadable : s.disk.readable fd 4 = min 4 (s.disk.content x.file).length := by
    unfold LockedFile.readable
    rw [hx, Option.elim_some, hoffset, Nat.sub_zero]
  simp only [lockStep, lockManagerStep, hm] at hstep
  cases hstep
  refine ⟨_, rfl, ?_⟩
  rw [← hcontent, hreadable]
  cases ok with
  | false => simp [detectFinish]
  | true =>
    cases s.disk.content x.file with
    | nil => simp [detectFinish]
    | cons c cs => simp [detectFinish]

/-- One user finishes and another one is killed while it uses the memory; the manager cannot get the lock
before. -/
def killedUser : List (LockOp ℕ) :=
  [.user 0 (.openFile true), .user 1 (.openFile true), .user 0 (.lockFile true), .manager true,
    .user 1 (.lockFile true), .manager true, .user 1 .finish, .user 1 (.write 0), .user 1 .unlock,
    .user 0 .kill, .manager true, .manager true, .manager true]

/-- The manager detects that it was, for the other one could not write. -/
theorem detect_sound_killed :
    ∃ s t, run (lockStep prefixA) lockStart killedUser = some s ∧
      lockStep prefixA s (.manager true) = some t ∧
      (∀ i, ¬ s.HasLock i ∧ (s.users i).pc ≠ .inside) ∧ t.manager = .closing 3 .error := by
  have hlocked : (run (lockStep prefixA) lockStart killedUser).map LockSystem.manager =
      some (.locked 3) := rfl
  obtain ⟨s, hs, hm⟩ := Option.map_eq_some_iff.mp hlocked
  obtain ⟨t, ht⟩ : ∃ t, lockStep prefixA s (.manager true) = some t := by
    simp [lockStep, lockManagerStep, hm]
  obtain ⟨hin, how, htm, hiff⟩ := detect_sound lockStart_start (by decide) hs hm ht
  have hnormal : how ≠ .normal := by
    rw [ne_eq, hiff]
    simp [LockSystem.Marked, lockStart, LockedFile.empty, killedUser, LockOp.Writes]
  refine ⟨s, t, hs, ht, hin, ?_⟩
  cases how with
  | normal => exact absurd rfl hnormal
  | error => exact htm

/-! ### After that -/

/-- No user is in `fpga_shmem_init`, or uses the memory. -/
def LockSystem.Away (s : LockSystem ι) : Prop :=
  ∀ i, (s.users i).pc ≠ .opened ∧ (s.users i).pc ≠ .inside

theorem LockSystem.Away.userStep (hs : s.Away) (hop : op ≠ .openFile true)
    (hstep : lockUserStep i op s = some t) : t.Away := by
  have hset : ∀ u : LockUser, u.pc ≠ .opened ∧ u.pc ≠ .inside → ∀ j,
      (Function.update s.users i u j).pc ≠ .opened ∧ (Function.update s.users i u j).pc ≠ .inside := by
    intro u hu j
    by_cases hji : j = i
    · subst hji
      rwa [Function.update_self]
    · rw [Function.update_of_ne hji]
      exact hs j
  obtain ⟨rfl, -, -⟩ | ⟨fd, disk, -, hu, -, -⟩ | ⟨u, hmoves, rfl⟩ | ⟨fd, count, -, -, rfl⟩ |
    ⟨fd, -, -, rfl⟩ | ⟨-, -, rfl⟩ := lockUserStep_cases hstep
  · exact absurd rfl hop
  · exact absurd (by rw [hu]) (hs i).1
  · obtain ⟨rfl, -, -⟩ | ⟨fd, rfl, -⟩ := hmoves
    · exact hset _ (by simp)
    · exact hset _ (by simp)
  · exact hset _ (by simp)
  · exact hset _ (by simp)
  · exact hset _ (by simp)

/-- A user comes there by `open`. -/
theorem LockSystem.Away.step {o : LockOp ι} (hs : s.Away) (ho : ∀ i, o ≠ .user i (.openFile true))
    (hstep : lockStep command s o = some t) : t.Away := by
  cases o with
  | user i op => exact hs.userStep (fun hop => ho i (hop ▸ rfl)) hstep
  | manager ok => exact fun i => (lockManagerStep_cases hstep).1 ▸ hs i
  | notice ok => exact fun i => (noticeStep_same hstep).1 ▸ hs i
  | signal | unlink | killManager =>
    cases hstep
    exact hs

/-- A user that waits for the lock gets it once the manager closed the file. -/
theorem LockInv.userLocks (h : LockInv s) (hm : s.manager.fd = none) (hi : (s.users i).pc = .opened) :
    ∃ t, lockUserStep i (.lockFile true) s = some t ∧ (t.users i).pc = .inside := by
  obtain ⟨fd, hfd⟩ := Option.ne_none_iff_exists'.mp (h.userBusy i (.inl hi))
  obtain ⟨x, hx, -⟩ := h.userFd i fd hfd (by simp [hi])
  have hadmits : s.disk.admits fd .shared = true := by
    rw [h.sound.admits_iff hx]
    intro e y _ hy _
    cases hl : y.lock with
    | none => rfl
    | some l =>
      cases ho : y.owner with
      | none =>
        have hfd := h.managerOwns e y hy ho
        rw [hm] at hfd
        cases hfd
      | some j =>
        have hshared := (h.userLock e y j hy ho (by simp [hl])).1
        rw [hl] at hshared
        cases hshared
        rfl
  have huser : s.users i = ⟨.opened, some fd⟩ := by
    cases hu : s.users i
    rw [hu] at hi hfd
    cases hi
    cases hfd
    rfl
  refine ⟨{ s.setUser i ⟨.inside, some fd⟩ with
    disk := s.disk.change fd fun x => { x with lock := some .shared } }, ?_, ?_⟩
  · simp only [lockUserStep, huser, LockedFile.lock, hadmits, if_true, Option.map_some]
  · change (Function.update s.users i _ i).pc = _
    rw [Function.update_self]

/-- **After the manager read the file, nobody comes to use the memory** without opening the file anew,
exactly if no user was between `open` and `flock`. -/
theorem quiet_iff {s₀ : LockSystem ι} {os : List (LockOp ι)} (hstart : s₀.Start)
    (hunlink : .unlink ∉ os) (hrun : run (lockStep command) s₀ os = some s) {fd : ℕ}
    {how : UserFinish} (hm : s.manager = .closing fd how) :
    (∀ os' t, run (lockStep command) s os' = some t → (∀ i, .user i (.openFile true) ∉ os') →
      ∀ i, (t.users i).pc ≠ .inside) ↔ ∀ i, (s.users i).pc ≠ .opened := by
  have hinv := hstart.run_inv hrun
  constructor
  · intro h i hi
    obtain ⟨t, ht⟩ : ∃ t, lockStep command s (.manager true) = some t := by
      simp [lockStep, lockManagerStep, hm]
    have htm : t.manager.fd = none := by
      simp only [lockStep, lockManagerStep, hm] at ht
      cases ht
      rfl
    have hti : (t.users i).pc = .opened := by
      rw [(lockManagerStep_cases ht).1]
      exact hi
    obtain ⟨u, hu, hin⟩ := (hinv.step ht).userLocks htm hti
    refine h [.manager true, .user i (.lockFile true)] u ?_ (by simp) i hin
    exact run_cons_eq_some.mpr ⟨t, ht, run_cons_eq_some.mpr ⟨u, hu, rfl⟩⟩
  · intro h os' t hrun' hopen i
    have htracked := hstart.tracked.run hstart.inv hrun hunlink (by rw [hm]; simp)
    have haway : s.Away := fun i =>
      ⟨h i, fun hi => hinv.not_hasLock (by rw [hm]; rfl) (by rw [hm]; rfl) htracked.only i
        (hinv.hasLock_of_inside hi)⟩
    clear hrun htracked hinv hm hunlink h
    induction os' generalizing s with
    | nil =>
      cases hrun'
      exact (haway i).2
    | cons o os' ih =>
      obtain ⟨u, hu, hrest⟩ := run_cons_eq_some.mp hrun'
      refine ih hrest (fun j hj => hopen j (List.mem_cons_of_mem _ hj)) (haway.step ?_ hu)
      exact fun j hj => hopen j (hj ▸ List.mem_cons_self)

/-- A user starts while the manager reads the file. -/
def startingUser : List (LockOp ℕ) :=
  [.user 0 (.openFile true), .manager true, .manager true, .manager true]

/-- It can come to use the memory that the manager gives up. -/
theorem quiet_iff_starting :
    ∃ s, run (lockStep prefixA) lockStart startingUser = some s ∧
      s.manager = .closing 1 .error ∧
      ¬ ∀ os' t, run (lockStep prefixA) s os' = some t → (∀ i, .user i (.openFile true) ∉ os') →
        ∀ i, (t.users i).pc ≠ .inside := by
  have hclosing : (run (lockStep prefixA) lockStart startingUser).map
      (fun s => (s.manager, (s.users 0).pc)) = some (.closing 1 .error, .opened) := rfl
  obtain ⟨s, hs, heq⟩ := Option.map_eq_some_iff.mp hclosing
  obtain ⟨hm, hu⟩ := Prod.mk.inj heq
  refine ⟨s, hs, hm, fun h => ?_⟩
  exact (quiet_iff lockStart_start (by decide) hs hm).mp h 0 hu

/-! ### An end is detected -/

/-- The manager read the file. -/
def LockSystem.Detected (s : LockSystem ι) : Prop :=
  s.noticeOnce = true ∨ ∃ fd how, s.manager = .closing fd how

/-- So many of its steps are left until it has. -/
def LockManagerAt.left : LockManagerAt → ℕ
  | .sleeping => 4
  | .calling => 3
  | .opened _ => 2
  | .locked _ => 1
  | _ => 0

/-- The users are gone, and the file is there. -/
structure Quiet (s : LockSystem ι) : Prop where
  /-- No user has the lock. -/
  lock : ∀ d x, s.disk.opened d = some x → x.owner ≠ none → x.lock = none
  /-- None is about to have it. -/
  users : s.Away
  /-- There is a file. -/
  entry : s.disk.entry ≠ none
  /-- The manager is not asked to end. -/
  signal : s.signalFlg = false

/-- A step after which the users are still gone: no user starts, and the manager is left alone. -/
def LockOp.Idle : LockOp ι → Prop
  | .user _ op => op ≠ .openFile true
  | .manager _ | .notice _ => True
  | .signal | .unlink | .killManager => False

/-- A step of the manager. -/
def LockOp.isManager : LockOp ι → Bool
  | .manager _ => true
  | _ => false

theorem Quiet.userStep (h : Quiet s) (hinv : LockInv s) (hop : op ≠ .openFile true)
    (hstep : lockUserStep i op s = some t) : Quiet t := by
  have haway := h.users.userStep hop hstep
  obtain ⟨rfl, -, -⟩ | ⟨fd, disk, -, hu, -, -⟩ | ⟨u, -, rfl⟩ | ⟨fd, count, -, hu, rfl⟩ |
    ⟨fd, -, hu, rfl⟩ | ⟨-, -, rfl⟩ := lockUserStep_cases hstep
  · exact absurd rfl hop
  · exact absurd (by rw [hu]) (h.users i).1
  · exact ⟨h.lock, haway, h.entry, h.signal⟩
  · obtain ⟨x, hx, ho, -⟩ := hinv.userFd i fd (by rw [hu]) (by simp [hu])
    refine ⟨fun d y hy hyo => ?_, haway, ?_, h.signal⟩
    · rw [LockedFile.opened_write] at hy
      split_ifs at hy
      · rw [hx] at hy
        cases hy
        exact h.lock fd x hx (by simp [ho])
      · exact h.lock d y hy hyo
    · change (s.disk.write fd _).entry ≠ none
      unfold LockedFile.write
      rw [hx]
      exact h.entry
  · refine ⟨fun d y hy hyo => ?_, haway, h.entry, h.signal⟩
    rw [LockedFile.unlock, LockedFile.opened_change] at hy
    split_ifs at hy
    · obtain ⟨x, -, rfl⟩ := Option.map_eq_some_iff.mp hy
      rfl
    · exact h.lock d y hy hyo
  · exact ⟨fun d y hy => h.lock d y (Option.filter_eq_some_iff.mp hy).1, haway, h.entry, h.signal⟩

omit [DecidableEq ι] in
/-- A step of the manager that has not read the file brings it nearer to that. -/
theorem Quiet.managerStep (h : Quiet s) (hinv : LockInv s) (hnotice : s.noticeOnce = false)
    (hleft : 0 < s.manager.left) (hstep : lockManagerStep command ok s = some t) :
    (0 < t.manager.left ∧ t.manager.left + 1 = s.manager.left ∧ t.noticeOnce = false ∧ Quiet t) ∨
      t.Detected := by
  unfold lockManagerStep at hstep
  cases hm : s.manager with
  | calling =>
    obtain ⟨file, hfile⟩ := Option.ne_none_iff_exists'.mp h.entry
    have hopen : s.disk.openExisting none = some (s.disk.describe none file) := by
      rw [LockedFile.openExisting, hfile, Option.map_some]
    rw [hm] at hstep
    dsimp only at hstep
    rw [if_neg (by simp [hnotice]), hopen] at hstep
    cases hstep
    refine .inl ⟨Nat.succ_pos 1, rfl, hnotice, fun d x hx ho => ?_, h.users, h.entry, h.signal⟩
    rw [LockedFile.opened_describe] at hx
    split_ifs at hx
    · cases hx
      rfl
    · exact h.lock d x hx ho
  | opened fd =>
    obtain ⟨x, hx, ho, -⟩ := hinv.managerFd fd (by rw [hm]; rfl)
    have hadmits : s.disk.admits fd .exclusive = true := by
      rw [hinv.sound.admits_iff hx]
      intro e y hne hy _
      rw [LockedFile.FileLock.admits_exclusive]
      by_cases hyo : y.owner = none
      · have hfd := hinv.managerOwns e y hy hyo
        rw [hm] at hfd
        exact absurd (Option.some.inj hfd).symm hne
      · exact h.lock e y hy hyo
    simp only [hm, LockedFile.lock, hadmits, if_true] at hstep
    cases hstep
    refine .inl ⟨Nat.succ_pos 0, rfl, hnotice, fun d y hy hyo => ?_, h.users, h.entry, h.signal⟩
    rw [LockedFile.opened_change] at hy
    split_ifs at hy
    · rw [hx] at hy
      cases hy
      exact absurd ho hyo
    · exact h.lock d y hy hyo
  | locked fd =>
    simp only [hm] at hstep
    cases hstep
    exact .inr (.inr ⟨_, _, rfl⟩)
  | sleeping =>
    rw [hm] at hstep
    dsimp only at hstep
    rw [if_neg (by simp [h.signal])] at hstep
    cases hstep
    exact .inl ⟨Nat.succ_pos 2, rfl, hnotice, h.lock, h.users, h.entry, h.signal⟩
  | closing fd how | detected how | connected | waiting | leaving ret | ended =>
    rw [hm] at hleft
    exact absurd hleft (lt_irrefl 0)

/-- Who read the file has read it. -/
theorem detected_step {o : LockOp ι} (hs : s.Detected) (hidle : o.Idle)
    (hstep : lockStep command s o = some t) : t.Detected := by
  obtain hnotice | ⟨fd, how, hm⟩ := hs
  · exact .inl (noticeOnce_step hnotice hstep)
  cases o with
  | user i op =>
    obtain ⟨-, -, rfl⟩ | ⟨_, disk, -, -, -, rfl⟩ | ⟨u, -, rfl⟩ | ⟨_, count, -, -, rfl⟩ |
      ⟨_, -, -, rfl⟩ | ⟨-, -, rfl⟩ := lockUserStep_cases hstep <;> exact .inr ⟨fd, how, hm⟩
  | manager ok =>
    simp only [lockStep, lockManagerStep, hm] at hstep
    cases hstep
    exact .inl rfl
  | notice ok => exact .inr ⟨fd, how, (noticeStep_same hstep).2.2.trans hm⟩
  | signal | unlink | killManager => exact absurd hidle id

theorem detected_run {os : List (LockOp ι)} (hs : s.Detected) (hidle : ∀ o ∈ os, o.Idle)
    (hrun : run (lockStep command) s os = some t) : t.Detected := by
  induction os generalizing s with
  | nil =>
    cases hrun
    exact hs
  | cons o os ih =>
    obtain ⟨u, hu, hrest⟩ := run_cons_eq_some.mp hrun
    exact ih (detected_step hs (hidle o List.mem_cons_self) hu)
      (fun o ho => hidle o (List.mem_cons_of_mem _ ho)) hrest

/-- A step of another process leaves the manager where it is. -/
theorem Quiet.otherStep (h : Quiet s) (hinv : LockInv s) {o : LockOp ι} (hidle : o.Idle)
    (ho : o.isManager = false) (hstep : lockStep command s o = some t) :
    Quiet t ∧ t.manager = s.manager ∧ t.noticeOnce = s.noticeOnce := by
  cases o with
  | user i op =>
    refine ⟨h.userStep hinv hidle hstep, ?_⟩
    obtain ⟨-, -, rfl⟩ | ⟨_, disk, -, -, -, rfl⟩ | ⟨u, -, rfl⟩ | ⟨_, count, -, -, rfl⟩ |
      ⟨_, -, -, rfl⟩ | ⟨-, -, rfl⟩ := lockUserStep_cases hstep <;> exact ⟨rfl, rfl⟩
  | manager ok => cases ho
  | notice ok =>
    simp only [lockStep, noticeStep] at hstep
    repeat' split at hstep
    all_goals cases hstep
    all_goals exact ⟨⟨h.lock, h.users, h.entry, h.signal⟩, rfl, rfl⟩
  | signal | unlink | killManager => exact absurd hidle id

/-- **Once the users are gone, the manager reads the file within four of its steps**, however the others
take theirs. -/
theorem detect_ends {s₀ : LockSystem ι} {os₀ os : List (LockOp ι)} (hstart : s₀.Start)
    (hrun₀ : run (lockStep command) s₀ os₀ = some s)
    (hgone : ∀ i, (s.users i).pc = .outside ∨ (s.users i).pc = .ended)
    (hentry : s.disk.entry ≠ none) (hsignal : s.signalFlg = false) (hleft : 0 < s.manager.left)
    (hidle : ∀ o ∈ os, o.Idle) (hrun : run (lockStep command) s os = some t)
    (hsteps : 4 ≤ os.countP LockOp.isManager) : t.Detected := by
  have hinv := hstart.run_inv hrun₀
  have hquiet : Quiet s := by
    refine ⟨fun d x hx ho => ?_, fun i => ?_, hentry, hsignal⟩
    · obtain ⟨i, hi⟩ := Option.ne_none_iff_exists'.mp ho
      by_contra hl
      have hold := (hinv.userLock d x i hx hi hl).2.2
      obtain hpc | hpc := hgone i <;> · rw [hpc] at hold; cases hold
    · obtain hpc | hpc := hgone i <;> simp [hpc]
  have hle : s.manager.left ≤ os.countP LockOp.isManager := by
    refine le_trans ?_ hsteps
    cases s.manager <;> simp [LockManagerAt.left]
  by_cases hnotice : s.noticeOnce = true
  · exact .inl (run_invariant (fun _ _ _ h hstep => noticeOnce_step h hstep) hnotice hrun)
  rw [Bool.not_eq_true] at hnotice
  clear hstart hrun₀ hgone hentry hsignal hsteps
  induction os generalizing s with
  | nil => exact absurd hle (Nat.not_le.mpr hleft)
  | cons o os ih =>
    obtain ⟨u, hu, hrest⟩ := run_cons_eq_some.mp hrun
    have ho := hidle o List.mem_cons_self
    have hos : ∀ o ∈ os, o.Idle := fun o ho => hidle o (List.mem_cons_of_mem _ ho)
    rw [List.countP_cons] at hle
    cases hmanager : o.isManager with
    | false =>
      obtain ⟨hquiet', hm, hn⟩ := hquiet.otherStep hinv ho hmanager hu
      rw [hmanager] at hle
      exact ih (hm ▸ hleft) hos hrest (hinv.step hu) hquiet' (hm ▸ hle) (hn.trans hnotice)
    | true =>
      cases o with
      | manager ok =>
        obtain ⟨hpos, hm, hn, hquiet'⟩ | hdetected := hquiet.managerStep hinv hnotice hleft hu
        · rw [hmanager, if_pos rfl] at hle
          exact ih hpos hos hrest (hinv.step hu) hquiet' (by omega) hn
        · exact detected_run hdetected hos hrest
      | user i op | notice ok | signal | unlink | killManager => cases hmanager

/-- The only user is killed while the manager waits. -/
theorem detect_ends_killed :
    ∃ s t, run (lockStep prefixA) (lockStart : LockSystem Unit)
        [.user () (.openFile true), .user () (.lockFile true), .user () .kill] = some s ∧
      run (lockStep prefixA) s
        [.manager true, .manager true, .manager true, .manager true] = some t ∧ t.Detected := by
  have hkilled : (run (lockStep prefixA) (lockStart : LockSystem Unit)
      [.user () (.openFile true), .user () (.lockFile true), .user () .kill]).map (fun s =>
        (s.manager, s.disk.entry, s.signalFlg, (s.users ()).pc,
          (run (lockStep prefixA) s
            [.manager true, .manager true, .manager true, .manager true]).isSome)) =
      some (.calling, some 0, false, .ended, true) := rfl
  obtain ⟨s, hs, heq⟩ := Option.map_eq_some_iff.mp hkilled
  simp only [Prod.mk.injEq] at heq
  obtain ⟨hm, hentry, hsignal, hpc, hsome⟩ := heq
  obtain ⟨t, ht⟩ := Option.isSome_iff_exists.mp hsome
  refine ⟨s, t, hs, ht, detect_ends lockStart_start hs (fun _ => .inr hpc) ?_ hsignal ?_ ?_ ht ?_⟩
  · simp [hentry]
  · simp [hm, LockManagerAt.left]
  · simp [LockOp.Idle]
  · decide

end HardwareDrivers.Libfpga
