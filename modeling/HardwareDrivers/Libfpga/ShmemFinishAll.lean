import HardwareDrivers.Libfpga.ShmemTable

/-!
# Finishing all managers

`fpga_shmem_manager_finish_all` sends the signal to each manager that it finds below the limit, up
to the first that `kill` fails for, and then looks twenty times whether all pages are available.

## What is proved

* `managerFinish_eq` — `fpga_shmem_manager_finish` is a look for the pid, and a signal to it.
* `finishAll_reaps` — the call only clears entries.
-/

namespace HardwareDrivers.Libfpga

open Theory

/-! ### The call -/

/-- The pid that `fpga_shmem_manager_finish` finds for a prefix. -/
def finishPid (filePrefix : List (BitVec 8)) (s : ShmemManager) : Except ManagerErr ℤ :=
  match (List.range s.limit).find? fun i =>
      !(s.managerInfos i).filePrefix.isEmpty && prefixString s.managerInfos i = filePrefix with
  | none => .error (.code .mismatchFilePrefix)
  | some index =>
    if (s.managerInfos index).pid ≤ 0 then .error .fatalError
    else .ok (s.managerInfos index).pid

/-- The first loop of `fpga_shmem_manager_finish_all`: the pids that `kill` succeeded for, and the
error that it ended with. -/
def finishLoop (killed : ℤ → Bool) (s : ShmemManager) : List ℕ → List ℤ × Option ManagerErr
  | [] => ([], none)
  | i :: is =>
    if (s.managerInfos i).filePrefix.isEmpty then finishLoop killed s is
    else match finishPid (prefixString s.managerInfos i) s with
      | .error err => ([], some err)
      | .ok pid =>
        if !killed pid then ([], some (.code .failureSendSignal))
        else (pid :: (finishLoop killed s is).1, (finishLoop killed s is).2)

/-- The second loop, with so many tries left: whether all pages came to be available. -/
def waitAll (polls : ℕ → HealthEnv) : ℕ → ShmemManager → Bool × ShmemManager
  | 0, s => (false, s)
  | tries + 1, s =>
    let (pages, s) := fpgaShmemGetAvailablePages (polls tries) s
    if pages = s.hugepageLimit then (true, s) else waitAll polls tries s

/-- `max_cnt`. -/
abbrev maxCnt : ℕ := 20

/-- What happens around a call of `fpga_shmem_manager_finish_all`. -/
structure FinishAllEnv where
  /-- `kill` succeeds. -/
  killed : ℤ → Bool
  /-- In `fpga_shmem_get_available_pages`, with so many tries left. -/
  polls : ℕ → HealthEnv

/-- `fpga_shmem_manager_finish_all`. -/
def fpgaShmemManagerFinishAll (env : FinishAllEnv) (s : ShmemManager) :
    Except ManagerErr Unit × ShmemManager :=
  match (finishLoop env.killed s (List.range s.limit)).2 with
  | some err => (.error err, s)
  | none =>
    match waitAll env.polls maxCnt s with
    | (true, s) => (.ok (), s)
    | (false, s) => (.error .fatalError, s)

/-- `fpga_shmem_manager_finish` sends the signal to the pid. -/
theorem managerFinish_eq (p : CStr) (killed : Bool) (s : ShmemManager) :
    fpgaShmemManagerFinish (some p) killed s =
      match finishPid p.bytes s with
      | .error err => .error err
      | .ok _ => if killed then .ok () else .error (.code .failureSendSignal) := by
  unfold fpgaShmemManagerFinish finishPid
  dsimp only
  cases (List.range s.limit).find? fun i =>
      !(s.managerInfos i).filePrefix.isEmpty && prefixString s.managerInfos i = p.bytes with
  | none => rfl
  | some index =>
    dsimp only
    by_cases hpid : (s.managerInfos index).pid ≤ 0
    · rw [if_pos hpid, if_pos hpid]
    · rw [if_neg hpid, if_neg hpid]
      cases killed <;> rfl

/-! ### What it leaves -/

variable {s t : ShmemManager}

theorem waitAll_reaps (polls : ℕ → HealthEnv) (tries : ℕ) (s : ShmemManager) :
    Reaped s (waitAll polls tries s).2 := by
  induction tries generalizing s with
  | zero => exact .refl s
  | succ tries ih =>
    have hr := checkHealth_reaps (polls tries) s
    unfold waitAll fpgaShmemGetAvailablePages
    dsimp only
    split
    · exact hr
    · exact hr.trans (ih _)

/-- **The call only clears entries.** -/
theorem finishAll_reaps (env : FinishAllEnv) (s : ShmemManager) :
    Reaped s (fpgaShmemManagerFinishAll env s).2 := by
  have hr := waitAll_reaps env.polls maxCnt s
  unfold fpgaShmemManagerFinishAll
  cases (finishLoop env.killed s (List.range s.limit)).2 with
  | some err => exact .refl s
  | none =>
    dsimp only
    generalize waitAll env.polls maxCnt s = out at hr ⊢
    obtain ⟨done, t⟩ := out
    cases done <;> exact hr

/-! ### Runs -/

/-- A call of the library, or the ends of children. -/
inductive ManagerCall where
  /-- Other than `fpga_shmem_manager_finish_all`. -/
  | op (o : ManagerOp)
  /-- `fpga_shmem_manager_finish_all`. -/
  | finishAll (env : FinishAllEnv)

/-- What it does. -/
def ManagerCall.exec (s : ShmemManager) : ManagerCall → ShmemManager
  | .op o => o.exec s
  | .finishAll env => (fpgaShmemManagerFinishAll env s).2

/-- A step of a run. -/
def callStep (s : ShmemManager) (call : ManagerCall) : Option ShmemManager := some (call.exec s)

end HardwareDrivers.Libfpga
