import HardwareDrivers.Libfpga.ShmemErrorPrefix
import HardwareDrivers.Theory.Programs

/-!
# Stopping a manager that is in use

`fpga_shmem_disable_with_check` stops the manager of a prefix if that is among the prefixes of the
managers that reported an error, or if there is no lock file of the user. A manager reports an
error over a socket, and a thread appends its prefix to the list. Of the calls that stop managers
and start new ones only some delete the prefix.

The calls are programs of requests to the controller and accesses to the list and the lock file;
between two of these managers may end, report an error, and lock files come and go.

## What is proved

* `Settled.exec` — what a request or an access leaves, if managers start for prefixes that are not
  in the list.
* `Guarded.turn` — how far `fpga_shmem_disable_with_check` has come, and why it may go on.
* `stops_justified` — then no manager is stopped that is in use.
-/

namespace HardwareDrivers.Libfpga

open Theory

/-! ### The calls -/

/-- The errors of a call. -/
inductive ControllerErr where
  /-- One that other calls have, too. -/
  | lib (err : LibfpgaErr)
  /-- `-LIBFPGA_FATAL_ERROR`. -/
  | fatal

/-- What a call does outside. -/
inductive ShmemCmd where
  /-- The request `SHMEM_CTRL_CMD_START` or `SHMEM_CTRL_CMD_START_DEFAULT_SIZE`. -/
  | start (filePrefix : CStr)
  /-- The request `SHMEM_CTRL_CMD_STOP`. -/
  | stop (filePrefix : CStr)
  /-- The request `SHMEM_CTRL_CMD_GET_MANAGER_PID`. -/
  | getManagerPid (filePrefix : CStr)
  /-- `fpga_shmem_check_error_prefix`. -/
  | checkErrorPrefix (filePrefix : CStr)
  /-- `open` of the lock file. -/
  | openLock (filePrefix : CStr)
  /-- `fpga_shmem_delete_error_prefix`. -/
  | deleteErrorPrefix (filePrefix : CStr)
  deriving DecidableEq

/-- What it gets back. -/
abbrev ShmemCmd.Ans : ShmemCmd → Type
  | .start _ | .stop _ => Except ControllerErr Unit
  | .getManagerPid _ => Except ControllerErr ℤ
  | .checkErrorPrefix _ | .openLock _ => Bool
  | .deleteErrorPrefix _ => Unit

/-- A call. -/
abbrev ShmemProg : Type → Type := Prog ShmemCmd ShmemCmd.Ans

/-- `fpga_shmem_enable`, with a prefix. -/
def fpgaShmemEnable (filePrefix : CStr) : ShmemProg (Except ControllerErr Unit) :=
  .cmd (.start filePrefix) .done

/-- `fpga_shmem_disable`, with a prefix. -/
def fpgaShmemDisable (filePrefix : CStr) : ShmemProg (Except ControllerErr Unit) :=
  .cmd (.stop filePrefix) .done

/-- `fpga_shmem_check_inuse`, with somewhere to put the answer. -/
def fpgaShmemCheckInuse (filePrefix : CStr) : ShmemProg (Except ControllerErr Bool) :=
  .cmd (.getManagerPid filePrefix) fun ret => .done (ret.map fun pid => decide (0 < pid))

/-- `fpga_shmem_enable_with_check` after the manager reported an error. -/
def enableAfterError (filePrefix : CStr) : ShmemProg (Except ControllerErr Unit) := do
  match ← fpgaShmemDisable filePrefix with
  | .error err => pure (.error err)
  | .ok () =>
    match ← fpgaShmemCheckInuse filePrefix with
    | .error err => pure (.error err)
    | .ok true => pure (.error (.lib .failureEstablish))
    | .ok false => .cmd (.deleteErrorPrefix filePrefix) fun _ => fpgaShmemEnable filePrefix

/-- `fpga_shmem_enable_with_check`, with a prefix. -/
def fpgaShmemEnableWithCheck (filePrefix : CStr) : ShmemProg (Except ControllerErr Unit) := do
  match ← fpgaShmemEnable filePrefix with
  | .error err => pure (.error err)
  | .ok () =>
    match ← fpgaShmemCheckInuse filePrefix with
    | .error err => pure (.error err)
    | .ok false => fpgaShmemEnable filePrefix
    | .ok true => .cmd (.checkErrorPrefix filePrefix) fun isError =>
        if isError then enableAfterError filePrefix else pure (.ok ())

/-- `__fpga_shmem_disable_with_check` from `fpga_shmem_disable` on. -/
def disableNow (filePrefix : CStr) : ShmemProg (Except ControllerErr Unit) := do
  match ← fpgaShmemDisable filePrefix with
  | .error err => pure (.error err)
  | .ok () =>
    match ← fpgaShmemCheckInuse filePrefix with
    | .error err => pure (.error err)
    | .ok true => pure (.error .fatal)
    | .ok false => .cmd (.deleteErrorPrefix filePrefix) fun _ => pure (.ok ())

/-- From `open` of the lock file on. -/
def disableUnlessLocked (filePrefix : CStr) : ShmemProg (Except ControllerErr Unit) :=
  .cmd (.openLock filePrefix) fun opened =>
    if opened then pure (.error (.lib .invalidOperation)) else disableNow filePrefix

/-- From `fpga_shmem_check_error_prefix` on. -/
def disableIfError (filePrefix : CStr) (flagForced : Bool) : ShmemProg (Except ControllerErr Unit) :=
  .cmd (.checkErrorPrefix filePrefix) fun isError =>
    if !isError && !flagForced then disableUnlessLocked filePrefix else disableNow filePrefix

/-- `__fpga_shmem_disable_with_check`, with a prefix. -/
def shmemDisableWithCheck (filePrefix : CStr) (flagForced : Bool) :
    ShmemProg (Except ControllerErr Unit) := do
  match ← fpgaShmemCheckInuse filePrefix with
  | .error err => pure (.error err)
  | .ok false => pure (.ok ())
  | .ok true => disableIfError filePrefix flagForced

/-- A call of the library. -/
inductive ShmemCall where
  /-- `fpga_shmem_enable`. -/
  | enable (filePrefix : Option CStr)
  /-- `fpga_shmem_enable_with_check`. -/
  | enableWithCheck (filePrefix : Option CStr)
  /-- `fpga_shmem_disable`. -/
  | disable (filePrefix : Option CStr)
  /-- `fpga_shmem_disable_with_check`. -/
  | disableWithCheck (filePrefix : Option CStr)
  /-- `fpga_shmem_disable_forcibly`. -/
  | disableForcibly (filePrefix : Option CStr) (flagForced : Bool)

/-- What is done with a prefix; without one the call returns an error. -/
def withPrefix (filePrefix : Option CStr) (f : CStr → ShmemProg (Except ControllerErr Unit)) :
    ShmemProg (Except ControllerErr Unit) :=
  match filePrefix with
  | none => pure (.error (.lib .invalidArgument))
  | some filePrefix => f filePrefix

/-- What it does. -/
def ShmemCall.prog : ShmemCall → ShmemProg (Except ControllerErr Unit)
  | .enable filePrefix => withPrefix filePrefix fpgaShmemEnable
  | .enableWithCheck filePrefix => withPrefix filePrefix fpgaShmemEnableWithCheck
  | .disable filePrefix => withPrefix filePrefix fpgaShmemDisable
  | .disableWithCheck filePrefix => withPrefix filePrefix (shmemDisableWithCheck · false)
  | .disableForcibly filePrefix flagForced =>
    withPrefix filePrefix (shmemDisableWithCheck · flagForced)

/-- It stops a manager that is not in use only. -/
def ShmemCall.checked : ShmemCall → Bool
  | .disableWithCheck _ => true
  | .disableForcibly _ flagForced => !flagForced
  | _ => false

/-! ### Runs -/

/-- A request `SHMEM_CTRL_CMD_STOP` that was sent. -/
structure StopSent where
  /-- The prefix. -/
  filePrefix : CStr
  /-- The call stops a manager that is not in use only. -/
  checked : Bool
  /-- Since the manager of the prefix was started last, it sent an error notification. -/
  notified : Bool
  /-- There is a lock file of the prefix. -/
  locked : Bool

/-- The managers, the list, and the call under way. -/
structure Managers where
  /-- `fpga_shmem_fallingout_prefix_list`. -/
  errorPrefixes : PrefixList
  /-- A manager of the prefix runs. -/
  running : CStr → Bool
  /-- Since it was started last it sent an error notification. -/
  notified : CStr → Bool
  /-- The prefixes that were sent and not received. -/
  inFlight : List CStr
  /-- There is a lock file of the prefix. -/
  locked : CStr → Bool
  /-- The call stops a manager that is not in use only. -/
  checked : Bool
  /-- What the call is still to do. -/
  prog : ShmemProg (Except ControllerErr Unit)
  /-- The requests `SHMEM_CTRL_CMD_STOP`. -/
  stops : List StopSent
  /-- A call went beyond the array of the list. -/
  beyond : Bool

/-- What a request or an access meets. -/
structure CmdEnv where
  /-- What the request returns. -/
  ret : Except ControllerErr Unit
  /-- The pid that it stores. -/
  pid : ℤ
  /-- The prefix for which the controller starts a manager. -/
  started : Option CStr
  /-- `open` succeeds. -/
  opened : Bool

/-- The prefix that the controller finds in a command: all of it, or it goes on after the 64 bytes
of the field. -/
def Named (filePrefix taken : CStr) : Prop :=
  if filePrefix.bytes.length < shmemMaxHugepagePrefix then taken = filePrefix
  else filePrefix.bytes.take shmemMaxHugepagePrefix <+: taken.bytes

instance (filePrefix taken : CStr) : Decidable (Named filePrefix taken) := by
  unfold Named
  infer_instance

/-- A manager is started only where none runs, and only a file that exists is opened. -/
def CmdEnv.Fits (env : CmdEnv) (s : Managers) : ShmemCmd → Prop
  | .start filePrefix => ∀ taken ∈ env.started, Named filePrefix taken ∧ s.running taken = false
  | .openLock filePrefix => env.opened = true → s.locked filePrefix = true
  | _ => True

instance CmdEnv.decidableFits (env : CmdEnv) (s : Managers) (c : ShmemCmd) :
    Decidable (env.Fits s c) := by
  unfold CmdEnv.Fits
  split <;> infer_instance

/-- A request or an access. -/
def shmemExec (env : CmdEnv) (s : Managers) : (c : ShmemCmd) → c.Ans × Managers
  | .start _ =>
    (env.ret, match env.started with
      | none => s
      | some taken => { s with
          running := Function.update s.running taken true
          notified := Function.update s.notified taken false })
  | .stop filePrefix =>
    (env.ret, { s with
      stops := s.stops ++ [⟨filePrefix, s.checked, s.notified filePrefix, s.locked filePrefix⟩] })
  | .getManagerPid _ => (env.ret.map fun _ => env.pid, s)
  | .checkErrorPrefix filePrefix =>
    match fpgaShmemCheckErrorPrefix (some filePrefix) s.errorPrefixes with
    | some (.ok isExist) => (isExist, s)
    | _ => (false, { s with beyond := true })
  | .openLock _ => (env.opened, s)
  | .deleteErrorPrefix filePrefix =>
    match fpgaShmemDeleteErrorPrefix (some filePrefix) s.errorPrefixes with
    | some (_, errorPrefixes) => ((), { s with errorPrefixes })
    | none => ((), { s with beyond := true })

/-- What happens. -/
inductive ManagersOp where
  /-- A call begins. -/
  | call (c : ShmemCall)
  /-- It goes on by a request or an access. -/
  | turn (env : CmdEnv)
  /-- A manager ends. -/
  | exit (filePrefix : CStr)
  /-- A manager sends an error notification. -/
  | notify (filePrefix : CStr)
  /-- The thread receives one, or fails to. -/
  | arrive (filePrefix : CStr) (ok : Bool)
  /-- A lock file is created or deleted. -/
  | lock (filePrefix : CStr) (exist : Bool)

/-- What it does. -/
def managersStep (s : Managers) : ManagersOp → Option Managers
  | .call c =>
    match s.prog with
    | .done _ => some { s with checked := c.checked, prog := c.prog }
    | .cmd _ _ => none
  | .turn env =>
    match s.prog with
    | .done _ => none
    | .cmd c next =>
      if env.Fits s c then
        some { (shmemExec env s c).2 with prog := next (shmemExec env s c).1 }
      else none
  | .exit filePrefix =>
    if s.running filePrefix then
      some { s with running := Function.update s.running filePrefix false }
    else none
  | .notify filePrefix =>
    -- `notice_once`
    if s.running filePrefix ∧ s.notified filePrefix = false then
      some { s with
        notified := Function.update s.notified filePrefix true
        inFlight := filePrefix :: s.inFlight }
    else none
  | .arrive filePrefix ok =>
    if filePrefix ∈ s.inFlight then
      let s := { s with inFlight := s.inFlight.erase filePrefix }
      if ok then
        match fpgaShmemSetErrorPrefix (some filePrefix) s.errorPrefixes with
        | some (_, errorPrefixes) => some { s with errorPrefixes }
        | none => some { s with beyond := true }
      else some s
    else none
  | .lock filePrefix exist => some { s with locked := Function.update s.locked filePrefix exist }

/-- At the start. -/
def Managers.start : Managers :=
  ⟨none, fun _ => false, fun _ => false, [], fun _ => false, false, .done (.ok ()), [], false⟩

/-- A request to stop a manager was right. -/
def StopSent.Justified (e : StopSent) : Prop :=
  e.checked = true → e.notified = true ∨ e.locked = false

/-- No manager was stopped that is in use. -/
structure Managers.Sound (s : Managers) : Prop where
  /-- The manager reported an error, or there is no lock file. -/
  justified : ∀ e ∈ s.stops, e.Justified
  /-- All calls stayed in the array. -/
  within : s.beyond = false

/-- The prefix is in the list. -/
def Managers.reported (s : Managers) (filePrefix : CStr) : Bool :=
  match fpgaShmemCheckErrorPrefix (some filePrefix) s.errorPrefixes with
  | some (.ok isExist) => isExist
  | _ => false

/-- A manager is started for a prefix that is neither in the list nor on its way to it; the lock file
is not opened only where there is none, and is not created from then to the request; what is
deleted from the list is in it, or nothing is. -/
def Fresh (s : Managers) : ManagersOp → Prop
  | .turn env =>
    match s.prog.nextCmd with
    | some (.start _) => ∀ taken ∈ env.started,
      taken ∉ s.inFlight ∧ s.reported taken = false
    | some (.openLock filePrefix) => env.opened = false → s.locked filePrefix = false
    | some (.deleteErrorPrefix filePrefix) =>
      s.errorPrefixes = none ∨ s.reported filePrefix = true
    | _ => True
  | .lock filePrefix exist =>
    s.checked = true → exist = true → s.prog.nextCmd ≠ some (.stop filePrefix)
  | _ => True

instance decidableFresh (s : Managers) (op : ManagersOp) : Decidable (Fresh s op) := by
  unfold Fresh
  split
  · split <;> infer_instance
  · infer_instance
  · infer_instance

/-! ### The list -/

/-- The list holds prefixes of managers that reported an error since they were started. -/
structure Settled (s : Managers) : Prop extends s.Sound where
  /-- The prefixes in the list. -/
  stored : ∃ l, Stored s.errorPrefixes l ∧ ∀ p ∈ l, s.notified p = true
  /-- Those on their way to it. -/
  inFlight : ∀ p ∈ s.inFlight, s.notified p = true

variable {s t : Managers} {env : CmdEnv}

theorem reported_stored {l : List CStr} (h : Stored s.errorPrefixes l) (filePrefix : CStr) :
    s.reported filePrefix = decide (filePrefix ∈ l) := by
  simp [Managers.reported, checkErrorPrefix_stored h]

/-- Of a prefix in the list the manager reported an error. -/
theorem Settled.notified (h : Settled s) {filePrefix : CStr} (hp : s.reported filePrefix = true) :
    s.notified filePrefix = true := by
  obtain ⟨l, hl, hnotified⟩ := h.stored
  rw [reported_stored hl] at hp
  exact hnotified filePrefix (of_decide_eq_true hp)

/-- The list is read as it is. -/
theorem Settled.exec_check (h : Settled s) (filePrefix : CStr) :
    shmemExec env s (.checkErrorPrefix filePrefix) = (s.reported filePrefix, s) := by
  obtain ⟨l, hl, -⟩ := h.stored
  simp [shmemExec, Managers.reported, checkErrorPrefix_stored hl]

theorem mem_of_mem_eraseLast {a b : CStr} {l : List CStr} (h : b ∈ eraseLast a l) : b ∈ l := by
  unfold eraseLast at h
  rw [List.mem_reverse] at h
  exact List.mem_reverse.mp (List.mem_of_mem_erase h)

/-- A manager is started for a prefix that is not in the list. -/
theorem Settled.started (h : Settled s) {taken : CStr} (hflight : taken ∉ s.inFlight)
    (hlist : s.reported taken = false) :
    Settled { s with
      running := Function.update s.running taken true
      notified := Function.update s.notified taken false } := by
  obtain ⟨l, hl, hnotified⟩ := h.stored
  rw [reported_stored hl] at hlist
  have hkept : ∀ p, p ≠ taken → Function.update s.notified taken false p = s.notified p :=
    fun p hp => Function.update_of_ne hp ..
  refine ⟨⟨h.justified, h.within⟩, ⟨l, hl, fun p hp => ?_⟩, fun p hp => ?_⟩
  · exact (hkept p fun heq => of_decide_eq_false hlist (heq ▸ hp)).trans (hnotified p hp)
  · exact (hkept p fun heq => hflight (heq ▸ hp)).trans (h.inFlight p hp)

/-- **The list stays one of managers that reported an error.** -/
theorem Settled.exec (h : Settled s) {c : ShmemCmd} {next : c.Ans → ShmemProg _}
    (hprog : s.prog = .cmd c next) (hq : Fresh s (.turn env))
    (hstop : ∀ p, c = .stop p → s.checked = true → s.notified p = true ∨ s.locked p = false) :
    Settled (shmemExec env s c).2 := by
  simp only [Fresh, hprog, Prog.nextCmd] at hq
  cases c with
  | start filePrefix =>
    simp only [shmemExec]
    cases hstarted : env.started with
    | none => exact h
    | some taken =>
      obtain ⟨hflight, hlist⟩ := hq taken hstarted
      exact h.started hflight hlist
  | stop filePrefix =>
    refine ⟨⟨fun e he => ?_, h.within⟩, h.stored, h.inFlight⟩
    obtain he | rfl := List.mem_append.mp he |>.imp_right List.mem_singleton.mp
    · exact h.justified e he
    · exact hstop filePrefix rfl
  | getManagerPid _ => exact h
  | checkErrorPrefix filePrefix =>
    rw [h.exec_check]
    exact h
  | openLock _ => exact h
  | deleteErrorPrefix filePrefix =>
    obtain ⟨l, hl, hnotified⟩ := h.stored
    by_cases hp : filePrefix ∈ l
    · obtain ⟨list, hdelete, hstored⟩ := deleteErrorPrefix_stored hl hp
      simp only [shmemExec, hdelete]
      exact ⟨⟨h.justified, h.within⟩,
        ⟨_, hstored, fun p hp => hnotified p (mem_of_mem_eraseLast hp)⟩, h.inFlight⟩
    · have hnone : s.errorPrefixes = none :=
        Or.resolve_right hq (by simp [reported_stored hl, hp])
      simp only [shmemExec, hnone, fpgaShmemDeleteErrorPrefix]
      exact ⟨⟨h.justified, h.within⟩, ⟨[], .none, fun p hp => absurd hp List.not_mem_nil⟩,
        h.inFlight⟩

/-! ### How far a call has come -/

/-- It is not the request to stop a manager. -/
def NotStop (c : ShmemCmd) : Prop := ∀ filePrefix, c ≠ .stop filePrefix

/-- Where `fpga_shmem_disable_with_check` is, and why it may go on from there. -/
def Managers.Position (s : Managers) : Prop :=
  (∃ p, s.prog = shmemDisableWithCheck p false ∨ s.prog = disableIfError p false ∨
    s.prog = disableUnlessLocked p ∨
    s.prog = disableNow p ∧ (s.notified p = true ∨ s.locked p = false)) ∨
  s.prog.All NotStop

/-- What holds throughout a run in which everything is fresh. -/
structure Guarded (s : Managers) : Prop extends Settled s where
  /-- The call may go on. -/
  position : s.checked = true → s.Position

theorem guarded_start : Guarded Managers.start :=
  ⟨⟨⟨fun _ he => absurd he List.not_mem_nil, rfl⟩, ⟨[], .none, fun _ hp => absurd hp List.not_mem_nil⟩,
    fun _ hp => absurd hp List.not_mem_nil⟩, nofun⟩

/-- After the request no other is made. -/
theorem all_afterStop (filePrefix : CStr) (ret : Except ControllerErr Unit) :
    ∃ next, disableNow filePrefix = .cmd (.stop filePrefix) next ∧ (next ret).All NotStop := by
  refine ⟨_, rfl, ?_⟩
  cases ret with
  | error err => exact trivial
  | ok _ =>
    refine ⟨fun _ => nofun, fun ret => ?_⟩
    cases ret with
    | error err => exact trivial
    | ok pid =>
      by_cases hpid : 0 < pid
      · simp only [Except.map, hpid, decide_true, Prog.bind]
        exact trivial
      · simp only [Except.map, hpid, decide_false, Prog.bind]
        exact ⟨fun _ => nofun, fun _ => trivial⟩

/-- The request is made only where it is right. -/
theorem Managers.Position.stop (h : s.Position) {filePrefix : CStr}
    {next : ShmemCmd.Ans (.stop filePrefix) → ShmemProg _}
    (hprog : s.prog = .cmd (.stop filePrefix) next) :
    s.notified filePrefix = true ∨ s.locked filePrefix = false := by
  obtain ⟨p, hp | hp | hp | ⟨hp, hright⟩⟩ | hall := h
  · cases hprog.symm.trans hp
  · cases hprog.symm.trans hp
  · cases hprog.symm.trans hp
  · cases hprog.symm.trans hp
    exact hright
  · rw [hprog] at hall
    exact absurd rfl (hall.1 filePrefix)

theorem shmemExec_checked (env : CmdEnv) (s : Managers) (c : ShmemCmd) :
    (shmemExec env s c).2.checked = s.checked := by
  cases c with
  | start _ =>
    simp only [shmemExec]
    cases env.started <;> rfl
  | stop _ => rfl
  | getManagerPid _ => rfl
  | checkErrorPrefix _ =>
    simp only [shmemExec]
    split <;> rfl
  | openLock _ => rfl
  | deleteErrorPrefix _ =>
    simp only [shmemExec]
    split <;> rfl

/-- **A call goes on to the request only where that is right.** -/
theorem Managers.Position.turn (h : s.Position) (hs : Settled s) {c : ShmemCmd}
    {next : c.Ans → ShmemProg _} (hprog : s.prog = .cmd c next) (hq : Fresh s (.turn env)) :
    { (shmemExec env s c).2 with prog := next (shmemExec env s c).1 }.Position := by
  simp only [Fresh, hprog, Prog.nextCmd] at hq
  obtain ⟨p, hp | hp | hp | ⟨hp, -⟩⟩ | hall := h
  · -- the manager runs, or there is nothing to do
    cases hprog.symm.trans hp
    simp only [shmemExec]
    cases env.ret with
    | error err => exact .inr trivial
    | ok _ =>
      by_cases hpid : 0 < env.pid
      · refine .inl ⟨p, .inr (.inl ?_)⟩
        simp only [Except.map, hpid, decide_true, Prog.bind]
      · right
        simp only [Except.map, hpid, decide_false, Prog.bind]
        exact trivial
  · -- the manager reported an error, or that remains to be seen
    cases hprog.symm.trans hp
    rw [hs.exec_check]
    cases hreported : s.reported p with
    | true => exact .inl ⟨p, .inr (.inr (.inr ⟨rfl, .inl (hs.notified hreported)⟩))⟩
    | false => exact .inl ⟨p, .inr (.inr (.inl rfl))⟩
  · -- there is a lock file, or the manager is not in use
    cases hprog.symm.trans hp
    by_cases hopened : env.opened = true
    · right
      change Prog.All NotStop (if env.opened = true then pure _ else disableNow p)
      rw [if_pos hopened]
      exact trivial
    · have hlock : s.locked p = false := hq (by simpa using hopened)
      exact .inl ⟨p, .inr (.inr (.inr ⟨if_neg hopened, .inr hlock⟩))⟩
  · obtain ⟨next', hnow, hall⟩ := all_afterStop p (env.ret)
    rw [hnow] at hp
    cases hprog.symm.trans hp
    exact .inr hall
  · rw [hprog] at hall
    exact .inr (hall.2 _)

/-! ### Runs -/

/-- A call begins where it should. -/
theorem position_call (s : Managers) {c : ShmemCall} (h : c.checked = true) :
    { s with checked := c.checked, prog := c.prog }.Position := by
  cases c with
  | enable _ => cases h
  | enableWithCheck _ => cases h
  | disable _ => cases h
  | disableWithCheck filePrefix =>
    cases filePrefix with
    | none => exact .inr trivial
    | some p => exact .inl ⟨p, .inl rfl⟩
  | disableForcibly filePrefix flagForced =>
    obtain rfl : flagForced = false := by simpa [ShmemCall.checked] using h
    cases filePrefix with
    | none => exact .inr trivial
    | some p => exact .inl ⟨p, .inl rfl⟩

/-- A call goes on. -/
theorem Guarded.turn (h : Guarded s) (hq : Fresh s (.turn env))
    (ht : managersStep s (.turn env) = some t) : Guarded t := by
  simp only [managersStep] at ht
  cases hprog : s.prog with
  | done _ => simp [hprog] at ht
  | cmd c next =>
    simp only [hprog] at ht
    obtain ⟨-, heq⟩ := Option.ite_none_right_eq_some.mp ht
    cases heq
    have hsettled := h.toSettled.exec hprog hq fun p hp hchecked => by
      subst hp
      exact (h.position hchecked).stop hprog
    refine ⟨⟨⟨hsettled.justified, hsettled.within⟩, hsettled.stored, hsettled.inFlight⟩, ?_⟩
    intro hchecked
    rw [shmemExec_checked] at hchecked
    exact (h.position hchecked).turn h.toSettled hprog hq

/-- A manager sends an error notification. -/
theorem Guarded.notify (h : Guarded s) (filePrefix : CStr) :
    Guarded { s with
      notified := Function.update s.notified filePrefix true
      inFlight := filePrefix :: s.inFlight } := by
  have hmore : ∀ p, s.notified p = true → Function.update s.notified filePrefix true p = true := by
    intro p hp
    by_cases heq : p = filePrefix
    · rw [heq, Function.update_self]
    · rw [Function.update_of_ne heq, hp]
  obtain ⟨l, hl, hnotified⟩ := h.stored
  refine ⟨⟨⟨h.justified, h.within⟩, ⟨l, hl, fun p hp => hmore p (hnotified p hp)⟩, ?_⟩, ?_⟩
  · intro p hp
    obtain rfl | hp := List.mem_cons.mp hp
    · exact Function.update_self ..
    · exact hmore p (h.inFlight p hp)
  · intro hchecked
    refine (h.position hchecked).imp_left fun ⟨p, hp⟩ => ⟨p, ?_⟩
    exact hp.imp_right (Or.imp_right (Or.imp_right (And.imp_right (Or.imp_left (hmore p)))))

/-- It is received. -/
theorem Guarded.arrive (h : Guarded s) {filePrefix : CStr} {ok : Bool}
    (ht : managersStep s (.arrive filePrefix ok) = some t) : Guarded t := by
  obtain ⟨l, hl, hnotified⟩ := h.stored
  obtain ⟨list, hset, hstored⟩ := setErrorPrefix_stored hl filePrefix
  have hflight : ∀ p ∈ s.inFlight.erase filePrefix, s.notified p = true :=
    fun p hp => h.inFlight p (List.mem_of_mem_erase hp)
  simp only [managersStep, hset] at ht
  obtain ⟨hmem, ht⟩ := Option.ite_none_right_eq_some.mp ht
  cases ok with
  | true =>
    cases ht
    refine ⟨⟨⟨h.justified, h.within⟩, ⟨_, hstored, fun p hp => ?_⟩, hflight⟩, h.position⟩
    obtain hp | rfl := List.mem_append.mp hp |>.imp_right List.mem_singleton.mp
    · exact hnotified p hp
    · exact h.inFlight p hmem
  | false =>
    cases ht
    exact ⟨⟨⟨h.justified, h.within⟩, ⟨l, hl, hnotified⟩, hflight⟩, h.position⟩

/-- A lock file comes or goes. -/
theorem Guarded.lock (h : Guarded s) {filePrefix : CStr} {exist : Bool}
    (hq : Fresh s (.lock filePrefix exist)) :
    Guarded { s with locked := Function.update s.locked filePrefix exist } := by
  refine ⟨⟨⟨h.justified, h.within⟩, h.stored, h.inFlight⟩, fun hchecked => ?_⟩
  obtain ⟨p, hp | hp | hp | ⟨hp, hright⟩⟩ | hall := h.position hchecked
  · exact .inl ⟨p, .inl hp⟩
  · exact .inl ⟨p, .inr (.inl hp)⟩
  · exact .inl ⟨p, .inr (.inr (.inl hp))⟩
  · refine .inl ⟨p, .inr (.inr (.inr ⟨hp, hright.imp_right fun hlock => ?_⟩))⟩
    change Function.update s.locked filePrefix exist p = false
    by_cases heq : p = filePrefix
    · subst heq
      rw [Function.update_self]
      by_contra hexist
      exact hq hchecked (by simpa using hexist) (by rw [hp]; rfl)
    · rw [Function.update_of_ne heq, hlock]
  · exact .inr hall

/-- **The list is one of managers that reported an error, and a call is where it may go on.** -/
theorem Guarded.step (h : Guarded s) {op : ManagersOp} (hq : Fresh s op)
    (ht : managersStep s op = some t) : Guarded t := by
  cases op with
  | call c =>
    simp only [managersStep] at ht
    split at ht
    · cases ht
      exact ⟨⟨⟨h.justified, h.within⟩, h.stored, h.inFlight⟩, position_call s⟩
    · cases ht
  | turn env => exact h.turn hq ht
  | exit filePrefix =>
    obtain ⟨-, heq⟩ := Option.ite_none_right_eq_some.mp ht
    cases heq
    exact ⟨⟨⟨h.justified, h.within⟩, h.stored, h.inFlight⟩, h.position⟩
  | notify filePrefix =>
    obtain ⟨-, heq⟩ := Option.ite_none_right_eq_some.mp ht
    cases heq
    exact h.notify filePrefix
  | arrive filePrefix ok => exact h.arrive ht
  | lock filePrefix exist =>
    cases ht
    exact h.lock hq

/-- **In a run in which managers start for prefixes that are neither in the list nor on their way to
it, a lock file that exists is opened, none is created between that and the request, and what is
deleted from the list is in it, no manager is stopped that is in use.** -/
theorem stops_justified (ops : List ManagersOp)
    (hops : Along managersStep Fresh Managers.start ops) :
    Always managersStep Managers.Sound Managers.start ops := by
  have hguarded := always_of_along (fun _ _ _ h hq ht => Guarded.step h hq ht) guarded_start hops
  exact hguarded.mono fun _ h => h.toSound

/-! ### A prefix that was not deleted -/

/-- A request for a process, which succeeds. -/
def cmdPid (pid : ℤ) : CmdEnv := ⟨.ok (), pid, none, true⟩

/-- One that starts a manager. -/
def cmdStart (filePrefix : CStr) : CmdEnv := ⟨.ok (), 0, some filePrefix, true⟩

/-- A manager reports an error and is stopped, another is started for its prefix and is not stopped
while it is in use. -/
theorem stops_justified_again :
    Always managersStep Managers.Sound Managers.start
      [.call (.enable (some errorA)), .turn (cmdStart errorA), .notify errorA, .arrive errorA true,
        .lock errorA true, .call (.disableWithCheck (some errorA)), .turn (cmdPid 1),
        .turn (cmdPid 1), .turn (cmdPid 1), .exit errorA, .lock errorA false, .turn (cmdPid 0),
        .turn (cmdPid 0), .call (.enable (some errorA)), .turn (cmdStart errorA),
        .lock errorA true, .call (.disableWithCheck (some errorA)), .turn (cmdPid 1),
        .turn (cmdPid 1), .turn (cmdPid 1)] :=
  stops_justified _ (by
    rintro _ ⟨⟩
    refine ⟨trivial, ?_⟩
    rintro _ ⟨⟩
    refine ⟨by decide, ?_⟩
    rintro _ ⟨⟩
    refine ⟨trivial, ?_⟩
    rintro _ ⟨⟩
    refine ⟨trivial, ?_⟩
    rintro _ ⟨⟩
    refine ⟨by decide, ?_⟩
    rintro _ ⟨⟩
    refine ⟨trivial, ?_⟩
    rintro _ ⟨⟩
    refine ⟨by decide, ?_⟩
    rintro _ ⟨⟩
    refine ⟨by decide, ?_⟩
    rintro _ ⟨⟩
    refine ⟨by decide, ?_⟩
    rintro _ ⟨⟩
    refine ⟨trivial, ?_⟩
    rintro _ ⟨⟩
    refine ⟨by decide, ?_⟩
    rintro _ ⟨⟩
    refine ⟨by decide, ?_⟩
    rintro _ ⟨⟩
    refine ⟨by decide, ?_⟩
    rintro _ ⟨⟩
    refine ⟨trivial, ?_⟩
    rintro _ ⟨⟩
    refine ⟨by decide, ?_⟩
    rintro _ ⟨⟩
    refine ⟨by decide, ?_⟩
    rintro _ ⟨⟩
    refine ⟨trivial, ?_⟩
    rintro _ ⟨⟩
    refine ⟨by decide, ?_⟩
    rintro _ ⟨⟩
    refine ⟨by decide, ?_⟩
    rintro _ ⟨⟩
    exact ⟨by decide, trivial⟩)

/-- The prefix of a manager that reported an error and was stopped by `fpga_shmem_disable` stays in the
list: the next manager of the prefix, which reported none and has a user, is stopped. -/
theorem not_stops_justified_stale :
    ¬ Always managersStep (fun s => ∀ e ∈ s.stops, e.Justified) Managers.start
      [.call (.enable (some errorA)), .turn (cmdStart errorA), .notify errorA, .arrive errorA true,
        .call (.disable (some errorA)), .turn (cmdPid 0), .exit errorA,
        .call (.enable (some errorA)), .turn (cmdStart errorA), .lock errorA true,
        .call (.disableWithCheck (some errorA)), .turn (cmdPid 1), .turn (cmdPid 1),
        .turn (cmdPid 1)] := by
  intro h
  have hlast := h.last rfl ⟨errorA, true, false, true⟩ (.tail _ (.head _)) rfl
  exact absurd hlast (by decide)

end HardwareDrivers.Libfpga
