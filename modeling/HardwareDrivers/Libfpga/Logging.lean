import HardwareDrivers.Libfpga.DeviceTable
import HardwareDrivers.Theory.Decimals
import HardwareDrivers.Theory.Directory

/-!
# The log

A process logs into a file that it opens with its first message, or with the first after
`libfpga_log_reset_output_file`. The file has the time in its name. `__log_libfpga` tries to read
`libfpga-log-<time>.log`, `libfpga-log-<time>(1).log` and so on until one is not there, and then
opens that to append; another process may have opened it in between. A step is the try of a name
with its `fclose`, the opening of the file, or the message with its flush: a process has one thread
that logs.

## What is proved

* `logs_apart` — processes that look for a name at the same time do so in different seconds: then
  each has a file of its own, in which is what it logged, and old files stay as they are.
* `log_ends` — a message is done after as many steps as there are files, and two.
* `mixed_of_same_name` — two that find the same name free may share a file.
-/

namespace HardwareDrivers.Libfpga

open Theory

/-! ### The settings -/

/-- `LIBFPGA_LOG_PRINT`. -/
def libfpgaLogPrint : ℤ := 1

/-- `LIBFPGA_LOG_ERROR`. -/
def libfpgaLogError : ℤ := 2

/-- `LIBFPGA_LOG_WARN`. -/
def libfpgaLogWarn : ℤ := 3

/-- `LIBFPGA_LOG_INFO`. -/
def libfpgaLogInfo : ℤ := 4

/-- `LIBFPGA_LOG_DEBUG`. -/
def libfpgaLogDebug : ℤ := 5

/-- `enum FPGA_LOGGER_TIMESTAMP`. -/
inductive FpgaLoggerTimestamp where
  | invalid
  | on
  | off
  deriving DecidableEq

/-- `enum FPGA_LOGGER_STDOUT`. -/
inductive FpgaLoggerStdout where
  | invalid
  | on
  | off
  deriving DecidableEq

/-- `enum FPGA_LOGGER_FILE`. -/
inductive FpgaLoggerFile where
  | invalid
  | closed
  | opened
  | reopen
  deriving DecidableEq

/-- The static variables of the log. -/
structure Logger where
  /-- `libfpga_glevel`. -/
  glevel : ℤ
  /-- `libfpga_gtime`. -/
  gtime : FpgaLoggerTimestamp
  /-- `libfpga_stdout`. -/
  stdout : FpgaLoggerStdout
  /-- `libfpga_flag_create_file`. -/
  flagCreateFile : FpgaLoggerFile
  /-- `fp_logfile`: the file that it writes. -/
  fpLogfile : Option ℕ
  deriving DecidableEq

/-- What they are at first. -/
def Logger.initial : Logger := ⟨libfpgaLogError, .on, .off, .closed, none⟩

/-- `libfpga_log_set_level`. -/
def libfpgaLogSetLevel (level : ℤ) (l : Logger) : Logger := { l with glevel := level }

/-- `libfpga_log_set_timestamp`. -/
def libfpgaLogSetTimestamp (l : Logger) : Logger := { l with gtime := .on }

/-- `libfpga_log_quit_timestamp`. -/
def libfpgaLogQuitTimestamp (l : Logger) : Logger := { l with gtime := .off }

/-- `libfpga_log_set_output_stdout`. -/
def libfpgaLogSetOutputStdout (l : Logger) : Logger := { l with stdout := .on }

/-- `libfpga_log_quit_output_stdout`. -/
def libfpgaLogQuitOutputStdout (l : Logger) : Logger := { l with stdout := .off }

/-- `libfpga_log_reset_output_file`. -/
def libfpgaLogResetOutputFile (l : Logger) : Logger := { l with flagCreateFile := .reopen }

/-- What `getopt_long` finds. -/
inductive LogOption where
  /-- `--lib-loglevel`, and `atoi` of its argument. -/
  | level (level : ℤ)
  /-- `--set-timestamp`. -/
  | setTimestamp
  /-- `--quit-timestamp`. -/
  | quitTimestamp
  /-- `--set-output-stdout`. -/
  | setOutputStdout
  /-- `--set-output-file`. -/
  | setOutputFile

/-- What an option does. -/
def LogOption.apply : LogOption → Logger → Logger
  | .level n => libfpgaLogSetLevel n
  | .setTimestamp => libfpgaLogSetTimestamp
  | .quitTimestamp => libfpgaLogQuitTimestamp
  | .setOutputStdout => libfpgaLogSetOutputStdout
  | .setOutputFile => libfpgaLogQuitOutputStdout

/-! ### A message -/

/-- A time by `%m%d-%H%M%S`. -/
structure LogDate where
  /-- The text. -/
  text : CString
  /-- It has digits and a hyphen. -/
  plain : ∀ c ∈ text, (c.isDigit || c == '-') = true
  deriving DecidableEq

/-- A call of `log_libfpga`. -/
structure LogCall where
  /-- `level`. -/
  level : ℤ
  /-- What `vfprintf` makes of the format and its arguments. -/
  text : CString
  /-- The time, if a file is to be made. -/
  date : LogDate
  /-- The time by `%H:%M:%S`, before the message. -/
  clock : CString

/-- What `log_libfpga_cmdline_arg` prints behind the message. -/
def cmdlineText (argv : List CString) : CString :=
  "(argc(".toList ++ Nat.toDigits 10 argv.length ++ ")".toList ++
    (argv.zipIdx.flatMap fun (arg, i) =>
      ", argv[".toList ++ Nat.toDigits 10 i ++ "](".toList ++ arg ++ ")".toList) ++ ")\n".toList

/-- The call for `log_libfpga_cmdline_arg`, which prints all as `log_libfpga` prints the message. -/
def LogCall.withArgs (call : LogCall) (argv : List CString) : LogCall :=
  { call with text := call.text ++ cmdlineText argv }

/-- The level before a message. -/
def levelText (level : ℤ) : CString :=
  if level = libfpgaLogPrint then []
  else if level = libfpgaLogError then "[error] ".toList
  else if level = libfpgaLogWarn then "[warn]  ".toList
  else if level = libfpgaLogInfo then "[info]  ".toList
  else if level = libfpgaLogDebug then "[debug] ".toList
  else "[?????] ".toList

/-- The message with the time and the level before it. -/
def Logger.line (l : Logger) (call : LogCall) : CString :=
  (if l.gtime = .on then call.clock else []) ++ levelText call.level ++ call.text

/-- `filename`, which is tried after `index` others. -/
def logFilename (date : LogDate) (index : ℕ) : CString :=
  "libfpga-log-".toList ++ (date.text ++
    if index = 0 then ".log".toList
    else "(".toList ++ (Nat.toDigits 10 index ++ ").log".toList))

/-- The first line of a file. -/
def logStart (date : LogDate) : CString := "log start...".toList ++ date.text ++ "\n".toList

/-! ### The steps -/

/-- Where a process is. -/
inductive LogAt where
  /-- In none of the functions. -/
  | idle
  /-- At `fopen` of a name to read. -/
  | probing (call : LogCall) (index : ℕ)
  /-- At `fopen` of that name to append. -/
  | creating (call : LogCall) (index : ℕ)
  /-- At the flush of the message to `fp`, with what `fp` keeps back. -/
  | printing (call : LogCall) (fp : Option ℕ) (kept : CString)
  /-- It ended. -/
  | ended

/-- A process. -/
structure LogProcess where
  /-- Its variables. -/
  logger : Logger
  /-- Where it is. -/
  pc : LogAt
  /-- What it printed on its standard output. -/
  out : CString

/-- Processes and the directory they log into. -/
structure LogSystem (ι : Type*) where
  /-- The directory. -/
  dir : Directory CString Char
  /-- The processes. -/
  procs : ι → LogProcess
  /-- What a process wrote since it opened a file; nothing depends on it. -/
  written : ι → CString

/-- The beginning of `log_libfpga` and `__log_libfpga`. -/
def logLibfpga (call : LogCall) (l : Logger) : Logger × LogAt :=
  if call.level > l.glevel then (l, .idle)
  else if l.stdout = .on then (l, .printing call none [])
  else
    let l := if l.flagCreateFile = .reopen then { l with fpLogfile := none, flagCreateFile := .closed }
      else l
    if l.flagCreateFile = .closed then (l, .probing call 0)
    else match l.fpLogfile with
      -- the file could not be opened
      | none => (l, .idle)
      | some file => (l, .printing call (some file) [])

/-- `libfpga_log_parse_args`: the options until one that is unknown, of which `call` tells. -/
def libfpgaLogParseArgs (call : LogCall) : List (Option LogOption) → Logger → Logger × LogAt
  | [], l => (l, .idle)
  | some option :: options, l => libfpgaLogParseArgs call options (option.apply l)
  | none :: _, l => logLibfpga { call with level := libfpgaLogError } l

/-- A step of the processes. -/
inductive LogOp (ι : Type*) where
  /-- `log_libfpga`. -/
  | log (i : ι) (call : LogCall)
  /-- `libfpga_log_parse_args`, or one of the functions for the settings. -/
  | args (i : ι) (options : List (Option LogOption)) (call : LogCall)
  /-- `libfpga_log_reset_output_file`. -/
  | reset (i : ι)
  /-- The next step, and how its call fails. -/
  | turn (i : ι) (errno : Option ℕ)
  /-- The process ends. -/
  | kill (i : ι)
  /-- Another program opens a name, or makes a file of it. -/
  | create (name : CString)
  /-- Another program removes a name. -/
  | remove (name : CString)

variable {ι : Type*} [DecidableEq ι]

/-- A process is somewhere else. -/
def LogSystem.goto (i : ι) (x : Logger × LogAt) (out : CString) (s : LogSystem ι) : LogSystem ι :=
  { s with procs := Function.update s.procs i ⟨x.1, x.2, (s.procs i).out ++ out⟩ }

/-- A process writes at the end of the file it has open. -/
def LogSystem.write (i : ι) (file : ℕ) (text : CString) (s : LogSystem ι) : LogSystem ι :=
  { s with
    dir := s.dir.append file text
    written := Function.update s.written i (s.written i ++ text) }

/-- What `log_libfpga` prints on the standard output besides. -/
def Logger.printed (l : Logger) (call : LogCall) : CString :=
  if call.level = libfpgaLogPrint ∧ l.stdout = .off then call.text else []

/-- The next system call of a process. -/
def logTurn (i : ι) (errno : Option ℕ) (s : LogSystem ι) : Option (LogSystem ι) :=
  let l := (s.procs i).logger
  match (s.procs i).pc with
  | .probing call index =>
    match s.dir.entry (logFilename call.date index), errno with
    | some _, none => some (s.goto i (l, .probing call (index + 1)) [])
    | _, _ => some (s.goto i (l, .creating call index) [])
  | .creating call index =>
    let name := logFilename call.date index
    match errno with
    | some errno =>
      some (s.goto i ({ l with fpLogfile := none, flagCreateFile := .opened }, .idle)
        ("file open error[".toList ++ Nat.toDigits 10 errno ++ "]\n".toList))
    | none =>
      let file := s.dir.fileOf name
      some { s.goto i ({ l with fpLogfile := some file, flagCreateFile := .opened },
          .printing call (some file) (logStart call.date)) ("logfile = ".toList ++ name ++ "\n".toList) with
        dir := s.dir.create name
        written := Function.update s.written i [] }
  | .printing call (some file) kept =>
    some ((s.write i file (kept ++ l.line call)).goto i (l, .idle) (l.printed call))
  | .printing call none kept => some (s.goto i (l, .idle) (kept ++ l.line call ++ l.printed call))
  | .idle | .ended => none

/-- A call of a function of the log, by a process that is in none. -/
def LogSystem.call (i : ι) (f : Logger → Logger × LogAt) (s : LogSystem ι) : Option (LogSystem ι) :=
  match (s.procs i).pc with
  | .idle => some (s.goto i (f (s.procs i).logger) [])
  | _ => none

/-- A step. -/
def logStep (s : LogSystem ι) : LogOp ι → Option (LogSystem ι)
  | .log i call => s.call i (logLibfpga call)
  | .args i options call => s.call i (libfpgaLogParseArgs call options)
  | .reset i => s.call i fun l => (libfpgaLogResetOutputFile l, .idle)
  | .turn i errno => logTurn i errno s
  | .kill i => some (s.goto i ((s.procs i).logger, .ended) [])
  | .create name => some { s with dir := s.dir.create name }
  | .remove name => some { s with dir := s.dir.remove name }

/-! ### What a step can be -/

variable {s t : LogSystem ι} {o : LogOp ι} {i : ι} {call : LogCall} {l : Logger} {x : Logger × LogAt}

/-- Where a function of the log can take a process that is in none: the file stays the one it was, or
there is none. -/
structure LogBegins (l : Logger) (x : Logger × LogAt) : Prop where
  /-- The file. -/
  file : ∀ f, x.1.fpLogfile = some f → l.fpLogfile = some f
  /-- A message goes to it. -/
  target : ∀ call f kept, x.2 = .printing call (some f) kept → x.1.fpLogfile = some f
  /-- No name was found yet. -/
  name : ∀ call index, x.2 ≠ .creating call index

theorem logLibfpga_begins (call : LogCall) (l : Logger) : LogBegins l (logLibfpga call l) := by
  unfold logLibfpga
  split_ifs with hlevel hout hreopen
  · exact ⟨fun _ h => h, by simp, by simp⟩
  · exact ⟨fun _ h => h, by simp, by simp⟩
  · exact ⟨by simp, by simp, by simp⟩
  · dsimp only
    split_ifs with hclosed
    · exact ⟨fun _ h => h, by simp, by simp⟩
    · cases hf : l.fpLogfile with
      | none => exact ⟨by simp [hf], by simp, by simp⟩
      | some file =>
        refine ⟨by simp [hf], fun _ _ _ h => ?_, by simp⟩
        cases h
        exact hf

theorem LogOption.apply_fpLogfile (option : LogOption) (l : Logger) :
    (option.apply l).fpLogfile = l.fpLogfile := by
  cases option <;> rfl

theorem libfpgaLogParseArgs_begins (call : LogCall) (options : List (Option LogOption)) (l : Logger) :
    LogBegins l (libfpgaLogParseArgs call options l) := by
  induction options generalizing l with
  | nil => exact ⟨fun _ h => h, by simp [libfpgaLogParseArgs], by simp [libfpgaLogParseArgs]⟩
  | cons option options ih =>
    cases option with
    | none => exact logLibfpga_begins ..
    | some option =>
      have h := ih (option.apply l)
      exact ⟨fun f hf => option.apply_fpLogfile l ▸ h.file f hf, h.target, h.name⟩

theorem call_eq_some {f : Logger → Logger × LogAt} (h : s.call i f = some t) :
    (s.procs i).pc = .idle ∧ t = s.goto i (f (s.procs i).logger) [] := by
  unfold LogSystem.call at h
  split at h
  · rename_i hpc
    exact ⟨hpc, (Option.some.inj h).symm⟩
  · cases h

/-- What a system call of a process can be. -/
theorem logTurn_cases {errno : Option ℕ} (h : logTurn i errno s = some t) :
    (∃ call index file, (s.procs i).pc = .probing call index ∧
      s.dir.entry (logFilename call.date index) = some file ∧ errno = none ∧
      t = s.goto i ((s.procs i).logger, .probing call (index + 1)) []) ∨
    (∃ call index, (s.procs i).pc = .probing call index ∧
      (s.dir.entry (logFilename call.date index) = none ∨ errno ≠ none) ∧
      t = s.goto i ((s.procs i).logger, .creating call index) []) ∨
    (∃ call index out, (s.procs i).pc = .creating call index ∧
      t = s.goto i ({ (s.procs i).logger with fpLogfile := none, flagCreateFile := .opened }, .idle)
        out) ∨
    (∃ call index out, (s.procs i).pc = .creating call index ∧
      t = { s.goto i ({ (s.procs i).logger with
          fpLogfile := some (s.dir.fileOf (logFilename call.date index)), flagCreateFile := .opened },
          .printing call (some (s.dir.fileOf (logFilename call.date index))) (logStart call.date))
          out with
        dir := s.dir.create (logFilename call.date index)
        written := Function.update s.written i [] }) ∨
    (∃ call file kept out, (s.procs i).pc = .printing call (some file) kept ∧
      t = (s.write i file (kept ++ (s.procs i).logger.line call)).goto i
        ((s.procs i).logger, .idle) out) ∨
    (∃ call kept out, (s.procs i).pc = .printing call none kept ∧
      t = s.goto i ((s.procs i).logger, .idle) out) := by
  unfold logTurn at h
  cases hpc : (s.procs i).pc with
  | idle | ended =>
    rw [hpc] at h
    cases h
  | probing call index =>
    simp only [hpc] at h
    cases hentry : s.dir.entry (logFilename call.date index) with
    | none =>
      rw [hentry] at h
      cases h
      exact .inr (.inl ⟨call, index, rfl, .inl hentry, rfl⟩)
    | some file =>
      rw [hentry] at h
      cases errno with
      | none =>
        cases h
        exact .inl ⟨call, index, file, rfl, hentry, rfl, rfl⟩
      | some errno =>
        cases h
        exact .inr (.inl ⟨call, index, rfl, .inr (by simp), rfl⟩)
  | creating call index =>
    simp only [hpc] at h
    cases errno with
    | none =>
      cases h
      exact .inr (.inr (.inr (.inl ⟨call, index, _, rfl, rfl⟩)))
    | some errno =>
      cases h
      exact .inr (.inr (.inl ⟨call, index, _, rfl, rfl⟩))
  | printing call fp kept =>
    cases fp with
    | none =>
      simp only [hpc] at h
      cases h
      exact .inr (.inr (.inr (.inr (.inr ⟨call, kept, _, rfl, rfl⟩))))
    | some file =>
      simp only [hpc] at h
      cases h
      exact .inr (.inr (.inr (.inr (.inl ⟨call, file, kept, _, rfl, rfl⟩))))

/-! ### What holds of the files -/

/-- The time for which a process looks for a name. -/
def LogAt.date : LogAt → Option CString
  | .probing call _ | .creating call _ => some call.date.text
  | _ => none

/-- What makes a step fair: nobody looks for a name in the same second as another, a file that is there
can be read, and no other program makes a file of a name that was found free. -/
structure LogSystem.Fair (s : LogSystem ι) (o : LogOp ι) : Prop where
  /-- The seconds differ. -/
  seconds : ∀ i j date, i ≠ j → (s.procs i).pc.date = some date → (s.procs j).pc.date ≠ some date
  /-- What is there is found. -/
  reads : ∀ i errno call index, o = .turn i (some errno) → (s.procs i).pc = .probing call index →
    s.dir.entry (logFilename call.date index) = none
  /-- What was found free is left alone. -/
  leaves : ∀ i call index, (s.procs i).pc = .creating call index →
    o ≠ .create (logFilename call.date index)

/-- Nothing was logged yet. -/
structure LogSystem.Start (s : LogSystem ι) : Prop where
  /-- There may be files. -/
  sound : s.dir.Sound
  /-- The processes begin. -/
  procs : ∀ i, s.procs i = ⟨.initial, .idle, []⟩

/-- What holds in a fair run. -/
structure LogInv (s : LogSystem ι) : Prop where
  /-- Of the directory. -/
  sound : s.dir.Sound
  /-- The files that are open were made. -/
  lt : ∀ i f, (s.procs i).logger.fpLogfile = some f → f < s.dir.files
  /-- They are different. -/
  apart : ∀ i j f, (s.procs i).logger.fpLogfile = some f → (s.procs j).logger.fpLogfile = some f → i = j
  /-- In them is what was written. -/
  content : ∀ i f, (s.procs i).logger.fpLogfile = some f → s.dir.content f = s.written i
  /-- A message goes to the file. -/
  target : ∀ i call f kept, (s.procs i).pc = .printing call (some f) kept →
    (s.procs i).logger.fpLogfile = some f
  /-- A name that was found free is free. -/
  free : ∀ i call index, (s.procs i).pc = .creating call index →
    s.dir.entry (logFilename call.date index) = none

/-! ### The names -/

theorem takeWhile_date (date : LogDate) {rest : CString}
    (hrest : rest.takeWhile (fun c => c.isDigit || c == '-') = []) :
    (date.text ++ rest).takeWhile (fun c => c.isDigit || c == '-') = date.text := by
  rw [List.takeWhile_append_of_pos date.plain, hrest, List.append_nil]

/-- A name tells for which time and after how many others it was tried. -/
theorem logFilename_inj {date date' : LogDate} {index index' : ℕ}
    (h : logFilename date index = logFilename date' index') : date.text = date'.text ∧ index = index' := by
  have h := List.append_cancel_left h
  have hrest : ∀ index : ℕ, (if index = 0 then ".log".toList
      else "(".toList ++ (Nat.toDigits 10 index ++ ").log".toList)).takeWhile
        (fun c => c.isDigit || c == '-') = [] := by
    intro index
    split <;> rfl
  have hdate : date.text = date'.text := by
    rw [← takeWhile_date date (hrest index), h, takeWhile_date date' (hrest index')]
  rw [hdate] at h
  have h := List.append_cancel_left h
  refine ⟨hdate, ?_⟩
  by_cases h0 : index = 0 <;> by_cases h0' : index' = 0
  · rw [h0, h0']
  · rw [if_pos h0, if_neg h0'] at h
    cases h
  · rw [if_neg h0, if_pos h0'] at h
    cases h
  · rw [if_neg h0, if_neg h0'] at h
    exact Decimals.toDigits_inj (Decimals.append_inj (fun _ => Decimals.isDigit_of_mem)
      (fun _ => Decimals.isDigit_of_mem) (by simp) (by simp) (List.append_cancel_left h)).1

/-! ### Each step keeps it -/

variable {out : CString}

@[simp] theorem goto_procs_self : (s.goto i x out).procs i = ⟨x.1, x.2, (s.procs i).out ++ out⟩ :=
  Function.update_self ..

theorem goto_procs_of_ne {j : ι} (h : j ≠ i) : (s.goto i x out).procs j = s.procs j :=
  Function.update_of_ne h ..

/-- A process goes somewhere else, and its file stays open or not. -/
theorem LogInv.goto (h : LogInv s) (hfile : ∀ f, x.1.fpLogfile = some f →
      (s.procs i).logger.fpLogfile = some f)
    (htarget : ∀ call f kept, x.2 = .printing call (some f) kept → x.1.fpLogfile = some f)
    (hfree : ∀ call index, x.2 = .creating call index →
      s.dir.entry (logFilename call.date index) = none) : LogInv (s.goto i x out) := by
  have hfiles : ∀ j f, ((s.goto i x out).procs j).logger.fpLogfile = some f →
      (s.procs j).logger.fpLogfile = some f := by
    intro j f hj
    by_cases hji : j = i
    · subst hji
      exact hfile f (by simpa using hj)
    · rwa [goto_procs_of_ne hji] at hj
  refine ⟨h.sound, fun j f hj => h.lt j f (hfiles j f hj), fun j k f hj hk =>
    h.apart j k f (hfiles j f hj) (hfiles k f hk), fun j f hj => h.content j f (hfiles j f hj), ?_, ?_⟩
  · intro j call f kept hj
    by_cases hji : j = i
    · subst hji
      rw [goto_procs_self] at hj ⊢
      exact htarget call f kept hj
    · rw [goto_procs_of_ne hji] at hj ⊢
      exact h.target j call f kept hj
  · intro j call index hj
    by_cases hji : j = i
    · subst hji
      rw [goto_procs_self] at hj
      exact hfree call index hj
    · rw [goto_procs_of_ne hji] at hj
      exact h.free j call index hj

theorem LogInv.goto_of_begins (h : LogInv s) (hx : LogBegins (s.procs i).logger x) :
    LogInv (s.goto i x out) :=
  h.goto hx.file hx.target fun call index hpc => absurd hpc (hx.name call index)

/-- A process writes in its file. -/
theorem LogInv.write (h : LogInv s) {file : ℕ} {text : CString}
    (hfile : (s.procs i).logger.fpLogfile = some file) : LogInv (s.write i file text) := by
  refine ⟨h.sound.append, h.lt, h.apart, fun j f hj => ?_, h.target, h.free⟩
  change (s.dir.append file text).content f = Function.update s.written i _ j
  by_cases hji : j = i
  · subst hji
    cases hfile.symm.trans hj
    rw [Directory.append_content_self, Function.update_self, h.content j file hj]
  · have hne : f ≠ file := fun heq => hji (h.apart j i f hj (heq ▸ hfile))
    rw [Directory.append_content_of_ne hne, Function.update_of_ne hji, h.content j f hj]

/-- A process opens a name that is free, and that no other has found free. -/
theorem LogInv.create (h : LogInv s) {name : CString} (hfree : s.dir.entry name = none)
    (hleaves : ∀ j call index, j ≠ i → (s.procs j).pc = .creating call index →
      logFilename call.date index ≠ name)
    (hfile : x.1.fpLogfile = some (s.dir.fileOf name))
    (hpc : ∃ call kept, x.2 = .printing call (some (s.dir.fileOf name)) kept) :
    LogInv { s.goto i x out with
      dir := s.dir.create name
      written := Function.update s.written i [] } := by
  obtain ⟨call, kept, hpc⟩ := hpc
  rw [Directory.fileOf_free hfree] at hfile hpc
  have hother : ∀ {j}, j ≠ i → (s.goto i x out).procs j = s.procs j := goto_procs_of_ne
  have hmade : ∀ j f, ((s.goto i x out).procs j).logger.fpLogfile = some f →
      j = i ∧ f = s.dir.files ∨ j ≠ i ∧ (s.procs j).logger.fpLogfile = some f ∧ f < s.dir.files := by
    intro j f hj
    by_cases hji : j = i
    · subst hji
      rw [goto_procs_self] at hj
      exact .inl ⟨rfl, Option.some.inj (hj.symm.trans hfile)⟩
    · rw [hother hji] at hj
      exact .inr ⟨hji, hj, h.lt j f hj⟩
  refine ⟨h.sound.create, fun j f hj => ?_, fun j k f hj hk => ?_, fun j f hj => ?_, ?_, ?_⟩
  · rw [Directory.create_files_free hfree]
    obtain ⟨-, rfl⟩ | ⟨-, -, hlt⟩ := hmade j f hj
    · exact Nat.lt_succ_self _
    · exact hlt.trans (Nat.lt_succ_self _)
  · obtain ⟨rfl, hf⟩ | ⟨-, hj, hlt⟩ := hmade j f hj <;>
      obtain ⟨rfl, hf'⟩ | ⟨-, hk, hlt'⟩ := hmade k f hk
    · rfl
    · omega
    · omega
    · exact h.apart j k f hj hk
  · change (s.dir.create name).content f = Function.update s.written i [] j
    obtain ⟨rfl, rfl⟩ | ⟨hji, hj, hlt⟩ := hmade j f hj
    · rw [Directory.create_content_free hfree, Function.update_self]
    · rw [Directory.create_content_of_lt hlt, Function.update_of_ne hji, h.content j f hj]
  · intro j call' f kept' hj
    by_cases hji : j = i
    · subst hji
      change ((s.goto j x out).procs j).pc = _ at hj
      change ((s.goto j x out).procs j).logger.fpLogfile = _
      rw [goto_procs_self] at hj ⊢
      cases hpc.symm.trans hj
      exact hfile
    · change ((s.goto i x out).procs j).pc = _ at hj
      change ((s.goto i x out).procs j).logger.fpLogfile = _
      rw [hother hji] at hj ⊢
      exact h.target j call' f kept' hj
  · intro j call' index hj
    change ((s.goto i x out).procs j).pc = _ at hj
    by_cases hji : j = i
    · subst hji
      rw [goto_procs_self] at hj
      cases hpc.symm.trans hj
    · rw [hother hji] at hj
      change (s.dir.create name).entry _ = none
      rw [Directory.create_entry_of_ne (hleaves j call' index hji hj)]
      exact h.free j call' index hj

theorem LogInv.step (h : LogInv s) (hfair : s.Fair o) (hstep : logStep s o = some t) : LogInv t := by
  cases o with
  | log i call =>
    obtain ⟨-, rfl⟩ := call_eq_some hstep
    exact h.goto_of_begins (logLibfpga_begins ..)
  | args i options call =>
    obtain ⟨-, rfl⟩ := call_eq_some hstep
    exact h.goto_of_begins (libfpgaLogParseArgs_begins ..)
  | reset i =>
    simp only [logStep] at hstep
    obtain ⟨-, rfl⟩ := call_eq_some hstep
    exact h.goto_of_begins ⟨fun _ hf => hf, by simp, by simp⟩
  | turn i errno =>
    obtain ⟨call, index, file, hpc, hentry, -, rfl⟩ | ⟨call, index, hpc, hno, rfl⟩ |
      ⟨call, index, out, hpc, rfl⟩ | ⟨call, index, out, hpc, rfl⟩ | ⟨call, file, kept, out, hpc, rfl⟩ |
      ⟨call, kept, out, hpc, rfl⟩ := logTurn_cases hstep
    · exact h.goto (fun _ hf => hf) (by simp) (by simp)
    · refine h.goto (fun _ hf => hf) (by simp) fun call' index' hx => ?_
      cases hx
      obtain hfree | hfails := hno
      · exact hfree
      · obtain ⟨e, rfl⟩ := Option.ne_none_iff_exists'.mp hfails
        exact hfair.reads i e call index rfl hpc
    · exact h.goto (by simp) (by simp) (by simp)
    · refine h.create (h.free i call index hpc) (fun j call' index' hji hj heq => ?_) rfl ⟨_, _, rfl⟩
      have hdate := (logFilename_inj heq).1
      exact hfair.seconds j i _ hji (by rw [hj]; rfl) (by rw [hpc, hdate]; rfl)
    · exact (h.write (h.target i call file kept hpc)).goto (fun _ hf => hf) (by simp) (by simp)
    · exact h.goto (fun _ hf => hf) (by simp) (by simp)
  | kill i =>
    cases hstep
    exact h.goto (fun _ hf => hf) (by simp) (by simp)
  | create name =>
    cases hstep
    refine ⟨h.sound.create, fun j f hj => (h.lt j f hj).trans_le Directory.files_le_create, h.apart,
      fun j f hj => ?_, h.target, fun j call index hj => ?_⟩
    · exact (Directory.create_content_of_lt (h.lt j f hj)).trans (h.content j f hj)
    · have hne : logFilename call.date index ≠ name := fun heq => hfair.leaves j call index hj (heq ▸ rfl)
      exact (Directory.create_entry_of_ne hne).trans (h.free j call index hj)
  | remove name =>
    cases hstep
    refine ⟨h.sound.remove, h.lt, h.apart, h.content, h.target, fun j call index hj => ?_⟩
    cases hentry : (s.dir.remove name).entry (logFilename call.date index) with
    | none => rfl
    | some f => exact absurd (Directory.remove_entry hentry) (by simp [h.free j call index hj])

omit [DecidableEq ι] in
theorem LogSystem.Start.inv (h : s.Start) : LogInv s := by
  refine ⟨h.sound, ?_, ?_, ?_, ?_, ?_⟩ <;> simp [h.procs, Logger.initial]

/-! ### Files of their own -/

/-- A file that nobody writes. -/
def LogSystem.Left (s : LogSystem ι) (f : ℕ) : Prop :=
  f < s.dir.files ∧ ∀ i, (s.procs i).logger.fpLogfile ≠ some f

theorem left_goto {f : ℕ} (h : s.Left f)
    (hfile : ∀ f, x.1.fpLogfile = some f → (s.procs i).logger.fpLogfile = some f ∨ f = s.dir.files) :
    ∀ j, ((s.goto i x out).procs j).logger.fpLogfile ≠ some f := by
  intro j hj
  by_cases hji : j = i
  · subst hji
    rw [goto_procs_self] at hj
    obtain hf | rfl := hfile f hj
    · exact h.2 j hf
    · exact lt_irrefl _ h.1
  · rw [goto_procs_of_ne hji] at hj
    exact h.2 j hj

/-- What nobody writes stays as it is. -/
theorem left_step {f : ℕ} (hinv : LogInv s) (h : s.Left f) (hstep : logStep s o = some t) :
    t.Left f ∧ t.dir.content f = s.dir.content f := by
  have hbegins : ∀ {i x out}, LogBegins (s.procs i).logger x → (s.goto i x out).Left f ∧
      (s.goto i x out).dir.content f = s.dir.content f := fun hx =>
    ⟨⟨h.1, left_goto h fun f hf => .inl (hx.file f hf)⟩, rfl⟩
  have hgoto : ∀ {i x out}, (∀ f, x.1.fpLogfile = some f → (s.procs i).logger.fpLogfile = some f) →
      (s.goto i x out).Left f ∧ (s.goto i x out).dir.content f = s.dir.content f := fun hx =>
    ⟨⟨h.1, left_goto h fun f hf => .inl (hx f hf)⟩, rfl⟩
  cases o with
  | log i call =>
    obtain ⟨-, rfl⟩ := call_eq_some hstep
    exact hbegins (logLibfpga_begins ..)
  | args i options call =>
    obtain ⟨-, rfl⟩ := call_eq_some hstep
    exact hbegins (libfpgaLogParseArgs_begins ..)
  | reset i =>
    simp only [logStep] at hstep
    obtain ⟨-, rfl⟩ := call_eq_some hstep
    exact hgoto fun _ hf => hf
  | turn i errno =>
    obtain ⟨call, index, file, hpc, hentry, -, rfl⟩ | ⟨call, index, hpc, hno, rfl⟩ |
      ⟨call, index, out, hpc, rfl⟩ | ⟨call, index, out, hpc, rfl⟩ | ⟨call, file, kept, out, hpc, rfl⟩ |
      ⟨call, kept, out, hpc, rfl⟩ := logTurn_cases hstep
    · exact hgoto fun _ hf => hf
    · exact hgoto fun _ hf => hf
    · exact hgoto (by simp)
    · have hfree := hinv.free i call index hpc
      refine ⟨⟨h.1.trans_le Directory.files_le_create, left_goto h fun g hg => .inr ?_⟩,
        Directory.create_content_of_lt h.1⟩
      rw [← Directory.fileOf_free hfree]
      exact (Option.some.inj hg).symm
    · have hfile := hinv.target i call file kept hpc
      refine ⟨⟨h.1, left_goto (s := s.write i file _) h fun g hg => .inl hg⟩, ?_⟩
      exact Directory.append_content_of_ne fun heq => h.2 i (heq ▸ hfile)
    · exact hgoto fun _ hf => hf
  | kill i =>
    cases hstep
    exact hgoto fun _ hf => hf
  | create name =>
    cases hstep
    exact ⟨⟨h.1.trans_le Directory.files_le_create, h.2⟩, Directory.create_content_of_lt h.1⟩
  | remove name =>
    cases hstep
    exact ⟨h, rfl⟩

/-- **Everybody logs into a file of his own.** In a fair run the files that are open are different, in
each is what its process wrote since it opened it, and what nobody writes any more stays as it is. -/
theorem logs_apart {s₀ : LogSystem ι} {os os' : List (LogOp ι)} (hstart : s₀.Start)
    (hfair : Along logStep LogSystem.Fair s₀ os) (hrun : run logStep s₀ os = some s)
    (hfair' : Along logStep LogSystem.Fair s os') (hrun' : run logStep s os' = some t) :
    (∀ i j f, (t.procs i).logger.fpLogfile = some f → (t.procs j).logger.fpLogfile = some f → i = j) ∧
      (∀ i f, (t.procs i).logger.fpLogfile = some f → t.dir.content f = t.written i) ∧
      ∀ f, s.Left f → t.dir.content f = s.dir.content f := by
  have hs : LogInv s :=
    (always_of_along (fun _ _ _ h hc hstep => LogInv.step h hc hstep) hstart.inv hfair).last hrun
  have hall := always_of_along (fun _ _ _ h hc hstep => LogInv.step h hc hstep) hs hfair'
  have ht := hall.last hrun'
  refine ⟨ht.apart, ht.content, fun f hf => ?_⟩
  have hleft := always_of_along
    (I := fun u => LogInv u ∧ u.Left f ∧ u.dir.content f = s.dir.content f)
    (fun u _ v h hc hstep => by
      obtain ⟨hinv, hleft, hcontent⟩ := h
      obtain ⟨hleft', hcontent'⟩ := left_step hinv hleft hstep
      exact ⟨hinv.step hc hstep, hleft', hcontent'.trans hcontent⟩) ⟨hs, hf, rfl⟩ hfair'
  exact (hleft.last hrun').2.2

/-- A process logs, and all goes well. -/
def LogOp.Alone (i : ι) (o : LogOp ι) : Prop := (∃ call, o = .log i call) ∨ o = .turn i none

/-- What one process does while no other looks for a name is fair. -/
theorem fair_of_alone {os : List (LogOp ι)} (hothers : ∀ j ≠ i, (s.procs j).pc.date = none)
    (halone : ∀ o ∈ os, o.Alone i) : Along logStep LogSystem.Fair s os := by
  induction os generalizing s with
  | nil => trivial
  | cons o os ih =>
    intro t hstep
    have ho := halone o List.mem_cons_self
    refine ⟨⟨fun j k date hjk hj hk => ?_, ?_, ?_⟩, ih (fun j hj => ?_) fun o' ho' =>
      halone o' (List.mem_cons_of_mem _ ho')⟩
    · by_cases hji : j = i
      · rw [hothers k fun hki => hjk (hji.trans hki.symm)] at hk
        cases hk
      · rw [hothers j hji] at hj
        cases hj
    · rintro j errno call index rfl -
      obtain ⟨c, hc⟩ | hc := ho <;> cases hc
    · rintro j call index - rfl
      obtain ⟨c, hc⟩ | hc := ho <;> cases hc
    · have hsame : t.procs j = s.procs j := by
        obtain ⟨c, rfl⟩ | rfl := ho
        · obtain ⟨-, rfl⟩ := call_eq_some hstep
          exact goto_procs_of_ne hj
        · obtain ⟨_, _, _, -, -, -, rfl⟩ | ⟨_, _, -, -, rfl⟩ | ⟨_, _, _, -, rfl⟩ | ⟨_, _, _, -, rfl⟩ |
            ⟨_, _, _, _, -, rfl⟩ | ⟨_, _, _, -, rfl⟩ := logTurn_cases hstep <;>
            exact goto_procs_of_ne hj
      rw [hsame]
      exact hothers j hj

/-- Two processes in an empty directory. -/
def logSystem : LogSystem Bool := ⟨.empty, fun _ => ⟨.initial, .idle, []⟩, fun _ => []⟩

theorem logSystem_start : logSystem.Start := ⟨Directory.sound_empty, fun _ => rfl⟩

/-- An error at half past nine. -/
def logErrorCall : LogCall := ⟨libfpgaLogError, "no device".toList,
  ⟨"0101-093000".toList, List.all_eq_true.mp rfl⟩, "09:30:00".toList⟩

/-- A message of a process. -/
def logMessage (i : Bool) : List (LogOp Bool) :=
  [.log i logErrorCall, .turn i none, .turn i none, .turn i none]

theorem logMessage_alone {i : Bool} : ∀ o ∈ logMessage i, o.Alone i := by
  intro o ho
  simp only [logMessage, List.mem_cons, List.not_mem_nil, or_false] at ho
  obtain rfl | rfl | rfl | rfl := ho
  · exact .inl ⟨_, rfl⟩
  · exact .inr rfl
  · exact .inr rfl
  · exact .inr rfl

theorem logs_apart_two : ∃ s t, run logStep logSystem (logMessage false) = some s ∧
    run logStep s (logMessage true ++ [.turn true none]) = some t ∧
    t.dir.content 0 = t.written false ∧ t.dir.content 1 = t.written true := by
  obtain ⟨s, hs, hothers⟩ : ∃ s, run logStep logSystem (logMessage false) = some s ∧
      (s.procs false).pc.date = none := ⟨_, rfl, rfl⟩
  obtain ⟨t, ht, h0, h1⟩ : ∃ t, run logStep s (logMessage true ++ [.turn true none]) = some t ∧
      (t.procs false).logger.fpLogfile = some 0 ∧ (t.procs true).logger.fpLogfile = some 1 := by
    cases hs
    exact ⟨_, rfl, rfl, rfl⟩
  have hfair := fair_of_alone (i := false) (s := logSystem) (fun _ _ => rfl) logMessage_alone
  have hfair' : Along logStep LogSystem.Fair s (logMessage true ++ [.turn true none]) := by
    refine fair_of_alone (i := true) (fun j hj => ?_) fun o ho => ?_
    · rwa [Bool.eq_false_of_not_eq_true hj]
    · obtain ho | ho := List.mem_append.mp ho
      · exact logMessage_alone o ho
      · exact .inr (List.mem_singleton.mp ho)
  obtain ⟨-, hcontent, -⟩ := logs_apart logSystem_start hfair hs hfair' ht
  exact ⟨s, t, hs, ht, hcontent false 0 h0, hcontent true 1 h1⟩

/-- **In the same second they may not.** Two that found the same name free, and both open it, write to
one file. -/
theorem mixed_of_same_name {j : ι} {index : ℕ} {call' : LogCall} (hij : i ≠ j)
    (hi : (s.procs i).pc = .creating call index) (hj : (s.procs j).pc = .creating call' index)
    (hdate : call.date = call'.date) :
    ∃ u f, run logStep s [.turn i none, .turn j none] = some u ∧
      (u.procs i).logger.fpLogfile = some f ∧ (u.procs j).logger.fpLogfile = some f := by
  simp only [run, logStep, logTurn, hi, Option.bind_some]
  rw [goto_procs_of_ne hij.symm, hj]
  refine ⟨_, s.dir.fileOf (logFilename call.date index), rfl, ?_, ?_⟩
  · change ((LogSystem.goto j _ _ _).procs i).logger.fpLogfile = _
    rw [goto_procs_of_ne hij]
    change ((s.goto i _ _).procs i).logger.fpLogfile = _
    rw [goto_procs_self]
  · change ((LogSystem.goto j _ _ _).procs j).logger.fpLogfile = _
    rw [goto_procs_self]
    change some ((s.dir.create _).fileOf (logFilename call'.date index)) = _
    rw [← hdate, Directory.fileOf, Directory.create_entry_self, Option.getD_some]

/-! ### The end of a message -/

/-- A process is in one of the functions. -/
def LogAt.Busy : LogAt → Prop
  | .idle | .ended => False
  | _ => True

/-- So many steps a process needs, if no files are made. -/
noncomputable def LogSystem.left (s : LogSystem ι) (i : ι) : ℕ :=
  match (s.procs i).pc with
  | .probing call index => (s.dir.taken (logFilename call.date) index).card + 2
  | .creating call index => 1 + s.dir.present (logFilename call.date index)
  | .printing _ _ _ => 1
  | .idle | .ended => 0

/-- It is the turn of a process. -/
def LogOp.isTurn (i : ι) : LogOp ι → Bool
  | .turn j _ => j = i
  | _ => false

theorem sound_step (h : s.dir.Sound) (hstep : logStep s o = some t) : t.dir.Sound := by
  cases o with
  | log i | args i | reset i =>
    simp only [logStep] at hstep
    obtain ⟨-, rfl⟩ := call_eq_some hstep
    exact h
  | turn i errno =>
    obtain ⟨call, index, file, -, -, -, rfl⟩ | ⟨call, index, -, -, rfl⟩ | ⟨call, index, out, -, rfl⟩ |
      ⟨call, index, out, -, rfl⟩ | ⟨call, file, kept, out, -, rfl⟩ | ⟨call, kept, out, -, rfl⟩ :=
      logTurn_cases hstep
    · exact h
    · exact h
    · exact h
    · exact h.create
    · exact h.append
    · exact h
  | kill i =>
    cases hstep
    exact h
  | create name =>
    cases hstep
    exact h.create
  | remove name =>
    cases hstep
    exact h.remove

omit [DecidableEq ι] in
theorem left_pos (h : (s.procs i).pc.Busy) : 0 < s.left i := by
  unfold LogSystem.left
  cases hpc : (s.procs i).pc with
  | idle | ended =>
    rw [hpc] at h
    exact absurd h id
  | probing | creating | printing => dsimp only; omega

omit [DecidableEq ι] in
/-- The others can only make files. -/
theorem left_le_of_others (hpc : (t.procs i).pc = (s.procs i).pc) (hfiles : s.dir.files ≤ t.dir.files)
    (htaken : ∀ name k, (t.dir.taken name k).card + s.dir.files ≤
      (s.dir.taken name k).card + t.dir.files)
    (hpresent : ∀ name, t.dir.present name + s.dir.files ≤ s.dir.present name + t.dir.files) :
    t.left i + s.dir.files ≤ s.left i + t.dir.files := by
  unfold LogSystem.left
  rw [hpc]
  cases (s.procs i).pc with
  | probing call index =>
    have hle := htaken (logFilename call.date) index
    dsimp only
    omega
  | creating call index =>
    have hle := hpresent (logFilename call.date index)
    dsimp only
    omega
  | printing | idle | ended => dsimp only; omega

/-- A step of its own brings a process nearer to the end. -/
theorem left_turn {errno : Option ℕ} (hsound : s.dir.Sound) (hstep : logTurn i errno s = some t) :
    t.left i + 1 + s.dir.files ≤ s.left i + t.dir.files := by
  have hto : ∀ {x out}, ((s.goto i x out).procs i).pc = x.2 := by simp
  obtain ⟨call, index, file, hpc, hentry, -, rfl⟩ | ⟨call, index, hpc, -, rfl⟩ |
    ⟨call, index, out, hpc, rfl⟩ | ⟨call, index, out, hpc, rfl⟩ | ⟨call, file, kept, out, hpc, rfl⟩ |
    ⟨call, kept, out, hpc, rfl⟩ := logTurn_cases hstep
  · have hinj : Function.Injective (logFilename call.date) := fun j k hjk => (logFilename_inj hjk).2
    have hlt := hsound.card_taken_succ_lt hinj hentry
    simp only [LogSystem.left, hto, hpc]
    change (s.dir.taken _ _).card + 2 + 1 + s.dir.files ≤ _ + 2 + s.dir.files
    omega
  · have hle := hsound.present_le_card_taken (logFilename call.date) index
    simp only [LogSystem.left, hto, hpc]
    change 1 + s.dir.present _ + 1 + s.dir.files ≤ _ + 2 + s.dir.files
    omega
  · simp only [LogSystem.left, hto, hpc]
    change 0 + 1 + s.dir.files ≤ 1 + _ + s.dir.files
    omega
  · have hle := Directory.succ_files_le_create s.dir (logFilename call.date index)
    have hleft : LogSystem.left { s.goto i ({ (s.procs i).logger with
        fpLogfile := some (s.dir.fileOf (logFilename call.date index)), flagCreateFile := .opened },
        .printing call (some (s.dir.fileOf (logFilename call.date index))) (logStart call.date)) out with
        dir := s.dir.create (logFilename call.date index)
        written := Function.update s.written i [] } i = 1 := by
      unfold LogSystem.left
      dsimp only
      rw [goto_procs_self]
    rw [hleft]
    simp only [LogSystem.left, hpc]
    change 1 + 1 + s.dir.files ≤ 1 + _ + _
    omega
  · simp only [LogSystem.left, hpc]
    rw [goto_procs_self]
    change 0 + 1 + s.dir.files ≤ 1 + s.dir.files
    omega
  · simp only [LogSystem.left, hto, hpc]
    change 0 + 1 + s.dir.files ≤ 1 + s.dir.files
    omega

theorem left_le (hsound : s.dir.Sound) (hbusy : (s.procs i).pc.Busy) (hbusy' : (t.procs i).pc.Busy)
    (hstep : logStep s o = some t) :
    t.left i + (if o.isTurn i then 1 else 0) + s.dir.files ≤ s.left i + t.dir.files := by
  have hgoto : ∀ {j x out}, j ≠ i → (s.goto j x out).left i + 0 + s.dir.files ≤
      s.left i + (s.goto j x out).dir.files := fun hj =>
    left_le_of_others (by rw [goto_procs_of_ne hj.symm]) le_rfl (fun _ _ => le_rfl) fun _ => le_rfl
  have hcall : ∀ {j f}, s.call j f = some t → t.left i + 0 + s.dir.files ≤ s.left i + t.dir.files := by
    intro j f h
    obtain ⟨hidle, rfl⟩ := call_eq_some h
    refine hgoto fun hj => ?_
    rw [← hj, hidle] at hbusy
    exact hbusy
  cases o with
  | log j | args j | reset j =>
    simp only [logStep] at hstep
    exact hcall hstep
  | turn j errno =>
    by_cases hj : j = i
    · subst hj
      simpa [LogOp.isTurn] using left_turn hsound hstep
    · simp only [LogOp.isTurn, hj, decide_false, Bool.false_eq_true, if_false]
      obtain ⟨call, index, file, -, -, -, rfl⟩ | ⟨call, index, -, -, rfl⟩ | ⟨call, index, out, -, rfl⟩ |
        ⟨call, index, out, -, rfl⟩ | ⟨call, file, kept, out, -, rfl⟩ | ⟨call, kept, out, -, rfl⟩ :=
        logTurn_cases hstep
      · exact hgoto hj
      · exact hgoto hj
      · exact hgoto hj
      · refine left_le_of_others ?_ Directory.files_le_create
          (fun _ _ => Directory.card_taken_create_le ..) fun _ => Directory.present_create_le
        change ((s.goto j _ out).procs i).pc = _
        rw [goto_procs_of_ne (Ne.symm hj)]
      · refine left_le_of_others ?_ le_rfl (fun _ _ => le_rfl) fun _ => le_rfl
        rw [goto_procs_of_ne (Ne.symm hj)]
        rfl
      · exact hgoto hj
  | kill j =>
    cases hstep
    refine hgoto fun hj => ?_
    subst hj
    rw [goto_procs_self] at hbusy'
    exact hbusy'
  | create name =>
    cases hstep
    exact left_le_of_others rfl Directory.files_le_create
      (fun _ _ => Directory.card_taken_create_le ..) fun _ => Directory.present_create_le
  | remove name =>
    cases hstep
    exact left_le_of_others rfl le_rfl
      (fun _ _ => Nat.add_le_add_right (Finset.card_le_card (Directory.taken_remove_subset ..)) _)
      fun _ => Nat.add_le_add_right Directory.present_remove_le _

theorem countP_turn_le {os : List (LogOp ι)} (hsound : s.dir.Sound) (hrun : run logStep s os = some t)
    (hbusy : Always logStep (fun u => (u.procs i).pc.Busy) s os) :
    t.left i + os.countP (LogOp.isTurn i) + s.dir.files ≤ s.left i + t.dir.files := by
  induction os generalizing s with
  | nil =>
    cases hrun
    rw [List.countP_nil]
    exact le_rfl
  | cons o os ih =>
    obtain ⟨u, hstep, hrun⟩ := run_cons_eq_some.mp hrun
    have hrest := hbusy.2 u hstep
    have hfirst := left_le hsound hbusy.1 hrest.head hstep
    have hall := ih (sound_step hsound hstep) hrun hrest
    rw [List.countP_cons]
    omega

/-- **A message ends.** Whatever the others do, when a process has taken as many steps as there are files,
and two, it was done with its message after one of them. -/
theorem log_ends {s₀ : LogSystem ι} {os₀ os : List (LogOp ι)} (hstart : s₀.Start)
    (hrun₀ : run logStep s₀ os₀ = some s) (hrun : run logStep s os = some t)
    (hturns : t.dir.files + 2 ≤ os.countP (LogOp.isTurn i)) :
    ∃ pre u, pre <+: os ∧ run logStep s pre = some u ∧ ¬ (u.procs i).pc.Busy := by
  by_contra hall
  push Not at hall
  have hbusy : Always logStep (fun u => (u.procs i).pc.Busy) s os := always_iff_initial.mpr hall
  have hsound : s.dir.Sound := run_invariant (I := fun u => u.dir.Sound)
    (fun _ _ _ h hstep => sound_step h hstep) hstart.sound hrun₀
  have hpos := left_pos (hbusy.last hrun)
  have hle := countP_turn_le hsound hrun hbusy
  have hleft : s.left i ≤ s.dir.files + 2 := by
    unfold LogSystem.left
    cases (s.procs i).pc with
    | probing call index => exact Nat.add_le_add_right (Directory.card_taken_le ..) 2
    | creating call index =>
      have hone := Directory.present_le_one s.dir (logFilename call.date index)
      dsimp only
      omega
    | printing | idle | ended => dsimp only; omega
  omega

/-- Another process made a file in the same second, and the message takes four steps. -/
theorem log_ends_second : ∃ s t,
    run logStep logSystem (logMessage false ++ [.log true logErrorCall]) = some s ∧
    (s.procs true).pc.Busy ∧ run logStep s (List.replicate 4 (.turn true none)) = some t ∧
    t.dir.files = 2 ∧ (t.procs true).pc = .idle ∧ t.dir.content 1 = t.written true ∧
    ∃ pre u, pre <+: List.replicate 4 (.turn true none) ∧ run logStep s pre = some u ∧
      ¬ (u.procs true).pc.Busy := by
  obtain ⟨s, hs, hbusy⟩ : ∃ s,
      run logStep logSystem (logMessage false ++ [.log true logErrorCall]) = some s ∧
        (s.procs true).pc = .probing logErrorCall 0 := ⟨_, rfl, rfl⟩
  obtain ⟨t, ht, hfiles, hpc, hcontent⟩ : ∃ t,
      run logStep s (List.replicate 4 (.turn true none)) = some t ∧ t.dir.files = 2 ∧
        (t.procs true).pc = .idle ∧ t.dir.content 1 = t.written true := by
    cases hs
    exact ⟨_, rfl, rfl, rfl, rfl⟩
  refine ⟨s, t, hs, hbusy ▸ trivial, ht, hfiles, hpc, hcontent, ?_⟩
  exact log_ends logSystem_start hs ht (by rw [hfiles]; decide)

end HardwareDrivers.Libfpga
