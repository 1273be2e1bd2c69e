import HardwareDrivers.Libfpga.DeviceTable

/-!
# The device table is consistent

`devices_num` is the number of the entries, they have different names and different
descriptors, and these are all that the library has open. A call that returns an error is to leave
the table as it was.

## What is proved

* `deviceTable_iff` — every call of a run keeps all of this exactly if every call meets its
  condition.
-/

namespace HardwareDrivers.Libfpga

open Theory

variable {files : DeviceFiles} {s t : LibfpgactlState}

/-! ### The invariant -/

/-- The table, the number of devices and the descriptors agree. -/
structure LibfpgactlState.Agrees (s : LibfpgactlState) : Prop where
  /-- `devices_num` is the number of the entries. -/
  count : s.devicesNum = s.devices.entries.length
  /-- The names are different. -/
  names : (s.devices.entries.map (·.name)).Nodup
  /-- The descriptors are different. -/
  fds : (s.devices.entries.map (·.fd)).Nodup
  /-- They are the device files that are open. -/
  opened : s.openFds = (s.devices.entries.map (·.fd)).toFinset

/-- The table agrees, and nothing else is open. -/
structure LibfpgactlState.Consistent (s : LibfpgactlState) : Prop extends s.Agrees where
  /-- No directory is open. -/
  closed : s.dir = none

/-- The call returns, the table is consistent, and it is what it was if the call returns an
error. -/
def CtlCall.Keeps (files : DeviceFiles) (s : LibfpgactlState) (call : CtlCall) : Prop :=
  ∃ ret t, call.exec files s = .ok (ret, t) ∧ t.Consistent ∧
    ∀ e, ret = .error e → t.devices = s.devices ∧ t.devicesNum = s.devicesNum

namespace LibfpgactlState

theorem consistent_start : start.Consistent := by
  have h : start.devices.entries = [] := Slots.entries_eq_nil_iff.mpr fun _ => rfl
  refine ⟨?_, rfl⟩
  constructor <;> simp only [h] <;> first | rfl | exact List.nodup_nil

theorem fresh_notMem_used (fd : ℕ) : s.fresh fd ∉ s.used := by
  unfold fresh
  split
  case isTrue =>
    intro hmem
    have hle := Finset.le_sup (f := id) hmem
    exact absurd hle (Nat.not_succ_le_self _)
  case isFalse h => exact h

theorem fresh_notMem (fd : ℕ) : s.fresh fd ∉ s.openFds := by
  refine fun h => fresh_notMem_used (s := s) fd ?_
  unfold used
  cases s.dir with
  | none => exact h
  | some fd => exact Finset.mem_insert_of_mem h

/-- The version of the driver does not matter. -/
theorem Agrees.setVersion (h : s.Agrees) (v : BitVec 32) :
    Agrees { s with driverVersion := v } := ⟨h.count, h.names, h.fds, h.opened⟩

/-- A device is added. -/
theorem Agrees.fill (h : s.Agrees) {index : DevIndex} {dev : FpgaDeviceEntry}
    (hfree : s.devices index = none) (hname : ∀ e ∈ s.devices.entries, e.name ≠ dev.name)
    (hfd : dev.fd ∉ s.openFds) (v : BitVec 32) :
    Agrees ⟨Function.update s.devices index (some dev), s.devicesNum + 1, v,
      insert dev.fd s.openFds, s.dir⟩ := by
  have hperm := Slots.entries_fill hfree dev
  have hfds : dev.fd ∉ s.devices.entries.map (·.fd) := by
    rw [h.opened, List.mem_toFinset] at hfd
    exact hfd
  have hnames : dev.name ∉ s.devices.entries.map (·.name) := by
    rw [List.mem_map]
    rintro ⟨e, he, heq⟩
    exact hname e he heq
  constructor
  · rw [hperm.length_eq, List.length_cons, h.count]
    rfl
  · exact (hperm.map _).nodup_iff.mpr (List.nodup_cons.mpr ⟨hnames, h.names⟩)
  · exact (hperm.map _).nodup_iff.mpr (List.nodup_cons.mpr ⟨hfds, h.fds⟩)
  · rw [h.opened, List.toFinset_eq_of_perm _ _ (hperm.map _), List.map_cons, List.toFinset_cons]

/-- A device is closed. -/
theorem Agrees.devFinish (h : s.Agrees) {index : DevIndex} {dev : FpgaDeviceEntry}
    (hdev : s.devices index = some dev) : (devFinish s index dev).Agrees := by
  have hperm := Slots.entries_clear hdev
  have hnames := (hperm.map (·.name)).nodup_iff.mp h.names
  have hfds := (hperm.map (·.fd)).nodup_iff.mp h.fds
  constructor
  · have hcount := h.count
    rw [hperm.length_eq, List.length_cons] at hcount
    change s.devicesNum - 1 = ((Slots.entries (Function.update s.devices index none)).length : ℤ)
    omega
  · exact (List.nodup_cons.mp hnames).2
  · exact (List.nodup_cons.mp hfds).2
  · change s.openFds.erase dev.fd = _
    rw [h.opened, List.toFinset_eq_of_perm _ _ (hperm.map _), List.map_cons, List.toFinset_cons]
    refine Finset.erase_insert ?_
    rw [List.mem_toFinset]
    exact (List.nodup_cons.mp hfds).1

/-- A consistent table with no device. -/
theorem Agrees.entries_eq_nil (h : s.Agrees) (hnum : s.devicesNum = 0) :
    s.devices.entries = [] := by
  have hcount := h.count
  rw [hnum] at hcount
  exact List.length_eq_zero_iff.mp (Int.ofNat.inj hcount.symm)

end LibfpgactlState

/-! ### Opening a device -/

namespace DevInitEnv

/-- The ioctls before the name is read go through. -/
def Answers (env : DevInitEnv) (s : LibfpgactlState) : Prop :=
  (s.driverVersion = -1 → env.version ≠ none) ∧ env.minor ≠ none

/-- `__fpga_dev_init` comes to read the name. -/
def ReadsName (env : DevInitEnv) (s : LibfpgactlState) : Prop :=
  env.filename = true ∧ (s.devices.entries ≠ [] ∨
    env.fd ≠ none ∧ s.devices.firstFree ≠ none ∧ env.Answers s)

/-- Nothing fails, and there is a free slot. -/
def Succeeds (env : DevInitEnv) (s : LibfpgactlState) : Prop :=
  env.filename = true ∧ env.fd ≠ none ∧ s.devices.firstFree ≠ none ∧ env.Answers s ∧
    env.name = true ∧ env.update = true

end DevInitEnv

/-- What `__fpga_dev_init` can come to, if it has read no more than the name. -/
inductive DevInitOutcome (files : DeviceFiles) (name : CString) (env : DevInitEnv)
    (s : LibfpgactlState) : Except LibfpgactlErr (Option DevIndex) → LibfpgactlState → Prop
  /-- It fails. -/
  | failed (e : LibfpgactlErr) (v : BitVec 32) (hfails : ¬ env.Succeeds s) :
      DevInitOutcome files name env s (.error e) { s with driverVersion := v }
  /-- The device is open already. -/
  | already (dev : FpgaDeviceEntry) (hdev : dev ∈ s.devices.entries)
      (hname : files.tail (files.filename name) = .ok dev.name) :
      DevInitOutcome files name env s (.ok none) s
  /-- The device is opened. -/
  | opened (index : DevIndex) (dev : FpgaDeviceEntry) (v : BitVec 32) (hsucceeds : env.Succeeds s)
      (hfree : s.devices index = none) (hname : files.tail (files.filename name) = .ok dev.name)
      (hnew : ∀ e ∈ s.devices.entries, e.name ≠ dev.name) (hfd : dev.fd ∉ s.openFds) :
      DevInitOutcome files name env s (.ok (some index))
        ⟨Function.update s.devices index (some dev), s.devicesNum + 1, v,
          insert dev.fd s.openFds, s.dir⟩

variable {name filename : CString} {env : DevInitEnv} {fd : ℕ} {index : DevIndex}

/-- `err_out` leaves what there was before the device file was opened. -/
theorem errOut_openFd (hfree : s.devices index = none) (hfd : fd ∉ s.openFds) (v : BitVec 32) :
    LibfpgactlState.errOut { s.openFd fd with driverVersion := v } index fd =
      { s with driverVersion := v } := by
  have hclear : Function.update s.devices index none = s.devices := by
    rw [← hfree, Function.update_eq_self]
  have hclose : (insert fd s.openFds).erase fd = s.openFds := Finset.erase_insert hfd
  simp only [LibfpgactlState.errOut, LibfpgactlState.setDevice, LibfpgactlState.closeFd,
    LibfpgactlState.openFd, hclear, hclose]

/-- An entry that was written is cleared. -/
theorem setDevice_errOut (s : LibfpgactlState) (dev : Option FpgaDeviceEntry) :
    (s.setDevice index dev).errOut index fd = s.errOut index fd := by
  simp only [LibfpgactlState.errOut, LibfpgactlState.setDevice, Function.update_idem]

/-- The version of the driver is asked for at most. -/
theorem getVersion_cases (h : getVersion env s = some t) :
    ∃ v, t = { s with driverVersion := v } ∧ (s.driverVersion = -1 → env.version ≠ none) := by
  unfold getVersion at h
  split at h
  case isTrue =>
    obtain ⟨v, hv, rfl⟩ := Option.map_eq_some_iff.mp h
    exact ⟨v, rfl, fun _ => by simp [hv]⟩
  case isFalse hasked =>
    cases h
    exact ⟨_, rfl, fun h => absurd h hasked⟩

theorem getVersion_eq_none_iff :
    getVersion env s = none ↔ s.driverVersion = -1 ∧ env.version = none := by
  unfold getVersion
  by_cases hasked : s.driverVersion = -1
  · rw [if_pos hasked, Option.map_eq_none_iff]
    exact (and_iff_right hasked).symm
  · rw [if_neg hasked]
    exact iff_of_false nofun fun h => hasked h.1

/-- What can come of the device file. -/
theorem devInitOpened_outcome {ret : Except LibfpgactlErr (Option DevIndex)}
    (hfilename : env.filename = true) (hopen : env.fd ≠ none) (hfd : fd ∉ s.openFds)
    (hnew : ∀ tail, files.tail (files.filename name) = .ok tail →
      ∀ e ∈ s.devices.entries, e.name ≠ tail)
    (h : devInitOpened files (files.filename name) env fd (s.openFd fd) = .ok (ret, t)) :
    DevInitOutcome files name env s ret t := by
  unfold devInitOpened at h
  cases hfree : (s.openFd fd).devices.firstFree with
  | none =>
    simp only [hfree, Except.ok.injEq, Prod.mk.injEq] at h
    obtain ⟨rfl, rfl⟩ := h
    have hclose : (s.openFd fd).closeFd fd = { s with driverVersion := s.driverVersion } := by
      simp only [LibfpgactlState.openFd, LibfpgactlState.closeFd, Finset.erase_insert hfd]
    rw [hclose]
    exact .failed _ _ fun hs => hs.2.2.1 hfree
  | some index =>
    have hslot : s.devices index = none := Slots.eq_none_of_firstFree hfree
    simp only [hfree] at h
    cases hversion : getVersion env (s.openFd fd) with
    | none =>
      simp only [hversion, Except.ok.injEq, Prod.mk.injEq] at h
      obtain ⟨rfl, rfl⟩ := h
      have hnone := getVersion_eq_none_iff.mp hversion
      have herr : (s.openFd fd).errOut index fd = { s with driverVersion := s.driverVersion } :=
        errOut_openFd hslot hfd s.driverVersion
      rw [herr]
      exact .failed _ _ fun hs => hs.2.2.2.1.1 hnone.1 hnone.2
    | some u =>
      obtain ⟨v, rfl, hasked⟩ := getVersion_cases hversion
      cases hminor : env.minor with
      | none =>
        simp only [hversion, hminor, Except.ok.injEq, Prod.mk.injEq] at h
        obtain ⟨rfl, rfl⟩ := h
        rw [errOut_openFd hslot hfd]
        exact .failed _ _ fun hs => hs.2.2.2.1.2 hminor
      | some minor =>
        simp only [hversion, hminor] at h
        obtain ⟨tail, htail, h⟩ := bind_eq_ok.mp h
        split_ifs at h with hname hupdate
        · cases h
          rw [errOut_openFd hslot hfd]
          exact .failed _ _ fun hs => by rw [hs.2.2.2.2.1] at hname; cases hname
        · cases h
          rw [setDevice_errOut, errOut_openFd hslot hfd]
          exact .failed _ _ fun hs => by rw [hs.2.2.2.2.2] at hupdate; cases hupdate
        · cases h
          refine .opened index ⟨tail, fd, minor, 1⟩ v ⟨hfilename, hopen, ?_, ⟨hasked, ?_⟩, ?_, ?_⟩
            hslot htail (hnew tail htail) hfd
          · exact fun hn => by rw [LibfpgactlState.openFd, hn] at hfree; cases hfree
          · simp [hminor]
          · simpa using hname
          · simpa using hupdate

/-- What can come of `open`. -/
theorem devInitOpen_outcome {ret : Except LibfpgactlErr (Option DevIndex)}
    (hfilename : env.filename = true)
    (hnew : ∀ tail, files.tail (files.filename name) = .ok tail →
      ∀ e ∈ s.devices.entries, e.name ≠ tail)
    (h : devInitOpen files (files.filename name) env s = .ok (ret, t)) :
    DevInitOutcome files name env s ret t := by
  unfold devInitOpen at h
  cases hfd : env.fd with
  | none =>
    simp only [hfd, Except.ok.injEq, Prod.mk.injEq] at h
    obtain ⟨rfl, rfl⟩ := h
    exact .failed _ s.driverVersion fun hs => hs.2.1 hfd
  | some fd =>
    simp only [hfd] at h
    exact devInitOpened_outcome hfilename (by simp [hfd]) (LibfpgactlState.fresh_notMem fd) hnew h

/-- What can come of a call. -/
theorem devInit_outcome {ret : Except LibfpgactlErr (Option DevIndex)}
    (h : devInit files name env s = .ok (ret, t)) : DevInitOutcome files name env s ret t := by
  unfold devInit at h
  split at h
  case isTrue hfilename =>
    cases h
    exact .failed _ s.driverVersion fun hs => by rw [hs.1] at hfilename; cases hfilename
  case isFalse hfilename =>
    rw [Bool.not_eq_false] at hfilename
    obtain ⟨opening, hopening, h⟩ := bind_eq_ok.mp h
    unfold isOpening at hopening
    split at hopening
    case isTrue hempty =>
      cases hopening
      exact devInitOpen_outcome hfilename (fun _ _ e he => by rw [hempty] at he; cases he) h
    case isFalse =>
      obtain ⟨tail, htail, hany⟩ := bind_eq_ok.mp hopening
      cases hany
      cases hmem : s.devices.entries.any fun dev => dev.name = tail with
      | true =>
        simp only [hmem] at h
        cases h
        obtain ⟨dev, hdev, heq⟩ := List.any_eq_true.mp hmem
        exact .already dev hdev (by rw [of_decide_eq_true heq]; exact htail)
      | false =>
        simp only [hmem] at h
        refine devInitOpen_outcome hfilename (fun tail' htail' e he heq => ?_) h
        cases htail.symm.trans htail'
        rw [List.any_eq_false] at hmem
        exact hmem e he (decide_eq_true heq)

theorem noFault_devInitOpened_iff : NoFault (devInitOpened files filename env fd s) ↔
    (s.devices.firstFree ≠ none ∧ env.Answers s → NoFault (files.tail filename)) := by
  unfold devInitOpened
  cases hfree : s.devices.firstFree with
  | none => exact iff_of_true (noFault_ok _) fun h => absurd rfl h.1
  | some index =>
    cases hversion : getVersion env s with
    | none =>
      have hnone := getVersion_eq_none_iff.mp hversion
      exact iff_of_true (noFault_ok _) fun h => absurd hnone.2 (h.2.1 hnone.1)
    | some u =>
      obtain ⟨v, rfl, hasked⟩ := getVersion_cases hversion
      cases hminor : env.minor with
      | none => exact iff_of_true (noFault_ok _) fun h => absurd hminor h.2.2
      | some minor =>
        have hanswers : env.Answers s := ⟨hasked, by simp [hminor]⟩
        simp only [noFault_bind]
        constructor
        · rintro ⟨tail, htail, -⟩ -
          exact ⟨tail, htail⟩
        · intro h
          obtain ⟨tail, htail⟩ := h ⟨nofun, hanswers⟩
          refine ⟨tail, htail, ?_⟩
          split_ifs <;> exact noFault_pure _

theorem noFault_devInitOpen_iff : NoFault (devInitOpen files filename env s) ↔
    (env.fd ≠ none ∧ s.devices.firstFree ≠ none ∧ env.Answers s →
      NoFault (files.tail filename)) := by
  unfold devInitOpen
  cases hfd : env.fd with
  | none => exact iff_of_true (noFault_ok _) fun h => absurd rfl h.1
  | some fd => exact noFault_devInitOpened_iff.trans ⟨fun h hs => h hs.2, fun h hs => h ⟨nofun, hs⟩⟩

/-- A call reads behind the end of a path only if it comes to read the name. -/
theorem noFault_devInit_iff : NoFault (devInit files name env s) ↔
    (env.ReadsName s → NoFault (files.tail (files.filename name))) := by
  unfold devInit
  split
  case isTrue hfilename =>
    exact iff_of_true (noFault_ok _) fun h => by rw [h.1] at hfilename; cases hfilename
  case isFalse hfilename =>
    rw [Bool.not_eq_false] at hfilename
    unfold isOpening
    split
    case isTrue hempty =>
      refine Iff.trans noFault_devInitOpen_iff ⟨fun h hreads => ?_, fun h hs => ?_⟩
      · exact h (hreads.2.resolve_left fun hne => hne hempty)
      · exact h ⟨hfilename, .inr hs⟩
    case isFalse hne =>
      constructor
      · intro h _
        obtain ⟨opening, hopening, -⟩ := noFault_bind.mp h
        obtain ⟨tail, htail, -⟩ := bind_eq_ok.mp hopening
        exact ⟨tail, htail⟩
      · intro h
        obtain ⟨tail, htail⟩ := h ⟨hfilename, .inl hne⟩
        rw [htail, ok_bind]
        cases hmem : s.devices.entries.any fun dev => dev.name = tail with
        | true => exact noFault_ok _
        | false => exact noFault_devInitOpen_iff.mpr fun _ => ⟨tail, htail⟩

/-- A call keeps the invariant. -/
theorem DevInitOutcome.agrees {ret : Except LibfpgactlErr (Option DevIndex)}
    (h : DevInitOutcome files name env s ret t) (hs : s.Agrees) : t.Agrees := by
  cases h with
  | failed e v => exact hs.setVersion v
  | already => exact hs
  | opened index dev v _ hfree _ hnew hfd => exact hs.fill hfree hnew hfd v

/-- A call does not touch a directory. -/
theorem DevInitOutcome.dir {ret : Except LibfpgactlErr (Option DevIndex)}
    (h : DevInitOutcome files name env s ret t) : t.dir = s.dir := by
  cases h <;> rfl

theorem DevInitOutcome.consistent {ret : Except LibfpgactlErr (Option DevIndex)}
    (h : DevInitOutcome files name env s ret t) (hs : s.Consistent) : t.Consistent :=
  ⟨h.agrees hs.toAgrees, h.dir.trans hs.closed⟩

theorem DevInitOutcome.of_error {e : LibfpgactlErr}
    (h : DevInitOutcome files name env s (.error e) t) :
    t.devices = s.devices ∧ t.devicesNum = s.devicesNum := by
  cases h with
  | failed e v => exact ⟨rfl, rfl⟩

/-! ### Paths -/

/-- A path is at least as long as `FPGA_DEVICE_PREFIX`. -/
def DeviceFiles.Fits (files : DeviceFiles) (name : CString) : Prop :=
  name.head? = some '/' → files.pre.length ≤ name.length

theorem noFault_tail_filename_iff :
    NoFault (files.tail (files.filename name)) ↔ files.Fits name := by
  have hpre : files.pre.length < filenameMax := by
    have := files.fits
    unfold DeviceFiles.pre
    omega
  unfold DeviceFiles.tail DeviceFiles.filename DeviceFiles.Fits
  by_cases hslash : name.head? = some '/'
  · simp only [hslash, if_true, true_imp_iff]
    split_ifs with h
    · exact iff_of_true (noFault_ok _) h
    · exact iff_of_false (not_noFault_error _) h
  · have hle : files.pre.length ≤ ((files.pre ++ name).take (filenameMax - 1)).length := by
      rw [List.length_take, List.length_append]
      omega
    simp only [if_neg hslash, if_pos hle]
    exact iff_of_true (noFault_ok _) fun h => absurd h hslash

/-! ### Command line arguments -/

/-- Whether the options can be parsed, and the names in those before the one that cannot. -/
def parsedNames : List GetoptEvent → Bool × List CString
  | [] => (true, [])
  | .device optarg string names :: events =>
    if string = false then (false, [])
    else ((parsedNames events).1, devnames optarg names ++ (parsedNames events).2)
  | .other :: _ => (false, [])

theorem pushNames_eq {names acc : List CString} (h0 : 0 ≤ s.devicesNum)
    (hroom : s.devicesNum + names.length ≤ fpgaMaxDevices) :
    pushNames s acc names =
      .ok ({ s with devicesNum := s.devicesNum + names.length }, acc ++ names) := by
  induction names generalizing s acc with
  | nil => simp [pushNames]
  | cons name names ih =>
    rw [List.length_cons] at hroom
    rw [pushNames, if_pos ⟨h0, by omega⟩, ih (by dsimp only; omega) (by dsimp only; omega),
      List.append_assoc, List.singleton_append, List.length_cons]
    simp only [Except.ok.injEq, Prod.mk.injEq, LibfpgactlState.mk.injEq, and_true, true_and]
    omega

theorem not_noFault_pushNames {names acc : List CString} (hle : s.devicesNum ≤ fpgaMaxDevices)
    (hroom : fpgaMaxDevices < s.devicesNum + names.length) :
    ¬ NoFault (pushNames s acc names) := by
  induction names generalizing s acc with
  | nil =>
    rw [List.length_nil] at hroom
    omega
  | cons name names ih =>
    rw [List.length_cons] at hroom
    rw [pushNames]
    split
    case isTrue h => exact ih (by dsimp only; omega) (by dsimp only; omega)
    case isFalse => exact not_noFault_error _

theorem parseArgs_eq {events : List GetoptEvent} {acc : List CString} (h0 : 0 ≤ s.devicesNum)
    (hroom : s.devicesNum + (parsedNames events).2.length ≤ fpgaMaxDevices) :
    parseArgs s acc events = .ok ((parsedNames events).1,
      { s with devicesNum := s.devicesNum + (parsedNames events).2.length },
      acc ++ (parsedNames events).2) := by
  induction events generalizing s acc with
  | nil => simp [parseArgs, parsedNames]
  | cons event events ih =>
    cases event with
    | other => simp [parseArgs, parsedNames]
    | device optarg string names =>
      rw [parsedNames] at hroom ⊢
      rw [parseArgs]
      split_ifs at hroom ⊢ with hstring
      · simp
      · rw [List.length_append] at hroom
        rw [pushNames_eq h0 (by omega), ok_bind]
        dsimp only
        rw [ih (by dsimp only; omega) (by dsimp only; omega), List.append_assoc,
          List.length_append]
        simp only [Except.ok.injEq, Prod.mk.injEq, LibfpgactlState.mk.injEq, and_true, true_and]
        omega

theorem not_noFault_parseArgs {events : List GetoptEvent} {acc : List CString}
    (h0 : 0 ≤ s.devicesNum) (hle : s.devicesNum ≤ fpgaMaxDevices)
    (hroom : fpgaMaxDevices < s.devicesNum + (parsedNames events).2.length) :
    ¬ NoFault (parseArgs s acc events) := by
  induction events generalizing s acc with
  | nil =>
    simp only [parsedNames, List.length_nil] at hroom
    omega
  | cons event events ih =>
    cases event with
    | other =>
      simp only [parsedNames, List.length_nil] at hroom
      omega
    | device optarg string names =>
      rw [parsedNames] at hroom
      rw [parseArgs]
      split_ifs at hroom ⊢ with hstring
      · simp only [List.length_nil] at hroom
        omega
      · rw [List.length_append] at hroom
        by_cases hpush : s.devicesNum + (devnames optarg names).length ≤ fpgaMaxDevices
        · rw [pushNames_eq h0 hpush, ok_bind]
          exact ih (by dsimp only; omega) hpush (by dsimp only; omega)
        · rw [noFault_bind]
          rintro ⟨r, hr, -⟩
          exact not_noFault_pushNames hle (by omega) ⟨r, hr⟩

namespace FpgaInitEnv

/-- The names, and what `fpga_dev_simple_init` finds for each. -/
def names (env : FpgaInitEnv) : List (CString × DevInitEnv) :=
  (parsedNames env.options).2.zipIdx.map fun name => (name.1, env.inits name.2)

/-- There are no more names than there is room for; if the options cannot be parsed, there is none
before the one that cannot; else every path that is read is long enough. -/
def Fits (files : DeviceFiles) (env : FpgaInitEnv) (s : LibfpgactlState) : Prop :=
  (parsedNames env.options).2.length ≤ fpgaMaxDevices ∧
    if (parsedNames env.options).1 then
      Along (loopStep (initName files))
        (BeforeFault fun s name => name.2.ReadsName s → files.Fits name.1) (.ok s) env.names
    else (parsedNames env.options).2 = []

end FpgaInitEnv

theorem initName_eq_ok {file : CString × DevInitEnv} (h : initName files s file = .ok t) :
    ∃ ret, devInit files file.1 file.2 s = .ok (ret, t) := by
  obtain ⟨⟨ret, u⟩, hr, h⟩ := bind_eq_ok.mp h
  cases h
  exact ⟨ret, hr⟩

theorem noFault_initName_iff {file : CString × DevInitEnv} :
    NoFault (initName files s file) ↔ (file.2.ReadsName s → files.Fits file.1) := by
  rw [← noFault_tail_filename_iff, ← noFault_devInit_iff]
  exact ⟨fun ⟨t, ht⟩ => (initName_eq_ok ht).elim fun _ h => ⟨_, h⟩,
    fun ⟨r, hr⟩ => noFault_bind.mpr ⟨r, hr, noFault_pure _⟩⟩

theorem initName_consistent {file : CString × DevInitEnv} (hs : s.Consistent)
    (h : initName files s file = .ok t) : t.Consistent := by
  obtain ⟨ret, hr⟩ := initName_eq_ok h
  exact (devInit_outcome hr).consistent hs

/-- `fpga_init` when there is memory, no device and room for the names. -/
theorem fpgaInit_eq {env : FpgaInitEnv} (h0 : s.devicesNum = 0) (halloc : env.deviceName = true)
    (hroom : (parsedNames env.options).2.length ≤ fpgaMaxDevices) :
    fpgaInit files env s =
      if (parsedNames env.options).1 = false then
        .ok (.error .invalidArgument,
          { s with devicesNum := s.devicesNum + (parsedNames env.options).2.length })
      else do
        let t ← env.names.foldlM (initName files) s
        if t.devicesNum = 0 then return (.error .noDevices, t)
        return (.ok (env.optind - 1), t) := by
  have hsame : { s with devicesNum := 0 } = s := by rw [← h0]
  rw [fpgaInit, if_neg (by omega), if_neg (by simp [halloc]),
    parseArgs_eq (by omega) (by omega), ok_bind, List.nil_append]
  dsimp only
  rw [hsame]
  rfl

/-- The loop of `fpga_init`. -/
theorem initNames_keeps_iff {names : List (CString × DevInitEnv)} {optind : ℕ} (hs : s.Consistent)
    (h0 : s.devicesNum = 0) :
    (∃ ret t, (do
        let t ← names.foldlM (initName files) s
        if t.devicesNum = 0 then return (.error .noDevices, t)
        return (.ok (optind - 1), t) : Except CtlFault (Except LibfpgactlErr ℕ × LibfpgactlState)) =
          .ok (ret, t) ∧ t.Consistent ∧
        ∀ e, ret = .error e → t.devices = s.devices ∧ t.devicesNum = s.devicesNum) ↔
      Along (loopStep (initName files))
        (BeforeFault fun s name => name.2.ReadsName s → files.Fits name.1) (.ok s) names := by
  rw [← noFault_foldlM_iff (I := LibfpgactlState.Consistent) (fun _ _ _ => noFault_initName_iff)
    (fun _ _ _ hs h => initName_consistent hs h) hs]
  constructor
  · rintro ⟨ret, t, hret, -⟩
    obtain ⟨u, hu, -⟩ := bind_eq_ok.mp hret
    exact ⟨u, hu⟩
  · rintro ⟨t, ht⟩
    have htc : t.Consistent :=
      foldlM_invariant (fun _ _ _ hs h => initName_consistent hs h) hs ht
    rw [ht, ok_bind]
    by_cases hnone : t.devicesNum = 0
    · refine ⟨.error .noDevices, t, if_pos hnone, htc, fun _ _ => ⟨?_, hnone.trans h0.symm⟩⟩
      have hempty := Slots.entries_eq_nil_iff.mp (htc.toAgrees.entries_eq_nil hnone)
      have hempty' := Slots.entries_eq_nil_iff.mp (hs.toAgrees.entries_eq_nil h0)
      exact funext fun i => (hempty i).trans (hempty' i).symm
    · exact ⟨.ok (optind - 1), t, if_neg hnone, htc, nofun⟩

/-- **`fpga_init`** keeps the table exactly under its condition. -/
theorem fpgaInit_keeps_iff {env : FpgaInitEnv} (hs : s.Consistent) :
    (CtlCall.init env).Keeps files s ↔
      (s.devicesNum ≤ 0 → env.deviceName = true → env.Fits files s) := by
  by_cases hnum : s.devicesNum > 0
  · refine iff_of_true ⟨_, s, if_pos hnum, hs, fun _ _ => ⟨rfl, rfl⟩⟩ fun h => ?_
    exact absurd hnum (not_lt.mpr h)
  by_cases halloc : env.deviceName = false
  · refine iff_of_true ⟨.error .failureMemoryAlloc, s, ?_, hs, fun _ _ => ⟨rfl, rfl⟩⟩ fun _ h => ?_
    · simp only [CtlCall.exec, fpgaInit, if_neg hnum, if_pos halloc]
    · rw [halloc] at h
      cases h
  have h0 : s.devicesNum = 0 := by
    have := hs.count
    omega
  rw [Bool.not_eq_false] at halloc
  have hcond : (s.devicesNum ≤ 0 → env.deviceName = true → env.Fits files s) ↔ env.Fits files s :=
    ⟨fun h => h (by omega) halloc, fun h _ _ => h⟩
  rw [hcond, CtlCall.Keeps]
  change (∃ ret t, fpgaInit files env s = _ ∧ _) ↔ _
  by_cases hroom : (parsedNames env.options).2.length ≤ fpgaMaxDevices
  · rw [fpgaInit_eq h0 halloc hroom, FpgaInitEnv.Fits, and_iff_right hroom]
    cases hparsed : (parsedNames env.options).1 with
    | true =>
      rw [if_neg (by decide), if_pos rfl]
      exact initNames_keeps_iff hs h0
    | false =>
      rw [if_pos rfl, if_neg (by decide)]
      constructor
      · rintro ⟨ret, t, hret, -, herror⟩
        cases hret
        have hnum := (herror _ rfl).2
        rw [← List.length_eq_zero_iff]
        dsimp only at hnum
        omega
      · intro hnil
        refine ⟨.error .invalidArgument, s, ?_, hs, fun _ _ => ⟨rfl, rfl⟩⟩
        simp only [hnil, List.length_nil]
        rw [Int.natCast_zero, Int.add_zero]
  · refine iff_of_false ?_ fun h => hroom h.1
    rintro ⟨ret, t, hret, -⟩
    rw [fpgaInit, if_neg hnum, if_neg (by simp [halloc])] at hret
    obtain ⟨r, hr, -⟩ := bind_eq_ok.mp hret
    exact not_noFault_parseArgs (by omega) (by omega) (by omega) ⟨r, hr⟩

/-! ### Closing devices -/

theorem eq_some_of_fpgaGetDevice {devId : BitVec 32} {dev : FpgaDeviceEntry}
    (h : fpgaGetDevice s devId = some (index, dev)) : s.devices index = some dev := by
  unfold fpgaGetDevice at h
  split at h
  case isTrue =>
    obtain ⟨dev', hdev, heq⟩ := Option.map_eq_some_iff.mp h
    cases heq
    exact hdev
  case isFalse => cases h

theorem fpgaDevFinish_consistent {devId : BitVec 32} (hs : s.Consistent) :
    (fpgaDevFinish devId s).2.Consistent := by
  unfold fpgaDevFinish
  cases hdev : fpgaGetDevice s devId with
  | none => exact hs
  | some found =>
    exact ⟨hs.toAgrees.devFinish (eq_some_of_fpgaGetDevice hdev), hs.closed⟩

/-- **`fpga_dev_finish`** keeps the table. -/
theorem devFinish_keeps {devId : BitVec 32} (hs : s.Consistent) :
    (CtlCall.devFinish devId).Keeps files s := by
  refine ⟨_, _, rfl, fpgaDevFinish_consistent hs, fun e he => ?_⟩
  unfold fpgaDevFinish at he ⊢
  cases hdev : fpgaGetDevice s devId with
  | none => exact ⟨rfl, rfl⟩
  | some found =>
    rw [hdev] at he
    cases he

/-- A loop over the slots keeps what each round keeps. -/
theorem foldl_consistent {f : LibfpgactlState → DevIndex → LibfpgactlState}
    (hf : ∀ s index, s.Consistent → (f s index).Consistent) (hs : s.Consistent)
    (indices : List DevIndex) : (indices.foldl f s).Consistent := by
  induction indices generalizing s with
  | nil => exact hs
  | cons index indices ih => exact ih (hf s index hs)

/-- **`fpga_finish`** keeps the table. -/
theorem finish_keeps (hs : s.Consistent) : CtlCall.finish.Keeps files s := by
  refine ⟨_, _, rfl, ?_, fun e he => ?_⟩
  · unfold fpgaFinish
    split
    · exact hs
    · refine foldl_consistent (fun s index hs => ?_) hs _
      split
      · exact fpgaDevFinish_consistent hs
      · exact hs
  · unfold fpgaFinish at he ⊢
    split at he
    case isTrue h => exact (if_pos h).symm ▸ ⟨rfl, rfl⟩
    case isFalse => cases he

/-! ### Scanning -/

/-- The names of the devices that are open. -/
def LibfpgactlState.names (s : LibfpgactlState) : List CString := s.devices.entries.map (·.name)

/-- The name of the device that a file is for, if it is for one. -/
def DeviceFiles.serial (files : DeviceFiles) (file : CString) : Option CString :=
  if files.file.isPrefixOf file then some (file.drop files.file.length) else none

/-- The names of the devices in a directory. -/
def DeviceFiles.serials (files : DeviceFiles) (listing : List (CString × DevInitEnv)) :
    List CString := listing.filterMap fun file => files.serial file.1

theorem isSome_getDevId_iff (h : name.head? ≠ some '/') :
    (getDevId files name s).isSome ↔ name ∈ s.names := by
  rw [getDevId, if_neg h, List.find?_isSome, LibfpgactlState.names, List.mem_map]
  constructor
  · rintro ⟨index, -, hindex⟩
    obtain ⟨dev, hdev, heq⟩ := Option.any_eq_true _ _ |>.mp hindex
    exact ⟨dev, Slots.mem_entries_of_eq hdev, (Option.some.inj (of_decide_eq_true heq)).symm⟩
  · rintro ⟨dev, hdev, rfl⟩
    obtain ⟨index, hindex⟩ := Slots.mem_entries.mp hdev
    exact ⟨index, List.mem_finRange _, by simp [hindex]⟩

/-- The path of a name is read from the name on. -/
theorem tail_filename (hslash : name.head? ≠ some '/') (hshort : name.length ≤ 255) :
    files.tail (files.filename name) = .ok name := by
  have hfits : (files.pre ++ name).length ≤ filenameMax - 1 := by
    have := files.fits
    rw [List.length_append]
    unfold DeviceFiles.pre
    omega
  rw [DeviceFiles.filename, if_neg hslash, List.take_of_length_le hfits, DeviceFiles.tail,
    if_pos (by rw [List.length_append]; omega), List.drop_left]

/-- What a round of the scan can come to. -/
inductive ScanFileOutcome (files : DeviceFiles) (file : CString × DevInitEnv)
    (s : LibfpgactlState) (k : ℕ) : LibfpgactlState × ℕ → Prop
  /-- The file is for no device. -/
  | skipped (h : files.serial file.1 = none) : ScanFileOutcome files file s k (s, k)
  /-- The device is open already. -/
  | known (name : CString) (h : files.serial file.1 = some name) (hmem : name ∈ s.names) :
      ScanFileOutcome files file s k (s, k + 1)
  /-- The device cannot be opened. -/
  | failed (name : CString) (h : files.serial file.1 = some name) (hnew : name ∉ s.names)
      (v : BitVec 32) (hfails : ¬ file.2.Succeeds s) :
      ScanFileOutcome files file s k ({ s with driverVersion := v }, k)
  /-- The device is opened. -/
  | opened (name : CString) (h : files.serial file.1 = some name) (hnew : name ∉ s.names)
      (hsucceeds : file.2.Succeeds s) (t : LibfpgactlState) (hagrees : s.Agrees → t.Agrees)
      (hdir : t.dir = s.dir) (hnames : ∀ y, y ∈ t.names ↔ y = name ∨ y ∈ s.names)
      (hnum : t.devicesNum = s.devicesNum + 1) : ScanFileOutcome files file s k (t, k + 1)

theorem scanFile_outcome {file : CString × DevInitEnv} {k : ℕ} (hslash : '/' ∉ file.1)
    (hshort : file.1.length ≤ 255) :
    ∃ r, scanFile files (s, k) file = .ok r ∧ ScanFileOutcome files file s k r := by
  unfold scanFile
  split
  case isFalse h => exact ⟨_, rfl, .skipped (if_neg h)⟩
  case isTrue h =>
    have hserial : files.serial file.1 = some (file.1.drop files.file.length) := if_pos h
    have hhead : (file.1.drop files.file.length).head? ≠ some '/' := fun hh =>
      hslash (List.mem_of_mem_drop (List.mem_of_head? hh))
    have hlen : (file.1.drop files.file.length).length ≤ 255 := by
      rw [List.length_drop]
      omega
    have htail : files.tail (files.filename (file.1.drop files.file.length)) =
        .ok (file.1.drop files.file.length) := tail_filename hhead hlen
    have hknown : (getDevId files (file.1.drop files.file.length) s).isSome ↔
        file.1.drop files.file.length ∈ s.names := isSome_getDevId_iff hhead
    dsimp only
    cases hid : getDevId files (file.1.drop files.file.length) s with
    | some index =>
      have hmem := hknown.mp (by rw [hid]; rfl)
      exact ⟨_, rfl, .known _ hserial hmem⟩
    | none =>
      have hnew : file.1.drop files.file.length ∉ s.names := fun hmem => by
        rw [← hknown, hid] at hmem
        cases hmem
      obtain ⟨⟨ret, t⟩, hret⟩ : NoFault (devInit files _ file.2 s) :=
        noFault_devInit_iff.mpr fun _ => ⟨_, htail⟩
      have houtcome := devInit_outcome hret
      rw [hret]
      cases houtcome with
      | failed e v hfails => exact ⟨_, rfl, .failed _ hserial hnew v hfails⟩
      | already dev hdev hname =>
        have heq := Except.ok.inj (htail.symm.trans hname)
        exact absurd (List.mem_map.mpr ⟨dev, hdev, heq.symm⟩) hnew
      | opened index dev v hsucceeds hfree hname hnewdev hfd =>
        refine ⟨_, rfl, .opened _ hserial hnew hsucceeds _
          (fun hs => hs.fill hfree hnewdev hfd v) rfl (fun y => ?_) rfl⟩
        have hperm := (Slots.entries_fill hfree dev).map (·.name)
        rw [Except.ok.inj (htail.symm.trans hname)]
        exact hperm.mem_iff.trans List.mem_cons

/-- What a scan leaves of a table. -/
structure ScannedTable (files : DeviceFiles) (listing : List (CString × DevInitEnv))
    (s t : LibfpgactlState) : Prop where
  /-- The table agrees. -/
  agrees : t.Agrees
  /-- The directory is still open. -/
  dir : t.dir = s.dir
  /-- No device is closed. -/
  mono : ∀ name ∈ s.names, name ∈ t.names
  /-- The devices that are opened are in the directory. -/
  names : ∀ name ∈ t.names, name ∈ s.names ∨ name ∈ files.serials listing
  /-- Devices are added. -/
  le : s.devicesNum ≤ t.devicesNum
  /-- Without a new device the table is the same. -/
  same : t.devicesNum = s.devicesNum → t.devices = s.devices

theorem DeviceFiles.serials_subset_cons (files : DeviceFiles) (file : CString × DevInitEnv)
    (listing : List (CString × DevInitEnv)) :
    files.serials listing ⊆ files.serials (file :: listing) :=
  List.filterMap_subset _ (List.subset_cons_self file listing)

/-- A file without a new device. -/
theorem ScannedTable.cons {listing : List (CString × DevInitEnv)} (file : CString × DevInitEnv)
    (h : ScannedTable files listing s t) : ScannedTable files (file :: listing) s t where
  agrees := h.agrees
  dir := h.dir
  mono := h.mono
  names := fun y hy => (h.names y hy).imp_right fun hy => files.serials_subset_cons file listing hy
  le := h.le
  same := h.same

/-- The file is not one that is opened. -/
def NotOpened (files : DeviceFiles) (s : LibfpgactlState × ℕ) (file : CString × DevInitEnv) :
    Prop :=
  ∀ name, files.serial file.1 = some name → name ∉ s.1.names → ¬ file.2.Succeeds s.1

/-- The loop of `fpga_scan_devices` counts the devices of the directory that are open when it
ends. -/
theorem scanFiles_eq {listing : List (CString × DevInitEnv)} {k : ℕ} (hs : s.Agrees)
    (hnodup : (files.serials listing).Nodup)
    (hfile : ∀ file ∈ listing, '/' ∉ file.1 ∧ file.1.length ≤ 255) :
    ∃ t, listing.foldlM (scanFile files) (s, k) =
        .ok (t, k + (files.serials listing).countP (· ∈ t.names)) ∧
      ScannedTable files listing s t ∧
      (Along (loopStep (scanFile files)) (BeforeFault (NotOpened files)) (.ok (s, k)) listing ↔
        t.devicesNum = s.devicesNum) := by
  induction listing generalizing s k with
  | nil =>
    exact ⟨s, rfl, ⟨hs, rfl, fun _ h => h, fun _ h => .inl h, le_rfl, fun _ => rfl⟩,
      iff_of_true trivial rfl⟩
  | cons file listing ih =>
    obtain ⟨hslash, hshort⟩ := hfile file (List.mem_cons_self ..)
    have hrest := fun f hf => hfile f (List.mem_cons_of_mem _ hf)
    obtain ⟨r, hr, houtcome⟩ : ∃ r, scanFile files (s, k) file = .ok r ∧
        ScanFileOutcome files file s k r := scanFile_outcome hslash hshort
    rw [List.foldlM_cons, hr, ok_bind, along_loopStep_cons hr]
    cases houtcome with
    | skipped h =>
      have hserials : files.serials (file :: listing) = files.serials listing :=
        List.filterMap_cons_none h
      rw [hserials] at hnodup ⊢
      obtain ⟨t, ht, hscanned, hiff⟩ := ih (k := k) hs hnodup hrest
      refine ⟨t, ht, hscanned.cons file, ?_⟩
      · have hnot : NotOpened files (s, k) file := fun name hname => by rw [h] at hname; cases hname
        exact (and_iff_right hnot).trans hiff
    | known name h hmem =>
      have hserials : files.serials (file :: listing) = name :: files.serials listing :=
        List.filterMap_cons_some h
      rw [hserials] at hnodup ⊢
      obtain ⟨t, ht, hscanned, hiff⟩ := ih (k := k + 1) hs (List.nodup_cons.mp hnodup).2 hrest
      refine ⟨t, ?_, hscanned.cons file, ?_⟩
      · rw [ht, List.countP_cons_of_pos (by simpa using hscanned.mono name hmem)]
        simp only [Except.ok.injEq, Prod.mk.injEq, true_and]
        omega
      · have hnot : NotOpened files (s, k) file := fun name' hname hnew => by
          cases h.symm.trans hname
          exact absurd hmem hnew
        exact (and_iff_right hnot).trans hiff
    | failed name h hnew v hfails =>
      have hserials : files.serials (file :: listing) = name :: files.serials listing :=
        List.filterMap_cons_some h
      rw [hserials] at hnodup ⊢
      obtain ⟨hout, hnodup⟩ := List.nodup_cons.mp hnodup
      obtain ⟨t, ht, hscanned, hiff⟩ := ih (k := k) (hs.setVersion v) hnodup hrest
      have hscanned : ScannedTable files listing s t :=
        ⟨hscanned.agrees, hscanned.dir, hscanned.mono, hscanned.names, hscanned.le, hscanned.same⟩
      have hclosed : name ∉ t.names := fun hmem => (hscanned.names name hmem).elim hnew hout
      refine ⟨t, ?_, hscanned.cons file, ?_⟩
      · rw [ht, List.countP_cons_of_neg (by simpa using hclosed)]
      · have hnot : NotOpened files (s, k) file := fun _ _ _ => hfails
        exact (and_iff_right hnot).trans hiff
    | opened name h hnew hsucceeds u hagrees hdir hnames hnum =>
      have hserials : files.serials (file :: listing) = name :: files.serials listing :=
        List.filterMap_cons_some h
      rw [hserials] at hnodup ⊢
      obtain ⟨t, ht, hscanned, hiff⟩ :=
        ih (k := k + 1) (hagrees hs) (List.nodup_cons.mp hnodup).2 hrest
      have hlt : s.devicesNum < t.devicesNum := by
        have := hscanned.le
        omega
      refine ⟨t, ?_, ⟨hscanned.agrees, hscanned.dir.trans hdir, fun y hy => ?_, fun y hy => ?_,
        hlt.le, fun heq => absurd heq hlt.ne'⟩, ?_⟩
      · have hopen : name ∈ t.names := hscanned.mono name ((hnames name).mpr (.inl rfl))
        rw [ht, List.countP_cons_of_pos (by simpa using hopen)]
        simp only [Except.ok.injEq, Prod.mk.injEq, true_and]
        omega
      · exact hscanned.mono y ((hnames y).mpr (.inr hy))
      · rw [hserials]
        rcases hscanned.names y hy with hy | hy
        · refine ((hnames y).mp hy).symm.imp_right fun heq => ?_
          rw [heq]
          exact List.mem_cons_self ..
        · exact .inr (List.mem_cons_of_mem _ hy)
      · exact iff_of_false (fun hnot => hnot.1 name h hnew hsucceeds) hlt.ne'

theorem eq_append_of_serial {file : CString} (h : files.serial file = some name) :
    file = files.file ++ name := by
  unfold DeviceFiles.serial at h
  split at h
  case isTrue hle =>
    cases h
    exact (List.prefix_iff_eq_append.mp (List.isPrefixOf_iff_prefix.mp hle)).symm
  case isFalse => cases h

/-- The names of a directory are different. -/
theorem nodup_serials {listing : List (CString × DevInitEnv)}
    (h : (listing.map Prod.fst).Nodup) : (files.serials listing).Nodup := by
  have hserials : files.serials listing = (listing.map Prod.fst).filterMap files.serial := by
    rw [List.filterMap_map]
    rfl
  rw [hserials]
  refine h.filterMap fun x y name hx hy => ?_
  rw [eq_append_of_serial hx, eq_append_of_serial hy]

/-- As many of different names are in the table as the table has names exactly if the table has no
other names. -/
theorem countP_mem_eq_length_iff {names table : List CString} (hnames : names.Nodup)
    (htable : table.Nodup) :
    names.countP (· ∈ table) = table.length ↔ ∀ name ∈ table, name ∈ names := by
  have hperm : (names.filter (· ∈ table)).Perm (table.filter (· ∈ names)) := by
    refine (List.perm_ext_iff_of_nodup (hnames.filter _) (htable.filter _)).mpr fun name => ?_
    simp only [List.mem_filter, decide_eq_true_eq, and_comm]
  rw [List.countP_eq_length_filter, hperm.length_eq, ← List.countP_eq_length_filter,
    List.countP_eq_length]
  simp only [decide_eq_true_eq]

/-- All devices that are open are in the directory, or no other is opened. -/
def ScanEnv.Fits (files : DeviceFiles) (env : ScanEnv) (s : LibfpgactlState) : Prop :=
  ∀ fd ∈ env.dir, (∀ name ∈ s.names, name ∈ files.serials env.listing) ∨
    Along (loopStep (scanFile files)) (BeforeFault (NotOpened files))
      (.ok ({ s with dir := some (s.fresh fd) }, 0)) env.listing

/-- **`fpga_scan_devices`** keeps the table exactly under its condition. -/
theorem scanDevices_keeps_iff {env : ScanEnv} (hs : s.Consistent) :
    (CtlCall.scanDevices env).Keeps files s ↔ env.Fits files s := by
  rw [CtlCall.Keeps, ScanEnv.Fits]
  change (∃ ret t, fpgaScanDevices files env s = _ ∧ _) ↔ _
  unfold fpgaScanDevices
  cases hdir : env.dir with
  | none => exact iff_of_true ⟨_, s, rfl, hs, fun _ _ => ⟨rfl, rfl⟩⟩ nofun
  | some fd =>
    have hopen : LibfpgactlState.Agrees { s with dir := some (s.fresh fd) } :=
      ⟨hs.count, hs.names, hs.fds, hs.opened⟩
    obtain ⟨t, ht, hscanned, halong⟩ := @scanFiles_eq files _ env.listing 0 hopen
      (nodup_serials env.nodup) fun file hfile => ⟨env.noSlash file hfile, env.short file hfile⟩
    have hnum : t.devicesNum = (t.names.length : ℤ) := by
      rw [hscanned.agrees.count, LibfpgactlState.names, List.length_map]
    have htable : t.names.Nodup := hscanned.agrees.names
    have hcount : t.devicesNum = ((0 + (files.serials env.listing).countP (· ∈ t.names) : ℕ) : ℤ) ↔
        ∀ name ∈ s.names, name ∈ files.serials env.listing := by
      rw [hnum, Nat.zero_add, eq_comm, Int.ofNat_inj,
        countP_mem_eq_length_iff (nodup_serials env.nodup) htable]
      exact ⟨fun h name hname => h name (hscanned.mono name hname),
        fun h name hname => (hscanned.names name hname).elim (h name) id⟩
    have hclosed : LibfpgactlState.Consistent { t with dir := none } :=
      ⟨⟨hscanned.agrees.count, hscanned.agrees.names, hscanned.agrees.fds,
        hscanned.agrees.opened⟩, rfl⟩
    dsimp only
    rw [ht, ok_bind]
    dsimp only
    have hfits : (∀ fd' ∈ some fd, (∀ name ∈ s.names, name ∈ files.serials env.listing) ∨
        Along (loopStep (scanFile files)) (BeforeFault (NotOpened files))
          (.ok ({ s with dir := some (s.fresh fd') }, 0)) env.listing) ↔
        ((∀ name ∈ s.names, name ∈ files.serials env.listing) ∨ t.devicesNum = s.devicesNum) := by
      rw [← halong]
      exact ⟨fun h => h fd rfl, fun h _ heq => Option.mem_some_iff.mp heq ▸ h⟩
    rw [hfits, ← hcount]
    by_cases heq : t.devicesNum = ((0 + (files.serials env.listing).countP (· ∈ t.names) : ℕ) : ℤ)
    · refine iff_of_true ⟨_, _, if_neg (not_not.mpr heq), hclosed, nofun⟩ (.inl heq)
    · rw [if_pos heq, or_iff_right heq]
      constructor
      · rintro ⟨ret, u, hret, -, herror⟩
        cases hret
        exact (herror _ rfl).2
      · exact fun hsame => ⟨_, _, rfl, hclosed, fun _ _ => ⟨hscanned.same hsame, hsame⟩⟩

/-! ### Runs -/

/-- The state after a call. -/
def CtlCall.next (files : DeviceFiles) (s : LibfpgactlState) (call : CtlCall) :
    Except CtlFault LibfpgactlState := (call.exec files s).map Prod.snd

/-- Under what condition a call keeps the table. -/
def CtlCall.Fits (files : DeviceFiles) (s : LibfpgactlState) : CtlCall → Prop
  | .init env => s.devicesNum ≤ 0 → env.deviceName = true → env.Fits files s
  | .devInit name devId env =>
    ∀ path ∈ name, devId = true → env.ReadsName s → files.Fits path
  | .devSimpleInit name env => ∀ path ∈ name, env.ReadsName s → files.Fits path
  | .scanDevices env => env.Fits files s
  | .devFinish _ | .finish => True

/-- A call that goes to `__fpga_dev_init`. -/
theorem devInit_keeps_iff (hs : s.Consistent) :
    (∃ ret t, (devInit files name env s).map (fun r => (r.1.map fun _ => 0, r.2)) =
        .ok ((ret : Except LibfpgactlErr ℕ), t) ∧ t.Consistent ∧
        ∀ e, ret = .error e → t.devices = s.devices ∧ t.devicesNum = s.devicesNum) ↔
      (env.ReadsName s → files.Fits name) := by
  rw [← noFault_tail_filename_iff, ← noFault_devInit_iff]
  constructor
  · rintro ⟨ret, t, hret, -⟩
    exact noFault_map.mp ⟨_, hret⟩
  · rintro ⟨⟨ret, t⟩, hret⟩
    have houtcome := devInit_outcome hret
    refine ⟨_, t, map_eq_ok.mpr ⟨_, hret, rfl⟩, houtcome.consistent hs, fun e he => ?_⟩
    cases ret with
    | ok index => cases he
    | error e' => exact houtcome.of_error

/-- **A call** keeps the table exactly under its condition. -/
theorem keeps_iff {call : CtlCall} (hs : s.Consistent) :
    call.Keeps files s ↔ call.Fits files s := by
  cases call with
  | init env => exact fpgaInit_keeps_iff hs
  | devInit name devId env =>
    cases name with
    | none => exact iff_of_true ⟨_, s, rfl, hs, fun _ _ => ⟨rfl, rfl⟩⟩ nofun
    | some path =>
      cases devId with
      | false => exact iff_of_true ⟨_, s, rfl, hs, fun _ _ => ⟨rfl, rfl⟩⟩ nofun
      | true =>
        refine (devInit_keeps_iff hs).trans ⟨fun h path' hpath _ => ?_, fun h => h path rfl rfl⟩
        exact Option.mem_some_iff.mp hpath ▸ h
  | devSimpleInit name env =>
    cases name with
    | none => exact iff_of_true ⟨_, s, rfl, hs, fun _ _ => ⟨rfl, rfl⟩⟩ nofun
    | some path =>
      refine (devInit_keeps_iff hs).trans ⟨fun h path' hpath => ?_, fun h => h path rfl⟩
      exact Option.mem_some_iff.mp hpath ▸ h
  | scanDevices env => exact scanDevices_keeps_iff hs
  | devFinish devId => exact iff_of_true (devFinish_keeps hs) trivial
  | finish => exact iff_of_true (finish_keeps hs) trivial

/-- **The device table**: in a run from the start every call keeps the table, and returns, exactly if
every call meets its condition. -/
theorem deviceTable_iff (files : DeviceFiles) (calls : List CtlCall) :
    Along (loopStep (CtlCall.next files)) (BeforeFault (CtlCall.Keeps files)) (.ok .start) calls ↔
      Along (loopStep (CtlCall.next files)) (BeforeFault (CtlCall.Fits files)) (.ok .start)
        calls := by
  refine along_iff_along (I := fun r => ∃ s, r = .ok s ∧ s.Consistent) ?_ ?_
    ⟨_, rfl, LibfpgactlState.consistent_start⟩
  · rintro _ call _ ⟨s, rfl, hs⟩ hfits ⟨⟩
    obtain ⟨ret, t, ht, htc, -⟩ := (keeps_iff hs).mpr hfits
    exact ⟨t, map_eq_ok.mpr ⟨_, ht, rfl⟩, htc⟩
  · rintro _ call _ ⟨s, rfl, hs⟩ -
    exact keeps_iff hs

/-- The arguments `-d a,b -x`. -/
def unknownOption : FpgaInitEnv where
  deviceName := true
  options := [.device "a,b".toList true fun _ => true, .other]
  optind := 0
  inits _ := ⟨true, none, none, none, true, true⟩

/-- `fpga_init` fails, and says that two devices are open. -/
theorem not_deviceTable : ¬ Along (loopStep (CtlCall.next serialIdFiles))
    (BeforeFault (CtlCall.Keeps serialIdFiles)) (.ok .start) [.init unknownOption] := by
  intro h
  have hfits := ((keeps_iff LibfpgactlState.consistent_start).mp (h _ rfl).1) le_rfl rfl
  have hnames := hfits.2
  rw [if_neg (by decide)] at hnames
  exact absurd hnames (by decide)

end HardwareDrivers.Libfpga
