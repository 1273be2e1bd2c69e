import HardwareDrivers.Libfpga.DeviceTableSound

/-!
# Opening a device by its name

A name that begins with `/` is the path of the device file; any other is what comes after
`FPGA_DEVICE_PREFIX` in it. `fpga_dev_init` makes the path, and then keeps and compares what is left
of it behind as many characters as the prefix has, whatever they are. It writes `*dev_id` only when it
opens the device itself. `fpga_get_dev_id` goes by the name it is given.

## What is proved

* `Slots.find?_fill` — an entry under a new name is the one that is found by it.
* `byName_of_fair`, `fair_of_byName` — when a call opens what its name denotes.
* `opensByName_iff` — exactly when.
-/

namespace HardwareDrivers.Theory.Slots

universe u v

variable {n : ℕ} {β : Type u} {t : Slots n β} {i : Fin n} {b : β}

/-- The entry of a slot that is filled is the first one with its key, if no other has it. -/
theorem find?_fill {κ : Type v} [DecidableEq κ] {key : β → κ}
    (hnew : ∀ e ∈ t.entries, key e ≠ key b) :
    (List.finRange n).find? (fun j => (Function.update t i (some b) j).any fun e => key b = key e) =
      some i := by
  cases hfind : (List.finRange n).find? fun j =>
      (Function.update t i (some b) j).any fun e => key b = key e with
  | none =>
    have hnot := List.find?_eq_none.mp hfind i (List.mem_finRange i)
    rw [Function.update_self] at hnot
    exact absurd (decide_eq_true rfl) hnot
  | some j =>
    have hfound := List.find?_some hfind
    by_cases hj : j = i
    · rw [hj]
    · rw [Function.update_of_ne hj, Option.any_eq_true] at hfound
      obtain ⟨e, he, heq⟩ := hfound
      exact absurd (of_decide_eq_true heq).symm (hnew e (mem_entries_of_eq he))

end HardwareDrivers.Theory.Slots

namespace HardwareDrivers.Libfpga

open Theory

/-! ### Looking for a device -/

/-- `fpga_get_dev_id`. -/
def fpgaGetDevId (files : DeviceFiles) (name : Option CString) (devId : Bool)
    (s : LibfpgactlState) : Except LibfpgactlErr DevIndex :=
  match name, devId with
  | some name, true => (getDevId files name s).elim (.error .notInitialized) .ok
  | _, _ => .error .invalidArgument

/-! ### The property -/

/-- The device file that a name denotes. -/
def DeviceFiles.denoted (files : DeviceFiles) (name : CString) : CString :=
  if name.head? = some '/' then name else files.pre ++ name

/-- The files that the open entries were opened by, after `fpga_dev_init`. -/
def filesAfter (files : DeviceFiles) (name : CString) (file : DevIndex → CString) :
    Option DevIndex → DevIndex → CString
  | some index => Function.update file index (files.filename name)
  | none => file

/-- What `fpga_dev_init` is to do, where the open entries were opened by `file`. -/
structure OpensByName (files : DeviceFiles) (name : CString) (env : DevInitEnv)
    (s : LibfpgactlState) (file : DevIndex → CString) : Prop where
  /-- It reads no further than the string or the buffer goes. -/
  noFault : NoFault (fpgaDevInit files (some name) true env s)
  /-- When it returns 0, the index that is written to `*dev_id` is that of an open entry for the file
  that the name denotes, and is found by the name. -/
  opens : ∀ r t, fpgaDevInit files (some name) true env s = .ok (.ok r, t) → ∃ index,
    r = some index ∧ (t.devices index).isSome ∧
      filesAfter files name file r index = files.denoted name ∧
      fpgaGetDevId files (some name) true t = .ok index

/-- Where it does: a path is at least as long as the prefix if it comes to be read; no device is open
whose name is what is left behind so many characters; and where nothing fails, a path is longer than
the prefix, and any other name fits in `tmp_filename`. -/
structure NameFair (files : DeviceFiles) (name : CString) (env : DevInitEnv)
    (s : LibfpgactlState) : Prop where
  /-- A path has as many characters as the prefix. -/
  fits : env.ReadsName s → files.Fits name
  /-- The device is not open already, nor another one with the same end. -/
  closed : env.filename = true → ∀ dev ∈ s.devices.entries,
    files.tail (files.filename name) ≠ .ok dev.name
  /-- A path has one character more. -/
  longer : env.Succeeds s → name.head? = some '/' → files.pre.length < name.length
  /-- A name is not cut. -/
  whole : env.Succeeds s → name.head? ≠ some '/' → (files.pre ++ name).length < filenameMax

variable {files : DeviceFiles} {name : CString} {env : DevInitEnv} {s t : LibfpgactlState}
  {file : DevIndex → CString} {index : DevIndex} {dev : FpgaDeviceEntry}

/-! ### Names and paths -/

@[simp] theorem filesAfter_self :
    filesAfter files name file (some index) index = files.filename name := Function.update_self ..

theorem filename_of_path (h : name.head? = some '/') : files.filename name = name := if_pos h

theorem filename_of_name (h : name.head? ≠ some '/') :
    files.filename name = (files.pre ++ name).take (filenameMax - 1) := if_neg h

theorem denoted_of_path (h : name.head? = some '/') : files.denoted name = name := if_pos h

theorem denoted_of_name (h : name.head? ≠ some '/') : files.denoted name = files.pre ++ name :=
  if_neg h

/-- The path is the one that the name denotes exactly if it is not cut. -/
theorem filename_eq_denoted_iff : files.filename name = files.denoted name ↔
    (name.head? ≠ some '/' → (files.pre ++ name).length < filenameMax) := by
  by_cases h : name.head? = some '/'
  · rw [filename_of_path h, denoted_of_path h]
    exact iff_of_true rfl fun hne => absurd h hne
  · rw [filename_of_name h, denoted_of_name h, List.take_eq_self_iff, forall_prop_of_true h]
    unfold filenameMax
    omega

theorem tail_eq_ok {filename tail : CString} (h : files.tail filename = .ok tail) :
    tail = filename.drop files.pre.length := by
  unfold DeviceFiles.tail at h
  split_ifs at h
  cases h
  rfl

/-- What is looked for in the table. -/
theorem getDevId_eq (files : DeviceFiles) (name : CString) (s : LibfpgactlState) :
    getDevId files name s = (List.finRange fpgaMaxDevices).find? fun index =>
      (s.devices index).any fun dev =>
        (if name.head? = some '/' then
          if name.length ≤ files.pre.length then none else some (name.drop files.pre.length)
        else some name) = some dev.name := rfl

/-- A new entry is found by a path that is longer than the prefix, and by a name that is not cut. -/
theorem getDevId_of_new (hname : files.tail (files.filename name) = .ok dev.name)
    (hnew : ∀ e ∈ s.devices.entries, e.name ≠ dev.name)
    (hdevices : t.devices = Function.update s.devices index (some dev))
    (hlonger : name.head? = some '/' → files.pre.length < name.length)
    (hwhole : name.head? ≠ some '/' → (files.pre ++ name).length < filenameMax) :
    getDevId files name t = some index := by
  have hkey : (if name.head? = some '/' then
      if name.length ≤ files.pre.length then none else some (name.drop files.pre.length)
    else some name) = some dev.name := by
    have htail := tail_eq_ok hname
    by_cases h : name.head? = some '/'
    · rw [if_pos h, if_neg (not_le.mpr (hlonger h)), htail, filename_of_path h]
    · rw [filename_eq_denoted_iff.mpr hwhole, denoted_of_name h, List.drop_left] at htail
      rw [if_neg h, htail]
  have hfind := Slots.find?_fill (i := index) hnew
  rw [getDevId_eq, hkey, hdevices]
  simpa only [Option.some.injEq] using hfind

/-- Nothing is found by a path that is not longer than the prefix. -/
theorem getDevId_eq_none (hpath : name.head? = some '/') (hle : name.length ≤ files.pre.length) :
    getDevId files name s = none := by
  rw [getDevId_eq, if_pos hpath, if_pos hle, List.find?_eq_none]
  intro index _
  cases s.devices index with
  | none => exact Bool.false_ne_true
  | some dev => exact Bool.false_ne_true

/-! ### One call -/

/-- Without memory there is an error. -/
theorem filename_of_ok {r : Option DevIndex} (h : devInit files name env s = .ok (.ok r, t)) :
    env.filename = true := by
  by_contra hnot
  unfold devInit at h
  rw [if_pos (Bool.eq_false_iff.mpr hnot)] at h
  cases h

/-- **Where the condition holds, the call opens what its name denotes.** -/
theorem byName_of_fair (hfair : NameFair files name env s) : OpensByName files name env s file := by
  refine ⟨noFault_devInit_iff.mpr fun hreads => noFault_tail_filename_iff.mpr (hfair.fits hreads),
    fun r t h => ?_⟩
  have hfilename := filename_of_ok h
  cases devInit_outcome h with
  | already dev hdev hname => exact absurd hname (hfair.closed hfilename dev hdev)
  | opened index dev v hsucceeds hfree hname hnew hfd =>
    refine ⟨index, rfl, ?_, ?_, ?_⟩
    · dsimp only
      rw [Function.update_self]
      rfl
    · exact filesAfter_self.trans (filename_eq_denoted_iff.mpr (hfair.whole hsucceeds))
    · unfold fpgaGetDevId
      dsimp only
      rw [getDevId_of_new hname hnew rfl (hfair.longer hsucceeds) (hfair.whole hsucceeds)]
      rfl

/-- A device that is open already is left as it is. -/
theorem devInit_already (hfilename : env.filename = true) (hdev : dev ∈ s.devices.entries)
    (hname : files.tail (files.filename name) = .ok dev.name) :
    devInit files name env s = .ok (.ok none, s) := by
  have hne : s.devices.entries ≠ [] := List.ne_nil_of_mem hdev
  have hany : (s.devices.entries.any fun e => e.name = dev.name) = true :=
    List.any_eq_true.mpr ⟨dev, hdev, decide_eq_true rfl⟩
  unfold devInit isOpening
  rw [hfilename, if_neg Bool.noConfusion, if_neg hne, hname, ok_bind, hany]
  rfl

/-- **A call that opens what its name denotes meets the condition.** -/
theorem fair_of_byName (h : OpensByName files name env s file) : NameFair files name env s := by
  have hfits : env.ReadsName s → files.Fits name := fun hreads =>
    noFault_tail_filename_iff.mp (noFault_devInit_iff.mp h.noFault hreads)
  have hclosed : env.filename = true → ∀ dev ∈ s.devices.entries,
      files.tail (files.filename name) ≠ .ok dev.name := by
    intro hfilename dev hdev hname
    obtain ⟨index, hr, -⟩ := h.opens none s (devInit_already hfilename hdev hname)
    cases hr
  have hopened : env.Succeeds s → ∃ index t, files.filename name = files.denoted name ∧
      fpgaGetDevId files (some name) true t = .ok index := by
    intro hsucceeds
    obtain ⟨⟨ret, t⟩, hret⟩ := h.noFault
    cases devInit_outcome hret with
    | failed e v hfails => exact absurd hsucceeds hfails
    | already dev hdev hname => exact absurd hname (hclosed hsucceeds.1 dev hdev)
    | opened index dev v _ _ hname _ _ =>
      obtain ⟨index', hr, -, hfile, hfound⟩ := h.opens _ _ hret
      cases hr
      exact ⟨index, _, filesAfter_self.symm.trans hfile, hfound⟩
  refine ⟨hfits, hclosed, fun hsucceeds hpath => ?_, fun hsucceeds => ?_⟩
  · obtain ⟨index, t, -, hfound⟩ := hopened hsucceeds
    by_contra hle
    unfold fpgaGetDevId at hfound
    dsimp only at hfound
    rw [getDevId_eq_none hpath (not_lt.mp hle)] at hfound
    cases hfound
  · obtain ⟨index, t, hfile, -⟩ := hopened hsucceeds
    exact filename_eq_denoted_iff.mp hfile

/-- **`fpga_dev_init` opens what its name denotes exactly where the condition holds**, whatever the
table is. -/
theorem opensByName_iff (files : DeviceFiles) (name : CString) (env : DevInitEnv)
    (s : LibfpgactlState) (file : DevIndex → CString) :
    OpensByName files name env s file ↔ NameFair files name env s :=
  ⟨fair_of_byName, byName_of_fair⟩

/-- Everything can be done. -/
def devAnswers : DevInitEnv := ⟨true, some 3, some 0x01000000, some 0, true, true⟩

/-- A device that is opened twice: the second time nothing is written to `*dev_id`. -/
theorem not_opensByName : ¬ ∀ (calls : List CtlCall) (s : LibfpgactlState) (name : CString)
    (env : DevInitEnv) (file : DevIndex → CString),
    run (loopStep (CtlCall.next serialIdFiles)) (.ok .start) calls = some (.ok s) →
      OpensByName serialIdFiles name env s file := by
  intro h
  have hopens := h [.devInit (some "5".toList) true devAnswers] _ "5".toList devAnswers (fun _ => [])
    rfl
  obtain ⟨index, hr, -⟩ := hopens.opens none _ rfl
  cases hr

end HardwareDrivers.Libfpga
