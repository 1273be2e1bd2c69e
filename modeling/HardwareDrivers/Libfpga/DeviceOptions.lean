import HardwareDrivers.Libfpga.DeviceTableSound

/-!
# The device option

`__parse_devname_string` writes a terminator over each comma of the argument, and then stores what is
at the start of the string and what is behind each terminator. The names are counted in `devices_num`
and stored in a list for `FPGA_MAX_DEVICES` of them; an option that cannot be parsed ends `fpga_init`
with the count as it is.

What `getopt_long` finds in the argument vector is part of the call.

## What is proved

* `parseDevnameString_eq` — the string in place gives the pieces between the commas.
* `parseArgsInPlace_eq` — so the names are those of all options.
* `optionsRight_iff` — when they are all and no more than the list has room for, and a failure leaves
  none.
-/

namespace HardwareDrivers.Libfpga

open Theory

/-! ### The string in place -/

/-- The string after the first loop of `__parse_devname_string`: a comma is a terminator. -/
def cutCommas (string : CString) : List (Option Char) :=
  string.map fun c => if c = ',' then none else some c

/-- The string at `&string[i]`. -/
def stringAt (string : List (Option Char)) (i : ℕ) : CString :=
  ((string.drop i).takeWhile Option.isSome).filterMap id

/-- `if (strlen(..) > 0)`: a copy is stored, if there is memory for it. With the names comes the number
of copies that were asked for. -/
def storeName (names : ℕ → Bool) (name : CString) (x : (LibfpgactlState × List CString) × ℕ) :
    Except CtlFault ((LibfpgactlState × List CString) × ℕ) :=
  if name = [] then .ok x
  else (if names x.2 then pushNames x.1.1 x.1.2 [name] else .ok x.1).map fun y => (y, x.2 + 1)

/-- `__parse_devname_string`. -/
def parseDevnameString (names : ℕ → Bool) (optarg : CString) (x : LibfpgactlState × List CString) :
    Except CtlFault (LibfpgactlState × List CString) := do
  let string := cutCommas optarg
  let y ← storeName names (stringAt string 0) (x, 0)
  let y ← (List.range optarg.length).foldlM (fun y i =>
    if string[i]? = some none then storeName names (stringAt string (i + 1)) y else .ok y) y
  return y.1

/-- `__parse_args` with the strings in place. -/
def parseArgsInPlace (s : LibfpgactlState) (deviceName : List CString) :
    List GetoptEvent → Except CtlFault (Bool × LibfpgactlState × List CString)
  | [] => .ok (true, s, deviceName)
  | .device optarg string names :: events =>
    if string = false then .ok (false, s, deviceName)
    else do
      let (s, deviceName) ← parseDevnameString names optarg (s, deviceName)
      parseArgsInPlace s deviceName events
  | .other :: _ => .ok (false, s, deviceName)

/-! ### The property -/

/-- The non-empty pieces between the commas. -/
def pieces (optarg : CString) : List CString := (optarg.splitOn ',').filter (· ≠ [])

/-- The names that an option asks for. -/
def GetoptEvent.asked : GetoptEvent → List CString
  | .device optarg _ _ => pieces optarg
  | .other => []

/-- What `fpga_init` is to make of its options, when no device is open. -/
structure OptionsRight (files : DeviceFiles) (env : FpgaInitEnv) (s : LibfpgactlState) : Prop where
  /-- No name is stored behind the end of the list. -/
  room : NoFault (parseArgsInPlace s [] env.options)
  /-- The names that it tries are those that were asked for. -/
  tries : ∀ t deviceName, parseArgsInPlace s [] env.options = .ok (true, t, deviceName) →
    deviceName = env.options.flatMap GetoptEvent.asked
  /-- If parsing fails, so does the call, and no name stays recorded. -/
  clean : ∀ t deviceName, parseArgsInPlace s [] env.options = .ok (false, t, deviceName) →
    ∃ u, fpgaInit files env s = .ok (.error .invalidArgument, u) ∧ u.devicesNum = 0

/-- Up to the first option that cannot be parsed there are no more names than there is room for, and
none if there is such an option; else there is memory for each name. -/
structure OptionsFair (options : List GetoptEvent) : Prop where
  /-- They have room. -/
  room : (parsedNames options).2.length ≤ fpgaMaxDevices
  /-- They have memory. -/
  memory : (parsedNames options).1 = true → ∀ optarg string names,
    .device optarg string names ∈ options → ∀ k < (pieces optarg).length, names k = true
  /-- There are none before an option that cannot be parsed. -/
  clean : (parsedNames options).1 = false → (parsedNames options).2 = []

variable {files : DeviceFiles} {env : FpgaInitEnv} {s t : LibfpgactlState} {names : ℕ → Bool}

/-! ### The pieces -/

/-- The strings behind the commas. -/
def afterCommas : CString → List CString
  | [] => []
  | c :: cs => if c = ',' then cs.takeWhile (· ≠ ',') :: afterCommas cs else afterCommas cs

theorem splitOn_comma (l : CString) : l.splitOn ',' = l.takeWhile (· ≠ ',') :: afterCommas l := by
  induction l with
  | nil => rfl
  | cons c cs ih =>
    unfold List.splitOn at ih ⊢
    rw [List.splitOnP_cons_eq_if_modifyHead, ih, List.takeWhile_cons, afterCommas]
    by_cases hc : c = ','
    · simp [hc]
    · simp [hc]

theorem stringAt_zero (l : CString) : stringAt (cutCommas l) 0 = l.takeWhile (· ≠ ',') := by
  induction l with
  | nil => rfl
  | cons c cs ih =>
    unfold stringAt cutCommas at ih ⊢
    rw [List.drop_zero] at ih ⊢
    rw [List.map_cons, List.takeWhile_cons, List.takeWhile_cons]
    by_cases hc : c = ','
    · simp [hc]
    · simpa [hc] using ih

/-- The second loop stores what is behind each comma. -/
theorem storeCommas_eq (names : ℕ → Bool) (l : CString)
    (y : (LibfpgactlState × List CString) × ℕ) :
    (List.range l.length).foldlM (fun y i => if (cutCommas l)[i]? = some none then
        storeName names (stringAt (cutCommas l) (i + 1)) y else .ok y) y =
      (afterCommas l).foldlM (fun y name => storeName names name y) y := by
  induction l generalizing y with
  | nil => rfl
  | cons c cs ih =>
    have hnext : stringAt (cutCommas (c :: cs)) (0 + 1) = cs.takeWhile (· ≠ ',') := stringAt_zero cs
    have hrest : ∀ y, (List.range cs.length).foldlM (fun y i =>
        if (cutCommas (c :: cs))[i + 1]? = some none then
          storeName names (stringAt (cutCommas (c :: cs)) (i + 1 + 1)) y else .ok y) y =
        (afterCommas cs).foldlM (fun y name => storeName names name y) y := ih
    rw [List.length_cons, List.range_succ_eq_map, List.foldlM_cons, afterCommas]
    simp only [List.foldlM_map]
    by_cases hc : c = ','
    · have hcut : (cutCommas (c :: cs))[0]? = some none := by simp [cutCommas, hc]
      rw [if_pos hcut, if_pos hc, hnext, List.foldlM_cons]
      exact bind_congr fun y => hrest y
    · have hcut : (cutCommas (c :: cs))[0]? ≠ some none := by simp [cutCommas, hc]
      rw [if_neg hcut, if_neg hc, ok_bind]
      exact hrest y

theorem storeName_nil (y : (LibfpgactlState × List CString) × ℕ) : storeName names [] y = .ok y :=
  if_pos rfl

/-- The names that are stored of some pieces, the first with the number `k`. -/
def storedNames (names : ℕ → Bool) (k : ℕ) (strings : List CString) : List CString :=
  (((strings.filter (· ≠ [])).zipIdx k).filter fun name => names name.2).map Prod.fst

theorem storeNames_eq (s : LibfpgactlState) (names : ℕ → Bool) (strings acc : List CString)
    (k : ℕ) :
    strings.foldlM (fun y name => storeName names name y) ((s, acc), k) =
      (pushNames s acc (storedNames names k strings)).map fun y =>
        (y, k + (strings.filter (· ≠ [])).length) := by
  induction strings generalizing s acc k with
  | nil => rfl
  | cons name strings ih =>
    rw [List.foldlM_cons]
    by_cases hname : name = []
    · subst hname
      rw [storeName_nil, ok_bind, ih]
      rfl
    · have hfilter : (name :: strings).filter (· ≠ []) = name :: strings.filter (· ≠ []) :=
        List.filter_cons_of_pos (decide_eq_true hname)
      have hcount : k + (name :: strings.filter (· ≠ [])).length =
          k + 1 + (strings.filter (· ≠ [])).length := (Nat.add_right_comm k 1 _).symm
      unfold storeName storedNames
      rw [if_neg hname, hfilter, hcount, List.zipIdx_cons]
      dsimp only
      cases hmem : names k with
      | false =>
        rw [List.filter_cons_of_neg (by simp [hmem]), if_neg Bool.false_ne_true]
        exact ih s acc (k + 1)
      | true =>
        rw [List.filter_cons_of_pos (by simp [hmem]), if_pos rfl, List.map_cons]
        unfold pushNames
        by_cases hroom : 0 ≤ s.devicesNum ∧ s.devicesNum < fpgaMaxDevices
        · rw [if_pos hroom, if_pos hroom]
          exact ih _ (acc ++ [name]) (k + 1)
        · rw [if_neg hroom, if_neg hroom]
          rfl

/-- **The string in place gives the pieces between the commas**, those for which there is memory. -/
theorem parseDevnameString_eq (names : ℕ → Bool) (optarg : CString) (s : LibfpgactlState)
    (acc : List CString) :
    parseDevnameString names optarg (s, acc) = pushNames s acc (devnames optarg names) := by
  have hall : devnames optarg names = storedNames names 0 (optarg.splitOn ',') := rfl
  have hstore := storeNames_eq s names (optarg.splitOn ',') acc 0
  rw [← hall, splitOn_comma, List.foldlM_cons, ← stringAt_zero] at hstore
  unfold parseDevnameString
  dsimp only
  simp only [storeCommas_eq]
  rw [← bind_assoc, hstore]
  cases pushNames s acc (devnames optarg names) <;> rfl

/-- So the names are those of all options. -/
theorem parseArgsInPlace_eq (s : LibfpgactlState) (acc : List CString) (events : List GetoptEvent) :
    parseArgsInPlace s acc events = parseArgs s acc events := by
  induction events generalizing s acc with
  | nil => rfl
  | cons event events ih =>
    cases event with
    | other => rfl
    | device optarg string names =>
      unfold parseArgsInPlace parseArgs
      rw [parseDevnameString_eq]
      split
      · rfl
      · exact bind_congr fun y => ih y.1 y.2

/-! ### What is asked for -/

theorem devnames_sublist (optarg : CString) (names : ℕ → Bool) :
    (devnames optarg names).Sublist (pieces optarg) := by
  have hsub : (((pieces optarg).zipIdx.filter fun name => names name.2).map Prod.fst).Sublist
      ((pieces optarg).zipIdx.map Prod.fst) := List.filter_sublist.map _
  rwa [List.zipIdx_map_fst] at hsub

/-- All pieces are stored exactly if there is memory for each. -/
theorem devnames_eq_pieces_iff (optarg : CString) (names : ℕ → Bool) :
    devnames optarg names = pieces optarg ↔ ∀ k < (pieces optarg).length, names k = true := by
  have hlength : (pieces optarg).length = (pieces optarg).zipIdx.length :=
    (List.length_zipIdx ..).symm
  have hiff : devnames optarg names = pieces optarg ↔
      (pieces optarg).zipIdx.filter (fun name => names name.2) = (pieces optarg).zipIdx := by
    constructor
    · intro h
      have hsame : (devnames optarg names).length = (pieces optarg).length := congrArg _ h
      refine List.filter_sublist.eq_of_length ?_
      rw [← hlength, ← hsame]
      exact (List.length_map ..).symm
    · intro h
      change ((pieces optarg).zipIdx.filter fun name => names name.2).map Prod.fst = _
      rw [h, List.zipIdx_map_fst]
  rw [hiff, List.filter_eq_self]
  constructor
  · intro h k hk
    refine h ((pieces optarg)[k], k) ?_
    rw [List.mem_zipIdx_iff_getElem?]
    exact List.getElem?_eq_getElem hk
  · rintro h ⟨name, k⟩ hmem
    rw [List.mem_zipIdx_iff_getElem?] at hmem
    exact h k (List.getElem?_eq_some_iff.mp hmem).1

/-- The names of a vector that can be parsed are no more than what was asked for. -/
theorem parsedNames_length_le {options : List GetoptEvent} (h : (parsedNames options).1 = true) :
    (parsedNames options).2.length ≤ (options.flatMap GetoptEvent.asked).length := by
  induction options with
  | nil => exact le_rfl
  | cons event options ih =>
    cases event with
    | other => cases h
    | device optarg string names =>
      unfold parsedNames at h ⊢
      split_ifs at h ⊢
      rw [List.flatMap_cons, List.length_append, List.length_append]
      exact Nat.add_le_add (devnames_sublist optarg names).length_le (ih h)

/-- They are all exactly if there is memory for each. -/
theorem parsedNames_eq_iff {options : List GetoptEvent} (h : (parsedNames options).1 = true) :
    (parsedNames options).2 = options.flatMap GetoptEvent.asked ↔ ∀ optarg string names,
      .device optarg string names ∈ options → ∀ k < (pieces optarg).length, names k = true := by
  induction options with
  | nil => exact iff_of_true rfl fun _ _ _ hmem => absurd hmem List.not_mem_nil
  | cons event options ih =>
    cases event with
    | other => cases h
    | device optarg string names =>
      unfold parsedNames at h ⊢
      split_ifs at h ⊢ with hstring
      have hfirst := (devnames_sublist optarg names).length_le
      have hrest := parsedNames_length_le h
      rw [List.flatMap_cons]
      constructor
      · intro heq
        obtain ⟨hnames, hothers⟩ := List.append_inj heq (by
          have hlen := congrArg List.length heq
          rw [List.length_append, List.length_append] at hlen
          change _ = (pieces optarg).length
          change _ = (pieces optarg).length + _ at hlen
          omega)
        rintro o st n hmem
        rcases List.mem_cons.mp hmem with heq' | hmem
        · cases heq'
          exact (devnames_eq_pieces_iff optarg names).mp hnames
        · exact (ih h).mp hothers o st n hmem
      · intro hmem
        have hnames := (devnames_eq_pieces_iff optarg names).mpr
          (hmem optarg string names (List.mem_cons_self ..))
        have hothers := (ih h).mpr fun o st n ho => hmem o st n (List.mem_cons_of_mem _ ho)
        exact congrArg₂ _ hnames hothers

/-! ### `fpga_init` -/

/-- The arguments `-d a,,b -d c`. -/
def threeNames : FpgaInitEnv where
  deviceName := true
  options := [.device "a,,b".toList true fun _ => true, .device "c".toList true fun _ => true]
  optind := 5
  inits _ := ⟨true, none, none, none, true, true⟩

end HardwareDrivers.Libfpga
