import HardwareDrivers.Libfpga.FilterResizeSetting
import HardwareDrivers.Libfpga.ReconfigCommand
import HardwareDrivers.Theory.CharArrays

/-!
# The files of bitstreams

`fpga_config_region` takes the name of a bitstream. Its file is looked for in a directory that is kept
in an array of 200 characters, and the path is cut to 254.

## What is proved

* `fpgaSetConfigFileDir_eq`, `fpgaGetConfigFileDir_eq` — what a call returns, and what the array has then.
* `dirs_kept` — setting and getting the directory stays in the array, and what the array has is the
  directory that was set last, with a slash behind it.
* `config_file_named` — which file the command of a later call is for.
-/

namespace HardwareDrivers.Libfpga

open Driver Theory

/-! ### The directory -/

/-- `LIBFPGABS_RECONFIG_FILE_DIR_LEN`. -/
abbrev reconfigFileDirLen : ℕ := 200

/-- `FPGA_FILE_PATH_MAX`. -/
abbrev fpgaFilePathMax : ℕ := 255

/-- `LIBFPGABS_RECONFIG_TANDEM_PREFIX`. -/
def reconfigTandemPrefix : CString := "tandem-".toList

/-- `LIBFPGABS_RECONFIG_SUFFIX`. -/
def reconfigSuffix : CString := ".bit".toList

/-- The terminator of a text. -/
def nulChar : Char := .ofNat 0

/-- What the language does not define. -/
inductive PathFault where
  /-- An access outside of an array or a text. -/
  | outside
  /-- An `int` that is too large. -/
  | overflow
  deriving DecidableEq

/-- `configure_file_dir_path`. -/
abbrev FileDir := Fin reconfigFileDirLen → Char

/-- What it is at first. -/
def FileDir.initial : FileDir := CharArray.zero nulChar

/-- `int len = strlen(text)`. -/
def intLen (text : CString) : ℤ := (BitVec.ofNat 32 text.length).toInt

/-- `text[i]`. -/
def charAt (text : CString) (i : ℤ) : Except PathFault Char :=
  if 0 ≤ i then
    match (text ++ [nulChar])[i.toNat]? with
    | some c => .ok c
    | none => .error .outside
  else .error .outside

/-- `len + slash_padding`, for the two that are added. -/
def paddedLen (dirPath : CString) : Except PathFault (ℤ × ℤ) := do
  let len := intLen dirPath
  if len = 0 then return (len, 0)
  else
    let c ← charAt dirPath (len - 1)
    let slashPadding := if c ≠ '/' then 1 else 0
    if len + slashPadding < 2 ^ 31 then return (len, slashPadding) else throw .overflow

/-- `fpga_set_config_file_dir`. -/
def fpgaSetConfigFileDir (dirPath : Option CString) (dir : FileDir) :
    Except PathFault (Except LibfpgaErr Unit × FileDir) :=
  match dirPath with
  | none => .ok (.error .invalidArgument, dir)
  | some dirPath => do
    let (len, slashPadding) ← paddedLen dirPath
    -- the sum is compared as a `size_t`
    if reconfigFileDirLen ≤ (BitVec.ofInt 64 (len + slashPadding)).toNat then
      return (.error .invalidArgument, dir)
    else if len = 0 then return (.ok (), CharArray.zero nulChar)
    else
      let dir ← CharArray.memcpy .outside (CharArray.zero nulChar) (dirPath.take len.toNat)
      let dir ← CharArray.store .outside dir (len - 1 + slashPadding) '/'
      return (.ok (), dir)

/-- `fpga_get_config_file_dir`, for a pointer that is not `NULL`; `memory` says whether `strdup` finds
memory. -/
def fpgaGetConfigFileDir (memory : Bool) (dir : FileDir) : Except PathFault (Except LibfpgaErr CString) := do
  let text ← CharArray.readText .outside nulChar dir
  return if memory then .ok text else .error .failureMemoryAlloc

/-! ### The path -/

/-- What `__get_file_path` finds outside. -/
structure FilePathEnv where
  /-- There is memory for the path. -/
  memory : Bool
  /-- The file of a path can be opened. -/
  opens : CString → Bool

/-- `__get_file_path`. -/
def getFilePath (files : FilePathEnv) (fileBody : CString) (region : FpgaRegion) (dir : FileDir) :
    Except PathFault (Option CString) :=
  if !files.memory then .ok none
  else
    match region with
    | .max => .ok none
    | .all => do
      let text ← CharArray.readText .outside nulChar dir
      let filePath := snprintf fpgaFilePathMax (text ++ reconfigTandemPrefix ++ fileBody ++ reconfigSuffix)
      return if files.opens filePath then some filePath else none

/-- `fpga_config_region`; the one of `Bitstream` is `__fpga_config_region`. -/
def configRegionOf (build : BuildOptions) (found : Bool) (files : FilePathEnv) (fileBody : Option CString)
    (region : FpgaRegion) (env : BitstreamEnv) (dev : ModulesInfo) (dir : FileDir) :
    Except PathFault (Except BitstreamErr Unit × ModulesInfo) :=
  match fileBody with
  | none => .ok (.error (.code .invalidArgument), dev)
  | some fileBody =>
    if !found || region = .max then .ok (.error (.code .invalidArgument), dev)
    else do
      let filePath ← getFilePath files fileBody region dir
      return fpgaConfigRegion build found filePath region env dev

/-- What it hands to `system`, if it comes so far. -/
def configText (build : BuildOptions) (found : Bool) (files : FilePathEnv) (info : PciInfo)
    (fileBody : CString) (region : FpgaRegion) (env : BitstreamEnv) (dev : ModulesInfo) (dir : FileDir) :
    Except PathFault (Option CString) :=
  if !found || region = .max then .ok none
  else do
    let filePath ← getFilePath files fileBody region dir
    return filePath.bind fun path => systemText build found info path region env dev

/-! ### Calls for the directory -/

/-- A call for the directory. -/
inductive DirCall where
  /-- `fpga_set_config_file_dir`. -/
  | set (dirPath : Option CString)
  /-- `fpga_get_config_file_dir`. -/
  | get (memory : Bool)

/-- What it does. -/
def dirExec (dir : FileDir) : DirCall → Except PathFault FileDir
  | .set dirPath => (fpgaSetConfigFileDir dirPath dir).map (·.2)
  | .get memory => (fpgaGetConfigFileDir memory dir).map fun _ => dir

/-- A directory with a slash behind it; none is the directory of the process. -/
def withSlash (dirPath : CString) : CString :=
  if dirPath = [] ∨ dirPath.getLast? = some '/' then dirPath else dirPath ++ ['/']

/-- The directory behind a call, for one before it. -/
def DirCall.dirAfter (text : CString) : DirCall → CString
  | .set (some dirPath) => if (withSlash dirPath).length < reconfigFileDirLen then withSlash dirPath else text
  | _ => text

/-- The directory that was set last. -/
def lastDir (calls : List DirCall) : CString := calls.foldl DirCall.dirAfter []

/-- A text of a call is one of C, whose length an `int` can have. -/
def DirCall.Terminated : DirCall → Prop
  | .set (some dirPath) => nulChar ∉ dirPath ∧ dirPath.length + 1 < 2 ^ 31
  | _ => True

variable {dirPath text : CString} {dir : FileDir} {calls : List DirCall} {c : DirCall}

theorem intLen_eq (h : dirPath.length + 1 < 2 ^ 31) : intLen dirPath = dirPath.length := by
  have hnat : (BitVec.ofNat 32 dirPath.length).toNat = dirPath.length := by
    rw [BitVec.toNat_ofNat, Nat.mod_eq_of_lt (by omega)]
  rw [intLen, BitVec.toInt_eq_toNat_of_lt (by omega), hnat]

theorem paddedLen_eq (h : dirPath.length + 1 < 2 ^ 31) :
    paddedLen dirPath = .ok (dirPath.length, (withSlash dirPath).length - dirPath.length) := by
  unfold paddedLen withSlash
  rw [intLen_eq h]
  by_cases hnil : dirPath = []
  · rw [hnil]
    rfl
  · have hpos := List.length_pos_iff.mpr hnil
    have hlast : charAt dirPath (dirPath.length - 1) = .ok (dirPath.getLast hnil) := by
      have hindex : ((dirPath.length : ℤ) - 1).toNat = dirPath.length - 1 := by omega
      unfold charAt
      rw [if_pos (by omega), hindex, List.getElem?_append_left (by omega), ← List.getLast?_eq_getElem?,
        List.getLast?_eq_some_getLast hnil]
    simp only [hlast, ok_bind, List.getLast?_eq_some_getLast hnil, Option.some.injEq, hnil, false_or]
    rw [if_neg (by omega)]
    by_cases hslash : dirPath.getLast hnil = '/'
    · have hpad : (if dirPath.getLast hnil ≠ '/' then 1 else 0 : ℤ) = 0 := if_neg (not_not.mpr hslash)
      rw [hpad, if_pos (by omega), if_pos hslash, Int.sub_self]
      rfl
    · have hpad : (if dirPath.getLast hnil ≠ '/' then 1 else 0 : ℤ) = 1 := if_pos hslash
      rw [hpad, if_pos (by omega), if_neg hslash, List.length_append, List.length_singleton,
        Nat.cast_add, add_sub_cancel_left]
      rfl

theorem length_le_withSlash (dirPath : CString) : dirPath.length ≤ (withSlash dirPath).length := by
  unfold withSlash
  split_ifs
  · exact le_rfl
  · rw [List.length_append]
    exact Nat.le_add_right ..

theorem length_withSlash_le (dirPath : CString) : (withSlash dirPath).length ≤ dirPath.length + 1 := by
  unfold withSlash
  split_ifs
  · exact Nat.le_succ _
  · exact (List.length_append ..).le

/-- The slash is stored behind the text, or where it is already. -/
theorem holds_store_slash {a : FileDir} (ha : CharArray.Holds nulChar a dirPath) (hnil : dirPath ≠ [])
    (hroom : (withSlash dirPath).length < reconfigFileDirLen) :
    ∃ b, CharArray.store PathFault.outside a
        (dirPath.length - 1 + ((withSlash dirPath).length - dirPath.length)) '/' = .ok b ∧
      CharArray.Holds nulChar b (withSlash dirPath) := by
  have hpos := List.length_pos_iff.mpr hnil
  by_cases hslash : dirPath.getLast? = some '/'
  · have hwith : withSlash dirPath = dirPath := if_pos (.inr hslash)
    have hindex : (dirPath.length : ℤ) - 1 + (dirPath.length - dirPath.length) =
        (dirPath.length - 1 : ℕ) := by omega
    rw [hwith, hindex]
    exact ⟨a, ha.store_last hslash, ha⟩
  · have hwith : withSlash dirPath = dirPath ++ ['/'] := if_neg (not_or.mpr ⟨hnil, hslash⟩)
    have hlength : (withSlash dirPath).length = dirPath.length + 1 := by
      rw [hwith, List.length_append, List.length_singleton]
    have hindex : (dirPath.length : ℤ) - 1 + ((dirPath.length + 1 : ℕ) - dirPath.length) =
        dirPath.length := by omega
    rw [hlength, hindex, hwith]
    exact ha.store_length PathFault.outside (hlength ▸ hroom) (by decide)

/-- What `fpga_set_config_file_dir` returns for a text, and what the array has then. -/
theorem fpgaSetConfigFileDir_eq (hplain : nulChar ∉ dirPath) (hlen : dirPath.length + 1 < 2 ^ 31)
    (hdir : CharArray.Holds nulChar dir text) :
    ∃ dir', fpgaSetConfigFileDir (some dirPath) dir =
        .ok (if (withSlash dirPath).length < reconfigFileDirLen then .ok () else .error .invalidArgument, dir') ∧
      CharArray.Holds nulChar dir' (DirCall.dirAfter text (.set (some dirPath))) := by
  have hle := length_le_withSlash dirPath
  have hle' := length_withSlash_le dirPath
  have hsum : (dirPath.length : ℤ) + ((withSlash dirPath).length - dirPath.length) =
      (withSlash dirPath).length := by ring
  have hsize : (BitVec.ofInt 64 (withSlash dirPath).length).toNat = (withSlash dirPath).length := by
    rw [BitVec.ofInt_natCast, BitVec.toNat_ofNat, Nat.mod_eq_of_lt]
    omega
  simp only [fpgaSetConfigFileDir, paddedLen_eq hlen, ok_bind, hsum, hsize, DirCall.dirAfter]
  by_cases hroom : (withSlash dirPath).length < reconfigFileDirLen
  swap
  · rw [if_pos (Nat.le_of_not_lt hroom), if_neg hroom, if_neg hroom]
    exact ⟨dir, rfl, hdir⟩
  rw [if_neg (Nat.not_le.mpr hroom), if_pos hroom, if_pos hroom]
  by_cases hnil : dirPath = []
  · rw [hnil]
    exact ⟨_, rfl, CharArray.holds_zero (by decide)⟩
  have hpos := List.length_pos_iff.mpr hnil
  rw [if_neg (by omega), Int.toNat_natCast, List.take_length]
  obtain ⟨a, ha, hholds⟩ := CharArray.holds_memcpy PathFault.outside (hle.trans_lt hroom) hplain
  obtain ⟨b, hb, hholds'⟩ := holds_store_slash hholds hnil hroom
  simp only [ha, hb, ok_bind]
  exact ⟨b, rfl, hholds'⟩

/-- What `fpga_get_config_file_dir` returns. -/
theorem fpgaGetConfigFileDir_eq (hdir : CharArray.Holds nulChar dir text) (memory : Bool) :
    fpgaGetConfigFileDir memory dir = .ok (if memory then .ok text else .error .failureMemoryAlloc) := by
  rw [fpgaGetConfigFileDir, hdir.readText]
  rfl

/-- **A call stays in the array**, and the directory is what it should be. -/
theorem dirExec_eq (hc : c.Terminated) (hdir : CharArray.Holds nulChar dir text) :
    ∃ dir', dirExec dir c = .ok dir' ∧ CharArray.Holds nulChar dir' (c.dirAfter text) := by
  cases c with
  | get memory =>
    rw [dirExec, fpgaGetConfigFileDir_eq hdir]
    exact ⟨dir, rfl, hdir⟩
  | set dirPath =>
    cases dirPath with
    | none => exact ⟨dir, rfl, hdir⟩
    | some dirPath =>
      obtain ⟨dir', hset, hdir'⟩ := fpgaSetConfigFileDir_eq hc.1 hc.2 hdir
      rw [dirExec, hset]
      exact ⟨dir', rfl, hdir'⟩

/-- **After any calls** the array has the directory that was set last. -/
theorem dirs_kept (h : ∀ c ∈ calls, c.Terminated) :
    ∃ dir, calls.foldlM dirExec .initial = .ok dir ∧ CharArray.Holds nulChar dir (lastDir calls) := by
  have hrun : ∀ (dir : FileDir) (text : CString), CharArray.Holds nulChar dir text →
      ∃ dir', calls.foldlM dirExec dir = .ok dir' ∧
        CharArray.Holds nulChar dir' (calls.foldl DirCall.dirAfter text) := by
    induction calls with
    | nil => exact fun dir _ hdir => ⟨dir, rfl, hdir⟩
    | cons c calls ih =>
      intro dir text hdir
      obtain ⟨dir₁, hexec, hdir₁⟩ := dirExec_eq (h c List.mem_cons_self) hdir
      obtain ⟨dir₂, hrest, hdir₂⟩ := ih (fun c' hc' => h c' (List.mem_cons_of_mem _ hc')) dir₁ _ hdir₁
      exact ⟨dir₂, by rw [List.foldlM_cons, hexec, ok_bind, hrest], hdir₂⟩
  exact hrun _ _ (CharArray.holds_zero (by decide))

/-! ### The command -/

/-- The path of the file of a bitstream. -/
def filePathOf (dirPath fileBody : CString) : CString :=
  dirPath ++ reconfigTandemPrefix ++ fileBody ++ reconfigSuffix

/-- The command for a path that is cut. -/
theorem oneCommand_snprintf_iff (info : PciInfo) (path : CString) :
    OneCommand (cmdSystem info (snprintf fpgaFilePathMax path)) path ↔
      Shell.FixedWord path ∧ path.length < fpgaFilePathMax := by
  have hroom := length_cmdPrefix_le info
  have hmax : (snprintf fpgaFilePathMax path).length ≤ 254 := List.length_take_le ..
  have hsize : cmdSystemSize = 1024 := rfl
  have hpathMax : fpgaFilePathMax = 255 := rfl
  constructor
  · rintro ⟨args, hargs⟩
    have hcut : cmdSystem info (snprintf fpgaFilePathMax path) =
        cmdPrefix info ++ snprintf fpgaFilePathMax path := by
      rw [cmdSystem, List.take_of_length_le]
      rw [List.length_append]
      omega
    rw [hcut] at hargs
    rcases Shell.fixedWord_of_commandWords (foldlM_cmdPrefix info) hargs (List.length_take_le' ..) with
      ⟨hwhole, hfixed⟩ | ⟨hplain, hlast⟩
    · rw [← hwhole] at hfixed hmax
      exact ⟨hfixed, by omega⟩
    · -- the path is not the option before it, for that would be a word, too
      have hpath : path = ['-', 'p'] := by
        simp only [cmdWords, List.map_cons, List.map_nil, List.reverse_cons, List.reverse_nil,
          List.nil_append, List.cons_append, List.head?_cons, Option.bind_some] at hlast
        exact (Option.some.inj hlast).symm
      rw [hpath] at hplain
      exact absurd (by decide) hplain
  · rintro ⟨hfixed, hlen⟩
    rw [snprintf_of_lt hlen]
    exact (oneCommand_cmdSystem_iff info path).mpr ⟨hfixed, by omega⟩

variable {build : BuildOptions} {found : Bool} {files : FilePathEnv} {info : PciInfo}
  {fileBody : CString} {region : FpgaRegion} {env : BitstreamEnv} {dev : ModulesInfo}

/-- The text of a call, when the array has a directory. -/
theorem configText_eq (hdir : CharArray.Holds nulChar dir text) :
    ∃ cmd, configText build found files info fileBody region env dev dir = .ok cmd ∧
      ∀ s, cmd = some s → s = cmdSystem info (snprintf fpgaFilePathMax (filePathOf text fileBody)) ∧
        files.opens (snprintf fpgaFilePathMax (filePathOf text fileBody)) = true := by
  unfold configText getFilePath
  by_cases hguard : (!found || decide (region = .max)) = true
  · rw [if_pos hguard]
    exact ⟨none, rfl, fun s hs => by cases hs⟩
  rw [if_neg hguard]
  by_cases hmemory : (!files.memory) = true
  · rw [if_pos hmemory]
    exact ⟨none, rfl, fun s hs => by cases hs⟩
  rw [if_neg hmemory]
  cases region with
  | max => simp at hguard
  | all =>
    simp only [hdir.readText, ok_bind]
    refine ⟨_, rfl, fun s hs => ?_⟩
    obtain ⟨path, hpath, htext⟩ := Option.bind_eq_some_iff.mp hs
    split_ifs at hpath with hopens
    cases hpath
    rcases systemText_cases build found info _ .all env dev with ⟨-, hnone, -⟩ | ⟨-, hsome⟩
    · rw [hnone] at htext
      cases htext
    · rw [hsome] at htext
      exact ⟨(Option.some.inj htext).symm, hopens⟩

/-- No call leaves the array. -/
theorem noFault_configRegionOf (hdir : CharArray.Holds nulChar dir text) (fileBody : Option CString) :
    NoFault (configRegionOf build found files fileBody region env dev dir) := by
  unfold configRegionOf getFilePath
  cases fileBody with
  | none => exact noFault_ok _
  | some fileBody =>
    dsimp only
    split_ifs
    · exact noFault_ok _
    · exact noFault_ok _
    · cases region with
      | max => exact noFault_ok _
      | all =>
        simp only [hdir.readText, ok_bind]
        exact noFault_ok _

variable (build found files info fileBody region env dev) in
/-- **Which file is written.** After any calls that set or get the directory, none of which leaves the
array, what `fpga_config_region` hands to `system` is the command for the path of the bitstream in the
directory that was set last, cut to its array, and there is a file of that name. It is one command for
the file of the whole path exactly if this means itself to the shell and has at most 254 characters. -/
theorem config_file_named (hcalls : ∀ c ∈ calls, c.Terminated) :
    ∃ dir cmd, calls.foldlM dirExec .initial = .ok dir ∧
      (∀ memory, fpgaGetConfigFileDir memory dir =
        .ok (if memory then .ok (lastDir calls) else .error .failureMemoryAlloc)) ∧
      NoFault (configRegionOf build found files (some fileBody) region env dev dir) ∧
      configText build found files info fileBody region env dev dir = .ok cmd ∧
      ∀ s, cmd = some s →
        s = cmdSystem info (snprintf fpgaFilePathMax (filePathOf (lastDir calls) fileBody)) ∧
        files.opens (snprintf fpgaFilePathMax (filePathOf (lastDir calls) fileBody)) = true ∧
        (OneCommand s (filePathOf (lastDir calls) fileBody) ↔
          Shell.FixedWord (filePathOf (lastDir calls) fileBody) ∧
            (filePathOf (lastDir calls) fileBody).length < fpgaFilePathMax) := by
  obtain ⟨dir, hrun, hdir⟩ := dirs_kept hcalls
  obtain ⟨cmd, hcmd, htext⟩ := configText_eq hdir
  refine ⟨dir, cmd, hrun, fpgaGetConfigFileDir_eq hdir, noFault_configRegionOf hdir _, hcmd, fun s hs => ?_⟩
  obtain ⟨rfl, hopens⟩ := htext s hs
  exact ⟨rfl, hopens, oneCommand_snprintf_iff info _⟩

/-- The directory is set without a slash, and then there is a call for one that is too long. -/
def bootCalls : List DirCall :=
  [.set (some "/boot".toList), .get true, .set (some (List.replicate 200 'x'))]

theorem bootCalls_terminated : ∀ c ∈ bootCalls, c.Terminated := by
  have hlong : nulChar ∉ List.replicate 200 'x' := fun h =>
    absurd (List.eq_of_mem_replicate h) (by decide)
  simp only [bootCalls, List.forall_mem_cons, DirCall.Terminated, List.not_mem_nil, false_imp_iff,
    implies_true, and_true, true_and, List.length_replicate]
  exact ⟨⟨by decide, by decide⟩, hlong, by decide⟩

/-- The file of the first directory is written. -/
theorem config_file_named_boot : ∃ dir s, bootCalls.foldlM dirExec .initial = .ok dir ∧
    configText chainBuild true ⟨true, fun _ => true⟩ ⟨1, 0, 0, 0x903f⟩ ['a'] .all (fineWrite (chainLanes 1))
      oneLane dir = .ok (some s) ∧
    OneCommand s "/boot/tandem-a.bit".toList := by
  obtain ⟨dir, cmd, hrun, -, -, hcmd, hfile⟩ := config_file_named chainBuild true ⟨true, fun _ => true⟩
    ⟨1, 0, 0, 0x903f⟩ ['a'] .all (fineWrite (chainLanes 1)) oneLane bootCalls_terminated
  obtain ⟨dir', hrun', hdir⟩ := dirs_kept bootCalls_terminated
  cases hrun.symm.trans hrun'
  have hlast : lastDir bootCalls = "/boot/".toList := by
    have hboot : withSlash "/boot".toList = "/boot/".toList := by decide
    have hlong : ¬ (withSlash (List.replicate 200 'x')).length < reconfigFileDirLen := by
      have hlen := length_le_withSlash (List.replicate 200 'x')
      rw [List.length_replicate] at hlen
      exact Nat.not_lt.mpr hlen
    simp only [lastDir, bootCalls, List.foldl_cons, List.foldl_nil, DirCall.dirAfter, if_neg hlong, hboot]
    rfl
  rw [hlast] at hdir hfile
  have hsome : ∃ s, cmd = some s := by
    unfold configText getFilePath at hcmd
    simp only [hdir.readText, ok_bind] at hcmd
    cases hcmd
    exact ⟨_, rfl⟩
  obtain ⟨s, rfl⟩ := hsome
  exact ⟨dir, s, hrun, hcmd, (hfile s rfl).2.2.mpr ⟨by decide, by decide⟩⟩

end HardwareDrivers.Libfpga
