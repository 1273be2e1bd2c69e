import HardwareDrivers.Libfpga.Bitstream
import HardwareDrivers.Theory.ShellWords
import Mathlib.Data.Nat.Digits.Defs

/-!
# The command that writes a bitstream

`__fpga_config_region` hands the shell a text with the address of the device and the path of the file
pasted into it. The only character that it refuses in a path is the semicolon, and the text is cut to
the size of the buffer.

## What is proved

* `cmdWords_fixed` — the words before the path stand for themselves, whatever the device is.
* `oneCommand_cmdSystem_iff` — for which paths the text is one command with the path as its last
  word.
* `reconfigRight_iff` — when a call does what it should.
-/

namespace HardwareDrivers.Libfpga

open Driver Theory

/-! ### The text -/

/-- `fpga_device_info_t`, as far as the text goes. -/
structure PciInfo where
  /-- `pci_bus`. -/
  pciBus : BitVec 16
  /-- `pci_dev`. -/
  pciDev : BitVec 8
  /-- `pci_func`. -/
  pciFunc : BitVec 8
  /-- `pci_device_id`. -/
  pciDeviceId : BitVec 16

/-- `%x`. -/
def hex (n : ℕ) : List Char := Nat.toDigits 16 n

/-- `%02x`. -/
def hex02 (n : ℕ) : List Char := (hex n).leftpad 2 '0'

/-- `LIBFPGABS_MCAP_EXEC_FILE`. -/
def mcapExecFile : List Char := ['m', 'c', 'a', 'p']

/-- `sizeof(cmd_system)`. -/
def cmdSystemSize : ℕ := 1024

/-- The text before the path: `"%s -E -s %02x:%02x.%x -x %x -p "`. -/
def cmdPrefix (info : PciInfo) : List Char :=
  mcapExecFile ++ [' ', '-', 'E', ' ', '-', 's', ' '] ++ hex02 info.pciBus.toNat ++ [':'] ++
    hex02 info.pciDev.toNat ++ ['.'] ++ hex info.pciFunc.toNat ++ [' ', '-', 'x', ' '] ++
    hex info.pciDeviceId.toNat ++ [' ', '-', 'p', ' ']

/-- `cmd_system`: `snprintf` cuts the text to the buffer. -/
def cmdSystem (info : PciInfo) (filePath : List Char) : List Char :=
  (cmdPrefix info ++ filePath).take (cmdSystemSize - 1)

/-- What `__fpga_config_region` hands to `system`, if it comes so far. -/
def systemText (build : BuildOptions) (found : Bool) (info : PciInfo) (filePath : List Char)
    (region : FpgaRegion) (env : BitstreamEnv) (dev : ModulesInfo) : Option (List Char) :=
  if !found || fpgaGetXpcieRegion region = .max then none
  else if filePath.contains ';' then none
  else if !env.commandProcessor then none
  else
    match fpgaRefControl build found region .write dev with
    | (.error _, _) => none
    | (.ok (), _) =>
      match region with
      | .max => none
      | .all => some (cmdSystem info filePath)

/-! ### The property -/

/-- The text is one command of mcap whose last word is the path. -/
def OneCommand (text filePath : List Char) : Prop :=
  ∃ args, Shell.commandWords text = some (mcapExecFile :: args ++ [filePath])

/-- What a call is to do. -/
structure ReconfigRight (build : BuildOptions) (found : Bool) (info : PciInfo) (filePath : List Char)
    (region : FpgaRegion) (env : BitstreamEnv) (dev : ModulesInfo) : Prop where
  /-- What is handed to `system` is one command. -/
  command : ∀ text, systemText build found info filePath region env dev = some text →
    OneCommand text filePath
  /-- A path for which it would not be one is refused; nothing is executed, and the reference count
  is not set. -/
  refused : ¬ OneCommand (cmdSystem info filePath) filePath →
    systemText build found info filePath region env dev = none ∧
      (fpgaConfigRegion build found (some filePath) region env dev).2 = dev

/-- The path stands for itself, and fits into the buffer. -/
def PathFair (info : PciInfo) (filePath : List Char) : Prop :=
  Shell.FixedWord filePath ∧ (cmdPrefix info).length + filePath.length < cmdSystemSize

variable {build : BuildOptions} {found : Bool} {info : PciInfo} {filePath : List Char}
  {region : FpgaRegion} {env : BitstreamEnv} {dev : ModulesInfo}

/-! ### The words before the path -/

theorem isAlphanum_digitChar {d : ℕ} (h : d < 16) : (Nat.digitChar d).isAlphanum = true := by
  have hall : ∀ d : Fin 16, (Nat.digitChar d).isAlphanum = true := by decide
  exact hall ⟨d, h⟩

theorem isAlphanum_of_mem_hex {n : ℕ} {c : Char} (h : c ∈ hex n) : c.isAlphanum = true := by
  unfold hex at h
  induction n using Nat.strong_induction_on with
  | _ n ih =>
    rw [Nat.toDigits_eq_if (by omega)] at h
    split_ifs at h with hlt
    · rw [List.mem_singleton.mp h]
      exact isAlphanum_digitChar hlt
    · rcases List.mem_append.mp h with h | h
      · exact ih (n / 16) (by omega) h
      · rw [List.mem_singleton.mp h]
        exact isAlphanum_digitChar (Nat.mod_lt n (by omega))

theorem ne_of_isAlphanum {c d : Char} (hc : c.isAlphanum = true) (hd : d.isAlphanum = false) : c ≠ d := by
  rintro rfl
  exact Bool.false_ne_true (hd.symm.trans hc)

/-- Digits, and the characters between them, have no meaning to the shell. -/
theorem fixedWord_of_digits {w : List Char} (hne : w ≠ [])
    (h : ∀ c ∈ w, c.isAlphanum = true ∨ c = ':' ∨ c = '.') : Shell.FixedWord w := by
  refine .of_chars hne fun c hc => ?_
  rcases h c hc with halnum | rfl | rfl
  · have hne : ∀ d : Char, d.isAlphanum = false → c ≠ d := fun d => ne_of_isAlphanum halnum
    constructor
    · simp [Shell.isOrdinary, Shell.isBlank, Shell.isOperator, Shell.isQuote, Shell.isExpansion,
        hne ' ' rfl, hne '\t' rfl, hne '&' rfl, hne '|' rfl, hne ';' rfl, hne '<' rfl, hne '>' rfl,
        hne '(' rfl, hne ')' rfl, hne '\n' rfl, hne Shell.backslash rfl, hne Shell.singleQuote rfl,
        hne Shell.doubleQuote rfl, hne '$' rfl, hne Shell.backquote rfl]
    · simp [hne '#' rfl, hne '~' rfl, hne '*' rfl, hne '?' rfl, hne '[' rfl]
  · exact ⟨by decide, by decide⟩
  · exact ⟨by decide, by decide⟩

theorem isAlphanum_of_mem_hex02 {n : ℕ} {c : Char} (h : c ∈ hex02 n) : c.isAlphanum = true := by
  unfold hex02 List.leftpad at h
  rcases List.mem_append.mp h with h | h
  · rw [(List.mem_replicate.mp h).2]
    rfl
  · exact isAlphanum_of_mem_hex h

/-- The address of the device. -/
def pciAddr (info : PciInfo) : List Char :=
  hex02 info.pciBus.toNat ++ [':'] ++ hex02 info.pciDev.toNat ++ ['.'] ++ hex info.pciFunc.toNat

/-- The words before the path. -/
def cmdWords (info : PciInfo) : List (List Char) :=
  [mcapExecFile, ['-', 'E'], ['-', 's'], pciAddr info, ['-', 'x'], hex info.pciDeviceId.toNat, ['-', 'p']]

theorem cmdPrefix_eq (info : PciInfo) : cmdPrefix info = (cmdWords info).flatMap (· ++ [' ']) := by
  simp [cmdPrefix, cmdWords, pciAddr]

theorem hex_ne_nil (n : ℕ) : hex n ≠ [] := List.ne_nil_of_length_pos Nat.length_toDigits_pos

/-- **The words before the path** stand for themselves. -/
theorem cmdWords_fixed (info : PciInfo) : ∀ w ∈ cmdWords info, Shell.FixedWord w := by
  have haddr : Shell.FixedWord (pciAddr info) := by
    refine fixedWord_of_digits (by simp [pciAddr]) fun c hc => ?_
    simp only [pciAddr, List.mem_append, List.mem_singleton] at hc
    rcases hc with (((hc | hc) | hc) | hc) | hc
    · exact .inl (isAlphanum_of_mem_hex02 hc)
    · exact .inr (.inl hc)
    · exact .inl (isAlphanum_of_mem_hex02 hc)
    · exact .inr (.inr hc)
    · exact .inl (isAlphanum_of_mem_hex hc)
  have hid : Shell.FixedWord (hex info.pciDeviceId.toNat) :=
    fixedWord_of_digits (hex_ne_nil _) fun c hc => .inl (isAlphanum_of_mem_hex hc)
  simp only [cmdWords, List.forall_mem_cons, List.not_mem_nil, false_imp_iff, implies_true, and_true]
  exact ⟨by decide, by decide, by decide, haddr, by decide, hid, by decide⟩

theorem length_hex_le {w k : ℕ} (x : BitVec w) (hk : 0 < k) (hw : 2 ^ w ≤ 16 ^ k) :
    (hex x.toNat).length ≤ k :=
  Nat.toDigits_length 16 x.toNat k hk (Nat.lt_of_lt_of_le x.isLt hw)

theorem length_hex02_le {w k : ℕ} (x : BitVec w) (hk : 2 ≤ k) (hw : 2 ^ w ≤ 16 ^ k) :
    (hex02 x.toNat).length ≤ k := by
  have hle := length_hex_le x (by omega) hw
  unfold hex02
  rw [List.length_leftpad]
  exact Nat.max_le.mpr ⟨hk, hle⟩

/-- There is room for a path. -/
theorem length_cmdPrefix_le (info : PciInfo) : (cmdPrefix info).length ≤ 33 := by
  have hbus := length_hex02_le (k := 4) info.pciBus (by omega) (by decide)
  have hdev := length_hex02_le (k := 2) info.pciDev (by omega) (by decide)
  have hfunc := length_hex_le (k := 2) info.pciFunc (by omega) (by decide)
  have hid := length_hex_le (k := 4) info.pciDeviceId (by omega) (by decide)
  simp only [cmdPrefix, mcapExecFile, List.length_append, List.length_cons, List.length_nil]
  omega

/-! ### The last word -/

/-- After the words before the path. -/
theorem foldlM_cmdPrefix (info : PciInfo) :
    (cmdPrefix info).foldlM Shell.lexChar .start =
      .ok ⟨((cmdWords info).map fun w => .word (w.map .plain)).reverse, none, .none⟩ := by
  rw [cmdPrefix_eq, Shell.LexState.start,
    Shell.lex_words fun w hw => (cmdWords_fixed info w hw).toPlainWord, List.append_nil]

/-- **The text is one command with the path as its last word** exactly if the path stands for itself
and fits. -/
theorem oneCommand_cmdSystem_iff (info : PciInfo) (filePath : List Char) :
    OneCommand (cmdSystem info filePath) filePath ↔ PathFair info filePath := by
  have hroom := length_cmdPrefix_le info
  have hcut : cmdSystem info filePath =
      cmdPrefix info ++ filePath.take (cmdSystemSize - 1 - (cmdPrefix info).length) := by
    rw [cmdSystem, List.take_append, List.take_of_length_le]
    exact hroom.trans (by decide)
  constructor
  · rintro ⟨args, hargs⟩
    rw [hcut] at hargs
    rcases Shell.fixedWord_of_commandWords (foldlM_cmdPrefix info) hargs (List.length_take_le' ..) with
      ⟨hwhole, hfixed⟩ | ⟨hplain, hlast⟩
    · rw [← hwhole] at hfixed
      refine ⟨hfixed, ?_⟩
      have hlen := congrArg List.length hwhole
      rw [List.length_take] at hlen
      have hpos := List.length_pos_iff.mpr hfixed.ne_nil
      have hsize : cmdSystemSize = 1024 := rfl
      omega
    · -- the path cannot be the option before it, for that would be a word, too
      have hpath : filePath = ['-', 'p'] := by
        simp only [cmdWords, List.map_cons, List.map_nil, List.reverse_cons, List.reverse_nil,
          List.nil_append, List.cons_append, List.head?_cons, Option.bind_some] at hlast
        exact (Option.some.inj hlast).symm
      have htake : filePath.take (cmdSystemSize - 1 - (cmdPrefix info).length) = filePath := by
        apply List.take_of_length_le
        have hsize : cmdSystemSize = 1024 := rfl
        rw [hpath, List.length_cons, List.length_singleton]
        omega
      rw [htake, hpath] at hplain
      exact absurd (by decide) hplain
  · rintro ⟨hfixed, hlen⟩
    refine ⟨(cmdWords info).tail, ?_⟩
    have hwhole : cmdSystem info filePath = cmdPrefix info ++ filePath := by
      rw [cmdSystem, List.take_of_length_le]
      rw [List.length_append]
      omega
    rw [hwhole, cmdPrefix_eq, Shell.commandWords_words (cmdWords_fixed info) hfixed]
    rfl

/-! ### A call -/

/-- The call comes to an end before the command, whatever the path spells: it has a semicolon, there
is no command processor, or the reference count cannot be set. -/
def Refuses (build : BuildOptions) (found : Bool) (filePath : List Char) (region : FpgaRegion)
    (env : BitstreamEnv) (dev : ModulesInfo) : Prop :=
  ';' ∈ filePath ∨ env.commandProcessor = false ∨
    (fpgaRefControl build found region .write dev).1 ≠ .ok ()

theorem controlRefcountDev_of_error {cmd : RefcountCmd} {e : RefcountErrno}
    (h : (controlRefcountDev build cmd dev).1 = .error e) : (controlRefcountDev build cmd dev).2 = dev :=
  congrArg (fun counters => { dev with counters }) (control_of_error h)

/-- A `WRITE` that fails sets nothing. -/
theorem fpgaRefControl_of_ne_ok (build : BuildOptions) (found : Bool) (region : FpgaRegion)
    (dev : ModulesInfo) (h : (fpgaRefControl build found region .write dev).1 ≠ .ok ()) :
    (fpgaRefControl build found region .write dev).2 = dev := by
  cases found with
  | false => rfl
  | true =>
    cases region with
    | max => rfl
    | all =>
      obtain ⟨hdev, hok⟩ := fpgaRefControl_all build .write dev rfl
      rw [hdev]
      cases hret : (controlRefcountDev build .write dev).1 with
      | ok u => exact absurd (hok.mpr hret) h
      | error e => exact controlRefcountDev_of_error hret

/-- **Where a call comes to**: it refuses and changes nothing, or it hands the text to `system`. -/
theorem systemText_cases (build : BuildOptions) (found : Bool) (info : PciInfo) (filePath : List Char)
    (region : FpgaRegion) (env : BitstreamEnv) (dev : ModulesInfo) :
    Refuses build found filePath region env dev ∧
        systemText build found info filePath region env dev = none ∧
        (fpgaConfigRegion build found (some filePath) region env dev).2 = dev ∨
      ¬ Refuses build found filePath region env dev ∧
        systemText build found info filePath region env dev = some (cmdSystem info filePath) := by
  by_cases hvalid : found = true ∧ region = .all
  swap
  · left
    refine ⟨.inr (.inr ?_), ?_⟩
    · cases found <;> cases region <;> simp [fpgaRefControl, fpgaGetXpcieRegion] at hvalid ⊢
    · cases found <;> cases region <;>
        simp [systemText, fpgaConfigRegion, fpgaGetXpcieRegion] at hvalid ⊢
  obtain ⟨rfl, rfl⟩ := hvalid
  have hguard : (!true || decide (fpgaGetXpcieRegion .all = .max)) = false := rfl
  unfold systemText fpgaConfigRegion
  simp only [hguard, Bool.false_eq_true, if_false]
  by_cases hsemi : filePath.contains ';' = true
  · left
    rw [if_pos hsemi, if_pos hsemi]
    exact ⟨.inl (List.contains_iff_mem.mp hsemi), rfl, rfl⟩
  rw [if_neg hsemi, if_neg hsemi]
  cases hproc : env.commandProcessor with
  | false => exact .inl ⟨.inr (.inl hproc), rfl, rfl⟩
  | true =>
    simp only [Bool.not_true, Bool.false_eq_true, if_false]
    have hkept := fpgaRefControl_of_ne_ok build true .all dev
    have hrefuses : Refuses build true filePath .all env dev ↔
        (fpgaRefControl build true .all .write dev).1 ≠ .ok () := by
      have hmem : ';' ∉ filePath := fun hmem => hsemi (List.contains_iff_mem.mpr hmem)
      simp [Refuses, hproc, hmem]
    generalize fpgaRefControl build true .all .write dev = out at hkept hrefuses ⊢
    obtain ⟨ret, dev'⟩ := out
    cases ret with
    | error e =>
      exact .inl ⟨hrefuses.mpr (by simp), rfl, hkept (by simp)⟩
    | ok u => exact .inr ⟨fun h => hrefuses.mp h rfl, rfl⟩

/-- **A call does what it should** exactly if it refuses anyway, or the path stands for itself and
fits. -/
theorem reconfigRight_iff (build : BuildOptions) (found : Bool) (info : PciInfo)
    (filePath : List Char) (region : FpgaRegion) (env : BitstreamEnv) (dev : ModulesInfo) :
    ReconfigRight build found info filePath region env dev ↔
      Refuses build found filePath region env dev ∨ PathFair info filePath := by
  rcases systemText_cases build found info filePath region env dev with
    ⟨hrefuses, htext, hdev⟩ | ⟨haccepts, htext⟩
  · refine iff_of_true ⟨?_, fun _ => ⟨htext, hdev⟩⟩ (.inl hrefuses)
    intro text h
    rw [htext] at h
    cases h
  · constructor
    · intro h
      exact .inr ((oneCommand_cmdSystem_iff info filePath).mp (h.command _ htext))
    · intro h
      have hone := (oneCommand_cmdSystem_iff info filePath).mpr (h.resolve_left haccepts)
      refine ⟨?_, fun hnot => absurd hone hnot⟩
      intro text h
      rw [htext] at h
      cases h
      exact hone

/-- Two commands: the path `a|b` is accepted. -/
theorem not_reconfigRight :
    ¬ ∀ (build : BuildOptions) (found : Bool) (info : PciInfo) (filePath : List Char)
      (region : FpgaRegion) (env : BitstreamEnv) (dev : ModulesInfo),
      ReconfigRight build found info filePath region env dev := by
  intro h
  have hright := h chainBuild true ⟨1, 0, 0, 0x903f⟩ ['a', '|', 'b'] .all (fineWrite (chainLanes 1))
    oneLane
  have hone := hright.command (cmdSystem ⟨1, 0, 0, 0x903f⟩ ['a', '|', 'b']) (by decide)
  have hplain := ((oneCommand_cmdSystem_iff _ _).mp hone).1.ordinary '|' (by decide)
  exact absurd hplain (by decide)

end HardwareDrivers.Libfpga
