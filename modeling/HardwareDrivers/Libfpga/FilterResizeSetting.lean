import HardwareDrivers.Libfpga.FilterResize
import HardwareDrivers.Theory.Decimals

/-!
# The setting of filter_resize as a text

`fpga_filter_resize_get_setting` reads the sizes of the function module, asks the conversion module
for its part, and puts both into one text. The text of the conversion module comes through a pointer
that is set only when its getter succeeds; whether it did is not looked at.

## What is proved

* `formatText_inj` — the values are determined by the text.
* `settingRight_iff` — when the call returns the whole setting or an error.
-/

namespace HardwareDrivers.Libfpga

open Theory.Decimals

/-! ### Texts -/

/-- `%u`. -/
def formatU (value : BitVec 32) : CString := Nat.toDigits 10 value.toNat

/-- A format with `%u` only: what stands before each value, the values, and what stands at the end. -/
def formatText : List (CString × BitVec 32) → CString → CString
  | [], tail => tail
  | (label, value) :: rest, tail => label ++ (formatU value ++ formatText rest tail)

/-- `snprintf`: the text is cut to the buffer. -/
def snprintf (size : ℕ) (text : CString) : CString := text.take (size - 1)

/-- `LIBFUNCTION_FILTER_RESIZE_PARAMS_JSON_FMT`. -/
def resizeParams (iWidth iHeight oWidth oHeight : BitVec 32) : CString :=
  formatText [("\x7b\"i_width\":".toList, iWidth), (",\"i_height\":".toList, iHeight),
    (",\"o_width\":".toList, oWidth), (",\"o_height\":".toList, oHeight)] "\x7d".toList

/-- `LIBFUNCTION_CONV_PARAMS_JSON_FMT`. -/
def convParams (iWidth iHeight frameBufferL frameBufferH : BitVec 32) : CString :=
  formatText [("\x7b\"i_width\":".toList, iWidth), (",\"i_height\":".toList, iHeight),
    (",\"frame_buffer_l\":".toList, frameBufferL), (",\"frame_buffer_h\":".toList, frameBufferH)]
    "\x7d".toList

/-- The text of both. -/
def funcParams (fr conv : CString) : CString :=
  "\x7b\"fr\":".toList ++ fr ++ ", \"conv\":".toList ++ conv ++ "\x7d".toList

/-! ### The calls -/

/-- What the language does not define. -/
inductive SettingFault where
  /-- A pointer without a value is used. -/
  | unset
  /-- `%s` of a null pointer. -/
  | null
  deriving DecidableEq

/-- The errors of the calls. -/
inductive SettingErr where
  /-- `INVALID_ARGUMENT`. -/
  | invalidArgument
  /-- `FAILURE_READ`. -/
  | failureRead
  /-- `FAILURE_MEMORY_ALLOC`. -/
  | failureMemoryAlloc
  deriving DecidableEq

/-- A `char *` of the caller. -/
inductive TextPtr where
  /-- Never assigned. -/
  | unset
  /-- `NULL`. -/
  | null
  /-- A text. -/
  | text (txt : CString)
  deriving DecidableEq

/-- What a call finds. -/
structure SettingEnv where
  /-- The registers. -/
  regs : BitVec 32 → BitVec 32
  /-- Which `pread`s succeed, in their order. -/
  pread : ℕ → Bool
  /-- Memory for the text of the conversion module. -/
  convMemory : Bool
  /-- Memory for the whole text. -/
  memory : Bool

variable (env : SettingEnv) (dev : Option FunctionDevice) (lane : BitVec 32)

/-- `pread` of a register, the `k`-th. -/
def preadReg (k : ℕ) (addr : BitVec 32) : Option (BitVec 32) :=
  if env.pread k then some (env.regs addr) else none

/-- `fpga_conv_get_setting`: what it returns, and `*json_txt`. -/
def fpgaConvGetSetting : Except SettingErr Unit × TextPtr :=
  match dev with
  | none => (.error .invalidArgument, .unset)
  | some dev =>
    if dev.convNum ≤ lane.toNat then (.error .invalidArgument, .unset)
    else
      let tmpJson : Option CString := do
        let iWidth ← preadReg env 4 (convColsInput lane)
        let iHeight ← preadReg env 5 (convRowsInput lane)
        let frameBufferL ← preadReg env 6 (convFrameBufferL lane)
        let frameBufferH ← preadReg env 7 (convFrameBufferH lane)
        return snprintf 256 (convParams iWidth iHeight frameBufferL frameBufferH)
      match tmpJson with
      | none => (.error .failureRead, .unset)
      | some tmpJson =>
        if env.convMemory then (.ok (), .text tmpJson) else (.error .failureMemoryAlloc, .null)

/-- `fpga_filter_resize_get_setting`; `jsonTxt` says whether the pointer is given. -/
def fpgaFilterResizeGetSetting (jsonTxt : Bool) :
    Except SettingFault (Except SettingErr CString) :=
  match dev, jsonTxt with
  | some dev, true =>
    if dev.funcNum ≤ lane.toNat then .ok (.error .invalidArgument)
    else
      let tmpJson : Option CString := do
        let iWidth ← preadReg env 0 (frfuncColsInput lane)
        let iHeight ← preadReg env 1 (frfuncRowsInput lane)
        let oWidth ← preadReg env 2 (frfuncColsOutput lane)
        let oHeight ← preadReg env 3 (frfuncRowsOutput lane)
        return snprintf 256 (resizeParams iWidth iHeight oWidth oHeight)
      match tmpJson with
      | none => .ok (.error .failureRead)
      | some tmpJson =>
        -- the result of the getter is not looked at
        match (fpgaConvGetSetting env (some dev) lane).2 with
        | .unset => .error .unset
        | .null => .error .null
        | .text convJson =>
          let funcJson := snprintf 512 (funcParams tmpJson convJson)
          if env.memory then .ok (.ok funcJson) else .ok (.error .failureMemoryAlloc)
  | _, _ => .ok (.error .invalidArgument)

/-! ### The property -/

/-- A setting of the two modules. -/
structure ResizeSetting where
  /-- `i_width` and `i_height` of the function module. -/
  frInput : BitVec 32 × BitVec 32
  /-- `o_width` and `o_height`. -/
  frOutput : BitVec 32 × BitVec 32
  /-- `i_width` and `i_height` of the conversion module. -/
  convInput : BitVec 32 × BitVec 32
  /-- `frame_buffer_l` and `frame_buffer_h`. -/
  frameBuffer : BitVec 32 × BitVec 32
  deriving DecidableEq

/-- The setting that the registers of a lane have. -/
def settingOf : ResizeSetting where
  frInput := (env.regs (frfuncColsInput lane), env.regs (frfuncRowsInput lane))
  frOutput := (env.regs (frfuncColsOutput lane), env.regs (frfuncRowsOutput lane))
  convInput := (env.regs (convColsInput lane), env.regs (convRowsInput lane))
  frameBuffer := (env.regs (convFrameBufferL lane), env.regs (convFrameBufferH lane))

/-- The text of a setting, whatever its length. -/
def ResizeSetting.text (s : ResizeSetting) : CString :=
  funcParams (resizeParams s.frInput.1 s.frInput.2 s.frOutput.1 s.frOutput.2)
    (convParams s.convInput.1 s.convInput.2 s.frameBuffer.1 s.frameBuffer.2)

/-- The function module can be read. -/
def FrReadable (jsonTxt : Bool) : Prop :=
  jsonTxt = true ∧ (∃ d ∈ dev, lane.toNat < d.funcNum) ∧ ∀ k < 4, env.pread k = true

/-- The conversion module can be read, and there is memory for its text. -/
def ConvReadable : Prop :=
  (∃ d ∈ dev, lane.toNat < d.convNum) ∧ (∀ k, 4 ≤ k → k < 8 → env.pread k = true) ∧
    env.convMemory = true

/-- The whole setting of the registers, or an error. -/
structure SettingRight (jsonTxt : Bool)
    (result : Except SettingFault (Except SettingErr CString)) : Prop where
  /-- The text gives the values of the registers. -/
  success : FrReadable env dev lane jsonTxt → ConvReadable env dev lane → env.memory = true →
    ∃ txt, result = .ok (.ok txt) ∧ ∀ s : ResizeSetting, s.text = txt ↔ s = settingOf env lane
  /-- Nothing else is a success. -/
  failure : ¬(FrReadable env dev lane jsonTxt ∧ ConvReadable env dev lane ∧ env.memory = true) →
    ∃ err, result = .ok (.error err)

/-! ### Texts and values -/

theorem length_formatU_le (value : BitVec 32) : (formatU value).length ≤ 10 :=
  (Nat.length_toDigits_le_iff (by decide) (by decide)).2 (by have := value.isLt; omega)

theorem formatU_inj {v w : BitVec 32} (h : formatU v = formatU w) : v = w :=
  BitVec.eq_of_toNat_eq (toDigits_inj h)

/-- What follows a value. -/
theorem noDigitHead_formatText {fs : List (CString × BitVec 32)} {tail : CString}
    (hfs : ∀ f ∈ fs, f.1 ≠ [] ∧ NoDigitHead f.1) (htail : NoDigitHead tail) :
    NoDigitHead (formatText fs tail) := by
  cases fs with
  | nil => exact htail
  | cons f fs =>
    obtain ⟨hne, hhead⟩ := hfs f List.mem_cons_self
    obtain ⟨c, label, hlabel⟩ := List.exists_cons_of_ne_nil hne
    intro x hx
    apply hhead x
    simpa [formatText, hlabel] using hx

/-- The values are determined by the text. -/
theorem formatText_inj {fs gs : List (CString × BitVec 32)} {tail : CString}
    (hlabels : fs.map Prod.fst = gs.map Prod.fst) (hfs : ∀ f ∈ fs, f.1 ≠ [] ∧ NoDigitHead f.1)
    (htail : NoDigitHead tail) (h : formatText fs tail = formatText gs tail) : fs = gs := by
  induction fs generalizing gs with
  | nil => simpa using hlabels.symm
  | cons f fs ih =>
    cases gs with
    | nil => simp at hlabels
    | cons g gs =>
      simp only [List.map_cons, List.cons.injEq] at hlabels
      have hfs' : ∀ f ∈ fs, f.1 ≠ [] ∧ NoDigitHead f.1 := fun f hf =>
        hfs f (List.mem_cons_of_mem _ hf)
      have hgs' : ∀ g ∈ gs, g.1 ≠ [] ∧ NoDigitHead g.1 := by
        intro g hg
        obtain ⟨f, hf, hfg⟩ := List.mem_map.1 (hlabels.2 ▸ List.mem_map_of_mem hg)
        exact hfg ▸ hfs' f hf
      simp only [formatText, hlabels.1, List.append_cancel_left_eq] at h
      obtain ⟨hvalue, hrest⟩ := append_inj (fun _ => isDigit_of_mem) (fun _ => isDigit_of_mem)
        (noDigitHead_formatText hfs' htail) (noDigitHead_formatText hgs' htail) h
      rw [ih hlabels.2 hfs' hrest, Prod.ext hlabels.1 (formatU_inj hvalue)]

/-- How long a text can be. -/
theorem length_formatText_le (fs : List (CString × BitVec 32)) (tail : CString) :
    (formatText fs tail).length ≤ (fs.map fun f => f.1.length + 10).sum + tail.length := by
  induction fs with
  | nil => simp [formatText]
  | cons f fs ih =>
    have hvalue := length_formatU_le f.2
    simp only [formatText, List.length_append, List.map_cons, List.sum_cons]
    omega

/-- A text that fits. -/
theorem snprintf_of_lt {size : ℕ} {text : CString} (h : text.length < size) :
    snprintf size text = text :=
  List.take_of_length_le (by omega)

variable (a b c d : BitVec 32)

theorem length_resizeParams : (resizeParams a b c d).length ≤ 87 :=
  (length_formatText_le _ _).trans (by simp)

theorem length_convParams : (convParams a b c d).length ≤ 100 :=
  (length_formatText_le _ _).trans (by simp)

theorem snprintf_resizeParams : snprintf 256 (resizeParams a b c d) = resizeParams a b c d :=
  snprintf_of_lt (by have := length_resizeParams a b c d; omega)

theorem snprintf_convParams : snprintf 256 (convParams a b c d) = convParams a b c d :=
  snprintf_of_lt (by have := length_convParams a b c d; omega)

variable {a b c d}

theorem length_funcParams (fr conv : CString) :
    (funcParams fr conv).length = fr.length + conv.length + 16 := by
  have hhead : ("\x7b\"fr\":".toList).length = 6 := rfl
  have hmid : (", \"conv\":".toList).length = 9 := rfl
  have htail : ("\x7d".toList).length = 1 := rfl
  unfold funcParams
  simp only [List.length_append, hhead, hmid, htail]
  omega

/-- The whole text fits. -/
theorem snprintf_text (s : ResizeSetting) : snprintf 512 s.text = s.text := by
  apply snprintf_of_lt
  simp only [ResizeSetting.text, length_funcParams]
  have hfr := length_resizeParams s.frInput.1 s.frInput.2 s.frOutput.1 s.frOutput.2
  have hconv := length_convParams s.convInput.1 s.convInput.2 s.frameBuffer.1 s.frameBuffer.2
  omega

/-- The fields of a setting, with what stands before them. -/
def ResizeSetting.fields (s : ResizeSetting) : List (CString × BitVec 32) :=
  [("\x7b\"fr\":".toList ++ "\x7b\"i_width\":".toList, s.frInput.1),
    (",\"i_height\":".toList, s.frInput.2),
    (",\"o_width\":".toList, s.frOutput.1), (",\"o_height\":".toList, s.frOutput.2),
    ("\x7d".toList ++ (", \"conv\":".toList ++ "\x7b\"i_width\":".toList), s.convInput.1),
    (",\"i_height\":".toList, s.convInput.2),
    (",\"frame_buffer_l\":".toList, s.frameBuffer.1),
    (",\"frame_buffer_h\":".toList, s.frameBuffer.2)]

theorem text_eq_formatText (s : ResizeSetting) :
    s.text = formatText s.fields ("\x7d".toList ++ "\x7d".toList) := by
  unfold ResizeSetting.text ResizeSetting.fields funcParams resizeParams convParams
  simp only [formatText, List.append_assoc]

theorem map_fields (s t : ResizeSetting) : s.fields.map Prod.fst = t.fields.map Prod.fst := by
  simp only [ResizeSetting.fields, List.map_cons, List.map_nil]

theorem fields_inj {s t : ResizeSetting} (h : s.fields = t.fields) : s = t := by
  cases s
  cases t
  simp only [ResizeSetting.fields, List.cons.injEq, Prod.mk.injEq, true_and, and_true] at h
  obtain ⟨h₁, h₂, h₃, h₄, h₅, h₆, h₇, h₈⟩ := h
  simp only [ResizeSetting.mk.injEq, Prod.ext_iff]
  exact ⟨⟨h₁, h₂⟩, ⟨h₃, h₄⟩, ⟨h₅, h₆⟩, ⟨h₇, h₈⟩⟩

theorem noDigitHead_fields (s : ResizeSetting) : ∀ f ∈ s.fields, f.1 ≠ [] ∧ NoDigitHead f.1 := by
  simp [ResizeSetting.fields, NoDigitHead]

/-- A setting is determined by its text. -/
theorem text_inj {s t : ResizeSetting} (h : s.text = t.text) : s = t := by
  rw [text_eq_formatText, text_eq_formatText] at h
  apply fields_inj
  exact formatText_inj (map_fields s t) (noDigitHead_fields s) (by simp [NoDigitHead]) h

/-! ### The calls -/

variable {env : SettingEnv} {dev : Option FunctionDevice} {lane : BitVec 32} {jsonTxt : Bool}

/-- The getter of the conversion module, if it succeeds. -/
theorem convGetSetting_of_readable (h : ConvReadable env dev lane) :
    (fpgaConvGetSetting env dev lane).2 = .text (convParams (env.regs (convColsInput lane))
      (env.regs (convRowsInput lane)) (env.regs (convFrameBufferL lane))
      (env.regs (convFrameBufferH lane))) := by
  obtain ⟨⟨d, rfl, hlane⟩, hread, hmemory⟩ := h
  have h₄ := hread 4 (by decide) (by decide)
  have h₅ := hread 5 (by decide) (by decide)
  have h₆ := hread 6 (by decide) (by decide)
  have h₇ := hread 7 (by decide) (by decide)
  simp [fpgaConvGetSetting, preadReg, Nat.not_le.2 hlane, h₄, h₅, h₆, h₇, hmemory,
    snprintf_convParams]

/-- The getter of the conversion module, if it fails: there is no text. -/
theorem convGetSetting_of_not (h : ¬ConvReadable env dev lane) (txt : CString) :
    (fpgaConvGetSetting env dev lane).2 ≠ .text txt := by
  intro htxt
  apply h
  cases dev with
  | none => simp [fpgaConvGetSetting] at htxt
  | some d =>
    by_cases hlane : d.convNum ≤ lane.toNat
    · simp [fpgaConvGetSetting, hlane] at htxt
    · cases h₄ : env.pread 4 <;> cases h₅ : env.pread 5 <;> cases h₆ : env.pread 6 <;>
        cases h₇ : env.pread 7 <;> cases hmemory : env.convMemory <;>
        simp [fpgaConvGetSetting, hlane, preadReg, h₄, h₅, h₆, h₇, hmemory] at htxt
      refine ⟨⟨d, rfl, by omega⟩, fun k hk hk' => ?_, hmemory⟩
      obtain rfl | rfl | rfl | rfl : k = 4 ∨ k = 5 ∨ k = 6 ∨ k = 7 := by omega
      all_goals assumption

/-- The function module cannot be read. -/
theorem getSetting_of_not_fr (h : ¬FrReadable env dev lane jsonTxt) :
    ∃ err, fpgaFilterResizeGetSetting env dev lane jsonTxt = .ok (.error err) := by
  cases dev with
  | none => exact ⟨_, rfl⟩
  | some d =>
    cases jsonTxt with
    | false => exact ⟨_, rfl⟩
    | true =>
      by_cases hlane : d.funcNum ≤ lane.toNat
      · exact ⟨.invalidArgument, by simp [fpgaFilterResizeGetSetting, hlane]⟩
      · cases h₀ : env.pread 0 <;> cases h₁ : env.pread 1 <;> cases h₂ : env.pread 2 <;>
          cases h₃ : env.pread 3
        case true.true.true.true =>
          refine absurd ⟨rfl, ⟨d, rfl, by omega⟩, fun k hk => ?_⟩ h
          obtain rfl | rfl | rfl | rfl : k = 0 ∨ k = 1 ∨ k = 2 ∨ k = 3 := by omega
          all_goals assumption
        all_goals
          exact ⟨.failureRead,
            by simp [fpgaFilterResizeGetSetting, hlane, preadReg, h₀, h₁, h₂, h₃]⟩

/-- The function module can be read: the rest is up to the getter of the other. -/
theorem getSetting_of_fr (h : FrReadable env dev lane jsonTxt) :
    fpgaFilterResizeGetSetting env dev lane jsonTxt =
      match (fpgaConvGetSetting env dev lane).2 with
      | .unset => .error .unset
      | .null => .error .null
      | .text convJson =>
        if env.memory then
          .ok (.ok (snprintf 512 (funcParams (resizeParams (env.regs (frfuncColsInput lane))
            (env.regs (frfuncRowsInput lane)) (env.regs (frfuncColsOutput lane))
            (env.regs (frfuncRowsOutput lane))) convJson)))
        else .ok (.error .failureMemoryAlloc) := by
  obtain ⟨rfl, ⟨d, rfl, hlane⟩, hread⟩ := h
  have h₀ := hread 0 (by decide)
  have h₁ := hread 1 (by decide)
  have h₂ := hread 2 (by decide)
  have h₃ := hread 3 (by decide)
  simp [fpgaFilterResizeGetSetting, preadReg, Nat.not_le.2 hlane, h₀, h₁, h₂, h₃,
    snprintf_resizeParams]

/-- The whole setting is returned. -/
theorem getSetting_of_readable (hfr : FrReadable env dev lane jsonTxt)
    (hconv : ConvReadable env dev lane) :
    fpgaFilterResizeGetSetting env dev lane jsonTxt =
      if env.memory then .ok (.ok (settingOf env lane).text)
      else .ok (.error .failureMemoryAlloc) := by
  rw [getSetting_of_fr hfr, convGetSetting_of_readable hconv]
  simp only
  rw [← snprintf_text]
  rfl

/-- **The call returns the whole setting or an error** if and only if the conversion module can be
read whenever the function module can. -/
theorem settingRight_iff (env : SettingEnv) (dev : Option FunctionDevice) (lane : BitVec 32)
    (jsonTxt : Bool) :
    SettingRight env dev lane jsonTxt (fpgaFilterResizeGetSetting env dev lane jsonTxt) ↔
      (FrReadable env dev lane jsonTxt → ConvReadable env dev lane) := by
  constructor
  · intro hright hfr
    by_contra hconv
    obtain ⟨err, herr⟩ := hright.failure fun h => hconv h.2.1
    rw [getSetting_of_fr hfr] at herr
    cases htxt : (fpgaConvGetSetting env dev lane).2 with
    | unset => simp [htxt] at herr
    | null => simp [htxt] at herr
    | text txt => exact convGetSetting_of_not hconv txt htxt
  · intro hready
    refine ⟨fun hfr hconv hmemory => ?_, fun hnot => ?_⟩
    · refine ⟨(settingOf env lane).text, ?_, fun s => ⟨fun h => text_inj h, fun h => by rw [h]⟩⟩
      rw [getSetting_of_readable hfr hconv, if_pos hmemory]
    · by_cases hfr : FrReadable env dev lane jsonTxt
      · have hconv := hready hfr
        have hmemory : ¬env.memory = true := fun hmemory => hnot ⟨hfr, hconv, hmemory⟩
        exact ⟨.failureMemoryAlloc, by rw [getSetting_of_readable hfr hconv, if_neg hmemory]⟩
      · exact getSetting_of_not_fr hfr

/-- The conversion module cannot be read: a pointer is used that nobody set. -/
theorem not_settingRight : ¬∀ (env : SettingEnv) (dev : Option FunctionDevice) (lane : BitVec 32)
    (jsonTxt : Bool),
    SettingRight env dev lane jsonTxt (fpgaFilterResizeGetSetting env dev lane jsonTxt) := by
  intro hall
  have hright := hall ⟨fun _ => 0, fun k => k < 4, true, true⟩ (some ⟨1, 1, by decide⟩) 0 true
  obtain ⟨err, herr⟩ := hright.failure fun h => absurd (h.2.1.2.1 4 (by decide) (by decide)) (by decide)
  have hfault : fpgaFilterResizeGetSetting ⟨fun _ => 0, fun k => k < 4, true, true⟩
      (some ⟨1, 1, by decide⟩) 0 true = .error .unset := rfl
  rw [hfault] at herr
  cases herr

end HardwareDrivers.Libfpga
