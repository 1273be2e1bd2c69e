import HardwareDrivers.Libfpga.JsonParams
import HardwareDrivers.Theory.PartialWrites
import Mathlib.Data.BitVec

/-!
# The frame sizes of filter_resize

`libfunction_filter_resize.c` and `libfunction_conv.c`: a text gives four frame sizes, the function
module of the lane gets all of them, the conversion module the first two. Each of the two is stopped,
written and started by `pwrite`s that can fail.

## What is proved

* `setRegs_eq`, `convSetRegs_eq` — the two modules are set up by `Setup.writes`.
* `resizeRight_iff` — the calls for which both modules are as they were, stopped, or set up as the
  call asks for, and the result says so.
-/

namespace HardwareDrivers.Libfpga

open Theory

/-! ### The registers -/

/-- `XPCIE_FPGA_START_MODULE`. -/
def startModule : BitVec 32 := 0x00000001

/-- `XPCIE_FPGA_STOP_MODULE`. -/
def stopModule : BitVec 32 := 0x00000000

/-- `XPCIE_FPGA_FRFUNC_KRNL_OFFSET`. -/
def frfuncKrnlOffset (lane : BitVec 32) : BitVec 32 := 0x0000025000 + 0x1000 * lane

/-- `XPCIE_FPGA_FRFUNC_ROWS_INPUT`. -/
def frfuncRowsInput (lane : BitVec 32) : BitVec 32 := 0x0030 + frfuncKrnlOffset lane

/-- `XPCIE_FPGA_FRFUNC_COLS_INPUT`. -/
def frfuncColsInput (lane : BitVec 32) : BitVec 32 := 0x0034 + frfuncKrnlOffset lane

/-- `XPCIE_FPGA_FRFUNC_ROWS_OUTPUT`. -/
def frfuncRowsOutput (lane : BitVec 32) : BitVec 32 := 0x0038 + frfuncKrnlOffset lane

/-- `XPCIE_FPGA_FRFUNC_COLS_OUTPUT`. -/
def frfuncColsOutput (lane : BitVec 32) : BitVec 32 := 0x003C + frfuncKrnlOffset lane

/-- `XPCIE_FPGA_CONV_KRNL_OFFSET`. -/
def convKrnlOffset (lane : BitVec 32) : BitVec 32 := 0x0000024000 + 0x0400 * lane

/-- `XPCIE_FPGA_CONV_CONTROL`. -/
def convControl (lane : BitVec 32) : BitVec 32 := 0x0000 + convKrnlOffset lane

/-- `XPCIE_FPGA_CONV_AXI_INGR_FRAME_BUFFER_L`. -/
def convFrameBufferL (lane : BitVec 32) : BitVec 32 := 0x0030 + convKrnlOffset lane

/-- `XPCIE_FPGA_CONV_AXI_INGR_FRAME_BUFFER_H`. -/
def convFrameBufferH (lane : BitVec 32) : BitVec 32 := 0x0034 + convKrnlOffset lane

/-- `XPCIE_FPGA_CONV_ROWS_INPUT`. -/
def convRowsInput (lane : BitVec 32) : BitVec 32 := 0x0040 + convKrnlOffset lane

/-- `XPCIE_FPGA_CONV_COLS_INPUT`. -/
def convColsInput (lane : BitVec 32) : BitVec 32 := 0x0044 + convKrnlOffset lane

/-- `XPCIE_FPGA_DDR_VALUE_AXI_INGR_FRAME_BUFFER_L`. -/
def ddrFrameBufferL : BitVec 32 := 0x00000000

/-- `XPCIE_FPGA_DDR_VALUE_AXI_INGR_FRAME_BUFFER_H`. -/
def ddrFrameBufferH (lane : BitVec 32) : BitVec 32 :=
  if lane = 0 then 0x00000004
  else if lane = 1 then 0x00000005
  else if lane = 2 then 0x00000006
  else 0x00000007

/-! ### The calls -/

/-- What is used of `fpga_device_t`; the driver counts no more lanes than it has room for. -/
structure FunctionDevice where
  /-- `KERNEL_NUM_FUNC`. -/
  funcNum : ℕ
  /-- `KERNEL_NUM_CONV`. -/
  convNum : ℕ
  /-- `XPCIE_KERNEL_LANE_MAX`. -/
  func_le : funcNum ≤ 4

/-- The errors of the calls. -/
inductive ResizeErr where
  /-- `INVALID_ARGUMENT`. -/
  | invalidArgument
  /-- `FAILURE_WRITE`. -/
  | failureWrite
  deriving DecidableEq

/-- The registers of a device. -/
abbrev RegFile := WriteState (BitVec 32) (BitVec 32)

/-- What works on them and can be left in the middle. -/
abbrev RegM := ExceptT ResizeErr (StateM RegFile)

/-- `pwrite` of a register; for `goto failed` the error is thrown. -/
def pwriteReg (ok : ℕ → Bool) (addr value : BitVec 32) : RegM Unit := fun s =>
  match tryWrite ok (addr, value) s with
  | (true, s) => (.ok (), s)
  | (false, s) => (.error .failureWrite, s)

/-- `__fpga_filter_resize_set`. -/
def fpgaFilterResizeSetRegs (ok : ℕ → Bool)
    (lane iWidth iHeight oWidth oHeight module : BitVec 32) : RegM Unit := do
  if iWidth ≠ -1 ∧ iHeight ≠ -1 ∧ oWidth ≠ -1 ∧ oHeight ≠ -1 then
    pwriteReg ok (frfuncKrnlOffset lane) stopModule
  if ~~~iWidth ≠ 0 then
    pwriteReg ok (frfuncColsInput lane) iWidth
  if ~~~iHeight ≠ 0 then
    pwriteReg ok (frfuncRowsInput lane) iHeight
  if ~~~oWidth ≠ 0 then
    pwriteReg ok (frfuncColsOutput lane) oWidth
  if ~~~oHeight ≠ 0 then
    pwriteReg ok (frfuncRowsOutput lane) oHeight
  if ~~~module ≠ 0 then
    pwriteReg ok (frfuncKrnlOffset lane) (if module = 1 then startModule else stopModule)

/-- `__fpga_conv_set`. -/
def fpgaConvSetRegs (ok : ℕ → Bool)
    (lane iWidth iHeight frameBufferL frameBufferH module : BitVec 32) : RegM Unit := do
  if iWidth ≠ -1 ∧ iHeight ≠ -1 then
    pwriteReg ok (convControl lane) stopModule
  if ~~~iWidth ≠ 0 then
    pwriteReg ok (convColsInput lane) iWidth
  if ~~~iHeight ≠ 0 then
    pwriteReg ok (convRowsInput lane) iHeight
  if ~~~frameBufferL ≠ 0 then
    pwriteReg ok (convFrameBufferL lane) frameBufferL
  if ~~~frameBufferH ≠ 0 then
    pwriteReg ok (convFrameBufferH lane) frameBufferH
  if ~~~module ≠ 0 then
    pwriteReg ok (convControl lane) (if module = 1 then startModule else stopModule)

/-- What a call returns, with the registers. -/
abbrev RegResult := Except ResizeErr Unit × RegFile

variable (P : Parson) (ok : ℕ → Bool) (dev : Option FunctionDevice) (lane : BitVec 32)

/-- `fpga_conv_set`. -/
def fpgaConvSet (jsonTxt : Option CString) (s : RegFile) : Except JsonFault RegResult :=
  match dev, jsonTxt with
  | some dev, some jsonTxt =>
    if dev.convNum ≤ lane.toNat then
      return (.error .invalidArgument, s)
    else do
      let iWidth ← fpgaGetParameter P jsonTxt "i_width".toList
      let iHeight ← fpgaGetParameter P jsonTxt "i_height".toList
      if iWidth = -1 ∨ iHeight = -1 then
        return (.error .invalidArgument, s)
      else
        let module := if iWidth ||| iHeight = 0 then 0 else 1
        return fpgaConvSetRegs ok lane iWidth iHeight ddrFrameBufferL (ddrFrameBufferH lane) module s
  | _, _ => return (.error .invalidArgument, s)

/-- `fpga_conv_finish`. -/
def fpgaConvFinish (s : RegFile) : RegResult :=
  match dev with
  | some dev =>
    if dev.convNum ≤ lane.toNat then (.error .invalidArgument, s)
    else fpgaConvSetRegs ok lane 0 0 0 0 0 s
  | none => (.error .invalidArgument, s)

/-- The first error of the two. -/
def bothResults (retFr retCv : Except ResizeErr Unit) : Except ResizeErr Unit :=
  match retFr with
  | .error err => .error err
  | .ok () => retCv

/-- `fpga_filter_resize_set`. -/
def fpgaFilterResizeSet (jsonTxt : Option CString) (s : RegFile) : Except JsonFault RegResult :=
  match dev, jsonTxt with
  | some dev, some jsonTxt =>
    if dev.funcNum ≤ lane.toNat then
      return (.error .invalidArgument, s)
    else do
      let iWidth ← fpgaGetParameter P jsonTxt "i_width".toList
      let iHeight ← fpgaGetParameter P jsonTxt "i_height".toList
      let oWidth ← fpgaGetParameter P jsonTxt "o_width".toList
      let oHeight ← fpgaGetParameter P jsonTxt "o_height".toList
      if iWidth = -1 ∨ iHeight = -1 ∨ oWidth = -1 ∨ oHeight = -1 then
        return (.error .invalidArgument, s)
      else
        let module := if iWidth ||| iHeight ||| oWidth ||| oHeight = 0 then 0 else 1
        let (retFr, s) := fpgaFilterResizeSetRegs ok lane iWidth iHeight oWidth oHeight module s
        let (retCv, s) ← fpgaConvSet P ok (some dev) lane (some jsonTxt) s
        return (bothResults retFr retCv, s)
  | _, _ => return (.error .invalidArgument, s)

/-- `fpga_filter_resize_finish`. -/
def fpgaFilterResizeFinish (s : RegFile) : RegResult :=
  match dev with
  | some dev =>
    if dev.funcNum ≤ lane.toNat then (.error .invalidArgument, s)
    else
      let (retFr, s) := fpgaFilterResizeSetRegs ok lane 0 0 0 0 0 s
      let (retCv, s) := fpgaConvFinish ok (some dev) lane s
      (bothResults retFr retCv, s)
  | none => (.error .invalidArgument, s)

/-- The two calls. -/
inductive ResizeCall where
  /-- `fpga_filter_resize_set`. -/
  | set (jsonTxt : Option CString)
  /-- `fpga_filter_resize_finish`. -/
  | finish

/-- A call. -/
def ResizeCall.exec (s : RegFile) : ResizeCall → Except JsonFault RegResult
  | .set jsonTxt => fpgaFilterResizeSet P ok dev lane jsonTxt s
  | .finish => .ok (fpgaFilterResizeFinish ok dev lane s)

/-! ### What is asked for -/

/-- What the two modules are to have. -/
structure ResizeRequest where
  /-- `i_width`. -/
  iWidth : BitVec 32
  /-- `i_height`. -/
  iHeight : BitVec 32
  /-- `o_width`. -/
  oWidth : BitVec 32
  /-- `o_height`. -/
  oHeight : BitVec 32
  /-- `frame_buffer_l`. -/
  frameBufferL : BitVec 32
  /-- `frame_buffer_h`. -/
  frameBufferH : BitVec 32

/-- How the function module is set up: it stays stopped if all sizes are 0. -/
def frfuncSetup (r : ResizeRequest) : Setup (BitVec 32) (BitVec 32) where
  control := frfuncKrnlOffset lane
  stop := stopModule
  fields := [(frfuncColsInput lane, r.iWidth), (frfuncRowsInput lane, r.iHeight),
    (frfuncColsOutput lane, r.oWidth), (frfuncRowsOutput lane, r.oHeight)]
  last := if r.iWidth ||| r.iHeight ||| r.oWidth ||| r.oHeight = 0 then stopModule else startModule

/-- How the conversion module is set up: its sizes are those of the input. -/
def convSetup (r : ResizeRequest) : Setup (BitVec 32) (BitVec 32) where
  control := convControl lane
  stop := stopModule
  fields := [(convColsInput lane, r.iWidth), (convRowsInput lane, r.iHeight),
    (convFrameBufferL lane, r.frameBufferL), (convFrameBufferH lane, r.frameBufferH)]
  last := if r.iWidth ||| r.iHeight = 0 then stopModule else startModule

/-- The number that a text has under a name. -/
def numberOf (jsonTxt name : CString) : Option ℚ :=
  match (jsonParseString P jsonTxt).bind fun obj => P.getValue obj name with
  | some (.number x) => some x
  | _ => none

/-- A frame size: a word, but not that which stands for none. -/
def frameSize (jsonTxt name : CString) : Option (BitVec 32) :=
  (numberOf P jsonTxt name).bind fun x =>
    if x.den = 1 ∧ 0 ≤ x.num ∧ x.num < 2 ^ 32 - 1 then some (.ofInt 32 x.num) else none

/-- What a text asks for, for a lane. -/
def textRequest (jsonTxt : CString) : Option ResizeRequest := do
  let iWidth ← frameSize P jsonTxt "i_width".toList
  let iHeight ← frameSize P jsonTxt "i_height".toList
  let oWidth ← frameSize P jsonTxt "o_width".toList
  let oHeight ← frameSize P jsonTxt "o_height".toList
  return ⟨iWidth, iHeight, oWidth, oHeight, ddrFrameBufferL, ddrFrameBufferH lane⟩

/-- What a call asks for: nothing if an argument of it or a size in the text is not valid. -/
def ResizeCall.request : ResizeCall → Option ResizeRequest
  | .set jsonTxt =>
    match dev, jsonTxt with
    | some dev, some jsonTxt =>
      if lane.toNat < dev.funcNum ∧ lane.toNat < dev.convNum then textRequest P lane jsonTxt else none
    | _, _ => none
  | .finish =>
    match dev with
    | some dev =>
      if lane.toNat < dev.funcNum ∧ lane.toNat < dev.convNum then some ⟨0, 0, 0, 0, 0, 0⟩ else none
    | none => none

/-- Neither module runs without what is asked for, and the result says whether both have it. -/
def ResizeRight (result : Except JsonFault RegResult) (regs : BitVec 32 → BitVec 32) :
    Option ResizeRequest → Prop
  | none => ∃ err s, result = .ok (.error err, s) ∧ s.mem = regs ∧ s.log = []
  | some r => ∃ ret s, result = .ok (ret, s) ∧
      (frfuncSetup lane r).Sound regs s.mem ∧ (convSetup lane r).Sound regs s.mem ∧
      (ret = .ok () ↔ (frfuncSetup lane r).Complete s.log ∧ (convSetup lane r).Complete s.log) ∧
      (ret = .ok () → (frfuncSetup lane r).Done s.mem ∧ (convSetup lane r).Done s.mem)

/-- The names of the sizes. -/
def sizeNames : List CString :=
  ["i_width".toList, "i_height".toList, "o_width".toList, "o_height".toList]

/-- A number that can be converted to `int`. -/
def Castable (x : ℚ) : Prop := -2 ^ 31 ≤ x.num.tdiv x.den ∧ x.num.tdiv x.den < 2 ^ 31

/-- The sizes of a text are taken as they are, or refused. -/
structure SizesTaken (jsonTxt : CString) : Prop where
  /-- Every number can be converted. -/
  range : ∀ name ∈ sizeNames, ∀ x ∈ numberOf P jsonTxt name, Castable x
  /-- One is not there or is converted to -1, or all are natural numbers for a lane that has both
  modules. -/
  taken : (∃ name ∈ sizeNames, ∀ x ∈ numberOf P jsonTxt name, x.num.tdiv x.den = -1) ∨
    ((∀ name ∈ sizeNames, ∃ n : ℕ, numberOf P jsonTxt name = some n) ∧
      ∀ d ∈ dev, lane.toNat < d.convNum)

/-- The calls that are right. -/
def ResizeCall.Taken : ResizeCall → Prop
  | .set jsonTxt => ∀ d ∈ dev, ∀ txt ∈ jsonTxt, lane.toNat < d.funcNum → SizesTaken P dev lane txt
  | .finish => ∀ d ∈ dev, lane.toNat < d.funcNum → lane.toNat < d.convNum

/-! ### The writes -/

/-- Writes one after the other. -/
def pwriteAll (ws : List (BitVec 32 × BitVec 32)) : RegM Unit := fun s =>
  (if (writeAll ok ws s).1 then .ok () else .error .failureWrite, (writeAll ok ws s).2)

variable {ok lane}

theorem pwriteReg_eq (addr value : BitVec 32) :
    pwriteReg ok addr value = pwriteAll ok [(addr, value)] := by
  funext s
  by_cases h : ok s.tries <;> simp [pwriteReg, pwriteAll, writeAll, tryWrite, h]

theorem pwriteAll_bind (w : BitVec 32 × BitVec 32) (ws : List (BitVec 32 × BitVec 32)) :
    (pwriteAll ok [w] >>= fun _ => pwriteAll ok ws) = pwriteAll ok (w :: ws) := by
  funext s
  by_cases h : ok s.tries
  · simp [pwriteAll, writeAll, tryWrite, h, bind, ExceptT.bind, ExceptT.mk, ExceptT.bindCont,
      StateT.bind]
  · simp [pwriteAll, writeAll, tryWrite, h, bind, ExceptT.bind, ExceptT.mk, ExceptT.bindCont,
      StateT.bind]
    rfl

/-- A test for all ones. -/
theorem not_ne_zero {x : BitVec 32} (h : x ≠ -1) : ~~~x ≠ 0 := by
  intro hx
  apply h
  rw [← BitVec.not_not (b := x), hx]
  rfl

/-- The function module is set up. -/
theorem setRegs_eq {r : ResizeRequest} (hiWidth : r.iWidth ≠ -1) (hiHeight : r.iHeight ≠ -1)
    (hoWidth : r.oWidth ≠ -1) (hoHeight : r.oHeight ≠ -1) :
    fpgaFilterResizeSetRegs ok lane r.iWidth r.iHeight r.oWidth r.oHeight
        (if r.iWidth ||| r.iHeight ||| r.oWidth ||| r.oHeight = 0 then 0 else 1) =
      pwriteAll ok (frfuncSetup lane r).writes := by
  have hlast : (if (if r.iWidth ||| r.iHeight ||| r.oWidth ||| r.oHeight = 0 then (0 : BitVec 32)
      else 1) = 1 then startModule else stopModule) = (frfuncSetup lane r).last := by
    simp only [frfuncSetup]
    split_ifs <;> simp_all
  have hmodule : ~~~(if r.iWidth ||| r.iHeight ||| r.oWidth ||| r.oHeight = 0 then (0 : BitVec 32)
      else 1) ≠ 0 := by
    split_ifs <;> decide
  rw [fpgaFilterResizeSetRegs, if_pos ⟨hiWidth, hiHeight, hoWidth, hoHeight⟩,
    if_pos (not_ne_zero hiWidth), if_pos (not_ne_zero hiHeight), if_pos (not_ne_zero hoWidth),
    if_pos (not_ne_zero hoHeight), if_pos hmodule, hlast]
  simp only [pwriteReg_eq, pwriteAll_bind]
  rfl

/-- The conversion module is set up. -/
theorem convSetRegs_eq {r : ResizeRequest} (hiWidth : r.iWidth ≠ -1) (hiHeight : r.iHeight ≠ -1)
    (hl : r.frameBufferL ≠ -1) (hh : r.frameBufferH ≠ -1) :
    fpgaConvSetRegs ok lane r.iWidth r.iHeight r.frameBufferL r.frameBufferH
        (if r.iWidth ||| r.iHeight = 0 then 0 else 1) = pwriteAll ok (convSetup lane r).writes := by
  have hlast : (if (if r.iWidth ||| r.iHeight = 0 then (0 : BitVec 32) else 1) = 1 then startModule
      else stopModule) = (convSetup lane r).last := by
    simp only [convSetup]
    split_ifs <;> simp_all
  have hmodule : ~~~(if r.iWidth ||| r.iHeight = 0 then (0 : BitVec 32) else 1) ≠ 0 := by
    split_ifs <;> decide
  rw [fpgaConvSetRegs, if_pos ⟨hiWidth, hiHeight⟩, if_pos (not_ne_zero hiWidth),
    if_pos (not_ne_zero hiHeight), if_pos (not_ne_zero hl), if_pos (not_ne_zero hh),
    if_pos hmodule, hlast]
  simp only [pwriteReg_eq, pwriteAll_bind]
  rfl

/-- The buffers of a lane are no all ones. -/
theorem ddrFrameBufferH_ne (lane : BitVec 32) : ddrFrameBufferH lane ≠ -1 := by
  unfold ddrFrameBufferH
  split_ifs <;> decide

/-- The registers of the two modules of a lane. -/
theorem cells_apart (hlane : lane.toNat < 4) (r : ResizeRequest) :
    (frfuncSetup lane r).cells.Nodup ∧ (convSetup lane r).cells.Nodup ∧
      (frfuncSetup lane r).cells.Disjoint (convSetup lane r).cells := by
  have hcases : lane = 0 ∨ lane = 1 ∨ lane = 2 ∨ lane = 3 := by
    simp only [← BitVec.toNat_inj]
    simp
    omega
  rw [← List.nodup_append']
  simp only [frfuncSetup, convSetup, Setup.cells, List.map_cons, List.map_nil]
  rcases hcases with rfl | rfl | rfl | rfl <;> decide

/-! ### The sizes -/

variable {P}

/-- What `__fpga_get_parameter` gives, by the number of the name. -/
theorem getParameter_eq (jsonTxt name : CString) : fpgaGetParameter P jsonTxt name =
    match numberOf P jsonTxt name with
    | some x => castInt x
    | none => .ok paramFailed := by
  simp only [fpgaGetParameter, fpgaJsonCheckParam, fpgaJsonGetParamU32, jsonParseParamU32, numberOf]
  cases jsonParseString P jsonTxt with
  | none => rfl
  | some obj =>
    simp only [Option.bind_some]
    cases P.getValue obj name with
    | none => rfl
    | some v =>
      cases v with
      | other => rfl
      | number x => cases hx : castInt x <;> simp [bind, Except.bind, Except.map, hx, pure, Except.pure]

/-- A word of an `int` is all ones if the `int` is -1. -/
theorem ofInt_eq_neg_one {t : ℤ} (hlo : -2 ^ 31 ≤ t) (hhi : t < 2 ^ 31) :
    BitVec.ofInt 32 t = -1 ↔ t = -1 := by
  rw [← BitVec.toInt_inj, BitVec.toInt_ofInt_eq_self (by decide) (by simpa using hlo)
    (by simpa using hhi)]
  rfl

/-- A size that is a natural number. -/
theorem frameSize_natCast {jsonTxt name : CString} {n : ℕ} (hn : numberOf P jsonTxt name = some (n : ℚ))
    (hlt : n < 2 ^ 32 - 1) : frameSize P jsonTxt name = some (.ofInt 32 n) := by
  have hcond : (n : ℚ).den = 1 ∧ 0 ≤ (n : ℚ).num ∧ (n : ℚ).num < 2 ^ 32 - 1 := by
    refine ⟨by simp, by simp, ?_⟩
    rw [Rat.num_natCast]
    omega
  rw [frameSize, hn, Option.bind_some, if_pos hcond, Rat.num_natCast]

/-- A size is a natural number. -/
theorem natCast_of_frameSize {jsonTxt name : CString} {w : BitVec 32}
    (h : frameSize P jsonTxt name = some w) :
    ∃ n : ℕ, numberOf P jsonTxt name = some (n : ℚ) := by
  obtain ⟨x, hx, h⟩ := Option.bind_eq_some_iff.1 h
  split_ifs at h with hcond
  obtain ⟨hden, hnonneg, -⟩ := hcond
  refine ⟨x.num.toNat, ?_⟩
  have hcast : x = (x.num.toNat : ℚ) := by
    apply Rat.ext
    · rw [Rat.num_natCast, Int.toNat_of_nonneg hnonneg]
    · rw [hden, Rat.den_natCast]
  rw [hx, ← hcast]

/-- A parameter whose number can be converted. -/
theorem getParameter_castable {jsonTxt name : CString}
    (hrange : ∀ x ∈ numberOf P jsonTxt name, Castable x) :
    ∃ w, fpgaGetParameter P jsonTxt name = .ok w ∧
      (w = -1 ↔ ∀ x ∈ numberOf P jsonTxt name, x.num.tdiv x.den = -1) ∧
      ∀ n : ℕ, numberOf P jsonTxt name = some (n : ℚ) → frameSize P jsonTxt name = some w := by
  rw [getParameter_eq]
  cases hx : numberOf P jsonTxt name with
  | none => exact ⟨_, rfl, by simp [paramFailed], by simp⟩
  | some x =>
    obtain ⟨hlo, hhi⟩ := hrange x (by simp [hx])
    refine ⟨.ofInt 32 (x.num.tdiv x.den), by simp only [castInt, if_pos (And.intro hlo hhi)], ?_, ?_⟩
    · rw [ofInt_eq_neg_one hlo hhi]
      simp
    · intro n hn
      obtain rfl := Option.some.inj hn
      simp only [Rat.num_natCast, Rat.den_natCast, Nat.cast_one, Int.tdiv_one] at hhi ⊢
      exact frameSize_natCast hx (by omega)

/-- A parameter whose number cannot. -/
theorem getParameter_fault {jsonTxt name : CString} {x : ℚ} (hx : numberOf P jsonTxt name = some x)
    (hrange : ¬Castable x) : fpgaGetParameter P jsonTxt name = .error .overflow := by
  rw [getParameter_eq, hx]
  exact if_neg hrange

/-! ### Both modules -/

/-- What a call does whose arguments are not refused; `conv` says whether the lane has a conversion
module. -/
def setupBoth (ok : ℕ → Bool) (lane : BitVec 32) (r : ResizeRequest) (conv : Bool) (s : RegFile) :
    RegResult :=
  let first := pwriteAll ok (frfuncSetup lane r).writes s
  if conv then
    let second := pwriteAll ok (convSetup lane r).writes first.2
    (bothResults first.1 second.1, second.2)
  else (bothResults first.1 (.error .invalidArgument), first.2)

/-- Both modules are as they were, stopped, or set up. -/
theorem setupBoth_right (hlane : lane.toNat < 4) (r : ResizeRequest) (regs : BitVec 32 → BitVec 32) :
    ResizeRight lane (.ok (setupBoth ok lane r true ⟨regs, [], 0⟩)) regs (some r) := by
  obtain ⟨hfr, hcv, hapart⟩ := cells_apart hlane r
  obtain ⟨⟨hsoundFr, hsoundCv⟩, hcompleteFr, hcompleteCv, hdoneFr, hdoneCv⟩ :=
    Setup.both hfr hcv hapart ok regs rfl rfl
  have hret : (setupBoth ok lane r true ⟨regs, [], 0⟩).1 = .ok () ↔
      (writeAll ok (frfuncSetup lane r).writes ⟨regs, [], 0⟩).1 = true ∧
        (writeAll ok (convSetup lane r).writes
          (writeAll ok (frfuncSetup lane r).writes ⟨regs, [], 0⟩).2).1 = true := by
    simp only [setupBoth, if_true, pwriteAll]
    split_ifs <;> simp_all [bothResults]
  refine ⟨(setupBoth ok lane r true ⟨regs, [], 0⟩).1, _, rfl, hsoundFr, hsoundCv, ?_, ?_⟩
  · exact hret.trans (and_congr hcompleteFr hcompleteCv).symm
  · intro h
    exact ⟨hdoneFr (hret.1 h).1, hdoneCv (hret.1 h).2⟩

/-- Something is written if nothing fails. -/
theorem setupBoth_log (lane : BitVec 32) (r : ResizeRequest) (conv : Bool)
    (regs : BitVec 32 → BitVec 32) :
    (setupBoth (fun _ => true) lane r conv ⟨regs, [], 0⟩).2.log ≠ [] := by
  obtain ⟨-, hfr⟩ := writeAll_ok (frfuncSetup lane r).writes ⟨regs, [], 0⟩
  obtain ⟨-, hcv⟩ := writeAll_ok (convSetup lane r).writes
    (writeAll (fun _ => true) (frfuncSetup lane r).writes ⟨regs, [], 0⟩).2
  have hne : (frfuncSetup lane r).writes ≠ [] := List.cons_ne_nil _ _
  cases conv
  · simpa [setupBoth, pwriteAll, hfr] using hne
  · simp [setupBoth, pwriteAll, hcv, hfr, hne]

/-- The call that finishes. -/
theorem finish_eq {d : FunctionDevice} (hlane : lane.toNat < d.funcNum) (s : RegFile) :
    fpgaFilterResizeFinish ok (some d) lane s =
      setupBoth ok lane ⟨0, 0, 0, 0, 0, 0⟩ (lane.toNat < d.convNum) s := by
  have hne : (0 : BitVec 32) ≠ -1 := by decide
  have hfr : fpgaFilterResizeSetRegs ok lane 0 0 0 0 0 =
      pwriteAll ok (frfuncSetup lane ⟨0, 0, 0, 0, 0, 0⟩).writes :=
    setRegs_eq (r := ⟨0, 0, 0, 0, 0, 0⟩) hne hne hne hne
  have hcv : fpgaConvSetRegs ok lane 0 0 0 0 0 =
      pwriteAll ok (convSetup lane ⟨0, 0, 0, 0, 0, 0⟩).writes :=
    convSetRegs_eq (r := ⟨0, 0, 0, 0, 0, 0⟩) hne hne hne hne
  simp only [fpgaFilterResizeFinish, if_neg (Nat.not_le.2 hlane), hfr, fpgaConvFinish, hcv, setupBoth]
  by_cases hconv : lane.toNat < d.convNum
  · simp only [hconv, Nat.not_le.2 hconv, decide_true, if_true, if_false]
    rfl
  · simp only [hconv, Nat.le_of_not_lt hconv, decide_false, if_true]
    rfl

/-- The call that sets, with sizes that are not refused. -/
theorem set_eq (ok : ℕ → Bool) {d : FunctionDevice} (hlane : lane.toNat < d.funcNum)
    {txt : CString} {r : ResizeRequest} (hl : r.frameBufferL = ddrFrameBufferL)
    (hh : r.frameBufferH = ddrFrameBufferH lane)
    (hiWidth : fpgaGetParameter P txt "i_width".toList = .ok r.iWidth)
    (hiHeight : fpgaGetParameter P txt "i_height".toList = .ok r.iHeight)
    (hoWidth : fpgaGetParameter P txt "o_width".toList = .ok r.oWidth)
    (hoHeight : fpgaGetParameter P txt "o_height".toList = .ok r.oHeight)
    (hne : r.iWidth ≠ -1 ∧ r.iHeight ≠ -1 ∧ r.oWidth ≠ -1 ∧ r.oHeight ≠ -1) (s : RegFile) :
    fpgaFilterResizeSet P ok (some d) lane (some txt) s =
      .ok (setupBoth ok lane r (lane.toNat < d.convNum) s) := by
  obtain ⟨hne₁, hne₂, hne₃, hne₄⟩ := hne
  have hfr := @setRegs_eq ok lane r hne₁ hne₂ hne₃ hne₄
  have hcv := @convSetRegs_eq ok lane r hne₁ hne₂ (by rw [hl]; decide)
    (by rw [hh]; exact ddrFrameBufferH_ne lane)
  rw [hl, hh] at hcv
  simp only [fpgaFilterResizeSet, if_neg (Nat.not_le.2 hlane), hiWidth, hiHeight, hoWidth, hoHeight,
    ok_bind, hne₁, hne₂, hne₃, hne₄, or_self, if_false, hfr, fpgaConvSet, hcv, setupBoth]
  by_cases hconv : lane.toNat < d.convNum
  · simp only [hconv, Nat.not_le.2 hconv, decide_true, if_true, if_false]
    rfl
  · simp only [hconv, Nat.le_of_not_lt hconv, decide_false, if_true]
    rfl

/-! ### The calls that are right -/

/-- A call that sets asks for what the text gives. -/
theorem request_set {d : FunctionDevice} {txt : CString} {r : ResizeRequest}
    (h : (ResizeCall.set (some txt)).request P (some d) lane = some r) :
    lane.toNat < d.convNum ∧ ∀ name ∈ sizeNames, ∃ w, frameSize P txt name = some w := by
  simp only [ResizeCall.request] at h
  split_ifs at h with hlane
  obtain ⟨iWidth, hiWidth, h⟩ := Option.bind_eq_some_iff.1 h
  obtain ⟨iHeight, hiHeight, h⟩ := Option.bind_eq_some_iff.1 h
  obtain ⟨oWidth, hoWidth, h⟩ := Option.bind_eq_some_iff.1 h
  obtain ⟨oHeight, hoHeight, -⟩ := Option.bind_eq_some_iff.1 h
  refine ⟨hlane.2, ?_⟩
  simp only [sizeNames, List.mem_cons, List.not_mem_nil, or_false]
  rintro name (rfl | rfl | rfl | rfl)
  · exact ⟨_, hiWidth⟩
  · exact ⟨_, hiHeight⟩
  · exact ⟨_, hoWidth⟩
  · exact ⟨_, hoHeight⟩

/-- What is converted to -1 is no size. -/
theorem frameSize_refused {txt name : CString}
    (h : ∀ x ∈ numberOf P txt name, x.num.tdiv x.den = -1) (w : BitVec 32) :
    frameSize P txt name ≠ some w := by
  intro hw
  obtain ⟨n, hn⟩ := natCast_of_frameSize hw
  have hneg := h n hn
  simp only [Rat.num_natCast, Rat.den_natCast, Nat.cast_one, Int.tdiv_one] at hneg
  omega

/-- A number that cannot be converted, before anything is written. -/
theorem set_fault {d : FunctionDevice} (hlane : lane.toNat < d.funcNum) {txt : CString}
    (h : ¬∀ name ∈ sizeNames, ∀ x ∈ numberOf P txt name, Castable x) (s : RegFile) :
    fpgaFilterResizeSet P ok (some d) lane (some txt) s = .error .overflow := by
  have hget : ∀ name, (∃ w, fpgaGetParameter P txt name = .ok w ∧
      ∀ x ∈ numberOf P txt name, Castable x) ∨ fpgaGetParameter P txt name = .error .overflow := by
    intro name
    by_cases hrange : ∀ x ∈ numberOf P txt name, Castable x
    · obtain ⟨w, hw, -⟩ := getParameter_castable hrange
      exact .inl ⟨w, hw, hrange⟩
    · push Not at hrange
      obtain ⟨x, hx, hrange⟩ := hrange
      exact .inr (getParameter_fault hx hrange)
  simp only [fpgaFilterResizeSet, if_neg (Nat.not_le.2 hlane)]
  rcases hget "i_width".toList with ⟨w₁, h₁, hr₁⟩ | h₁
  · rcases hget "i_height".toList with ⟨w₂, h₂, hr₂⟩ | h₂
    · rcases hget "o_width".toList with ⟨w₃, h₃, hr₃⟩ | h₃
      · rcases hget "o_height".toList with ⟨w₄, h₄, hr₄⟩ | h₄
        · refine absurd ?_ h
          simp only [sizeNames, List.mem_cons, List.not_mem_nil, or_false]
          rintro name (rfl | rfl | rfl | rfl)
          · exact hr₁
          · exact hr₂
          · exact hr₃
          · exact hr₄
        · rw [h₁, h₂, h₃, h₄]
          rfl
      · rw [h₁, h₂, h₃]
        rfl
    · rw [h₁, h₂]
      rfl
  · rw [h₁]
    rfl

/-- A refused size asks for nothing. -/
theorem request_set_refused {d : FunctionDevice} {txt name : CString} (hname : name ∈ sizeNames)
    (hx : ∀ x ∈ numberOf P txt name, x.num.tdiv x.den = -1) :
    (ResizeCall.set (some txt)).request P (some d) lane = none := by
  rw [Option.eq_none_iff_forall_ne_some]
  intro r hr
  obtain ⟨w, hw⟩ := (request_set hr).2 name hname
  exact frameSize_refused hx w hw

/-- Sizes that are not natural numbers, or a lane without the other module, ask for nothing. -/
theorem request_set_none {d : FunctionDevice} {txt : CString}
    (h : ¬ ((∀ name ∈ sizeNames, ∃ n : ℕ, numberOf P txt name = some (n : ℚ)) ∧
      lane.toNat < d.convNum)) : (ResizeCall.set (some txt)).request P (some d) lane = none := by
  rw [Option.eq_none_iff_forall_ne_some]
  intro r hr
  obtain ⟨hconv, hsizes⟩ := request_set hr
  refine h ⟨fun name hname => ?_, hconv⟩
  obtain ⟨w, hw⟩ := hsizes name hname
  exact natCast_of_frameSize hw

/-- Where the conversion is not defined, no call is right. -/
theorem not_right_of_fault {d : FunctionDevice} (hlane : lane.toNat < d.funcNum) {txt : CString}
    (h : ¬∀ name ∈ sizeNames, ∀ x ∈ numberOf P txt name, Castable x) :
    ¬ ∀ ok regs, ResizeRight lane (fpgaFilterResizeSet P ok (some d) lane (some txt) ⟨regs, [], 0⟩)
      regs ((ResizeCall.set (some txt)).request P (some d) lane) := by
  intro hall
  have hright := hall (fun _ => true) 0
  rw [set_fault hlane h] at hright
  cases hreq : (ResizeCall.set (some txt)).request P (some d) lane with
  | none =>
    rw [hreq] at hright
    obtain ⟨err, s, h, -⟩ := hright
    cases h
  | some r =>
    rw [hreq] at hright
    obtain ⟨ret, s, h, -⟩ := hright
    cases h

/-- The call that sets, with arguments that are not refused at once. -/
theorem set_right_iff {d : FunctionDevice} (hlane : lane.toNat < d.funcNum) (txt : CString) :
    (∀ ok regs, ResizeRight lane (fpgaFilterResizeSet P ok (some d) lane (some txt) ⟨regs, [], 0⟩)
        regs ((ResizeCall.set (some txt)).request P (some d) lane)) ↔
      SizesTaken P (some d) lane txt := by
  by_cases hrange : ∀ name ∈ sizeNames, ∀ x ∈ numberOf P txt name, Castable x
  swap
  · -- the conversion is not defined
    exact iff_of_false (not_right_of_fault hlane hrange) fun htaken => hrange htaken.range
  obtain ⟨w₁, h₁, hneg₁, hnat₁⟩ := getParameter_castable (hrange "i_width".toList (by simp [sizeNames]))
  obtain ⟨w₂, h₂, hneg₂, hnat₂⟩ := getParameter_castable (hrange "i_height".toList (by simp [sizeNames]))
  obtain ⟨w₃, h₃, hneg₃, hnat₃⟩ := getParameter_castable (hrange "o_width".toList (by simp [sizeNames]))
  obtain ⟨w₄, h₄, hneg₄, hnat₄⟩ := getParameter_castable (hrange "o_height".toList (by simp [sizeNames]))
  have hrefused : (w₁ = -1 ∨ w₂ = -1 ∨ w₃ = -1 ∨ w₄ = -1) ↔
      ∃ name ∈ sizeNames, ∀ x ∈ numberOf P txt name, x.num.tdiv x.den = -1 := by
    simp only [sizeNames, List.mem_cons, List.not_mem_nil, or_false, exists_eq_or_imp,
      exists_eq_left, hneg₁, hneg₂, hneg₃, hneg₄]
  by_cases hne : w₁ = -1 ∨ w₂ = -1 ∨ w₃ = -1 ∨ w₄ = -1
  · -- the call is refused
    obtain ⟨name, hname, hx⟩ := hrefused.1 hne
    refine iff_of_true (fun ok regs => ?_) ⟨hrange, .inl ⟨name, hname, hx⟩⟩
    rw [request_set_refused hname hx]
    refine ⟨.invalidArgument, ⟨regs, [], 0⟩, ?_, rfl, rfl⟩
    simp only [fpgaFilterResizeSet, if_neg (Nat.not_le.2 hlane), h₁, h₂, h₃, h₄, ok_bind, if_pos hne]
    rfl
  · -- it is carried out
    have hset := fun ok => set_eq ok (r := ⟨w₁, w₂, w₃, w₄, ddrFrameBufferL,
      ddrFrameBufferH lane⟩) hlane rfl rfl h₁ h₂ h₃ h₄ (by simpa only [not_or] using hne)
    by_cases hall : (∀ name ∈ sizeNames, ∃ n : ℕ, numberOf P txt name = some (n : ℚ)) ∧
        lane.toNat < d.convNum
    · obtain ⟨hnat, hconv⟩ := hall
      have hreq : (ResizeCall.set (some txt)).request P (some d) lane =
          some ⟨w₁, w₂, w₃, w₄, ddrFrameBufferL, ddrFrameBufferH lane⟩ := by
        obtain ⟨n₁, hn₁⟩ := hnat "i_width".toList (by simp [sizeNames])
        obtain ⟨n₂, hn₂⟩ := hnat "i_height".toList (by simp [sizeNames])
        obtain ⟨n₃, hn₃⟩ := hnat "o_width".toList (by simp [sizeNames])
        obtain ⟨n₄, hn₄⟩ := hnat "o_height".toList (by simp [sizeNames])
        rw [ResizeCall.request, if_pos ⟨hlane, hconv⟩, textRequest, hnat₁ n₁ hn₁, hnat₂ n₂ hn₂,
          hnat₃ n₃ hn₃, hnat₄ n₄ hn₄]
        rfl
      refine iff_of_true (fun ok regs => ?_) ⟨hrange, .inr ⟨hnat, by simpa using hconv⟩⟩
      rw [hreq, hset ok, decide_eq_true hconv]
      exact setupBoth_right (by have := d.func_le; omega) _ regs
    · refine iff_of_false (fun hright => ?_) fun htaken => ?_
      · -- nothing fails, and something is written
        obtain ⟨err, s, heq, -, hlog⟩ := request_set_none hall ▸ hright (fun _ => true) 0
        rw [hset] at heq
        refine setupBoth_log lane ⟨w₁, w₂, w₃, w₄, ddrFrameBufferL, ddrFrameBufferH lane⟩
          (lane.toNat < d.convNum) 0 ?_
        rw [Except.ok.inj heq]
        exact hlog
      · rcases htaken.taken with hx | ⟨hnat, hconv⟩
        · exact hne (hrefused.2 hx)
        · exact hall ⟨hnat, hconv d rfl⟩

/-- The call that finishes. -/
theorem finish_right_iff {d : FunctionDevice} (hlane : lane.toNat < d.funcNum) :
    (∀ ok regs, ResizeRight lane (.ok (fpgaFilterResizeFinish ok (some d) lane ⟨regs, [], 0⟩)) regs
        (ResizeCall.finish.request P (some d) lane)) ↔ lane.toNat < d.convNum := by
  by_cases hconv : lane.toNat < d.convNum
  · refine iff_of_true (fun ok regs => ?_) hconv
    rw [ResizeCall.request, if_pos ⟨hlane, hconv⟩, finish_eq hlane, decide_eq_true hconv]
    exact setupBoth_right (by have := d.func_le; omega) _ regs
  · refine iff_of_false (fun hright => ?_) hconv
    rw [ResizeCall.request, if_neg (by omega)] at hright
    obtain ⟨err, s, heq, -, hlog⟩ := hright (fun _ => true) 0
    rw [finish_eq hlane] at heq
    refine setupBoth_log lane ⟨0, 0, 0, 0, 0, 0⟩ (lane.toNat < d.convNum) 0 ?_
    rw [Except.ok.inj heq]
    exact hlog

/-- A call that is refused at once. -/
theorem refused_right {result : Except JsonFault RegResult} {regs : BitVec 32 → BitVec 32}
    (h : result = .ok (.error .invalidArgument, ⟨regs, [], 0⟩)) :
    ResizeRight lane result regs none :=
  ⟨.invalidArgument, ⟨regs, [], 0⟩, h, rfl, rfl⟩

/-- **The calls after which neither module runs without what was asked for.** -/
theorem resizeRight_iff (P : Parson) (dev : Option FunctionDevice) (lane : BitVec 32)
    (call : ResizeCall) :
    (∀ ok regs, ResizeRight lane (call.exec P ok dev lane ⟨regs, [], 0⟩) regs
        (call.request P dev lane)) ↔ call.Taken P dev lane := by
  cases dev with
  | none =>
    cases call <;> refine iff_of_true (fun ok regs => refused_right rfl) ?_ <;>
      simp [ResizeCall.Taken]
  | some d =>
    by_cases hlane : lane.toNat < d.funcNum
    · cases call with
      | set jsonTxt =>
        cases jsonTxt with
        | none =>
          refine iff_of_true (fun ok regs => refused_right rfl) ?_
          simp [ResizeCall.Taken]
        | some txt =>
          refine (set_right_iff hlane txt).trans ?_
          simp [ResizeCall.Taken, hlane]
      | finish =>
        refine (finish_right_iff hlane).trans ?_
        simp [ResizeCall.Taken, hlane]
    · have hle := Nat.le_of_not_lt hlane
      cases call with
      | set jsonTxt =>
        cases jsonTxt with
        | none =>
          refine iff_of_true (fun ok regs => refused_right rfl) ?_
          simp [ResizeCall.Taken]
        | some txt =>
          refine iff_of_true (fun ok regs => ?_) (by simp [ResizeCall.Taken, hlane])
          rw [ResizeCall.request, if_neg (by simp [hlane])]
          exact refused_right (by simp only [ResizeCall.exec, fpgaFilterResizeSet, if_pos hle]; rfl)
      | finish =>
        refine iff_of_true (fun ok regs => ?_) (by simp [ResizeCall.Taken, hlane])
        rw [ResizeCall.request, if_neg (by simp [hlane])]
        exact refused_right (by simp only [ResizeCall.exec, fpgaFilterResizeFinish, if_pos hle])

/-- A text with the sizes -640, 480, 640 and 480. -/
def negativeText : CString :=
  "\x7b\"i_width\":-640,\"i_height\":480,\"o_width\":640,\"o_height\":480\x7d".toList

/-- `parson` for this text. -/
def negativeParson : Parson where
  Value := Unit
  Obj := Unit
  initObject := ()
  setNumber _ _ _ := none
  serialize _ := none
  parse text := if text = negativeText then some () else none
  getObject := some
  getValue _ name :=
    if name = "i_width".toList then some (.number (-640))
    else if name = "i_height".toList then some (.number 480)
    else if name = "o_width".toList then some (.number 640)
    else if name = "o_height".toList then some (.number 480)
    else none

/-- The width is taken for 0xFFFFFD80, and the module is started with it. -/
theorem not_resizeRight : ¬∀ (P : Parson) (dev : Option FunctionDevice) (lane : BitVec 32)
    (call : ResizeCall) (ok : ℕ → Bool) (regs : BitVec 32 → BitVec 32),
    ResizeRight lane (call.exec P ok dev lane ⟨regs, [], 0⟩) regs (call.request P dev lane) := by
  intro hall
  have htaken : SizesTaken negativeParson (some ⟨1, 1, by decide⟩) 0 negativeText :=
    (set_right_iff (by decide) negativeText).1
      (hall negativeParson (some ⟨1, 1, by decide⟩) 0 (.set (some negativeText)))
  have hiWidth : numberOf negativeParson negativeText "i_width".toList = some (-640) := by
    simp [numberOf, jsonParseString, negativeParson]
  have hiHeight : numberOf negativeParson negativeText "i_height".toList = some 480 := by
    simp [numberOf, jsonParseString, negativeParson]
  have hoWidth : numberOf negativeParson negativeText "o_width".toList = some 640 := by
    simp [numberOf, jsonParseString, negativeParson]
  have hoHeight : numberOf negativeParson negativeText "o_height".toList = some 480 := by
    simp [numberOf, jsonParseString, negativeParson]
  rcases htaken.taken with ⟨name, hname, hx⟩ | ⟨hnat, -⟩
  · simp only [sizeNames, List.mem_cons, List.not_mem_nil, or_false] at hname
    rcases hname with rfl | rfl | rfl | rfl
    · exact absurd (hx _ hiWidth) (by decide)
    · exact absurd (hx _ hiHeight) (by decide)
    · exact absurd (hx _ hoWidth) (by decide)
    · exact absurd (hx _ hoHeight) (by decide)
  · obtain ⟨n, hn⟩ := hnat "i_width".toList (by simp [sizeNames])
    have heq : (-640 : ℚ) = n := Option.some.inj (hiWidth.symm.trans hn)
    have hnum := congrArg Rat.num heq
    rw [Rat.num_natCast] at hnum
    have hneg : (-640 : ℚ).num = -640 := rfl
    omega

end HardwareDrivers.Libfpga
