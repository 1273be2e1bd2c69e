import HardwareDrivers.Driver.CdevAccess
import HardwareDrivers.Driver.ErrRegisters
import HardwareDrivers.Libfpga.FilterResize
import HardwareDrivers.Libfpga.ShmemMmap

/-!
# The faults of a function and of its adapter

`libfunction_conv_err.c` and `libfunction_filter_resize_err.c` read and write the fault registers of
a lane through the device file: the fault itself, which the hardware sets, and what masks, forces
and inserts it. A structure of the user has a byte for each bit of a register.

Calls of several programs come in any order; the driver refuses those of a file whose accesses are
not available, and in between the hardware and other calls change other registers.

## What is proved

* `FuncReg.index_inj` — no two registers of the lanes are the same word.
* `faultStep_settings` — a step sets the one register it is about, or none.
* `faults_last_set` — what is got is what was last set, after any run.
-/

namespace HardwareDrivers.Libfpga

open Theory Driver

/-! ### The structures -/

/-- `fpga_func_err_prot_t`. -/
structure FpgaFuncErrProt where
  /-- What is wrong with a frame. -/
  (protCh protLen protSof protEof protReqresp protDatanum : BitVec 8)
  /-- What is wrong with the requests and responses. -/
  (protReqOutstanding protRespOutstanding protMaxDatanum protReqlen protReqresplen : BitVec 8)
  deriving DecidableEq

/-- `fpga_conv_err_stif_t`. -/
structure FpgaConvErrStif where
  /-- Ingress, to the adapter. -/
  (ingressRcvReq ingressRcvResp ingressRcvData : BitVec 8)
  /-- Ingress, to function 0. -/
  (ingress0SndReq ingress0SndResp ingress0SndData : BitVec 8)
  /-- Ingress, to function 1. -/
  (ingress1SndReq ingress1SndResp ingress1SndData : BitVec 8)
  /-- Egress, from function 0. -/
  (egress0RcvReq egress0RcvResp egress0RcvData : BitVec 8)
  /-- Egress, from function 1. -/
  (egress1RcvReq egress1RcvResp egress1RcvData : BitVec 8)
  /-- Egress, from the adapter. -/
  (egressSndReq egressSndResp egressSndData : BitVec 8)
  deriving DecidableEq

/-- `fpga_fr_err_stif_t`. -/
structure FpgaFrErrStif where
  /-- Ingress, function 0. -/
  (ingress0RcvReq ingress0RcvResp ingress0RcvData : BitVec 8)
  /-- Ingress, function 1. -/
  (ingress1RcvReq ingress1RcvResp ingress1RcvData : BitVec 8)
  /-- Egress, function 0. -/
  (egress0SndReq egress0SndResp egress0SndData : BitVec 8)
  /-- Egress, function 1. -/
  (egress1SndReq egress1SndResp egress1SndData : BitVec 8)
  deriving DecidableEq

/-- `((uint32_t)field & 0x01) << place` for all places up to `n`. -/
def stifLayout (n : ℕ) : List (BitField 32) := (List.range n).map fun place => ⟨0x01, place⟩

/-- The fields of `fpga_func_err_prot_t`, as they are put into a register. -/
def FpgaFuncErrProt.values (e : FpgaFuncErrProt) : List (BitVec 32) :=
  [e.protCh, e.protLen, e.protSof, e.protEof, e.protReqresp, e.protDatanum, e.protReqOutstanding,
    e.protRespOutstanding, e.protMaxDatanum, e.protReqlen, e.protReqresplen].map (BitVec.setWidth 32)

/-- The fields of `fpga_conv_err_stif_t`. -/
def FpgaConvErrStif.values (e : FpgaConvErrStif) : List (BitVec 32) :=
  [e.ingressRcvReq, e.ingressRcvResp, e.ingressRcvData, e.ingress0SndReq, e.ingress0SndResp,
    e.ingress0SndData, e.ingress1SndReq, e.ingress1SndResp, e.ingress1SndData, e.egress0RcvReq,
    e.egress0RcvResp, e.egress0RcvData, e.egress1RcvReq, e.egress1RcvResp, e.egress1RcvData,
    e.egressSndReq, e.egressSndResp, e.egressSndData].map (BitVec.setWidth 32)

/-- The fields of `fpga_fr_err_stif_t`. -/
def FpgaFrErrStif.values (e : FpgaFrErrStif) : List (BitVec 32) :=
  [e.ingress0RcvReq, e.ingress0RcvResp, e.ingress0RcvData, e.ingress1RcvReq, e.ingress1RcvResp,
    e.ingress1RcvData, e.egress0SndReq, e.egress0SndResp, e.egress0SndData, e.egress1SndReq,
    e.egress1SndResp, e.egress1SndData].map (BitVec.setWidth 32)

/-- `(uint8_t)((value & mask) >> place)`. -/
def bitAt (value : BitVec 32) (place : ℕ) : BitVec 8 :=
  ((⟨0x01, place⟩ : BitField 32).read value).setWidth 8

/-- `fpga_func_err_prot_t` out of a register. -/
def FpgaFuncErrProt.ofWord (value : BitVec 32) : FpgaFuncErrProt where
  protCh := bitAt value 0
  protLen := bitAt value 1
  protSof := bitAt value 2
  protEof := bitAt value 3
  protReqresp := bitAt value 4
  protDatanum := bitAt value 5
  protReqOutstanding := bitAt value 6
  protRespOutstanding := bitAt value 7
  protMaxDatanum := bitAt value 8
  protReqlen := bitAt value 12
  protReqresplen := bitAt value 13

/-- `fpga_conv_err_stif_t` out of a register. -/
def FpgaConvErrStif.ofWord (value : BitVec 32) : FpgaConvErrStif where
  ingressRcvReq := bitAt value 0
  ingressRcvResp := bitAt value 1
  ingressRcvData := bitAt value 2
  ingress0SndReq := bitAt value 3
  ingress0SndResp := bitAt value 4
  ingress0SndData := bitAt value 5
  ingress1SndReq := bitAt value 6
  ingress1SndResp := bitAt value 7
  ingress1SndData := bitAt value 8
  egress0RcvReq := bitAt value 9
  egress0RcvResp := bitAt value 10
  egress0RcvData := bitAt value 11
  egress1RcvReq := bitAt value 12
  egress1RcvResp := bitAt value 13
  egress1RcvData := bitAt value 14
  egressSndReq := bitAt value 15
  egressSndResp := bitAt value 16
  egressSndData := bitAt value 17

/-- `fpga_fr_err_stif_t` out of a register. -/
def FpgaFrErrStif.ofWord (value : BitVec 32) : FpgaFrErrStif where
  ingress0RcvReq := bitAt value 0
  ingress0RcvResp := bitAt value 1
  ingress0RcvData := bitAt value 2
  ingress1RcvReq := bitAt value 3
  ingress1RcvResp := bitAt value 4
  ingress1RcvData := bitAt value 5
  egress0SndReq := bitAt value 6
  egress0SndResp := bitAt value 7
  egress0SndData := bitAt value 8
  egress1SndReq := bitAt value 9
  egress1SndResp := bitAt value 10
  egress1SndData := bitAt value 11

/-! ### The registers -/

/-- `CONV_FUNC_NUMBER_*` and `FRFUNC_FUNC_NUMBER_*`. -/
inductive FuncNumber where
  /-- `*_FUNC_NUMBER_0`. -/
  | zero
  /-- `*_FUNC_NUMBER_1`. -/
  | one
  deriving DecidableEq

/-- The registers of a fault that cannot be inserted. -/
inductive StallView where
  /-- The fault. -/
  | value
  /-- `*_MASK`. -/
  | mask
  /-- `*_FORCE`. -/
  | force
  deriving DecidableEq

/-- A register of a lane. -/
inductive FuncReg where
  /-- `XPCIE_FPGA_CONV_{INGR_RCV,EGR_SND}_*PROTOCOL_FAULT*`. -/
  | convProt (view : FaultView) (kind : CidKind)
  /-- `XPCIE_FPGA_CONV_{INGR_SND,EGR_RCV}_*PROTOCOL_FAULT_*`. -/
  | convProtFunc (view : FaultView) (kind : CidKind) (func : FuncNumber)
  /-- `XPCIE_FPGA_CONV_STREAMIF_STALL*`. -/
  | convStif (view : StallView)
  /-- `XPCIE_FPGA_CONV_*MEM_PARITY_FAULT*`. -/
  | convMemParity (view : FaultView)
  /-- `XPCIE_FPGA_CONV_INGR_RCV_LENGTH_FAULT*`. -/
  | convLengthFault (view : StallView)
  /-- `XPCIE_FPGA_FRFUNC_{INGR_RCV,EGR_SND}_*PROTOCOL_FAULT_*`. -/
  | frProt (view : FaultView) (kind : CidKind) (func : FuncNumber)
  /-- `XPCIE_FPGA_FRFUNC_STREAMIF_STALL*`. -/
  | frStif (view : StallView)
  /-- `XPCIE_FPGA_CONV_DETECT_FAULT`. -/
  | convDetect
  /-- `XPCIE_FPGA_FRFUNC_DETECT_FAULT`. -/
  | frDetect
  deriving DecidableEq

namespace FuncReg

/-- Its place in the lane, as `libfunction_regmap.h` has it. -/
def offset : FuncReg → BitVec 32
  | convProt .value .ingress => 0x0110
  | convProt .mask .ingress => 0x0118
  | convProt .force .ingress => 0x011C
  | convProt .ins .ingress => 0x01C0
  | convProt .value .egress => 0x0160
  | convProt .mask .egress => 0x0168
  | convProt .force .egress => 0x016C
  | convProt .ins .egress => 0x01D4
  | convProtFunc .value .ingress .zero => 0x0120
  | convProtFunc .mask .ingress .zero => 0x0128
  | convProtFunc .force .ingress .zero => 0x012C
  | convProtFunc .ins .ingress .zero => 0x01C4
  | convProtFunc .value .ingress .one => 0x0130
  | convProtFunc .mask .ingress .one => 0x0138
  | convProtFunc .force .ingress .one => 0x013C
  | convProtFunc .ins .ingress .one => 0x01C8
  | convProtFunc .value .egress .zero => 0x0140
  | convProtFunc .mask .egress .zero => 0x0148
  | convProtFunc .force .egress .zero => 0x014C
  | convProtFunc .ins .egress .zero => 0x01CC
  | convProtFunc .value .egress .one => 0x0150
  | convProtFunc .mask .egress .one => 0x0158
  | convProtFunc .force .egress .one => 0x015C
  | convProtFunc .ins .egress .one => 0x01D0
  | convStif .value => 0x0190
  | convStif .mask => 0x0198
  | convStif .force => 0x019C
  | convMemParity .value => 0x0170
  | convMemParity .mask => 0x0178
  | convMemParity .force => 0x017C
  | convMemParity .ins => 0x01D8
  | convLengthFault .value => 0x0180
  | convLengthFault .mask => 0x0188
  | convLengthFault .force => 0x018C
  | frProt .value .ingress .zero => 0x0110
  | frProt .mask .ingress .zero => 0x0118
  | frProt .force .ingress .zero => 0x011C
  | frProt .ins .ingress .zero => 0x0180
  | frProt .value .ingress .one => 0x0120
  | frProt .mask .ingress .one => 0x0128
  | frProt .force .ingress .one => 0x012C
  | frProt .ins .ingress .one => 0x0184
  | frProt .value .egress .zero => 0x0130
  | frProt .mask .egress .zero => 0x0138
  | frProt .force .egress .zero => 0x013C
  | frProt .ins .egress .zero => 0x0188
  | frProt .value .egress .one => 0x0140
  | frProt .mask .egress .one => 0x0148
  | frProt .force .egress .one => 0x014C
  | frProt .ins .egress .one => 0x018C
  | frStif .value => 0x0150
  | frStif .mask => 0x0158
  | frStif .force => 0x015C
  | convDetect | frDetect => 0x0100

/-- It is in the filter resize function, and not in the conversion adapter. -/
def isFr : FuncReg → Bool
  | frProt .. | frStif _ | frDetect => true
  | _ => false

/-- Its position in the device file. -/
def addr (reg : FuncReg) (lane : BitVec 32) : BitVec 32 :=
  reg.offset + if reg.isFr then frfuncKrnlOffset lane else convKrnlOffset lane

/-- It is no fault, which the hardware sets, but a setting. -/
def IsSetting : FuncReg → Prop
  | convProt view _ | convProtFunc view _ _ | convMemParity view | frProt view _ _ => view ≠ .value
  | convStif view | convLengthFault view | frStif view => view ≠ .value
  | convDetect | frDetect => False

instance (reg : FuncReg) : Decidable reg.IsSetting := by
  cases reg <;> first | exact inferInstanceAs (Decidable (_ ≠ _)) | exact inferInstanceAs (Decidable False)

/-- The fields that are read out of it. -/
def fields (reg : FuncReg) (value : BitVec 32) : List (BitVec 32) :=
  match reg with
  | convProt .. | convProtFunc .. | frProt .. => readFields 8 errProtLayout value
  | convStif _ => readFields 8 (stifLayout 18) value
  | frStif _ => readFields 8 (stifLayout 12) value
  | convMemParity _ | convLengthFault _ | convDetect | frDetect => [value]

/-- What is left of fields that are put into it: the lowest bit of each, or the word. -/
def kept (reg : FuncReg) (values : List (BitVec 32)) : List (BitVec 32) :=
  match reg with
  | convMemParity _ | convLengthFault _ | convDetect | frDetect => values
  | _ => values.map (· &&& 1)

end FuncReg

/-- `CONV_DIR_*` and `FRFUNC_DIR_*`. -/
def funcDir (dir : BitVec 32) : Option CidKind :=
  if dir = 0 then some .ingress else if dir = 1 then some .egress else none

/-- The tests on `fr_id`. -/
def funcNumber (frId : BitVec 32) : Option FuncNumber :=
  if frId = 0 then some .zero else if frId = 1 then some .one else none

/-! ### The calls -/

/-- `fpga_device_t`; the driver counts no more lanes than it has room for. -/
structure FaultDevice extends FunctionDevice where
  /-- `XPCIE_KERNEL_LANE_MAX`. -/
  conv_le : convNum ≤ 4

/-- What a call meets: the device that `fpga_get_device` finds, and whether its file may access
registers. -/
structure FaultEnv where
  /-- The device. -/
  dev : Option FaultDevice
  /-- `is_avail_rw`. -/
  isAvailRw : Bool

/-- What a getting gives. -/
inductive FaultAnswer where
  /-- `fpga_func_err_prot_t`. -/
  | prot (e : FpgaFuncErrProt)
  /-- `fpga_conv_err_stif_t`. -/
  | convStif (e : FpgaConvErrStif)
  /-- `fpga_fr_err_stif_t`. -/
  | frStif (e : FpgaFrErrStif)
  /-- `uint32_t`. -/
  | word (value : BitVec 32)
  deriving DecidableEq

/-- Its fields. -/
def FaultAnswer.values : FaultAnswer → List (BitVec 32)
  | prot e => e.values
  | convStif e => e.values
  | frStif e => e.values
  | word value => [value]

section Calls

variable {n : ℕ}

/-- What a call comes to. -/
abbrev FaultResult (n : ℕ) (α : Type) := Except BarFault (Except LibfpgaErr α × Bar n)

/-- The checks of the device, the lane and the selectors. -/
def faultLane (num : FaultDevice → ℕ) (env : FaultEnv) (lane : BitVec 32) (reg : Option FuncReg) :
    Option FuncReg :=
  env.dev.bind fun dev => if num dev ≤ lane.toNat then none else reg

/-- `pwrite` of a register, and `goto failed`. -/
def setFault (num : FaultDevice → ℕ) (env : FaultEnv) (lane : BitVec 32) (reg : Option FuncReg)
    (value : BitVec 32) (bar : Bar n) : FaultResult n Unit :=
  match faultLane num env lane reg with
  | none => .ok (.error .invalidArgument, bar)
  | some reg =>
    (cdevWrite env.isAvailRw (some (value.setWidth 64)) 4 (reg.addr lane).toNat bar).map
      fun (written, bar) => (written.mapError fun _ => .failureWrite, bar)

/-- `pread` of a register, and `goto failed`; `out` if the pointer is not `NULL`. -/
def getFault (num : FaultDevice → ℕ) (env : FaultEnv) (lane : BitVec 32) (out : Bool)
    (reg : Option FuncReg) (answer : BitVec 32 → FaultAnswer) (bar : Bar n) :
    FaultResult n FaultAnswer :=
  match if out then faultLane num env lane reg else none with
  | none => .ok (.error .invalidArgument, bar)
  | some reg =>
    (cdevRead env.isAvailRw true 4 (reg.addr lane).toNat bar).map fun (data, bar) =>
      ((data.mapError fun _ => .failureRead).map fun data => answer (data.setWidth 32), bar)

/-- The conversion adapter, one register for each direction. -/
def setConvErrProt (view : FaultView) (env : FaultEnv) (lane dir : BitVec 32) (e : FpgaFuncErrProt)
    (bar : Bar n) : FaultResult n Unit :=
  setFault (·.convNum) env lane ((funcDir dir).map (.convProt view)) (packed errProtLayout e.values) bar

/-- It is got. -/
def getConvErrProt (view : FaultView) (env : FaultEnv) (lane dir : BitVec 32) (out : Bool)
    (bar : Bar n) : FaultResult n FaultAnswer :=
  getFault (·.convNum) env lane out ((funcDir dir).map (.convProt view))
    (fun value => .prot (.ofWord value)) bar

/-- The conversion adapter, one register for each direction and function. -/
def setConvErrProtFunc (view : FaultView) (env : FaultEnv) (lane frId dir : BitVec 32)
    (e : FpgaFuncErrProt) (bar : Bar n) : FaultResult n Unit :=
  setFault (·.convNum) env lane
    ((funcDir dir).bind fun kind => (funcNumber frId).map (.convProtFunc view kind))
    (packed errProtLayout e.values) bar

/-- It is got. -/
def getConvErrProtFunc (view : FaultView) (env : FaultEnv) (lane frId dir : BitVec 32) (out : Bool)
    (bar : Bar n) : FaultResult n FaultAnswer :=
  getFault (·.convNum) env lane out
    ((funcDir dir).bind fun kind => (funcNumber frId).map (.convProtFunc view kind))
    (fun value => .prot (.ofWord value)) bar

/-- The stalls of the conversion adapter. -/
def setConvErrStif (view : StallView) (env : FaultEnv) (lane : BitVec 32) (e : FpgaConvErrStif)
    (bar : Bar n) : FaultResult n Unit :=
  setFault (·.convNum) env lane (some (.convStif view)) (packed (stifLayout 18) e.values) bar

/-- They are got. -/
def getConvErrStif (view : StallView) (env : FaultEnv) (lane : BitVec 32) (out : Bool) (bar : Bar n) :
    FaultResult n FaultAnswer :=
  getFault (·.convNum) env lane out (some (.convStif view)) (fun value => .convStif (.ofWord value)) bar

/-- The parity of the conversion adapter. -/
def setConvErrMemParity (view : FaultView) (env : FaultEnv) (lane errParity : BitVec 32) (bar : Bar n) :
    FaultResult n Unit :=
  setFault (·.convNum) env lane (some (.convMemParity view)) errParity bar

/-- It is got. -/
def getConvErrMemParity (view : FaultView) (env : FaultEnv) (lane : BitVec 32) (out : Bool)
    (bar : Bar n) : FaultResult n FaultAnswer :=
  getFault (·.convNum) env lane out (some (.convMemParity view)) .word bar

/-- The lengths at the conversion adapter. -/
def setConvErrLengthFault (view : StallView) (env : FaultEnv) (lane lengthFault : BitVec 32)
    (bar : Bar n) : FaultResult n Unit :=
  setFault (·.convNum) env lane (some (.convLengthFault view)) lengthFault bar

/-- They are got. -/
def getConvErrLengthFault (view : StallView) (env : FaultEnv) (lane : BitVec 32) (out : Bool)
    (bar : Bar n) : FaultResult n FaultAnswer :=
  getFault (·.convNum) env lane out (some (.convLengthFault view)) .word bar

/-- Filter resize, one register for each direction and function. -/
def setFilterResizeErrProt (view : FaultView) (env : FaultEnv) (lane frId dir : BitVec 32)
    (e : FpgaFuncErrProt) (bar : Bar n) : FaultResult n Unit :=
  setFault (·.funcNum) env lane
    ((funcDir dir).bind fun kind => (funcNumber frId).map (.frProt view kind))
    (packed errProtLayout e.values) bar

/-- It is got. -/
def getFilterResizeErrProt (view : FaultView) (env : FaultEnv) (lane frId dir : BitVec 32)
    (out : Bool) (bar : Bar n) : FaultResult n FaultAnswer :=
  getFault (·.funcNum) env lane out
    ((funcDir dir).bind fun kind => (funcNumber frId).map (.frProt view kind))
    (fun value => .prot (.ofWord value)) bar

/-- The stalls of filter resize. -/
def setFilterResizeErrStif (view : StallView) (env : FaultEnv) (lane : BitVec 32) (e : FpgaFrErrStif)
    (bar : Bar n) : FaultResult n Unit :=
  setFault (·.funcNum) env lane (some (.frStif view)) (packed (stifLayout 12) e.values) bar

/-- They are got. -/
def getFilterResizeErrStif (view : StallView) (env : FaultEnv) (lane : BitVec 32) (out : Bool)
    (bar : Bar n) : FaultResult n FaultAnswer :=
  getFault (·.funcNum) env lane out (some (.frStif view)) (fun value => .frStif (.ofWord value)) bar

/-- `fpga_conv_get_check_err`. -/
def fpgaConvGetCheckErr (env : FaultEnv) (lane : BitVec 32) (out : Bool) (bar : Bar n) :
    FaultResult n FaultAnswer :=
  getFault (·.convNum) env lane out (some .convDetect) .word bar

/-- `fpga_filter_resize_get_check_err`. -/
def fpgaFilterResizeGetCheckErr (env : FaultEnv) (lane : BitVec 32) (out : Bool) (bar : Bar n) :
    FaultResult n FaultAnswer :=
  getFault (·.funcNum) env lane out (some .frDetect) .word bar

/-- `fpga_conv_get_err_prot`. -/
def fpgaConvGetErrProt := @getConvErrProt n .value

/-- `fpga_conv_set_err_prot_clear`. -/
def fpgaConvSetErrProtClear := @setConvErrProt n .value

/-- `fpga_conv_set_err_prot_mask`. -/
def fpgaConvSetErrProtMask := @setConvErrProt n .mask

/-- `fpga_conv_get_err_prot_mask`. -/
def fpgaConvGetErrProtMask := @getConvErrProt n .mask

/-- `fpga_conv_set_err_prot_force`. -/
def fpgaConvSetErrProtForce := @setConvErrProt n .force

/-- `fpga_conv_get_err_prot_force`. -/
def fpgaConvGetErrProtForce := @getConvErrProt n .force

/-- `fpga_conv_err_prot_ins`. -/
def fpgaConvErrProtIns := @setConvErrProt n .ins

/-- `fpga_conv_err_prot_get_ins`. -/
def fpgaConvErrProtGetIns := @getConvErrProt n .ins

/-- `fpga_conv_get_err_prot_func`. -/
def fpgaConvGetErrProtFunc := @getConvErrProtFunc n .value

/-- `fpga_conv_set_err_prot_func_clear`. -/
def fpgaConvSetErrProtFuncClear := @setConvErrProtFunc n .value

/-- `fpga_conv_set_err_prot_func_mask`. -/
def fpgaConvSetErrProtFuncMask := @setConvErrProtFunc n .mask

/-- `fpga_conv_get_err_prot_func_mask`. -/
def fpgaConvGetErrProtFuncMask := @getConvErrProtFunc n .mask

/-- `fpga_conv_set_err_prot_func_force`. -/
def fpgaConvSetErrProtFuncForce := @setConvErrProtFunc n .force

/-- `fpga_conv_get_err_prot_func_force`. -/
def fpgaConvGetErrProtFuncForce := @getConvErrProtFunc n .force

/-- `fpga_conv_err_prot_func_ins`. -/
def fpgaConvErrProtFuncIns := @setConvErrProtFunc n .ins

/-- `fpga_conv_err_prot_func_get_ins`. -/
def fpgaConvErrProtFuncGetIns := @getConvErrProtFunc n .ins

/-- `fpga_conv_get_err_stif`. -/
def fpgaConvGetErrStif := @getConvErrStif n .value

/-- `fpga_conv_set_err_stif_mask`. -/
def fpgaConvSetErrStifMask := @setConvErrStif n .mask

/-- `fpga_conv_get_err_stif_mask`. -/
def fpgaConvGetErrStifMask := @getConvErrStif n .mask

/-- `fpga_conv_set_err_stif_force`. -/
def fpgaConvSetErrStifForce := @setConvErrStif n .force

/-- `fpga_conv_get_err_stif_force`. -/
def fpgaConvGetErrStifForce := @getConvErrStif n .force

/-- `fpga_conv_get_err_mem_parity`. -/
def fpgaConvGetErrMemParity := @getConvErrMemParity n .value

/-- `fpga_conv_set_err_mem_parity_clear`. -/
def fpgaConvSetErrMemParityClear := @setConvErrMemParity n .value

/-- `fpga_conv_set_err_mem_parity_mask`. -/
def fpgaConvSetErrMemParityMask := @setConvErrMemParity n .mask

/-- `fpga_conv_get_err_mem_parity_mask`. -/
def fpgaConvGetErrMemParityMask := @getConvErrMemParity n .mask

/-- `fpga_conv_set_err_mem_parity_force`. -/
def fpgaConvSetErrMemParityForce := @setConvErrMemParity n .force

/-- `fpga_conv_get_err_mem_parity_force`. -/
def fpgaConvGetErrMemParityForce := @getConvErrMemParity n .force

/-- `fpga_conv_err_mem_parity_ins`. -/
def fpgaConvErrMemParityIns := @setConvErrMemParity n .ins

/-- `fpga_conv_err_mem_parity_get_ins`. -/
def fpgaConvErrMemParityGetIns := @getConvErrMemParity n .ins

/-- `fpga_conv_get_err_length_fault`. -/
def fpgaConvGetErrLengthFault := @getConvErrLengthFault n .value

/-- `fpga_conv_set_err_length_fault_clear`. -/
def fpgaConvSetErrLengthFaultClear := @setConvErrLengthFault n .value

/-- `fpga_conv_set_err_length_fault_mask`. -/
def fpgaConvSetErrLengthFaultMask := @setConvErrLengthFault n .mask

/-- `fpga_conv_get_err_length_fault_mask`. -/
def fpgaConvGetErrLengthFaultMask := @getConvErrLengthFault n .mask

/-- `fpga_conv_set_err_length_fault_force`. -/
def fpgaConvSetErrLengthFaultForce := @setConvErrLengthFault n .force

/-- `fpga_conv_get_err_length_fault_force`. -/
def fpgaConvGetErrLengthFaultForce := @getConvErrLengthFault n .force

/-- `fpga_filter_resize_get_err_prot`. -/
def fpgaFilterResizeGetErrProt := @getFilterResizeErrProt n .value

/-- `fpga_filter_resize_set_err_prot_clear`. -/
def fpgaFilterResizeSetErrProtClear := @setFilterResizeErrProt n .value

/-- `fpga_filter_resize_set_err_prot_mask`. -/
def fpgaFilterResizeSetErrProtMask := @setFilterResizeErrProt n .mask

/-- `fpga_filter_resize_get_err_prot_mask`. -/
def fpgaFilterResizeGetErrProtMask := @getFilterResizeErrProt n .mask

/-- `fpga_filter_resize_set_err_prot_force`. -/
def fpgaFilterResizeSetErrProtForce := @setFilterResizeErrProt n .force

/-- `fpga_filter_resize_get_err_prot_force`. -/
def fpgaFilterResizeGetErrProtForce := @getFilterResizeErrProt n .force

/-- `fpga_filter_resize_err_prot_ins`. -/
def fpgaFilterResizeErrProtIns := @setFilterResizeErrProt n .ins

/-- `fpga_filter_resize_err_prot_get_ins`. -/
def fpgaFilterResizeErrProtGetIns := @getFilterResizeErrProt n .ins

/-- `fpga_filter_resize_get_err_stif`. -/
def fpgaFilterResizeGetErrStif := @getFilterResizeErrStif n .value

/-- `fpga_filter_resize_set_err_stif_mask`. -/
def fpgaFilterResizeSetErrStifMask := @setFilterResizeErrStif n .mask

/-- `fpga_filter_resize_get_err_stif_mask`. -/
def fpgaFilterResizeGetErrStifMask := @getFilterResizeErrStif n .mask

/-- `fpga_filter_resize_set_err_stif_force`. -/
def fpgaFilterResizeSetErrStifForce := @setFilterResizeErrStif n .force

/-- `fpga_filter_resize_get_err_stif_force`. -/
def fpgaFilterResizeGetErrStifForce := @getFilterResizeErrStif n .force

end Calls

/-- A call. -/
inductive FaultCall where
  /-- `fpga_conv_set_err_prot_*` and `fpga_conv_err_prot_ins`. -/
  | setConvErrProt (view : FaultView) (env : FaultEnv) (lane dir : BitVec 32) (e : FpgaFuncErrProt)
  /-- `fpga_conv_get_err_prot*` and `fpga_conv_err_prot_get_ins`. -/
  | getConvErrProt (view : FaultView) (env : FaultEnv) (lane dir : BitVec 32) (out : Bool)
  /-- `fpga_conv_set_err_prot_func_*` and `fpga_conv_err_prot_func_ins`. -/
  | setConvErrProtFunc (view : FaultView) (env : FaultEnv) (lane frId dir : BitVec 32)
      (e : FpgaFuncErrProt)
  /-- `fpga_conv_get_err_prot_func*` and `fpga_conv_err_prot_func_get_ins`. -/
  | getConvErrProtFunc (view : FaultView) (env : FaultEnv) (lane frId dir : BitVec 32) (out : Bool)
  /-- `fpga_conv_set_err_stif_mask`. -/
  | setConvErrStifMask (env : FaultEnv) (lane : BitVec 32) (e : FpgaConvErrStif)
  /-- `fpga_conv_set_err_stif_force`. -/
  | setConvErrStifForce (env : FaultEnv) (lane : BitVec 32) (e : FpgaConvErrStif)
  /-- `fpga_conv_get_err_stif*`. -/
  | getConvErrStif (view : StallView) (env : FaultEnv) (lane : BitVec 32) (out : Bool)
  /-- `fpga_conv_set_err_mem_parity_*` and `fpga_conv_err_mem_parity_ins`. -/
  | setConvErrMemParity (view : FaultView) (env : FaultEnv) (lane errParity : BitVec 32)
  /-- `fpga_conv_get_err_mem_parity*` and `fpga_conv_err_mem_parity_get_ins`. -/
  | getConvErrMemParity (view : FaultView) (env : FaultEnv) (lane : BitVec 32) (out : Bool)
  /-- `fpga_conv_set_err_length_fault_*`. -/
  | setConvErrLengthFault (view : StallView) (env : FaultEnv) (lane lengthFault : BitVec 32)
  /-- `fpga_conv_get_err_length_fault*`. -/
  | getConvErrLengthFault (view : StallView) (env : FaultEnv) (lane : BitVec 32) (out : Bool)
  /-- `fpga_filter_resize_set_err_prot_*` and `fpga_filter_resize_err_prot_ins`. -/
  | setFilterResizeErrProt (view : FaultView) (env : FaultEnv) (lane frId dir : BitVec 32)
      (e : FpgaFuncErrProt)
  /-- `fpga_filter_resize_get_err_prot*` and `fpga_filter_resize_err_prot_get_ins`. -/
  | getFilterResizeErrProt (view : FaultView) (env : FaultEnv) (lane frId dir : BitVec 32) (out : Bool)
  /-- `fpga_filter_resize_set_err_stif_mask`. -/
  | setFilterResizeErrStifMask (env : FaultEnv) (lane : BitVec 32) (e : FpgaFrErrStif)
  /-- `fpga_filter_resize_set_err_stif_force`. -/
  | setFilterResizeErrStifForce (env : FaultEnv) (lane : BitVec 32) (e : FpgaFrErrStif)
  /-- `fpga_filter_resize_get_err_stif*`. -/
  | getFilterResizeErrStif (view : StallView) (env : FaultEnv) (lane : BitVec 32) (out : Bool)
  /-- `fpga_conv_get_check_err`. -/
  | getConvCheckErr (env : FaultEnv) (lane : BitVec 32) (out : Bool)
  /-- `fpga_filter_resize_get_check_err`. -/
  | getFilterResizeCheckErr (env : FaultEnv) (lane : BitVec 32) (out : Bool)

/-- What a call is: a setting of a register to a word, made from fields, or a getting. -/
inductive FaultAccess where
  /-- A setting. -/
  | set (num : FaultDevice → ℕ) (env : FaultEnv) (lane : BitVec 32) (reg : Option FuncReg)
      (word : BitVec 32) (values : List (BitVec 32))
  /-- A getting. -/
  | get (num : FaultDevice → ℕ) (env : FaultEnv) (lane : BitVec 32) (out : Bool) (reg : Option FuncReg)
      (answer : BitVec 32 → FaultAnswer)

/-- The access of a call. -/
def FaultCall.access : FaultCall → FaultAccess
  | setConvErrProt view env lane dir e =>
    .set (·.convNum) env lane ((funcDir dir).map (.convProt view)) (packed errProtLayout e.values)
      e.values
  | getConvErrProt view env lane dir out =>
    .get (·.convNum) env lane out ((funcDir dir).map (.convProt view)) fun value =>
      .prot (.ofWord value)
  | setConvErrProtFunc view env lane frId dir e =>
    .set (·.convNum) env lane
      ((funcDir dir).bind fun kind => (funcNumber frId).map (.convProtFunc view kind))
      (packed errProtLayout e.values) e.values
  | getConvErrProtFunc view env lane frId dir out =>
    .get (·.convNum) env lane out
      ((funcDir dir).bind fun kind => (funcNumber frId).map (.convProtFunc view kind)) fun value =>
      .prot (.ofWord value)
  | setConvErrStifMask env lane e =>
    .set (·.convNum) env lane (some (.convStif .mask)) (packed (stifLayout 18) e.values) e.values
  | setConvErrStifForce env lane e =>
    .set (·.convNum) env lane (some (.convStif .force)) (packed (stifLayout 18) e.values) e.values
  | getConvErrStif view env lane out =>
    .get (·.convNum) env lane out (some (.convStif view)) fun value => .convStif (.ofWord value)
  | setConvErrMemParity view env lane errParity =>
    .set (·.convNum) env lane (some (.convMemParity view)) errParity [errParity]
  | getConvErrMemParity view env lane out =>
    .get (·.convNum) env lane out (some (.convMemParity view)) .word
  | setConvErrLengthFault view env lane lengthFault =>
    .set (·.convNum) env lane (some (.convLengthFault view)) lengthFault [lengthFault]
  | getConvErrLengthFault view env lane out =>
    .get (·.convNum) env lane out (some (.convLengthFault view)) .word
  | setFilterResizeErrProt view env lane frId dir e =>
    .set (·.funcNum) env lane
      ((funcDir dir).bind fun kind => (funcNumber frId).map (.frProt view kind))
      (packed errProtLayout e.values) e.values
  | getFilterResizeErrProt view env lane frId dir out =>
    .get (·.funcNum) env lane out
      ((funcDir dir).bind fun kind => (funcNumber frId).map (.frProt view kind)) fun value =>
      .prot (.ofWord value)
  | setFilterResizeErrStifMask env lane e =>
    .set (·.funcNum) env lane (some (.frStif .mask)) (packed (stifLayout 12) e.values) e.values
  | setFilterResizeErrStifForce env lane e =>
    .set (·.funcNum) env lane (some (.frStif .force)) (packed (stifLayout 12) e.values) e.values
  | getFilterResizeErrStif view env lane out =>
    .get (·.funcNum) env lane out (some (.frStif view)) fun value => .frStif (.ofWord value)
  | getConvCheckErr env lane out => .get (·.convNum) env lane out (some .convDetect) .word
  | getFilterResizeCheckErr env lane out => .get (·.funcNum) env lane out (some .frDetect) .word

variable {n : ℕ}

/-- A setting gives nothing. -/
def FaultResult.done (result : FaultResult n Unit) : FaultResult n (Option FaultAnswer) :=
  result.map fun (done, bar) => (done.map fun _ => none, bar)

/-- A getting gives something. -/
def FaultResult.answered (result : FaultResult n FaultAnswer) : FaultResult n (Option FaultAnswer) :=
  result.map fun (answer, bar) => (answer.map some, bar)

/-- What an access comes to. -/
def FaultAccess.exec (bar : Bar n) : FaultAccess → FaultResult n (Option FaultAnswer)
  | set num env lane reg word _ => (setFault num env lane reg word bar).done
  | get num env lane out reg answer => (getFault num env lane out reg answer bar).answered

/-- What a call comes to. -/
def FaultCall.exec (bar : Bar n) : FaultCall → FaultResult n (Option FaultAnswer)
  | setConvErrProt view env lane dir e =>
    match view with
    | .value => (fpgaConvSetErrProtClear env lane dir e bar).done
    | .mask => (fpgaConvSetErrProtMask env lane dir e bar).done
    | .force => (fpgaConvSetErrProtForce env lane dir e bar).done
    | .ins => (fpgaConvErrProtIns env lane dir e bar).done
  | getConvErrProt view env lane dir out =>
    match view with
    | .value => (fpgaConvGetErrProt env lane dir out bar).answered
    | .mask => (fpgaConvGetErrProtMask env lane dir out bar).answered
    | .force => (fpgaConvGetErrProtForce env lane dir out bar).answered
    | .ins => (fpgaConvErrProtGetIns env lane dir out bar).answered
  | setConvErrProtFunc view env lane frId dir e =>
    match view with
    | .value => (fpgaConvSetErrProtFuncClear env lane frId dir e bar).done
    | .mask => (fpgaConvSetErrProtFuncMask env lane frId dir e bar).done
    | .force => (fpgaConvSetErrProtFuncForce env lane frId dir e bar).done
    | .ins => (fpgaConvErrProtFuncIns env lane frId dir e bar).done
  | getConvErrProtFunc view env lane frId dir out =>
    match view with
    | .value => (fpgaConvGetErrProtFunc env lane frId dir out bar).answered
    | .mask => (fpgaConvGetErrProtFuncMask env lane frId dir out bar).answered
    | .force => (fpgaConvGetErrProtFuncForce env lane frId dir out bar).answered
    | .ins => (fpgaConvErrProtFuncGetIns env lane frId dir out bar).answered
  | setConvErrStifMask env lane e => (fpgaConvSetErrStifMask env lane e bar).done
  | setConvErrStifForce env lane e => (fpgaConvSetErrStifForce env lane e bar).done
  | getConvErrStif view env lane out =>
    match view with
    | .value => (fpgaConvGetErrStif env lane out bar).answered
    | .mask => (fpgaConvGetErrStifMask env lane out bar).answered
    | .force => (fpgaConvGetErrStifForce env lane out bar).answered
  | setConvErrMemParity view env lane errParity =>
    match view with
    | .value => (fpgaConvSetErrMemParityClear env lane errParity bar).done
    | .mask => (fpgaConvSetErrMemParityMask env lane errParity bar).done
    | .force => (fpgaConvSetErrMemParityForce env lane errParity bar).done
    | .ins => (fpgaConvErrMemParityIns env lane errParity bar).done
  | getConvErrMemParity view env lane out =>
    match view with
    | .value => (fpgaConvGetErrMemParity env lane out bar).answered
    | .mask => (fpgaConvGetErrMemParityMask env lane out bar).answered
    | .force => (fpgaConvGetErrMemParityForce env lane out bar).answered
    | .ins => (fpgaConvErrMemParityGetIns env lane out bar).answered
  | setConvErrLengthFault view env lane lengthFault =>
    match view with
    | .value => (fpgaConvSetErrLengthFaultClear env lane lengthFault bar).done
    | .mask => (fpgaConvSetErrLengthFaultMask env lane lengthFault bar).done
    | .force => (fpgaConvSetErrLengthFaultForce env lane lengthFault bar).done
  | getConvErrLengthFault view env lane out =>
    match view with
    | .value => (fpgaConvGetErrLengthFault env lane out bar).answered
    | .mask => (fpgaConvGetErrLengthFaultMask env lane out bar).answered
    | .force => (fpgaConvGetErrLengthFaultForce env lane out bar).answered
  | setFilterResizeErrProt view env lane frId dir e =>
    match view with
    | .value => (fpgaFilterResizeSetErrProtClear env lane frId dir e bar).done
    | .mask => (fpgaFilterResizeSetErrProtMask env lane frId dir e bar).done
    | .force => (fpgaFilterResizeSetErrProtForce env lane frId dir e bar).done
    | .ins => (fpgaFilterResizeErrProtIns env lane frId dir e bar).done
  | getFilterResizeErrProt view env lane frId dir out =>
    match view with
    | .value => (fpgaFilterResizeGetErrProt env lane frId dir out bar).answered
    | .mask => (fpgaFilterResizeGetErrProtMask env lane frId dir out bar).answered
    | .force => (fpgaFilterResizeGetErrProtForce env lane frId dir out bar).answered
    | .ins => (fpgaFilterResizeErrProtGetIns env lane frId dir out bar).answered
  | setFilterResizeErrStifMask env lane e => (fpgaFilterResizeSetErrStifMask env lane e bar).done
  | setFilterResizeErrStifForce env lane e => (fpgaFilterResizeSetErrStifForce env lane e bar).done
  | getFilterResizeErrStif view env lane out =>
    match view with
    | .value => (fpgaFilterResizeGetErrStif env lane out bar).answered
    | .mask => (fpgaFilterResizeGetErrStifMask env lane out bar).answered
    | .force => (fpgaFilterResizeGetErrStifForce env lane out bar).answered
  | getConvCheckErr env lane out => (fpgaConvGetCheckErr env lane out bar).answered
  | getFilterResizeCheckErr env lane out => (fpgaFilterResizeGetCheckErr env lane out bar).answered

/-! ### The runs -/

/-- The registers of a lane. -/
def funcRegs : List FuncReg :=
  let views : List FaultView := [.value, .mask, .force, .ins]
  let stalls : List StallView := [.value, .mask, .force]
  let kinds : List CidKind := [.ingress, .egress]
  let funcs : List FuncNumber := [.zero, .one]
  (views.flatMap fun view => kinds.map (.convProt view)) ++
    (views.flatMap fun view => kinds.flatMap fun kind => funcs.map (.convProtFunc view kind)) ++
    stalls.map .convStif ++ views.map .convMemParity ++ stalls.map .convLengthFault ++
    (views.flatMap fun view => kinds.flatMap fun kind => funcs.map (.frProt view kind)) ++
    stalls.map .frStif ++ [.convDetect, .frDetect]

/-- The word of a register. -/
def FuncReg.index (reg : FuncReg) (lane : BitVec 32) : ℕ := (reg.addr lane).toNat / 4

/-- Some lane has a setting in the word. -/
def settingAt (i : ℕ) : Bool :=
  funcRegs.any fun reg => reg.IsSetting ∧ [0, 1, 2, 3].any fun lane => reg.index lane = i

/-- A step of a run. -/
inductive FaultStep (n : ℕ) where
  /-- A program calls. -/
  | call (call : FaultCall)
  /-- The hardware or another call changes a register, which is no setting. -/
  | elsewhere (i : Fin n) (value : BitVec 32)

/-- What a step does; `none` if an access leaves the memory of the device. -/
def faultStep (bar : Bar n) : FaultStep n → Option (Bar n)
  | .call call => (call.exec bar).toOption.map Prod.snd
  | .elsewhere i value =>
    some (if settingAt i then bar
      else { bar with words := Function.update bar.words i value })

/-- The register, the lane, and the fields of a setting that gets through. -/
def FaultCall.setting (call : FaultCall) : Option (FuncReg × BitVec 32 × List (BitVec 32)) :=
  match call.access with
  | .get .. => none
  | .set num env lane reg _ values =>
    (faultLane num env lane reg).bind fun reg =>
      if env.isAvailRw ∧ reg.IsSetting then some (reg, lane, values) else none

/-- The register and the lane of a getting that gets through. -/
def FaultCall.getting (call : FaultCall) : Option (FuncReg × BitVec 32) :=
  match call.access with
  | .set .. => none
  | .get num env lane out reg _ =>
    (if out then faultLane num env lane reg else none).bind fun reg =>
      if env.isAvailRw ∧ reg.IsSetting then some (reg, lane) else none

/-- The step sets the register of the lane. -/
def FaultStep.Sets (reg : FuncReg) (lane : BitVec 32) : FaultStep n → Prop
  | .call c => ∃ values, c.setting = some (reg, lane, values)
  | .elsewhere .. => False

/-! ### The fields of a register -/

theorem FaultCall.exec_eq (call : FaultCall) (bar : Bar n) : call.exec bar = call.access.exec bar := by
  cases call with
  | setConvErrStifMask | setConvErrStifForce | setFilterResizeErrStifMask
  | setFilterResizeErrStifForce | getConvCheckErr | getFilterResizeCheckErr => rfl
  | setConvErrProt view | getConvErrProt view | setConvErrProtFunc view | getConvErrProtFunc view
  | getConvErrStif view | setConvErrMemParity view | getConvErrMemParity view
  | setConvErrLengthFault view | getConvErrLengthFault view | setFilterResizeErrProt view
  | getFilterResizeErrProt view | getFilterResizeErrStif view => cases view <;> rfl

/-- A mask of one bit keeps the lowest. -/
theorem zipWith_lowest {layout : List (BitField 32)} {values : List (BitVec 32)}
    (hmask : ∀ b ∈ layout, b.mask = 1) (hlen : values.length = layout.length) :
    List.zipWith (fun v b => v &&& b.mask) values layout = values.map (· &&& 1) := by
  induction layout generalizing values with
  | nil =>
    rw [List.length_eq_zero_iff.mp hlen]
    rfl
  | cons b layout ih =>
    cases values with
    | nil => cases hlen
    | cons v values =>
      rw [List.zipWith_cons_cons, List.map_cons, hmask b (List.mem_cons_self ..),
        ih (fun b hb => hmask b (List.mem_cons_of_mem _ hb)) (Nat.succ.inj hlen)]

/-- Fields of one bit, put into a register and taken out of it. -/
theorem readFields_lowest {layout : List (BitField 32)} {values : List (BitVec 32)}
    (hsound : SoundLayout 8 layout) (hmask : ∀ b ∈ layout, b.mask = 1)
    (hlen : values.length = layout.length) :
    readFields 8 layout (packed layout values) = values.map (· &&& 1) := by
  rw [readFields_packed hsound hlen, zipWith_lowest hmask hlen]

theorem prot_lowest (e : FpgaFuncErrProt) :
    readFields 8 errProtLayout (packed errProtLayout e.values) = e.values.map (· &&& 1) :=
  readFields_lowest (by decide) (by decide) rfl

theorem convStif_lowest (e : FpgaConvErrStif) :
    readFields 8 (stifLayout 18) (packed (stifLayout 18) e.values) = e.values.map (· &&& 1) :=
  readFields_lowest (by decide) (by decide) rfl

theorem frStif_lowest (e : FpgaFrErrStif) :
    readFields 8 (stifLayout 12) (packed (stifLayout 12) e.values) = e.values.map (· &&& 1) :=
  readFields_lowest (by decide) (by decide) rfl

/-- The fields of the word of a setting. -/
theorem FaultCall.access_set {call : FaultCall} {num : FaultDevice → ℕ} {env : FaultEnv}
    {lane word : BitVec 32} {r : Option FuncReg} {values : List (BitVec 32)}
    (h : call.access = .set num env lane r word values) :
    (∀ dev, num dev ≤ 4) ∧ ∀ reg, r = some reg → reg.fields word = reg.kept values := by
  cases call with
  | getConvErrProt | getConvErrProtFunc | getConvErrStif | getConvErrMemParity | getConvErrLengthFault
  | getFilterResizeErrProt | getFilterResizeErrStif | getConvCheckErr | getFilterResizeCheckErr => cases h
  | setConvErrProt view env lane dir e =>
    cases h
    refine ⟨fun dev => dev.conv_le, fun reg hreg => ?_⟩
    obtain ⟨kind, -, rfl⟩ := Option.map_eq_some_iff.mp hreg
    exact prot_lowest e
  | setConvErrProtFunc view env lane frId dir e =>
    cases h
    refine ⟨fun dev => dev.conv_le, fun reg hreg => ?_⟩
    obtain ⟨kind, -, hreg⟩ := Option.bind_eq_some_iff.mp hreg
    obtain ⟨func, -, rfl⟩ := Option.map_eq_some_iff.mp hreg
    exact prot_lowest e
  | setConvErrStifMask env lane e | setConvErrStifForce env lane e =>
    cases h
    refine ⟨fun dev => dev.conv_le, fun reg hreg => ?_⟩
    cases hreg
    exact convStif_lowest e
  | setConvErrMemParity | setConvErrLengthFault =>
    cases h
    refine ⟨fun dev => dev.conv_le, fun reg hreg => ?_⟩
    cases hreg
    rfl
  | setFilterResizeErrProt view env lane frId dir e =>
    cases h
    refine ⟨fun dev => dev.func_le, fun reg hreg => ?_⟩
    obtain ⟨kind, -, hreg⟩ := Option.bind_eq_some_iff.mp hreg
    obtain ⟨func, -, rfl⟩ := Option.map_eq_some_iff.mp hreg
    exact prot_lowest e
  | setFilterResizeErrStifMask env lane e | setFilterResizeErrStifForce env lane e =>
    cases h
    refine ⟨fun dev => dev.func_le, fun reg hreg => ?_⟩
    cases hreg
    exact frStif_lowest e

/-- The fields of the answer of a getting. -/
theorem FaultCall.access_get {call : FaultCall} {num : FaultDevice → ℕ} {env : FaultEnv}
    {lane : BitVec 32} {out : Bool} {r : Option FuncReg} {answer : BitVec 32 → FaultAnswer}
    (h : call.access = .get num env lane out r answer) :
    (∀ dev, num dev ≤ 4) ∧ ∀ reg, r = some reg → ∀ word, (answer word).values = reg.fields word := by
  cases call with
  | setConvErrProt | setConvErrProtFunc | setConvErrStifMask | setConvErrStifForce | setConvErrMemParity
  | setConvErrLengthFault | setFilterResizeErrProt | setFilterResizeErrStifMask
  | setFilterResizeErrStifForce => cases h
  | getConvErrProt =>
    cases h
    refine ⟨fun dev => dev.conv_le, fun reg hreg word => ?_⟩
    obtain ⟨kind, -, rfl⟩ := Option.map_eq_some_iff.mp hreg
    rfl
  | getConvErrProtFunc =>
    cases h
    refine ⟨fun dev => dev.conv_le, fun reg hreg word => ?_⟩
    obtain ⟨kind, -, hreg⟩ := Option.bind_eq_some_iff.mp hreg
    obtain ⟨func, -, rfl⟩ := Option.map_eq_some_iff.mp hreg
    rfl
  | getConvErrStif | getConvErrMemParity | getConvErrLengthFault | getConvCheckErr =>
    cases h
    refine ⟨fun dev => dev.conv_le, fun reg hreg word => ?_⟩
    cases hreg
    rfl
  | getFilterResizeErrProt =>
    cases h
    refine ⟨fun dev => dev.func_le, fun reg hreg word => ?_⟩
    obtain ⟨kind, -, hreg⟩ := Option.bind_eq_some_iff.mp hreg
    obtain ⟨func, -, rfl⟩ := Option.map_eq_some_iff.mp hreg
    rfl
  | getFilterResizeErrStif | getFilterResizeCheckErr =>
    cases h
    refine ⟨fun dev => dev.func_le, fun reg hreg word => ?_⟩
    cases hreg
    rfl

/-! ### The words of the registers -/

/-- A register is a whole word, in the first `0x400` bytes of its lane. -/
theorem FuncReg.offset_lt (reg : FuncReg) :
    reg.offset.toNat % 4 = 0 ∧ reg.offset.toNat < 0x400 := by
  cases reg with
  | convDetect | frDetect => decide
  | convStif view | convLengthFault view | frStif view => cases view <;> decide
  | convMemParity view => cases view <;> decide
  | convProt view kind => cases view <;> cases kind <;> decide
  | convProtFunc view kind func | frProt view kind func =>
    cases view <;> cases kind <;> cases func <;> decide

theorem FuncReg.mem_funcRegs (reg : FuncReg) : reg ∈ funcRegs := by
  cases reg with
  | convDetect | frDetect => decide
  | convStif view | convLengthFault view | frStif view => cases view <;> decide
  | convMemParity view => cases view <;> decide
  | convProt view kind => cases view <;> cases kind <;> decide
  | convProtFunc view kind func | frProt view kind func =>
    cases view <;> cases kind <;> cases func <;> decide

theorem FuncReg.toNat_addr (reg : FuncReg) {lane : BitVec 32} (hlane : lane.toNat < 4) :
    (reg.addr lane).toNat = reg.offset.toNat +
      if reg.isFr then 0x25000 + 0x1000 * lane.toNat else 0x24000 + 0x400 * lane.toNat := by
  have hoffset := reg.offset_lt
  have hfr : (0x0000025000 : BitVec 32).toNat = 0x25000 ∧ (0x1000 : BitVec 32).toNat = 0x1000 := by
    decide
  have hconv : (0x0000024000 : BitVec 32).toNat = 0x24000 ∧ (0x0400 : BitVec 32).toNat = 0x400 := by
    decide
  unfold FuncReg.addr frfuncKrnlOffset convKrnlOffset
  split_ifs
  · rw [BitVec.toNat_add, BitVec.toNat_add, BitVec.toNat_mul, hfr.1, hfr.2]
    omega
  · rw [BitVec.toNat_add, BitVec.toNat_add, BitVec.toNat_mul, hconv.1, hconv.2]
    omega

/-- In one of the two modules no two registers have one place. -/
theorem FuncReg.offset_inj : ∀ reg ∈ funcRegs, ∀ reg' ∈ funcRegs, reg.isFr = reg'.isFr →
    reg.offset = reg'.offset → reg = reg' := by decide +kernel

/-- **No two registers are the same word.** -/
theorem FuncReg.index_inj {reg reg' : FuncReg} {lane lane' : BitVec 32} (hlane : lane.toNat < 4)
    (hlane' : lane'.toNat < 4) (h : reg.index lane = reg'.index lane') : reg = reg' ∧ lane = lane' := by
  have hoffset := reg.offset_lt
  have hoffset' := reg'.offset_lt
  unfold FuncReg.index at h
  rw [reg.toNat_addr hlane, reg'.toNat_addr hlane'] at h
  have hsame : reg.isFr = reg'.isFr ∧ reg.offset.toNat = reg'.offset.toNat ∧ lane.toNat = lane'.toNat := by
    cases hfr : reg.isFr <;> cases hfr' : reg'.isFr <;> rw [hfr, hfr'] at h <;>
      simp only [if_true, Bool.false_eq_true, if_false] at h
    -- the two modules are apart
    case false.true | true.false => omega
    all_goals exact ⟨rfl, by omega, by omega⟩
  obtain ⟨hfr, hplace, hlanes⟩ := hsame
  exact ⟨FuncReg.offset_inj reg reg.mem_funcRegs reg' reg'.mem_funcRegs hfr
    (BitVec.eq_of_toNat_eq hplace), BitVec.eq_of_toNat_eq hlanes⟩

/-! ### One step -/

/-- The word `i`; 0 where there is none. -/
def wordAt (bar : Bar n) (i : ℕ) : BitVec 32 := if h : i < n then bar.words ⟨i, h⟩ else 0

theorem wordAt_of_lt {bar : Bar n} {i : ℕ} (h : i < n) : wordAt bar i = bar.words ⟨i, h⟩ := dif_pos h

theorem wordAt_update {bar : Bar n} {i : Fin n} {value : BitVec 32} {touched : List (Fin n)} (k : ℕ) :
    wordAt ⟨Function.update bar.words i value, touched⟩ k = if k = i then value else wordAt bar k := by
  unfold wordAt
  split_ifs with hk heq heq
  · subst heq
    exact Function.update_self ..
  · exact Function.update_of_ne (fun h => heq (congrArg Fin.val h)) ..
  · exact absurd (heq ▸ i.isLt) hk
  · rfl

theorem faultLane_eq_some {num : FaultDevice → ℕ} {env : FaultEnv} {lane : BitVec 32}
    {r : Option FuncReg} {reg : FuncReg} (h : faultLane num env lane r = some reg) :
    (∃ dev, lane.toNat < num dev) ∧ r = some reg := by
  obtain ⟨dev, -, hdev⟩ := Option.bind_eq_some_iff.mp h
  split_ifs at hdev with hlane
  exact ⟨⟨dev, not_le.mp hlane⟩, hdev⟩

/-- The memory of the device has all registers. -/
def Reaches (n : ℕ) : Prop := 0x28400 ≤ 4 * n

instance (n : ℕ) : Decidable (Reaches n) := inferInstanceAs (Decidable (_ ≤ _))

theorem Reaches.index_lt (h : Reaches n) (reg : FuncReg) {lane : BitVec 32} (hlane : lane.toNat < 4) :
    reg.index lane < n := by
  have hoffset := reg.offset_lt
  unfold Reaches at h
  unfold FuncReg.index
  rw [reg.toNat_addr hlane]
  split_ifs <;> omega

theorem FuncReg.addr_mod (reg : FuncReg) {lane : BitVec 32} (hlane : lane.toNat < 4) :
    (reg.addr lane).toNat % 4 = 0 := by
  have hoffset := reg.offset_lt
  rw [reg.toNat_addr hlane]
  split_ifs <;> omega

/-- A register is written through the file. -/
theorem cdevWrite_reg (h : Reaches n) (reg : FuncReg) {lane : BitVec 32} (hlane : lane.toNat < 4)
    (value : BitVec 32) (bar : Bar n) :
    ∃ t, cdevWrite true (some (value.setWidth 64)) 4 (reg.addr lane).toNat bar = .ok (.ok (), t) ∧
      ∀ k, wordAt t k = if k = reg.index lane then value else wordAt bar k := by
  have hi : (BitVec.ofNat 32 (reg.addr lane).toNat).toNat / 4 =
      (⟨reg.index lane, h.index_lt reg hlane⟩ : Fin n) := by
    rw [BitVec.ofNat_toNat, BitVec.setWidth_eq]
    rfl
  have hvalue : (value.setWidth 64).setWidth 32 = value := by
    rw [BitVec.setWidth_setWidth_of_le value (by decide), BitVec.setWidth_eq]
  refine ⟨{ bar.touch ⟨reg.index lane, h.index_lt reg hlane⟩ with
      words := Function.update bar.words ⟨reg.index lane, h.index_lt reg hlane⟩ value },
    ?_, fun k => wordAt_update k⟩
  rw [cdevWrite_four (reg.addr_mod hlane), regWrite32_eq hi, hvalue]
  rfl

/-- And read. -/
theorem cdevRead_reg (h : Reaches n) (reg : FuncReg) {lane : BitVec 32} (hlane : lane.toNat < 4)
    (bar : Bar n) :
    ∃ t, cdevRead true true 4 (reg.addr lane).toNat bar =
        .ok (.ok ((wordAt bar (reg.index lane)).setWidth 64), t) ∧
      t.words = bar.words := by
  have hlt := h.index_lt reg hlane
  have hi : (BitVec.ofNat 32 (reg.addr lane).toNat).toNat / 4 = (⟨reg.index lane, hlt⟩ : Fin n) := by
    rw [BitVec.ofNat_toNat, BitVec.setWidth_eq]
    rfl
  refine ⟨bar.touch ⟨reg.index lane, hlt⟩, ?_, rfl⟩
  rw [cdevRead_four (reg.addr_mod hlane), regRead32_eq hi, wordAt_of_lt hlt]
  rfl

/-- What a setting does: it is refused, or its register gets the word. -/
theorem setFault_cases (h : Reaches n) {num : FaultDevice → ℕ} (hnum : ∀ dev, num dev ≤ 4)
    (env : FaultEnv) (lane : BitVec 32) (r : Option FuncReg) (word : BitVec 32) (bar : Bar n) :
    (∃ reg t, faultLane num env lane r = some reg ∧ env.isAvailRw = true ∧ lane.toNat < 4 ∧
      setFault num env lane r word bar = .ok (.ok (), t) ∧
      ∀ k, wordAt t k = if k = reg.index lane then word else wordAt bar k) ∨
    (faultLane num env lane r = none ∨ env.isAvailRw = false) ∧
      ∃ e, setFault num env lane r word bar = .ok (.error e, bar) := by
  unfold setFault
  cases hreg : faultLane num env lane r with
  | none => exact .inr ⟨.inl rfl, _, rfl⟩
  | some reg =>
    obtain ⟨⟨dev, hlt⟩, -⟩ := faultLane_eq_some hreg
    have hlane : lane.toNat < 4 := hlt.trans_le (hnum dev)
    cases havail : env.isAvailRw with
    | false => exact .inr ⟨.inr rfl, _, rfl⟩
    | true =>
      obtain ⟨t, ht, hwords⟩ := cdevWrite_reg h reg hlane word bar
      refine .inl ⟨reg, t, rfl, rfl, hlane, ?_, hwords⟩
      simp only [ht]
      rfl

/-- What a getting does: it is refused, or gives what its register holds. -/
theorem getFault_cases (h : Reaches n) {num : FaultDevice → ℕ} (hnum : ∀ dev, num dev ≤ 4)
    (env : FaultEnv) (lane : BitVec 32) (out : Bool) (r : Option FuncReg)
    (answer : BitVec 32 → FaultAnswer) (bar : Bar n) :
    (∃ reg t, (if out then faultLane num env lane r else none) = some reg ∧ env.isAvailRw = true ∧
      t.words = bar.words ∧ getFault num env lane out r answer bar =
        .ok (.ok (answer (wordAt bar (reg.index lane))), t)) ∨
    ((if out then faultLane num env lane r else none) = none ∨ env.isAvailRw = false) ∧
      ∃ e, getFault num env lane out r answer bar = .ok (.error e, bar) := by
  unfold getFault
  cases hreg : if out then faultLane num env lane r else none with
  | none => exact .inr ⟨.inl rfl, _, rfl⟩
  | some reg =>
    split_ifs at hreg
    obtain ⟨⟨dev, hlt⟩, -⟩ := faultLane_eq_some hreg
    have hlane : lane.toNat < 4 := hlt.trans_le (hnum dev)
    cases havail : env.isAvailRw with
    | false => exact .inr ⟨.inr rfl, _, rfl⟩
    | true =>
      obtain ⟨t, ht, hwords⟩ := cdevRead_reg h reg hlane bar
      refine .inl ⟨reg, t, rfl, rfl, hwords, ?_⟩
      have hword : ((wordAt bar (reg.index lane)).setWidth 64).setWidth 32 =
          wordAt bar (reg.index lane) := by
        rw [BitVec.setWidth_setWidth_of_le _ (by decide), BitVec.setWidth_eq]
      simp only [ht, Except.map, Except.mapError, hword]

theorem wordAt_congr {bar t : Bar n} (h : t.words = bar.words) (k : ℕ) : wordAt t k = wordAt bar k := by
  unfold wordAt
  rw [h]

/-- The words with settings. -/
theorem settingAt_index {reg : FuncReg} (hreg : reg.IsSetting) {lane : BitVec 32}
    (hlane : lane.toNat < 4) : settingAt (reg.index lane) = true := by
  have hmem : lane ∈ ([0, 1, 2, 3] : List (BitVec 32)) := by
    have hof : lane = BitVec.ofNat 32 lane.toNat := BitVec.eq_of_toNat_eq (by
      rw [BitVec.toNat_ofNat, Nat.mod_eq_of_lt lane.isLt])
    rw [hof]
    generalize lane.toNat = k at hlane
    match k, hlane with
    | 0, _ | 1, _ | 2, _ | 3, _ => decide
  refine List.any_eq_true.mpr ⟨reg, reg.mem_funcRegs, decide_eq_true ⟨hreg, ?_⟩⟩
  exact List.any_eq_true.mpr ⟨lane, hmem, decide_eq_true rfl⟩

/-- The setting of a call that sets. -/
theorem FaultCall.setting_of_access {c : FaultCall} {num : FaultDevice → ℕ} {env : FaultEnv}
    {lane word : BitVec 32} {r : Option FuncReg} {values : List (BitVec 32)} {reg : FuncReg}
    (h : c.access = .set num env lane r word values) (hreg : faultLane num env lane r = some reg)
    (havail : env.isAvailRw = true) (hsetting : reg.IsSetting) : c.setting = some (reg, lane, values) := by
  unfold FaultCall.setting
  rw [h]
  simp only [hreg, Option.bind_some, if_pos (And.intro havail hsetting)]

/-- **A step sets the one register it is about, or none.** -/
theorem faultStep_settings (h : Reaches n) (bar : Bar n) (step : FaultStep n) :
    ∃ t, faultStep bar step = some t ∧ ∀ reg lane, reg.IsSetting → lane.toNat < 4 →
      ¬ step.Sets reg lane → wordAt t (reg.index lane) = wordAt bar (reg.index lane) := by
  cases step with
  | elsewhere i value =>
    refine ⟨_, rfl, fun reg lane hreg hlane _ => ?_⟩
    split_ifs with hat
    · rfl
    · rw [wordAt_update, if_neg]
      intro heq
      exact hat (heq ▸ settingAt_index hreg hlane)
  | call c =>
    have hexec := c.exec_eq bar
    have hstep : faultStep bar (.call c) = (c.exec bar).toOption.map Prod.snd := rfl
    rw [hstep, hexec]
    cases haccess : c.access with
    | get num env lane out r answer =>
      obtain ⟨reg, t, -, -, hwords, hget⟩ | ⟨-, e, hget⟩ :=
        getFault_cases h (c.access_get haccess).1 env lane out r answer bar
      · refine ⟨t, ?_, fun reg lane _ _ _ => wordAt_congr hwords _⟩
        simp only [FaultAccess.exec, hget]
        rfl
      · refine ⟨bar, ?_, fun reg lane _ _ _ => rfl⟩
        simp only [FaultAccess.exec, hget]
        rfl
    | set num env lane r word values =>
      obtain ⟨reg, t, hreg, havail, hlt, hset, hwords⟩ | ⟨-, e, hset⟩ :=
        setFault_cases h (c.access_set haccess).1 env lane r word bar
      · refine ⟨t, ?_, fun reg' lane' hreg' hlane' hno => ?_⟩
        · simp only [FaultAccess.exec, hset]
          rfl
        · rw [hwords, if_neg]
          intro heq
          obtain ⟨rfl, rfl⟩ := FuncReg.index_inj hlane' hlt heq
          exact hno ⟨values, FaultCall.setting_of_access haccess hreg havail hreg'⟩
      · refine ⟨bar, ?_, fun reg' lane' _ _ _ => rfl⟩
        simp only [FaultAccess.exec, hset]
        rfl

/-! ### A run -/

/-- Steps that do not set a register leave it as it is. -/
theorem run_faultStep (h : Reaches n) {reg : FuncReg} (hreg : reg.IsSetting) {lane : BitVec 32}
    (hlane : lane.toNat < 4) (steps : List (FaultStep n)) (bar : Bar n)
    (hno : ∀ step ∈ steps, ¬ step.Sets reg lane) :
    ∃ t, run faultStep bar steps = some t ∧ wordAt t (reg.index lane) = wordAt bar (reg.index lane) := by
  induction steps generalizing bar with
  | nil => exact ⟨bar, rfl, rfl⟩
  | cons step steps ih =>
    obtain ⟨t, ht, hkeeps⟩ := faultStep_settings h bar step
    obtain ⟨u, hu, hword⟩ := ih t fun step hmem => hno step (List.mem_cons_of_mem _ hmem)
    refine ⟨u, run_cons_eq_some.mpr ⟨t, ht, hu⟩, hword.trans ?_⟩
    exact hkeeps reg lane hreg hlane (hno step (List.mem_cons_self ..))

/-- A setting that gets through puts its fields into its register. -/
theorem faultStep_set (h : Reaches n) (bar : Bar n) {c : FaultCall} {reg : FuncReg} {lane : BitVec 32}
    {values : List (BitVec 32)} (hset : c.setting = some (reg, lane, values)) :
    reg.IsSetting ∧ lane.toNat < 4 ∧ ∃ t, faultStep bar (.call c) = some t ∧
      reg.fields (wordAt t (reg.index lane)) = reg.kept values := by
  have hstep : faultStep bar (.call c) = (c.exec bar).toOption.map Prod.snd := rfl
  rw [hstep, c.exec_eq bar]
  unfold FaultCall.setting at hset
  cases haccess : c.access with
  | get => rw [haccess] at hset; cases hset
  | set num env lane' r word values' =>
    rw [haccess] at hset
    obtain ⟨reg', hreg, hif⟩ := Option.bind_eq_some_iff.mp hset
    split_ifs at hif with hthrough
    cases hif
    obtain ⟨havail, hsetting⟩ := hthrough
    obtain ⟨hnum, hfields⟩ := c.access_set haccess
    obtain ⟨reg'', t, hreg'', -, hlt, hexec, hwords⟩ | ⟨hrefused | hrefused, -⟩ :=
      setFault_cases h hnum env lane r word bar
    · obtain rfl : reg = reg'' := Option.some.inj (hreg.symm.trans hreg'')
      refine ⟨hsetting, hlt, t, ?_, ?_⟩
      · simp only [FaultAccess.exec, hexec]
        rfl
      · rw [hwords, if_pos rfl]
        exact hfields reg (faultLane_eq_some hreg).2
    · cases hreg.symm.trans hrefused
    · cases havail.symm.trans hrefused

/-- A getting that gets through gives the fields of its register. -/
theorem exec_get (h : Reaches n) (bar : Bar n) {c : FaultCall} {reg : FuncReg} {lane : BitVec 32}
    (hget : c.getting = some (reg, lane)) :
    ∃ a t, c.exec bar = .ok (.ok (some a), t) ∧ t.words = bar.words ∧
      a.values = reg.fields (wordAt bar (reg.index lane)) := by
  rw [c.exec_eq bar]
  unfold FaultCall.getting at hget
  cases haccess : c.access with
  | set => rw [haccess] at hget; cases hget
  | get num env lane' out r answer =>
    rw [haccess] at hget
    obtain ⟨reg', hreg, hif⟩ := Option.bind_eq_some_iff.mp hget
    split_ifs at hif with hthrough
    cases hif
    obtain ⟨hnum, hfields⟩ := c.access_get haccess
    obtain ⟨reg'', t, hreg'', -, hwords, hexec⟩ | ⟨hrefused | hrefused, -⟩ :=
      getFault_cases h hnum env lane out r answer bar
    · obtain rfl : reg = reg'' := Option.some.inj (hreg.symm.trans hreg'')
      refine ⟨_, t, ?_, hwords, hfields reg ?_ _⟩
      · simp only [FaultAccess.exec, hexec]
        rfl
      · split_ifs at hreg
        exact (faultLane_eq_some hreg).2
    · cases hreg.symm.trans hrefused
    · cases hthrough.1.symm.trans hrefused

/-- **What is got is what was last set.** After a setting that gets through, whatever is called and
changed by others as long as the same register is not set again, the getting of it gives the lowest
bit of each field that was set, or the word; no access leaves the memory of the device. -/
theorem faults_last_set (h : Reaches n) (bar : Bar n) {call get : FaultCall} {reg : FuncReg}
    {lane : BitVec 32} {values : List (BitVec 32)} (hset : call.setting = some (reg, lane, values))
    (later : List (FaultStep n)) (hno : ∀ step ∈ later, ¬ step.Sets reg lane)
    (hget : get.getting = some (reg, lane)) :
    ∃ t a u, run faultStep bar (.call call :: later) = some t ∧ get.exec t = .ok (.ok (some a), u) ∧
      u.words = t.words ∧ a.values = reg.kept values := by
  obtain ⟨hsetting, hlane, s, hs, hkept⟩ := faultStep_set h bar hset
  obtain ⟨t, ht, hword⟩ := run_faultStep h hsetting hlane later s hno
  obtain ⟨a, u, hu, hwords, hvalues⟩ := exec_get h t hget
  refine ⟨t, a, u, run_cons_eq_some.mpr ⟨s, hs, ht⟩, hu, hwords, ?_⟩
  rw [hvalues, hword, hkept]

theorem not_sets {c : FaultCall} {reg : FuncReg} {lane : BitVec 32}
    (h : c.setting.map (fun s => (s.1, s.2.1)) ≠ some (reg, lane)) :
    ¬ FaultStep.Sets reg lane (.call c : FaultStep n) := by
  rintro ⟨values, hvalues⟩
  rw [hvalues] at h
  exact h rfl

/-- A device with one lane, and a file that may access registers. -/
def oneLaneEnv : FaultEnv := ⟨some ⟨⟨1, 1, by decide⟩, by decide⟩, true⟩

/-- All faults of a frame. -/
def frameFaults : FpgaFuncErrProt := ⟨1, 1, 1, 1, 1, 1, 0, 0, 0, 0, 0⟩

/-- The mask of function 1 is set, then that of function 0 and the forced faults, then a program whose
file may not access registers tries the mask of function 1, and a fault is detected. -/
theorem faults_last_set_mask :
    ∃ t a u, run faultStep (⟨fun _ => 0, []⟩ : Bar 0xA100)
        [.call (.setFilterResizeErrProt .mask oneLaneEnv 0 1 0 frameFaults),
          .call (.setFilterResizeErrProt .mask oneLaneEnv 0 0 0 ⟨0, 0, 0, 0, 0, 0, 0, 0, 0, 0, 0⟩),
          .call (.setFilterResizeErrProt .force oneLaneEnv 0 1 0 ⟨0, 0, 0, 0, 0, 0, 0, 0, 0, 0, 0⟩),
          .call (.setFilterResizeErrProt .mask { oneLaneEnv with isAvailRw := false } 0 1 0
            ⟨0, 0, 0, 0, 0, 0, 0, 0, 0, 0, 0⟩),
          .elsewhere ⟨0x9440, by decide⟩ 1] = some t ∧
      (FaultCall.getFilterResizeErrProt .mask oneLaneEnv 0 1 0 true).exec t = .ok (.ok (some a), u) ∧
      u.words = t.words ∧ a.values = [1, 1, 1, 1, 1, 1, 0, 0, 0, 0, 0] := by
  have hreaches : Reaches 0xA100 := by decide
  have hset : (FaultCall.setFilterResizeErrProt .mask oneLaneEnv 0 1 0 frameFaults).setting =
      some (.frProt .mask .ingress .one, 0, frameFaults.values) := rfl
  have hget : (FaultCall.getFilterResizeErrProt .mask oneLaneEnv 0 1 0 true).getting =
      some (.frProt .mask .ingress .one, 0) := rfl
  refine faults_last_set hreaches _ hset _ ?_ hget
  simp only [List.forall_mem_cons]
  refine ⟨?_, ?_, ?_, id, fun _ h => nomatch h⟩
  · exact not_sets (by decide)
  · exact not_sets (by decide)
  · exact not_sets (by decide)

end HardwareDrivers.Libfpga
