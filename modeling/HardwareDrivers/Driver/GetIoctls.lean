import HardwareDrivers.Driver.Chain
import HardwareDrivers.Driver.ModuleRegs

/-!
# The GET ioctls of the chain and the direct module

What a process gets from `XPCIE_DEV_CHAIN_GET_*` and `XPCIE_DEV_DIRECT_GET_*`: the user structure
is copied in, a function of the module reads registers and sets fields of it, and it is copied
out as a whole. A local variable that such a function need not have set when it uses it is an
argument here.
-/

namespace HardwareDrivers.Driver

open Theory

/-! ### The user structures -/

/-- `fpga_ioctl_chain_ddr_t`. -/
structure FpgaIoctlChainDdr where
  /-- `lane`. -/
  lane : BitVec 32
  /-- `extif_id`. -/
  extifId : BitVec 8
  /-- `base`, `rx_offset` and `tx_offset`. -/
  (base rxOffset txOffset : BitVec 64)
  /-- `rx_stride` and `tx_stride`. -/
  (rxStride txStride : BitVec 32)
  /-- `rx_size` and `tx_size`. -/
  (rxSize txSize : BitVec 8)
  deriving DecidableEq

/-- `fpga_ioctl_chain_latency_t`. -/
structure FpgaIoctlChainLatency where
  /-- `lane`. -/
  lane : BitVec 32
  /-- `extif_id`. -/
  extifId : BitVec 8
  /-- `cid`. -/
  cid : BitVec 16
  /-- `dir`. -/
  dir : BitVec 8
  /-- `latency`. -/
  latency : BitVec 32
  deriving DecidableEq

/-- `fpga_ioctl_chain_func_latency_t`. -/
structure FpgaIoctlChainFuncLatency where
  /-- `lane`. -/
  lane : BitVec 32
  /-- `latency`. -/
  latency : BitVec 32
  /-- `fchid`. -/
  fchid : BitVec 16
  deriving DecidableEq

/-- `fpga_ioctl_chain_framenum_t`, and `fpga_ioctl_direct_framenum_t`. -/
structure FpgaIoctlFramenum where
  /-- `lane`. -/
  lane : BitVec 32
  /-- `reg_id`. -/
  regId : BitVec 16
  /-- `fchid`. -/
  fchid : BitVec 16
  /-- `frame_num`. -/
  frameNum : BitVec 32
  deriving DecidableEq

/-- `fpga_ioctl_chain_bytenum_t`, and `fpga_ioctl_direct_bytenum_t` with `fchid`. -/
structure FpgaIoctlBytenum where
  /-- `lane`. -/
  lane : BitVec 32
  /-- `reg_id`. -/
  regId : BitVec 16
  /-- `cid_fchid`. -/
  cidFchid : BitVec 16
  /-- `byte_num`. -/
  byteNum : BitVec 64
  deriving DecidableEq

/-- `fpga_ioctl_err_all_t`. -/
structure FpgaIoctlErrAll where
  /-- `lane`. -/
  lane : BitVec 32
  /-- `err_all`. -/
  errAll : BitVec 32
  deriving DecidableEq

/-- `fpga_ioctl_chain_err_t`. -/
structure FpgaIoctlChainErr where
  /-- `lane`. -/
  lane : BitVec 32
  /-- `extif_id`. -/
  extifId : BitVec 8
  /-- `dir`. -/
  dir : BitVec 8
  /-- `cid_fchid`. -/
  cidFchid : BitVec 16
  /-- What is wrong with a header. -/
  (headerMarker payloadLen headerLen headerChksum headerStat : BitVec 8)
  /-- Entries that are not there. -/
  (pointerTableMiss payloadTableMiss conTableMiss : BitVec 8)
  /-- Entries that are disabled. -/
  (pointerTableInvalid payloadTableInvalid conTableInvalid : BitVec 8)
  deriving DecidableEq

/-- `fpga_ioctl_chain_err_table_t`. -/
structure FpgaIoctlChainErrTable where
  /-- `lane`. -/
  lane : BitVec 32
  /-- `extif_id`. -/
  extifId : BitVec 8
  /-- `dir`. -/
  dir : BitVec 8
  /-- `cid_fchid`. -/
  cidFchid : BitVec 16
  /-- `con_table_miss` and `con_table_invalid`. -/
  (conTableMiss conTableInvalid : BitVec 8)
  deriving DecidableEq

/-- `fpga_ioctl_chain_err_prot_t`, and `fpga_ioctl_direct_err_prot_t` with `dir_type`. -/
structure FpgaIoctlErrProt where
  /-- `lane`. -/
  lane : BitVec 32
  /-- `dir`. -/
  dir : BitVec 8
  /-- What is wrong with a frame. -/
  (protCh protLen protSof protEof protReqresp protDatanum : BitVec 8)
  /-- What is wrong with the requests and responses. -/
  (protReqOutstanding protRespOutstanding protMaxDatanum protReqlen protReqresplen : BitVec 8)
  deriving DecidableEq

/-- `fpga_ioctl_chain_err_evt_t`. -/
structure FpgaIoctlChainErrEvt where
  /-- `lane`. -/
  lane : BitVec 32
  /-- `extif_id`. -/
  extifId : BitVec 8
  /-- The events of a connection. -/
  (established closeWait erased synTimeout synAckTimeout timeout : BitVec 8)
  /-- The events of its data. -/
  (recvData sendData recvUrgentData recvRst : BitVec 8)
  deriving DecidableEq

/-- `fpga_ioctl_chain_err_stif_t`. -/
structure FpgaIoctlChainErrStif where
  /-- `lane`. -/
  lane : BitVec 32
  /-- The stalls of the two directions. -/
  (ingressReq ingressResp ingressData egressReq egressResp egressData : BitVec 8)
  /-- Those of both external interfaces. -/
  (extifEvent extifCommand : BitVec 8)
  deriving DecidableEq

/-- `fpga_ioctl_chain_err_cmdfault_t`. -/
structure FpgaIoctlChainErrCmdfault where
  /-- `lane`. -/
  lane : BitVec 32
  /-- `enable`. -/
  enable : BitVec 16
  /-- `cid`. -/
  cid : BitVec 16
  /-- `extif_id`. -/
  extifId : BitVec 8
  deriving DecidableEq

/-- `fpga_ioctl_chain_ctrl_t`, and `fpga_ioctl_direct_ctrl_t`. -/
structure FpgaIoctlCtrl where
  /-- `lane`. -/
  lane : BitVec 32
  /-- `value`. -/
  value : BitVec 32
  deriving DecidableEq

/-- `fpga_ioctl_chain_con_status_t`. -/
structure FpgaIoctlChainConStatus where
  /-- `lane`. -/
  lane : BitVec 32
  /-- `extif_id`. -/
  extifId : BitVec 32
  /-- `cid`. -/
  cid : BitVec 32
  /-- `value`. -/
  value : BitVec 32
  deriving DecidableEq

/-- `fpga_ioctl_direct_err_stif_t`. -/
structure FpgaIoctlDirectErrStif where
  /-- `lane`. -/
  lane : BitVec 32
  /-- The stalls of ingress. -/
  (ingressRcvReq ingressRcvResp ingressRcvData ingressSndReq ingressSndResp ingressSndData :
    BitVec 8)
  /-- Those of egress. -/
  (egressRcvReq egressRcvResp egressRcvData egressSndReq egressSndResp egressSndData : BitVec 8)
  deriving DecidableEq

/-! ### The selectors -/

/-- `FPGA_EXTIF_NUMBER_*`. -/
inductive ExtifNumber where
  /-- `FPGA_EXTIF_NUMBER_0`. -/
  | zero
  /-- `FPGA_EXTIF_NUMBER_1`. -/
  | one
  deriving DecidableEq

/-- An `extif_id`, if it is one of the two. -/
def extifNumber {w : ℕ} (extifId : BitVec w) : Option ExtifNumber :=
  if extifId = 0 then some .zero else if extifId = 1 then some .one else none

/-- A `dir`, if it is one of the two. -/
def cidKind (dir : BitVec 8) : Option CidKind :=
  if dir = 0 then some .ingress else if dir = 1 then some .egress else none

/-- The kinds of `DIRECT_REG_COUNTER` and `DIRECT_DIR_KIND`. -/
inductive DirectKind where
  /-- `*_INGR_RCV`. -/
  | ingrRcv
  /-- `*_INGR_SND`. -/
  | ingrSnd
  /-- `*_EGR_RCV`. -/
  | egrRcv
  /-- `*_EGR_SND`. -/
  | egrSnd
  deriving DecidableEq

/-- A `reg_id` or `dir_type` of the direct module, if it is one of the four. -/
def directKind {w : ℕ} (id : BitVec w) : Option DirectKind :=
  if id = 0 then some .ingrRcv else if id = 1 then some .ingrSnd
  else if id = 2 then some .egrRcv else if id = 3 then some .egrSnd else none

/-- The four registers of a fault. -/
inductive FaultView where
  /-- The fault. -/
  | value
  /-- `*_MASK`. -/
  | mask
  /-- `*_FORCE`. -/
  | force
  /-- `*_INS`. -/
  | ins
  deriving DecidableEq

/-! ### The registers of the chain module -/

/-- `XPCIE_FPGA_CHAIN_CONTROL`. -/
def chainControl : BitVec 64 := 0x0000

/-- `XPCIE_FPGA_CHAIN_MODULE_ID`. -/
def chainModuleId : BitVec 64 := 0x0010

/-- `XPCIE_FPGA_CHAIN_STAT_SEL_SESSION`. -/
def chainStatSelSession : BitVec 64 := 0x0300

/-- `XPCIE_FPGA_CHAIN_STAT_SEL_CHANNEL`. -/
def chainStatSelChannel : BitVec 64 := 0x0308

/-- `XPCIE_FPGA_CHAIN_INGR_LATENCY_*_VALUE` and `XPCIE_FPGA_CHAIN_EGR_LATENCY_*_VALUE`. -/
def chainLatency : CidKind → ExtifNumber → BitVec 64
  | .ingress, .zero => 0x0320
  | .ingress, .one => 0x0324
  | .egress, .zero => 0x0328
  | .egress, .one => 0x032C

/-- `XPCIE_FPGA_CHAIN_FUNC_LATENCY_VALUE`. -/
def chainFuncLatency : BitVec 64 := 0x0330

/-- What `xpcie_fpga_get_chain_bytes` selects with and reads, low word first. -/
def chainBytesRegs (regId : BitVec 16) : Option (BitVec 64 × BitVec 64 × BitVec 64) :=
  match regId.toNat with
  | 0 => some (chainStatSelSession, 0x0340, 0x0344)
  | 1 => some (chainStatSelSession, 0x0348, 0x034C)
  | 2 => some (chainStatSelChannel, 0x0350, 0x0354)
  | 3 => some (chainStatSelChannel, 0x0358, 0x035C)
  | 4 => some (chainStatSelChannel, 0x0360, 0x0364)
  | 5 => some (chainStatSelChannel, 0x0368, 0x036C)
  | 6 => some (chainStatSelSession, 0x0370, 0x0374)
  | 7 => some (chainStatSelSession, 0x0378, 0x037C)
  | 8 => some (chainStatSelChannel, 0x03A0, 0x03A4)
  | 9 => some (chainStatSelChannel, 0x03A8, 0x03AC)
  | 10 => some (chainStatSelChannel, 0x03B0, 0x03B4)
  | 11 => some (chainStatSelChannel, 0x03B8, 0x03BC)
  | _ => none

/-- What `xpcie_fpga_get_chain_frames` reads. -/
def chainFramesReg (regId : BitVec 16) : Option (BitVec 64) :=
  match regId.toNat with
  | 2 => some 0x0380
  | 3 => some 0x0384
  | 4 => some 0x0388
  | 5 => some 0x038C
  | _ => none

/-- `XPCIE_FPGA_CHAIN_STAT_HEADER_BUFF_STORED`. -/
def chainHeaderBuffStored : BitVec 64 := 0x0400

/-- `XPCIE_FPGA_CHAIN_STAT_HEADER_BUFF_BP`. -/
def chainHeaderBuffBp : BitVec 64 := 0x0404

/-- `XPCIE_FPGA_CHAIN_STAT_EGR_BUSY`. -/
def chainEgrBusy : BitVec 64 := 0x040C

/-- `XPCIE_FPGA_CHAIN_EXTIF*_SESSION_STATUS`. -/
def chainSessionStatus : ExtifNumber → BitVec 64
  | .zero => 0x0410
  | .one => 0x0414

/-- `XPCIE_FPGA_CHAIN_DETECT_FAULT`. -/
def chainDetectFault : BitVec 64 := 0x0500

/-- `XPCIE_FPGA_CHAIN_INGR_RCV_DETECT_FAULT_*` and `XPCIE_FPGA_CHAIN_EGR_SND_DETECT_FAULT_*`. -/
def chainErrReg : FaultView → CidKind → ExtifNumber → BitVec 64
  | .value, .ingress, .zero => 0x0510
  | .mask, .ingress, .zero => 0x0518
  | .force, .ingress, .zero => 0x051C
  | .ins, .ingress, .zero => 0x0600
  | .value, .ingress, .one => 0x0520
  | .mask, .ingress, .one => 0x0528
  | .force, .ingress, .one => 0x052C
  | .ins, .ingress, .one => 0x0604
  | .value, .egress, .zero => 0x0560
  | .mask, .egress, .zero => 0x0568
  | .force, .egress, .zero => 0x056C
  | .ins, .egress, .zero => 0x0608
  | .value, .egress, .one => 0x0570
  | .mask, .egress, .one => 0x0578
  | .force, .egress, .one => 0x057C
  | .ins, .egress, .one => 0x060C

/-- `XPCIE_FPGA_CHAIN_INGR_SND_DETECT_FAULT_*`, which has no `_INS`. -/
def chainErrTableIngrReg : FaultView → ExtifNumber → BitVec 64
  | .mask, .zero => 0x0538
  | .force, .zero => 0x053C
  | _, .zero => 0x0530
  | .mask, .one => 0x0548
  | .force, .one => 0x054C
  | _, .one => 0x0540

/-- `XPCIE_FPGA_CHAIN_EGR_RCV_DETECT_FAULT_*`. -/
def chainErrTableEgrReg : FaultView → BitVec 64
  | .mask => 0x0558
  | .force => 0x055C
  | _ => 0x0550

/-- `XPCIE_FPGA_CHAIN_INGR_SND_PROTOCOL_FAULT*` and `XPCIE_FPGA_CHAIN_EGR_RCV_PROTOCOL_FAULT*`. -/
def chainErrProtReg : FaultView → CidKind → BitVec 64
  | .value, .ingress => 0x0580
  | .mask, .ingress => 0x0588
  | .force, .ingress => 0x058C
  | .ins, .ingress => 0x0610
  | .value, .egress => 0x0590
  | .mask, .egress => 0x0598
  | .force, .egress => 0x059C
  | .ins, .egress => 0x0614

/-- `XPCIE_FPGA_CHAIN_EXTIF*_EVENT_FAULT*`. -/
def chainErrEvtReg : FaultView → ExtifNumber → BitVec 64
  | .mask, .zero => 0x05A8
  | .force, .zero => 0x05AC
  | _, .zero => 0x05A0
  | .mask, .one => 0x05B8
  | .force, .one => 0x05BC
  | _, .one => 0x05B0

/-- `XPCIE_FPGA_CHAIN_STREAMIF_STALL*`. -/
def chainErrStifReg : FaultView → BitVec 64
  | .mask => 0x05C8
  | .force => 0x05CC
  | _ => 0x05C0

/-- `XPCIE_FPGA_CHAIN_EXTIF*_CMDFAULT_INS`. -/
def chainCmdfaultIns : ExtifNumber → BitVec 64
  | .zero => 0x0618
  | .one => 0x061C

/-! ### The registers of the direct module -/

/-- `XPCIE_FPGA_DIRECT_CONTROL`. -/
def directControl : BitVec 64 := 0x0000

/-- `XPCIE_FPGA_DIRECT_MODULE_ID`. -/
def directModuleId : BitVec 64 := 0x0010

/-- `XPCIE_FPGA_DIRECT_STAT_SEL_CHANNEL`. -/
def directStatSelChannel : BitVec 64 := 0x0040

/-- `XPCIE_FPGA_DIRECT_STAT_*_DATA_VALUE_L` and `_H`. -/
def directBytesRegs : DirectKind → BitVec 64 × BitVec 64
  | .ingrRcv => (0x0050, 0x0054)
  | .ingrSnd => (0x0058, 0x005C)
  | .egrRcv => (0x0060, 0x0064)
  | .egrSnd => (0x0068, 0x006C)

/-- `XPCIE_FPGA_DIRECT_STAT_*_FRAME_VALUE`. -/
def directFramesReg : DirectKind → BitVec 64
  | .ingrRcv => 0x0070
  | .ingrSnd => 0x0074
  | .egrRcv => 0x0078
  | .egrSnd => 0x007C

/-- `XPCIE_FPGA_DIRECT_DETECT_FAULT`. -/
def directDetectFault : BitVec 64 := 0x0100

/-- `XPCIE_FPGA_DIRECT_*_PROTOCOL_FAULT*`. -/
def directErrProtReg : FaultView → DirectKind → BitVec 64
  | .value, .ingrRcv => 0x0110
  | .mask, .ingrRcv => 0x0118
  | .force, .ingrRcv => 0x011C
  | .ins, .ingrRcv => 0x0180
  | .value, .ingrSnd => 0x0120
  | .mask, .ingrSnd => 0x0128
  | .force, .ingrSnd => 0x012C
  | .ins, .ingrSnd => 0x0184
  | .value, .egrRcv => 0x0130
  | .mask, .egrRcv => 0x0138
  | .force, .egrRcv => 0x013C
  | .ins, .egrRcv => 0x0188
  | .value, .egrSnd => 0x0140
  | .mask, .egrSnd => 0x0148
  | .force, .egrSnd => 0x014C
  | .ins, .egrSnd => 0x018C

/-- `XPCIE_FPGA_DIRECT_STREAMIF_STALL*`. -/
def directErrStifReg : FaultView → BitVec 64
  | .mask => 0x0158
  | .force => 0x015C
  | _ => 0x0150

/-! ### The chain module -/

/-- A field of a register in its `uint8_t`. -/
def regField (value mask : BitVec 32) (shift : ℕ) : BitVec 8 :=
  ((value &&& mask) >>> shift).setWidth 8

/-- Two registers as one number, `value_l` and `value_h`. -/
def readWords (m : FpgaModuleInfo) (addrL addrH : BitVec 64) (lane : BitVec 32) :
    RegProg (BitVec 64) := do
  let valueL ← regRead m addrL lane
  let valueH ← regRead m addrH lane
  pure (valueH ++ valueL)

/-- `XPCIE_FPGA_CHAIN_AXI_EXTIF*_BUFFER_BASE_L`; the registers of one interface follow. -/
def chainDdrBase : ExtifNumber → BitVec 64
  | .zero => 0x0100
  | .one => 0x0140

/-- `xpcie_fpga_get_ddr_offset_frame`. -/
def xpcieFpgaGetDdrOffsetFrame (m : FpgaModuleInfo) (chainDdr : FpgaIoctlChainDdr) :
    RegProg FpgaIoctlChainDdr :=
  match extifNumber chainDdr.extifId with
  | some extif => do
    let reg := chainDdrBase extif
    let base ← readWords m reg (reg + 0x04) chainDdr.lane
    let rxOffset ← readWords m (reg + 0x10) (reg + 0x14) chainDdr.lane
    let rxStride ← regRead m (reg + 0x18) chainDdr.lane
    let rxSize ← regRead m (reg + 0x1C) chainDdr.lane
    let txOffset ← readWords m (reg + 0x20) (reg + 0x24) chainDdr.lane
    let txStride ← regRead m (reg + 0x28) chainDdr.lane
    let txSize ← regRead m (reg + 0x2C) chainDdr.lane
    pure { chainDdr with
      base, rxOffset, rxStride, txOffset, txStride
      rxSize := regField rxSize 0x0000000F 0
      txSize := regField txSize 0x0000000F 0 }
  | none => pure chainDdr

/-- `xpcie_fpga_get_latency_chain`. -/
def xpcieFpgaGetLatencyChain (m : FpgaModuleInfo) (latency : FpgaIoctlChainLatency) :
    RegProg FpgaIoctlChainLatency := do
  regWrite m chainStatSelSession latency.lane (latency.cid.setWidth 32)
  match cidKind latency.dir, extifNumber latency.extifId with
  | some kind, some extif =>
    let value ← regRead m (chainLatency kind extif) latency.lane
    pure { latency with latency := value }
  | _, _ => pure latency

/-- `xpcie_fpga_get_latency_func`. -/
def xpcieFpgaGetLatencyFunc (m : FpgaModuleInfo) (latency : FpgaIoctlChainFuncLatency) :
    RegProg FpgaIoctlChainFuncLatency := do
  regWrite m chainStatSelChannel latency.lane (latency.fchid.setWidth 32)
  let value ← regRead m chainFuncLatency latency.lane
  pure { latency with latency := value }

/-- `xpcie_fpga_get_chain_bytes`. -/
def xpcieFpgaGetChainBytes (m : FpgaModuleInfo) (bytenum : FpgaIoctlBytenum) :
    RegProg FpgaIoctlBytenum :=
  match chainBytesRegs bytenum.regId with
  | some (addrW, addrL, addrH) => do
    regWrite m addrW bytenum.lane (bytenum.cidFchid.setWidth 32)
    let byteNum ← readWords m addrL addrH bytenum.lane
    pure { bytenum with byteNum }
  | none => pure bytenum

/-- The functions that select a channel and read a number of frames. -/
def getFramenum (m : FpgaModuleInfo) (sel addr : BitVec 64) (framenum : FpgaIoctlFramenum) :
    RegProg FpgaIoctlFramenum := do
  regWrite m sel framenum.lane (framenum.fchid.setWidth 32)
  let frameNum ← regRead m addr framenum.lane
  pure { framenum with frameNum }

/-- `xpcie_fpga_get_chain_frames`. -/
def xpcieFpgaGetChainFrames (m : FpgaModuleInfo) (framenum : FpgaIoctlFramenum) :
    RegProg FpgaIoctlFramenum :=
  match chainFramesReg framenum.regId with
  | some addr => getFramenum m chainStatSelChannel addr framenum
  | none => pure framenum

/-- `xpcie_fpga_get_chain_buff`. -/
def xpcieFpgaGetChainBuff (m : FpgaModuleInfo) : FpgaIoctlFramenum → RegProg FpgaIoctlFramenum :=
  getFramenum m chainStatSelChannel chainHeaderBuffStored

/-- `xpcie_fpga_get_chain_bp`. -/
def xpcieFpgaGetChainBp (m : FpgaModuleInfo) : FpgaIoctlFramenum → RegProg FpgaIoctlFramenum :=
  getFramenum m chainStatSelChannel chainHeaderBuffBp

/-- `xpcie_fpga_get_chain_busy`. -/
def xpcieFpgaGetChainBusy (m : FpgaModuleInfo) : FpgaIoctlFramenum → RegProg FpgaIoctlFramenum :=
  getFramenum m chainStatSelChannel chainEgrBusy

/-- `xpcie_fpga_check_chain_err`, and `xpcie_fpga_check_direct_err`. -/
def checkErr (m : FpgaModuleInfo) (addr : BitVec 64) (err : FpgaIoctlErrAll) :
    RegProg FpgaIoctlErrAll := do
  let errAll ← regRead m addr err.lane
  pure { err with errAll }

/-- What `value` says of the faults in the headers. -/
def FpgaIoctlChainErr.decode (chainErr : FpgaIoctlChainErr) (value : BitVec 32) :
    FpgaIoctlChainErr :=
  { chainErr with
    headerMarker := regField value 0x00000001 0
    payloadLen := regField value 0x00000002 1
    headerLen := regField value 0x00000004 2
    headerChksum := regField value 0x00000008 3
    headerStat := regField value 0x00000FF0 4
    pointerTableMiss := regField value 0x00001000 12
    payloadTableMiss := regField value 0x00002000 13
    pointerTableInvalid := regField value 0x00010000 16
    payloadTableInvalid := regField value 0x00020000 17 }

/-- `value` after the `if`s on `dir` and `extif_id`, and before them. -/
def chainErrValue (m : FpgaModuleInfo) (view : FaultView) (value : BitVec 32)
    (chainErr : FpgaIoctlChainErr) : RegProg (BitVec 32) :=
  match cidKind chainErr.dir, extifNumber chainErr.extifId with
  | some kind, some extif => regRead m (chainErrReg view kind extif) chainErr.lane
  | _, _ => pure value

/-- `xpcie_fpga_detect_chain_err`. -/
def xpcieFpgaDetectChainErr (m : FpgaModuleInfo) (value : BitVec 32) (chainErr : FpgaIoctlChainErr) :
    RegProg FpgaIoctlChainErr := do
  match cidKind chainErr.dir with
  | some _ => regWrite m chainStatSelSession chainErr.lane (chainErr.cidFchid.setWidth 32)
  | none => pure ()
  let value ← chainErrValue m .value value chainErr
  pure (chainErr.decode value)

/-- `xpcie_fpga_get_mask_chain_err`. -/
def xpcieFpgaGetMaskChainErr (m : FpgaModuleInfo) (value : BitVec 32)
    (chainErr : FpgaIoctlChainErr) : RegProg FpgaIoctlChainErr := do
  let value ← chainErrValue m .mask value chainErr
  pure (chainErr.decode value)

/-- `xpcie_fpga_get_force_chain_err`. -/
def xpcieFpgaGetForceChainErr (m : FpgaModuleInfo) (value : BitVec 32)
    (chainErr : FpgaIoctlChainErr) : RegProg FpgaIoctlChainErr := do
  let value ← chainErrValue m .force value chainErr
  pure (chainErr.decode value)

/-- `xpcie_fpga_get_ins_chain_err`, which decodes in the branches. -/
def xpcieFpgaGetInsChainErr (m : FpgaModuleInfo) (value : BitVec 32)
    (chainErr : FpgaIoctlChainErr) : RegProg FpgaIoctlChainErr :=
  match cidKind chainErr.dir with
  | some .ingress => do
    let value ← chainErrValue m .ins value chainErr
    pure { chainErr with
      pointerTableInvalid := regField value 0x00000001 0
      payloadTableInvalid := regField value 0x00000002 1
      conTableInvalid := regField value 0x00000004 2 }
  | some .egress => do
    let value ← chainErrValue m .ins value chainErr
    pure { chainErr with
      headerMarker := regField value 0x00000001 0
      payloadLen := regField value 0x00000002 1
      headerLen := regField value 0x00000004 2
      headerChksum := regField value 0x00000008 3
      headerStat := regField value 0x00000FF0 4
      pointerTableInvalid := regField value 0x00010000 16
      payloadTableInvalid := regField value 0x00020000 17
      conTableInvalid := regField value 0x00040000 18 }
  | none => pure chainErr

/-- What `value` says of the faults in the tables. -/
def FpgaIoctlChainErrTable.decode (chainErr : FpgaIoctlChainErrTable) (value : BitVec 32) :
    FpgaIoctlChainErrTable :=
  { chainErr with
    conTableMiss := regField value 0x00000001 0
    conTableInvalid := regField value 0x00010000 16 }

/-- `value` after the `if`s. -/
def chainErrTableValue (m : FpgaModuleInfo) (view : FaultView) (value : BitVec 32)
    (chainErr : FpgaIoctlChainErrTable) : RegProg (BitVec 32) :=
  match cidKind chainErr.dir, extifNumber chainErr.extifId with
  | some .ingress, some extif => regRead m (chainErrTableIngrReg view extif) chainErr.lane
  | some .egress, _ => regRead m (chainErrTableEgrReg view) chainErr.lane
  | _, _ => pure value

/-- `xpcie_fpga_detect_chain_err_table`. -/
def xpcieFpgaDetectChainErrTable (m : FpgaModuleInfo) (value : BitVec 32)
    (chainErr : FpgaIoctlChainErrTable) : RegProg FpgaIoctlChainErrTable := do
  match cidKind chainErr.dir with
  | some .ingress => regWrite m chainStatSelSession chainErr.lane (chainErr.cidFchid.setWidth 32)
  | some .egress => regWrite m chainStatSelChannel chainErr.lane (chainErr.cidFchid.setWidth 32)
  | none => pure ()
  let value ← chainErrTableValue m .value value chainErr
  pure (chainErr.decode value)

/-- `xpcie_fpga_get_mask_chain_err_table`. -/
def xpcieFpgaGetMaskChainErrTable (m : FpgaModuleInfo) (value : BitVec 32)
    (chainErr : FpgaIoctlChainErrTable) : RegProg FpgaIoctlChainErrTable := do
  let value ← chainErrTableValue m .mask value chainErr
  pure (chainErr.decode value)

/-- `xpcie_fpga_get_force_chain_err_table`. -/
def xpcieFpgaGetForceChainErrTable (m : FpgaModuleInfo) (value : BitVec 32)
    (chainErr : FpgaIoctlChainErrTable) : RegProg FpgaIoctlChainErrTable := do
  let value ← chainErrTableValue m .force value chainErr
  pure (chainErr.decode value)

/-- What `value` says of the faults in the protocol, for either module. -/
def FpgaIoctlErrProt.decode (errProt : FpgaIoctlErrProt) (value : BitVec 32) : FpgaIoctlErrProt :=
  { errProt with
    protCh := regField value 0x00000001 0
    protLen := regField value 0x00000002 1
    protSof := regField value 0x00000004 2
    protEof := regField value 0x00000008 3
    protReqresp := regField value 0x00000010 4
    protDatanum := regField value 0x00000020 5
    protReqOutstanding := regField value 0x00000040 6
    protRespOutstanding := regField value 0x00000080 7
    protMaxDatanum := regField value 0x00000100 8
    protReqlen := regField value 0x00001000 12
    protReqresplen := regField value 0x00002000 13 }

/-- The four functions on protocol faults, by the register. -/
def getChainErrProt (m : FpgaModuleInfo) (view : FaultView) (value : BitVec 32)
    (errProt : FpgaIoctlErrProt) : RegProg FpgaIoctlErrProt := do
  let value ← match cidKind errProt.dir with
    | some kind => regRead m (chainErrProtReg view kind) errProt.lane
    | none => pure value
  pure (errProt.decode value)

/-- `xpcie_fpga_detect_chain_err_prot`. -/
def xpcieFpgaDetectChainErrProt (m : FpgaModuleInfo) :
    BitVec 32 → FpgaIoctlErrProt → RegProg FpgaIoctlErrProt := getChainErrProt m .value

/-- `xpcie_fpga_get_mask_chain_err_prot`. -/
def xpcieFpgaGetMaskChainErrProt (m : FpgaModuleInfo) :
    BitVec 32 → FpgaIoctlErrProt → RegProg FpgaIoctlErrProt := getChainErrProt m .mask

/-- `xpcie_fpga_get_force_chain_err_prot`. -/
def xpcieFpgaGetForceChainErrProt (m : FpgaModuleInfo) :
    BitVec 32 → FpgaIoctlErrProt → RegProg FpgaIoctlErrProt := getChainErrProt m .force

/-- `xpcie_fpga_get_ins_chain_err_prot`. -/
def xpcieFpgaGetInsChainErrProt (m : FpgaModuleInfo) :
    BitVec 32 → FpgaIoctlErrProt → RegProg FpgaIoctlErrProt := getChainErrProt m .ins

/-- What `value` says of the events. -/
def FpgaIoctlChainErrEvt.decode (errEvt : FpgaIoctlChainErrEvt) (value : BitVec 32) :
    FpgaIoctlChainErrEvt :=
  { errEvt with
    established := regField value 0x00000001 0
    closeWait := regField value 0x00000002 1
    erased := regField value 0x00000004 2
    synTimeout := regField value 0x00000008 3
    synAckTimeout := regField value 0x00000010 4
    timeout := regField value 0x00000020 5
    recvData := regField value 0x00000040 6
    sendData := regField value 0x00000080 7
    recvUrgentData := regField value 0x00000100 8
    recvRst := regField value 0x00000200 9 }

/-- The three functions on events, by the register. -/
def getChainErrEvt (m : FpgaModuleInfo) (view : FaultView) (value : BitVec 32)
    (errEvt : FpgaIoctlChainErrEvt) : RegProg FpgaIoctlChainErrEvt := do
  let value ← match extifNumber errEvt.extifId with
    | some extif => regRead m (chainErrEvtReg view extif) errEvt.lane
    | none => pure value
  pure (errEvt.decode value)

/-- `xpcie_fpga_detect_chain_err_evt`. -/
def xpcieFpgaDetectChainErrEvt (m : FpgaModuleInfo) :
    BitVec 32 → FpgaIoctlChainErrEvt → RegProg FpgaIoctlChainErrEvt := getChainErrEvt m .value

/-- `xpcie_fpga_get_mask_chain_err_evt`. -/
def xpcieFpgaGetMaskChainErrEvt (m : FpgaModuleInfo) :
    BitVec 32 → FpgaIoctlChainErrEvt → RegProg FpgaIoctlChainErrEvt := getChainErrEvt m .mask

/-- `xpcie_fpga_get_force_chain_err_evt`. -/
def xpcieFpgaGetForceChainErrEvt (m : FpgaModuleInfo) :
    BitVec 32 → FpgaIoctlChainErrEvt → RegProg FpgaIoctlChainErrEvt := getChainErrEvt m .force

/-- What `value` says of the stalls; the second interface gives the second bit. -/
def FpgaIoctlChainErrStif.decode (errStif : FpgaIoctlChainErrStif) (value : BitVec 32) :
    FpgaIoctlChainErrStif :=
  { errStif with
    ingressReq := regField value 0x00000001 0
    ingressResp := regField value 0x00000002 1
    ingressData := regField value 0x00000004 2
    egressReq := regField value 0x00000008 3
    egressResp := regField value 0x00000010 4
    egressData := regField value 0x00000020 5
    extifEvent := regField value 0x00000040 6 ||| regField value 0x00000100 7
    extifCommand := regField value 0x00000080 7 ||| regField value 0x00000200 8 }

/-- The three functions on stalls, by the register. -/
def getChainErrStif (m : FpgaModuleInfo) (view : FaultView) (errStif : FpgaIoctlChainErrStif) :
    RegProg FpgaIoctlChainErrStif := do
  let value ← regRead m (chainErrStifReg view) errStif.lane
  pure (errStif.decode value)

/-- `xpcie_fpga_detect_chain_err_stif`. -/
def xpcieFpgaDetectChainErrStif (m : FpgaModuleInfo) :
    FpgaIoctlChainErrStif → RegProg FpgaIoctlChainErrStif := getChainErrStif m .value

/-- `xpcie_fpga_get_mask_chain_err_stif`. -/
def xpcieFpgaGetMaskChainErrStif (m : FpgaModuleInfo) :
    FpgaIoctlChainErrStif → RegProg FpgaIoctlChainErrStif := getChainErrStif m .mask

/-- `xpcie_fpga_get_force_chain_err_stif`. -/
def xpcieFpgaGetForceChainErrStif (m : FpgaModuleInfo) :
    FpgaIoctlChainErrStif → RegProg FpgaIoctlChainErrStif := getChainErrStif m .force

/-- `xpcie_fpga_get_ins_chain_err_cmdfault`. -/
def xpcieFpgaGetInsChainErrCmdfault (m : FpgaModuleInfo) (value : BitVec 32)
    (cmdfault : FpgaIoctlChainErrCmdfault) : RegProg FpgaIoctlChainErrCmdfault := do
  let value ← match extifNumber cmdfault.extifId with
    | some extif => regRead m (chainCmdfaultIns extif) cmdfault.lane
    | none => pure value
  pure { cmdfault with
    enable := (value &&& 0x00000001).setWidth 16
    cid := ((value &&& 0xFFFF0000) >>> 16).setWidth 16 }

/-- `xpcie_fpga_get_chain_ctrl`, `xpcie_fpga_get_chain_module_id`, and those of the direct module. -/
def getCtrl (m : FpgaModuleInfo) (addr : BitVec 64) (ctrl : FpgaIoctlCtrl) :
    RegProg FpgaIoctlCtrl := do
  let value ← regRead m addr ctrl.lane
  pure { ctrl with value }

/-- `xpcie_fpga_get_chain_con_status`; `value` stands for `rd_value`. -/
def xpcieFpgaGetChainConStatus (m : FpgaModuleInfo) (value : BitVec 32)
    (status : FpgaIoctlChainConStatus) : RegProg FpgaIoctlChainConStatus := do
  regWrite m chainStatSelSession status.lane (status.cid &&& 0x000001FF)
  let value ← match extifNumber status.extifId with
    | some extif => regRead m (chainSessionStatus extif) status.lane
    | none => pure value
  pure { status with value := value &&& 0x00000001 }

/-! ### The direct module -/

/-- `xpcie_fpga_get_direct_bytes`. -/
def xpcieFpgaGetDirectBytes (m : FpgaModuleInfo) (bytenum : FpgaIoctlBytenum) :
    RegProg FpgaIoctlBytenum :=
  match directKind bytenum.regId with
  | some kind => do
    regWrite m directStatSelChannel bytenum.lane (bytenum.cidFchid.setWidth 32)
    let byteNum ← readWords m (directBytesRegs kind).1 (directBytesRegs kind).2 bytenum.lane
    pure { bytenum with byteNum }
  | none => pure bytenum

/-- `xpcie_fpga_get_direct_frames`, which leaves the `switch` with `addr` as it is. -/
def xpcieFpgaGetDirectFrames (m : FpgaModuleInfo) (addr : BitVec 64)
    (framenum : FpgaIoctlFramenum) : RegProg FpgaIoctlFramenum :=
  let addr := match directKind framenum.regId with
    | some kind => directFramesReg kind
    | none => addr
  getFramenum m directStatSelChannel addr framenum

/-- The four functions on protocol faults, by the register; they return for another `dir_type`. -/
def getDirectErrProt (m : FpgaModuleInfo) (view : FaultView) (errProt : FpgaIoctlErrProt) :
    RegProg FpgaIoctlErrProt :=
  match directKind errProt.dir with
  | some kind => do
    let value ← regRead m (directErrProtReg view kind) errProt.lane
    pure (errProt.decode value)
  | none => pure errProt

/-- `xpcie_fpga_detect_direct_err_prot`. -/
def xpcieFpgaDetectDirectErrProt (m : FpgaModuleInfo) :
    FpgaIoctlErrProt → RegProg FpgaIoctlErrProt := getDirectErrProt m .value

/-- `xpcie_fpga_get_mask_direct_err_prot`. -/
def xpcieFpgaGetMaskDirectErrProt (m : FpgaModuleInfo) :
    FpgaIoctlErrProt → RegProg FpgaIoctlErrProt := getDirectErrProt m .mask

/-- `xpcie_fpga_get_force_direct_err_prot`. -/
def xpcieFpgaGetForceDirectErrProt (m : FpgaModuleInfo) :
    FpgaIoctlErrProt → RegProg FpgaIoctlErrProt := getDirectErrProt m .force

/-- `xpcie_fpga_get_ins_direct_err_prot`. -/
def xpcieFpgaGetInsDirectErrProt (m : FpgaModuleInfo) :
    FpgaIoctlErrProt → RegProg FpgaIoctlErrProt := getDirectErrProt m .ins

/-- What `value` says of the stalls. -/
def FpgaIoctlDirectErrStif.decode (errStif : FpgaIoctlDirectErrStif) (value : BitVec 32) :
    FpgaIoctlDirectErrStif :=
  { errStif with
    ingressRcvReq := regField value 0x00000001 0
    ingressRcvResp := regField value 0x00000002 1
    ingressRcvData := regField value 0x00000004 2
    ingressSndReq := regField value 0x00000008 3
    ingressSndResp := regField value 0x00000010 4
    ingressSndData := regField value 0x00000020 5
    egressRcvReq := regField value 0x00000040 6
    egressRcvResp := regField value 0x00000080 7
    egressRcvData := regField value 0x00000100 8
    egressSndReq := regField value 0x00000200 9
    egressSndResp := regField value 0x00000400 10
    egressSndData := regField value 0x00000800 11 }

/-- The three functions on stalls, by the register. -/
def getDirectErrStif (m : FpgaModuleInfo) (view : FaultView) (errStif : FpgaIoctlDirectErrStif) :
    RegProg FpgaIoctlDirectErrStif := do
  let value ← regRead m (directErrStifReg view) errStif.lane
  pure (errStif.decode value)

/-- `xpcie_fpga_detect_direct_err_stif`. -/
def xpcieFpgaDetectDirectErrStif (m : FpgaModuleInfo) :
    FpgaIoctlDirectErrStif → RegProg FpgaIoctlDirectErrStif := getDirectErrStif m .value

/-- `xpcie_fpga_get_mask_direct_err_stif`. -/
def xpcieFpgaGetMaskDirectErrStif (m : FpgaModuleInfo) :
    FpgaIoctlDirectErrStif → RegProg FpgaIoctlDirectErrStif := getDirectErrStif m .mask

/-- `xpcie_fpga_get_force_direct_err_stif`. -/
def xpcieFpgaGetForceDirectErrStif (m : FpgaModuleInfo) :
    FpgaIoctlDirectErrStif → RegProg FpgaIoctlDirectErrStif := getDirectErrStif m .force

/-! ### The ioctls -/

/-- The modules that the ioctls are about, of a `fpga_dev_info_t`. -/
structure StatModules where
  /-- `mods.chain`. -/
  chain : FpgaModuleInfo
  /-- `mods.direct`. -/
  direct : FpgaModuleInfo

/-- What is on the stack where a function has its `value` (or `rd_value`) and `addr`. -/
structure UnsetLocals where
  /-- `value`. -/
  value : BitVec 32
  /-- `addr`. -/
  addr : BitVec 64

/-- The commands that get something from the two modules, with the user structure. -/
inductive GetCmd where
  /-- `XPCIE_DEV_CHAIN_GET_DDR_OFFSET_FRAME`. -/
  | chainGetDdrOffsetFrame (arg : FpgaIoctlChainDdr)
  /-- `XPCIE_DEV_CHAIN_GET_LATENCY_CHAIN`. -/
  | chainGetLatencyChain (arg : FpgaIoctlChainLatency)
  /-- `XPCIE_DEV_CHAIN_GET_LATENCY_FUNC`. -/
  | chainGetLatencyFunc (arg : FpgaIoctlChainFuncLatency)
  /-- `XPCIE_DEV_CHAIN_GET_CHAIN_BYTES`. -/
  | chainGetChainBytes (arg : FpgaIoctlBytenum)
  /-- `XPCIE_DEV_CHAIN_GET_CHAIN_FRAMES`. -/
  | chainGetChainFrames (arg : FpgaIoctlFramenum)
  /-- `XPCIE_DEV_CHAIN_GET_CHAIN_BUFF`. -/
  | chainGetChainBuff (arg : FpgaIoctlFramenum)
  /-- `XPCIE_DEV_CHAIN_GET_CHAIN_BP`. -/
  | chainGetChainBp (arg : FpgaIoctlFramenum)
  /-- `XPCIE_DEV_CHAIN_GET_EGR_BUSY`. -/
  | chainGetEgrBusy (arg : FpgaIoctlFramenum)
  /-- `XPCIE_DEV_CHAIN_GET_CHK_ERR`. -/
  | chainGetChkErr (arg : FpgaIoctlErrAll)
  /-- `XPCIE_DEV_CHAIN_GET_ERR`. -/
  | chainGetErr (arg : FpgaIoctlChainErr)
  /-- `XPCIE_DEV_CHAIN_GET_ERR_MASK`. -/
  | chainGetErrMask (arg : FpgaIoctlChainErr)
  /-- `XPCIE_DEV_CHAIN_GET_ERR_FORCE`. -/
  | chainGetErrForce (arg : FpgaIoctlChainErr)
  /-- `XPCIE_DEV_CHAIN_ERR_GET_INS`. -/
  | chainErrGetIns (arg : FpgaIoctlChainErr)
  /-- `XPCIE_DEV_CHAIN_GET_ERR_TBL`. -/
  | chainGetErrTbl (arg : FpgaIoctlChainErrTable)
  /-- `XPCIE_DEV_CHAIN_GET_ERR_TBL_MASK`. -/
  | chainGetErrTblMask (arg : FpgaIoctlChainErrTable)
  /-- `XPCIE_DEV_CHAIN_GET_ERR_TBL_FORCE`. -/
  | chainGetErrTblForce (arg : FpgaIoctlChainErrTable)
  /-- `XPCIE_DEV_CHAIN_GET_ERR_PROT`. -/
  | chainGetErrProt (arg : FpgaIoctlErrProt)
  /-- `XPCIE_DEV_CHAIN_GET_ERR_PROT_MASK`. -/
  | chainGetErrProtMask (arg : FpgaIoctlErrProt)
  /-- `XPCIE_DEV_CHAIN_GET_ERR_PROT_FORCE`. -/
  | chainGetErrProtForce (arg : FpgaIoctlErrProt)
  /-- `XPCIE_DEV_CHAIN_ERR_PROT_GET_INS`. -/
  | chainErrProtGetIns (arg : FpgaIoctlErrProt)
  /-- `XPCIE_DEV_CHAIN_GET_ERR_EVT`. -/
  | chainGetErrEvt (arg : FpgaIoctlChainErrEvt)
  /-- `XPCIE_DEV_CHAIN_GET_ERR_EVT_MASK`. -/
  | chainGetErrEvtMask (arg : FpgaIoctlChainErrEvt)
  /-- `XPCIE_DEV_CHAIN_GET_ERR_EVT_FORCE`. -/
  | chainGetErrEvtForce (arg : FpgaIoctlChainErrEvt)
  /-- `XPCIE_DEV_CHAIN_GET_ERR_STIF`. -/
  | chainGetErrStif (arg : FpgaIoctlChainErrStif)
  /-- `XPCIE_DEV_CHAIN_GET_ERR_STIF_MASK`. -/
  | chainGetErrStifMask (arg : FpgaIoctlChainErrStif)
  /-- `XPCIE_DEV_CHAIN_GET_ERR_STIF_FORCE`. -/
  | chainGetErrStifForce (arg : FpgaIoctlChainErrStif)
  /-- `XPCIE_DEV_CHAIN_ERR_CMDFAULT_GET_INS`. -/
  | chainErrCmdfaultGetIns (arg : FpgaIoctlChainErrCmdfault)
  /-- `XPCIE_DEV_CHAIN_GET_MODULE`. -/
  | chainGetModule (arg : FpgaIoctlCtrl)
  /-- `XPCIE_DEV_CHAIN_GET_MODULE_ID`. -/
  | chainGetModuleId (arg : FpgaIoctlCtrl)
  /-- `XPCIE_DEV_CHAIN_GET_CONNECTION`. -/
  | chainGetConnection (arg : FpgaIoctlChainConStatus)
  /-- `XPCIE_DEV_DIRECT_GET_BYTES`. -/
  | directGetBytes (arg : FpgaIoctlBytenum)
  /-- `XPCIE_DEV_DIRECT_GET_FRAMES`. -/
  | directGetFrames (arg : FpgaIoctlFramenum)
  /-- `XPCIE_DEV_DIRECT_GET_ERR_ALL`. -/
  | directGetErrAll (arg : FpgaIoctlErrAll)
  /-- `XPCIE_DEV_DIRECT_GET_ERR_PROT`. -/
  | directGetErrProt (arg : FpgaIoctlErrProt)
  /-- `XPCIE_DEV_DIRECT_GET_ERR_PROT_MASK`. -/
  | directGetErrProtMask (arg : FpgaIoctlErrProt)
  /-- `XPCIE_DEV_DIRECT_GET_ERR_PROT_FORCE`. -/
  | directGetErrProtForce (arg : FpgaIoctlErrProt)
  /-- `XPCIE_DEV_DIRECT_ERR_PROT_GET_INS`. -/
  | directErrProtGetIns (arg : FpgaIoctlErrProt)
  /-- `XPCIE_DEV_DIRECT_GET_ERR_STIF`. -/
  | directGetErrStif (arg : FpgaIoctlDirectErrStif)
  /-- `XPCIE_DEV_DIRECT_GET_ERR_STIF_MASK`. -/
  | directGetErrStifMask (arg : FpgaIoctlDirectErrStif)
  /-- `XPCIE_DEV_DIRECT_GET_ERR_STIF_FORCE`. -/
  | directGetErrStifForce (arg : FpgaIoctlDirectErrStif)
  /-- `XPCIE_DEV_DIRECT_GET_MODULE`. -/
  | directGetModule (arg : FpgaIoctlCtrl)
  /-- `XPCIE_DEV_DIRECT_GET_MODULE_ID`. -/
  | directGetModuleId (arg : FpgaIoctlCtrl)
  deriving DecidableEq

/-- The case of a command: the structure that is copied out, if the function of the module finds
`unset` on its stack. -/
def GetCmd.handle (dev : StatModules) (unset : UnsetLocals) : GetCmd → RegProg GetCmd
  | .chainGetDdrOffsetFrame arg =>
    .chainGetDdrOffsetFrame <$> xpcieFpgaGetDdrOffsetFrame dev.chain arg
  | .chainGetLatencyChain arg => .chainGetLatencyChain <$> xpcieFpgaGetLatencyChain dev.chain arg
  | .chainGetLatencyFunc arg => .chainGetLatencyFunc <$> xpcieFpgaGetLatencyFunc dev.chain arg
  | .chainGetChainBytes arg => .chainGetChainBytes <$> xpcieFpgaGetChainBytes dev.chain arg
  | .chainGetChainFrames arg => .chainGetChainFrames <$> xpcieFpgaGetChainFrames dev.chain arg
  | .chainGetChainBuff arg => .chainGetChainBuff <$> xpcieFpgaGetChainBuff dev.chain arg
  | .chainGetChainBp arg => .chainGetChainBp <$> xpcieFpgaGetChainBp dev.chain arg
  | .chainGetEgrBusy arg => .chainGetEgrBusy <$> xpcieFpgaGetChainBusy dev.chain arg
  | .chainGetChkErr arg => .chainGetChkErr <$> checkErr dev.chain chainDetectFault arg
  | .chainGetErr arg => .chainGetErr <$> xpcieFpgaDetectChainErr dev.chain unset.value arg
  | .chainGetErrMask arg => .chainGetErrMask <$> xpcieFpgaGetMaskChainErr dev.chain unset.value arg
  | .chainGetErrForce arg =>
    .chainGetErrForce <$> xpcieFpgaGetForceChainErr dev.chain unset.value arg
  | .chainErrGetIns arg => .chainErrGetIns <$> xpcieFpgaGetInsChainErr dev.chain unset.value arg
  | .chainGetErrTbl arg =>
    .chainGetErrTbl <$> xpcieFpgaDetectChainErrTable dev.chain unset.value arg
  | .chainGetErrTblMask arg =>
    .chainGetErrTblMask <$> xpcieFpgaGetMaskChainErrTable dev.chain unset.value arg
  | .chainGetErrTblForce arg =>
    .chainGetErrTblForce <$> xpcieFpgaGetForceChainErrTable dev.chain unset.value arg
  | .chainGetErrProt arg =>
    .chainGetErrProt <$> xpcieFpgaDetectChainErrProt dev.chain unset.value arg
  | .chainGetErrProtMask arg =>
    .chainGetErrProtMask <$> xpcieFpgaGetMaskChainErrProt dev.chain unset.value arg
  | .chainGetErrProtForce arg =>
    .chainGetErrProtForce <$> xpcieFpgaGetForceChainErrProt dev.chain unset.value arg
  | .chainErrProtGetIns arg =>
    .chainErrProtGetIns <$> xpcieFpgaGetInsChainErrProt dev.chain unset.value arg
  | .chainGetErrEvt arg => .chainGetErrEvt <$> xpcieFpgaDetectChainErrEvt dev.chain unset.value arg
  | .chainGetErrEvtMask arg =>
    .chainGetErrEvtMask <$> xpcieFpgaGetMaskChainErrEvt dev.chain unset.value arg
  | .chainGetErrEvtForce arg =>
    .chainGetErrEvtForce <$> xpcieFpgaGetForceChainErrEvt dev.chain unset.value arg
  | .chainGetErrStif arg => .chainGetErrStif <$> xpcieFpgaDetectChainErrStif dev.chain arg
  | .chainGetErrStifMask arg => .chainGetErrStifMask <$> xpcieFpgaGetMaskChainErrStif dev.chain arg
  | .chainGetErrStifForce arg =>
    .chainGetErrStifForce <$> xpcieFpgaGetForceChainErrStif dev.chain arg
  | .chainErrCmdfaultGetIns arg =>
    .chainErrCmdfaultGetIns <$> xpcieFpgaGetInsChainErrCmdfault dev.chain unset.value arg
  | .chainGetModule arg => .chainGetModule <$> getCtrl dev.chain chainControl arg
  | .chainGetModuleId arg => .chainGetModuleId <$> getCtrl dev.chain chainModuleId arg
  | .chainGetConnection arg =>
    .chainGetConnection <$> xpcieFpgaGetChainConStatus dev.chain unset.value arg
  | .directGetBytes arg => .directGetBytes <$> xpcieFpgaGetDirectBytes dev.direct arg
  | .directGetFrames arg => .directGetFrames <$> xpcieFpgaGetDirectFrames dev.direct unset.addr arg
  | .directGetErrAll arg => .directGetErrAll <$> checkErr dev.direct directDetectFault arg
  | .directGetErrProt arg => .directGetErrProt <$> xpcieFpgaDetectDirectErrProt dev.direct arg
  | .directGetErrProtMask arg =>
    .directGetErrProtMask <$> xpcieFpgaGetMaskDirectErrProt dev.direct arg
  | .directGetErrProtForce arg =>
    .directGetErrProtForce <$> xpcieFpgaGetForceDirectErrProt dev.direct arg
  | .directErrProtGetIns arg => .directErrProtGetIns <$> xpcieFpgaGetInsDirectErrProt dev.direct arg
  | .directGetErrStif arg => .directGetErrStif <$> xpcieFpgaDetectDirectErrStif dev.direct arg
  | .directGetErrStifMask arg =>
    .directGetErrStifMask <$> xpcieFpgaGetMaskDirectErrStif dev.direct arg
  | .directGetErrStifForce arg =>
    .directGetErrStifForce <$> xpcieFpgaGetForceDirectErrStif dev.direct arg
  | .directGetModule arg => .directGetModule <$> getCtrl dev.direct directControl arg
  | .directGetModuleId arg => .directGetModuleId <$> getCtrl dev.direct directModuleId arg

/-- `xpcie_fpga_ioctl_chain` and `xpcie_fpga_ioctl_direct` on these commands: what is copied to the
user, or nothing if `copy_from_user` fails. -/
def xpcieFpgaIoctlGet (dev : StatModules) (copyFromUser : Bool) (unset : UnsetLocals) (cmd : GetCmd) :
    RegProg (Option GetCmd) :=
  if copyFromUser = false then pure none else some <$> cmd.handle dev unset

end HardwareDrivers.Driver
