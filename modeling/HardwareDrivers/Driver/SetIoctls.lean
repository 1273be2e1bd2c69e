import HardwareDrivers.Driver.GetIoctls
import HardwareDrivers.Theory.BitFields

/-!
# The SET ioctls of the error registers

The functions of the chain and the direct module that set the `*_MASK`, `*_FORCE` and `*_INS` register
of a fault. Each puts the fields of the user structure together to a value, line by line, and writes it
to one register, or to none if a selector is none of the two or four.
-/

namespace HardwareDrivers.Driver

open Theory

/-! ### The values -/

/-- The lines `value |= ((uint32_t)field & mask) << shift`. -/
def packed (layout : List (BitField 32)) (values : List (BitVec 32)) : BitVec 32 :=
  packFields (values.zip layout)

/-- The fields of `fpga_ioctl_chain_err_t` that `xpcie_fpga_mask_chain_err` sets. -/
def FpgaIoctlChainErr.values (chainErr : FpgaIoctlChainErr) : List (BitVec 32) :=
  [chainErr.headerMarker, chainErr.payloadLen, chainErr.headerLen, chainErr.headerChksum,
    chainErr.headerStat, chainErr.pointerTableMiss, chainErr.payloadTableMiss,
    chainErr.pointerTableInvalid, chainErr.payloadTableInvalid].map (BitVec.setWidth 32)

/-- How it sets them. -/
def chainErrLayout : List (BitField 32) :=
  [⟨0x01, 0⟩, ⟨0x01, 1⟩, ⟨0x01, 2⟩, ⟨0x01, 3⟩, ⟨0xFF, 4⟩, ⟨0x01, 12⟩, ⟨0x01, 13⟩, ⟨0x01, 16⟩,
    ⟨0x01, 17⟩]

/-- The fields that `xpcie_fpga_ins_chain_err` sets. -/
def FpgaIoctlChainErr.insValues (chainErr : FpgaIoctlChainErr) : CidKind → List (BitVec 32)
  | .ingress =>
    [chainErr.pointerTableInvalid, chainErr.payloadTableInvalid, chainErr.conTableInvalid].map
      (BitVec.setWidth 32)
  | .egress =>
    [chainErr.headerMarker, chainErr.payloadLen, chainErr.headerLen, chainErr.headerChksum,
      chainErr.headerStat, chainErr.pointerTableInvalid, chainErr.payloadTableInvalid,
      chainErr.conTableInvalid].map (BitVec.setWidth 32)

/-- How it sets them. -/
def chainErrInsLayout : CidKind → List (BitField 32)
  | .ingress => [⟨0x01, 0⟩, ⟨0x01, 1⟩, ⟨0x01, 2⟩]
  | .egress =>
    [⟨0x01, 0⟩, ⟨0x01, 1⟩, ⟨0x01, 2⟩, ⟨0x01, 3⟩, ⟨0xFF, 4⟩, ⟨0x01, 16⟩, ⟨0x01, 17⟩, ⟨0x01, 18⟩]

/-- The fields of `fpga_ioctl_chain_err_table_t`. -/
def FpgaIoctlChainErrTable.values (chainErr : FpgaIoctlChainErrTable) : List (BitVec 32) :=
  [chainErr.conTableMiss, chainErr.conTableInvalid].map (BitVec.setWidth 32)

/-- How `xpcie_fpga_mask_chain_err_table` sets them. -/
def chainErrTableLayout : List (BitField 32) := [⟨0x01, 0⟩, ⟨0x01, 16⟩]

/-- The fields of `fpga_ioctl_chain_err_prot_t` and `fpga_ioctl_direct_err_prot_t`. -/
def FpgaIoctlErrProt.values (errProt : FpgaIoctlErrProt) : List (BitVec 32) :=
  [errProt.protCh, errProt.protLen, errProt.protSof, errProt.protEof, errProt.protReqresp,
    errProt.protDatanum, errProt.protReqOutstanding, errProt.protRespOutstanding,
    errProt.protMaxDatanum, errProt.protReqlen, errProt.protReqresplen].map (BitVec.setWidth 32)

/-- How `xpcie_fpga_mask_chain_err_prot` and `xpcie_fpga_mask_direct_err_prot` set them. -/
def errProtLayout : List (BitField 32) :=
  [⟨0x01, 0⟩, ⟨0x01, 1⟩, ⟨0x01, 2⟩, ⟨0x01, 3⟩, ⟨0x01, 4⟩, ⟨0x01, 5⟩, ⟨0x01, 6⟩, ⟨0x01, 7⟩, ⟨0x01, 8⟩,
    ⟨0x01, 12⟩, ⟨0x01, 13⟩]

/-- The fields of `fpga_ioctl_chain_err_evt_t`. -/
def FpgaIoctlChainErrEvt.values (errEvt : FpgaIoctlChainErrEvt) : List (BitVec 32) :=
  [errEvt.established, errEvt.closeWait, errEvt.erased, errEvt.synTimeout, errEvt.synAckTimeout,
    errEvt.timeout, errEvt.recvData, errEvt.sendData, errEvt.recvUrgentData, errEvt.recvRst].map
      (BitVec.setWidth 32)

/-- How `xpcie_fpga_mask_chain_err_evt` sets them. -/
def chainErrEvtLayout : List (BitField 32) :=
  [⟨0x01, 0⟩, ⟨0x01, 1⟩, ⟨0x01, 2⟩, ⟨0x01, 3⟩, ⟨0x01, 4⟩, ⟨0x01, 5⟩, ⟨0x01, 6⟩, ⟨0x01, 7⟩, ⟨0x01, 8⟩,
    ⟨0x01, 9⟩]

/-- The fields of `fpga_ioctl_chain_err_stif_t`. -/
def FpgaIoctlChainErrStif.values (errStif : FpgaIoctlChainErrStif) : List (BitVec 32) :=
  [errStif.ingressReq, errStif.ingressResp, errStif.ingressData, errStif.egressReq,
    errStif.egressResp, errStif.egressData, errStif.extifEvent, errStif.extifCommand].map
      (BitVec.setWidth 32)

/-- What `xpcie_fpga_mask_chain_err_stif` sets, the last two fields once more. -/
def FpgaIoctlChainErrStif.lines (errStif : FpgaIoctlChainErrStif) : List (BitVec 32) :=
  errStif.values ++ [errStif.extifEvent, errStif.extifCommand].map (BitVec.setWidth 32)

/-- How it sets them: the second bit of the last two fields is apart from the first. -/
def chainErrStifLayout : List (BitField 32) :=
  [⟨0x01, 0⟩, ⟨0x01, 1⟩, ⟨0x01, 2⟩, ⟨0x01, 3⟩, ⟨0x01, 4⟩, ⟨0x01, 5⟩, ⟨0x01, 6⟩, ⟨0x01, 7⟩, ⟨0x02, 7⟩,
    ⟨0x02, 8⟩]

/-- The fields of `fpga_ioctl_chain_err_cmdfault_t`. -/
def FpgaIoctlChainErrCmdfault.values (cmdfault : FpgaIoctlChainErrCmdfault) : List (BitVec 32) :=
  [cmdfault.enable, cmdfault.cid].map (BitVec.setWidth 32)

/-- How `xpcie_fpga_ins_chain_err_cmdfault` sets them. -/
def chainErrCmdfaultLayout : List (BitField 32) := [⟨0x0001, 0⟩, ⟨0xFFFF, 16⟩]

/-- The fields of `fpga_ioctl_direct_err_stif_t`. -/
def FpgaIoctlDirectErrStif.values (errStif : FpgaIoctlDirectErrStif) : List (BitVec 32) :=
  [errStif.ingressRcvReq, errStif.ingressRcvResp, errStif.ingressRcvData, errStif.ingressSndReq,
    errStif.ingressSndResp, errStif.ingressSndData, errStif.egressRcvReq, errStif.egressRcvResp,
    errStif.egressRcvData, errStif.egressSndReq, errStif.egressSndResp, errStif.egressSndData].map
      (BitVec.setWidth 32)

/-- How `xpcie_fpga_mask_direct_err_stif` sets them. -/
def directErrStifLayout : List (BitField 32) :=
  [⟨0x01, 0⟩, ⟨0x01, 1⟩, ⟨0x01, 2⟩, ⟨0x01, 3⟩, ⟨0x01, 4⟩, ⟨0x01, 5⟩, ⟨0x01, 6⟩, ⟨0x01, 7⟩, ⟨0x01, 8⟩,
    ⟨0x01, 9⟩, ⟨0x01, 10⟩, ⟨0x01, 11⟩]

/-! ### The chain module -/

/-- The `if`s on `dir` and `extif_id` of the functions that set faults in the headers. -/
def writeChainErr (m : FpgaModuleInfo) (view : FaultView) (chainErr : FpgaIoctlChainErr)
    (value : BitVec 32) : RegProg Unit :=
  match cidKind chainErr.dir, extifNumber chainErr.extifId with
  | some kind, some extif => regWrite m (chainErrReg view kind extif) chainErr.lane value
  | _, _ => pure ()

/-- `xpcie_fpga_mask_chain_err`. -/
def xpcieFpgaMaskChainErr (m : FpgaModuleInfo) (chainErr : FpgaIoctlChainErr) : RegProg Unit :=
  writeChainErr m .mask chainErr (packed chainErrLayout chainErr.values)

/-- `xpcie_fpga_force_chain_err`. -/
def xpcieFpgaForceChainErr (m : FpgaModuleInfo) (chainErr : FpgaIoctlChainErr) : RegProg Unit :=
  writeChainErr m .force chainErr (packed chainErrLayout chainErr.values)

/-- `xpcie_fpga_ins_chain_err`, which sets other fields for each direction. -/
def xpcieFpgaInsChainErr (m : FpgaModuleInfo) (chainErr : FpgaIoctlChainErr) : RegProg Unit :=
  match cidKind chainErr.dir with
  | some kind =>
    writeChainErr m .ins chainErr (packed (chainErrInsLayout kind) (chainErr.insValues kind))
  | none => pure ()

/-- The `if`s of the functions that set faults in the tables. -/
def writeChainErrTable (m : FpgaModuleInfo) (view : FaultView) (chainErr : FpgaIoctlChainErrTable) :
    RegProg Unit :=
  let value := packed chainErrTableLayout chainErr.values
  match cidKind chainErr.dir, extifNumber chainErr.extifId with
  | some .ingress, some extif => regWrite m (chainErrTableIngrReg view extif) chainErr.lane value
  | some .egress, _ => regWrite m (chainErrTableEgrReg view) chainErr.lane value
  | _, _ => pure ()

/-- `xpcie_fpga_mask_chain_err_table`. -/
def xpcieFpgaMaskChainErrTable (m : FpgaModuleInfo) : FpgaIoctlChainErrTable → RegProg Unit :=
  writeChainErrTable m .mask

/-- `xpcie_fpga_force_chain_err_table`. -/
def xpcieFpgaForceChainErrTable (m : FpgaModuleInfo) : FpgaIoctlChainErrTable → RegProg Unit :=
  writeChainErrTable m .force

/-- The three functions on protocol faults, by the register. -/
def setChainErrProt (m : FpgaModuleInfo) (view : FaultView) (errProt : FpgaIoctlErrProt) :
    RegProg Unit :=
  match cidKind errProt.dir with
  | some kind =>
    regWrite m (chainErrProtReg view kind) errProt.lane (packed errProtLayout errProt.values)
  | none => pure ()

/-- `xpcie_fpga_mask_chain_err_prot`. -/
def xpcieFpgaMaskChainErrProt (m : FpgaModuleInfo) : FpgaIoctlErrProt → RegProg Unit :=
  setChainErrProt m .mask

/-- `xpcie_fpga_force_chain_err_prot`. -/
def xpcieFpgaForceChainErrProt (m : FpgaModuleInfo) : FpgaIoctlErrProt → RegProg Unit :=
  setChainErrProt m .force

/-- `xpcie_fpga_ins_chain_err_prot`. -/
def xpcieFpgaInsChainErrProt (m : FpgaModuleInfo) : FpgaIoctlErrProt → RegProg Unit :=
  setChainErrProt m .ins

/-- The two functions on events, by the register. -/
def setChainErrEvt (m : FpgaModuleInfo) (view : FaultView) (errEvt : FpgaIoctlChainErrEvt) :
    RegProg Unit :=
  match extifNumber errEvt.extifId with
  | some extif =>
    regWrite m (chainErrEvtReg view extif) errEvt.lane (packed chainErrEvtLayout errEvt.values)
  | none => pure ()

/-- `xpcie_fpga_mask_chain_err_evt`. -/
def xpcieFpgaMaskChainErrEvt (m : FpgaModuleInfo) : FpgaIoctlChainErrEvt → RegProg Unit :=
  setChainErrEvt m .mask

/-- `xpcie_fpga_force_chain_err_evt`. -/
def xpcieFpgaForceChainErrEvt (m : FpgaModuleInfo) : FpgaIoctlChainErrEvt → RegProg Unit :=
  setChainErrEvt m .force

/-- The two functions on stalls, by the register. -/
def setChainErrStif (m : FpgaModuleInfo) (view : FaultView) (errStif : FpgaIoctlChainErrStif) :
    RegProg Unit :=
  regWrite m (chainErrStifReg view) errStif.lane (packed chainErrStifLayout errStif.lines)

/-- `xpcie_fpga_mask_chain_err_stif`. -/
def xpcieFpgaMaskChainErrStif (m : FpgaModuleInfo) : FpgaIoctlChainErrStif → RegProg Unit :=
  setChainErrStif m .mask

/-- `xpcie_fpga_force_chain_err_stif`. -/
def xpcieFpgaForceChainErrStif (m : FpgaModuleInfo) : FpgaIoctlChainErrStif → RegProg Unit :=
  setChainErrStif m .force

/-- `xpcie_fpga_ins_chain_err_cmdfault`. -/
def xpcieFpgaInsChainErrCmdfault (m : FpgaModuleInfo) (cmdfault : FpgaIoctlChainErrCmdfault) :
    RegProg Unit :=
  match extifNumber cmdfault.extifId with
  | some extif =>
    regWrite m (chainCmdfaultIns extif) cmdfault.lane (packed chainErrCmdfaultLayout cmdfault.values)
  | none => pure ()

/-! ### The direct module -/

/-- The three functions on protocol faults, by the register. -/
def setDirectErrProt (m : FpgaModuleInfo) (view : FaultView) (errProt : FpgaIoctlErrProt) :
    RegProg Unit :=
  match directKind errProt.dir with
  | some kind =>
    regWrite m (directErrProtReg view kind) errProt.lane (packed errProtLayout errProt.values)
  | none => pure ()

/-- `xpcie_fpga_mask_direct_err_prot`. -/
def xpcieFpgaMaskDirectErrProt (m : FpgaModuleInfo) : FpgaIoctlErrProt → RegProg Unit :=
  setDirectErrProt m .mask

/-- `xpcie_fpga_force_direct_err_prot`. -/
def xpcieFpgaForceDirectErrProt (m : FpgaModuleInfo) : FpgaIoctlErrProt → RegProg Unit :=
  setDirectErrProt m .force

/-- `xpcie_fpga_ins_direct_err_prot`. -/
def xpcieFpgaInsDirectErrProt (m : FpgaModuleInfo) : FpgaIoctlErrProt → RegProg Unit :=
  setDirectErrProt m .ins

/-- The two functions on stalls, by the register. -/
def setDirectErrStif (m : FpgaModuleInfo) (view : FaultView) (errStif : FpgaIoctlDirectErrStif) :
    RegProg Unit :=
  regWrite m (directErrStifReg view) errStif.lane (packed directErrStifLayout errStif.values)

/-- `xpcie_fpga_mask_direct_err_stif`. -/
def xpcieFpgaMaskDirectErrStif (m : FpgaModuleInfo) : FpgaIoctlDirectErrStif → RegProg Unit :=
  setDirectErrStif m .mask

/-- `xpcie_fpga_force_direct_err_stif`. -/
def xpcieFpgaForceDirectErrStif (m : FpgaModuleInfo) : FpgaIoctlDirectErrStif → RegProg Unit :=
  setDirectErrStif m .force

/-! ### The ioctls -/

/-- The commands that set an error register, with the user structure. -/
inductive SetCmd where
  /-- `XPCIE_DEV_CHAIN_SET_ERR_MASK`. -/
  | chainSetErrMask (arg : FpgaIoctlChainErr)
  /-- `XPCIE_DEV_CHAIN_SET_ERR_FORCE`. -/
  | chainSetErrForce (arg : FpgaIoctlChainErr)
  /-- `XPCIE_DEV_CHAIN_ERR_INS`. -/
  | chainErrIns (arg : FpgaIoctlChainErr)
  /-- `XPCIE_DEV_CHAIN_SET_ERR_TBL_MASK`. -/
  | chainSetErrTblMask (arg : FpgaIoctlChainErrTable)
  /-- `XPCIE_DEV_CHAIN_SET_ERR_TBL_FORCE`. -/
  | chainSetErrTblForce (arg : FpgaIoctlChainErrTable)
  /-- `XPCIE_DEV_CHAIN_SET_ERR_PROT_MASK`. -/
  | chainSetErrProtMask (arg : FpgaIoctlErrProt)
  /-- `XPCIE_DEV_CHAIN_SET_ERR_PROT_FORCE`. -/
  | chainSetErrProtForce (arg : FpgaIoctlErrProt)
  /-- `XPCIE_DEV_CHAIN_ERR_PROT_INS`. -/
  | chainErrProtIns (arg : FpgaIoctlErrProt)
  /-- `XPCIE_DEV_CHAIN_SET_ERR_EVT_MASK`. -/
  | chainSetErrEvtMask (arg : FpgaIoctlChainErrEvt)
  /-- `XPCIE_DEV_CHAIN_SET_ERR_EVT_FORCE`. -/
  | chainSetErrEvtForce (arg : FpgaIoctlChainErrEvt)
  /-- `XPCIE_DEV_CHAIN_SET_ERR_STIF_MASK`. -/
  | chainSetErrStifMask (arg : FpgaIoctlChainErrStif)
  /-- `XPCIE_DEV_CHAIN_SET_ERR_STIF_FORCE`. -/
  | chainSetErrStifForce (arg : FpgaIoctlChainErrStif)
  /-- `XPCIE_DEV_CHAIN_ERR_CMDFAULT_INS`. -/
  | chainErrCmdfaultIns (arg : FpgaIoctlChainErrCmdfault)
  /-- `XPCIE_DEV_DIRECT_SET_ERR_PROT_MASK`. -/
  | directSetErrProtMask (arg : FpgaIoctlErrProt)
  /-- `XPCIE_DEV_DIRECT_SET_ERR_PROT_FORCE`. -/
  | directSetErrProtForce (arg : FpgaIoctlErrProt)
  /-- `XPCIE_DEV_DIRECT_ERR_PROT_INS`. -/
  | directErrProtIns (arg : FpgaIoctlErrProt)
  /-- `XPCIE_DEV_DIRECT_SET_ERR_STIF_MASK`. -/
  | directSetErrStifMask (arg : FpgaIoctlDirectErrStif)
  /-- `XPCIE_DEV_DIRECT_SET_ERR_STIF_FORCE`. -/
  | directSetErrStifForce (arg : FpgaIoctlDirectErrStif)
  deriving DecidableEq

/-- The case of a command. -/
def SetCmd.handle (dev : StatModules) : SetCmd → RegProg Unit
  | .chainSetErrMask arg => xpcieFpgaMaskChainErr dev.chain arg
  | .chainSetErrForce arg => xpcieFpgaForceChainErr dev.chain arg
  | .chainErrIns arg => xpcieFpgaInsChainErr dev.chain arg
  | .chainSetErrTblMask arg => xpcieFpgaMaskChainErrTable dev.chain arg
  | .chainSetErrTblForce arg => xpcieFpgaForceChainErrTable dev.chain arg
  | .chainSetErrProtMask arg => xpcieFpgaMaskChainErrProt dev.chain arg
  | .chainSetErrProtForce arg => xpcieFpgaForceChainErrProt dev.chain arg
  | .chainErrProtIns arg => xpcieFpgaInsChainErrProt dev.chain arg
  | .chainSetErrEvtMask arg => xpcieFpgaMaskChainErrEvt dev.chain arg
  | .chainSetErrEvtForce arg => xpcieFpgaForceChainErrEvt dev.chain arg
  | .chainSetErrStifMask arg => xpcieFpgaMaskChainErrStif dev.chain arg
  | .chainSetErrStifForce arg => xpcieFpgaForceChainErrStif dev.chain arg
  | .chainErrCmdfaultIns arg => xpcieFpgaInsChainErrCmdfault dev.chain arg
  | .directSetErrProtMask arg => xpcieFpgaMaskDirectErrProt dev.direct arg
  | .directSetErrProtForce arg => xpcieFpgaForceDirectErrProt dev.direct arg
  | .directErrProtIns arg => xpcieFpgaInsDirectErrProt dev.direct arg
  | .directSetErrStifMask arg => xpcieFpgaMaskDirectErrStif dev.direct arg
  | .directSetErrStifForce arg => xpcieFpgaForceDirectErrStif dev.direct arg

end HardwareDrivers.Driver
