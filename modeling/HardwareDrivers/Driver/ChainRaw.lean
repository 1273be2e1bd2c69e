import HardwareDrivers.Driver.ChainWords
import HardwareDrivers.Driver.RefcountDev
import HardwareDrivers.Theory.Faults

/-!
# The chain and refcount ioctls, with any arguments

`xpcie_fpga_ioctl_chain` and the two refcount commands of `xpcie_fpga_ioctl` as any process
can call them: the numbers of the user structures are as they come, and a call ends in a
fault where it leaves `fch_dev_table`, accesses the registers of a lane that is not there or
writes through a null pointer.
-/

namespace HardwareDrivers.Driver.RawChain

open Theory

/-! ### The data -/

/-- What a call is not to do. -/
inductive Fault where
  /-- The lane of an entry of `fch_dev_table` is not below 4, or its function chain not below 512. -/
  | index
  /-- The chain module does not have the lane of a register. -/
  | register
  /-- A write through `NULL`. -/
  | null
  deriving DecidableEq

/-- `fpga_id_t`. -/
structure FpgaId where
  /-- `lane`. -/
  lane : BitVec 32
  /-- `extif_id`. -/
  extifId : BitVec 32
  /-- `cid`. -/
  cid : BitVec 16
  /-- `fchid`. -/
  fchid : BitVec 16
  /-- `enable_flag`. -/
  enableFlag : BitVec 8
  /-- `active_flag`. -/
  activeFlag : BitVec 8
  /-- `direct_flag`. -/
  directFlag : BitVec 8
  /-- `virtual_flag`. -/
  virtualFlag : BitVec 8
  /-- `blocking_flag`. -/
  blockingFlag : BitVec 8
  deriving DecidableEq

/-- `fpga_ioctl_chain_ids_t`. -/
structure FpgaIoctlChainIds where
  /-- `lane`. -/
  lane : BitVec 32
  /-- `fchid`. -/
  fchid : BitVec 32
  /-- `ingress_extif_id`. -/
  ingressExtifId : BitVec 32
  /-- `ingress_cid`. -/
  ingressCid : BitVec 32
  /-- `egress_extif_id`. -/
  egressExtifId : BitVec 32
  /-- `egress_cid`. -/
  egressCid : BitVec 32
  deriving DecidableEq

/-- `fpga_ioctl_refcount_t`. -/
structure FpgaIoctlRefcount where
  /-- `cmd`. -/
  cmd : BitVec 32
  /-- `region`. -/
  region : BitVec 32
  /-- `refcount`. -/
  refcount : BitVec 32
  deriving DecidableEq

/-- `fpga_dev_info_t`, with the chain module. -/
structure FpgaDevInfo where
  /-- The chain module, and `fch_dev_table`. -/
  chain : ChainDev
  /-- `mods`. -/
  mods : ModulesInfo

/-- What a call meets outside. -/
structure CallEnv extends ChainEnv where
  /-- A request that the module did not answer in time is carried out after the last poll. -/
  late : Bool
  deriving DecidableEq

/-- Nothing fails. -/
def CallEnv.fine : CallEnv := ⟨.fine, false⟩

/-- What is returned for an error. -/
inductive Errno where
  /-- An error of the chain ioctls. -/
  | chain (e : ChainErrno)
  /-- An error of the refcount ioctls. -/
  | refcount (e : RefcountErrno)
  deriving DecidableEq

/-- What `copy_to_user` copies. -/
inductive UserData where
  /-- An `fpga_id_t`. -/
  | id (id : FpgaId)
  /-- An `fpga_ioctl_chain_ids_t`. -/
  | ids (ids : FpgaIoctlChainIds)
  /-- An `fpga_ioctl_refcount_t`. -/
  | refcount (data : FpgaIoctlRefcount)
  deriving DecidableEq

/-- A request to the chain module. -/
structure ChainRequest where
  /-- The lane. -/
  lane : Lane
  /-- The direction. -/
  kind : CidKind
  /-- The code. -/
  code : BitVec 32
  /-- The index of the entry. -/
  key : BitVec 10
  deriving DecidableEq

/-- The end of a call. -/
structure Done where
  /-- What it returns. -/
  ret : Except Errno Unit
  /-- What was copied to the user. -/
  copied : Option UserData
  /-- The device. -/
  dev : FpgaDevInfo
  /-- What was asked of the module. -/
  request : Option ChainRequest

/-- A call that did nothing but return. -/
def Done.only (ret : Except Errno Unit) (dev : FpgaDevInfo) : Done := ⟨ret, none, dev, none⟩

/-! ### The accesses -/

/-- The lane of a register. -/
def laneRegs (dev : FpgaDevInfo) (lane : BitVec 32) : Except Fault Lane :=
  (indexed (dev.mods.num .chain) .register lane.toNat).map
    (Fin.castLE (Nat.le_of_lt_succ (dev.mods.num .chain).isLt))

/-- The place of an entry of `fch_dev_table`. -/
def tableIndex (lane fchid : BitVec 32) : Except Fault (Lane × Fchid) := do
  let lane ← indexed xpcieKernelLaneMax .index lane.toNat
  let fchid ← indexed (2 ^ 9) .index fchid.toNat
  .ok (lane, BitVec.ofFin fchid)

/-- The device with another entry. -/
def FpgaDevInfo.setEntry (dev : FpgaDevInfo) (lane : Lane) (fchid : Fchid) (kind : CidKind)
    (entry : Option ExtifidCid) : FpgaDevInfo :=
  { dev with chain := dev.chain.setEntry lane fchid kind entry }

/-- What a module that is late makes of its registers. -/
def carryOutLate (chain : ChainDev) (lane : Lane) (kind : CidKind) (code : BitVec 32) : ChainDev :=
  chain.setPort lane kind { (chain.port lane kind).execute kind code with updateResp := 1 }

/-- The registers of a request and its code, and the monitoring. -/
def forwardRequest (dev : FpgaDevInfo) (env : CallEnv) (lane : BitVec 32) (kind : CidKind)
    (params : List (ForwardReg × BitVec 32)) (code : BitVec 32) :
    Except Fault (Bool × ChainRequest × FpgaDevInfo) := do
  let lane ← laneRegs dev lane
  let (done, chain) := (chainRequest lane kind params code).eval (chainExec env.answers) dev.chain
  let request : ChainRequest := ⟨lane, kind, code, (chain.port lane kind).key kind⟩
  if done = false ∧ env.late = true then
    .ok (done, request, { dev with chain := carryOutLate chain lane kind code })
  else .ok (done, request, { dev with chain })

/-! ### The function chain tables -/

/-- `extif_id` and `cid`. -/
def FpgaId.entry (id : FpgaId) : ExtifidCid := ⟨id.extifId, id.cid⟩

/-- The register with the index of an entry. -/
def keyReg : CidKind → ForwardReg
  | .ingress => .session
  | .egress => .channel

/-- What is written there. -/
def keyWord (entry : ExtifidCid) (fchid : BitVec 16) : CidKind → BitVec 32
  | .ingress => entry.session
  | .egress => fchid.setWidth 32

/-- `CHANNEL` of an ingress update. -/
def FpgaId.ingressChannel (id : FpgaId) : BitVec 32 :=
  id.fchid.setWidth 32 ||| flagBit id.enableFlag 16 ||| flagBit id.activeFlag 17 |||
    flagBit id.directFlag 18

/-- `SESSION` of an egress update. -/
def FpgaId.egressSession (id : FpgaId) : BitVec 32 :=
  id.entry.session ||| flagBit id.enableFlag 16 ||| flagBit id.activeFlag 17 |||
    flagBit id.virtualFlag 19 ||| flagBit id.blockingFlag 20

/-- What an update writes to the other register. -/
def FpgaId.word (id : FpgaId) : CidKind → BitVec 32
  | .ingress => id.ingressChannel
  | .egress => id.egressSession

/-- `xpcie_fpga_update_func_chain_table`. -/
def xpcieFpgaUpdateFuncChainTable (dev : FpgaDevInfo) (env : CallEnv) (id : FpgaId)
    (kind : CidKind) : Except Fault Done :=
  if id.entry.Valid then do
    let (done, request, dev) ← forwardRequest dev env id.lane kind
      [(keyReg kind, keyWord id.entry id.fchid kind), (readAddr kind, id.word kind)] 1
    if done then do
      let (lane, fchid) ← tableIndex id.lane (id.fchid.setWidth 32)
      .ok ⟨.ok (), none, dev.setEntry lane fchid kind (some id.entry), some request⟩
    else .ok ⟨.error (.chain .updateTimeout), none, dev, some request⟩
  else .ok (.only (.error (.chain .einval)) dev)

/-- `xpcie_fpga_delete_func_chain_table`, which sets `extif_id` and `cid`. -/
def xpcieFpgaDeleteFuncChainTable (dev : FpgaDevInfo) (env : CallEnv) (id : FpgaId)
    (kind : CidKind) : Except Fault (FpgaId × Done) := do
  let (lane, fchid) ← tableIndex id.lane (id.fchid.setWidth 32)
  match dev.chain.fchDevTable lane fchid kind with
  | none => .ok (id, .only (.error (.chain .noChainFound)) dev)
  | some entry => do
    let (done, request, dev) ← forwardRequest dev env id.lane kind
      [(keyReg kind, keyWord entry id.fchid kind)] 2
    if done then
      .ok ({ id with extifId := entry.extifId, cid := entry.cid },
        ⟨.ok (), none, dev.setEntry lane fchid kind none, some request⟩)
    else .ok (id, ⟨.error (.chain .updateTimeout), none, dev, some request⟩)

/-- What is read for ingress. -/
def FpgaId.readIngress (id : FpgaId) (readVal : BitVec 32) : FpgaId :=
  { id with
    fchid := (readVal &&& 0x1FF).setWidth 16
    enableFlag := readFlag readVal 0x10000 16
    activeFlag := readFlag readVal 0x20000 17
    directFlag := readFlag readVal 0x40000 18 }

/-- What is read for egress. -/
def FpgaId.readEgress (id : FpgaId) (readVal : BitVec 32) : FpgaId :=
  { id with
    extifId := (readVal &&& 0x200) >>> 9
    cid := (readVal &&& 0x1FF).setWidth 16
    enableFlag := readFlag readVal 0x10000 16
    activeFlag := readFlag readVal 0x20000 17
    virtualFlag := readFlag readVal 0x80000 19
    blockingFlag := readFlag readVal 0x100000 20 }

/-- What is read. -/
def FpgaId.readWord (id : FpgaId) (readVal : BitVec 32) : CidKind → FpgaId
  | .ingress => id.readIngress readVal
  | .egress => id.readEgress readVal

/-- The request and the answer of `xpcie_fpga_read_func_chain_table`. -/
def readRequest (dev : FpgaDevInfo) (env : CallEnv) (id : FpgaId) (kind : CidKind) :
    Except Fault (FpgaId × Done) := do
  let (done, request, dev) ← forwardRequest dev env id.lane kind
    [(keyReg kind, keyWord id.entry id.fchid kind)] 3
  if done then
    let readVal := (dev.chain.port request.lane kind).read (readAddr kind)
    .ok (id.readWord readVal kind, ⟨.ok (), none, dev, some request⟩)
  else .ok (id, ⟨.error (.chain .updateTimeout), none, dev, some request⟩)

/-- `xpcie_fpga_read_func_chain_table`, which sets what it reads. -/
def xpcieFpgaReadFuncChainTable (dev : FpgaDevInfo) (env : CallEnv) (id : FpgaId) (kind : CidKind) :
    Except Fault (FpgaId × Done) :=
  match kind with
  | .ingress =>
    if dev.chain.findEntry id.entry then readRequest dev env id .ingress
    else .ok (id, .only (.error (.chain .noChainFound)) dev)
  | .egress => do
    let (lane, fchid) ← tableIndex id.lane (id.fchid.setWidth 32)
    if (dev.chain.fchDevTable lane fchid .egress).isNone then
      .ok (id, .only (.error (.chain .noChainFound)) dev)
    else readRequest dev env id .egress

/-- `extif_id` of an entry as a `uint32_t`. -/
def extifIdWord (entry : Option ExtifidCid) : BitVec 32 := (entry.map (·.extifId)).getD (-1)

/-- `cid` of an entry as a `uint32_t`. -/
def cidWord (entry : Option ExtifidCid) : BitVec 32 := (entry.map (·.cid.setWidth 32)).getD (-1)

/-- `xpcie_fpga_read_chain_soft_table`. -/
def xpcieFpgaReadChainSoftTable (dev : FpgaDevInfo) (ids : FpgaIoctlChainIds) :
    Except Fault FpgaIoctlChainIds := do
  let (lane, fchid) ← tableIndex ids.lane ids.fchid
  let entry := dev.chain.fchDevTable lane fchid
  .ok { ids with
    ingressExtifId := extifIdWord (entry .ingress)
    ingressCid := cidWord (entry .ingress)
    egressExtifId := extifIdWord (entry .egress)
    egressCid := cidWord (entry .egress) }

/-- `xpcie_fpga_reset_chain_soft_table`. -/
def xpcieFpgaResetChainSoftTable (dev : FpgaDevInfo) : FpgaDevInfo :=
  { dev with chain := { dev.chain with fchDevTable := fun _ _ _ => none } }

/-! ### The reference count -/

/-- The variable for the sum holds what the user gave. -/
def FpgaDevInfo.setRefcountGet (dev : FpgaDevInfo) (refcount : BitVec 32) : FpgaDevInfo :=
  { dev with mods.counters.refcountGet := refcount }

/-- `xpcie_refcount_cmd_t` of a word. -/
def refcountCmd (cmd : BitVec 32) : RefcountCmd :=
  if cmd = 0 then .inc
  else if cmd = 1 then .dec
  else if cmd = 2 then .write
  else if cmd = 3 then .clear
  else if cmd = 4 then .get
  else if cmd = 5 then .rst
  else .other cmd.toNat

/-- `__control_refcount_status`; `refcountGet` says whether there is a place for the sum. -/
def controlRefcountStatus {ι : Type} [DecidableEq ι] (refcountList : List ι) (cmd : RefcountCmd)
    (refcountGet : Bool) (s : Refcounts ι) : Except Fault (Except RefcountErrno Unit × Refcounts ι) :=
  if refcountList.isEmpty then .ok (.error .enodev, s)
  else if cmd = .get ∧ refcountGet = false then .error .null
  else .ok (Driver.controlRefcountStatus refcountList cmd s)

/-- `__control_refcount_dev`. -/
def controlRefcountDev (build : BuildOptions) (cmd : RefcountCmd) (refcountGet : Bool)
    (mods : ModulesInfo) : Except Fault (Except RefcountErrno Unit × ModulesInfo) := do
  let (ret, counters) ←
    controlRefcountStatus (refcountListDev build mods.num) cmd refcountGet mods.counters
  .ok (ret, { mods with counters })

/-- `xpcie_fpga_control_refcount`. -/
def xpcieFpgaControlRefcount (build : BuildOptions) (dev : FpgaDevInfo) (cmd region : BitVec 32)
    (refcountGet : Bool) : Except Fault (Except Errno Unit × FpgaDevInfo) :=
  if region = 1 then do
    let (ret, mods) ← controlRefcountDev build (refcountCmd cmd) refcountGet dev.mods
    .ok (ret.mapError .refcount, { dev with mods })
  else .ok (.error (.refcount .einval), dev)

/-! ### The ioctls -/

/-- The commands. -/
inductive Cmd where
  /-- `XPCIE_DEV_CHAIN_UPDATE_TABLE_INGR` and `XPCIE_DEV_CHAIN_UPDATE_TABLE_EGR`. -/
  | updateTable (kind : CidKind) (id : FpgaId)
  /-- `XPCIE_DEV_CHAIN_DELETE_TABLE_INGR` and `XPCIE_DEV_CHAIN_DELETE_TABLE_EGR`. -/
  | deleteTable (kind : CidKind) (id : FpgaId)
  /-- `XPCIE_DEV_CHAIN_READ_TABLE_INGR` and `XPCIE_DEV_CHAIN_READ_TABLE_EGR`. -/
  | readTable (kind : CidKind) (id : FpgaId)
  /-- `XPCIE_DEV_CHAIN_READ_SOFT_TABLE`. -/
  | readSoftTable (ids : FpgaIoctlChainIds)
  /-- `XPCIE_DEV_CHAIN_RESET_SOFT_TABLE`. -/
  | resetSoftTable
  /-- `XPCIE_DEV_DRIVER_SET_REFCOUNT`. -/
  | setRefcount (data : FpgaIoctlRefcount)
  /-- `XPCIE_DEV_DRIVER_GET_REFCOUNT`. -/
  | getRefcount (data : FpgaIoctlRefcount)
  deriving DecidableEq

/-- `copy_to_user` at the end of a call, and what is returned if it fails. -/
def Done.copyToUser (done : Done) (env : CallEnv) (data : UserData) (efault : Errno) : Done :=
  if env.copyToUser = false then { done with ret := .error efault }
  else { done with copied := some data }

/-- A delete or a read: what it set is copied if it succeeded. -/
def ioctlTable (env : CallEnv) (table : Except Fault (FpgaId × Done)) : Except Fault Done := do
  let (id, done) ← table
  match done.ret with
  | .error _ => .ok done
  | .ok _ => .ok (done.copyToUser env (.id id) (.chain .efault))

/-- `xpcie_fpga_ioctl_chain` and `xpcie_fpga_ioctl`, on these commands. -/
def xpcieCdevIoctl (build : BuildOptions) (dev : FpgaDevInfo) (env : CallEnv) :
    Cmd → Except Fault Done
  | .updateTable kind id =>
    if env.copyFromUser = false then .ok (.only (.error (.chain .efault)) dev)
    else xpcieFpgaUpdateFuncChainTable dev env id kind
  | .deleteTable kind id =>
    if env.copyFromUser = false then .ok (.only (.error (.chain .efault)) dev)
    else ioctlTable env (xpcieFpgaDeleteFuncChainTable dev env id kind)
  | .readTable kind id =>
    if env.copyFromUser = false then .ok (.only (.error (.chain .efault)) dev)
    else ioctlTable env (xpcieFpgaReadFuncChainTable dev env id kind)
  | .readSoftTable ids =>
    if env.copyFromUser = false then .ok (.only (.error (.chain .efault)) dev)
    else do
      let ids ← xpcieFpgaReadChainSoftTable dev ids
      .ok ((Done.only (.ok ()) dev).copyToUser env (.ids ids) (.chain .efault))
  | .resetSoftTable => .ok (.only (.ok ()) (xpcieFpgaResetChainSoftTable dev))
  | .setRefcount data =>
    if env.copyFromUser = false then .ok (.only (.error (.refcount .efault)) dev)
    else do
      let (ret, dev) ← xpcieFpgaControlRefcount build dev data.cmd data.region false
      .ok (.only ret dev)
  | .getRefcount data =>
    if env.copyFromUser = false then .ok (.only (.error (.refcount .efault)) dev)
    else do
      let (ret, dev) ← xpcieFpgaControlRefcount build (dev.setRefcountGet data.refcount) data.cmd
        data.region true
      .ok ((Done.only ret dev).copyToUser env
        (.refcount { data with refcount := dev.mods.counters.refcountGet }) (.refcount .efault))

end HardwareDrivers.Driver.RawChain
