import HardwareDrivers.Theory.Programs
import Mathlib.Data.BitVec

/-!
# The function chain tables

`libxpcie_chain.c`: for each lane the chain module has a table for ingress, by external
interface and connection, and one for egress, by function chain. The driver reaches an
entry through four registers, and remembers in a table of its own what it set.

An ioctl is a program of register accesses and accesses to the table of the driver; the
module answers a request at once or not at all.

## What is proved

* `eval_chainRequest` — a request by itself.
* `update_cases_tables`, `delete_cases_tables`, `read_cases_tables` — what a call does to the
  tables of the module and of the driver.
-/

namespace HardwareDrivers.Driver

open Theory

/-! ### The module -/

/-- `FPGA_CID_KIND`. -/
inductive CidKind where
  /-- `FPGA_CID_KIND_INGRESS`. -/
  | ingress
  /-- `FPGA_CID_KIND_EGRESS`. -/
  | egress
  deriving DecidableEq, Repr

/-- `XPCIE_KERNEL_LANE_MAX`. -/
abbrev xpcieKernelLaneMax : ℕ := 4

/-- An index of the lanes. -/
abbrev Lane := Fin xpcieKernelLaneMax

instance : NeZero xpcieKernelLaneMax := ⟨by decide⟩

/-- A function chain, `XPCIE_FUNCTION_CHAIN_ID_MIN` to `XPCIE_FUNCTION_CHAIN_ID_MAX`. -/
abbrev Fchid := BitVec 9

/-- `extifid_cid_t`, other than the `-1` of both. -/
structure ExtifidCid where
  /-- `extif_id`. -/
  extifId : BitVec 32
  /-- `cid`. -/
  cid : BitVec 16
  deriving DecidableEq

/-- `fpga_id_t`. -/
structure FpgaId where
  /-- `lane`. -/
  lane : Lane
  /-- `extif_id`. -/
  extifId : BitVec 32
  /-- `cid`. -/
  cid : BitVec 16
  /-- `fchid`. -/
  fchid : Fchid
  /-- `enable_flag`. -/
  enableFlag : BitVec 8
  /-- `active_flag`. -/
  activeFlag : BitVec 8
  /-- `direct_flag`. -/
  directFlag : BitVec 8
  /-- `virtual_flag`. -/
  virtualFlag : BitVec 8
  /-- `blocking_flag`. -/
  blockingFlag : BitVec 8
  deriving DecidableEq

/-- The registers of one direction of one lane. -/
inductive ForwardReg where
  /-- `FORWARD_UPDATE_REQ`. -/
  | updateReq
  /-- `FORWARD_UPDATE_RESP`. -/
  | updateResp
  /-- `FORWARD_SESSION`. -/
  | session
  /-- `FORWARD_CHANNEL`. -/
  | channel
  deriving DecidableEq, Repr

/-- A request that the module carried out. -/
structure Executed where
  /-- The code. -/
  code : BitVec 32
  /-- The index of the entry. -/
  key : BitVec 10
  /-- The word that was stored or loaded. -/
  word : BitVec 32
  deriving DecidableEq

/-- One direction of one lane of the module. -/
structure ForwardPort where
  /-- `UPDATE_REQ`. -/
  updateReq : BitVec 32
  /-- `UPDATE_RESP`. -/
  updateResp : BitVec 32
  /-- `SESSION`. -/
  session : BitVec 32
  /-- `CHANNEL`. -/
  channel : BitVec 32
  /-- The entries. -/
  table : BitVec 10 → Option (BitVec 32)
  /-- What was carried out, the last first. -/
  executed : List Executed

/-- The entry the registers point to: ingress is by `SESSION`, egress by `CHANNEL`. -/
def ForwardPort.key (port : ForwardPort) : CidKind → BitVec 10
  | .ingress => port.session.setWidth 10
  | .egress => (port.channel.setWidth 9).setWidth 10

/-- The register with the word of the entry. -/
def ForwardPort.word (port : ForwardPort) : CidKind → BitVec 32
  | .ingress => port.channel
  | .egress => port.session

/-- The module writes the register with the word of the entry. -/
def ForwardPort.setWord (port : ForwardPort) (word : BitVec 32) : CidKind → ForwardPort
  | .ingress => { port with channel := word }
  | .egress => { port with session := word }

/-- The module carries out the code in `UPDATE_REQ` on what the registers hold. -/
def ForwardPort.execute (kind : CidKind) (code : BitVec 32) (port : ForwardPort) : ForwardPort :=
  let key := port.key kind
  if code = 1 then
    { port with
      table := Function.update port.table key (some (port.word kind))
      executed := ⟨code, key, port.word kind⟩ :: port.executed }
  else if code = 2 then
    { port with
      table := Function.update port.table key none
      executed := ⟨code, key, 0⟩ :: port.executed }
  else if code = 3 then
    let word := (port.table key).getD 0
    { port.setWord word kind with executed := ⟨code, key, word⟩ :: port.executed }
  else port

/-- A write to `UPDATE_REQ`: zero takes the response back, a code is carried out if there is no
response, and then there is one. -/
def ForwardPort.writeReq (answers : Bool) (kind : CidKind) (value : BitVec 32)
    (port : ForwardPort) : ForwardPort :=
  if value = 0 then { port with updateReq := 0, updateResp := 0 }
  else if answers = true ∧ port.updateResp = 0 then
    { port.execute kind value with updateReq := value, updateResp := 1 }
  else { port with updateReq := value }

/-- A write to a register. -/
def ForwardPort.write (answers : Bool) (kind : CidKind) (reg : ForwardReg) (value : BitVec 32)
    (port : ForwardPort) : ForwardPort :=
  match reg with
  | .updateReq => port.writeReq answers kind value
  | .updateResp => port
  | .session => { port with session := value }
  | .channel => { port with channel := value }

/-- What a read of a register gives. -/
def ForwardPort.read (port : ForwardPort) : ForwardReg → BitVec 32
  | .updateReq => port.updateReq
  | .updateResp => port.updateResp
  | .session => port.session
  | .channel => port.channel

/-! ### The accesses -/

/-- The chain module, and `fch_dev_table` of the driver. -/
structure ChainDev where
  /-- The module. -/
  port : Lane → CidKind → ForwardPort
  /-- `fch_dev_table`; `none` for `-1`. -/
  fchDevTable : Lane → Fchid → CidKind → Option ExtifidCid

/-- Nothing is connected, and all registers are zero. -/
def ChainDev.reset : ChainDev where
  port _ _ := ⟨0, 0, 0, 0, fun _ => none, []⟩
  fchDevTable _ _ _ := none

/-- The module with another state of one direction of one lane. -/
def ChainDev.setPort (s : ChainDev) (lane : Lane) (kind : CidKind) (port : ForwardPort) : ChainDev :=
  { s with port := fun l k => if l = lane ∧ k = kind then port else s.port l k }

/-- The driver with another entry. -/
def ChainDev.setEntry (s : ChainDev) (lane : Lane) (fchid : Fchid) (kind : CidKind)
    (entry : Option ExtifidCid) : ChainDev :=
  { s with
    fchDevTable := fun l f k =>
      if l = lane ∧ f = fchid ∧ k = kind then entry else s.fchDevTable l f k }

/-- `i` and `j` of the loops of `xpcie_fpga_read_func_chain_table`, and `k`. -/
def ChainDev.findEntry (s : ChainDev) (entry : ExtifidCid) : Bool :=
  (List.finRange xpcieKernelLaneMax).any fun lane =>
    (List.range (2 ^ 9)).any fun fchid =>
      [CidKind.ingress, CidKind.egress].any fun kind =>
        s.fchDevTable lane (BitVec.ofNat 9 fchid) kind == some entry

/-- An access. -/
inductive ChainCmd where
  /-- `chain_reg_write`. -/
  | regWrite (lane : Lane) (kind : CidKind) (reg : ForwardReg) (value : BitVec 32)
  /-- `chain_reg_read`, and the read through `monitor_val`. -/
  | regRead (lane : Lane) (kind : CidKind) (reg : ForwardReg)
  /-- A read of an entry of `fch_dev_table`. -/
  | loadEntry (lane : Lane) (fchid : Fchid) (kind : CidKind)
  /-- A write of an entry of `fch_dev_table`. -/
  | storeEntry (lane : Lane) (fchid : Fchid) (kind : CidKind) (entry : Option ExtifidCid)
  /-- The search through `fch_dev_table`. -/
  | findEntry (entry : ExtifidCid)

/-- The answers. -/
abbrev ChainCmd.Ans : ChainCmd → Type
  | .regRead .. => BitVec 32
  | .loadEntry .. => Option ExtifidCid
  | .findEntry .. => Bool
  | _ => Unit

/-- A program of accesses. -/
abbrev ChainProg (α : Type) := Prog ChainCmd ChainCmd.Ans α

/-- What an access does; the module `answers` requests, or it does not. -/
def chainExec (answers : Bool) : (c : ChainCmd) → ChainDev → c.Ans × ChainDev
  | .regWrite lane kind reg value, s =>
    ((), s.setPort lane kind ((s.port lane kind).write answers kind reg value))
  | .regRead lane kind reg, s => ((s.port lane kind).read reg, s)
  | .loadEntry lane fchid kind, s => (s.fchDevTable lane fchid kind, s)
  | .storeEntry lane fchid kind entry, s => ((), s.setEntry lane fchid kind entry)
  | .findEntry entry, s => (s.findEntry entry, s)

/-! ### The calls of the driver -/

/-- The errors. -/
inductive ChainErrno where
  /-- `-EFAULT`. -/
  | efault
  /-- `-EINVAL`. -/
  | einval
  /-- `-XPCIE_DEV_UPDATE_TIMEOUT`. -/
  | updateTimeout
  /-- `-XPCIE_DEV_NO_CHAIN_FOUND`. -/
  | noChainFound
  deriving DecidableEq, Repr

/-- `FPGA_UPDATE_POLLING_MAX`. -/
def fpgaUpdatePollingMax : ℕ := 100

/-- The loop that monitors `UPDATE_RESP`, for at most `n` polls. -/
def monitorResp (lane : Lane) (kind : CidKind) : ℕ → ChainProg Bool
  | 0 => pure false
  | n + 1 =>
    .cmd (.regRead lane kind .updateResp) fun resp =>
      if resp = 1 then pure true else monitorResp lane kind n

/-- The registers of a request and its code, and the monitoring. -/
def chainRequest (lane : Lane) (kind : CidKind) (params : List (ForwardReg × BitVec 32))
    (code : BitVec 32) : ChainProg Bool :=
  .cmd (.regWrite lane kind .updateReq 0) fun _ =>
    (params.foldr (fun param rest => .cmd (.regWrite lane kind param.1 param.2) fun _ => rest)
      (.cmd (.regWrite lane kind .updateReq code) fun _ =>
        monitorResp lane kind fpgaUpdatePollingMax))

/-- `extif_id` and `cid` as the session of a connection. -/
def ExtifidCid.session (e : ExtifidCid) : BitVec 32 :=
  e.cid.setWidth 32 ||| (e.extifId &&& 1) <<< 9

/-- `extif_id` and `cid`. -/
def FpgaId.entry (id : FpgaId) : ExtifidCid := ⟨id.extifId, id.cid⟩

/-- A flag in its place. -/
def flagBit (flag : BitVec 8) (place : ℕ) : BitVec 32 := (flag.setWidth 32 &&& 1) <<< place

/-- `CHANNEL` of an ingress update. -/
def FpgaId.ingressChannel (id : FpgaId) : BitVec 32 :=
  id.fchid.setWidth 32 ||| flagBit id.enableFlag 16 ||| flagBit id.activeFlag 17 |||
    flagBit id.directFlag 18

/-- `SESSION` of an egress update. -/
def FpgaId.egressSession (id : FpgaId) : BitVec 32 :=
  id.entry.session ||| flagBit id.enableFlag 16 ||| flagBit id.activeFlag 17 |||
    flagBit id.virtualFlag 19 ||| flagBit id.blockingFlag 20

/-- `cid` from `XPCIE_CID_MIN` to `XPCIE_CID_MAX`, `extif_id` one of the two. -/
def ExtifidCid.Valid (e : ExtifidCid) : Prop :=
  e.cid.toNat ≤ 511 ∧ (e.extifId = 0 ∨ e.extifId = 1)

instance (e : ExtifidCid) : Decidable e.Valid := inferInstanceAs (Decidable (_ ∧ _))

/-- The registers an update writes, in order. -/
def FpgaId.updateParams (id : FpgaId) : CidKind → List (ForwardReg × BitVec 32)
  | .ingress => [(.session, id.entry.session), (.channel, id.ingressChannel)]
  | .egress => [(.channel, id.fchid.setWidth 32), (.session, id.egressSession)]

/-- `xpcie_fpga_update_func_chain_table`. -/
def xpcieFpgaUpdateFuncChainTable (id : FpgaId) (kind : CidKind) :
    ChainProg (Except ChainErrno Unit) :=
  if id.entry.Valid then do
    let done ← chainRequest id.lane kind (id.updateParams kind) 1
    if done then
      .cmd (.storeEntry id.lane id.fchid kind (some id.entry)) fun _ => pure (.ok ())
    else pure (.error .updateTimeout)
  else pure (.error .einval)

/-- The register that a delete or a read of an entry writes. -/
def keyParams (entry : ExtifidCid) (fchid : Fchid) : CidKind → List (ForwardReg × BitVec 32)
  | .ingress => [(.session, entry.session)]
  | .egress => [(.channel, fchid.setWidth 32)]

/-- What the driver makes of an entry that is `-1` when it is read. -/
def idsOf (entry : Option ExtifidCid) : ExtifidCid := entry.getD ⟨-1, -1⟩

/-- `xpcie_fpga_delete_func_chain_table`: `extif_id` and `cid` of the entry. -/
def xpcieFpgaDeleteFuncChainTable (id : FpgaId) (kind : CidKind) :
    ChainProg (Except ChainErrno ExtifidCid) :=
  .cmd (.loadEntry id.lane id.fchid kind) fun entry =>
    match entry with
    | none => pure (.error .noChainFound)
    | some entry => do
      let done ← chainRequest id.lane kind (keyParams entry id.fchid kind) 2
      if done then
        .cmd (.loadEntry id.lane id.fchid kind) fun entry =>
          .cmd (.storeEntry id.lane id.fchid kind none) fun _ => pure (.ok (idsOf entry))
      else pure (.error .updateTimeout)

/-- A flag of a word that was read. -/
def readFlag (readVal mask : BitVec 32) (place : ℕ) : BitVec 8 :=
  ((readVal &&& mask) >>> place).setWidth 8

/-- What is read for ingress. -/
def FpgaId.readIngress (id : FpgaId) (readVal : BitVec 32) : FpgaId :=
  { id with
    fchid := (readVal &&& 0x1FF).setWidth 9
    enableFlag := readFlag readVal 0x10000 16
    activeFlag := readFlag readVal 0x20000 17
    directFlag := readFlag readVal 0x40000 18 }

/-- What is read for egress. -/
def FpgaId.readEgress (id : FpgaId) (readVal : BitVec 32) : FpgaId :=
  { id with
    extifId := (readVal &&& 0x200) >>> 9
    cid := (readVal &&& 0x1FF).setWidth 16
    enableFlag := readFlag readVal 0x10000 16
    activeFlag := readFlag readVal 0x20000 17
    virtualFlag := readFlag readVal 0x80000 19
    blockingFlag := readFlag readVal 0x100000 20 }

/-- What `xpcie_fpga_read_func_chain_table` makes of `read_val`. -/
def FpgaId.readWord (id : FpgaId) (readVal : BitVec 32) : CidKind → FpgaId
  | .ingress => id.readIngress readVal
  | .egress => id.readEgress readVal

/-- `read_addr`. -/
def readAddr : CidKind → ForwardReg
  | .ingress => .channel
  | .egress => .session

/-- The request and the answer of `xpcie_fpga_read_func_chain_table`. -/
def readRequest (id : FpgaId) (kind : CidKind) : ChainProg (Except ChainErrno FpgaId) := do
  let done ← chainRequest id.lane kind (keyParams id.entry id.fchid kind) 3
  if done then
    .cmd (.regRead id.lane kind (readAddr kind)) fun readVal =>
      pure (.ok (id.readWord readVal kind))
  else pure (.error .updateTimeout)

/-- `xpcie_fpga_read_func_chain_table`. -/
def xpcieFpgaReadFuncChainTable (id : FpgaId) (kind : CidKind) :
    ChainProg (Except ChainErrno FpgaId) :=
  match kind with
  | .ingress =>
    .cmd (.findEntry id.entry) fun flag =>
      if flag then readRequest id .ingress else pure (.error .noChainFound)
  | .egress =>
    .cmd (.loadEntry id.lane id.fchid .egress) fun entry =>
      if entry.isNone then pure (.error .noChainFound) else readRequest id .egress

/-! ### The ioctls -/

/-- What an ioctl meets outside. -/
structure ChainEnv where
  /-- `copy_from_user` works. -/
  copyFromUser : Bool
  /-- `copy_to_user` works. -/
  copyToUser : Bool
  /-- The module answers the request in time, or not at all. -/
  answers : Bool
  deriving DecidableEq

/-- Nothing fails. -/
def ChainEnv.fine : ChainEnv := ⟨true, true, true⟩

/-- `XPCIE_DEV_CHAIN_UPDATE_TABLE_INGR` and `XPCIE_DEV_CHAIN_UPDATE_TABLE_EGR`. -/
def ioctlUpdateTable (s : ChainDev) (id : FpgaId) (kind : CidKind) (env : ChainEnv) :
    Except ChainErrno Unit × ChainDev :=
  if env.copyFromUser = false then (.error .efault, s)
  else (xpcieFpgaUpdateFuncChainTable id kind).eval (chainExec env.answers) s

/-- `XPCIE_DEV_CHAIN_DELETE_TABLE_INGR` and `XPCIE_DEV_CHAIN_DELETE_TABLE_EGR`. -/
def ioctlDeleteTable (s : ChainDev) (id : FpgaId) (kind : CidKind) (env : ChainEnv) :
    Except ChainErrno ExtifidCid × ChainDev :=
  if env.copyFromUser = false then (.error .efault, s)
  else
    match (xpcieFpgaDeleteFuncChainTable id kind).eval (chainExec env.answers) s with
    | (.error e, s) => (.error e, s)
    | (.ok entry, s) => if env.copyToUser = false then (.error .efault, s) else (.ok entry, s)

/-- `XPCIE_DEV_CHAIN_READ_TABLE_INGR` and `XPCIE_DEV_CHAIN_READ_TABLE_EGR`. -/
def ioctlReadTable (s : ChainDev) (id : FpgaId) (kind : CidKind) (env : ChainEnv) :
    Except ChainErrno FpgaId × ChainDev :=
  if env.copyFromUser = false then (.error .efault, s)
  else
    match (xpcieFpgaReadFuncChainTable id kind).eval (chainExec env.answers) s with
    | (.error e, s) => (.error e, s)
    | (.ok id, s) => if env.copyToUser = false then (.error .efault, s) else (.ok id, s)

/-! ### A call by itself -/

variable {s : ChainDev} {lane : Lane} {kind : CidKind} {answers : Bool}

@[simp] theorem port_setPort (port : ForwardPort) : (s.setPort lane kind port).port lane kind = port :=
  if_pos ⟨rfl, rfl⟩

@[simp] theorem setPort_setPort (port port' : ForwardPort) :
    (s.setPort lane kind port).setPort lane kind port' = s.setPort lane kind port' := by
  unfold ChainDev.setPort
  congr 1
  funext l k
  by_cases h : l = lane ∧ k = kind
  · simp only [if_pos h]
  · simp only [if_neg h]

@[simp] theorem fchDevTable_setPort (port : ForwardPort) :
    (s.setPort lane kind port).fchDevTable = s.fchDevTable := rfl

@[simp] theorem findEntry_setPort (port : ForwardPort) (entry : ExtifidCid) :
    (s.setPort lane kind port).findEntry entry = s.findEntry entry := rfl

theorem port_setPort_of_ne {l : Lane} {k : CidKind} (h : ¬ (l = lane ∧ k = kind))
    (port : ForwardPort) : (s.setPort lane kind port).port l k = s.port l k :=
  if_neg h

@[simp] theorem port_setEntry (fchid : Fchid) (entry : Option ExtifidCid) :
    (s.setEntry lane fchid kind entry).port = s.port := rfl

@[simp] theorem fchDevTable_setEntry (fchid : Fchid) (entry : Option ExtifidCid) :
    (s.setEntry lane fchid kind entry).fchDevTable lane fchid kind = entry :=
  if_pos ⟨rfl, rfl, rfl⟩

/-- The module after the registers of a request and its code. -/
def ForwardPort.request (answers : Bool) (kind : CidKind) (params : List (ForwardReg × BitVec 32))
    (code : BitVec 32) (port : ForwardPort) : ForwardPort :=
  (params.foldl (fun port param => port.write answers kind param.1 param.2)
    (port.writeReq answers kind 0)).writeReq answers kind code

theorem eval_monitorResp (n : ℕ) (s : ChainDev) :
    (monitorResp lane kind (n + 1)).eval (chainExec answers) s =
      (decide ((s.port lane kind).updateResp = 1), s) := by
  have hpoll : ∀ n, (monitorResp lane kind (n + 1)).eval (chainExec answers) s =
      (if (s.port lane kind).updateResp = 1 then pure true
        else monitorResp lane kind n : ChainProg Bool).eval (chainExec answers) s := fun _ => rfl
  induction n with
  | zero =>
    rw [hpoll]
    by_cases h : (s.port lane kind).updateResp = 1
    · rw [if_pos h, Prog.eval_pure, decide_eq_true h]
    · rw [if_neg h, decide_eq_false h]
      rfl
  | succ n ih =>
    rw [hpoll]
    by_cases h : (s.port lane kind).updateResp = 1
    · rw [if_pos h, Prog.eval_pure, decide_eq_true h]
    · rw [if_neg h, ih]

/-- A request leaves the module with what its registers and its code make of it. -/
theorem eval_chainRequest (params : List (ForwardReg × BitVec 32)) (code : BitVec 32) (s : ChainDev) :
    (chainRequest lane kind params code).eval (chainExec answers) s =
      (decide (((s.port lane kind).request answers kind params code).updateResp = 1),
        s.setPort lane kind ((s.port lane kind).request answers kind params code)) := by
  have hparams : ∀ port : ForwardPort,
      (params.foldr (fun param rest => .cmd (.regWrite lane kind param.1 param.2) fun _ => rest)
        (.cmd (.regWrite lane kind .updateReq code) fun _ =>
          monitorResp lane kind fpgaUpdatePollingMax) : ChainProg Bool).eval (chainExec answers)
        (s.setPort lane kind port) =
      (decide (((params.foldl (fun port param => port.write answers kind param.1 param.2)
          port).writeReq answers kind code).updateResp = 1),
        s.setPort lane kind ((params.foldl (fun port param => port.write answers kind param.1 param.2)
          port).writeReq answers kind code)) := by
    induction params with
    | nil =>
      intro port
      simp only [List.foldr_nil, List.foldl_nil, Prog.eval_cmd, chainExec, port_setPort,
        setPort_setPort, ForwardPort.write]
      rw [show fpgaUpdatePollingMax = 99 + 1 from rfl, eval_monitorResp, port_setPort]
      rfl
    | cons param params ih =>
      intro port
      simp only [List.foldr_cons, List.foldl_cons, Prog.eval_cmd, chainExec, port_setPort,
        setPort_setPort]
      exact ih _
  exact hparams _

/-! ### The tables -/

/-- The entries of the module, and what the driver remembers. -/
@[ext]
structure ChainTables where
  /-- The entries of the module. -/
  entries : Lane → CidKind → BitVec 10 → Option (BitVec 32)
  /-- `fch_dev_table`. -/
  soft : Lane → Fchid → CidKind → Option ExtifidCid

/-- The tables of a device. -/
def ChainDev.tables (s : ChainDev) : ChainTables :=
  ⟨fun lane kind => (s.port lane kind).table, s.fchDevTable⟩

/-- The tables with another entry of the module, and of the driver. -/
def ChainTables.set (t : ChainTables) (lane : Lane) (kind : CidKind) (key : BitVec 10)
    (word : Option (BitVec 32)) (fchid : Fchid) (entry : Option ExtifidCid) : ChainTables where
  entries l k := if l = lane ∧ k = kind then Function.update (t.entries l k) key word else t.entries l k
  soft l f k := if l = lane ∧ f = fchid ∧ k = kind then entry else t.soft l f k

/-- Where the module keeps the entry. -/
def entryKey (entry : ExtifidCid) (fchid : Fchid) : CidKind → BitVec 10
  | .ingress => entry.session.setWidth 10
  | .egress => fchid.setWidth 10

/-- What the module keeps there. -/
def FpgaId.word (id : FpgaId) : CidKind → BitVec 32
  | .ingress => id.ingressChannel
  | .egress => id.egressSession

theorem tables_setPort {port : ForwardPort} (h : port.table = (s.port lane kind).table) :
    (s.setPort lane kind port).tables = s.tables := by
  unfold ChainDev.tables
  congr 1
  funext l k
  by_cases hlk : l = lane ∧ k = kind
  · obtain ⟨rfl, rfl⟩ := hlk
    rw [port_setPort, h]
  · rw [port_setPort_of_ne hlk]

theorem tables_setPort_setEntry {port : ForwardPort} {key : BitVec 10} {word : Option (BitVec 32)}
    (h : port.table = Function.update (s.port lane kind).table key word) (fchid : Fchid)
    (entry : Option ExtifidCid) :
    ((s.setPort lane kind port).setEntry lane fchid kind entry).tables =
      s.tables.set lane kind key word fchid entry := by
  unfold ChainDev.tables ChainTables.set
  congr 1
  funext l k
  by_cases hlk : l = lane ∧ k = kind
  · obtain ⟨rfl, rfl⟩ := hlk
    rw [port_setEntry, port_setPort, h, if_pos ⟨rfl, rfl⟩]
  · rw [port_setEntry, port_setPort_of_ne hlk, if_neg hlk]

/-- The requests of the driver, on a module that answers. -/
theorem request_update (port : ForwardPort) (id : FpgaId) (kind : CidKind) :
    (port.request true kind (id.updateParams kind) 1).updateResp = 1 ∧
      (port.request true kind (id.updateParams kind) 1).table =
        Function.update port.table (entryKey id.entry id.fchid kind) (some (id.word kind)) ∧
      (port.request true kind (id.updateParams kind) 1).executed =
        ⟨1, entryKey id.entry id.fchid kind, id.word kind⟩ :: port.executed := by
  cases kind with
  | ingress =>
    simp [ForwardPort.request, FpgaId.updateParams, ForwardPort.write, ForwardPort.writeReq,
      ForwardPort.execute, ForwardPort.key, ForwardPort.word, entryKey, FpgaId.word]
  | egress =>
    simp [ForwardPort.request, FpgaId.updateParams, ForwardPort.write, ForwardPort.writeReq,
      ForwardPort.execute, ForwardPort.key, ForwardPort.word, entryKey, FpgaId.word]

theorem request_delete (port : ForwardPort) (entry : ExtifidCid) (fchid : Fchid) (kind : CidKind) :
    (port.request true kind (keyParams entry fchid kind) 2).updateResp = 1 ∧
      (port.request true kind (keyParams entry fchid kind) 2).table =
        Function.update port.table (entryKey entry fchid kind) none ∧
      (port.request true kind (keyParams entry fchid kind) 2).executed =
        ⟨2, entryKey entry fchid kind, 0⟩ :: port.executed := by
  cases kind with
  | ingress =>
    simp [ForwardPort.request, keyParams, ForwardPort.write, ForwardPort.writeReq,
      ForwardPort.execute, ForwardPort.key, entryKey]
  | egress =>
    simp [ForwardPort.request, keyParams, ForwardPort.write, ForwardPort.writeReq,
      ForwardPort.execute, ForwardPort.key, entryKey]

theorem request_read (port : ForwardPort) (entry : ExtifidCid) (fchid : Fchid) (kind : CidKind) :
    (port.request true kind (keyParams entry fchid kind) 3).updateResp = 1 ∧
      (port.request true kind (keyParams entry fchid kind) 3).table = port.table ∧
      (port.request true kind (keyParams entry fchid kind) 3).word kind =
        (port.table (entryKey entry fchid kind)).getD 0 ∧
      (port.request true kind (keyParams entry fchid kind) 3).executed =
        ⟨3, entryKey entry fchid kind, (port.table (entryKey entry fchid kind)).getD 0⟩ ::
          port.executed := by
  cases kind with
  | ingress =>
    simp [ForwardPort.request, keyParams, ForwardPort.write, ForwardPort.writeReq,
      ForwardPort.execute, ForwardPort.key, ForwardPort.setWord, ForwardPort.word, entryKey]
  | egress =>
    simp [ForwardPort.request, keyParams, ForwardPort.write, ForwardPort.writeReq,
      ForwardPort.execute, ForwardPort.key, ForwardPort.setWord, ForwardPort.word, entryKey]

/-- Registers other than that of the request change no entry and no response. -/
theorem foldl_write (answers : Bool) (kind : CidKind) (params : List (ForwardReg × BitVec 32))
    (hparams : ∀ param ∈ params, param.1 = .session ∨ param.1 = .channel) (port : ForwardPort) :
    (params.foldl (fun port param => port.write answers kind param.1 param.2) port).updateResp =
        port.updateResp ∧
      (params.foldl (fun port param => port.write answers kind param.1 param.2) port).table =
        port.table ∧
      (params.foldl (fun port param => port.write answers kind param.1 param.2) port).executed =
        port.executed := by
  induction params generalizing port with
  | nil => exact ⟨rfl, rfl, rfl⟩
  | cons param params ih =>
    obtain ⟨h₁, h₂, h₃⟩ := ih (fun q hq => hparams q (List.mem_cons_of_mem _ hq))
      (port.write answers kind param.1 param.2)
    rw [List.foldl_cons, h₁, h₂, h₃]
    rcases hparams param List.mem_cons_self with hreg | hreg <;> rw [hreg] <;> exact ⟨rfl, rfl, rfl⟩

/-- A module that does not answer. -/
theorem request_unanswered (port : ForwardPort) (kind : CidKind)
    {params : List (ForwardReg × BitVec 32)}
    (hparams : ∀ param ∈ params, param.1 = .session ∨ param.1 = .channel) {code : BitVec 32}
    (hcode : code ≠ 0) :
    (port.request false kind params code).updateResp = 0 ∧
      (port.request false kind params code).table = port.table := by
  obtain ⟨hresp, htable, -⟩ :=
    foldl_write false kind params hparams (port.writeReq false kind 0)
  unfold ForwardPort.request
  rw [ForwardPort.writeReq, if_neg hcode, if_neg (by simp)]
  exact ⟨hresp, htable⟩

theorem updateParams_mem (id : FpgaId) (kind : CidKind) :
    ∀ param ∈ id.updateParams kind, param.1 = .session ∨ param.1 = .channel := by
  cases kind <;> simp [FpgaId.updateParams]

theorem keyParams_mem (entry : ExtifidCid) (fchid : Fchid) (kind : CidKind) :
    ∀ param ∈ keyParams entry fchid kind, param.1 = .session ∨ param.1 = .channel := by
  cases kind <;> simp [keyParams]

/-- **`xpcie_fpga_update_func_chain_table`** sets the entry of the module and that of the driver, or
changes neither. -/
theorem update_cases_tables (answers : Bool) (id : FpgaId) (kind : CidKind) (s : ChainDev) :
    (¬ id.entry.Valid ∧ (xpcieFpgaUpdateFuncChainTable id kind).eval (chainExec answers) s =
        (.error .einval, s)) ∨
      id.entry.Valid ∧ ∃ t,
        (answers = true ∧
          (xpcieFpgaUpdateFuncChainTable id kind).eval (chainExec answers) s = (.ok (), t) ∧
          t.tables = s.tables.set id.lane kind (entryKey id.entry id.fchid kind)
            (some (id.word kind)) id.fchid (some id.entry)) ∨
        (answers = false ∧
          (xpcieFpgaUpdateFuncChainTable id kind).eval (chainExec answers) s =
            (.error .updateTimeout, t) ∧ t.tables = s.tables) := by
  unfold xpcieFpgaUpdateFuncChainTable
  by_cases hvalid : id.entry.Valid
  · rw [if_pos hvalid, Prog.eval_bind, eval_chainRequest]
    refine .inr ⟨hvalid, ?_⟩
    cases answers with
    | true =>
      obtain ⟨hresp, htable, -⟩ := request_update (s.port id.lane kind) id kind
      simp only [hresp, decide_true, if_true]
      exact ⟨_, .inl ⟨trivial, rfl, tables_setPort_setEntry htable id.fchid _⟩⟩
    | false =>
      obtain ⟨hresp, htable⟩ := request_unanswered (s.port id.lane kind) kind (updateParams_mem id kind)
        (by decide : (1 : BitVec 32) ≠ 0)
      simp only [hresp]
      exact ⟨_, .inr ⟨trivial, rfl, tables_setPort htable⟩⟩
  · rw [if_neg hvalid]
    exact .inl ⟨hvalid, rfl⟩

/-- **`xpcie_fpga_delete_func_chain_table`** takes the entry of the driver out of the module, and
forgets it, or changes nothing. -/
theorem delete_cases_tables (answers : Bool) (id : FpgaId) (kind : CidKind) (s : ChainDev) :
    (s.tables.soft id.lane id.fchid kind = none ∧
      (xpcieFpgaDeleteFuncChainTable id kind).eval (chainExec answers) s =
        (.error .noChainFound, s)) ∨
      ∃ entry t, s.tables.soft id.lane id.fchid kind = some entry ∧
        ((answers = true ∧
          (xpcieFpgaDeleteFuncChainTable id kind).eval (chainExec answers) s = (.ok entry, t) ∧
          t.tables = s.tables.set id.lane kind (entryKey entry id.fchid kind) none id.fchid none) ∨
        (answers = false ∧
          (xpcieFpgaDeleteFuncChainTable id kind).eval (chainExec answers) s =
            (.error .updateTimeout, t) ∧ t.tables = s.tables)) := by
  unfold xpcieFpgaDeleteFuncChainTable
  rw [Prog.eval_cmd]
  cases hentry : s.fchDevTable id.lane id.fchid kind with
  | none =>
    refine .inl ⟨hentry, ?_⟩
    simp only [chainExec, hentry]
    rfl
  | some entry =>
    refine .inr ⟨entry, ?_⟩
    simp only [chainExec, hentry]
    rw [Prog.eval_bind, eval_chainRequest]
    cases answers with
    | true =>
      obtain ⟨hresp, htable, -⟩ := request_delete (s.port id.lane kind) entry id.fchid kind
      simp only [hresp, decide_true, if_true, Prog.eval_cmd, chainExec, fchDevTable_setPort, hentry]
      exact ⟨_, hentry, .inl ⟨trivial, rfl, tables_setPort_setEntry htable id.fchid _⟩⟩
    | false =>
      obtain ⟨hresp, htable⟩ := request_unanswered (s.port id.lane kind) kind
        (keyParams_mem entry id.fchid kind) (by decide : (2 : BitVec 32) ≠ 0)
      simp only [hresp]
      exact ⟨_, hentry, .inr ⟨trivial, rfl, tables_setPort htable⟩⟩

/-- What `xpcie_fpga_read_func_chain_table` looks for before it asks the module. -/
def ChainTables.Found (t : ChainTables) (id : FpgaId) : CidKind → Prop
  | .ingress => ∃ lane fchid kind, t.soft lane fchid kind = some id.entry
  | .egress => t.soft id.lane id.fchid .egress ≠ none

theorem findEntry_eq_true {entry : ExtifidCid} :
    s.findEntry entry = true ↔ ∃ lane fchid kind, s.fchDevTable lane fchid kind = some entry := by
  unfold ChainDev.findEntry
  simp only [List.any_eq_true, List.mem_finRange, true_and, List.mem_range, beq_iff_eq]
  constructor
  · rintro ⟨lane, n, -, kind, -, h⟩
    exact ⟨lane, _, kind, h⟩
  · rintro ⟨lane, fchid, kind, h⟩
    refine ⟨lane, fchid.toNat, fchid.isLt, kind, by cases kind <;> simp, ?_⟩
    rw [BitVec.ofNat_toNat, BitVec.setWidth_eq, h]

theorem read_readAddr (port : ForwardPort) (kind : CidKind) :
    port.read (readAddr kind) = port.word kind := by
  cases kind <;> rfl

theorem eval_readRequest (answers : Bool) (id : FpgaId) (kind : CidKind) (s : ChainDev) :
    ∃ t, t.tables = s.tables ∧ (readRequest id kind).eval (chainExec answers) s =
      (if answers then
          .ok (id.readWord ((s.tables.entries id.lane kind (entryKey id.entry id.fchid kind)).getD 0)
            kind)
        else .error .updateTimeout, t) := by
  unfold readRequest
  rw [Prog.eval_bind, eval_chainRequest]
  cases answers with
  | true =>
    obtain ⟨hresp, htable, hword, -⟩ := request_read (s.port id.lane kind) id.entry id.fchid kind
    simp only [hresp, decide_true, if_true, Prog.eval_cmd, chainExec, port_setPort, read_readAddr,
      hword]
    exact ⟨_, tables_setPort htable, rfl⟩
  | false =>
    obtain ⟨hresp, htable⟩ := request_unanswered (s.port id.lane kind) kind
      (keyParams_mem id.entry id.fchid kind) (by decide : (3 : BitVec 32) ≠ 0)
    simp only [hresp]
    exact ⟨_, tables_setPort htable, rfl⟩

/-- **`xpcie_fpga_read_func_chain_table`** changes no table. -/
theorem read_cases_tables (answers : Bool) (id : FpgaId) (kind : CidKind) (s : ChainDev) :
    (¬ s.tables.Found id kind ∧
      (xpcieFpgaReadFuncChainTable id kind).eval (chainExec answers) s = (.error .noChainFound, s)) ∨
      s.tables.Found id kind ∧ ∃ t, t.tables = s.tables ∧
        (xpcieFpgaReadFuncChainTable id kind).eval (chainExec answers) s =
          (if answers then
              .ok (id.readWord
                ((s.tables.entries id.lane kind (entryKey id.entry id.fchid kind)).getD 0) kind)
            else .error .updateTimeout, t) := by
  cases kind with
  | ingress =>
    rw [xpcieFpgaReadFuncChainTable, Prog.eval_cmd]
    by_cases hfound : s.findEntry id.entry = true
    · refine .inr ⟨findEntry_eq_true.mp hfound, ?_⟩
      simp only [chainExec, hfound, if_true]
      exact eval_readRequest answers id .ingress s
    · refine .inl ⟨fun h => hfound (findEntry_eq_true.mpr h), ?_⟩
      simp only [chainExec, hfound]
      rfl
  | egress =>
    rw [xpcieFpgaReadFuncChainTable, Prog.eval_cmd]
    cases hentry : s.fchDevTable id.lane id.fchid .egress with
    | none =>
      refine .inl ⟨fun h => h hentry, ?_⟩
      simp only [chainExec, hentry]
      rfl
    | some entry =>
      have hfound : s.tables.Found id .egress := by
        intro h
        cases hentry.symm.trans h
      refine .inr ⟨hfound, ?_⟩
      simp only [chainExec, hentry]
      exact eval_readRequest answers id .egress s

end HardwareDrivers.Driver
