import HardwareDrivers.Driver.ChainMirror
import HardwareDrivers.Libfpga.ShmemMmap

/-!
# Function chains

`libchain.c`: a function chain of a lane gets data from a connection (ingress) and gives
data to one (egress). Each call checks its arguments and hands one entry to the driver.

## What is proved

* `chainConnect_cases`, `chainDisconnect_cases` — a call that is granted changes one entry, of the
  module and of the driver; any other call changes none.
-/

namespace HardwareDrivers.Libfpga

open Driver

/-- What the library knows of a device. -/
structure FpgaDevice where
  /-- `KERNEL_NUM_CHAIN`. -/
  kernelNumChain : ℕ
  /-- The driver finds no more lanes than it has room for. -/
  kernelNumChain_le : kernelNumChain ≤ xpcieKernelLaneMax

/-- A device with two lanes. -/
def twoLanes : FpgaDevice := ⟨2, by decide⟩

/-- `lane` is one of the lanes of the device. -/
def FpgaDevice.lane (dev : FpgaDevice) (lane : BitVec 32) : Option Lane :=
  if h : lane.toNat < dev.kernelNumChain then
    some ⟨lane.toNat, lt_of_lt_of_le h dev.kernelNumChain_le⟩
  else none

/-! ### The calls -/

/-- The arguments of `__fpga_chain_connect` that `fpga_id_t` gets. -/
structure ConnectArgs where
  /-- `lane`. -/
  lane : BitVec 32
  /-- `fchid`. -/
  fchid : BitVec 32
  /-- `extif_id`. -/
  extifId : BitVec 32
  /-- `cid`. -/
  cid : BitVec 32
  /-- `active_flag`. -/
  activeFlag : BitVec 8
  /-- `direct_flag`. -/
  directFlag : BitVec 8
  /-- `virtual_flag`. -/
  virtualFlag : BitVec 8
  /-- `blocking_flag`. -/
  blockingFlag : BitVec 8
  deriving DecidableEq

/-- The checks of `__fpga_chain_connect` on everything but the device and the lane. -/
def ConnectArgs.Valid (args : ConnectArgs) : Prop :=
  (args.extifId = 0 ∨ args.extifId = 1) ∧ args.cid.toNat ≤ 511 ∧ args.fchid.toNat ≤ 511 ∧
    args.activeFlag ≤ 1 ∧ args.directFlag ≤ 1 ∧ args.virtualFlag ≤ 1 ∧ args.blockingFlag ≤ 1

instance (args : ConnectArgs) : Decidable args.Valid := inferInstanceAs (Decidable (_ ∧ _))

/-- `__fpga_set_id_info` of a connection; `enable_flag` is always 1. -/
def ConnectArgs.idInfo (args : ConnectArgs) (lane : Lane) : FpgaId where
  lane := lane
  extifId := args.extifId
  cid := args.cid.setWidth 16
  fchid := args.fchid.setWidth 9
  enableFlag := 1
  activeFlag := args.activeFlag
  directFlag := args.directFlag
  virtualFlag := args.virtualFlag
  blockingFlag := args.blockingFlag

/-- The checks of `__fpga_chain_connect`, and what it hands to the driver if they pass. -/
def connectId (dev : Option FpgaDevice) (args : ConnectArgs) : Option FpgaId :=
  if args.Valid then (dev.bind (·.lane args.lane)).map args.idInfo else none

/-- `__fpga_chain_connect`. -/
def chainConnect (dev : Option FpgaDevice) (args : ConnectArgs) (dir : CidKind) (env : ChainEnv)
    (s : ChainDev) : Except LibfpgaErr Unit × ChainDev :=
  match connectId dev args with
  | none => (.error .invalidArgument, s)
  | some id =>
    match ioctlUpdateTable s id dir env with
    | (.error e, s) =>
      (.error (if e = .updateTimeout then .tableUpdateTimeout else .failureIoctl), s)
    | (.ok _, s) => (.ok (), s)

/-- `fpga_chain_connect_ingress`. -/
def fpgaChainConnectIngress (dev : Option FpgaDevice) (lane fchid ingressExtifId ingressCid : BitVec 32)
    (activeFlag directFlag : BitVec 8) (env : ChainEnv) (s : ChainDev) :
    Except LibfpgaErr Unit × ChainDev :=
  chainConnect dev ⟨lane, fchid, ingressExtifId, ingressCid, activeFlag, directFlag, 0, 0⟩ .ingress
    env s

/-- `fpga_chain_connect_egress`. -/
def fpgaChainConnectEgress (dev : Option FpgaDevice) (lane fchid egressExtifId egressCid : BitVec 32)
    (activeFlag virtualFlag blockingFlag : BitVec 8) (env : ChainEnv) (s : ChainDev) :
    Except LibfpgaErr Unit × ChainDev :=
  chainConnect dev ⟨lane, fchid, egressExtifId, egressCid, activeFlag, 0, virtualFlag, blockingFlag⟩
    .egress env s

/-- `__fpga_set_id_info` of a function chain that is taken out. -/
def disconnectId (dev : Option FpgaDevice) (lane fchid : BitVec 32) : Option FpgaId :=
  if fchid.toNat ≤ 511 then
    (dev.bind (·.lane lane)).map fun lane => ⟨lane, 0, 0, fchid.setWidth 9, 0, 0, 0, 0, 0⟩
  else none

/-- What the library makes of an error of a delete or a read of an entry. -/
def tableErr : ChainErrno → LibfpgaErr
  | .updateTimeout => .tableUpdateTimeout
  | .noChainFound => .funcChainIdMismatch
  | _ => .failureIoctl

/-- `__fpga_chain_disconnect`. -/
def chainDisconnect (dev : Option FpgaDevice) (lane fchid : BitVec 32) (dir : CidKind)
    (env : ChainEnv) (s : ChainDev) : Except LibfpgaErr Unit × ChainDev :=
  match disconnectId dev lane fchid with
  | none => (.error .invalidArgument, s)
  | some id =>
    match ioctlDeleteTable s id dir env with
    | (.error e, s) => (.error (tableErr e), s)
    | (.ok _, s) => (.ok (), s)

/-- `fpga_chain_disconnect_ingress`. -/
def fpgaChainDisconnectIngress (dev : Option FpgaDevice) (lane fchid : BitVec 32) (env : ChainEnv)
    (s : ChainDev) : Except LibfpgaErr Unit × ChainDev :=
  chainDisconnect dev lane fchid .ingress env s

/-- `fpga_chain_disconnect_egress`. -/
def fpgaChainDisconnectEgress (dev : Option FpgaDevice) (lane fchid : BitVec 32) (env : ChainEnv)
    (s : ChainDev) : Except LibfpgaErr Unit × ChainDev :=
  chainDisconnect dev lane fchid .egress env s

/-- The arguments of `fpga_chain_connect`. -/
structure ChainConnectArgs where
  /-- `lane`. -/
  lane : BitVec 32
  /-- `fchid`. -/
  fchid : BitVec 32
  /-- `ingress_extif_id`. -/
  ingressExtifId : BitVec 32
  /-- `ingress_cid`. -/
  ingressCid : BitVec 32
  /-- `egress_extif_id`. -/
  egressExtifId : BitVec 32
  /-- `egress_cid`. -/
  egressCid : BitVec 32
  /-- `ingress_active_flag`. -/
  ingressActiveFlag : BitVec 8
  /-- `egress_active_flag`. -/
  egressActiveFlag : BitVec 8
  /-- `direct_flag`. -/
  directFlag : BitVec 8
  /-- `egress_virtual_flag`. -/
  egressVirtualFlag : BitVec 8
  /-- `egress_blocking_flag`. -/
  egressBlockingFlag : BitVec 8

/-- What the ioctls of `fpga_chain_connect` meet outside. -/
structure ChainConnectEnv where
  /-- The update for ingress. -/
  ingress : ChainEnv
  /-- The update for egress. -/
  egress : ChainEnv
  /-- The delete for ingress. -/
  disconnect : ChainEnv

/-- `fpga_chain_connect`. -/
def fpgaChainConnect (dev : Option FpgaDevice) (args : ChainConnectArgs) (env : ChainConnectEnv)
    (s : ChainDev) : Except LibfpgaErr Unit × ChainDev :=
  if dev.isNone then (.error .invalidArgument, s)
  else if 511 < args.ingressCid.toNat then (.error .invalidArgument, s)
  else if 511 < args.egressCid.toNat then (.error .invalidArgument, s)
  else
    match fpgaChainConnectIngress dev args.lane args.fchid args.ingressExtifId args.ingressCid
      args.ingressActiveFlag args.directFlag env.ingress s with
    | (.error e, s) => (.error e, s)
    | (.ok _, s) =>
      match fpgaChainConnectEgress dev args.lane args.fchid args.egressExtifId args.egressCid
        args.egressActiveFlag args.egressVirtualFlag args.egressBlockingFlag env.egress s with
      | (.error e, s) =>
        (.error e, (fpgaChainDisconnectIngress dev args.lane args.fchid env.disconnect s).2)
      | (.ok _, s) => (.ok (), s)

/-- What `fpga_chain_read_table_ingress` gives. -/
structure IngressInfo where
  /-- `*enable_flag`. -/
  enableFlag : BitVec 8
  /-- `*active_flag`. -/
  activeFlag : BitVec 8
  /-- `*direct_flag`. -/
  directFlag : BitVec 8
  /-- `*fchid`. -/
  fchid : BitVec 32
  deriving DecidableEq

/-- `fpga_chain_read_table_ingress`; `outputs` if no pointer is `NULL`. What the request does not
set is whatever was on the stack, `stack`. -/
def fpgaChainReadTableIngress (dev : Option FpgaDevice) (lane ingressExtifId ingressCid : BitVec 32)
    (outputs : Bool) (stack : FpgaId) (env : ChainEnv) (s : ChainDev) :
    Except LibfpgaErr IngressInfo × ChainDev :=
  match dev.bind (·.lane lane) with
  | none => (.error .invalidArgument, s)
  | some lane =>
    if outputs = false ∨ 511 < ingressCid.toNat ∨ 1 < ingressExtifId.toNat then
      (.error .invalidArgument, s)
    else
      match ioctlReadTable s
        { stack with lane := lane, extifId := ingressExtifId, cid := ingressCid.setWidth 16 }
        .ingress env with
      | (.error e, s) => (.error (tableErr e), s)
      | (.ok id, s) =>
        (.ok ⟨id.enableFlag, id.activeFlag, id.directFlag, id.fchid.setWidth 32⟩, s)

/-- What `fpga_chain_read_table_egress` gives. -/
structure EgressInfo where
  /-- `*enable_flag`. -/
  enableFlag : BitVec 8
  /-- `*active_flag`. -/
  activeFlag : BitVec 8
  /-- `*virtual_flag`. -/
  virtualFlag : BitVec 8
  /-- `*blocking_flag`. -/
  blockingFlag : BitVec 8
  /-- `*egress_extif_id`. -/
  egressExtifId : BitVec 32
  /-- `*egress_cid`. -/
  egressCid : BitVec 32
  deriving DecidableEq

/-- `fpga_chain_read_table_egress`; `outputs` if no pointer is `NULL`. -/
def fpgaChainReadTableEgress (dev : Option FpgaDevice) (lane fchid : BitVec 32) (outputs : Bool)
    (stack : FpgaId) (env : ChainEnv) (s : ChainDev) : Except LibfpgaErr EgressInfo × ChainDev :=
  match dev.bind (·.lane lane) with
  | none => (.error .invalidArgument, s)
  | some lane =>
    if outputs = false ∨ 511 < fchid.toNat then (.error .invalidArgument, s)
    else
      match ioctlReadTable s { stack with lane := lane, fchid := fchid.setWidth 9 } .egress env with
      | (.error e, s) => (.error (tableErr e), s)
      | (.ok id, s) =>
        (.ok ⟨id.enableFlag, id.activeFlag, id.virtualFlag, id.blockingFlag,
          id.extifId &&& 0x0000FFFF, id.cid.setWidth 32⟩, s)

/-! ### What a call does to the tables -/

variable {dev : Option FpgaDevice} {env : ChainEnv}

theorem connectId_eq_some {args : ConnectArgs} {id : FpgaId} (h : connectId dev args = some id) :
    args.Valid ∧ ∃ lane, dev.bind (·.lane args.lane) = some lane ∧ id = args.idInfo lane := by
  unfold connectId at h
  split_ifs at h with hvalid
  obtain ⟨lane, hlane, rfl⟩ := Option.map_eq_some_iff.mp h
  exact ⟨hvalid, lane, hlane, rfl⟩

theorem connectId_entry {args : ConnectArgs} {id : FpgaId} (h : connectId dev args = some id) :
    id.entry.Valid := by
  obtain ⟨⟨hextif, hcid, -⟩, lane, -, rfl⟩ := connectId_eq_some h
  have htoNat : (args.cid.setWidth 16).toNat = args.cid.toNat := by
    rw [BitVec.toNat_setWidth]
    omega
  refine ⟨?_, hextif⟩
  rw [FpgaId.entry, ConnectArgs.idInfo, htoNat]
  exact hcid

theorem connectId_enableFlag {args : ConnectArgs} {id : FpgaId} (h : connectId dev args = some id) :
    id.enableFlag = 1 := by
  obtain ⟨-, lane, -, rfl⟩ := connectId_eq_some h
  rfl

/-- The call gets through to the module, with `id`. -/
def ConnectGranted (dev : Option FpgaDevice) (args : ConnectArgs) (env : ChainEnv) (id : FpgaId) :
    Prop :=
  connectId dev args = some id ∧ env.copyFromUser = true ∧ env.answers = true

instance (args : ConnectArgs) (id : FpgaId) : Decidable (ConnectGranted dev args env id) :=
  inferInstanceAs (Decidable (_ ∧ _))

theorem chainConnect_granted (dir : CidKind) (s : ChainDev) {args : ConnectArgs} {id : FpgaId}
    (h : ConnectGranted dev args env id) :
    (chainConnect dev args dir env s).1 = .ok () ∧
      (chainConnect dev args dir env s).2.tables =
        s.tables.set id.lane dir (entryKey id.entry id.fchid dir) (some (id.word dir)) id.fchid
          (some id.entry) := by
  obtain ⟨hid, hcopy, hans⟩ := h
  unfold chainConnect ioctlUpdateTable
  simp only [hid, hcopy, hans]
  obtain ⟨hbad, -⟩ | ⟨-, t, ⟨-, heval, htables⟩ | ⟨hans, -⟩⟩ := update_cases_tables true id dir s
  · exact absurd (connectId_entry hid) hbad
  · simp only [heval]
    exact ⟨rfl, htables⟩
  · cases hans

theorem chainConnect_refused (dir : CidKind) (s : ChainDev) {args : ConnectArgs}
    (h : ∀ id, ¬ ConnectGranted dev args env id) :
    (∃ e, (chainConnect dev args dir env s).1 = .error e) ∧
      (chainConnect dev args dir env s).2.tables = s.tables := by
  unfold chainConnect ioctlUpdateTable
  cases hid : connectId dev args with
  | none => exact ⟨⟨_, rfl⟩, rfl⟩
  | some id =>
    cases hcopy : env.copyFromUser with
    | false => exact ⟨⟨_, rfl⟩, rfl⟩
    | true =>
      obtain ⟨-, heval⟩ | ⟨-, t, ⟨hans, -⟩ | ⟨-, heval, htables⟩⟩ :=
        update_cases_tables env.answers id dir s
      · simp only [heval]
        exact ⟨⟨_, rfl⟩, rfl⟩
      · exact absurd ⟨hid, hcopy, hans⟩ (h id)
      · simp only [heval]
        exact ⟨⟨_, rfl⟩, htables⟩

/-- **`__fpga_chain_connect`** sets an entry of the module and of the driver, or changes none. -/
theorem chainConnect_cases (dev : Option FpgaDevice) (args : ConnectArgs) (dir : CidKind)
    (env : ChainEnv) (s : ChainDev) :
    (∃ id, ConnectGranted dev args env id ∧ (chainConnect dev args dir env s).1 = .ok () ∧
      (chainConnect dev args dir env s).2.tables =
        s.tables.set id.lane dir (entryKey id.entry id.fchid dir) (some (id.word dir)) id.fchid
          (some id.entry)) ∨
      (∀ id, ¬ ConnectGranted dev args env id) ∧
        (∃ e, (chainConnect dev args dir env s).1 = .error e) ∧
        (chainConnect dev args dir env s).2.tables = s.tables := by
  by_cases h : ∃ id, ConnectGranted dev args env id
  · obtain ⟨id, hid⟩ := h
    exact .inl ⟨id, hid, chainConnect_granted dir s hid⟩
  · exact .inr ⟨not_exists.mp h, chainConnect_refused dir s (not_exists.mp h)⟩

/-- The request of a disconnection gets through to the module, with `id`. -/
def DisconnectGranted (dev : Option FpgaDevice) (lane fchid : BitVec 32) (env : ChainEnv)
    (id : FpgaId) : Prop :=
  disconnectId dev lane fchid = some id ∧ env.copyFromUser = true ∧ env.answers = true

instance (lane fchid : BitVec 32) (id : FpgaId) :
    Decidable (DisconnectGranted dev lane fchid env id) :=
  inferInstanceAs (Decidable (_ ∧ _))

theorem chainDisconnect_granted {dir : CidKind} {s : ChainDev} {lane fchid : BitVec 32} {id : FpgaId} {entry : ExtifidCid}
    (h : DisconnectGranted dev lane fchid env id)
    (hentry : s.tables.soft id.lane id.fchid dir = some entry) :
    (chainDisconnect dev lane fchid dir env s).2.tables =
      s.tables.set id.lane dir (entryKey entry id.fchid dir) none id.fchid none := by
  obtain ⟨hid, hcopy, hans⟩ := h
  unfold chainDisconnect ioctlDeleteTable
  simp only [hid, hcopy, hans]
  obtain ⟨hnone, -⟩ | ⟨entry', t, hentry', ⟨-, heval, htables⟩ | ⟨hans, -⟩⟩ :=
    delete_cases_tables true id dir s
  · cases hentry.symm.trans hnone
  · obtain rfl : entry = entry' := Option.some.inj (hentry.symm.trans hentry')
    simp only [heval]
    cases env.copyToUser with
    | false => exact htables
    | true => exact htables
  · cases hans

theorem chainDisconnect_refused {dir : CidKind} {s : ChainDev} {lane fchid : BitVec 32}
    (h : ∀ id, DisconnectGranted dev lane fchid env id → s.tables.soft id.lane id.fchid dir = none) :
    (∃ e, (chainDisconnect dev lane fchid dir env s).1 = .error e) ∧
      (chainDisconnect dev lane fchid dir env s).2.tables = s.tables := by
  unfold chainDisconnect ioctlDeleteTable
  cases hid : disconnectId dev lane fchid with
  | none => exact ⟨⟨_, rfl⟩, rfl⟩
  | some id =>
    cases hcopy : env.copyFromUser with
    | false => exact ⟨⟨_, rfl⟩, rfl⟩
    | true =>
      obtain ⟨-, heval⟩ | ⟨entry, t, hentry, ⟨hans, -⟩ | ⟨-, heval, htables⟩⟩ :=
        delete_cases_tables env.answers id dir s
      · simp only [heval]
        exact ⟨⟨_, rfl⟩, rfl⟩
      · cases hentry.symm.trans (h id ⟨hid, hcopy, hans⟩)
      · simp only [heval]
        exact ⟨⟨_, rfl⟩, htables⟩

/-- **`__fpga_chain_disconnect`** takes the entry the driver remembers out of the module and out of
the driver, or changes nothing. -/
theorem chainDisconnect_cases (dev : Option FpgaDevice) (lane fchid : BitVec 32) (dir : CidKind)
    (env : ChainEnv) (s : ChainDev) :
    (∃ id entry, DisconnectGranted dev lane fchid env id ∧
      s.tables.soft id.lane id.fchid dir = some entry ∧
      (chainDisconnect dev lane fchid dir env s).2.tables =
        s.tables.set id.lane dir (entryKey entry id.fchid dir) none id.fchid none) ∨
      (∀ id, DisconnectGranted dev lane fchid env id →
        s.tables.soft id.lane id.fchid dir = none) ∧
        (chainDisconnect dev lane fchid dir env s).2.tables = s.tables := by
  by_cases h : ∃ id entry, DisconnectGranted dev lane fchid env id ∧
      s.tables.soft id.lane id.fchid dir = some entry
  · obtain ⟨id, entry, hid, hentry⟩ := h
    exact .inl ⟨id, entry, hid, hentry, chainDisconnect_granted hid hentry⟩
  · have hnone : ∀ id, DisconnectGranted dev lane fchid env id →
        s.tables.soft id.lane id.fchid dir = none := by
      intro id hid
      cases hentry : s.tables.soft id.lane id.fchid dir with
      | none => rfl
      | some entry => exact absurd ⟨id, entry, hid, hentry⟩ h
    exact .inr ⟨hnone, (chainDisconnect_refused hnone).2⟩

end HardwareDrivers.Libfpga
