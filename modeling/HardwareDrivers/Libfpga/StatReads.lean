import HardwareDrivers.Driver.GetIoctls
import HardwareDrivers.Driver.StatCounters
import HardwareDrivers.Libfpga.ShmemMmap

/-!
# Statistics of a lane

The chain and the direct module are asked for bytes and frames by ioctl; the conversion
adapter by `pwrite` and `pread` from the library. All three select and then read, and
share the selector with everyone else who asks the same lane.

## What is proved

* `bytes_between` — the number of bytes that a request returns is one that its counter had while
  the request ran, in every run whose steps do not get in the way.
* `not_bytes_between`, `not_bytes_between_selected` — with a carry between the two reads, or with
  another selection before them, it is not.
-/

namespace HardwareDrivers.Libfpga

open Driver Theory

/-! ### The conversion adapter -/

/-- `XPCIE_FPGA_CONV_OFFSET` and `XPCIE_FPGA_CONV_KRNL_SIZE`. -/
def convModule : FpgaModuleInfo := ⟨0x0000024000, 0x0400⟩

/-- `XPCIE_FPGA_CONV_STAT_SEL_CHANNEL`. -/
def convStatSelChannel : BitVec 64 := 0x0050

/-- `XPCIE_FPGA_CONV_STAT_*_DATA_*_VALUE_L` and `_H`. -/
def convBytesRegs (regId : BitVec 32) : Option (BitVec 64 × BitVec 64) :=
  match regId.toNat with
  | 0 => some (0x0060, 0x0064)
  | 1 => some (0x0070, 0x0074)
  | 2 => some (0x0078, 0x007C)
  | 3 => some (0x0080, 0x0084)
  | 4 => some (0x0088, 0x008C)
  | 5 => some (0x0090, 0x0094)
  | _ => none

/-- `XPCIE_FPGA_CONV_STAT_*_FRAME_*_VALUE`. -/
def convFramesReg (regId : BitVec 32) : Option (BitVec 64) :=
  match regId.toNat with
  | 0 => some 0x0098
  | 1 => some 0x00A0
  | 2 => some 0x00A4
  | 3 => some 0x00A8
  | 4 => some 0x00AC
  | 5 => some 0x00B0
  | _ => none

/-- The system calls of a request. -/
inductive ConvSyscall where
  /-- `pwrite` to the selector. -/
  | pwrite
  /-- `pread` of the low word, or of the frames. -/
  | pread
  /-- `pread` of the high word. -/
  | preadHigh
  deriving DecidableEq

/-- What a request gets from outside. -/
structure ConvEnv where
  /-- `map.conv.num` of what `fpga_get_device` finds. -/
  dev : Option (BitVec 32)
  /-- The pointer for the result is not `NULL`. -/
  result : Bool
  /-- The system calls that fail. -/
  fails : ConvSyscall → Bool

/-- The checks of a request. -/
def ConvEnv.Valid (env : ConvEnv) (lane fchid regId : BitVec 32) : Prop :=
  (∃ num ∈ env.dev, lane < num) ∧ env.result = true ∧ fchid ≤ 511 ∧ regId ≤ 5

instance ConvEnv.decidableValid (env : ConvEnv) (lane fchid regId : BitVec 32) :
    Decidable (env.Valid lane fchid regId) :=
  inferInstanceAs (Decidable ((∃ num ∈ env.dev, lane < num) ∧ _))

/-- `pwrite` of a register. -/
def convPwrite (env : ConvEnv) (addr : BitVec 64) (lane value : BitVec 32) :
    RegProg (Except LibfpgaErr Unit) :=
  if env.fails .pwrite then pure (.error .failureWrite)
  else .ok <$> regWrite convModule addr lane value

/-- `pread` of a register. -/
def convPread (env : ConvEnv) (call : ConvSyscall) (addr : BitVec 64) (lane : BitVec 32) :
    RegProg (Except LibfpgaErr (BitVec 32)) :=
  if env.fails call then pure (.error .failureRead) else .ok <$> regRead convModule addr lane

/-- `fpga_conv_get_stat_bytes`. -/
def fpgaConvGetStatBytes (env : ConvEnv) (lane fchid regId : BitVec 32) :
    RegProg (Except LibfpgaErr (BitVec 64)) :=
  if env.Valid lane fchid regId then do
    let .ok () ← convPwrite env convStatSelChannel lane fchid | pure (.error .failureWrite)
    match convBytesRegs regId with
    | none => pure (.error .invalidArgument)
    | some (addrL, addrH) =>
      let .ok valueL ← convPread env .pread addrL lane | pure (.error .failureRead)
      let .ok valueH ← convPread env .preadHigh addrH lane | pure (.error .failureRead)
      pure (.ok (valueH ++ valueL))
  else pure (.error .invalidArgument)

/-! ### The counters of a lane -/

/-- A register of a module that shows a counter. -/
structure StatRow where
  /-- The register, the one that selects and the one with the low word. -/
  (addr sel counter : BitVec 64)
  /-- What it shows. -/
  half : StatHalf

/-- The two words of a counter. -/
def StatRow.bytes (sel addrL addrH : BitVec 64) : List StatRow :=
  [⟨addrL, sel, addrL, .low⟩, ⟨addrH, sel, addrL, .high⟩]

/-- A counter of which only the low word is shown. -/
def StatRow.frames (sel addr : BitVec 64) : StatRow := ⟨addr, sel, addr, .low⟩

/-- The registers of a module that show counters. -/
structure StatTable where
  /-- The registers. -/
  rows : List StatRow
  /-- No register is there twice. -/
  distinct : (rows.map (·.addr.setWidth 32)).Nodup

/-- The registers of a lane. -/
def StatTable.bank (table : StatTable) (m : FpgaModuleInfo) (lane : BitVec 32) : StatBank where
  entries := table.rows.map fun row =>
    ⟨m.offset row.addr lane, ⟨m.offset row.sel lane, m.offset row.counter lane, row.half⟩⟩
  nodupKeys := by
    rw [List.NodupKeys, List.keys, List.map_map]
    have h := List.pairwise_map.mp table.distinct
    refine List.pairwise_map.mpr (h.imp ?_)
    exact fun hne heq => hne (FpgaModuleInfo.offset_inj.mp heq)

/-- The chain module. -/
def chainStatTable : StatTable where
  rows := (List.range 12).flatMap (fun regId =>
      (chainBytesRegs (BitVec.ofNat 16 regId)).toList.flatMap fun regs =>
        StatRow.bytes regs.1 regs.2.1 regs.2.2) ++
    (List.range 12).filterMap fun regId =>
      (chainFramesReg (BitVec.ofNat 16 regId)).map (StatRow.frames chainStatSelChannel)
  distinct := by decide +kernel

/-- The direct module. -/
def directStatTable : StatTable where
  rows := [DirectKind.ingrRcv, .ingrSnd, .egrRcv, .egrSnd].flatMap fun kind =>
    StatRow.frames directStatSelChannel (directFramesReg kind) ::
      StatRow.bytes directStatSelChannel (directBytesRegs kind).1 (directBytesRegs kind).2
  distinct := by decide +kernel

/-- The conversion adapter. -/
def convStatTable : StatTable where
  rows := (List.range 6).flatMap (fun regId =>
      (convBytesRegs (BitVec.ofNat 32 regId)).toList.flatMap fun regs =>
        StatRow.bytes convStatSelChannel regs.1 regs.2) ++
    (List.range 6).filterMap fun regId =>
      (convFramesReg (BitVec.ofNat 32 regId)).map (StatRow.frames convStatSelChannel)
  distinct := by decide +kernel

theorem StatTable.lookup_bank {table : StatTable} {m : FpgaModuleInfo} {lane : BitVec 32}
    {row : StatRow} (h : row ∈ table.rows) :
    (table.bank m lane).lookup (m.offset row.addr lane) =
      some ⟨m.offset row.sel lane, m.offset row.counter lane, row.half⟩ :=
  AList.mem_lookup_iff.mpr (List.mem_map.mpr ⟨row, h, rfl⟩)

/-- The registers of a request, if they are the two words of a counter. -/
def statRead (m : FpgaModuleInfo) (lane : BitVec 32) (sel addrL addrH : BitVec 64)
    (index : BitVec 32) : StatRead :=
  ⟨m.offset sel lane, m.offset addrL lane, m.offset addrH lane, index⟩

theorem StatTable.statRead_of {table : StatTable} {m : FpgaModuleInfo} {lane index : BitVec 32}
    {sel addrL addrH : BitVec 64} (h : StatRow.bytes sel addrL addrH ⊆ table.rows) :
    (statRead m lane sel addrL addrH index).Of (table.bank m lane) where
  low := lookup_bank (h (List.mem_cons_self ..))
  high := lookup_bank (h (List.mem_cons_of_mem _ (List.mem_cons_self ..)))

theorem chainBytesRegs_subset {regId : BitVec 16} {addrW addrL addrH : BitVec 64}
    (h : chainBytesRegs regId = some (addrW, addrL, addrH)) :
    StatRow.bytes addrW addrL addrH ⊆ chainStatTable.rows := by
  have hlt : regId.toNat < 12 := by
    by_contra hge
    unfold chainBytesRegs at h
    split at h <;> first | omega | cases h
  intro row hrow
  refine List.mem_append_left _ (List.mem_flatMap.mpr ⟨regId.toNat, List.mem_range.mpr hlt, ?_⟩)
  simp only [BitVec.ofNat_toNat, BitVec.setWidth_eq, h, Option.toList_some, List.flatMap_singleton]
  exact hrow

theorem convBytesRegs_subset {regId : BitVec 32} {addrL addrH : BitVec 64}
    (h : convBytesRegs regId = some (addrL, addrH)) :
    StatRow.bytes convStatSelChannel addrL addrH ⊆ convStatTable.rows := by
  have hlt : regId.toNat < 6 := by
    by_contra hge
    unfold convBytesRegs at h
    split at h <;> first | omega | cases h
  intro row hrow
  refine List.mem_append_left _ (List.mem_flatMap.mpr ⟨regId.toNat, List.mem_range.mpr hlt, ?_⟩)
  simp only [BitVec.ofNat_toNat, BitVec.setWidth_eq, h, Option.toList_some, List.flatMap_singleton]
  exact hrow

/-! ### Requests for bytes -/

/-- A request for bytes to one of the modules. -/
inductive BytesRequest where
  /-- `xpcie_fpga_get_chain_bytes`. -/
  | chain (m : FpgaModuleInfo) (bytenum : FpgaIoctlBytenum)
  /-- `xpcie_fpga_get_direct_bytes`. -/
  | direct (m : FpgaModuleInfo) (bytenum : FpgaIoctlBytenum)
  /-- `fpga_conv_get_stat_bytes`. -/
  | conv (env : ConvEnv) (lane fchid regId : BitVec 32)

namespace BytesRequest

/-- The accesses of the request, and the number that it returns, if it does. -/
def prog : BytesRequest → RegProg (Option (BitVec 64))
  | chain m bytenum => (fun b => some b.byteNum) <$> xpcieFpgaGetChainBytes m bytenum
  | direct m bytenum => (fun b => some b.byteNum) <$> xpcieFpgaGetDirectBytes m bytenum
  | conv env lane fchid regId => Except.toOption <$> fpgaConvGetStatBytes env lane fchid regId

/-- The counters of the lane that is asked. -/
def bank : BytesRequest → StatBank
  | chain m bytenum => chainStatTable.bank m bytenum.lane
  | direct m bytenum => directStatTable.bank m bytenum.lane
  | conv _ lane _ _ => convStatTable.bank convModule lane

/-- The counter that the request selects and reads, unless the `reg_id` has none or the call comes
to an error. -/
def selects : BytesRequest → Option StatRead
  | chain m bytenum => (chainBytesRegs bytenum.regId).map fun (addrW, addrL, addrH) =>
    statRead m bytenum.lane addrW addrL addrH (bytenum.cidFchid.setWidth 32)
  | direct m bytenum => (directKind bytenum.regId).map fun kind =>
    statRead m bytenum.lane directStatSelChannel (directBytesRegs kind).1 (directBytesRegs kind).2
      (bytenum.cidFchid.setWidth 32)
  | conv env lane fchid regId =>
    if env.Valid lane fchid regId ∧ env.fails .pwrite = false ∧ env.fails .pread = false ∧
        env.fails .preadHigh = false then
      (convBytesRegs regId).map fun (addrL, addrH) =>
        statRead convModule lane convStatSelChannel addrL addrH fchid
    else none

/-- The registers that a request reads are the words of a counter of its lane. -/
theorem selects_of {req : BytesRequest} {r : StatRead} (h : req.selects = some r) :
    r.Of req.bank := by
  cases req with
  | chain m bytenum =>
    obtain ⟨⟨addrW, addrL, addrH⟩, hregs, rfl⟩ := Option.map_eq_some_iff.mp h
    exact StatTable.statRead_of (chainBytesRegs_subset hregs)
  | direct m bytenum =>
    obtain ⟨kind, -, rfl⟩ := Option.map_eq_some_iff.mp h
    refine StatTable.statRead_of fun row hrow => ?_
    refine List.mem_flatMap.mpr ⟨kind, ?_, List.mem_cons_of_mem _ hrow⟩
    cases kind <;> decide
  | conv env lane fchid regId =>
    rw [selects] at h
    split at h
    case isTrue =>
      obtain ⟨⟨addrL, addrH⟩, hregs, rfl⟩ := Option.map_eq_some_iff.mp h
      exact StatTable.statRead_of (convBytesRegs_subset hregs)
    case isFalse => cases h

/-- The request is the three accesses. -/
theorem prog_of_selects {req : BytesRequest} {r : StatRead} (h : req.selects = some r) :
    req.prog = r.prog some := by
  cases req with
  | chain m bytenum =>
    obtain ⟨⟨addrW, addrL, addrH⟩, hregs, rfl⟩ := Option.map_eq_some_iff.mp h
    simp only [prog, xpcieFpgaGetChainBytes, hregs]
    rfl
  | direct m bytenum =>
    obtain ⟨kind, hkind, rfl⟩ := Option.map_eq_some_iff.mp h
    simp only [prog, xpcieFpgaGetDirectBytes, hkind]
    rfl
  | conv env lane fchid regId =>
    rw [selects] at h
    split at h
    case isTrue hok =>
      obtain ⟨hvalid, hpwrite, hpread, hpreadHigh⟩ := hok
      obtain ⟨⟨addrL, addrH⟩, hregs, rfl⟩ := Option.map_eq_some_iff.mp h
      simp only [prog, fpgaConvGetStatBytes, if_pos hvalid, hregs, convPwrite, convPread, hpwrite,
        hpread, hpreadHigh]
      rfl
    case isFalse => cases h

end BytesRequest

variable {ι : Type} [DecidableEq ι]

/-- **Counts**: the number that a request returns is one that its counter had while it ran, in every
run of the lane whose steps do not get in the way. -/
theorem bytes_between {req : BytesRequest} {r : StatRead} (hr : req.selects = some r) {i : ι}
    {s t : Shared ι RegCmd RegCmd.Ans (Option (BitVec 64)) StatHw} {as : List (StatAction ι)}
    (hs : s.progs i = req.prog) (hC : Along req.bank.step (r.Undisturbed i) s as)
    (ht : run req.bank.step s as = some t) {value : BitVec 64}
    (hvalue : t.progs i = .done (some value)) :
    r.counter s.state ≤ value ∧ value ≤ r.counter t.state := by
  rw [BytesRequest.prog_of_selects hr] at hs
  obtain ⟨read, hread, hbetween⟩ :=
    StatRead.between (BytesRequest.selects_of hr) hs hC ht hvalue
  rw [Option.some.inj hread]
  exact hbetween

/-- The bytes that the ingress of session `cid` received at interface 0, in lane 0. -/
def receivedBytes (cid : BitVec 16) : BytesRequest := .chain ⟨0x1000, 0x0800⟩ ⟨0, 0, cid, 0⟩

/-- A lane where each of two processes asks for the bytes of its session. -/
def twoSessions (count : BitVec 32 → BitVec 64) :
    Shared Bool RegCmd RegCmd.Ans (Option (BitVec 64)) StatHw where
  state := { written := fun _ => 0, count := fun _ => count }
  progs i := (receivedBytes (if i then 1 else 0)).prog

/-- One process after the other. -/
theorem bytes_between_turns :
    ∃ t, run (receivedBytes 0).bank.step (twoSessions fun _ => 7)
        [.turn true, .turn true, .turn true, .turn false, .turn false, .turn false] = some t ∧
      ∃ value, t.progs false = .done (some value) ∧ 7 ≤ value ∧
        value ≤ t.state.count 0x1340 0 :=
  ⟨_, rfl, 7, rfl, @bytes_between Bool _ (receivedBytes 0) _ rfl false (twoSessions fun _ => 7) _
    [.turn true, .turn true, .turn true, .turn false, .turn false, .turn false]
    rfl (by decide +kernel) rfl 7 rfl⟩

/-- The counter carries into its high word after the low word was read: the request gives
`0x1FFFFFFFF`, between `0xFFFFFFFF` and `0x100000000`. -/
theorem not_bytes_between : ¬ ∀ (req : BytesRequest) (r : StatRead), req.selects = some r →
    ∀ (i : Bool) (s t : Shared Bool RegCmd RegCmd.Ans (Option (BitVec 64)) StatHw)
      (as : List (StatAction Bool)), s.progs i = req.prog → run req.bank.step s as = some t →
      ∀ value, t.progs i = .done (some value) →
        r.counter s.state ≤ value ∧ value ≤ r.counter t.state := by
  intro h
  have hle := h (receivedBytes 0) _ rfl false (twoSessions fun _ => 0xFFFFFFFF) _
    [.turn false, .turn false, .count 0x1340 0 0x100000000, .turn false] rfl rfl _ rfl
  exact absurd hle.2 (by decide +kernel)

/-- Another process selects its session before the words are read: the request of session 0, which
received `10` bytes, gives the `5` of session 1. -/
theorem not_bytes_between_selected :
    ∃ t, run (receivedBytes 0).bank.step (twoSessions fun x => if x = 0 then 10 else 5)
        [.turn false, .turn true, .turn false, .turn false] = some t ∧
      t.progs false = .done (some 5) ∧ t.state.count 0x1340 0 = 10 :=
  ⟨_, rfl, rfl, rfl⟩

end HardwareDrivers.Libfpga
