import HardwareDrivers.Driver.ChainRaw
import HardwareDrivers.Libfpga.ChainRuns
import HardwareDrivers.Libfpga.Polling

/-!
# Waiting for a connection of a function chain

`libchain.c` waits for a connection or a disconnection by polling what the driver remembers,
which is not what the module has; `libchain_stat.c` waits in the same way until the egress of
a function chain is free. Other programs connect and disconnect between two polls.

## What is proved

* `waitsFor_module` — as long as nobody moves an ingress connection, a wait ends at the first poll at
  which the module has, or no longer has, an enabled entry of the function chain, or the ioctl
  fails, or the time is over; and it says which.
* `waitEgrFree_waitsFor` — the wait for a free egress.
-/

namespace HardwareDrivers.Libfpga

open Theory Driver

/-! ### Errors as numbers -/

/-- The numbers of `liblogging.h`. -/
def LibfpgaErr.number : LibfpgaErr → ℤ
  | .notInitialized => 1
  | .alreadyInitialized => 2
  | .alreadyAssigned => 3
  | .invalidArgument => 4
  | .noDevices => 5
  | .failureMemoryAlloc => 6
  | .failureDeviceOpen => 7
  | .failureIoctl => 8
  | .failureMmap => 9
  | .invalidAddress => 10
  | .enqueueQuefull => 11
  | .dequeueTimeout => 12
  | .connectorIdMismatch => 13
  | .funcChainIdMismatch => 14
  | .unavailableChid => 15
  | .alreadyActiveChid => 16
  | .tableUpdateTimeout => 17
  | .failureInitialize => 18
  | .callbackFunction => 19
  | .mismatchFilePrefix => 20
  | .failureSendSignal => 21
  | .failureRegisterSignal => 22
  | .notRegisteredSignal => 23
  | .failureFork => 24
  | .failureMkdir => 25
  | .failureEstablish => 26
  | .failureTransfer => 27
  | .failureController => 28
  | .invalidData => 29
  | .failureBind => 30
  | .connectionLost => 31
  | .failureOpen => 32
  | .failureRead => 33
  | .failureWrite => 34
  | .fullElement => 35
  | .invalidParameter => 36
  | .invalidOperation => 37

/-! ### Reading what the driver remembers -/

/-- What a poll meets: the device at that time, and what its ioctl meets outside. -/
structure ChainMoment where
  /-- The device. -/
  dev : ChainDev
  /-- The outside. -/
  env : ChainEnv

/-- The variables of a caller of `fpga_chain_read_soft_table`; `none` is a null pointer. -/
structure SoftIds where
  /-- `*ingress_extif_id`. -/
  ingressExtifId : Option (BitVec 32)
  /-- `*ingress_cid`. -/
  ingressCid : Option (BitVec 32)
  /-- `*egress_extif_id`. -/
  egressExtifId : Option (BitVec 32)
  /-- `*egress_cid`. -/
  egressCid : Option (BitVec 32)
  deriving DecidableEq

/-- The checks of `fpga_chain_read_soft_table` on its pointers: both of a direction or none of it,
and not none at all. -/
def SoftIds.Accepted (ids : SoftIds) : Prop :=
  ids.ingressExtifId.isSome = ids.ingressCid.isSome ∧ ids.egressExtifId.isSome = ids.egressCid.isSome ∧
    (ids.ingressExtifId.isSome = true ∨ ids.egressExtifId.isSome = true)

instance (ids : SoftIds) : Decidable ids.Accepted := inferInstanceAs (Decidable (_ ∧ _))

/-- `XPCIE_DEV_CHAIN_READ_SOFT_TABLE`: the entries of both directions. -/
def ioctlReadSoftTable (lane : Lane) (fchid : Fchid) (now : ChainMoment) :
    Except ChainErrno (CidKind → Option ExtifidCid) :=
  if now.env.copyFromUser = false ∨ now.env.copyToUser = false then .error .efault
  else .ok (now.dev.fchDevTable lane fchid)

/-- `fpga_chain_read_soft_table`. -/
def fpgaChainReadSoftTable (dev : Option FpgaDevice) (lane fchid : BitVec 32) (ids : SoftIds)
    (now : ChainMoment) : Except LibfpgaErr SoftIds :=
  match dev.bind (·.lane lane) with
  | none => .error .invalidArgument
  | some lane =>
    if 511 < fchid.toNat ∨ ¬ ids.Accepted then .error .invalidArgument
    else
      match ioctlReadSoftTable lane (fchid.setWidth 9) now with
      | .error _ => .error .failureIoctl
      | .ok entry => .ok {
          ingressExtifId := ids.ingressExtifId.map fun _ => RawChain.extifIdWord (entry .ingress)
          ingressCid := ids.ingressCid.map fun _ => RawChain.cidWord (entry .ingress)
          egressExtifId := ids.egressExtifId.map fun _ => RawChain.extifIdWord (entry .egress)
          egressCid := ids.egressCid.map fun _ => RawChain.cidWord (entry .egress) }

/-- `__fpga_chain_wait_connection_clb`. -/
def fpgaChainWaitConnectionClb (dev : Option FpgaDevice) (lane fchid : BitVec 32)
    (isIngress isEstablished : Bool) (now : ChainMoment) : ℤ :=
  match fpgaChainReadSoftTable dev lane fchid ⟨some (-1), some (-1), some (-1), some (-1)⟩ now with
  | .error e => -e.number
  | .ok ids =>
    if isIngress then
      if isEstablished then
        if ids.ingressExtifId ≠ some (-1) ∧ ids.ingressCid ≠ some (-1) then 0 else 1
      else if ids.ingressExtifId = some (-1) ∧ ids.ingressCid = some (-1) then 0 else 1
    else
      if isEstablished then
        if ids.egressExtifId ≠ some (-1) ∧ ids.egressCid ≠ some (-1) then 0 else 1
      else if ids.egressExtifId = some (-1) ∧ ids.egressCid = some (-1) then 0 else 1

/-! ### The waits -/

/-- What a wait comes to. -/
structure ChainWaitEnd where
  /-- The return value. -/
  ret : ℤ
  /-- `*is_success`, if it is set. -/
  isSuccess : Option Bool
  /-- How many polls were made. -/
  polls : ℕ
  deriving DecidableEq

/-- What a wait makes of the end of its polling. -/
def chainWaitEnd (r : PollEnd) : ChainWaitEnd :=
  if r.ret < 0 then ⟨r.ret, none, r.calls⟩ else ⟨0, some (r.ret = 0), r.calls⟩

/-- The waits: the checks, the polling, and what is made of its end; `none` if it goes on after so
many polls. -/
def chainWait (dev : Option FpgaDevice) (lane fchid : BitVec 32) (timeout interval : Option Timeval)
    (isSuccess : Bool) (clb : ℕ → ℤ) (round : ℕ → Round) (fuel : ℕ) :
    Option (Except Overflow ChainWaitEnd) :=
  if (dev.bind (·.lane lane)).isNone ∨ isSuccess = false ∨ 511 < fchid.toNat then
    some (.ok ⟨-LibfpgaErr.invalidArgument.number, none, 0⟩)
  else (fpgaCommonPolling timeout interval (some clb) round fuel).map (Except.map chainWaitEnd)

/-- The four waits on the table: `now n` is what poll `n` meets. -/
def chainWaitConnection (isIngress isEstablished : Bool) (dev : Option FpgaDevice)
    (lane fchid : BitVec 32) (timeout interval : Option Timeval) (isSuccess : Bool)
    (now : ℕ → ChainMoment) (round : ℕ → Round) (fuel : ℕ) : Option (Except Overflow ChainWaitEnd) :=
  chainWait dev lane fchid timeout interval isSuccess
    (fun n => fpgaChainWaitConnectionClb dev lane fchid isIngress isEstablished (now n)) round fuel

/-- `fpga_chain_wait_connection_ingress`. -/
def fpgaChainWaitConnectionIngress := chainWaitConnection true true

/-- `fpga_chain_wait_connection_egress`. -/
def fpgaChainWaitConnectionEgress := chainWaitConnection false true

/-- `fpga_chain_wait_disconnection_ingress`. -/
def fpgaChainWaitDisconnectionIngress := chainWaitConnection true false

/-- `fpga_chain_wait_disconnection_egress`. -/
def fpgaChainWaitDisconnectionEgress := chainWaitConnection false false

/-- `fpga_chain_get_stat_egr_busy`, with what the ioctl answers; `busy` if the pointer is not
`NULL`. -/
def fpgaChainGetStatEgrBusy (dev : Option FpgaDevice) (lane fchid : BitVec 32) (busy : Bool)
    (frameNum : Option (BitVec 32)) : Except LibfpgaErr (BitVec 32) :=
  if (dev.bind (·.lane lane)).isNone ∨ busy = false ∨ 511 < fchid.toNat then .error .invalidArgument
  else
    match frameNum with
    | none => .error .failureIoctl
    | some frameNum => .ok frameNum

/-- `__fpga_chain_wait_stat_egr_free_clb`. -/
def fpgaChainWaitStatEgrFreeClb (dev : Option FpgaDevice) (lane fchid : BitVec 32)
    (frameNum : Option (BitVec 32)) : ℤ :=
  match fpgaChainGetStatEgrBusy dev lane fchid true frameNum with
  | .error e => -e.number
  | .ok busy => if busy ≠ 0 then 1 else 0

/-- `fpga_chain_wait_stat_egr_free`: `frameNum n` is what the ioctl of poll `n` answers. -/
def fpgaChainWaitStatEgrFree (dev : Option FpgaDevice) (lane fchid : BitVec 32)
    (timeout interval : Option Timeval) (isSuccess : Bool) (frameNum : ℕ → Option (BitVec 32))
    (round : ℕ → Round) (fuel : ℕ) : Option (Except Overflow ChainWaitEnd) :=
  chainWait dev lane fchid timeout interval isSuccess
    (fun n => fpgaChainWaitStatEgrFreeClb dev lane fchid (frameNum n)) round fuel

/-! ### What a wait should do -/

/-- A wait for a condition: it fails where a poll fails, succeeds where the condition holds, and gives
up when the time is over, whichever comes first. -/
structure WaitsFor (wait : ℕ → Option (Except Overflow ChainWaitEnd)) (timeout : Option Timeval)
    (round : ℕ → Round) (fails holds : ℕ → Prop) : Prop where
  /-- No operation overflows. -/
  noOverflow : ∀ fuel o, wait fuel ≠ some (.error o)
  /-- It comes to an end if one of the three happens. -/
  returns : ∀ n, (fails n ∨ holds n ∨ (convertTimeVal2spec timeout).ns ≤ slept round n) →
    ∃ fuel w, wait fuel = some (.ok w) ∧ w.polls ≤ n + 1
  /-- Before the last poll none of the three happened. -/
  before : ∀ fuel w, wait fuel = some (.ok w) → 0 < w.polls ∧ ∀ k < w.polls - 1,
    ¬ fails k ∧ ¬ holds k ∧ slept round k < (convertTimeVal2spec timeout).ns
  /-- The last poll fails. -/
  failed : ∀ fuel w, wait fuel = some (.ok w) → (w.isSuccess = none ↔ fails (w.polls - 1)) ∧
    (w.isSuccess = none → w.ret = -LibfpgaErr.failureIoctl.number)
  /-- The last poll shows the condition. -/
  succeeded : ∀ fuel w, wait fuel = some (.ok w) →
    (w.isSuccess = some true ↔ ¬ fails (w.polls - 1) ∧ holds (w.polls - 1))
  /-- The time is over, and the last poll does not show the condition. -/
  gaveUp : ∀ fuel w, wait fuel = some (.ok w) → w.isSuccess = some false →
    ¬ holds (w.polls - 1) ∧ (convertTimeVal2spec timeout).ns ≤ slept round (w.polls - 1)

/-- The ioctl of a poll fails. -/
def ChainMoment.Fails (now : ChainMoment) : Prop :=
  now.env.copyFromUser = false ∨ now.env.copyToUser = false

instance (now : ChainMoment) : Decidable now.Fails := inferInstanceAs (Decidable (_ ∨ _))

/-- The module has an enabled entry of the function chain. -/
def ChainMoment.ModuleHas (now : ChainMoment) (lane : Lane) (kind : CidKind) (fchid : Fchid) : Prop :=
  ∃ entry, now.dev.tables.HwEntry Enabled lane kind fchid entry

/-- The device at the polls of a wait: it started with empty tables, and any calls were made before
each poll, of which none moves an ingress connection. -/
structure Watched (dev : FpgaDevice) (now : ℕ → ChainMoment) : Prop where
  /-- Before the first poll. -/
  start : ∃ s calls, s.tables = emptyTables ∧ run (chainStep (some dev)) s calls = some (now 0).dev ∧
    Along (chainStep (some dev)) (MovesNothing (some dev)) s calls
  /-- Between two polls. -/
  next : ∀ n, ∃ calls, run (chainStep (some dev)) (now n).dev calls = some (now (n + 1)).dev ∧
    Along (chainStep (some dev)) (MovesNothing (some dev)) (now n).dev calls

/-- The direction that a wait looks at. -/
def directionKind (isIngress : Bool) : CidKind := if isIngress then .ingress else .egress

variable {dev : FpgaDevice} {lane fchid : BitVec 32} {l : Lane} {timeout interval : Option Timeval}
  {round : ℕ → Round} {clb : ℕ → ℤ}

/-! ### The polling -/

theorem chainWaitEnd_polls (r : PollEnd) : (chainWaitEnd r).polls = r.calls := by
  unfold chainWaitEnd
  split_ifs <;> rfl

theorem chainWaitEnd_none {r : PollEnd} : (chainWaitEnd r).isSuccess = none ↔ r.ret < 0 := by
  unfold chainWaitEnd
  split_ifs with hneg
  · exact iff_of_true rfl hneg
  · exact iff_of_false (by simp) hneg

theorem chainWaitEnd_true {r : PollEnd} : (chainWaitEnd r).isSuccess = some true ↔ r.ret = 0 := by
  unfold chainWaitEnd
  split_ifs with hneg
  · exact iff_of_false (by simp) hneg.ne
  · simp

theorem chainWaitEnd_false {r : PollEnd} : (chainWaitEnd r).isSuccess = some false ↔ 0 < r.ret := by
  unfold chainWaitEnd
  split_ifs with hneg
  · exact iff_of_false (by simp) (by omega)
  · simp only [Option.some.injEq, decide_eq_false_iff_not]
    omega

theorem chainWaitEnd_ret {r : PollEnd} (h : r.ret < 0) : (chainWaitEnd r).ret = r.ret := by
  unfold chainWaitEnd
  rw [if_pos h]

/-- A wait whose callback shows the condition is a wait for it. -/
theorem waitsFor_of_clb (hlane : dev.lane lane = some l) (hfchid : fchid.toNat ≤ 511)
    (hr : Realtime round) (hrep : (convertTimeVal2spec timeout).Representable) {fails holds : ℕ → Prop}
    [DecidablePred fails] [DecidablePred holds]
    (hclb : ∀ n, clb n = if fails n then -8 else if holds n then 0 else 1) :
    WaitsFor (chainWait (some dev) lane fchid timeout interval true clb round) timeout round fails
      holds := by
  have hfails : ∀ n, clb n < 0 ↔ fails n := by
    intro n
    rw [hclb]
    split_ifs with hf hh
    · exact iff_of_true (by decide) hf
    · exact iff_of_false (by decide) hf
    · exact iff_of_false (by decide) hf
  have hholds : ∀ n, clb n = 0 ↔ ¬ fails n ∧ holds n := by
    intro n
    rw [hclb]
    split_ifs with hf hh
    · exact iff_of_false (by decide) fun h => h.1 hf
    · exact iff_of_true rfl ⟨hf, hh⟩
    · exact iff_of_false (by decide) fun h => hh h.2
  have hwait : ∀ fuel, chainWait (some dev) lane fchid timeout interval true clb round fuel =
      (fpgaCommonPolling timeout interval (some clb) round fuel).map (Except.map chainWaitEnd) := by
    intro fuel
    unfold chainWait
    rw [Option.bind_some, hlane, if_neg (by simpa using hfchid)]
  have hcases := fpgaCommonPolling_cases interval clb hr (.inr hrep)
  -- what is returned is what the polling ends with
  have hend : ∀ fuel w, chainWait (some dev) lane fchid timeout interval true clb round fuel =
      some (.ok w) → ∃ m, StopsFirst timeout clb round m ∧
        w = chainWaitEnd (endAfter interval clb round m) := by
    intro fuel w hw
    rw [hwait] at hw
    rcases hcases fuel with ⟨m, hm, -, hpoll⟩ | ⟨-, hpoll⟩
    · rw [hpoll] at hw
      cases hw
      exact ⟨m, hm, rfl⟩
    · rw [hpoll] at hw
      cases hw
  have hstops : ∀ n, Stops timeout clb round n ↔
      fails n ∨ holds n ∨ (convertTimeVal2spec timeout).ns ≤ slept round n := by
    intro n
    have hle : clb n ≤ 0 ↔ fails n ∨ holds n := by
      rw [le_iff_lt_or_eq, hfails, hholds]
      tauto
    unfold Stops
    rw [hle, or_assoc]
  refine ⟨fun fuel o ho => ?_, fun n hn => ?_, fun fuel w hw => ?_, fun fuel w hw => ?_,
    fun fuel w hw => ?_, fun fuel w hw hfalse => ?_⟩
  · rw [hwait] at ho
    rcases hcases fuel with ⟨m, -, -, hpoll⟩ | ⟨-, hpoll⟩ <;> rw [hpoll] at ho <;> cases ho
  · obtain ⟨m, hle, hm⟩ := exists_stopsFirst ((hstops n).mpr hn)
    refine ⟨m + 1, chainWaitEnd (endAfter interval clb round m), ?_, ?_⟩
    · rw [hwait]
      rcases hcases (m + 1) with ⟨m', hm', -, hpoll⟩ | ⟨hno, -⟩
      · rw [hpoll, hm'.eq hm]
        rfl
      · exact absurd hm.1 (hno m (Nat.lt_succ_self m))
    · rw [chainWaitEnd_polls]
      exact Nat.succ_le_succ hle
  · obtain ⟨m, hm, rfl⟩ := hend fuel w hw
    rw [chainWaitEnd_polls]
    refine ⟨Nat.succ_pos m, fun k hk => ?_⟩
    have hno := hm.2 k hk
    rw [hstops] at hno
    simpa only [not_or, not_le] using hno
  · obtain ⟨m, -, rfl⟩ := hend fuel w hw
    rw [chainWaitEnd_none, chainWaitEnd_polls]
    refine ⟨hfails m, fun hneg => ?_⟩
    rw [chainWaitEnd_ret hneg]
    show clb m = -8
    rw [hclb, if_pos ((hfails m).mp hneg)]
  · obtain ⟨m, -, rfl⟩ := hend fuel w hw
    rw [chainWaitEnd_true, chainWaitEnd_polls]
    exact hholds m
  · obtain ⟨m, hm, rfl⟩ := hend fuel w hw
    rw [chainWaitEnd_polls]
    have hpos : 0 < clb m := chainWaitEnd_false.mp hfalse
    have hno : ¬ fails m := fun hf => absurd ((hfails m).mpr hf) hpos.le.not_gt
    exact ⟨fun hh => hpos.ne' ((hholds m).mpr ⟨hno, hh⟩), hm.1.resolve_left hpos.not_ge⟩

/-! ### What the callback sees -/

theorem Mirrors.valid {s : ChainDev} (hs : Mirrors s) {f : Fchid} {kind : CidKind} {entry : ExtifidCid}
    (h : s.fchDevTable l f kind = some entry) : entry.Valid :=
  ((hs l kind f entry).mpr h).1

theorem cidWord_ne {entry : ExtifidCid} (h : entry.Valid) : RawChain.cidWord (some entry) ≠ -1 := by
  obtain ⟨hcid, -⟩ := h
  have hword : (RawChain.cidWord (some entry)).toNat = entry.cid.toNat := by
    simp only [RawChain.cidWord, Option.map_some, Option.getD_some, BitVec.toNat_setWidth]
    omega
  have hones : (-1 : BitVec 32).toNat = 4294967295 := by decide
  intro heq
  rw [heq, hones] at hword
  omega

theorem extifIdWord_ne {entry : ExtifidCid} (h : entry.Valid) :
    RawChain.extifIdWord (some entry) ≠ -1 := by
  show entry.extifId ≠ -1
  rcases h.2 with heq | heq <;> rw [heq] <;> decide

theorem moduleHas_iff {now : ChainMoment} (hs : Mirrors now.dev) (f : Fchid) (kind : CidKind) :
    now.ModuleHas l kind f ↔ (now.dev.fchDevTable l f kind).isSome = true := by
  unfold ChainMoment.ModuleHas
  rw [Option.isSome_iff_exists]
  exact exists_congr fun entry => hs l kind f entry

/-- What the callback makes of the words of an entry. -/
theorem words_eq {s : ChainDev} (hs : Mirrors s) (f : Fchid) (kind : CidKind) (isEstablished : Bool) :
    (if isEstablished then
        if some (RawChain.extifIdWord (s.fchDevTable l f kind)) ≠ some (-1) ∧
          some (RawChain.cidWord (s.fchDevTable l f kind)) ≠ some (-1) then 0 else 1
      else if some (RawChain.extifIdWord (s.fchDevTable l f kind)) = some (-1) ∧
        some (RawChain.cidWord (s.fchDevTable l f kind)) = some (-1) then 0 else 1 : ℤ) =
      if (s.fchDevTable l f kind).isSome = isEstablished then 0 else 1 := by
  cases hentry : s.fchDevTable l f kind with
  | none => cases isEstablished <;> rfl
  | some entry =>
    have hvalid : entry.Valid := ((hs l kind f entry).mpr hentry).1
    have hextif : some (RawChain.extifIdWord (some entry)) ≠ some (-1) :=
      fun heq => extifIdWord_ne hvalid (Option.some.inj heq)
    have hcid : some (RawChain.cidWord (some entry)) ≠ some (-1) :=
      fun heq => cidWord_ne hvalid (Option.some.inj heq)
    cases isEstablished with
    | false => rw [if_neg Bool.false_ne_true, if_neg fun h => hextif h.1]; rfl
    | true => rw [if_pos rfl, if_pos ⟨hextif, hcid⟩]; rfl

/-- The callback fails where its ioctl fails, and else shows what the driver remembers. -/
theorem fpgaChainWaitConnectionClb_eq (hlane : dev.lane lane = some l) (hfchid : fchid.toNat ≤ 511)
    {now : ChainMoment} (hs : Mirrors now.dev) (isIngress isEstablished : Bool) :
    fpgaChainWaitConnectionClb (some dev) lane fchid isIngress isEstablished now =
      if now.Fails then -8
      else if (now.dev.fchDevTable l (fchid.setWidth 9) (directionKind isIngress)).isSome = isEstablished
        then 0 else 1 := by
  have haccepted : SoftIds.Accepted ⟨some (-1), some (-1), some (-1), some (-1)⟩ := by decide
  have hargs : ¬ (511 < fchid.toNat ∨
      ¬ SoftIds.Accepted ⟨some (-1), some (-1), some (-1), some (-1)⟩) :=
    not_or.mpr ⟨not_lt.mpr hfchid, not_not.mpr haccepted⟩
  unfold fpgaChainWaitConnectionClb fpgaChainReadSoftTable
  rw [Option.bind_some, hlane]
  simp only [if_neg hargs]
  by_cases hfails : now.Fails
  · have hioctl : ioctlReadSoftTable l (fchid.setWidth 9) now = .error .efault := if_pos hfails
    rw [hioctl, if_pos hfails]
    rfl
  · have hioctl : ioctlReadSoftTable l (fchid.setWidth 9) now =
        .ok (now.dev.fchDevTable l (fchid.setWidth 9)) := if_neg hfails
    rw [hioctl, if_neg hfails]
    cases isIngress with
    | false => exact words_eq hs (fchid.setWidth 9) .egress isEstablished
    | true => exact words_eq hs (fchid.setWidth 9) .ingress isEstablished

/-! ### The waits on the table -/

/-- The table of the driver is right at every poll. -/
theorem Watched.mirrors {now : ℕ → ChainMoment} (h : Watched dev now) (n : ℕ) :
    Mirrors (now n).dev := by
  have hrun : ∀ s t calls, Mirrors s → run (chainStep (some dev)) s calls = some t →
      Along (chainStep (some dev)) (MovesNothing (some dev)) s calls → Mirrors t := by
    intro s t calls hs ht hcalls
    refine (always_of_along (I := Mirrors) (fun u call v hu hc hv => ?_) hs hcalls).last ht
    exact (mirrors_step hu hv).mpr hc
  induction n with
  | zero =>
    obtain ⟨s, calls, hempty, ht, hcalls⟩ := h.start
    exact hrun s _ calls (mirrors_of_empty hempty) ht hcalls
  | succ n ih =>
    obtain ⟨calls, ht, hcalls⟩ := h.next n
    exact hrun _ _ calls ih ht hcalls

/-- **Waiting for the module.** Where nobody moves an ingress connection, a wait for a connection or a
disconnection is one for the entry that the module has or has not, though the polls look at the
table of the driver. -/
theorem waitsFor_module (isIngress isEstablished : Bool) (hlane : dev.lane lane = some l)
    (hfchid : fchid.toNat ≤ 511) (hr : Realtime round)
    (hrep : (convertTimeVal2spec timeout).Representable) {now : ℕ → ChainMoment}
    (hwatched : Watched dev now) :
    WaitsFor
      (chainWaitConnection isIngress isEstablished (some dev) lane fchid timeout interval true now round)
      timeout round (fun n => (now n).Fails)
      fun n => (now n).ModuleHas l (directionKind isIngress) (fchid.setWidth 9) ↔
        isEstablished = true := by
  have hshown : ∀ n, ((now n).ModuleHas l (directionKind isIngress) (fchid.setWidth 9) ↔
      isEstablished = true) ↔ ((now n).dev.fchDevTable l (fchid.setWidth 9)
        (directionKind isIngress)).isSome = isEstablished := by
    intro n
    rw [moduleHas_iff (hwatched.mirrors n), ← Bool.eq_iff_iff]
  simp only [hshown]
  exact waitsFor_of_clb hlane hfchid hr hrep fun n =>
    fpgaChainWaitConnectionClb_eq hlane hfchid (hwatched.mirrors n) isIngress isEstablished

/-- **Waiting for a free egress.** The wait ends at the first poll that reads zero frames, unless an
ioctl fails or the time is over before. -/
theorem waitEgrFree_waitsFor (hlane : dev.lane lane = some l) (hfchid : fchid.toNat ≤ 511)
    (hr : Realtime round) (hrep : (convertTimeVal2spec timeout).Representable)
    (frameNum : ℕ → Option (BitVec 32)) :
    WaitsFor (fpgaChainWaitStatEgrFree (some dev) lane fchid timeout interval true frameNum round)
      timeout round (fun n => frameNum n = none) fun n => frameNum n = some 0 := by
  refine waitsFor_of_clb hlane hfchid hr hrep fun n => ?_
  unfold fpgaChainWaitStatEgrFreeClb fpgaChainGetStatEgrBusy
  rw [Option.bind_some, hlane, if_neg (by simpa using hfchid)]
  cases frameNum n with
  | none => rfl
  | some frames => by_cases hzero : frames = 0 <;> simp [hzero]

/-- Before the third poll somebody connects function chain 0 to connection 5. -/
def connectedAtThird (n : ℕ) : ChainMoment :=
  ⟨if n < 2 then .reset else (fpgaChainConnectIngress (some twoLanes) 0 0 0 5 1 0 .fine .reset).2, .fine⟩

theorem watched_connectedAtThird : Watched twoLanes connectedAtThird := by
  refine ⟨⟨.reset, [], rfl, rfl, trivial⟩, fun n => ?_⟩
  by_cases hn : n = 1
  · subst hn
    refine ⟨[.connectIngress 0 0 0 5 1 0 .fine], rfl, fun t ht => ⟨fun id _ => ⟨fun e he => ?_, fun f hf => ?_⟩,
      trivial⟩⟩
    · cases he
    · cases hf
  · refine ⟨[], ?_, trivial⟩
    have hsame : n < 2 ↔ n + 1 < 2 := by omega
    rw [connectedAtThird, connectedAtThird, if_congr hsame rfl rfl]
    rfl

/-- A wait of at most ten seconds for it. -/
theorem waitsFor_module_third :
    WaitsFor
      (fpgaChainWaitConnectionIngress (some twoLanes) 0 0 (some ⟨10, 0, by decide, by decide⟩) none true
        connectedAtThird fun n => ⟨⟨min n 1000, 0⟩, [], ⟨min (n + 1) 1000, 0⟩⟩)
      (some ⟨10, 0, by decide, by decide⟩) (fun n => ⟨⟨min n 1000, 0⟩, [], ⟨min (n + 1) 1000, 0⟩⟩)
      (fun n => (connectedAtThird n).Fails)
      fun n => (connectedAtThird n).ModuleHas 0 .ingress 0 ↔ true = true :=
  waitsFor_module true true (by decide) (by decide) realtime_thousand (by decide)
    watched_connectedAtThird

end HardwareDrivers.Libfpga
