import HardwareDrivers.Libfpga.Polling
import HardwareDrivers.Libptu.Lanes

/-!
# Waiting for an empty TCP buffer

`fpga_ptu_wait_tcb_buffer_empty` polls the dump of a connection until all that was
written is acknowledged. `libptu.h` says that a null timeout means that there is none;
the pointer is handed to `__fpga_common_polling`, which makes it a timeout of no time.

## What is proved

* `waitTcbClb_eq` — the callback by what the dump finds.
* `waitRight_iff` — the wait does what the header says exactly if the first dump decides, or
  there is a timeout and its nanoseconds can be computed.
-/

namespace HardwareDrivers.Libptu.Lane

open Theory Libfpga

/-- What a dump finds: whether the lane is initialised at the time, and the registers. -/
structure Instant where
  /-- `ptu_devices` has the pair. -/
  opened : Bool
  /-- The registers. -/
  hw : Hardware

/-- `fpga_ptu_dump_tcb`: the dump, or the error. -/
def dumpTcb (cid : BitVec 32) (now : Instant) : Except ℤ FpgaDumpTcb :=
  if cid < 1 ∨ cid > 511 then .error invalidArgument
  else if now.opened then .ok (FpgaDumpTcb.ofRegs fun r => now.hw (.box r))
  else .error failureDeviceOpen

/-- `__fpga_ptu_wait_tcb_buffer_empty_clb`. -/
def waitClb (cid : BitVec 32) (now : Instant) : ℤ :=
  match dumpTcb cid now with
  | .error ret => ret
  | .ok tcb => if tcb.tcbUsrWrt = tcb.tcbSndUna then 0 else 1

/-- What `fpga_ptu_wait_tcb_buffer_empty` comes to. -/
structure WaitEnd where
  /-- The return value. -/
  ret : ℤ
  /-- `*is_success`, if it is set. -/
  isSuccess : Option Bool
  /-- How many dumps were made. -/
  dumps : ℕ
  deriving DecidableEq

/-- `fpga_ptu_wait_tcb_buffer_empty`, with what each dump finds and the rounds of the kernel; `none`
if it goes on after so many dumps. -/
def waitTcbBufferEmpty (cid : BitVec 32) (timeout interval : Option Timeval) (isSuccess opened : Bool)
    (now : ℕ → Instant) (round : ℕ → Round) (fuel : ℕ) : Option (Except Overflow WaitEnd) :=
  if isSuccess = false ∨ cid < 1 ∨ cid > 511 then some (.ok ⟨invalidArgument, none, 0⟩)
  else if opened then
    match fpgaCommonPolling timeout interval (some fun n => waitClb cid (now n)) round fuel with
    | none => none
    | some (.error o) => some (.error o)
    | some (.ok r) =>
      if r.ret < 0 then some (.ok ⟨r.ret, none, r.calls⟩)
      else some (.ok ⟨0, some (r.ret = 0), r.calls⟩)
  else some (.ok ⟨failureDeviceOpen, none, 0⟩)

/-- The dump shows that all that was written is acknowledged. -/
def ShowsEmpty (cid : BitVec 32) (now : Instant) : Prop :=
  ∃ tcb, dumpTcb cid now = .ok tcb ∧ tcb.tcbUsrWrt = tcb.tcbSndUna

/-- The dump fails. -/
def DumpFails (cid : BitVec 32) (now : Instant) : Prop := ∃ ret, dumpTcb cid now = .error ret

/-- It shows an empty buffer or fails. -/
def Decides (cid : BitVec 32) (now : Instant) : Prop := ShowsEmpty cid now ∨ DumpFails cid now

/-- The call with arguments that are accepted returns so. -/
def WaitReturns (cid : BitVec 32) (timeout interval : Option Timeval) (now : ℕ → Instant)
    (round : ℕ → Round) (w : WaitEnd) : Prop :=
  ∃ fuel, waitTcbBufferEmpty cid timeout interval true true now round fuel = some (.ok w)

/-- What the wait should do. -/
structure WaitRight (cid : BitVec 32) (timeout interval : Option Timeval) (now : ℕ → Instant)
    (round : ℕ → Round) : Prop where
  /-- No operation overflows. -/
  noOverflow : ∀ fuel o,
    waitTcbBufferEmpty cid timeout interval true true now round fuel ≠ some (.error o)
  /-- At least one dump is made. -/
  dumps_pos : ∀ w, WaitReturns cid timeout interval now round w → 0 < w.dumps
  /-- Without a timeout only a dump that decides ends it. -/
  no_timeout : timeout = none → ∀ w, WaitReturns cid timeout interval now round w →
    Decides cid (now (w.dumps - 1))
  /-- Success is that the last dump showed an empty buffer. -/
  success_iff : ∀ w, WaitReturns cid timeout interval now round w →
    (w.isSuccess = some true ↔ ShowsEmpty cid (now (w.dumps - 1)))
  /-- No success is reported only after the timeout. -/
  timed_out : ∀ w, WaitReturns cid timeout interval now round w → w.isSuccess = some false →
    (convertTimeVal2spec timeout).ns ≤ slept round (w.dumps - 1)

variable {cid : BitVec 32} {timeout interval : Option Timeval} {now : ℕ → Instant}
  {round : ℕ → Round}

/-! ### The callback -/

/-- The dump of the library, where no device is null. -/
theorem fpgaPtuDumpTcb_eq {lib : PtuLib} (h : lib.ptuDevices.NoNull) (cid : BitVec 32)
    (hw : Hardware) (pair : Pair) :
    (fpgaPtuDumpTcb cid true hw pair lib).1 =
      match dumpTcb cid ⟨lib.ptuDevices.contains pair, hw⟩ with
      | .ok tcb => .returned 0 (some (.tcb tcb))
      | .error ret => .returned ret none := by
  unfold fpgaPtuDumpTcb reading dumpTcb
  rw [← Bool.decide_or, Bool.true_and]
  by_cases hcid : cid < 1 ∨ cid > 511
  · rw [decide_eq_true hcid, if_neg (by decide), if_pos hcid]
  · rw [decide_eq_false hcid, if_pos (by decide), if_neg hcid]
    cases hpair : lib.ptuDevices.contains pair with
    | false =>
      rw [found_missing hpair]
      rfl
    | true =>
      obtain ⟨dev, hdev⟩ := h.live hpair
      rw [found, if_pos hpair, arrow_live hdev]
      rfl

theorem dumpTcb_error_neg {now : Instant} {ret : ℤ} (h : dumpTcb cid now = .error ret) : ret < 0 := by
  unfold dumpTcb at h
  split_ifs at h <;> cases h <;> decide

/-- **The callback by what the dump finds.** -/
theorem waitTcbClb_eq {lib : PtuLib} (h : lib.ptuDevices.NoNull) (cid : BitVec 32)
    (hw : Hardware) (pair : Pair) :
    (waitTcbClb cid hw pair lib).1 =
      .returned (waitClb cid ⟨lib.ptuDevices.contains pair, hw⟩) none := by
  have hdump := fpgaPtuDumpTcb_eq h cid hw pair
  unfold waitTcbClb waitClb
  generalize fpgaPtuDumpTcb cid true hw pair lib = result at hdump
  obtain ⟨outcome, lib'⟩ := result
  cases hd : dumpTcb cid ⟨lib.ptuDevices.contains pair, hw⟩ with
  | error ret =>
    rw [hd] at hdump
    simp only at hdump
    subst hdump
    have hret : ret ≠ 0 := (dumpTcb_error_neg hd).ne
    simp only [if_pos hret]
  | ok tcb =>
    rw [hd] at hdump
    simp only at hdump
    subst hdump
    rfl

theorem decides_iff {now : Instant} : Decides cid now ↔ waitClb cid now ≤ 0 := by
  unfold Decides ShowsEmpty DumpFails waitClb
  cases hd : dumpTcb cid now with
  | error ret =>
    refine iff_of_true (.inr ⟨ret, rfl⟩) (dumpTcb_error_neg hd).le
  | ok tcb =>
    by_cases heq : tcb.tcbUsrWrt = tcb.tcbSndUna
    · simp only [if_pos heq, le_refl, iff_true]
      exact .inl ⟨tcb, rfl, heq⟩
    · simp only [if_neg heq]
      refine iff_of_false ?_ (by decide)
      rintro (⟨_, ⟨⟩, heq'⟩ | ⟨_, ⟨⟩⟩)
      exact heq heq'

theorem showsEmpty_iff {now : Instant} : ShowsEmpty cid now ↔ waitClb cid now = 0 := by
  unfold ShowsEmpty waitClb
  cases hd : dumpTcb cid now with
  | error ret => exact iff_of_false (fun ⟨_, h, _⟩ => nomatch h) (dumpTcb_error_neg hd).ne
  | ok tcb =>
    by_cases heq : tcb.tcbUsrWrt = tcb.tcbSndUna
    · simp only [if_pos heq, iff_true]
      exact ⟨tcb, rfl, heq⟩
    · simp only [if_neg heq, one_ne_zero, iff_false]
      rintro ⟨_, ⟨⟩, heq'⟩
      exact heq heq'

/-! ### The wait -/

/-- What the wait makes of the end of the polling. -/
def waitEnd (r : PollEnd) : WaitEnd :=
  if r.ret < 0 then ⟨r.ret, none, r.calls⟩ else ⟨0, some (r.ret = 0), r.calls⟩

theorem waitEnd_dumps (r : PollEnd) : (waitEnd r).dumps = r.calls := by
  unfold waitEnd
  split_ifs <;> rfl

theorem waitEnd_success {r : PollEnd} : (waitEnd r).isSuccess = some true ↔ r.ret = 0 := by
  unfold waitEnd
  split_ifs with hneg
  · exact iff_of_false nofun (by omega)
  · simp

theorem waitEnd_failure {r : PollEnd} : (waitEnd r).isSuccess = some false ↔ 0 < r.ret := by
  unfold waitEnd
  split_ifs with hneg
  · exact iff_of_false nofun (by omega)
  · simp only [Option.some.injEq, decide_eq_false_iff_not]
    omega

/-- With arguments that are accepted the wait is the polling. -/
theorem waitTcbBufferEmpty_eq (hcid : ¬ (cid < 1 ∨ cid > 511)) (fuel : ℕ) :
    waitTcbBufferEmpty cid timeout interval true true now round fuel =
      (fpgaCommonPolling timeout interval (some fun n => waitClb cid (now n)) round fuel).map
        (Except.map waitEnd) := by
  unfold waitTcbBufferEmpty
  rw [if_neg (by simpa using hcid), if_pos rfl]
  cases fpgaCommonPolling timeout interval (some fun n => waitClb cid (now n)) round fuel with
  | none => rfl
  | some res =>
    cases res with
    | error o => rfl
    | ok r =>
      simp only [Option.map_some, Except.map, waitEnd]
      split_ifs <;> rfl

/-- What the wait returns is what the polling ends with. -/
theorem waitReturns_iff (interval : Option Timeval) (hcid : ¬ (cid < 1 ∨ cid > 511))
    (hr : Realtime round)
    (hc : waitClb cid (now 0) ≤ 0 ∨ (convertTimeVal2spec timeout).Representable) (w : WaitEnd) :
    WaitReturns cid timeout interval now round w ↔
      ∃ m, StopsFirst timeout (fun n => waitClb cid (now n)) round m ∧
        w = waitEnd (endAfter interval (fun n => waitClb cid (now n)) round m) := by
  have hcases := fpgaCommonPolling_cases interval (fun n => waitClb cid (now n)) hr hc
  unfold WaitReturns
  simp only [waitTcbBufferEmpty_eq hcid]
  constructor
  · rintro ⟨fuel, hfuel⟩
    rcases hcases fuel with ⟨m, hm, -, hend⟩ | ⟨-, hend⟩
    · rw [hend] at hfuel
      cases hfuel
      exact ⟨m, hm, rfl⟩
    · rw [hend] at hfuel
      cases hfuel
  · rintro ⟨n, hn, rfl⟩
    refine ⟨n + 1, ?_⟩
    rcases hcases (n + 1) with ⟨m, hm, -, hend⟩ | ⟨hno, -⟩
    · rw [hend, hm.eq hn]
      rfl
    · exact absurd hn.1 (hno n (Nat.lt_succ_self n))

/-- **The wait does what the header says**, with a timeout and without, exactly if the first dump
decides, or there is a timeout whose nanoseconds can be computed. -/
theorem waitRight_iff (cid : BitVec 32) (timeout interval : Option Timeval) (now : ℕ → Instant)
    (round : ℕ → Round) (hcid : ¬ (cid < 1 ∨ cid > 511)) (hr : Realtime round) :
    WaitRight cid timeout interval now round ↔
      Decides cid (now 0) ∨ timeout ≠ none ∧ (convertTimeVal2spec timeout).Representable := by
  constructor
  · intro h
    by_cases hfirst : Decides cid (now 0)
    · exact .inl hfirst
    have hret : ¬ waitClb cid (now 0) ≤ 0 := fun hle => hfirst (decides_iff.mpr hle)
    have hrepr : (convertTimeVal2spec timeout).Representable := by
      have hpoll : ∀ o, fpgaCommonPolling timeout interval (some fun n => waitClb cid (now n)) round 1 ≠
          some (.error o) := by
        intro o ho
        refine h.noOverflow 1 o ?_
        rw [waitTcbBufferEmpty_eq hcid, ho]
        rfl
      exact representable_of_noOverflow hret hpoll
    refine .inr ⟨?_, hrepr⟩
    rintro rfl
    -- no time at all has passed, and that is enough
    have hstops : StopsFirst none (fun n => waitClb cid (now n)) round 0 :=
      ⟨.inr le_rfl, fun k hk => absurd hk (Nat.not_lt_zero k)⟩
    have hreturns := (waitReturns_iff interval hcid hr (.inr hrepr) _).mpr ⟨0, hstops, rfl⟩
    have hdecides := h.no_timeout rfl _ hreturns
    rw [waitEnd_dumps] at hdecides
    exact hfirst hdecides
  · intro hc
    have hc' : waitClb cid (now 0) ≤ 0 ∨ (convertTimeVal2spec timeout).Representable :=
      hc.imp decides_iff.mp And.right
    have hreturns := fun w => (waitReturns_iff interval hcid hr hc' w).mp
    refine ⟨fun fuel o ho => ?_, fun w hw => ?_, fun hnull w hw => ?_, fun w hw => ?_,
      fun w hw hfalse => ?_⟩
    · rw [waitTcbBufferEmpty_eq hcid] at ho
      rcases fpgaCommonPolling_cases interval (fun n => waitClb cid (now n)) hr hc' fuel with
        ⟨m, -, -, hend⟩ | ⟨-, hend⟩ <;> rw [hend] at ho <;> cases ho
    · obtain ⟨m, -, rfl⟩ := hreturns w hw
      rw [waitEnd_dumps]
      exact Nat.succ_pos m
    · obtain ⟨m, hm, rfl⟩ := hreturns w hw
      have hfirst : Decides cid (now 0) := hc.resolve_right fun h => h.1 hnull
      have hzero : StopsFirst timeout (fun n => waitClb cid (now n)) round 0 :=
        ⟨.inl (decides_iff.mp hfirst), fun k hk => absurd hk (Nat.not_lt_zero k)⟩
      obtain rfl := hm.eq hzero
      rw [waitEnd_dumps]
      exact hfirst
    · obtain ⟨m, hm, rfl⟩ := hreturns w hw
      rw [waitEnd_success, waitEnd_dumps, showsEmpty_iff]
      exact Iff.rfl
    · obtain ⟨m, hm, rfl⟩ := hreturns w hw
      rw [waitEnd_dumps]
      have hpos := waitEnd_failure.mp hfalse
      exact hm.1.resolve_left fun hle => absurd hpos (not_lt.mpr hle)

/-- A lane that stays initialised, with registers that show two bytes not acknowledged until the third
dump. -/
def thirdDumpEmpty (n : ℕ) : Instant :=
  ⟨true, fun r => if n < 2 ∧ r = .box .tcbUsrWrt then 2 else 0⟩

/-- A wait of at most ten seconds. -/
theorem waitRight_third :
    Realtime (fun n => ⟨⟨min n 1000, 0⟩, [], ⟨min (n + 1) 1000, 0⟩⟩) ∧
      WaitRight 1 (some ⟨10, 0, by decide, by decide⟩) none thirdDumpEmpty
        fun n => ⟨⟨min n 1000, 0⟩, [], ⟨min (n + 1) 1000, 0⟩⟩ :=
  ⟨realtime_thousand, (waitRight_iff _ _ _ _ _ (by decide) realtime_thousand).mpr
    (.inr ⟨nofun, by decide⟩)⟩

/-- Without a timeout the wait ends after the first dump, which shows two bytes. -/
theorem not_waitRight :
    ¬ ∀ (cid : BitVec 32) (timeout interval : Option Timeval) (now : ℕ → Instant) (round : ℕ → Round),
      ¬ (cid < 1 ∨ cid > 511) → Realtime round → WaitRight cid timeout interval now round := by
  intro h
  have hright := h 1 none none thirdDumpEmpty _ (by decide) realtime_thousand
  have hdecides := hright.no_timeout rfl ⟨0, some false, 1⟩ ⟨1, by decide⟩
  rw [decides_iff] at hdecides
  revert hdecides
  decide

end HardwareDrivers.Libptu.Lane
