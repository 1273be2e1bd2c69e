import HardwareDrivers.Theory.CheckedInts
import Mathlib.Algebra.Order.BigOperators.Group.Finset
import Mathlib.Algebra.Order.Floor.Div
import Mathlib.Tactic.Ring

/-!
# The generic polling

`__fpga_common_polling` of `libfpgacommon.c` calls a function until it returns `0` or an
error, or until the time that was slept reaches a timeout. The time is a running sum of
differences of the clock, in seconds and nanoseconds, with a carry that truncates toward
zero; the test multiplies the seconds that remain by `10 ^ 9` in 64 bits, and nothing
keeps that product in the type.

The kernel answers what the loop asks it: a reading of the clock before and after each
sleep, and for each interruption of the sleep the time that was left.

## What is proved

* `elapsed_exact_iff` — the sum and what remains are exact in every round exactly if the
  timeout is less than `2 ^ 63` nanoseconds.
* `pollsRight_iff` — the polling stops when it should exactly if that is so or the first
  call already decides.
-/

namespace HardwareDrivers.Libfpga

open Theory

/-! ### Times -/

/-- `struct timespec`. -/
@[ext]
structure Timespec where
  /-- `tv_sec`. -/
  tvSec : ℤ
  /-- `tv_nsec`. -/
  tvNsec : ℤ
  deriving DecidableEq

/-- `struct timeval`, with the microseconds of one second. -/
structure Timeval where
  /-- `tv_sec`. -/
  tvSec : ℤ
  /-- `tv_usec`. -/
  tvUsec : ℤ
  sec_mem : InInt64 tvSec
  usec_mem : 0 ≤ tvUsec ∧ tvUsec < 10 ^ 6
  deriving DecidableEq

/-- The nanoseconds of a time. -/
def Timespec.ns (t : Timespec) : ℤ := t.tvSec * 10 ^ 9 + t.tvNsec

/-- The nanoseconds field is in its range. -/
def Timespec.Normal (t : Timespec) : Prop := 0 ≤ t.tvNsec ∧ t.tvNsec < 10 ^ 9

/-- A signed operation left its range. -/
inductive Overflow where
  /-- The behaviour is undefined. -/
  | overflow
  deriving DecidableEq

/-- `__convert_time_val2spec`: a null pointer is no time at all. -/
def convertTimeVal2spec : Option Timeval → Timespec
  | none => ⟨0, 0⟩
  | some val => ⟨val.tvSec, val.tvUsec * 1000⟩

/-- `__get_remain_ns`. -/
def getRemainNs (specElapsed specTarget : Timespec) : Except Overflow ℤ := do
  let sec ← int64 .overflow (specTarget.tvSec - specElapsed.tvSec)
  let msec ← int64 .overflow (sec * 1000)
  let usec ← int64 .overflow (msec * 1000)
  let nsec ← int64 .overflow (usec * 1000)
  let rest ← int64 .overflow (specTarget.tvNsec - specElapsed.tvNsec)
  int64 .overflow (nsec + rest)

/-- What one round of the loop gets from the kernel. -/
structure Round where
  /-- The clock before the sleep. -/
  t1 : Timespec
  /-- `rem`, each time `clock_nanosleep` is interrupted. -/
  rems : List Timespec
  /-- The clock after it. -/
  t2 : Timespec

/-- The time that a round measures. -/
def Round.ns (r : Round) : ℤ := r.t2.ns - r.t1.ns

/-- The clock is well formed and does not go back. -/
structure Round.Valid (r : Round) : Prop where
  t1 : r.t1.Normal
  t2 : r.t2.Normal
  le : r.t1.ns ≤ r.t2.ns

/-- What `clock_nanosleep` is asked for: the interval, then what was left of it each time. -/
def nanosleeps (iv : Timespec) (r : Round) : List Timespec := iv :: r.rems

/-- `elapsed_time` after a round. -/
def addElapsed (elapsed : Timespec) (r : Round) : Except Overflow Timespec := do
  let diff ← int64 .overflow (r.t2.tvNsec - r.t1.tvNsec)
  let upNs ← int64 .overflow (elapsed.tvNsec + diff)
  let sec ← int64 .overflow (r.t2.tvSec - r.t1.tvSec)
  let sec ← int64 .overflow (sec + upNs.tdiv (10 ^ 9))
  let sec ← int64 .overflow (elapsed.tvSec + sec)
  .ok ⟨sec, upNs.tmod (10 ^ 9)⟩

/-- One round of the loop after the callback: `none` if the timeout has passed. -/
def commonPollingRound (target elapsed : Timespec) (r : Round) : Except Overflow (Option Timespec) := do
  let remain ← getRemainNs elapsed target
  if remain ≤ 0 then .ok none
  else
    let elapsed ← addElapsed elapsed r
    .ok (some elapsed)

/-- What the polling comes to. -/
structure PollEnd where
  /-- The return value. -/
  ret : ℤ
  /-- How often the callback was called. -/
  calls : ℕ
  /-- What `clock_nanosleep` was asked for. -/
  requests : List Timespec
  deriving DecidableEq

/-- The loop of `__fpga_common_polling`, after `n` rounds. -/
def pollLoop (target iv : Timespec) (clb : ℕ → ℤ) (round : ℕ → Round) :
    ℕ → ℕ → Timespec → List Timespec → Option (Except Overflow PollEnd)
  | 0, _, _, _ => none
  | fuel + 1, n, elapsed, requests =>
    let ret := clb n
    if ret ≤ 0 then some (.ok ⟨ret, n + 1, requests⟩)
    else match commonPollingRound target elapsed (round n) with
      | .error e => some (.error e)
      | .ok none => some (.ok ⟨ret, n + 1, requests⟩)
      | .ok (some elapsed) =>
        pollLoop target iv clb round fuel (n + 1) elapsed (requests ++ nanosleeps iv (round n))

/-- `__fpga_common_polling`, with the results of the callback and the rounds of the kernel
in their order; `none` if it goes on after so many calls. -/
def fpgaCommonPolling (timeout interval : Option Timeval) (clb : Option (ℕ → ℤ))
    (round : ℕ → Round) (fuel : ℕ) : Option (Except Overflow PollEnd) :=
  match clb with
  | none => some (.ok ⟨-4, 0, []⟩)
  | some clb =>
    pollLoop (convertTimeVal2spec timeout) (convertTimeVal2spec interval) clb round fuel 0 ⟨0, 0⟩ []

/-- The nanoseconds of the target can be computed. -/
def Timespec.Representable (t : Timespec) : Prop := InInt64 (t.tvSec * 10 ^ 9) ∧ InInt64 t.ns

instance (t : Timespec) : Decidable t.Representable := inferInstanceAs (Decidable (_ ∧ _))

/-! ### What the times say -/

theorem convertTimeVal2spec_normal (timeout : Option Timeval) :
    (convertTimeVal2spec timeout).Normal := by
  cases timeout with
  | none => exact ⟨le_rfl, by decide⟩
  | some val =>
    obtain ⟨hlo, hhi⟩ := val.usec_mem
    constructor
    · show 0 ≤ val.tvUsec * 1000
      omega
    · show val.tvUsec * 1000 < 10 ^ 9
      omega

/-- What remains is exact as long as it can be computed. -/
theorem getRemainNs_eq {e t : Timespec} (hsec : InInt64 ((t.tvSec - e.tvSec) * 10 ^ 9))
    (hnsec : InInt64 (t.tvNsec - e.tvNsec)) (hns : InInt64 (t.ns - e.ns)) :
    getRemainNs e t = .ok (t.ns - e.ns) := by
  have h₃ : (t.tvSec - e.tvSec) * 1000 * 1000 * 1000 = (t.tvSec - e.tvSec) * 10 ^ 9 := by ring
  have h₂ : InInt64 ((t.tvSec - e.tvSec) * 1000 * 1000) :=
    InInt64.of_mul (c := 1000) (h₃ ▸ hsec) (by decide)
  have h₁ : InInt64 ((t.tvSec - e.tvSec) * 1000) := h₂.of_mul (by decide)
  have h₀ : InInt64 (t.tvSec - e.tvSec) := h₁.of_mul (by decide)
  have hsum : (t.tvSec - e.tvSec) * 10 ^ 9 + (t.tvNsec - e.tvNsec) = t.ns - e.ns := by
    unfold Timespec.ns
    ring
  simp only [getRemainNs, int64_of_mem h₀, int64_of_mem h₁, int64_of_mem h₂, h₃, int64_of_mem hsec,
    int64_of_mem hnsec, hsum, int64_of_mem hns, ok_bind]

/-- Before the first round the target itself is computed. -/
theorem representable_of_getRemainNs {t : Timespec} {z : ℤ} (h : getRemainNs ⟨0, 0⟩ t = .ok z) :
    t.Representable := by
  unfold getRemainNs at h
  simp only [bind_eq_ok, int64_eq_ok] at h
  obtain ⟨_, ⟨-, rfl⟩, _, ⟨-, rfl⟩, _, ⟨-, rfl⟩, _, ⟨h₃, rfl⟩, _, ⟨-, rfl⟩, h, -⟩ := h
  have hsec : (t.tvSec - 0) * 1000 * 1000 * 1000 = t.tvSec * 10 ^ 9 := by ring
  rw [hsec] at h₃ h
  exact ⟨h₃, by rwa [sub_zero] at h⟩

/-- A representable target remains before the first round. -/
theorem Timespec.Representable.getRemainNs_zero {t : Timespec} (h : t.Representable)
    (ht : t.Normal) : getRemainNs ⟨0, 0⟩ t = .ok t.ns := by
  obtain ⟨hsec, hns⟩ := h
  have hz : t.ns - (⟨0, 0⟩ : Timespec).ns = t.ns := by simp [Timespec.ns]
  have hn : InInt64 (t.tvNsec - 0) := by
    obtain ⟨hlo, hhi⟩ := ht
    constructor <;> omega
  have := getRemainNs_eq (e := ⟨0, 0⟩) (t := t) (by rwa [sub_zero]) hn (by rwa [hz])
  rwa [hz] at this

/-! ### The sum of the rounds -/

/-- The elapsed time is the given number of nanoseconds. -/
structure Exact (e : Timespec) (total : ℤ) : Prop where
  ns : e.ns = total
  nsec : -10 ^ 9 < e.tvNsec ∧ e.tvNsec < 10 ^ 9

/-- The elapsed time after a round, without the checks. -/
def carried (e : Timespec) (r : Round) : Timespec :=
  let upNs := e.tvNsec + (r.t2.tvNsec - r.t1.tvNsec)
  ⟨e.tvSec + (r.t2.tvSec - r.t1.tvSec + upNs.tdiv (10 ^ 9)), upNs.tmod (10 ^ 9)⟩

variable {e t : Timespec} {r : Round} {total : ℤ}

theorem exact_zero : Exact ⟨0, 0⟩ 0 := ⟨rfl, by decide, by decide⟩

/-- **One round adds what the clock shows**, whatever the signs of the two parts. -/
theorem Exact.carried (h : Exact e total) (r : Round) : Exact (carried e r) (total + r.ns) := by
  constructor
  · have hsum : r.ns = (r.t2.tvSec - r.t1.tvSec) * 10 ^ 9 + (r.t2.tvNsec - r.t1.tvNsec) := by
      unfold Round.ns Timespec.ns
      ring
    rw [← h.ns, hsum]
    exact split_add (10 ^ 9) e.tvSec e.tvNsec _ _
  · exact tmod_lt_base (by decide) _

theorem Exact.sec_nonneg (h : Exact e total) (h0 : 0 ≤ total) : 0 ≤ e.tvSec := by
  have hns : 0 ≤ e.tvSec * 10 ^ 9 + e.tvNsec := h0.trans h.ns.ge
  exact hi_nonneg (by decide) h.nsec.2 hns

/-- The seconds are what the whole allows. -/
theorem Exact.sec_le (h : Exact e total) : e.tvSec * 10 ^ 9 < total + 10 ^ 9 := by
  obtain ⟨hns, hlo, -⟩ := h
  unfold Timespec.ns at hns
  omega

/-- The round does not go back in its seconds either. -/
theorem Round.Valid.sec_le (h : r.Valid) : r.t1.tvSec ≤ r.t2.tvSec := by
  obtain ⟨⟨hlo, -⟩, ⟨-, hhi⟩, hle⟩ := h
  exact hi_le_of_le (by decide) hlo hhi hle

/-- Nothing overflows while the sum is in the range. -/
theorem addElapsed_eq (h : Exact e total) (hr : r.Valid) (h0 : 0 ≤ total)
    (hlt : total + r.ns < 2 ^ 63) : addElapsed e r = .ok (carried e r) := by
  have hsec := h.sec_nonneg h0
  have hsec' := h.sec_le
  have hle := hr.sec_le
  have hround : 0 ≤ r.ns := sub_nonneg.mpr hr.le
  have hdiff : (r.t2.tvSec - r.t1.tvSec) * 10 ^ 9 < r.ns + 10 ^ 9 := by
    obtain ⟨⟨-, h₁⟩, ⟨h₂, -⟩, -⟩ := hr
    unfold Round.ns Timespec.ns
    omega
  obtain ⟨⟨h₁, h₁'⟩, ⟨h₂, h₂'⟩, -⟩ := hr
  obtain ⟨-, hlo, hhi⟩ := h
  -- the carry is small either way
  have hq : -2 ≤ (e.tvNsec + (r.t2.tvNsec - r.t1.tvNsec)).tdiv (10 ^ 9) ∧
      (e.tvNsec + (r.t2.tvNsec - r.t1.tvNsec)).tdiv (10 ^ 9) ≤ 2 := by
    have hcarry := Int.tmod_add_tdiv_mul (e.tvNsec + (r.t2.tvNsec - r.t1.tvNsec)) (10 ^ 9)
    have hmod := tmod_lt_base (B := 10 ^ 9) (by decide) (e.tvNsec + (r.t2.tvNsec - r.t1.tvNsec))
    omega
  have hn₁ : InInt64 (r.t2.tvNsec - r.t1.tvNsec) := ⟨by omega, by omega⟩
  have hn₂ : InInt64 (e.tvNsec + (r.t2.tvNsec - r.t1.tvNsec)) := ⟨by omega, by omega⟩
  have hs₁ : InInt64 (r.t2.tvSec - r.t1.tvSec) := ⟨by omega, by omega⟩
  have hs₂ : InInt64 (r.t2.tvSec - r.t1.tvSec +
      (e.tvNsec + (r.t2.tvNsec - r.t1.tvNsec)).tdiv (10 ^ 9)) := ⟨by omega, by omega⟩
  have hs₃ : InInt64 (e.tvSec + (r.t2.tvSec - r.t1.tvSec +
      (e.tvNsec + (r.t2.tvNsec - r.t1.tvNsec)).tdiv (10 ^ 9))) := ⟨by omega, by omega⟩
  simp only [addElapsed, carried, int64_of_mem hn₁, int64_of_mem hn₂, int64_of_mem hs₁,
    int64_of_mem hs₂, int64_of_mem hs₃, ok_bind]

/-- What remains after a sum in the range, for a target that is ahead of it or was. -/
theorem Exact.getRemainNs (h : Exact e total) (h0 : 0 ≤ total) (hsec : e.tvSec ≤ 9223372036)
    (htotal : total < 2 ^ 63) (ht : t.Normal) (hr : t.Representable) (hpos : 0 ≤ t.tvSec) :
    getRemainNs e t = .ok (t.ns - total) := by
  have hnonneg := h.sec_nonneg h0
  obtain ⟨hns, hlo, hhi⟩ := h
  obtain ⟨⟨-, hmul⟩, -, htns⟩ := hr
  obtain ⟨ht₁, ht₂⟩ := ht
  have htpos : 0 ≤ t.ns := by
    unfold Timespec.ns
    omega
  subst hns
  refine getRemainNs_eq ⟨?_, ?_⟩ ⟨?_, ?_⟩ ⟨?_, ?_⟩ <;> omega

/-- The time that so many rounds measured together. -/
def sumNs (rounds : List Round) : ℤ := (rounds.map Round.ns).sum

/-- One round of the loop as a step on the elapsed time, which the loop may leave. -/
def elapsedStep (target : Timespec) :
    Except Overflow Timespec → Round → Option (Except Overflow Timespec) :=
  faultStep fun elapsed r =>
    match commonPollingRound target elapsed r with
    | .error e => some (.error e)
    | .ok none => none
    | .ok (some elapsed) => some (.ok elapsed)

theorem sumNs_nonneg {rounds : List Round} (h : ∀ r ∈ rounds, r.Valid) : 0 ≤ sumNs rounds := by
  refine List.sum_nonneg fun z hz => ?_
  obtain ⟨r, hr, rfl⟩ := List.mem_map.mp hz
  exact sub_nonneg.mpr (h r hr).le

/-- A target that is still ahead is not negative. -/
theorem sec_nonneg_of_lt (ht : t.Normal) (h0 : 0 ≤ total) (hlt : total < t.ns) : 0 ≤ t.tvSec := by
  have hns : 0 ≤ t.tvSec * 10 ^ 9 + t.tvNsec := h0.trans hlt.le
  exact hi_nonneg (by decide) ht.2 hns

/-- A round that the loop takes keeps the elapsed time and what remains exact. -/
theorem Exact.round (h : Exact e total) (h0 : 0 ≤ total) (hr : r.Valid)
    (hlt : total + r.ns < 2 ^ 62) (ht : t.Normal) (htr : t.Representable) (hpos : 0 ≤ t.tvSec) :
    addElapsed e r = .ok (Libfpga.carried e r) ∧ Exact (Libfpga.carried e r) (total + r.ns) ∧
      Libfpga.getRemainNs (Libfpga.carried e r) t = .ok (t.ns - (total + r.ns)) := by
  have hround : 0 ≤ r.ns := sub_nonneg.mpr hr.le
  have hnext := h.carried r
  have hsec := hnext.sec_le
  refine ⟨addElapsed_eq h hr h0 (by omega), hnext, ?_⟩
  exact hnext.getRemainNs (by omega) (by omega) (by omega) ht htr hpos

/-- A run of rounds, by induction on them. -/
theorem Exact.run (h : Exact e total) (h0 : 0 ≤ total) (ht : t.Normal) (htr : t.Representable)
    (hrem : Libfpga.getRemainNs e t = .ok (t.ns - total)) {rounds : List Round}
    (hv : ∀ r ∈ rounds, r.Valid) (hlt : total + sumNs rounds < 2 ^ 62)
    {res : Except Overflow Timespec} (hres : Theory.run (elapsedStep t) (.ok e) rounds = some res) :
    ∃ e', res = .ok e' ∧ Exact e' (total + sumNs rounds) ∧
      Libfpga.getRemainNs e' t = .ok (t.ns - (total + sumNs rounds)) := by
  induction rounds generalizing e total with
  | nil =>
    cases hres
    have hsum : total + sumNs [] = total := by simp [sumNs]
    rw [hsum]
    exact ⟨e, rfl, h, hrem⟩
  | cons r rounds ih =>
    have hr : r.Valid := hv r (List.mem_cons_self ..)
    have hrest : ∀ r ∈ rounds, r.Valid := fun r hr => hv r (List.mem_cons_of_mem _ hr)
    have hsum : total + sumNs (r :: rounds) = total + r.ns + sumNs rounds := by
      simp [sumNs, add_assoc]
    have hround : 0 ≤ r.ns := sub_nonneg.mpr hr.le
    have hleft := sumNs_nonneg hrest
    rw [hsum] at hlt ⊢
    obtain ⟨mid, hmid, hres⟩ := run_cons_eq_some.mp hres
    by_cases hdone : t.ns - total ≤ 0
    · -- the timeout has passed and no round follows
      simp only [elapsedStep, faultStep, commonPollingRound, hrem, ok_bind, if_pos hdone, reduceCtorEq] at hmid
    · obtain ⟨hadd, hnext, hrem'⟩ := h.round h0 hr (by omega) ht htr
        (sec_nonneg_of_lt ht h0 (by omega))
      simp only [elapsedStep, faultStep, commonPollingRound, hrem, ok_bind, if_neg hdone, hadd,
        Option.some_inj] at hmid
      subst hmid
      exact ih hnext (by omega) hrem' hrest hlt hres

/-- **The elapsed time and what remains are exact, without overflow, in every round of the
loop that is reached**, for a sum below `2 ^ 62` nanoseconds, exactly if the nanoseconds of the
timeout can be computed. -/
theorem elapsed_exact_iff (timeout : Option Timeval) (rounds : List Round)
    (hv : ∀ r ∈ rounds, r.Valid) (hsum : sumNs rounds < 2 ^ 62) :
    (∀ pre, pre <+: rounds → ∀ res,
      run (elapsedStep (convertTimeVal2spec timeout)) (.ok ⟨0, 0⟩) pre = some res →
        ∃ e, res = .ok e ∧ e.tvSec * 10 ^ 9 + e.tvNsec = sumNs pre ∧ |e.tvNsec| < 10 ^ 9 ∧
          getRemainNs e (convertTimeVal2spec timeout) =
            .ok ((convertTimeVal2spec timeout).ns - sumNs pre)) ↔
      (convertTimeVal2spec timeout).Representable := by
  have ht := convertTimeVal2spec_normal timeout
  constructor
  · intro h
    obtain ⟨e, he, -, -, hrem⟩ := h [] List.nil_prefix (.ok ⟨0, 0⟩) rfl
    cases he
    exact representable_of_getRemainNs hrem
  · intro hr pre hpre res hres
    obtain ⟨suf, rfl⟩ := hpre
    have hsuf : 0 ≤ sumNs suf := sumNs_nonneg fun r hr => hv r (List.mem_append_right _ hr)
    have happ : sumNs (pre ++ suf) = sumNs pre + sumNs suf := by
      simp only [sumNs, List.map_append, List.sum_append]
    have hrem : getRemainNs ⟨0, 0⟩ (convertTimeVal2spec timeout) =
        .ok ((convertTimeVal2spec timeout).ns - 0) := by
      rw [sub_zero]
      exact hr.getRemainNs_zero ht
    obtain ⟨e, he, hexact, hrem'⟩ := exact_zero.run le_rfl ht hr hrem
      (fun r hr => hv r (List.mem_append_left _ hr)) (by omega) hres
    rw [zero_add] at hexact hrem'
    exact ⟨e, he, hexact.ns, abs_lt.mpr hexact.nsec, hrem'⟩

/-- A timeout of two seconds and a round in which the nanoseconds go down: exact. -/
theorem elapsed_exact_two_seconds :
    (∀ r ∈ [(⟨⟨5, 900000000⟩, [], ⟨6, 100000000⟩⟩ : Round)], r.Valid) ∧
    ∀ pre, pre <+: [(⟨⟨5, 900000000⟩, [], ⟨6, 100000000⟩⟩ : Round)] → ∀ res,
      run (elapsedStep (convertTimeVal2spec (some ⟨2, 0, by decide, by decide⟩))) (.ok ⟨0, 0⟩) pre =
        some res →
      ∃ e, res = .ok e ∧ e.tvSec * 10 ^ 9 + e.tvNsec = sumNs pre ∧ |e.tvNsec| < 10 ^ 9 ∧
        getRemainNs e (convertTimeVal2spec (some ⟨2, 0, by decide, by decide⟩)) =
          .ok ((convertTimeVal2spec (some ⟨2, 0, by decide, by decide⟩)).ns - sumNs pre) := by
  have hv : ∀ r ∈ [(⟨⟨5, 900000000⟩, [], ⟨6, 100000000⟩⟩ : Round)], r.Valid := by
    intro r hr
    obtain rfl := List.mem_singleton.mp hr
    exact ⟨⟨by decide, by decide⟩, ⟨by decide, by decide⟩, by decide⟩
  exact ⟨hv, (elapsed_exact_iff (some ⟨2, 0, by decide, by decide⟩) _ hv (by decide)).mpr (by decide)⟩

/-- With the greatest number of seconds the first test overflows. -/
theorem not_elapsed_exact :
    ¬ ∀ (timeout : Option Timeval) (rounds : List Round), (∀ r ∈ rounds, r.Valid) →
      sumNs rounds < 2 ^ 62 → ∀ pre, pre <+: rounds → ∀ res,
        run (elapsedStep (convertTimeVal2spec timeout)) (.ok ⟨0, 0⟩) pre = some res →
          ∃ e, res = .ok e ∧ e.tvSec * 10 ^ 9 + e.tvNsec = sumNs pre ∧ |e.tvNsec| < 10 ^ 9 ∧
            getRemainNs e (convertTimeVal2spec timeout) =
              .ok ((convertTimeVal2spec timeout).ns - sumNs pre) := by
  intro h
  have hv : ∀ r ∈ [(⟨⟨5, 0⟩, [], ⟨6, 0⟩⟩ : Round)], r.Valid := by
    intro r hr
    obtain rfl := List.mem_singleton.mp hr
    exact ⟨⟨by decide, by decide⟩, ⟨by decide, by decide⟩, by decide⟩
  obtain ⟨e, he, -⟩ := h (some ⟨2 ^ 63 - 1, 0, by decide, by decide⟩) _ hv (by decide) _
    (List.prefix_refl _) (.error .overflow) rfl
  cases he

/-! ### The loop -/

/-- The clock `CLOCK_REALTIME`, which the kernel keeps as a signed 64-bit number of nanoseconds. -/
structure Realtime (round : ℕ → Round) : Prop where
  /-- Each reading is well formed, and a sleep does not go back. -/
  valid : ∀ n, (round n).Valid
  /-- Nor does the time between two sleeps. -/
  gap : ∀ n, (round n).t2.ns ≤ (round (n + 1)).t1.ns
  /-- It starts at the epoch. -/
  nonneg : 0 ≤ (round 0).t1.ns
  /-- It fits. -/
  word : ∀ n, (round n).t2.ns < 2 ^ 63

/-- The time slept in the first `n` rounds. -/
def slept (round : ℕ → Round) (n : ℕ) : ℤ := Finset.sum (Finset.range n) fun k => (round k).ns

/-- What was asked of the kernel in the first `n` rounds. -/
def requested (iv : Timespec) (round : ℕ → Round) (n : ℕ) : List Timespec :=
  (List.range n).flatMap fun k => nanosleeps iv (round k)

/-- The polling should end after call `n`: its result decides, or the time is over. -/
def Stops (timeout : Option Timeval) (clb : ℕ → ℤ) (round : ℕ → Round) (n : ℕ) : Prop :=
  clb n ≤ 0 ∨ (convertTimeVal2spec timeout).ns ≤ slept round n

instance (timeout : Option Timeval) (clb : ℕ → ℤ) (round : ℕ → Round) (n : ℕ) :
    Decidable (Stops timeout clb round n) := inferInstanceAs (Decidable (_ ∨ _))

/-- Call `n` is the first after which the polling should end. -/
def StopsFirst (timeout : Option Timeval) (clb : ℕ → ℤ) (round : ℕ → Round) (n : ℕ) : Prop :=
  Stops timeout clb round n ∧ ∀ k < n, ¬ Stops timeout clb round k

/-- The end of the polling after call `n`. -/
def endAfter (interval : Option Timeval) (clb : ℕ → ℤ) (round : ℕ → Round) (n : ℕ) : PollEnd :=
  ⟨clb n, n + 1, requested (convertTimeVal2spec interval) round n⟩

/-- The elapsed time before the test of round `n`. -/
structure ElapsedAt (round : ℕ → Round) (n : ℕ) (e : Timespec) : Prop where
  exact : Exact e (slept round n)
  le : slept round n ≤ (round n).t1.ns
  sec : e.tvSec ≤ (round n).t1.tvSec

section Loop

variable {timeout interval : Option Timeval} {clb : ℕ → ℤ} {round : ℕ → Round} {n : ℕ}

@[simp] theorem slept_zero (round : ℕ → Round) : slept round 0 = 0 := rfl

theorem slept_succ (round : ℕ → Round) (n : ℕ) :
    slept round (n + 1) = slept round n + (round n).ns := Finset.sum_range_succ _ _

theorem requested_succ (iv : Timespec) (round : ℕ → Round) (n : ℕ) :
    requested iv round (n + 1) = requested iv round n ++ nanosleeps iv (round n) := by
  simp [requested, List.range_succ]

theorem Realtime.slept_nonneg (h : Realtime round) (n : ℕ) : 0 ≤ slept round n :=
  Finset.sum_nonneg fun k _ => sub_nonneg.mpr (h.valid k).le

/-- The seconds of the clock are never so many that the product leaves the type. -/
theorem Realtime.sec_le (h : Realtime round) (n : ℕ) : (round n).t1.tvSec ≤ 9223372036 := by
  have hword := h.word n
  obtain ⟨⟨hlo, -⟩, -, hle⟩ := h.valid n
  unfold Timespec.ns at hle hword
  omega

theorem elapsedAt_zero (h : Realtime round) : ElapsedAt round 0 ⟨0, 0⟩ := by
  refine ⟨exact_zero, h.nonneg, ?_⟩
  obtain ⟨⟨hlo, hhi⟩, -, -⟩ := h.valid 0
  have hns : 0 ≤ (round 0).t1.tvSec * 10 ^ 9 + (round 0).t1.tvNsec := h.nonneg
  exact hi_nonneg (by decide) hhi hns

/-- The seconds counted are not ahead of those of the clock. -/
theorem carried_sec_le {r : Round} (h : Exact e total) (hr : r.Valid) (hle : total ≤ r.t1.ns)
    (hsec : e.tvSec ≤ r.t1.tvSec) : (carried e r).tvSec ≤ r.t2.tvSec := by
  by_cases hup : 0 ≤ e.tvNsec + (r.t2.tvNsec - r.t1.tvNsec)
  · -- with a low part that is not negative the whole decides
    have hns := (h.carried r).ns
    have hlow : 0 ≤ (carried e r).tvNsec := Int.tmod_nonneg _ hup
    refine hi_le_of_le (l := r.t2.tvNsec) (by decide) hlow hr.t2.2 ?_
    unfold Round.ns at hns
    unfold Timespec.ns at hns hle
    omega
  · -- otherwise the carry is not positive
    have hcarry : (e.tvNsec + (r.t2.tvNsec - r.t1.tvNsec)).tdiv (10 ^ 9) ≤ 0 := by
      have hmul := Int.tmod_add_tdiv_mul (e.tvNsec + (r.t2.tvNsec - r.t1.tvNsec)) (10 ^ 9)
      have hmod := tmod_lt_base (B := 10 ^ 9) (by decide) (e.tvNsec + (r.t2.tvNsec - r.t1.tvNsec))
      omega
    show e.tvSec + (r.t2.tvSec - r.t1.tvSec + _) ≤ _
    omega

/-- A round of a valid clock. -/
theorem ElapsedAt.succ (h : ElapsedAt round n e) (hr : Realtime round) :
    addElapsed e (round n) = .ok (carried e (round n)) ∧
      ElapsedAt round (n + 1) (carried e (round n)) := by
  obtain ⟨hexact, hle, hsec⟩ := h
  have hsum : slept round n + (round n).ns ≤ (round n).t2.ns := by
    unfold Round.ns
    omega
  have hword := hr.word n
  have hgap := hr.gap n
  refine ⟨addElapsed_eq hexact (hr.valid n) (hr.slept_nonneg n) (by omega), ?_, ?_, ?_⟩
  · rw [slept_succ]
    exact hexact.carried _
  · rw [slept_succ]
    exact hsum.trans hgap
  · refine (carried_sec_le hexact (hr.valid n) hle hsec).trans ?_
    exact hi_le_of_le (by decide) (hr.valid n).t2.1 (hr.valid (n + 1)).t1.2 hgap

/-- What remains before round `n` of a representable timeout. -/
theorem ElapsedAt.remain (h : ElapsedAt round n e) (hr : Realtime round)
    (ht : (convertTimeVal2spec timeout).Representable)
    (hbefore : ∀ k < n, ¬ Stops timeout clb round k) :
    getRemainNs e (convertTimeVal2spec timeout) =
      .ok ((convertTimeVal2spec timeout).ns - slept round n) := by
  have hnormal := convertTimeVal2spec_normal timeout
  have hsec := h.exact.sec_nonneg (hr.slept_nonneg n)
  cases n with
  | zero =>
    obtain ⟨hns, hnsec⟩ := h.exact
    rw [slept_zero] at hns ⊢
    have hzero : e = ⟨0, 0⟩ := by
      unfold Timespec.ns at hns
      ext <;> simp only <;> omega
    rw [hzero, sub_zero]
    exact ht.getRemainNs_zero hnormal
  | succ n =>
    -- the round before was taken because the target was ahead
    have hahead : slept round n < (convertTimeVal2spec timeout).ns := by
      have := hbefore n (Nat.lt_succ_self n)
      simp only [Stops, not_or, not_le] at this
      exact this.2
    have hpos := sec_nonneg_of_lt hnormal (hr.slept_nonneg n) hahead
    have hword : slept round (n + 1) < 2 ^ 63 :=
      (h.le.trans (hr.valid (n + 1)).le).trans_lt (hr.word (n + 1))
    exact h.exact.getRemainNs (hr.slept_nonneg _) (h.sec.trans (hr.sec_le _)) hword hnormal ht hpos

/-- The loop from call `n` on: it ends after the first call that should end it, if one is within
the fuel. (By induction on the fuel; the elapsed time stays exact.) -/
theorem pollLoop_cases (hr : Realtime round)
    (hrem : ∀ n e, ElapsedAt round n e → (∀ k < n, ¬ Stops timeout clb round k) → 0 < clb n →
      getRemainNs e (convertTimeVal2spec timeout) =
        .ok ((convertTimeVal2spec timeout).ns - slept round n))
    (fuel n : ℕ) {e : Timespec} (he : ElapsedAt round n e)
    (hbefore : ∀ k < n, ¬ Stops timeout clb round k) :
    (∃ m, StopsFirst timeout clb round m ∧ m < n + fuel ∧
      pollLoop (convertTimeVal2spec timeout) (convertTimeVal2spec interval) clb round fuel n e
        (requested (convertTimeVal2spec interval) round n) =
          some (.ok (endAfter interval clb round m))) ∨
    ((∀ k < n + fuel, ¬ Stops timeout clb round k) ∧
      pollLoop (convertTimeVal2spec timeout) (convertTimeVal2spec interval) clb round fuel n e
        (requested (convertTimeVal2spec interval) round n) = none) := by
  induction fuel generalizing n e with
  | zero => exact .inr ⟨by simpa using hbefore, rfl⟩
  | succ fuel ih =>
    by_cases hret : clb n ≤ 0
    · refine .inl ⟨n, ⟨.inl hret, hbefore⟩, by omega, ?_⟩
      simp only [pollLoop, if_pos hret, endAfter]
    have hrem' := hrem n e he hbefore (by omega)
    by_cases hdone : (convertTimeVal2spec timeout).ns - slept round n ≤ 0
    · refine .inl ⟨n, ⟨.inr (by omega), hbefore⟩, by omega, ?_⟩
      simp only [pollLoop, if_neg hret, commonPollingRound, hrem', ok_bind, if_pos hdone, endAfter]
    · obtain ⟨hadd, hnext⟩ := he.succ hr
      have hstill : ∀ k < n + 1, ¬ Stops timeout clb round k := by
        intro k hk
        rcases Nat.lt_succ_iff_lt_or_eq.mp hk with hk | rfl
        · exact hbefore k hk
        · simp only [Stops, not_or]
          exact ⟨hret, by omega⟩
      simp only [pollLoop, if_neg hret, commonPollingRound, hrem', ok_bind, if_neg hdone, hadd,
        ← requested_succ]
      have hih := ih (n + 1) hnext hstill
      rwa [Nat.add_right_comm n 1 fuel] at hih

theorem StopsFirst.eq {m : ℕ} (hm : StopsFirst timeout clb round m)
    (hn : StopsFirst timeout clb round n) : m = n := by
  rcases Nat.lt_trichotomy m n with hlt | heq | hgt
  · exact absurd hm.1 (hn.2 m hlt)
  · exact heq
  · exact absurd hn.1 (hm.2 n hgt)

/-- Where something stops, something stops first. -/
theorem exists_stopsFirst (h : Stops timeout clb round n) :
    ∃ m ≤ n, StopsFirst timeout clb round m :=
  ⟨Nat.find ⟨n, h⟩, Nat.find_min' _ h, Nat.find_spec ⟨n, h⟩, fun _ hk => Nat.find_min _ hk⟩

/-- What the polling should do: no operation overflows, it ends after the first call whose
result decides or at which the time slept has reached the timeout, with the result of that
call; and if every sleep lasts the interval, that is soon. -/
structure PollsRight (timeout interval : Option Timeval) (clb : ℕ → ℤ) (round : ℕ → Round) :
    Prop where
  /-- No operation overflows. -/
  noOverflow : ∀ fuel o, fpgaCommonPolling timeout interval (some clb) round fuel ≠ some (.error o)
  /-- When it returns, and what. -/
  returns_iff : ∀ r, (∃ fuel, fpgaCommonPolling timeout interval (some clb) round fuel =
      some (.ok r)) ↔
    ∃ n, StopsFirst timeout clb round n ∧ r = endAfter interval clb round n
  /-- The number of calls, where every sleep that takes place lasts the interval. -/
  calls_le : 0 < (convertTimeVal2spec interval).ns →
    (∀ k, (∀ j ≤ k, ¬ Stops timeout clb round j) →
      (convertTimeVal2spec interval).ns ≤ (round k).ns) →
    ∃ fuel r, fpgaCommonPolling timeout interval (some clb) round fuel = some (.ok r) ∧
      r.calls ≤ (convertTimeVal2spec timeout).ns.toNat ⌈/⌉ (convertTimeVal2spec interval).ns.toNat + 1

/-- Where every sleep lasts the interval, the time slept is at least so many intervals. -/
theorem mul_le_slept {iv : ℤ} {n : ℕ} (h : ∀ k < n, iv ≤ (round k).ns) :
    n * iv ≤ slept round n := by
  induction n with
  | zero => simp
  | succ n ih =>
    have hn := h n (Nat.lt_succ_self n)
    have hrest := ih fun k hk => h k (hk.trans (Nat.lt_succ_self n))
    rw [slept_succ]
    push_cast
    linarith

/-- So many rounds of the interval reach the timeout, unless the polling ends before. -/
theorem exists_stops_le (hpos : 0 < (convertTimeVal2spec interval).ns)
    (hsleep : ∀ k, (∀ j ≤ k, ¬ Stops timeout clb round j) →
      (convertTimeVal2spec interval).ns ≤ (round k).ns) :
    ∃ m ≤ (convertTimeVal2spec timeout).ns.toNat ⌈/⌉ (convertTimeVal2spec interval).ns.toNat,
      Stops timeout clb round m := by
  by_contra hno
  simp only [not_exists, not_and] at hno
  refine hno _ le_rfl (.inr ?_)
  have hceil := le_smul_ceilDiv (b := (convertTimeVal2spec timeout).ns.toNat)
    (a := (convertTimeVal2spec interval).ns.toNat) (by omega)
  rw [smul_eq_mul] at hceil
  calc (convertTimeVal2spec timeout).ns
      ≤ ((convertTimeVal2spec timeout).ns.toNat : ℤ) := Int.self_le_toNat _
    _ ≤ (((convertTimeVal2spec interval).ns.toNat * ((convertTimeVal2spec timeout).ns.toNat ⌈/⌉
          (convertTimeVal2spec interval).ns.toNat) : ℕ) : ℤ) := by exact_mod_cast hceil
    _ = (((convertTimeVal2spec timeout).ns.toNat ⌈/⌉
          (convertTimeVal2spec interval).ns.toNat : ℕ) : ℤ) * (convertTimeVal2spec interval).ns := by
      push_cast
      rw [Int.toNat_of_nonneg hpos.le, mul_comm]
    _ ≤ _ := mul_le_slept fun k hk => hsleep k fun j hj => hno j (by omega)

/-- The polling by its calls, where the times can be computed when they are needed. -/
theorem fpgaCommonPolling_cases (interval : Option Timeval) (clb : ℕ → ℤ) (hr : Realtime round)
    (hc : clb 0 ≤ 0 ∨ (convertTimeVal2spec timeout).Representable) (fuel : ℕ) :
    (∃ m, StopsFirst timeout clb round m ∧ m < fuel ∧
      fpgaCommonPolling timeout interval (some clb) round fuel =
        some (.ok (endAfter interval clb round m))) ∨
    ((∀ k < fuel, ¬ Stops timeout clb round k) ∧
      fpgaCommonPolling timeout interval (some clb) round fuel = none) := by
  have hrem : ∀ n e, ElapsedAt round n e → (∀ k < n, ¬ Stops timeout clb round k) → 0 < clb n →
      getRemainNs e (convertTimeVal2spec timeout) =
        .ok ((convertTimeVal2spec timeout).ns - slept round n) := by
    intro n e he hbefore hpos
    rcases hc with hc | hc
    · -- the first call already decided
      cases n with
      | zero => omega
      | succ n => exact absurd (.inl hc) (hbefore 0 (Nat.succ_pos n))
    · exact he.remain hr hc hbefore
  have hloop := @pollLoop_cases timeout interval clb round hr hrem fuel 0 _ (elapsedAt_zero hr)
    (fun k hk => absurd hk (Nat.not_lt_zero k))
  rwa [Nat.zero_add] at hloop

/-- Without overflow a first call that does not decide is followed by a test that can be
computed. -/
theorem representable_of_noOverflow (hret : ¬ clb 0 ≤ 0)
    (h : ∀ o, fpgaCommonPolling timeout interval (some clb) round 1 ≠ some (.error o)) :
    (convertTimeVal2spec timeout).Representable := by
  cases hrem : getRemainNs ⟨0, 0⟩ (convertTimeVal2spec timeout) with
  | ok z => exact representable_of_getRemainNs hrem
  | error o =>
    refine absurd ?_ (h o)
    have hround : commonPollingRound (convertTimeVal2spec timeout) ⟨0, 0⟩ (round 0) = .error o := by
      unfold commonPollingRound
      rw [hrem]
      rfl
    simp only [fpgaCommonPolling, pollLoop, if_neg hret, hround]

/-- **The polling stops when it should**, whatever the callback returns and however the sleeps
are interrupted, exactly if the first call already decides or the nanoseconds of the timeout can
be computed. -/
theorem pollsRight_iff (timeout interval : Option Timeval) (clb : ℕ → ℤ) (round : ℕ → Round)
    (hr : Realtime round) :
    PollsRight timeout interval clb round ↔
      clb 0 ≤ 0 ∨ (convertTimeVal2spec timeout).Representable := by
  constructor
  · intro h
    by_cases hret : clb 0 ≤ 0
    · exact .inl hret
    exact .inr (representable_of_noOverflow hret (h.noOverflow 1))
  · intro hc
    have hcases := fpgaCommonPolling_cases interval clb hr hc
    refine ⟨fun fuel o ho => ?_, fun r => ⟨?_, ?_⟩, fun hpos hsleep => ?_⟩
    · rcases hcases fuel with ⟨m, -, -, hend⟩ | ⟨-, hend⟩ <;> rw [hend] at ho <;> cases ho
    · rintro ⟨fuel, hfuel⟩
      rcases hcases fuel with ⟨m, hm, -, hend⟩ | ⟨-, hend⟩
      · rw [hend] at hfuel
        cases hfuel
        exact ⟨m, hm, rfl⟩
      · rw [hend] at hfuel
        cases hfuel
    · rintro ⟨n, hn, rfl⟩
      refine ⟨n + 1, ?_⟩
      rcases hcases (n + 1) with ⟨m, hm, -, hend⟩ | ⟨hno, -⟩
      · rw [hend, hm.eq hn]
      · exact absurd hn.1 (hno n (Nat.lt_succ_self n))
    · obtain ⟨n, hn, hstops⟩ := exists_stops_le hpos hsleep
      obtain ⟨m, hle, hm⟩ := exists_stopsFirst hstops
      rcases hcases (m + 1) with ⟨m', hm', -, hend⟩ | ⟨hno, -⟩
      · rw [hm'.eq hm] at hend
        exact ⟨m + 1, _, hend, Nat.succ_le_succ (hle.trans hn)⟩
      · exact absurd hm.1 (hno m (Nat.lt_succ_self m))

end Loop

/-- A clock that shows one second more after each sleep, and stops after a thousand. -/
theorem realtime_thousand :
    Realtime fun n => ⟨⟨min n 1000, 0⟩, [], ⟨min (n + 1) 1000, 0⟩⟩ := by
  have hle : ∀ n : ℕ, (⟨min n 1000, 0⟩ : Timespec).ns ≤ (⟨min (n + 1) 1000, 0⟩ : Timespec).ns := by
    intro n
    unfold Timespec.ns
    simp only
    omega
  have hzero : (0 : ℤ) < 10 ^ 9 := by decide
  refine ⟨fun n => ⟨⟨le_rfl, hzero⟩, ⟨le_rfl, hzero⟩, hle n⟩, fun n => ?_, ?_, fun n => ?_⟩
  · simp only [Nat.cast_add, Nat.cast_one, le_refl]
  · decide
  · unfold Timespec.ns
    simp only
    omega

/-- A callback that goes on, with a timeout of three seconds. -/
theorem pollsRight_three_seconds :
    Realtime (fun n => ⟨⟨min n 1000, 0⟩, [], ⟨min (n + 1) 1000, 0⟩⟩) ∧
      PollsRight (some ⟨3, 0, by decide, by decide⟩) (some ⟨1, 0, by decide, by decide⟩) (fun _ => 1)
        fun n => ⟨⟨min n 1000, 0⟩, [], ⟨min (n + 1) 1000, 0⟩⟩ :=
  ⟨realtime_thousand, (pollsRight_iff _ _ _ _ realtime_thousand).mpr (.inr (by decide))⟩

/-- With the greatest number of seconds the test after the first call overflows. -/
theorem not_pollsRight :
    ¬ ∀ (timeout interval : Option Timeval) (clb : ℕ → ℤ) (round : ℕ → Round), Realtime round →
      PollsRight timeout interval clb round := by
  intro h
  have hright := h (some ⟨2 ^ 63 - 1, 0, by decide, by decide⟩) none (fun _ => 1) _ realtime_thousand
  exact hright.noOverflow 1 .overflow (by decide)

end HardwareDrivers.Libfpga
