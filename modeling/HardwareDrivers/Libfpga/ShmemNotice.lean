import HardwareDrivers.Libfpga.ShmemLockFile

/-!
# The report of a manager

A manager that detects that a user was killed sends its prefix to the thread of the controller. It goes
on if the thread confirms that, and ends otherwise.

## What is proved

* `Reported.managerStep`, `Reported.step` — what the thread was told, and what the manager knows of it.
* `reports_sound` — the prefix is reported once at most, and by who goes on.
-/

namespace HardwareDrivers.Libfpga

open Theory

variable {ι : Type*} [DecidableEq ι] {command : CStr} {s t : LockSystem ι} {i : ι} {op : LockUserOp}
  {ok : Bool}

/-! ### What is reported -/

omit [DecidableEq ι] in
/-- What the thread of the controller was told, and what the manager knows of it. -/
structure Reported (filePrefix : List (BitVec 8)) (s : LockSystem ι) : Prop where
  /-- Before the manager notices something it tells nothing. -/
  before : s.noticeOnce = false → s.channel = none ∧ s.response = none ∧ s.reports = [] ∧
    (∀ how, s.manager ≠ .detected how) ∧ s.manager ≠ .connected ∧ s.manager ≠ .waiting
  /-- Nor does it before it is connected. -/
  unsent : (∃ how, s.manager = .detected how) ∨ s.manager = .connected ∨ s.manager = .leaving 1 →
    s.channel = none ∧ s.response = none ∧ s.reports = []
  /-- It tells its prefix, once. -/
  once : (s.channel = none ∧ (s.reports = [] ∨ s.reports = [filePrefix])) ∨
    (s.channel = some filePrefix ∧ s.response = none ∧ s.reports = [])
  /-- What is confirmed was reported. -/
  confirmed : s.response = some true → s.reports = [filePrefix]
  /-- Who goes on was confirmed. -/
  goesOn : s.noticeOnce = true → s.manager = .calling ∨ s.manager = .sleeping →
    s.reports = [filePrefix]
  /-- It does not look at the file again. -/
  closed : s.noticeOnce = true → s.manager.fd = none

omit [DecidableEq ι] in
theorem LockSystem.Start.reported (h : s.Start) (filePrefix : List (BitVec 8)) :
    Reported filePrefix s := by
  constructor <;> simp [h.noticeOnce, h.channel, h.response, h.reports, h.manager]

omit [DecidableEq ι] in
/-- What leaves the messages and the manager leaves what is known. -/
theorem Reported.same {filePrefix : List (BitVec 8)} (h : Reported filePrefix s)
    (hnotice : t.noticeOnce = s.noticeOnce) (hmanager : t.manager = s.manager)
    (hchannel : t.channel = s.channel) (hresponse : t.response = s.response)
    (hreports : t.reports = s.reports) : Reported filePrefix t := by
  obtain ⟨h1, h2, h3, h4, h5, h6⟩ := h
  constructor <;> simpa only [hnotice, hmanager, hchannel, hresponse, hreports]

/-! ### The steps of the manager -/

section Manager

omit [DecidableEq ι]

variable {filePrefix : List (BitVec 8)}

/-- The manager gets somewhere else, and tells nothing. -/
theorem Reported.goto (h : Reported filePrefix s) {disk : LockedFile (Option ι)} {m : LockManagerAt}
    (hbefore : s.noticeOnce = false → (∀ how, m ≠ .detected how) ∧ m ≠ .connected ∧ m ≠ .waiting)
    (hunsent : (∃ how, m = .detected how) ∨ m = .connected ∨ m = .leaving 1 →
      s.channel = none ∧ s.response = none ∧ s.reports = [])
    (hgoes : s.noticeOnce = true → m = .calling ∨ m = .sleeping → s.reports = [filePrefix])
    (hclosed : s.noticeOnce = true → m.fd = none) :
    Reported filePrefix { s with disk, manager := m } :=
  ⟨fun hn => ⟨(h.before hn).1, (h.before hn).2.1, (h.before hn).2.2.1, hbefore hn⟩, hunsent, h.once,
    h.confirmed, hgoes, hclosed⟩

/-- While it has the file open it has noticed nothing. -/
theorem Reported.unnoticed (h : Reported filePrefix s) (hfd : s.manager.fd ≠ none) :
    s.noticeOnce = false := by
  by_contra hne
  exact hfd (h.closed (Bool.of_not_eq_false hne))

/-- And it goes on with it. -/
theorem Reported.looks (h : Reported filePrefix s) (hn : s.noticeOnce = false)
    {disk : LockedFile (Option ι)} {m : LockManagerAt}
    (hm : (∀ how, m ≠ .detected how) ∧ m ≠ .connected ∧ m ≠ .waiting ∧ m ≠ .leaving 1) :
    Reported filePrefix { s with disk, manager := m } := by
  obtain ⟨hdetected, hconnected, hwaiting, hleaving⟩ := hm
  refine h.goto (fun _ => ⟨hdetected, hconnected, hwaiting⟩) ?_ (fun hn' => ?_) fun hn' => ?_
  · rintro (⟨how, rfl⟩ | rfl | rfl)
    · exact absurd rfl (hdetected how)
    · exact absurd rfl hconnected
    · exact absurd rfl hleaving
  · cases hn.symm.trans hn'
  · cases hn.symm.trans hn'

theorem Reported.calling (h : Reported (callbackPrefix command) s) (hm : s.manager = .calling)
    (hstep : lockManagerStep command ok s = some t) : Reported (callbackPrefix command) t := by
  simp only [lockManagerStep, hm] at hstep
  split at hstep
  · rename_i hnotice
    cases hstep
    exact h.goto (fun hn => absurd hnotice (by simp [hn])) (by simp) (fun _ _ => h.goesOn hnotice (.inl hm))
      fun _ => rfl
  · rename_i hnotice
    rw [Bool.not_eq_true] at hnotice
    split at hstep <;> cases hstep <;> exact h.looks hnotice (by simp)

/-- It noticed something, and closes the file. -/
theorem Reported.closing (h : Reported filePrefix s) {fd : ℕ} {how : UserFinish}
    (hm : s.manager = .closing fd how) (disk : LockedFile (Option ι)) :
    Reported filePrefix { s with disk, noticeOnce := true, manager := .detected how } := by
  obtain ⟨hchannel, hresponse, hreports, -⟩ := h.before (h.unnoticed (by rw [hm]; exact Option.some_ne_none fd))
  exact ⟨by simp, fun _ => ⟨hchannel, hresponse, hreports⟩, h.once, h.confirmed, by simp, fun _ => rfl⟩

theorem Reported.detected (h : Reported (callbackPrefix command) s) {how : UserFinish}
    (hm : s.manager = .detected how) (hstep : lockManagerStep command ok s = some t) :
    Reported (callbackPrefix command) t := by
  have hnotice : s.noticeOnce = false → False := fun hn => (h.before hn).2.2.2.1 how hm
  have hnone := h.unsent (.inl ⟨how, hm⟩)
  cases how with
  | normal =>
    simp only [lockManagerStep, hm] at hstep
    cases hstep
    exact h.goto (fun hn => (hnotice hn).elim) (fun _ => hnone) (by simp) fun _ => rfl
  | error =>
    simp only [lockManagerStep, hm] at hstep
    cases hstep
    cases ok <;> exact h.goto (fun hn => (hnotice hn).elim) (fun _ => hnone) (by simp) fun _ => rfl

/-- It sends its prefix, or cannot. -/
theorem Reported.connected (h : Reported filePrefix s) (hm : s.manager = .connected) (ok : Bool) :
    Reported filePrefix { s with channel := if ok then some filePrefix else none, manager := .waiting } := by
  have hnotice : s.noticeOnce = true := by
    by_contra hne
    exact (h.before (Bool.of_not_eq_true hne)).2.2.2.2.1 hm
  obtain ⟨-, hresponse, hreports⟩ := h.unsent (.inr (.inl hm))
  cases ok with
  | true =>
    exact ⟨by simp [hnotice], by simp, .inr ⟨rfl, hresponse, hreports⟩, by simp [hresponse], by simp,
      fun _ => rfl⟩
  | false =>
    exact ⟨by simp [hnotice], by simp, .inl ⟨rfl, .inl hreports⟩, by simp [hresponse], by simp, fun _ => rfl⟩

/-- It goes on where the thread confirms that, and leaves otherwise. -/
theorem Reported.waiting (h : Reported (callbackPrefix command) s) (hm : s.manager = .waiting)
    (hstep : lockManagerStep command ok s = some t) : Reported (callbackPrefix command) t := by
  have hnotice : s.noticeOnce = true := by
    by_contra hne
    exact (h.before (Bool.of_not_eq_true hne)).2.2.2.2.2 hm
  simp only [lockManagerStep, hm] at hstep
  split at hstep
  · split at hstep
    · cases hstep
    · rename_i hresponse
      cases hstep
      have hreports := h.confirmed hresponse
      refine ⟨by simp [hnotice], by simp, ?_, by simp, fun _ _ => hreports, fun _ => rfl⟩
      obtain ⟨hchannel, -⟩ | ⟨-, hnone, -⟩ := h.once
      · exact .inl ⟨hchannel, .inr hreports⟩
      · cases hresponse.symm.trans hnone
    · rename_i hresponse
      cases hstep
      refine ⟨by simp [hnotice], by simp, ?_, by simp, by simp, fun _ => rfl⟩
      obtain honce | ⟨-, hnone, -⟩ := h.once
      · exact .inl honce
      · cases hresponse.symm.trans hnone
  · cases hstep
    exact h.goto (by simp [hnotice]) (by simp) (by simp) fun _ => rfl

theorem Reported.managerStep (h : Reported (callbackPrefix command) s)
    (hstep : lockManagerStep command ok s = some t) : Reported (callbackPrefix command) t := by
  cases hm : s.manager with
  | calling => exact h.calling hm hstep
  | opened fd =>
    have hnotice := h.unnoticed (by rw [hm]; exact Option.some_ne_none fd)
    simp only [lockManagerStep, hm] at hstep
    split at hstep <;> cases hstep <;> exact h.looks hnotice (by simp)
  | locked fd =>
    have hnotice := h.unnoticed (by rw [hm]; exact Option.some_ne_none fd)
    simp only [lockManagerStep, hm] at hstep
    cases hstep
    exact h.looks hnotice (by simp)
  | closing fd how =>
    simp only [lockManagerStep, hm] at hstep
    cases hstep
    exact h.closing hm _
  | detected how => exact h.detected hm hstep
  | connected =>
    simp only [lockManagerStep, hm] at hstep
    cases hstep
    exact h.connected hm ok
  | waiting => exact h.waiting hm hstep
  | sleeping =>
    simp only [lockManagerStep, hm] at hstep
    cases hstep
    refine h.goto (by split <;> simp) (by split <;> simp) (fun hn hgoes => h.goesOn hn (.inr hm)) ?_
    split <;> exact fun _ => rfl
  | leaving ret =>
    simp only [lockManagerStep, hm] at hstep
    cases hstep
    exact h.goto (by simp) (by simp) (by simp) fun _ => rfl
  | ended =>
    simp only [lockManagerStep, hm] at hstep
    cases hstep

end Manager

omit [DecidableEq ι] in
theorem Reported.noticeStep {filePrefix : List (BitVec 8)} (h : Reported filePrefix s)
    (hstep : noticeStep ok s = some t) : Reported filePrefix t := by
  obtain ⟨h1, h2, h3, h4, h5, h6⟩ := h
  unfold Libfpga.noticeStep at hstep
  cases hc : s.channel with
  | none =>
    rw [hc] at hstep
    cases hstep
  | some p =>
    obtain ⟨hnone, -⟩ | ⟨hsome, -, hrep⟩ := h3
    · cases hc.symm.trans hnone
    cases hc.symm.trans hsome
    have hnotice : s.noticeOnce = true := by
      by_contra hne
      cases hc.symm.trans (h1 (by simpa using hne)).1
    have hsent : ∀ {P : Prop}, ((∃ how, s.manager = .detected how) ∨ s.manager = .connected ∨
        s.manager = .leaving 1) → P := fun hm => by cases hc.symm.trans (h2 hm).1
    simp only [hc] at hstep
    split at hstep
    · cases hstep
      exact ⟨by simp [hnotice], fun hm => hsent hm, .inl ⟨rfl, .inr (by simp [hrep])⟩,
        fun _ => by simp [hrep], fun _ _ => by simp [hrep], h6⟩
    · cases hstep
      refine ⟨by simp [hnotice], fun hm => hsent hm, .inl ⟨rfl, .inl hrep⟩, by simp, fun hn hm => ?_, h6⟩
      cases hrep.symm.trans (h5 hn hm)

theorem Reported.step (h : Reported (callbackPrefix command) s) {o : LockOp ι}
    (hstep : lockStep command s o = some t) : Reported (callbackPrefix command) t := by
  cases o with
  | user i op =>
    obtain ⟨-, -, rfl⟩ | ⟨fd, disk, -, -, -, rfl⟩ | ⟨u, -, rfl⟩ | ⟨fd, count, -, -, rfl⟩ |
      ⟨fd, -, -, rfl⟩ | ⟨-, -, rfl⟩ := lockUserStep_cases hstep <;>
        exact h.same rfl rfl rfl rfl rfl
  | manager ok => exact h.managerStep hstep
  | notice ok => exact h.noticeStep hstep
  | signal | unlink =>
    cases hstep
    exact h.same rfl rfl rfl rfl rfl
  | killManager =>
    cases hstep
    obtain ⟨h1, -, h3, h4, -, -⟩ := h
    exact ⟨fun hn => ⟨(h1 hn).1, (h1 hn).2.1, (h1 hn).2.2.1, by simp⟩, by simp, h3, h4, by simp,
      fun _ => rfl⟩

/-- **The prefix is reported once at most.** A manager that goes on after it noticed something has
reported it, one that detected a normal end has not, and none looks at the file again. -/
theorem reports_sound {s₀ : LockSystem ι} {os : List (LockOp ι)} (hstart : s₀.Start)
    (hne : command.bytes ≠ []) (hslash : slash ∉ command.bytes)
    (hrun : run (lockStep command) s₀ os = some s) :
    (s.reports = [] ∨ s.reports = [command.bytes]) ∧
      (s.manager = .leaving 1 → s.reports = []) ∧
      (s.noticeOnce = true →
        (s.manager = .calling ∨ s.manager = .sleeping → s.reports = [command.bytes]) ∧
        ∀ os' t, run (lockStep command) s os' = some t → t.manager.fd = none) := by
  have hreported : ∀ {os : List (LockOp ι)} {u}, run (lockStep command) s₀ os = some u →
      Reported command.bytes u := by
    intro os u hu
    rw [← callbackPrefix_eq hne hslash]
    exact run_invariant (fun _ _ _ h hstep => h.step hstep) (hstart.reported _) hu
  have hs := hreported hrun
  refine ⟨?_, fun hm => (hs.unsent (.inr (.inr hm))).2.2, fun hn => ⟨hs.goesOn hn, ?_⟩⟩
  · obtain ⟨-, hrep⟩ | ⟨-, -, hrep⟩ := hs.once
    · exact hrep
    · exact .inl hrep
  · intro os' t hrun'
    refine (hreported (run_trans hrun hrun')).closed ?_
    exact run_invariant (fun _ _ _ h hstep => noticeOnce_step h hstep) hn hrun'

/-- A user is killed, and the thread confirms the report. -/
def reportedUser : List (LockOp ℕ) :=
  [.user 0 (.openFile true), .user 0 (.lockFile true), .user 0 .kill, .manager true, .manager true,
    .manager true, .manager true, .manager true, .manager true, .notice true, .manager true]

/-- The manager goes on. -/
theorem reports_sound_killed :
    ∃ s, run (lockStep prefixA) lockStart reportedUser = some s ∧ s.manager = .sleeping ∧
      s.reports = [prefixA.bytes] := by
  have hsleeping : (run (lockStep prefixA) lockStart reportedUser).map
      (fun s => (s.manager, s.noticeOnce)) = some (.sleeping, true) := rfl
  obtain ⟨s, hs, heq⟩ := Option.map_eq_some_iff.mp hsleeping
  obtain ⟨hm, hn⟩ := Prod.mk.inj heq
  have hgoes := (reports_sound lockStart_start (by decide) (by decide) hs).2.2 hn
  exact ⟨s, hs, hm, hgoes.1 (.inr hm)⟩

end HardwareDrivers.Libfpga
