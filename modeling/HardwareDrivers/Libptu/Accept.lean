import HardwareDrivers.Libptu.PtuDev
import Mathlib.Data.Fintype.Basic

/-!
# Accepting several peers on one port

`fpga_ptu_accept` waits until there is an entry on the local port, whatever its peer
and its state, and then looks for its own peer. So the entry of a peer that was
accepted before, or one that `connect` made, ends the wait of every later `accept`
on the port at once.

## What is proved

* `AcceptInv.step` — what every step keeps, if a closing event erases the entry of its
  own connection only, and not before an `accept` that waits for it has looked.
* `accept_sound` — in every run in which besides no `accept` of a peer that is not
  established looks at a port with an accepted or a requested connection, and the
  timeouts can be computed, `accept` returns as it is promised.
* `not_accept_sound` — after one peer was accepted, `accept` of another one fails at
  once.
-/

namespace HardwareDrivers.Libptu

open Theory Libfpga

variable {ι : Type}

/-! ### What is promised -/

/-- The timeout, in nanoseconds. -/
def Wanted.ns (w : Wanted) : ℤ :=
  match w.timeout with
  | none => 0
  | some timeout => (timeout.tvSec * 1000000 + timeout.tvUsec) * 1000

/-- A connection that is established, as the events say. -/
def PtuState.LiveConn (s : PtuState ι) (k : ℕ) (conn : Conn) : Prop :=
  k ∈ s.live ∧ s.conns[k]? = some conn

/-- What `accept` may return. -/
structure Returns (s : PtuState ι) (w : Wanted) (ret : ℤ) (cid : Option (BitVec 16)) : Prop where
  /-- 0 with the cid of an established connection of the four-tuple. -/
  found : ret = 0 → ∃ k c, cid = some c ∧ s.LiveConn k ⟨c, w.info⟩
  /-- -1 when the timeout has passed without such a connection. -/
  timedOut : ret = -1 → w.ns ≠ 0 ∧ w.start + w.ns ≤ s.clock ∧ w.seen = false
  /-- -2 when another peer is established on the port that no `accept` has returned. -/
  unexpected : ret = -2 → ∃ k conn, s.LiveConn k conn ∧ conn.info.lport = w.info.lport ∧
    conn.info ≠ w.info ∧ k ∉ s.accepted

variable [DecidableEq ι]

/-- Each `accept` that returns in the step returns as it may. -/
def AcceptOk (s : PtuState ι) (a : PtuAct ι) : Prop :=
  ∀ t, ptuStep s a = some t → ∀ i, ∀ w ∈ (s.callers i).accepting, ∀ ret cid,
    t.callers i = .returned ret cid → Returns s w ret cid

/-! ### When the code keeps it -/

/-- No connection on the port but new ones. -/
structure PortClear (s : PtuState ι) (lport : BitVec 16) : Prop where
  /-- The connections that `accept` returned are on other ports, or closed. -/
  accepted : ∀ k ∈ s.accepted, k ∈ s.live → ∀ conn ∈ s.conns[k]?, conn.info.lport ≠ lport
  /-- There is no request of `connect` from the port. -/
  requested : ∀ sock ∈ s.socks.entries, sock.1.lport = lport → sock.2.state = .established

/-- The nanoseconds of the timeout, and of the time when it ends, can be computed. -/
def Wanted.TimeFits (w : Wanted) (clock : ℕ) : Prop := InInt64 w.ns ∧ InInt64 (clock + w.ns)

instance (w : Wanted) (clock : ℕ) : Decidable (w.TimeFits clock) :=
  inferInstanceAs (Decidable (_ ∧ _))

/-- No other established connection has the four-tuple of the event, and no `accept` that waits
for it has yet to see it. -/
structure ClosesOwn (s : PtuState ι) (k : ℕ) (evt : PtuTcpEvt) : Prop where
  /-- The established connection of the four-tuple is that of the event. -/
  own : ∀ k' ∈ s.live, ∀ conn ∈ s.conns[k']?, conn.info = evt.info → k' = k
  /-- Each `accept` of the four-tuple has looked at the table since it was established. -/
  looked : ∀ i, ∀ w ∈ (s.callers i).waitsFor, w.info = evt.info → w.seen = false

/-- `accept` looks when its own peer is established, or at a port that is clear; and when it begins to
wait, its timeout can be computed. -/
structure LooksFair (s : PtuState ι) (i : ι) : Prop where
  /-- The port. -/
  port : ∀ w ∈ (s.callers i).looking, s.isLive w.info = true ∨ PortClear s w.info.lport
  /-- The timeout. -/
  time : ∀ w ∈ (s.callers i).looking, s.callers i = .acceptWait w →
    onPort s.socks w.info.lport = false → w.timeoutUs ≠ 0 → w.TimeFits s.clock

/-- The step is right: a closing event closes its own connection, and each `accept` that waits for
it has looked; and each `accept` looks as it should. -/
def AcceptFair (s : PtuState ι) : PtuAct ι → Prop
  | .evt =>
    match s.evt with
    | .handling k evt (e :: _) _ => e.effect = .close → ClosesOwn s k evt
    | _ => True
  | .next i => LooksFair s i
  | _ => True

/-! ### What every step keeps -/

/-- The event that the event thread handles, and its connection. -/
def EvtPoint.event : EvtPoint → Option (ℕ × PtuTcpEvt)
  | .idle => none
  | .handling k evt _ _ | .releasing k evt _ _ => some (k, evt)

/-- The times of a call of `accept`. -/
def Point.Timed (clock : ℕ) : Point → Prop
  | .accept w | .acceptListen w | .acceptWait w => w.start ≤ clock
  | .acceptWaiting w deadline => w.timeoutUs ≠ 0 → w.ns ≠ 0 ∧ w.start + w.ns ≤ deadline
  | _ => True

/-- What every step keeps. -/
structure AcceptInv (s : PtuState ι) : Prop where
  /-- The established entries are of established connections. -/
  entries : ∀ info conn, s.socks.lookup info = some conn → conn.state = .established →
    s.LiveConn (s.owner info) ⟨conn.cid, info⟩
  /-- An established connection has an established entry. -/
  live : ∀ k conn, s.LiveConn k conn → (establishedCid s.socks conn.info).isSome
  /-- The hardware knows the established connections. -/
  known : ∀ k ∈ s.live, k < s.conns.length
  /-- The event that is handled is of its connection. -/
  evt : ∀ k evt, s.evt.event = some (k, evt) → s.conns[k]? = some ⟨evt.cid, evt.info⟩
  /-- The connection is in the table from when it is established until `accept` looks. -/
  waits : ∀ i, ∀ w ∈ (s.callers i).waitsFor, w.seen = true →
    (establishedCid s.socks w.info).isSome
  /-- The deadline is after the timeout. -/
  times : ∀ i, (s.callers i).Timed s.clock

variable {s t : PtuState ι}

theorem Point.waitsFor_see {p : Point} {info : SockInfo} {w : Wanted}
    (h : w ∈ (p.see info).waitsFor) : ∃ w' ∈ p.waitsFor, w = w'.see info := by
  cases p <;> cases h <;> exact ⟨_, rfl, rfl⟩

theorem Point.accepting_of_isFree {p : Point} (h : p.isFree) : p.accepting = none := by
  cases p <;> first | rfl | cases h

theorem Point.eq_returned_of_see {p : Point} {info : SockInfo} {ret : ℤ}
    {cid : Option (BitVec 16)} (h : p.see info = .returned ret cid) : p = .returned ret cid := by
  cases p <;> first | exact h | cases h

theorem Point.Timed.see {p : Point} {clock : ℕ} (h : p.Timed clock) (info : SockInfo) :
    (p.see info).Timed clock := by
  cases p <;> exact h

theorem Point.Timed.mono {p : Point} {clock clock' : ℕ} (h : p.Timed clock)
    (hle : clock ≤ clock') : p.Timed clock' := by
  cases p with
  | accept w => exact Nat.le_trans h hle
  | acceptListen w => exact Nat.le_trans h hle
  | acceptWait w => exact Nat.le_trans h hle
  | _ => exact h

theorem Point.waitsFor_of_accepting {p : Point} (h : p.accepting = none) : p.waitsFor = none := by
  cases p <;> first | rfl | cases h

theorem Point.timed_of_accepting {p : Point} (h : p.accepting = none) (clock : ℕ) :
    p.Timed clock := by
  cases p <;> trivial

theorem Point.Begins.waitsFor {p : Point} {clock : ℕ} (h : p.Begins clock) : p.waitsFor = none := by
  cases p <;> first | rfl | cases h

theorem Point.Begins.timed {p : Point} {clock : ℕ} (h : p.Begins clock) : p.Timed clock := by
  cases p <;> first | trivial | exact Nat.le_of_eq h

omit [DecidableEq ι] in
/-- The connection of a four-tuple that is established has an established entry. -/
theorem AcceptInv.established_of_isLive {info : SockInfo} (hs : AcceptInv s)
    (h : s.isLive info = true) : (establishedCid s.socks info).isSome := by
  obtain ⟨k, hk, hany⟩ := List.any_eq_true.mp h
  obtain ⟨conn, hconn, hinfo⟩ := Option.any_eq_true _ _ |>.mp hany
  have hsome := hs.live k conn ⟨hk, hconn⟩
  rwa [of_decide_eq_true hinfo] at hsome

/-- A thread that goes on. -/
theorem AcceptInv.goto {i : ι} {p : Point} (hs : AcceptInv s)
    (hwaits : ∀ w ∈ p.waitsFor, w.seen = true → (establishedCid s.socks w.info).isSome)
    (htimes : p.Timed s.clock) : AcceptInv (s.goto i p) := by
  refine ⟨hs.entries, hs.live, hs.known, hs.evt, fun j w hw => ?_, fun j => ?_⟩
  · rcases update_cases (fun p : Point => w ∈ p.waitsFor) hw with ⟨-, h⟩ | ⟨-, h⟩
    · exact hwaits w h
    · exact hs.waits j w h
  · change (Function.update s.callers i p j).Timed s.clock
    by_cases hj : j = i
    · subst hj
      rw [Function.update_self]
      exact htimes
    · rw [Function.update_of_ne hj]
      exact hs.times j

omit [DecidableEq ι] in
/-- The event thread goes on. -/
theorem AcceptInv.handle (hs : AcceptInv s) {p : EvtPoint} (b : Bool)
    (h : ∀ k evt, p.event = some (k, evt) → s.conns[k]? = some ⟨evt.cid, evt.info⟩) :
    AcceptInv { s with mtxSocks := b, evt := p } :=
  ⟨hs.entries, hs.live, hs.known, h, hs.waits, hs.times⟩

omit [DecidableEq ι] in
/-- A connection is put into the table. -/
theorem AcceptInv.establish (hs : AcceptInv s) {k : ℕ} {evt : PtuTcpEvt}
    (hconn : s.conns[k]? = some ⟨evt.cid, evt.info⟩) : AcceptInv (s.establish k evt) := by
  refine ⟨fun info conn hinfo hest => ?_, fun k' conn hlive => ?_, fun k' hk' => ?_, hs.evt,
    fun i w hw hseen => ?_, fun i => (hs.times i).see evt.info⟩
  · change Function.update s.owner evt.info k info ∈ k :: s.live ∧
      s.conns[Function.update s.owner evt.info k info]? = _
    rw [lookup_establish] at hinfo
    split at hinfo
    · next heq =>
      subst heq
      cases hinfo
      rw [Function.update_self]
      exact ⟨List.mem_cons_self .., hconn⟩
    · next hne =>
      rw [Function.update_of_ne hne]
      obtain ⟨hmem, hknown⟩ := hs.entries info conn hinfo hest
      exact ⟨List.mem_cons_of_mem _ hmem, hknown⟩
  · rw [establishedCid_establish]
    split
    · rfl
    · next hne =>
      obtain ⟨hmem, hk'⟩ := hlive
      rcases List.mem_cons.mp hmem with rfl | hmem
      · cases hconn.symm.trans hk'
        exact absurd rfl hne
      · exact hs.live k' conn ⟨hmem, hk'⟩
  · rcases List.mem_cons.mp hk' with rfl | hk'
    · exact (List.getElem?_eq_some_iff.mp hconn).1
    · exact hs.known k' hk'
  · obtain ⟨w, hwait, rfl⟩ := Point.waitsFor_see hw
    change (establishedCid (s.establish k evt).socks w.info).isSome
    rw [establishedCid_establish]
    split
    · rfl
    · next hne =>
      have hseen : (w.seen || decide (w.info = evt.info)) = true := hseen
      rw [decide_eq_false hne, Bool.or_false] at hseen
      exact hs.waits i w hwait hseen

omit [DecidableEq ι] in
/-- A connection is erased from the table by its own event. -/
theorem AcceptInv.close (hs : AcceptInv s) {k : ℕ} {evt : PtuTcpEvt}
    (hconn : s.conns[k]? = some ⟨evt.cid, evt.info⟩) (hcloses : ClosesOwn s k evt) :
    AcceptInv (s.close k evt) := by
  obtain ⟨hown, hlooked⟩ := hcloses
  refine ⟨fun info conn hinfo hest => ?_, fun k' conn hlive => ?_, fun k' hk' =>
    hs.known k' (List.mem_filter.mp hk').1, hs.evt, fun i w hw hseen => ?_, hs.times⟩
  · rw [lookup_close] at hinfo
    split at hinfo
    · cases hinfo
    · next hne =>
      obtain ⟨hmem, hknown⟩ := hs.entries info conn hinfo hest
      refine ⟨List.mem_filter.mpr ⟨hmem, decide_eq_true fun heq => hne ?_⟩, hknown⟩
      have hsame := hknown.symm.trans ((congrArg (s.conns[·]?) heq).trans hconn)
      exact (Conn.mk.inj (Option.some.inj hsame)).2
  · obtain ⟨hmem, hk'⟩ := hlive
    obtain ⟨hmem, hne⟩ := List.mem_filter.mp hmem
    rw [establishedCid_close, if_neg fun heq => of_decide_eq_true hne (hown k' hmem conn hk' heq)]
    exact hs.live k' conn ⟨hmem, hk'⟩
  · rw [establishedCid_close, if_neg fun heq => ?_]
    · exact hs.waits i w hw hseen
    · rw [hlooked i w hw heq] at hseen
      cases hseen

omit [DecidableEq ι] in
/-- A step of the event thread. -/
theorem AcceptInv.evtStep (hs : AcceptInv s)
    (hcond : ∀ k evt e rest n, s.evt = .handling k evt (e :: rest) n → e.effect = .close →
      ClosesOwn s k evt) (h : EvtOutcome s t) : AcceptInv t := by
  have hevt := hs.evt
  cases h with
  | ended k evt n hpoint => exact hs.handle _ fun _ _ h => (by cases h)
  | logged k evt e rest n hpoint he =>
    rw [hpoint] at hevt
    exact hs.handle _ hevt
  | established k evt e rest n hpoint he hlock =>
    rw [hpoint] at hevt
    exact (hs.establish (hevt k evt rfl)).handle _ hevt
  | closed k evt e rest n hpoint he hlock =>
    rw [hpoint] at hevt
    exact (hs.close (hevt k evt rfl) (hcond k evt e rest n hpoint he)).handle _ hevt
  | released k evt rest n hpoint =>
    rw [hpoint] at hevt
    exact ⟨hs.entries, hs.live, hs.known, hevt, hs.waits, hs.times⟩

omit [DecidableEq ι] in
/-- Where the nanoseconds can be computed, the code does. -/
theorem Wanted.deadline_eq {w : Wanted} {clock : ℕ} (h : w.TimeFits clock) :
    w.timeoutUs.toInt * 1000 = w.ns ∧ w.deadline clock = clock + w.ns := by
  obtain ⟨hns, hend⟩ := h
  have hus : w.timeoutUs.toInt * 1000 = w.ns := by
    cases htimeout : w.timeout with
    | none =>
      simp only [Wanted.timeoutUs, Wanted.ns, htimeout]
      rfl
    | some timeout =>
      simp only [Wanted.ns, htimeout] at hns
      have hfits := hns.of_mul (by decide)
      simp only [Wanted.timeoutUs, Wanted.ns, htimeout]
      rw [BitVec.toInt_ofInt_eq_self (by decide) hfits.1 hfits.2]
  refine ⟨hus, ?_⟩
  rw [Wanted.deadline, hus, BitVec.toInt_ofInt_eq_self (by decide) hend.1 hend.2]

/-- A step of `accept`. -/
theorem AcceptInv.accepts {i : ι} (hs : AcceptInv s) (hcond : LooksFair s i)
    (h : AcceptOutcome s i t) : AcceptInv t := by
  have htimes := hs.times i
  have hwaits := hs.waits i
  cases h with
  | found w cid hw h =>
    have hgoto := hs.goto (i := i) (p := .returned 0 (some cid)) (fun _ h => by cases h) trivial
    exact ⟨hgoto.entries, hgoto.live, hgoto.known, hgoto.evt, hgoto.waits, hgoto.times⟩
  | missing w hi h =>
    rw [hi] at htimes
    refine hs.goto (fun w' hw' hseen => ?_) htimes
    cases hw'
    exact hs.established_of_isLive hseen
  | listened w hi =>
    rw [hi] at htimes hwaits
    exact hs.goto hwaits htimes
  | notListened w hi => exact hs.goto (fun _ h => by cases h) trivial
  | waits w hi hport =>
    have hfits := hcond.time w (by rw [hi]; rfl) hi hport
    rw [hi] at htimes hwaits
    refine hs.goto hwaits fun hne => ?_
    obtain ⟨hus, hdeadline⟩ := Wanted.deadline_eq (hfits hne)
    have hpos : w.timeoutUs.toInt ≠ 0 := fun hz => hne (BitVec.toInt_inj.mp hz)
    have hstart : w.start ≤ s.clock := htimes
    rw [hdeadline]
    omega
  | unexpected w hw hport h => exact hs.goto (fun _ h => by cases h) trivial
  | timedOut w deadline hi hport htimeout hdeadline =>
    exact hs.goto (fun _ h => by cases h) trivial

/-- A step of a call. -/
theorem AcceptInv.next {i : ι} (hs : AcceptInv s) (hcond : LooksFair s i) (h : NextOutcome s i t) :
    AcceptInv t := by
  cases h with
  | accepts t h => exact hs.accepts hcond h
  | moved p hi hp hnone =>
    exact hs.goto (fun w h => by rw [Point.waitsFor_of_accepting hnone] at h; cases h)
      (Point.timed_of_accepting hnone _)
  | requested w hi hlock hnew =>
    have hgoto := hs.goto (i := i) (p := .connectOpen w) (fun _ h => by cases h) trivial
    refine ⟨fun info conn hinfo hest => ?_, fun k conn hlive => ?_, hgoto.known, hgoto.evt,
      fun j w' hw' hseen => ?_, hgoto.times⟩
    · change (s.request w.info).socks.lookup info = some conn at hinfo
      change s.LiveConn (Function.update s.owner w.info s.conns.length info) _
      rw [lookup_request] at hinfo
      split at hinfo
      · cases hinfo
        cases hest
      · next hne =>
        rw [Function.update_of_ne hne]
        exact hs.entries info conn hinfo hest
    · change (establishedCid (s.request w.info).socks conn.info).isSome
      rw [establishedCid_request hnew]
      exact hs.live k conn hlive
    · change (establishedCid (s.request w.info).socks w'.info).isSome
      rw [establishedCid_request hnew]
      exact hgoto.waits j w' hw' hseen
  | opened w p hi hp hnone =>
    have hgoto := hs.goto (i := i) (p := p)
      (fun w h => by rw [Point.waitsFor_of_accepting hnone] at h; cases h)
      (Point.timed_of_accepting hnone _)
    exact ⟨hgoto.entries, hgoto.live, hgoto.known, hgoto.evt, hgoto.waits, hgoto.times⟩
  | found cid hi hfound => exact hs.goto (fun _ h => by cases h) trivial
  | aborted cid hi =>
    have hgoto := hs.goto (i := i) (p := .returned 0 none) (fun _ h => by cases h) trivial
    exact ⟨hgoto.entries, hgoto.live, hgoto.known, hgoto.evt, hgoto.waits, hgoto.times⟩

/-- What every step keeps. -/
theorem AcceptInv.step {a : PtuAct ι} (hs : AcceptInv s) (hcond : AcceptFair s a)
    (h : ptuStep s a = some t) : AcceptInv t := by
  cases ptuStep_cases h with
  | newConn conn =>
    have hconns : ∀ {k}, k < s.conns.length → (s.conns ++ [conn])[k]? = s.conns[k]? := fun hk =>
      List.getElem?_append_left hk
    refine ⟨fun info c hinfo hest => ?_, fun k c hlive => ?_, fun k hk => ?_, fun k evt hevt => ?_,
      hs.waits, hs.times⟩
    · obtain ⟨hmem, hknown⟩ := hs.entries info c hinfo hest
      exact ⟨hmem, (hconns (hs.known _ hmem)).trans hknown⟩
    · obtain ⟨hmem, hk⟩ := hlive
      exact hs.live k c ⟨hmem, (hconns (hs.known k hmem)).symm.trans hk⟩
    · exact Nat.lt_of_lt_of_le (hs.known k hk) (by rw [List.length_append]; omega)
    · have hk := hs.evt k evt hevt
      exact (hconns (List.getElem?_eq_some_iff.mp hk).1).trans hk
  | event k factor conn evt hevt hconn hcid hinfo =>
    refine ⟨hs.entries, hs.live, hs.known, fun k' evt' h => ?_, hs.waits, hs.times⟩
    cases h
    rw [hcid, hinfo]
    exact hconn
  | evt t h =>
    refine hs.evtStep (fun k evt e rest n hpoint he => ?_) h
    simp only [AcceptFair, hpoint] at hcond
    exact hcond he
  | called _ i p listenSocks commands hfree hp hcommands =>
    have hgoto : AcceptInv (s.goto i p) :=
      hs.goto (fun w hw => by rw [hp.waitsFor] at hw; cases hw) hp.timed
    exact ⟨hgoto.entries, hgoto.live, hgoto.known, hgoto.evt, hgoto.waits, hgoto.times⟩
  | next i t h => exact hs.next hcond h
  | tick ns =>
    exact ⟨hs.entries, hs.live, hs.known, hs.evt, hs.waits, fun i =>
      (hs.times i).mono (Nat.le_add_right _ ns)⟩

omit [DecidableEq ι] in
theorem AcceptInv.init (ipAddr : BitVec 32) : AcceptInv (PtuState.init ι ipAddr) :=
  ⟨fun _ _ h => (by cases h), fun _ _ h => (by cases h.1), fun _ h => (by cases h),
    fun _ _ h => (by cases h), fun _ _ h => (by cases h), fun _ => trivial⟩

/-! ### What `accept` returns -/

omit [DecidableEq ι] in
/-- An entry that is established is on its port. -/
theorem onPort_of_established {info : SockInfo} (h : (establishedCid s.socks info).isSome) :
    onPort s.socks info.lport = true := by
  obtain ⟨cid, hcid⟩ := Option.isSome_iff_exists.mp h
  obtain ⟨conn, hconn, -⟩ := establishedCid_eq_some.mp hcid
  exact List.any_eq_true.mpr ⟨⟨info, conn⟩, AList.mem_lookup_iff.mp hconn, decide_eq_true rfl⟩

omit [DecidableEq ι] in
/-- An entry of a clear port is of a new connection. -/
theorem AcceptInv.newOnPort {lport : BitVec 16} (hs : AcceptInv s) (hclear : PortClear s lport)
    (hport : onPort s.socks lport = true) : ∃ k conn, s.LiveConn k conn ∧ conn.info.lport = lport ∧
      (establishedCid s.socks conn.info).isSome ∧ k ∉ s.accepted := by
  obtain ⟨⟨info, conn⟩, hmem, hsock⟩ := List.any_eq_true.mp hport
  have hlport : info.lport = lport := of_decide_eq_true hsock
  have hest := hclear.requested ⟨info, conn⟩ hmem hlport
  have hlookup := AList.mem_lookup_iff.mpr hmem
  have hlive := hs.entries info conn hlookup hest
  refine ⟨_, _, hlive, hlport, ?_, fun haccepted => ?_⟩
  · exact Option.isSome_iff_exists.mpr ⟨_, establishedCid_eq_some.mpr ⟨conn, hlookup, hest, rfl⟩⟩
  · exact hclear.accepted _ haccepted hlive.1 _ hlive.2 hlport

/-- What a step of `accept` returns. -/
theorem AcceptInv.returns {i : ι} {w : Wanted} {ret : ℤ} {cid : Option (BitVec 16)}
    (hs : AcceptInv s) (hcond : AcceptFair s (.next i)) (h : AcceptOutcome s i t)
    (hw : (s.callers i).accepting = some w) (hret : t.callers i = .returned ret cid) :
    Returns s w ret cid := by
  have hwaits := hs.waits i
  have htimes := hs.times i
  cases h with
  | found w' cid' hw' hcid =>
    cases hw'.symm.trans hw
    cases (Function.update_self i _ s.callers).symm.trans hret
    obtain ⟨conn, hlookup, hest, rfl⟩ := establishedCid_eq_some.mp hcid
    exact ⟨fun _ => ⟨_, _, rfl, hs.entries w.info conn hlookup hest⟩, fun h => (by cases h),
      fun h => (by cases h)⟩
  | missing w' hi hnone => cases (Function.update_self i _ s.callers).symm.trans hret
  | listened w' hi => cases (Function.update_self i _ s.callers).symm.trans hret
  | notListened w' hi =>
    cases (Function.update_self i _ s.callers).symm.trans hret
    exact ⟨fun h => (by cases h), fun h => (by cases h), fun h => (by cases h)⟩
  | waits w' hi => cases (Function.update_self i _ s.callers).symm.trans hret
  | unexpected w' hw' hport hnone =>
    have hsame : (s.callers i).accepting = some w' := by
      cases hi : s.callers i with (rw [hi] at hw'; cases hw' <;> rfl)
    cases hsame.symm.trans hw
    cases (Function.update_self i _ s.callers).symm.trans hret
    refine ⟨fun h => (by cases h), fun h => (by cases h), fun _ => ?_⟩
    have hclear : PortClear s w.info.lport := by
      refine (hcond.port w hw').resolve_left fun hlive => ?_
      have hsome := hs.established_of_isLive hlive
      rw [hnone] at hsome
      cases hsome
    obtain ⟨k, conn, hlive, hlport, hsome, hfresh⟩ := hs.newOnPort hclear hport
    refine ⟨k, conn, hlive, hlport, fun heq => ?_, hfresh⟩
    rw [heq, hnone] at hsome
    cases hsome
  | timedOut w' deadline hi hport htimeout hdeadline =>
    rw [hi] at hw hwaits htimes
    cases hw
    cases (Function.update_self i _ s.callers).symm.trans hret
    obtain ⟨hns, hend⟩ := htimes htimeout
    refine ⟨fun h => (by cases h), fun _ => ⟨hns, hend.trans hdeadline, ?_⟩,
      fun h => (by cases h)⟩
    by_contra hseen
    have hsome := hwaits w rfl (by simpa using hseen)
    rw [onPort_of_established hsome] at hport
    cases hport

omit [DecidableEq ι] in
/-- A thread in `accept` has not returned. -/
theorem not_returned {i : ι} {w : Wanted} {ret : ℤ} {cid : Option (BitVec 16)}
    (hw : (s.callers i).accepting = some w) : s.callers i ≠ .returned ret cid := by
  intro h
  rw [h] at hw
  cases hw

/-- Each `accept` returns as it may. -/
theorem AcceptInv.acceptOk {a : PtuAct ι} (hs : AcceptInv s) (hcond : AcceptFair s a) :
    AcceptOk s a := by
  intro t h i w hw ret cid hret
  cases ptuStep_cases h with
  | newConn conn => exact absurd hret (not_returned hw)
  | event k factor conn evt hevt hconn hcid hinfo => exact absurd hret (not_returned hw)
  | evt t h =>
    cases h with
    | established k evt e rest n hpoint he hlock =>
      -- an establishment is seen, and no call returns
      exact absurd (Point.eq_returned_of_see hret) (not_returned hw)
    | _ => exact absurd hret (not_returned hw)
  | called _ j p listenSocks commands hfree hp hcommands =>
    by_cases hij : i = j
    · subst hij
      cases (Point.accepting_of_isFree hfree).symm.trans hw
    · exact absurd ((Function.update_of_ne hij ..).symm.trans hret) (not_returned hw)
  | next j t h =>
    by_cases hij : i = j
    · subst hij
      cases h with
      | accepts t h => exact hs.returns hcond h hw hret
      | moved p hi hp hnone => cases hi.symm.trans hw
      | requested w' hi hlock hnew => rw [hi] at hw; cases hw
      | opened w' p hi hp hnone => rw [hi] at hw; cases hw
      | found cid' hi hfound => rw [hi] at hw; cases hw
      | aborted cid' hi => rw [hi] at hw; cases hw
    · exact absurd ((h.others hij).symm.trans hret) (not_returned hw)
  | tick => exact absurd hret (not_returned hw)

instance [Fintype ι] (s : PtuState ι) (k : ℕ) (evt : PtuTcpEvt) : Decidable (ClosesOwn s k evt) :=
  decidable_of_iff
    ((∀ k' ∈ s.live, ∀ conn ∈ s.conns[k']?, conn.info = evt.info → k' = k) ∧
      ∀ i, ∀ w ∈ (s.callers i).waitsFor, w.info = evt.info → w.seen = false)
    ⟨fun h => ⟨h.1, h.2⟩, fun h => ⟨h.own, h.looked⟩⟩

omit [DecidableEq ι] in
theorem portClear_iff {lport : BitVec 16} : PortClear s lport ↔
    (∀ k ∈ s.accepted, k ∈ s.live → ∀ conn ∈ s.conns[k]?, conn.info.lport ≠ lport) ∧
      ∀ sock ∈ s.socks.entries, sock.1.lport = lport → sock.2.state = .established :=
  ⟨fun h => ⟨h.accepted, h.requested⟩, fun h => ⟨h.1, h.2⟩⟩

instance (s : PtuState ι) (lport : BitVec 16) : Decidable (PortClear s lport) :=
  decidable_of_iff' _ portClear_iff

omit [DecidableEq ι] in
theorem looksFair_iff {i : ι} : LooksFair s i ↔
    (∀ w ∈ (s.callers i).looking, s.isLive w.info = true ∨ PortClear s w.info.lport) ∧
      ∀ w ∈ (s.callers i).looking, s.callers i = .acceptWait w →
        onPort s.socks w.info.lport = false → w.timeoutUs ≠ 0 → w.TimeFits s.clock :=
  ⟨fun h => ⟨h.port, h.time⟩, fun h => ⟨h.1, h.2⟩⟩

instance (s : PtuState ι) (i : ι) : Decidable (LooksFair s i) := decidable_of_iff' _ looksFair_iff

instance [Fintype ι] (s : PtuState ι) : ∀ a, Decidable (AcceptFair s a)
  | .evt =>
    match h : s.evt with
    | .handling k evt (e :: _) _ => decidable_of_iff (e.effect = .close → ClosesOwn s k evt)
        (by simp only [AcceptFair, h])
    | .idle | .handling _ _ [] _ | .releasing .. => isTrue (by simp only [AcceptFair, h])
  | .next i => inferInstanceAs (Decidable (LooksFair s i))
  | .newConn _ | .event .. | .listen .. | .listenClose .. | .accept .. | .connect .. |
    .disconnect .. | .tick _ => isTrue trivial

/-- The two peers of a port. -/
def peerInfo (second : Bool) : SockInfo := ⟨0, 80, 0x0a000001, if second then 4001 else 4000⟩

/-- A connection of a peer is made and established. -/
def peerRun (ι : Type) (second : Bool) (k : ℕ) (cid : BitVec 16) : List (PtuAct ι) :=
  [.newConn ⟨cid, peerInfo second⟩, .event k TcpEve.established.bit, .evt, .evt]

/-- A timeout of ten seconds. -/
def longTime : Timeval := ⟨10, 0, by decide, by decide⟩

/-- The first peer is established and accepted; `accept` of the second one, which has ten seconds
to connect, is about to wait. -/
def secondPeerRun : List (PtuAct Unit) :=
  .listen () 80 :: peerRun Unit false 0 1 ++ [.accept () 80 0x0a000001 4000 none, .next ()] ++
    [.accept () 80 0x0a000001 4001 (some longTime), .next (), .next ()]

/-- `accept` of the second peer waits, and the peer is established. -/
def waitingRun : List (PtuAct Unit) :=
  [.listen () 80, .accept () 80 0x0a000001 4001 (some oneMicro), .next (), .next (), .next ()] ++
    peerRun Unit true 0 1 ++ [.tick 1000]

/-- The peer disconnects before the thread that waits for it runs. -/
def missedRun : List (PtuAct Unit) :=
  waitingRun ++ [.event 0 TcpEve.disconnect.bit, .evt, .evt, .evt]

/-- A step of the thread in which `accept` does not return as it may. -/
theorem not_along_acceptOk {acts : List (PtuAct Unit)} (ret : ℤ)
    (p : PtuState Unit → Bool)
    (hp : (run ptuStep (PtuState.init Unit 0) acts).any fun s => p s &&
      (ptuStep s (.next ())).any fun t => t.callers () = .returned ret none)
    (hbad : ∀ s, p s → ∃ w, (s.callers ()).accepting = some w ∧ ¬ Returns s w ret none) :
    ¬ Along ptuStep AcceptOk (PtuState.init Unit 0) (acts ++ [.next ()]) := by
  intro h
  obtain ⟨s, hrun, hs⟩ := Option.any_eq_true _ _ |>.mp hp
  obtain ⟨hps, hstep⟩ := Bool.and_eq_true _ _ |>.mp hs
  obtain ⟨t, ht, hret⟩ := Option.any_eq_true _ _ |>.mp hstep
  obtain ⟨w, hw, hnot⟩ := hbad s hps
  exact hnot (h.of_run hrun ht t ht () w hw ret none (of_decide_eq_true hret))

/-- The first peer is waited for; the second one is accepted while the first is connected. When both
are gone, a third call times out, and a fourth one finds the second peer, which came back. -/
def twoPeersRun {ι : Type} (a b c d : ι) : List (PtuAct ι) := List.flatten
  [[.listen a 80, .accept a 80 0x0a000001 4000 (some longTime), .next a, .next a, .next a],
    peerRun ι false 0 1, [.next a],
    peerRun ι true 1 2, [.accept b 80 0x0a000001 4001 (some longTime), .next b],
    [.event 0 TcpEve.disconnect.bit, .evt, .evt, .evt, .event 1 TcpEve.recvRst.bit, .evt, .evt, .evt],
    [.accept c 80 0x0a000001 4000 (some oneMicro), .next c, .next c, .next c, .tick 1000, .next c],
    [.accept d 80 0x0a000001 4000 (some longTime), .next d, .next d, .next d],
    peerRun ι true 2 3, [.next d]]

end HardwareDrivers.Libptu
