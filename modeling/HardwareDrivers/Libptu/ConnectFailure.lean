import HardwareDrivers.Libptu.PtuDev

/-!
# What a failed connect leaves in the socket table

`ptu_dev::connect` makes its entry before it gives its command, and waits with the lock released.
Meanwhile, and after it returned, the event thread goes on with the events of the four-tuple, and
other threads call. A call is followed here with the entry that the table would have without it.

A call that times out leaves its request, which the hardware still tries: the request has no cid
that it could be withdrawn with, and the header gives -3 for what is requested and not established.

## What is proved

* `Attempt.Tracks.step` — at any time the entry is the pending request of the call, or what there
  would be without the call.
* `connectFails_sound` — what a failed call leaves, until when, and that what is established
  later can be disconnected.
* `not_connectFails_traceless` — after a time-out the request is there, and the next call is refused.
-/

namespace HardwareDrivers.Libptu

open Theory Libfpga

variable {ι : Type}

/-! ### One call and what there would be without it -/

/-- The call of `connect` the thread is in. -/
def Point.connecting : Point → Option Wanted
  | connect w | connectOpen w | connectWaiting w _ => some w
  | _ => none

/-- What the call of the thread returned. -/
def Point.result : Point → Option ℤ
  | returned ret _ => some ret
  | _ => none

/-- The entry of a request. -/
def SockInfo.requested (info : SockInfo) : PtuTcpConn := ⟨0, .synSent, info⟩

/-- What the event thread is about to make of the entry of a four-tuple, if anything. -/
def EvtPoint.entry (info : SockInfo) : EvtPoint → Option (Option PtuTcpConn)
  | .handling _ evt (e :: _) _ =>
    if evt.info = info then
      match e.effect with
      | .log => none
      | .establish => some (some ⟨evt.cid, .established, evt.info⟩)
      | .close => some none
    else none
  | _ => none

/-- The thread is about to request the four-tuple. -/
def PtuState.requests (s : PtuState ι) (j : ι) (info : SockInfo) : Bool :=
  match s.callers j with
  | .connect w => w.info = info ∧ info ∉ s.socks
  | _ => false

/-- A PTU during and after a call of `connect`. -/
structure Attempt (ι : Type) where
  /-- The PTU. -/
  ptu : PtuState ι
  /-- The entry of the four-tuple that events, and requests of other calls, alone would have made. -/
  alone : Option PtuTcpConn
  /-- The call has made its request, and no event of the four-tuple was handled since. -/
  pending : Bool
  /-- What the call returned. -/
  ret : Option ℤ

/-- An event is handled. -/
def Attempt.event (x : Attempt ι) (info : SockInfo) : Attempt ι :=
  match x.ptu.evt.entry info with
  | some entry => { x with alone := entry, pending := false }
  | none => x

variable [DecidableEq ι]

/-- The four-tuple is requested, by the call if `own`. -/
def Attempt.request (x : Attempt ι) (info : SockInfo) (own : Bool) : Attempt ι :=
  if own then { x with pending := true } else { x with alone := some info.requested }

/-- Thread `j` goes on, while the call is that of thread `i`. -/
def Attempt.advance (x : Attempt ι) (i : ι) (info : SockInfo) (j : ι) (t : PtuState ι) : Attempt ι :=
  let own := decide (j = i) && x.ret.isNone
  { (if x.ptu.requests j info then x.request info own else x) with
    ret := if own then (t.callers i).result else x.ret }

/-- One step, after thread `i` called. -/
def attemptStep (i : ι) (info : SockInfo) (x : Attempt ι) (a : PtuAct ι) : Option (Attempt ι) :=
  (ptuStep x.ptu a).map fun t =>
    match a with
    | .evt => { x.event info with ptu := t }
    | .next j => { x.advance i info j t with ptu := t }
    | _ => { x with ptu := t }

/-- Thread `i` has called. -/
def PtuState.attempt (s : PtuState ι) (i : ι) (w : Wanted) : Attempt ι :=
  ⟨s.goto i (.connect w), s.socks.lookup w.info, false, none⟩

/-! ### What a later call comes to -/

/-- The first steps of a `connect` to the four-tuple. -/
def PtuState.reconnect (s : PtuState ι) (j : ι) (info : SockInfo) (timeout : Option Timeval) :
    Option (PtuState ι) :=
  run ptuStep s [.connect j info.lport info.raddr info.rport timeout, .next j]

/-- It makes its request and is about to give its command. -/
def PtuState.Attempts (s : PtuState ι) (j : ι) (info : SockInfo) (timeout : Option Timeval) : Prop :=
  ∃ t, s.reconnect j info timeout = some t ∧ t.callers j = .connectOpen ⟨info, timeout, s.clock, false⟩

/-- It is refused as already requested. -/
def PtuState.Refuses (s : PtuState ι) (j : ι) (info : SockInfo) (timeout : Option Timeval) : Prop :=
  ∃ t, s.reconnect j info timeout = some t ∧ t.callers j = .returned (-3) none

/-- `accept` of the four-tuple returns the connection at its first look. -/
def PtuState.Accepts (s : PtuState ι) (j : ι) (info : SockInfo) (timeout : Option Timeval) (cid : BitVec 16) :
    Prop :=
  ∃ t, run ptuStep s [.accept j info.lport info.raddr info.rport timeout, .next j] = some t ∧
    t.callers j = .returned 0 (some cid)

/-- `disconnect` of the cid gives its command. -/
def PtuState.Disconnects (s : PtuState ι) (j : ι) (cid : BitVec 16) : Prop :=
  ∃ t, run ptuStep s [.disconnect j (cid.setWidth 32), .next j, .next j] = some t ∧
    t.callers j = .returned 0 none ∧ t.commands = .abort cid :: s.commands

/-- A thread that can call and take the lock. -/
def PtuState.Ready (s : PtuState ι) (j : ι) : Prop := (s.callers j).isFree ∧ s.mtxSocks = false

/-! ### What is said of a call -/

/-- A failed call leaves no trace. -/
structure Attempt.Traceless (info : SockInfo) (x : Attempt ι) : Prop where
  /-- After an error there is what events alone would have put there. -/
  entry : ∀ ret, x.ret = some ret → ret ≠ 0 → x.ptu.socks.lookup info = x.alone
  /-- Unless they put an entry there, a later call is attempted. -/
  again : ∀ ret, x.ret = some ret → ret ≠ 0 → x.alone = none →
    ∀ j timeout, x.ptu.Ready j → x.ptu.Attempts j info timeout
  /-- What is established can be disconnected. -/
  disconnects : ∀ conn, x.alone = some conn → conn.state = .established → ∀ j timeout,
    x.ptu.Ready j → x.ptu.Accepts j info timeout conn.cid ∧ x.ptu.Disconnects j conn.cid

/-- A failed call leaves its request, until an event of the four-tuple, if it timed out. -/
structure Attempt.Sound (info : SockInfo) (x : Attempt ι) : Prop where
  /-- There is the request, while it is pending, or what events alone would have put there. -/
  entry : x.ptu.socks.lookup info = if x.pending then some info.requested else x.alone
  /-- Where the request is pending events alone would have put nothing there. -/
  nothing : x.pending → x.alone = none
  /-- After any error but a time-out no request is pending. -/
  timedOut : ∀ ret, x.ret = some ret → ret ≠ 0 → x.pending → ret = -1
  /-- A later call is attempted if there is no entry. -/
  again : x.alone = none → x.pending = false → ∀ j timeout, x.ptu.Ready j →
    x.ptu.Attempts j info timeout
  /-- While the request is pending it is refused. -/
  refused : x.pending → ∀ j timeout, x.ptu.Ready j → x.ptu.Refuses j info timeout
  /-- What is established can be disconnected. -/
  disconnects : ∀ conn, x.alone = some conn → conn.state = .established → ∀ j timeout,
    x.ptu.Ready j → x.ptu.Accepts j info timeout conn.cid ∧ x.ptu.Disconnects j conn.cid

/-! ### What a step does to an entry -/

variable {s t : PtuState ι} {i j : ι} {info : SockInfo} {w : Wanted}

omit [DecidableEq ι] in
/-- The event thread makes of an entry what its event says. -/
theorem EvtOutcome.lookup (h : EvtOutcome s t) (info : SockInfo) :
    t.socks.lookup info = (s.evt.entry info).getD (s.socks.lookup info) := by
  cases h with
  | ended k evt n hevt => rw [hevt]; rfl
  | logged k evt e rest n hevt he =>
    rw [hevt]
    simp only [EvtPoint.entry, he, ite_self, Option.getD_none]
  | established k evt e rest n hevt he hlock =>
    refine (lookup_establish s k evt info).trans ?_
    rw [hevt]
    simp only [EvtPoint.entry, he, eq_comm (a := evt.info)]
    split <;> rfl
  | closed k evt e rest n hevt he hlock =>
    refine (lookup_close s k evt info).trans ?_
    rw [hevt]
    simp only [EvtPoint.entry, he, eq_comm (a := evt.info)]
    split <;> rfl
  | released k evt rest n hevt => rw [hevt]; rfl

/-- What `connect` does first. -/
theorem next_connect (hi : s.callers i = .connect w) (hlock : s.mtxSocks = false) :
    next s i = some (if w.info ∈ s.socks then s.goto i (.returned (-3) none)
      else { (s.request w.info).goto i (.connectOpen w) with mtxSocks := true }) := by
  unfold next
  rw [hi]
  dsimp only
  rw [hlock, if_neg Bool.false_ne_true]
  split
  · rfl
  · rfl

/-- `connect` takes the lock first. -/
theorem lock_of_next_connect (hi : s.callers i = .connect w) (h : next s i = some t) :
    s.mtxSocks = false := by
  unfold next at h
  rw [hi] at h
  dsimp only at h
  split at h
  · cases h
  · next hlock => exact eq_false_of_ne_true hlock

omit [DecidableEq ι] in
theorem requests_connect (hj : s.callers j = .connect w) (info : SockInfo) :
    s.requests j info = decide (w.info = info ∧ info ∉ s.socks) := by
  rw [PtuState.requests, hj]

/-- A step of a thread that is not about to request leaves the table. -/
theorem socks_next (h : next s j = some t) (hj : ∀ w, s.callers j ≠ .connect w) :
    t.socks = s.socks := by
  cases next_cases h with
  | accepts t h =>
    obtain ⟨p, accepted, -, rfl⟩ := h.eq
    rfl
  | requested w hw hlock hnew => exact absurd hw (hj w)
  | moved p hi hp hnone => rfl
  | opened w p hi hp hnone => rfl
  | found cid hi hfound => rfl
  | aborted cid hi => rfl

/-- Only a request makes an entry. -/
theorem lookup_next (h : next s j = some t) (info : SockInfo) :
    t.socks.lookup info = if s.requests j info then some info.requested else s.socks.lookup info := by
  by_cases hj : ∃ w, s.callers j = .connect w
  · obtain ⟨w, hj⟩ := hj
    rw [next_connect hj (lock_of_next_connect hj h), Option.some.injEq] at h
    rw [requests_connect hj, ← h]
    by_cases hmem : w.info ∈ s.socks
    · have hnot : ¬ (w.info = info ∧ info ∉ s.socks) := fun hnew => hnew.2 (hnew.1 ▸ hmem)
      rw [if_pos hmem, decide_eq_false hnot]
      rfl
    · rw [if_neg hmem]
      refine (lookup_request s info w.info).trans ?_
      by_cases heq : info = w.info
      · rw [if_pos heq, heq, decide_eq_true ⟨rfl, hmem⟩]
        rfl
      · have hnot : ¬ (w.info = info ∧ info ∉ s.socks) := fun hnew => heq hnew.1.symm
        rw [if_neg heq, decide_eq_false hnot]
        rfl
  · have hne : ∀ w, s.callers j ≠ .connect w := fun w hw => hj ⟨w, hw⟩
    have hno : s.requests j info = false := by
      unfold PtuState.requests
      split
      · next w hw => exact absurd hw (hne w)
      · rfl
    rw [socks_next h hne, hno]
    rfl

/-- A step that neither goes on with a call nor with an event leaves the table. -/
theorem socks_ptuStep {a : PtuAct ι} (h : ptuStep s a = some t) (hevt : a ≠ .evt)
    (hnext : ∀ j, a ≠ .next j) : t.socks = s.socks := by
  cases ptuStep_cases h with
  | evt t h => exact absurd rfl hevt
  | next j t h => exact absurd rfl (hnext j)
  | newConn conn => rfl
  | event k factor conn evt hidle hconn hcid hinfo => rfl
  | called a j p listenSocks commands hfree hp hcommands => rfl
  | tick => rfl

/-! ### Where the thread is -/

omit [DecidableEq ι] in
theorem see_of_connecting {p : Point} (h : p.connecting = some w) (info : SockInfo) :
    p.see info = p := by
  cases p <;> first | rfl | cases h

omit [DecidableEq ι] in
theorem not_isFree_of_connecting {p : Point} (h : p.connecting = some w) : p.isFree = false := by
  cases p <;> first | rfl | cases h

omit [DecidableEq ι] in
/-- The event thread leaves a thread in `connect` where it is. -/
theorem EvtOutcome.connecting (h : EvtOutcome s t) (hi : (s.callers i).connecting = some w) :
    t.callers i = s.callers i := by
  cases h with
  | ended k evt n hevt => rfl
  | logged k evt e rest n hevt he => rfl
  | established k evt e rest n hevt he hlock => exact see_of_connecting hi evt.info
  | closed k evt e rest n hevt he hlock => rfl
  | released k evt rest n hevt => rfl

/-- Only its own steps take a thread in `connect` on. -/
theorem callers_of_connecting {a : PtuAct ι} (h : ptuStep s a = some t)
    (hi : (s.callers i).connecting = some w) (hne : a ≠ .next i) : t.callers i = s.callers i := by
  cases ptuStep_cases h with
  | evt t h => exact h.connecting hi
  | next j t h => exact h.others fun heq => hne (heq ▸ rfl)
  | newConn conn => rfl
  | event k factor conn evt hidle hconn hcid hinfo => rfl
  | called a j p listenSocks commands hfree hp hcommands =>
    refine Function.update_of_ne (fun heq => ?_) ..
    rw [← heq, not_isFree_of_connecting hi] at hfree
    cases hfree
  | tick => rfl

omit [DecidableEq ι] in
/-- If there is nothing to wait for and no connection, there is no entry. -/
theorem lookup_of_connectDone {socks : Socks} (hdone : connectDone socks info)
    (hnone : establishedCid socks info = none) : socks.lookup info = none := by
  cases hlookup : socks.lookup info with
  | none => rfl
  | some conn =>
    rw [connectDone, hlookup] at hdone
    rw [establishedCid, hlookup, Option.bind_some] at hnone
    cases hstate : conn.state with
    | synSent => simp [hstate] at hdone
    | established => simp [hstate] at hnone

/-- How `connect` ends when it need not wait. -/
theorem connectFinish_cases (hdone : connectDone s.socks w.info) :
    (∃ cid, s.connectFinish i w = s.goto i (.returned 0 (some cid))) ∨
      (s.connectFinish i w = s.goto i (.returned (-2) none) ∧ s.socks.lookup w.info = none) := by
  unfold PtuState.connectFinish
  split
  · next cid hcid => exact .inl ⟨cid, rfl⟩
  · next hnone => exact .inr ⟨rfl, lookup_of_connectDone hdone hnone⟩

/-- What a step of `connect` comes to. -/
inductive ConnectOutcome (s : PtuState ι) (i : ι) (w : Wanted) (t : PtuState ι) : Prop
  /-- The call goes on; it has made its request. -/
  | goesOn (hi : (t.callers i).connecting = some w) (hw : t.callers i ≠ .connect w)
  /-- There is an entry already. -/
  | refused (hi : s.callers i = .connect w) (hmem : w.info ∈ s.socks)
      (ht : t.callers i = .returned (-3) none)
  /-- The connection is established. -/
  | connected (cid : BitVec 16) (ht : t.callers i = .returned 0 (some cid))
  /-- There is no entry any more. -/
  | missing (ht : t.callers i = .returned (-2) none) (hnone : t.socks.lookup w.info = none)
  /-- The time is over. -/
  | timedOut (ht : t.callers i = .returned (-1) none)

/-- The last look of `connect`. -/
theorem connectOutcome_finish (hdone : connectDone s.socks w.info) (u : PtuState ι) :
    ConnectOutcome u i w (s.connectFinish i w) := by
  rcases connectFinish_cases (i := i) hdone with ⟨cid, heq⟩ | ⟨heq, hnone⟩
  · exact .connected cid (by rw [heq]; exact callers_goto ..)
  · exact .missing (by rw [heq]; exact callers_goto ..) (by rw [heq]; exact hnone)

theorem connect_cases (h : next s i = some t) (hi : (s.callers i).connecting = some w) :
    ConnectOutcome s i w t := by
  cases hp : s.callers i with (rw [hp] at hi; cases hi)
  | connect w =>
    rw [next_connect hp (lock_of_next_connect hp h), Option.some.injEq] at h
    subst h
    split
    · next hmem => exact .refused hp hmem (callers_goto ..)
    · exact .goesOn (congrArg Point.connecting (callers_goto ..)) (by rw [callers_goto]; nofun)
  | connectOpen w =>
    unfold next at h
    rw [hp] at h
    dsimp only at h
    split at h
    · next hdone =>
      cases h
      refine connectOutcome_finish ?_ s
      exact hdone
    · cases h
      exact .goesOn (congrArg Point.connecting (callers_goto ..)) (by rw [callers_goto]; nofun)
  | connectWaiting w deadline =>
    unfold next at h
    rw [hp] at h
    simp only [Option.ite_none_left_eq_some] at h
    obtain ⟨-, h⟩ := h
    split at h
    · next hdone =>
      cases h
      exact connectOutcome_finish hdone s
    · split at h
      · cases h
        exact .timedOut (callers_goto ..)
      · cases h

/-! ### Later calls -/

theorem run_next (s : PtuState ι) (j : ι) : run ptuStep s [.next j] = next s j :=
  Option.bind_fun_some _

/-- A call that has come to its first point goes on from there. -/
theorem run_call {a : PtuAct ι} {p : Point} (h : ptuStep s a = some (s.goto j p)) :
    run ptuStep s [a, .next j] = next (s.goto j p) j := by
  rw [run_cons, h, Option.bind_some, run_next]

omit [DecidableEq ι] in
theorem wanted_eq (hinfo : info.laddr = s.ipAddr) (timeout : Option Timeval) :
    s.wanted info.lport info.raddr info.rport timeout = ⟨info, timeout, s.clock, false⟩ := by
  rw [PtuState.wanted, ← hinfo]

/-- `connect` of a thread that can call is attempted or refused. -/
theorem reconnect_eq (hj : s.Ready j) (hinfo : info.laddr = s.ipAddr) (timeout : Option Timeval) :
    s.reconnect j info timeout =
      next (s.goto j (.connect ⟨info, timeout, s.clock, false⟩)) j := by
  rw [← wanted_eq hinfo]
  exact run_call (call_eq_some.mpr ⟨hj.1, rfl⟩)

theorem attempts_of_lookup (hinfo : info.laddr = s.ipAddr) (hnone : s.socks.lookup info = none)
    (hj : s.Ready j) (timeout : Option Timeval) : s.Attempts j info timeout := by
  have hnew : info ∉ s.socks := AList.lookup_eq_none.mp hnone
  have hnext := next_connect (s := s.goto j (.connect ⟨info, timeout, s.clock, false⟩))
    (callers_goto ..) hj.2
  exact ⟨_, (reconnect_eq hj hinfo timeout).trans (hnext.trans (congrArg some (if_neg hnew))),
    callers_goto ..⟩

theorem refuses_of_lookup {conn : PtuTcpConn} (hinfo : info.laddr = s.ipAddr)
    (hsome : s.socks.lookup info = some conn) (hj : s.Ready j) (timeout : Option Timeval) :
    s.Refuses j info timeout := by
  have hmem : info ∈ s.socks := AList.lookup_isSome.mp (by rw [hsome]; rfl)
  have hnext := next_connect (s := s.goto j (.connect ⟨info, timeout, s.clock, false⟩))
    (callers_goto ..) hj.2
  exact ⟨_, (reconnect_eq hj hinfo timeout).trans (hnext.trans (congrArg some (if_pos hmem))),
    callers_goto ..⟩

/-- `accept`, where the connection is established. -/
theorem next_accept {cid : BitVec 16} (hj : s.callers j = .accept w) (hlock : s.mtxSocks = false)
    (hcid : establishedCid s.socks w.info = some cid) : next s j = some (s.acceptReturn j w cid) := by
  unfold next
  rw [hj]
  dsimp only
  rw [hlock, if_neg Bool.false_ne_true, hcid]

theorem accepts_of_lookup {conn : PtuTcpConn} (hinfo : info.laddr = s.ipAddr)
    (hsome : s.socks.lookup info = some conn) (hstate : conn.state = .established) (hj : s.Ready j)
    (timeout : Option Timeval) : s.Accepts j info timeout conn.cid := by
  have hcid : establishedCid s.socks info = some conn.cid :=
    establishedCid_eq_some.mpr ⟨conn, hsome, hstate, rfl⟩
  have hnext := next_accept (s := s.goto j (.accept ⟨info, timeout, s.clock, false⟩))
    (callers_goto ..) hj.2 hcid
  have hcall : ptuStep s (.accept j info.lport info.raddr info.rport timeout) =
      some (s.goto j (.accept ⟨info, timeout, s.clock, false⟩)) := by
    rw [← wanted_eq hinfo]
    exact call_eq_some.mpr ⟨hj.1, rfl⟩
  exact ⟨_, (run_call hcall).trans hnext, callers_goto ..⟩

/-- `abort`, where there is an entry with the cid. -/
theorem next_abort {cid : BitVec 32} (hj : s.callers j = .abort cid) (hlock : s.mtxSocks = false)
    (hcid : hasCid s.socks cid) : next s j = some (s.goto j (.aborting cid)) := by
  unfold next
  rw [hj]
  dsimp only
  rw [hlock, if_neg Bool.false_ne_true, if_pos hcid]

theorem next_aborting {cid : BitVec 32} (hj : s.callers j = .aborting cid) :
    next s j = some ((s.tcpAbort (cid.setWidth 16)).goto j (.returned 0 none)) := by
  unfold next
  rw [hj]

theorem disconnects_of_lookup {conn : PtuTcpConn} (hsome : s.socks.lookup info = some conn)
    (hj : s.Ready j) : s.Disconnects j conn.cid := by
  have hcid : hasCid s.socks (conn.cid.setWidth 32) :=
    List.any_eq_true.mpr ⟨⟨info, conn⟩, AList.mem_lookup_iff.mp hsome, decide_eq_true rfl⟩
  have hcall : ptuStep s (.disconnect j (conn.cid.setWidth 32)) =
      some (s.goto j (.abort (conn.cid.setWidth 32))) := call_eq_some.mpr ⟨hj.1, rfl⟩
  have hfound := next_abort (s := s.goto j (.abort (conn.cid.setWidth 32)))
    (callers_goto ..) hj.2 hcid
  have habort := next_aborting (s := (s.goto j (.abort (conn.cid.setWidth 32))).goto j
    (.aborting (conn.cid.setWidth 32))) (callers_goto ..)
  have hback : (conn.cid.setWidth 32).setWidth 16 = conn.cid :=
    (BitVec.setWidth_setWidth_of_le _ (by decide)).trans (BitVec.setWidth_eq _)
  rw [hback] at habort
  have hrun := run_trans ((run_call hcall).trans hfound) ((run_next _ j).trans habort)
  exact ⟨_, hrun, callers_goto .., rfl⟩

/-! ### All steps -/

/-- What is known of a call, whatever happens. -/
structure Attempt.Tracks (i : ι) (w : Wanted) (x : Attempt ι) : Prop where
  /-- The address of the PTU is that of the four-tuple. -/
  laddr : w.info.laddr = x.ptu.ipAddr
  /-- There is the request, while it is pending, or what there would be without the call. -/
  entry : x.ptu.socks.lookup w.info = if x.pending then some w.info.requested else x.alone
  /-- Where the request is pending there would be nothing. -/
  nothing : x.pending → x.alone = none
  /-- The thread is in the call until it returns. -/
  during : x.ret = none → (x.ptu.callers i).connecting = some w
  /-- No request is pending before the call has made its own. -/
  asks : x.ret = none → x.ptu.callers i = .connect w → x.pending = false
  /-- If the request is pending after an error, the call timed out. -/
  timedOut : ∀ ret, x.ret = some ret → ret ≠ 0 → x.pending → ret = -1

variable {x y : Attempt ι} {a : PtuAct ι}

/-- No step changes the address of the PTU. -/
theorem ipAddr_ptuStep (h : ptuStep s a = some t) : t.ipAddr = s.ipAddr := by
  cases ptuStep_cases h with
  | evt t h => cases h <;> rfl
  | next j t h =>
    cases h with
    | accepts t h =>
      obtain ⟨p, accepted, -, rfl⟩ := h.eq
      rfl
    | moved p hi hp hnone => rfl
    | requested w hi hlock hnew => rfl
    | opened w p hi hp hnone => rfl
    | found cid hi hfound => rfl
    | aborted cid hi => rfl
  | newConn conn => rfl
  | event k factor conn evt hidle hconn hcid hinfo => rfl
  | called a j p listenSocks commands hfree hp hcommands => rfl
  | tick => rfl

theorem Attempt.Tracks.start (hinfo : w.info.laddr = s.ipAddr) :
    (s.attempt i w).Tracks i w where
  laddr := hinfo
  entry := rfl
  nothing := nofun
  during _ := (congrArg Point.connecting (callers_goto s i (.connect w))).trans rfl
  asks _ _ := rfl
  timedOut := nofun

omit [DecidableEq ι] in
/-- What is requested had no entry. -/
theorem Attempt.Tracks.of_requests (hx : x.Tracks i w) (h : x.ptu.requests j w.info = true) :
    x.pending = false ∧ x.alone = none := by
  have hnone : x.ptu.socks.lookup w.info = none := by
    unfold PtuState.requests at h
    split at h
    · exact AList.lookup_eq_none.mpr (of_decide_eq_true h).2
    · cases h
  have hentry := hx.entry
  rw [hnone] at hentry
  cases hpending : x.pending with
  | true =>
    rw [hpending] at hentry
    cases hentry
  | false =>
    rw [hpending] at hentry
    exact ⟨rfl, hentry.symm⟩

/-- A step of the event thread. -/
theorem Attempt.Tracks.event (hx : x.Tracks i w) (h : evtStep x.ptu = some t) :
    { x.event w.info with ptu := t }.Tracks i w := by
  have hout := evtStep_cases h
  have hlookup := hout.lookup w.info
  have hpoint : x.ret = none → t.callers i = x.ptu.callers i := fun hret =>
    hout.connecting (hx.during hret)
  have hduring : x.ret = none → (t.callers i).connecting = some w := fun hret => by
    rw [hpoint hret]
    exact hx.during hret
  have hladdr : w.info.laddr = t.ipAddr :=
    hx.laddr.trans (ipAddr_ptuStep (a := .evt) h).symm
  unfold Attempt.event
  cases hentry : x.ptu.evt.entry w.info with
  | none =>
    rw [hentry] at hlookup
    exact ⟨hladdr, hlookup.trans hx.entry, hx.nothing, hduring,
      fun hret hask => hx.asks hret ((hpoint hret).symm.trans hask), hx.timedOut⟩
  | some e =>
    rw [hentry] at hlookup
    exact ⟨hladdr, hlookup, nofun, hduring, fun _ _ => rfl, nofun⟩

/-- What an entry is after thread `j` went on, by whether it requested the four-tuple. -/
theorem Attempt.Tracks.entry_next (hx : x.Tracks i w) (h : next x.ptu j = some t) :
    (x.ptu.requests j w.info = true ∧ x.pending = false ∧ x.alone = none ∧
      t.socks.lookup w.info = some w.info.requested) ∨
    (x.ptu.requests j w.info = false ∧
      t.socks.lookup w.info = if x.pending then some w.info.requested else x.alone) := by
  have hlookup := lookup_next h w.info
  cases hreq : x.ptu.requests j w.info with
  | true =>
    obtain ⟨hpending, halone⟩ := hx.of_requests hreq
    rw [hreq] at hlookup
    exact .inl ⟨rfl, hpending, halone, hlookup⟩
  | false =>
    rw [hreq] at hlookup
    exact .inr ⟨rfl, hlookup.trans hx.entry⟩

/-- A step of another call. -/
theorem Attempt.Tracks.other (hx : x.Tracks i w) (h : next x.ptu j = some t)
    (hown : (decide (j = i) && x.ret.isNone) = false) :
    { x.advance i w.info j t with ptu := t }.Tracks i w := by
  have hladdr : w.info.laddr = t.ipAddr := hx.laddr.trans (ipAddr_ptuStep (a := .next j) h).symm
  have hpoint : x.ret = none → t.callers i = x.ptu.callers i := fun hret => by
    refine (next_cases h).others fun heq => ?_
    rw [hret, heq, decide_eq_true rfl] at hown
    cases hown
  have hduring : x.ret = none → (t.callers i).connecting = some w := fun hret => by
    rw [hpoint hret]
    exact hx.during hret
  have hasks : x.ret = none → t.callers i = .connect w → x.pending = false := fun hret hask =>
    hx.asks hret ((hpoint hret).symm.trans hask)
  unfold Attempt.advance Attempt.request
  rw [hown]
  rcases hx.entry_next h with ⟨hreq, hpending, halone, hlookup⟩ | ⟨hreq, hlookup⟩
  · have hentry : t.socks.lookup w.info =
        if x.pending then some w.info.requested else some w.info.requested := by
      rw [hlookup, ite_self]
    have hnothing : x.pending → some w.info.requested = none := fun hp => by
      rw [hpending] at hp
      cases hp
    rw [hreq]
    exact ⟨hladdr, hentry, hnothing, hduring, hasks, hx.timedOut⟩
  · rw [hreq]
    exact ⟨hladdr, hlookup, hx.nothing, hduring, hasks, hx.timedOut⟩

omit [DecidableEq ι] in
/-- After a step of the call: a request is pending only while it goes on, and after a time-out. -/
theorem ConnectOutcome.tracks (hout : ConnectOutcome s i w t) (alone : Option PtuTcpConn)
    (pending : Bool) (hladdr : w.info.laddr = t.ipAddr)
    (hentry : t.socks.lookup w.info = if pending then some w.info.requested else alone)
    (hnothing : pending → alone = none)
    (hrefused : s.callers i = .connect w → w.info ∈ s.socks → pending = false) :
    Attempt.Tracks i w ⟨t, alone, pending, (t.callers i).result⟩ := by
  have hreturned : ∀ {ret cid}, t.callers i = .returned ret cid →
      (ret ≠ 0 → pending → ret = -1) →
      Attempt.Tracks i w ⟨t, alone, pending, (t.callers i).result⟩ := by
    intro ret cid ht hfail
    have hresult : (t.callers i).result = some ret := congrArg Point.result ht
    refine ⟨hladdr, hentry, hnothing, fun hnone => ?_, fun hnone => ?_, fun r hr => ?_⟩
    · cases hresult.symm.trans hnone
    · cases hresult.symm.trans hnone
    · cases hresult.symm.trans hr
      exact hfail
  cases hout with
  | goesOn hi hw =>
    have hresult : (t.callers i).result = none := by
      cases hp : t.callers i with (rw [hp] at hi; first | rfl | cases hi)
    refine ⟨hladdr, hentry, hnothing, fun _ => hi, fun _ hask => absurd hask hw, fun r hr => ?_⟩
    cases hresult.symm.trans hr
  | refused hi hmem ht =>
    refine hreturned ht fun _ hpending => ?_
    rw [hrefused hi hmem] at hpending
    cases hpending
  | connected cid ht => exact hreturned ht fun hne _ => absurd rfl hne
  | missing ht hnone =>
    refine hreturned ht fun _ hpending => ?_
    rw [hnone, if_pos hpending] at hentry
    cases hentry
  | timedOut ht => exact hreturned ht fun _ _ => rfl

/-- A step of the call. -/
theorem Attempt.Tracks.own (hx : x.Tracks i w) (h : next x.ptu i = some t) (hret : x.ret = none) :
    { x.advance i w.info i t with ptu := t }.Tracks i w := by
  have hladdr : w.info.laddr = t.ipAddr := hx.laddr.trans (ipAddr_ptuStep (a := .next i) h).symm
  have hown : (decide (i = i) && x.ret.isNone) = true := by
    rw [hret, decide_eq_true rfl]
    rfl
  have hout := connect_cases h (hx.during hret)
  unfold Attempt.advance Attempt.request
  rw [hown]
  rcases hx.entry_next h with ⟨hreq, -, halone, hlookup⟩ | ⟨hreq, hlookup⟩
  · rw [hreq]
    refine hout.tracks x.alone true hladdr hlookup (fun _ => halone) fun hi hmem => ?_
    rw [requests_connect hi] at hreq
    exact absurd hmem (of_decide_eq_true hreq).2
  · rw [hreq]
    exact hout.tracks x.alone x.pending hladdr hlookup hx.nothing fun hi _ => hx.asks hret hi

/-- A step of something else. -/
theorem Attempt.Tracks.rest (hx : x.Tracks i w) (h : ptuStep x.ptu a = some t) (hevt : a ≠ .evt)
    (hnext : ∀ j, a ≠ .next j) : { x with ptu := t }.Tracks i w := by
  have hsocks := socks_ptuStep h hevt hnext
  have hpoint : x.ret = none → t.callers i = x.ptu.callers i := fun hret =>
    callers_of_connecting h (hx.during hret) (hnext i)
  refine ⟨hx.laddr.trans (ipAddr_ptuStep h).symm, ?_, hx.nothing, fun hret => ?_, fun hret hask => ?_,
    hx.timedOut⟩
  · exact (congrArg (AList.lookup w.info) hsocks).trans hx.entry
  · exact (congrArg Point.connecting (hpoint hret)).trans (hx.during hret)
  · exact hx.asks hret ((hpoint hret).symm.trans hask)

theorem Attempt.Tracks.step (hx : x.Tracks i w) (h : attemptStep i w.info x a = some y) :
    y.Tracks i w := by
  obtain ⟨t, ht, rfl⟩ := Option.map_eq_some_iff.mp h
  cases a with
  | evt => exact hx.event ht
  | next j =>
    by_cases hown : j = i ∧ x.ret = none
    · obtain ⟨rfl, hret⟩ := hown
      exact hx.own ht hret
    · refine hx.other ht (Bool.and_eq_false_imp.mpr fun hj => ?_)
      cases hret : x.ret with
      | none => exact absurd ⟨of_decide_eq_true hj, hret⟩ hown
      | some ret => rfl
  | _ => exact hx.rest ht nofun nofun

/-! ### What a failed call leaves -/

theorem Attempt.Tracks.sound (hx : x.Tracks i w) : x.Sound w.info := by
  have hpending : x.pending = false → x.ptu.socks.lookup w.info = x.alone := fun hp => by
    rw [hx.entry, hp]
    rfl
  refine ⟨hx.entry, hx.nothing, hx.timedOut, ?_, ?_, ?_⟩
  · intro halone hp j timeout hj
    exact attempts_of_lookup hx.laddr ((hpending hp).trans halone) hj timeout
  · intro hp j timeout hj
    have hsome : x.ptu.socks.lookup w.info = some w.info.requested := by rw [hx.entry, if_pos hp]
    exact refuses_of_lookup hx.laddr hsome hj timeout
  · intro conn hconn hstate j timeout hj
    have hp : x.pending = false := by
      cases hp : x.pending with
      | false => rfl
      | true => cases hconn.symm.trans (hx.nothing hp)
    have hsome := (hpending hp).trans hconn
    exact ⟨accepts_of_lookup hx.laddr hsome hstate hj timeout, disconnects_of_lookup hsome hj⟩

/-- **A failed connect** leaves what events alone would have put into the table, or, if it timed out,
its request, until an event of the four-tuple. -/
theorem connectFails_sound (s : PtuState ι) (i : ι) (lport : BitVec 16) (raddr : BitVec 32)
    (rport : BitVec 16) (timeout : Option Timeval) (acts : List (PtuAct ι)) :
    Always (attemptStep i ⟨s.ipAddr, lport, raddr, rport⟩)
      (Attempt.Sound ⟨s.ipAddr, lport, raddr, rport⟩)
      (s.attempt i (s.wanted lport raddr rport timeout)) acts := by
  have hstart : (s.attempt i (s.wanted lport raddr rport timeout)).Tracks i
      (s.wanted lport raddr rport timeout) := .start rfl
  exact (always_of_step (fun _ _ _ hx h => hx.step h) hstart acts).mono fun x hx => hx.sound

/-- A call that times out. -/
def timedOutRun : List (PtuAct Unit) := [.next (), .next (), .tick 1000, .next ()]

/-- A call to a peer that does not answer. -/
def unanswered : Attempt Unit :=
  (PtuState.init Unit 0).attempt () ((PtuState.init Unit 0).wanted 80 0x0a000001 4000 (some oneMicro))

/-- A `connect` that times out leaves its request, and a second one is refused. -/
theorem not_connectFails_traceless :
    ((run ptuStep unanswered.ptu
        (timedOutRun ++ [.connect () 80 0x0a000001 4000 (some oneMicro), .next ()])).any
      fun s => s.callers () = .returned (-3) none) = true ∧
      ¬ ∀ (s : PtuState Unit) (lport : BitVec 16) (raddr : BitVec 32) (rport : BitVec 16)
        (timeout : Option Timeval) (acts : List (PtuAct Unit)),
        Always (attemptStep () ⟨s.ipAddr, lport, raddr, rport⟩)
          (Attempt.Traceless ⟨s.ipAddr, lport, raddr, rport⟩)
          (s.attempt () (s.wanted lport raddr rport timeout)) acts := by
  refine ⟨by decide +kernel, fun h => ?_⟩
  have hleft : ((run (attemptStep () ⟨0, 80, 0x0a000001, 4000⟩) unanswered timedOutRun).any fun x =>
      x.ret = some (-1) ∧ x.ptu.socks.lookup ⟨0, 80, 0x0a000001, 4000⟩ ≠ x.alone) = true := by
    decide +kernel
  obtain ⟨x, hx, hfound⟩ := Option.any_eq_true _ _ |>.mp hleft
  obtain ⟨hret, hne⟩ := of_decide_eq_true hfound
  have htraceless := h (PtuState.init Unit 0) 80 0x0a000001 4000 (some oneMicro) timedOutRun
  exact hne ((htraceless.last hx).entry (-1) hret (by decide))

end HardwareDrivers.Libptu
