import HardwareDrivers.Libfpga.Polling
import HardwareDrivers.Theory.Transition
import Mathlib.Data.List.AList

/-!
# The socket table of a PTU

`ptu_dev.cpp`: the table `socks_` from four-tuples to connections, the thread that
reads the events of the PTU, and the calls `listen`, `listen_close`, `accept`,
`connect` and `abort` (`fpga_ptu_disconnect`) by any number of threads. A step of a
thread is what it does between taking and releasing a mutex; where it gives a command
to the device while it holds `mtx_socks_`, the command is a step of its own.

The state also has what the hardware knows (which connections there are, and which of
them has a cid) and, for the statements only, which connection an entry is of, which
connections were established, and which ones `accept` has returned.

## What is proved

* `getTcpEvent_eventQue` — an event is read as the hardware reports it.
* `ptuStep_cases` — what a step of the hardware, of the event thread and of a call can
  come to.
* `Locked.step` — at most one thread holds the mutex of the table.
-/

namespace HardwareDrivers.Libptu

open Theory Libfpga

/-! ### The types -/

/-- `struct sock_info`, the key of the socket table. -/
structure SockInfo where
  /-- The local address. -/
  laddr : BitVec 32
  /-- The local port. -/
  lport : BitVec 16
  /-- The remote address. -/
  raddr : BitVec 32
  /-- The remote port. -/
  rport : BitVec 16
  deriving DecidableEq

/-- `enum class tcp_st`. -/
inductive TcpSt where
  /-- A connection was requested. -/
  | synSent
  /-- The connection is established. -/
  | established
  deriving DecidableEq

/-- `struct ptu_tcp_conn`. -/
structure PtuTcpConn where
  /-- The connection id. -/
  cid : BitVec 16
  /-- The state. -/
  state : TcpSt
  /-- The four-tuple. -/
  info : SockInfo
  deriving DecidableEq

/-- `struct ptu_tcp_evt`. -/
structure PtuTcpEvt where
  /-- The connection id. -/
  cid : BitVec 16
  /-- The factors that were merged into the event. -/
  factor : BitVec 16
  /-- The local address. -/
  laddr : BitVec 32
  /-- The local port. -/
  lport : BitVec 16
  /-- The remote address. -/
  raddr : BitVec 32
  /-- The remote port. -/
  rport : BitVec 16

/-- `conn.info` in `start_event`. -/
def PtuTcpEvt.info (evt : PtuTcpEvt) : SockInfo := ⟨evt.laddr, evt.lport, evt.raddr, evt.rport⟩

/-- The factors of an event, in the order in which `start_event` asks for them. -/
inductive TcpEve where
  /-- `TCP_EVE_ESTABLISHED` -/
  | established
  /-- `TCP_EVE_CLOSE_WAIT` -/
  | closeWait
  /-- `TCP_EVE_DISCONNECT` -/
  | disconnect
  /-- `TCP_EVE_SYN_TIMEOUT` -/
  | synTimeout
  /-- `TCP_EVE_SYN_ACK_TIMEOUT` -/
  | synAckTimeout
  /-- `TCP_EVE_TIMEOUT` -/
  | timeout
  /-- `TCP_EVE_RECV_DATA` -/
  | recvData
  /-- `TCP_EVE_SEND_DATA` -/
  | sendData
  /-- `TCP_EVE_RECV_URGENT_DATA` -/
  | recvUrgentData
  /-- `TCP_EVE_RECV_RST` -/
  | recvRst
  /-- `TCP_EVE_INVLD_CONNECTION` -/
  | invldConnection
  deriving DecidableEq

namespace TcpEve

/-- The bit of a factor. -/
def bit : TcpEve → BitVec 16
  | established => 0b1
  | closeWait => 0b10
  | disconnect => 0b100
  | synTimeout => 0b1000
  | synAckTimeout => 0b10000
  | timeout => 0b100000
  | recvData => 0b1000000
  | sendData => 0b10000000
  | recvUrgentData => 0b100000000
  | recvRst => 0b1000000000
  | invldConnection => 0b10000000000

/-- All factors. -/
def all : List TcpEve :=
  [established, closeWait, disconnect, synTimeout, synAckTimeout, timeout, recvData, sendData,
    recvUrgentData, recvRst, invldConnection]

/-- The factors of an event. -/
def factors (factor : BitVec 16) : List TcpEve := all.filter fun e => factor &&& e.bit ≠ 0

/-- What `start_event` does for a factor. -/
inductive Effect where
  /-- The connection is put into the table. -/
  | establish
  /-- The connection is erased from the table and released. -/
  | close
  /-- A line in the log. -/
  | log
  deriving DecidableEq

/-- The body of the `if` for the factor. -/
def effect : TcpEve → Effect
  | established => .establish
  | disconnect | synTimeout | synAckTimeout | timeout | recvRst => .close
  | closeWait | recvData | sendData | recvUrgentData | invldConnection => .log

end TcpEve

/-! ### The registers of the event queue -/

/-- The registers `get_tcp_event` reads. -/
structure EventQue where
  /-- `TCP_EVENT_QUE`: the cid and the factors. -/
  que : BitVec 32
  /-- `TCP_EVENT_LOCAL_IP` -/
  localIp : BitVec 32
  /-- `TCP_EVENT_REMOTE_IP` -/
  remoteIp : BitVec 32
  /-- `TCP_EVENT_PORT`: the local and the remote port. -/
  port : BitVec 32

/-- `get_tcp_event` -/
def getTcpEvent (q : EventQue) : Option PtuTcpEvt :=
  let factor := q.que.setWidth 16
  let cid := (q.que >>> 16).setWidth 16
  if q.que = 0xffffffff then none
  else if factor ≠ 0 then
    some ⟨cid, factor, q.localIp, (q.port >>> 16).setWidth 16, q.remoteIp, q.port.setWidth 16⟩
  else none

/-- A connection of the hardware. -/
structure Conn where
  /-- The cid the hardware gave it. -/
  cid : BitVec 16
  /-- Its four-tuple. -/
  info : SockInfo
  deriving DecidableEq

/-- The registers when the hardware reports an event of a connection. -/
def Conn.eventQue (conn : Conn) (factor : BitVec 16) : EventQue where
  que := conn.cid ++ factor
  localIp := conn.info.laddr
  remoteIp := conn.info.raddr
  port := conn.info.lport ++ conn.info.rport

/-- The upper half of a register. -/
theorem setWidth_append_ushiftRight (x y : BitVec 16) :
    ((x ++ y) >>> 16).setWidth 16 = x := by
  refine BitVec.eq_of_getLsbD_eq fun i hi => ?_
  rw [BitVec.getLsbD_setWidth, BitVec.getLsbD_ushiftRight, BitVec.getLsbD_append,
    if_neg (by omega), Nat.add_sub_cancel_left, decide_eq_true hi, Bool.true_and]

/-- The lower half of a register. -/
theorem setWidth_append (x y : BitVec 16) : (x ++ y).setWidth 16 = y := by
  refine BitVec.eq_of_getLsbD_eq fun i hi => ?_
  rw [BitVec.getLsbD_setWidth, BitVec.getLsbD_append, if_pos hi, decide_eq_true hi, Bool.true_and]

/-- An event that is read is the event that the hardware reports. -/
theorem getTcpEvent_eventQue {conn : Conn} {factor : BitVec 16} {evt : PtuTcpEvt}
    (h : getTcpEvent (conn.eventQue factor) = some evt) :
    evt.cid = conn.cid ∧ evt.factor = factor ∧ evt.info = conn.info := by
  have hfactor : (conn.eventQue factor).que.setWidth 16 = factor := setWidth_append ..
  have hcid : ((conn.eventQue factor).que >>> 16).setWidth 16 = conn.cid :=
    setWidth_append_ushiftRight ..
  have hrport : (conn.eventQue factor).port.setWidth 16 = conn.info.rport := setWidth_append ..
  have hlport : ((conn.eventQue factor).port >>> 16).setWidth 16 = conn.info.lport :=
    setWidth_append_ushiftRight ..
  unfold getTcpEvent at h
  split at h
  · cases h
  · rw [hfactor, hcid, hrport, hlport] at h
    dsimp only at h
    split at h
    · cases h
      exact ⟨rfl, rfl, rfl⟩
    · cases h

/-! ### The state -/

/-- What a call of `accept` or `connect` is for. -/
structure Wanted where
  /-- The four-tuple. -/
  info : SockInfo
  /-- `timeout`, as the caller gives it; `NULL` is none. -/
  timeout : Option Timeval
  /-- When the call began. -/
  start : ℕ
  /-- There was an established connection of the four-tuple since `accept` looked first. -/
  seen : Bool
  deriving DecidableEq

/-- `timeout_us`; the sum of the microseconds wraps. -/
def Wanted.timeoutUs (w : Wanted) : BitVec 64 :=
  match w.timeout with
  | none => 0
  | some timeout => BitVec.ofInt 64 (timeout.tvSec * 1000000 + timeout.tvUsec)

/-- When `wait_for` gives up: the time and the timeout are signed numbers of nanoseconds, which wrap. -/
def Wanted.deadline (w : Wanted) (clock : ℕ) : ℤ :=
  (BitVec.ofInt 64 (clock + w.timeoutUs.toInt * 1000)).toInt

/-- A timeout of one microsecond. -/
def oneMicro : Timeval := ⟨0, 1, by decide, by decide⟩

/-- Where a thread is. -/
inductive Point where
  /-- In no call. -/
  | idle
  /-- A call returned, with what it stored in `*cid`. -/
  | returned (ret : ℤ) (cid : Option (BitVec 16))
  /-- In `accept`, about to look for the connection. -/
  | accept (w : Wanted)
  /-- In `accept`, about to look for the port in `listen_socks_`. -/
  | acceptListen (w : Wanted)
  /-- In `accept`, about to wait. -/
  | acceptWait (w : Wanted)
  /-- In `accept`, waiting on `cv_socks_`. -/
  | acceptWaiting (w : Wanted) (deadline : ℤ)
  /-- In `connect`, about to lock `mtx_socks_`. -/
  | connect (w : Wanted)
  /-- In `connect`, holding `mtx_socks_`, about to call `tcp_connect`. -/
  | connectOpen (w : Wanted)
  /-- In `connect`, waiting on `cv_socks_`. -/
  | connectWaiting (w : Wanted) (deadline : ℤ)
  /-- In `abort`, about to look for the cid. -/
  | abort (cid : BitVec 32)
  /-- In `abort`, about to call `tcp_abort`. -/
  | aborting (cid : BitVec 32)
  deriving DecidableEq

/-- The thread may call. -/
def Point.isFree : Point → Bool
  | idle | returned .. => true
  | _ => false

/-- The thread holds `mtx_socks_` until its next step. -/
def Point.holds : Point → Bool
  | connectOpen _ => true
  | _ => false

/-- The thread does not hold `mtx_socks_` and is not about to give a command. -/
def Point.isPlain : Point → Bool
  | connectOpen _ | aborting _ => false
  | _ => true

/-- The call of `accept` the thread is in. -/
def Point.accepting : Point → Option Wanted
  | accept w | acceptListen w | acceptWait w | acceptWaiting w _ => some w
  | _ => none

/-- The call of `accept` whose next look at the table is its last, or before which it waits. -/
def Point.looking : Point → Option Wanted
  | acceptWait w | acceptWaiting w _ => some w
  | _ => none

/-- The call of `accept` the thread is in, after its first look. -/
def Point.waitsFor : Point → Option Wanted
  | acceptListen w | acceptWait w | acceptWaiting w _ => some w
  | _ => none

/-- A connection of `info` is established. -/
def Wanted.see (info : SockInfo) (w : Wanted) : Wanted := { w with seen := w.seen || w.info = info }

/-- A connection of `info` is established. -/
def Point.see (info : SockInfo) : Point → Point
  | acceptListen w => acceptListen (w.see info)
  | acceptWait w => acceptWait (w.see info)
  | acceptWaiting w deadline => acceptWaiting (w.see info) deadline
  | p => p

/-- Where the event thread is. It carries, for the statements, the connection the event is of, and
how often it has released the cid of the event. -/
inductive EvtPoint where
  /-- About to call `get_tcp_event`. -/
  | idle
  /-- About to handle the factors that are left. -/
  | handling (k : ℕ) (evt : PtuTcpEvt) (rest : List TcpEve) (releases : ℕ)
  /-- Holding `mtx_socks_`, about to call `tcp_release`. -/
  | releasing (k : ℕ) (evt : PtuTcpEvt) (rest : List TcpEve) (releases : ℕ)

/-- The event thread holds `mtx_socks_` until its next step. -/
def EvtPoint.holds : EvtPoint → Bool
  | releasing .. => true
  | _ => false

/-- The commands given to the PTU. -/
inductive TcpCommand where
  /-- `TCP_HOST_CMD_LSN_OPEN` -/
  | lsnOpen (lport : BitVec 16)
  /-- `TCP_HOST_CMD_LSN_CLOSE` -/
  | lsnClose (lport : BitVec 16)
  /-- `TCP_HOST_CMD_CNN_OPEN` -/
  | cnnOpen (lport : BitVec 16) (raddr : BitVec 32) (rport : BitVec 16)
  /-- `TCP_HOST_CMD_ABORT` -/
  | abort (cid : BitVec 16)
  /-- `TCP_HOST_CMD_RELEASE` -/
  | release (cid : BitVec 16)
  deriving DecidableEq

/-- `socks_` -/
abbrev Socks := AList fun _ : SockInfo => PtuTcpConn

/-- A PTU, the threads that use it, and the hardware. -/
structure PtuState (ι : Type) where
  /-- `ip_addr_` -/
  ipAddr : BitVec 32
  /-- `listen_socks_` -/
  listenSocks : List (BitVec 16)
  /-- `socks_` -/
  socks : Socks
  /-- Whether a thread holds `mtx_socks_` between two steps. -/
  mtxSocks : Bool
  /-- The event thread. -/
  evt : EvtPoint
  /-- The other threads. -/
  callers : ι → Point
  /-- The steady clock, in nanoseconds. -/
  clock : ℕ
  /-- The commands given, the last one first. -/
  commands : List TcpCommand
  /-- The connections of the hardware, in the order of their creation. -/
  conns : List Conn
  /-- The connection that has a cid, until it is released. -/
  inUse : BitVec 16 → Option ℕ
  /-- The connection whose event made the entry of a four-tuple; of an entry that `connect` made,
  the number of connections there were. -/
  owner : SockInfo → ℕ
  /-- The connections whose establishment was handled. -/
  established : List ℕ
  /-- The connections whose establishment was handled and that were not closed since. -/
  live : List ℕ
  /-- The connections that `accept` returned. -/
  accepted : List ℕ

/-- After `init`. -/
def PtuState.init (ι : Type) (ipAddr : BitVec 32) : PtuState ι where
  ipAddr
  listenSocks := []
  socks := ∅
  mtxSocks := false
  evt := .idle
  callers _ := .idle
  clock := 0
  commands := []
  conns := []
  inUse _ := none
  owner _ := 0
  established := []
  live := []
  accepted := []

variable {ι : Type}

/-- Thread `i` calls, if it is in no call. -/
def PtuState.call (s : PtuState ι) (i : ι) (t : PtuState ι) : Option (PtuState ι) :=
  if (s.callers i).isFree then some t else none

theorem call_eq_some {s t u : PtuState ι} {i : ι} :
    s.call i t = some u ↔ (s.callers i).isFree ∧ t = u := by
  rw [PtuState.call, Option.ite_none_right_eq_some, Option.some.injEq]

/-! ### The event thread -/

/-- The body for `TCP_EVE_ESTABLISHED`. -/
def PtuState.establish (s : PtuState ι) (k : ℕ) (evt : PtuTcpEvt) : PtuState ι :=
  { s with
    socks := s.socks.insert evt.info ⟨evt.cid, .established, evt.info⟩
    callers := fun i => (s.callers i).see evt.info
    owner := Function.update s.owner evt.info k
    established := k :: s.established
    live := k :: s.live }

/-- What the body for a closing factor does to the table. -/
def PtuState.close (s : PtuState ι) (k : ℕ) (evt : PtuTcpEvt) : PtuState ι :=
  { s with
    socks := if evt.info ∈ s.socks then s.socks.erase evt.info else s.socks
    live := s.live.filter (· ≠ k) }

/-- `tcp_release` -/
def PtuState.tcpRelease (s : PtuState ι) (cid : BitVec 16) : PtuState ι :=
  { s with commands := .release cid :: s.commands, inUse := Function.update s.inUse cid none }

/-- The entry that `connect` makes. -/
def PtuState.request (s : PtuState ι) (info : SockInfo) : PtuState ι :=
  { s with
    socks := s.socks.insert info ⟨0, .synSent, info⟩
    owner := Function.update s.owner info s.conns.length }

/-- A step of the event thread in an event. -/
def evtStep (s : PtuState ι) : Option (PtuState ι) :=
  match s.evt with
  | .idle => none
  | .handling _ _ [] _ => some { s with evt := .idle }
  | .handling k evt (e :: rest) n =>
    match e.effect with
    | .log => some { s with evt := .handling k evt rest n }
    | .establish =>
      if s.mtxSocks then none else some { s.establish k evt with evt := .handling k evt rest n }
    | .close =>
      if s.mtxSocks then none
      else some { s.close k evt with mtxSocks := true, evt := .releasing k evt rest n }
  | .releasing k evt rest n =>
    some { s.tcpRelease evt.cid with mtxSocks := false, evt := .handling k evt rest (n + 1) }

/-- What a step of the event thread can come to. -/
inductive EvtOutcome (s : PtuState ι) : PtuState ι → Prop
  /-- The event is handled. -/
  | ended (k : ℕ) (evt : PtuTcpEvt) (n : ℕ) (h : s.evt = .handling k evt [] n) :
      EvtOutcome s { s with evt := .idle }
  /-- A line in the log. -/
  | logged (k : ℕ) (evt : PtuTcpEvt) (e : TcpEve) (rest : List TcpEve) (n : ℕ)
      (h : s.evt = .handling k evt (e :: rest) n) (he : e.effect = .log) :
      EvtOutcome s { s with evt := .handling k evt rest n }
  /-- The connection is put into the table. -/
  | established (k : ℕ) (evt : PtuTcpEvt) (e : TcpEve) (rest : List TcpEve) (n : ℕ)
      (h : s.evt = .handling k evt (e :: rest) n) (he : e.effect = .establish)
      (hlock : s.mtxSocks = false) :
      EvtOutcome s { s.establish k evt with evt := .handling k evt rest n }
  /-- The entry of the four-tuple is erased. -/
  | closed (k : ℕ) (evt : PtuTcpEvt) (e : TcpEve) (rest : List TcpEve) (n : ℕ)
      (h : s.evt = .handling k evt (e :: rest) n) (he : e.effect = .close)
      (hlock : s.mtxSocks = false) :
      EvtOutcome s { s.close k evt with mtxSocks := true, evt := .releasing k evt rest n }
  /-- The cid is released. -/
  | released (k : ℕ) (evt : PtuTcpEvt) (rest : List TcpEve) (n : ℕ)
      (h : s.evt = .releasing k evt rest n) :
      EvtOutcome s
        { s.tcpRelease evt.cid with mtxSocks := false, evt := .handling k evt rest (n + 1) }

theorem evtStep_cases {s t : PtuState ι} (h : evtStep s = some t) : EvtOutcome s t := by
  unfold evtStep at h
  split at h
  case h_1 => cases h
  case h_2 k evt n hevt => cases h; exact .ended k evt n hevt
  case h_3 k evt e rest n hevt =>
    split at h
    case h_1 he => cases h; exact .logged k evt e rest n hevt he
    case h_2 he =>
      split at h
      · cases h
      · next hlock => cases h; exact .established k evt e rest n hevt he (by simpa using hlock)
    case h_3 he =>
      split at h
      · cases h
      · next hlock => cases h; exact .closed k evt e rest n hevt he (by simpa using hlock)
  case h_4 k evt rest n hevt => cases h; exact .released k evt rest n hevt

/-! ### The entries of the table -/

/-- The cid of an established connection. -/
def establishedCid (socks : Socks) (info : SockInfo) : Option (BitVec 16) :=
  (socks.lookup info).bind fun conn => if conn.state = .established then some conn.cid else none

/-- The table after the entry of a four-tuple is erased. -/
theorem lookup_close (s : PtuState ι) (k : ℕ) (evt : PtuTcpEvt) (info : SockInfo) :
    (s.close k evt).socks.lookup info = if info = evt.info then none else s.socks.lookup info := by
  unfold PtuState.close
  dsimp only
  by_cases heq : info = evt.info
  · subst heq
    rw [if_pos rfl]
    split
    · exact AList.lookup_erase _ _
    · next h => exact AList.lookup_eq_none.mpr h
  · rw [if_neg heq]
    split
    · exact AList.lookup_erase_ne heq
    · rfl

theorem lookup_establish (s : PtuState ι) (k : ℕ) (evt : PtuTcpEvt) (info : SockInfo) :
    (s.establish k evt).socks.lookup info =
      if info = evt.info then some ⟨evt.cid, .established, evt.info⟩ else s.socks.lookup info := by
  by_cases heq : info = evt.info
  · subst heq
    rw [if_pos rfl]
    exact AList.lookup_insert _
  · rw [if_neg heq]
    exact AList.lookup_insert_ne heq

theorem lookup_request (s : PtuState ι) (info info' : SockInfo) :
    (s.request info').socks.lookup info =
      if info = info' then some ⟨0, .synSent, info'⟩ else s.socks.lookup info := by
  by_cases heq : info = info'
  · subst heq
    rw [if_pos rfl]
    exact AList.lookup_insert _
  · rw [if_neg heq]
    exact AList.lookup_insert_ne heq

theorem establishedCid_close (s : PtuState ι) (k : ℕ) (evt : PtuTcpEvt) (info : SockInfo) :
    establishedCid (s.close k evt).socks info =
      if info = evt.info then none else establishedCid s.socks info := by
  rw [establishedCid, lookup_close]
  split
  · rfl
  · rfl

theorem establishedCid_establish (s : PtuState ι) (k : ℕ) (evt : PtuTcpEvt) (info : SockInfo) :
    establishedCid (s.establish k evt).socks info =
      if info = evt.info then some evt.cid else establishedCid s.socks info := by
  rw [establishedCid, lookup_establish]
  split
  · rfl
  · rfl

/-- A request is not an established connection. -/
theorem establishedCid_request {s : PtuState ι} {info' : SockInfo} (hnew : info' ∉ s.socks)
    (info : SockInfo) :
    establishedCid (s.request info').socks info = establishedCid s.socks info := by
  rw [establishedCid, lookup_request]
  split
  · next heq =>
    rw [establishedCid, heq, AList.lookup_eq_none.mpr hnew]
    rfl
  · rfl

theorem establishedCid_eq_some {socks : Socks} {info : SockInfo} {cid : BitVec 16} :
    establishedCid socks info = some cid ↔
      ∃ conn, socks.lookup info = some conn ∧ conn.state = .established ∧ conn.cid = cid := by
  rw [establishedCid, Option.bind_eq_some_iff]
  simp only [Option.ite_none_right_eq_some, Option.some.injEq]

/-! ### The mutex of the table -/

/-- A thread holds `mtx_socks_`: the event thread (`none`), or one that calls. -/
def PtuState.Holds (s : PtuState ι) : Option ι → Prop
  | none => s.evt.holds
  | some i => (s.callers i).holds

/-- `mtx_socks_` is what its holder says, and has at most one. -/
structure Locked (s : PtuState ι) : Prop where
  /-- It is held if a thread holds it. -/
  held : ∀ h, s.Holds h → s.mtxSocks = true
  /-- At most one thread holds it. -/
  only : ∀ h h', s.Holds h → s.Holds h' → h = h'

section

variable {s t : PtuState ι}

/-- Nobody takes the mutex. -/
theorem Locked.keep (hs : Locked s) (hmtx : t.mtxSocks = s.mtxSocks)
    (h : ∀ x, t.Holds x → s.Holds x) : Locked t :=
  ⟨fun x hx => hmtx.trans (hs.held x (h x hx)), fun x y hx hy => hs.only x y (h x hx) (h y hy)⟩

/-- A thread takes the mutex. -/
theorem Locked.take (hs : Locked s) (hfree : s.mtxSocks = false) (hmtx : t.mtxSocks = true)
    {x : Option ι} (h : ∀ y, t.Holds y → y = x ∨ s.Holds y) : Locked t := by
  have hx : ∀ y, t.Holds y → y = x := fun y hy =>
    (h y hy).resolve_right fun hy => Bool.false_ne_true (hfree.symm.trans (hs.held y hy))
  exact ⟨fun _ _ => hmtx, fun y z hy hz => (hx y hy).trans (hx z hz).symm⟩

/-- Its holder releases the mutex. -/
theorem Locked.leave (hs : Locked s) {x : Option ι} (hx : s.Holds x)
    (h : ∀ y, t.Holds y → y ≠ x ∧ s.Holds y) : Locked t := by
  have hnone : ∀ y, ¬ t.Holds y := fun y hy => (h y hy).1 (hs.only y x (h y hy).2 hx)
  exact ⟨fun y hy => absurd hy (hnone y), fun y _ hy => absurd hy (hnone y)⟩

@[simp] theorem Point.holds_see (p : Point) (info : SockInfo) : (p.see info).holds = p.holds := by
  cases p <;> rfl

theorem Locked.init (ipAddr : BitVec 32) : Locked (PtuState.init ι ipAddr) :=
  have hnone : ∀ x, ¬ (PtuState.init ι ipAddr).Holds x := fun x hx => by cases x <;> cases hx
  ⟨fun x hx => absurd hx (hnone x), fun x _ hx => absurd hx (hnone x)⟩

theorem Locked.evt (hs : Locked s) (h : EvtOutcome s t) : Locked t := by
  cases h with
  | ended k evt n hevt =>
    refine hs.keep rfl fun x hx => ?_
    cases x with
    | none => cases hx
    | some i => exact hx
  | logged k evt e rest n hevt he =>
    refine hs.keep rfl fun x hx => ?_
    cases x with
    | none => cases hx
    | some i => exact hx
  | established k evt e rest n hevt he hlock =>
    refine hs.keep rfl fun x hx => ?_
    cases x with
    | none => cases hx
    | some i => exact (Point.holds_see (s.callers i) evt.info).symm.trans hx
  | closed k evt e rest n hevt he hlock =>
    refine hs.take (x := none) hlock rfl fun x hx => ?_
    cases x with
    | none => exact .inl rfl
    | some i => exact .inr hx
  | released k evt rest n hevt =>
    refine hs.leave (x := none) (by rw [PtuState.Holds, hevt]; rfl) fun x hx => ?_
    cases x with
    | none => cases hx
    | some i => exact ⟨fun h => (by cases h), hx⟩

end

/-! ### The calls -/

variable [DecidableEq ι]

/-- Thread `i` goes on to `p`. -/
def PtuState.goto (s : PtuState ι) (i : ι) (p : Point) : PtuState ι :=
  { s with callers := Function.update s.callers i p }

@[simp] theorem callers_goto (s : PtuState ι) (i : ι) (p : Point) : (s.goto i p).callers i = p :=
  Function.update_self ..

/-- The predicate that `accept` waits for. -/
def onPort (socks : Socks) (lport : BitVec 16) : Bool :=
  socks.entries.any fun sock => sock.1.lport = lport

/-- There is an established connection of the four-tuple. -/
def PtuState.isLive (s : PtuState ι) (info : SockInfo) : Bool :=
  s.live.any fun k => s.conns[k]?.any (·.info = info)

/-- `accept` returns the connection of the entry. -/
def PtuState.acceptReturn (s : PtuState ι) (i : ι) (w : Wanted) (cid : BitVec 16) : PtuState ι :=
  { s.goto i (.returned 0 (some cid)) with accepted := s.owner w.info :: s.accepted }

/-- The end of `accept`, when there is an entry on the port. -/
def PtuState.acceptFinish (s : PtuState ι) (i : ι) (w : Wanted) : PtuState ι :=
  match establishedCid s.socks w.info with
  | some cid => s.acceptReturn i w cid
  | none => s.goto i (.returned (-2) none)

/-- The predicate that `connect` waits for. -/
def connectDone (socks : Socks) (info : SockInfo) : Bool :=
  match socks.lookup info with
  | none => true
  | some conn => conn.state ≠ .synSent

/-- The end of `connect`, when it need not wait. -/
def PtuState.connectFinish (s : PtuState ι) (i : ι) (w : Wanted) : PtuState ι :=
  match establishedCid s.socks w.info with
  | some cid => s.goto i (.returned 0 (some cid))
  | none => s.goto i (.returned (-2) none)

/-- There is an entry with the cid. -/
def hasCid (socks : Socks) (cid : BitVec 32) : Bool :=
  socks.entries.any fun sock => sock.2.cid.setWidth 32 = cid

/-- `tcp_connect` -/
def PtuState.tcpConnect (s : PtuState ι) (info : SockInfo) : PtuState ι :=
  { s with commands := .cnnOpen info.lport info.raddr info.rport :: s.commands }

/-- `tcp_abort` -/
def PtuState.tcpAbort (s : PtuState ι) (cid : BitVec 16) : PtuState ι :=
  { s with commands := .abort cid :: s.commands }

/-- The next step of the call of thread `i`. -/
def next (s : PtuState ι) (i : ι) : Option (PtuState ι) :=
  match s.callers i with
  | .idle | .returned .. => none
  | .accept w =>
    if s.mtxSocks then none
    else
      match establishedCid s.socks w.info with
      | some cid => some (s.acceptReturn i w cid)
      | none => some (s.goto i (.acceptListen { w with seen := s.isLive w.info }))
  | .acceptListen w =>
    some (s.goto i (if w.info.lport ∈ s.listenSocks then .acceptWait w else .returned (-3) none))
  | .acceptWait w =>
    if s.mtxSocks then none
    else if onPort s.socks w.info.lport then some (s.acceptFinish i w)
    else some (s.goto i (.acceptWaiting w (w.deadline s.clock)))
  | .acceptWaiting w deadline =>
    if s.mtxSocks then none
    else if onPort s.socks w.info.lport then some (s.acceptFinish i w)
    -- `wait_for` comes back without the predicate only at the deadline; `wait` never does.
    else if w.timeoutUs ≠ 0 ∧ deadline ≤ s.clock then some (s.goto i (.returned (-1) none))
    else none
  | .connect w =>
    if s.mtxSocks then none
    else if w.info ∈ s.socks then some (s.goto i (.returned (-3) none))
    else some { (s.request w.info).goto i (.connectOpen w) with mtxSocks := true }
  | .connectOpen w =>
    let s := { s.tcpConnect w.info with mtxSocks := false }
    if connectDone s.socks w.info then some (s.connectFinish i w)
    else some (s.goto i (.connectWaiting w (w.deadline s.clock)))
  | .connectWaiting w deadline =>
    if s.mtxSocks then none
    else if connectDone s.socks w.info then some (s.connectFinish i w)
    else if w.timeoutUs ≠ 0 ∧ deadline ≤ s.clock then some (s.goto i (.returned (-1) none))
    else none
  | .abort cid =>
    if s.mtxSocks then none
    else if hasCid s.socks cid then some (s.goto i (.aborting cid))
    else some (s.goto i (.returned (-1) none))
  | .aborting cid => some ((s.tcpAbort (cid.setWidth 16)).goto i (.returned 0 none))

/-- What a step of `accept` can come to. -/
inductive AcceptOutcome (s : PtuState ι) (i : ι) : PtuState ι → Prop
  /-- The connection is established. -/
  | found (w : Wanted) (cid : BitVec 16) (hw : (s.callers i).accepting = some w)
      (h : establishedCid s.socks w.info = some cid) : AcceptOutcome s i (s.acceptReturn i w cid)
  /-- At the first look the connection is not established. -/
  | missing (w : Wanted) (hi : s.callers i = .accept w)
      (h : establishedCid s.socks w.info = none) :
      AcceptOutcome s i (s.goto i (.acceptListen { w with seen := s.isLive w.info }))
  /-- The port is listened on. -/
  | listened (w : Wanted) (hi : s.callers i = .acceptListen w) :
      AcceptOutcome s i (s.goto i (.acceptWait w))
  /-- The port is not listened on. -/
  | notListened (w : Wanted) (hi : s.callers i = .acceptListen w) :
      AcceptOutcome s i (s.goto i (.returned (-3) none))
  /-- There is no entry on the port. -/
  | waits (w : Wanted) (hi : s.callers i = .acceptWait w)
      (hport : onPort s.socks w.info.lport = false) :
      AcceptOutcome s i (s.goto i (.acceptWaiting w (w.deadline s.clock)))
  /-- There is an entry on the port, and the connection is not established. -/
  | unexpected (w : Wanted) (hw : (s.callers i).looking = some w)
      (hport : onPort s.socks w.info.lport) (h : establishedCid s.socks w.info = none) :
      AcceptOutcome s i (s.goto i (.returned (-2) none))
  /-- There is no entry on the port at the deadline. -/
  | timedOut (w : Wanted) (deadline : ℤ) (hi : s.callers i = .acceptWaiting w deadline)
      (hport : onPort s.socks w.info.lport = false) (htimeout : w.timeoutUs ≠ 0)
      (hdeadline : deadline ≤ s.clock) : AcceptOutcome s i (s.goto i (.returned (-1) none))

/-- What a step of a call can come to. -/
inductive NextOutcome (s : PtuState ι) (i : ι) : PtuState ι → Prop
  /-- A step of `accept`. -/
  | accepts (t : PtuState ι) (h : AcceptOutcome s i t) : NextOutcome s i t
  /-- The table and the hardware are left as they are. -/
  | moved (p : Point) (hi : (s.callers i).accepting = none) (hp : p.isPlain)
      (hnone : p.accepting = none) : NextOutcome s i (s.goto i p)
  /-- `connect` makes an entry. -/
  | requested (w : Wanted) (hi : s.callers i = .connect w) (hlock : s.mtxSocks = false)
      (hnew : w.info ∉ s.socks) :
      NextOutcome s i { (s.request w.info).goto i (.connectOpen w) with mtxSocks := true }
  /-- `connect` gives its command. -/
  | opened (w : Wanted) (p : Point) (hi : s.callers i = .connectOpen w) (hp : p.isPlain)
      (hnone : p.accepting = none) :
      NextOutcome s i { (s.tcpConnect w.info).goto i p with mtxSocks := false }
  /-- `abort` finds the cid. -/
  | found (cid : BitVec 32) (hi : s.callers i = .abort cid) (hfound : hasCid s.socks cid) :
      NextOutcome s i (s.goto i (.aborting cid))
  /-- `abort` gives its command. -/
  | aborted (cid : BitVec 32) (hi : s.callers i = .aborting cid) :
      NextOutcome s i ((s.tcpAbort (cid.setWidth 16)).goto i (.returned 0 none))

/-- A step of `accept` leaves the table and the hardware as they are. -/
theorem AcceptOutcome.eq {s t : PtuState ι} {i : ι} (h : AcceptOutcome s i t) :
    ∃ p accepted, p.isPlain ∧ t = { s.goto i p with accepted } := by
  cases h with
  | found w cid hw h => exact ⟨.returned 0 (some cid), _, rfl, rfl⟩
  | missing w hi h => exact ⟨.acceptListen _, s.accepted, rfl, rfl⟩
  | listened w hi => exact ⟨.acceptWait w, s.accepted, rfl, rfl⟩
  | notListened w hi => exact ⟨.returned (-3) none, s.accepted, rfl, rfl⟩
  | waits w hi hport => exact ⟨.acceptWaiting w _, s.accepted, rfl, rfl⟩
  | unexpected w hw hport h => exact ⟨.returned (-2) none, s.accepted, rfl, rfl⟩
  | timedOut w deadline hi hport htimeout hdeadline =>
    exact ⟨.returned (-1) none, s.accepted, rfl, rfl⟩

/-- The last look of `accept`. -/
theorem acceptFinish_cases {s : PtuState ι} {i : ι} {w : Wanted}
    (hw : (s.callers i).looking = some w) (hport : onPort s.socks w.info.lport) :
    AcceptOutcome s i (s.acceptFinish i w) := by
  unfold PtuState.acceptFinish
  split
  · next cid hcid =>
    refine .found w cid ?_ hcid
    cases hi : s.callers i with (rw [hi] at hw; cases hw <;> rfl)
  · next hnone => exact .unexpected w hw hport hnone

/-- `connect` ends with a result. -/
theorem connectFinish_eq (s : PtuState ι) (i : ι) (w : Wanted) :
    ∃ ret cid, s.connectFinish i w = s.goto i (.returned ret cid) := by
  unfold PtuState.connectFinish
  split
  · exact ⟨_, _, rfl⟩
  · exact ⟨_, _, rfl⟩

theorem next_cases {s t : PtuState ι} {i : ι} (h : next s i = some t) : NextOutcome s i t := by
  unfold next at h
  cases hi : s.callers i with rw [hi] at h
  | idle => cases h
  | returned ret cid => cases h
  | accept w =>
    simp only [Option.ite_none_left_eq_some] at h
    obtain ⟨-, h⟩ := h
    split at h
    · next cid hcid => cases h; exact .accepts _ (.found w cid (by rw [hi]; rfl) hcid)
    · next hnone => cases h; exact .accepts _ (.missing w hi hnone)
  | acceptListen w =>
    cases h
    split
    · exact .accepts _ (.listened w hi)
    · exact .accepts _ (.notListened w hi)
  | acceptWait w =>
    simp only [Option.ite_none_left_eq_some] at h
    obtain ⟨-, h⟩ := h
    split at h
    · next hport => cases h; exact .accepts _ (acceptFinish_cases (by rw [hi]; rfl) hport)
    · next hport => cases h; exact .accepts _ (.waits w hi (by simpa using hport))
  | acceptWaiting w deadline =>
    simp only [Option.ite_none_left_eq_some] at h
    obtain ⟨-, h⟩ := h
    split at h
    · next hport => cases h; exact .accepts _ (acceptFinish_cases (by rw [hi]; rfl) hport)
    · next hport =>
      split at h
      · next htime =>
        cases h
        exact .accepts _ (.timedOut w deadline hi (by simpa using hport) htime.1 htime.2)
      · cases h
  | connect w =>
    simp only [Option.ite_none_left_eq_some] at h
    obtain ⟨hlock, h⟩ := h
    split at h
    · cases h; exact .moved _ (by rw [hi]; rfl) rfl rfl
    · next hnew => cases h; exact .requested w hi (by simpa using hlock) hnew
  | connectOpen w =>
    dsimp only at h
    split at h
    · obtain ⟨ret, cid, heq⟩ := connectFinish_eq { s.tcpConnect w.info with mtxSocks := false } i w
      rw [heq] at h
      cases h
      exact .opened w (.returned ret cid) hi rfl rfl
    · cases h
      exact .opened w (.connectWaiting w (w.deadline s.clock)) hi rfl rfl
  | connectWaiting w deadline =>
    simp only [Option.ite_none_left_eq_some] at h
    obtain ⟨-, h⟩ := h
    split at h
    · obtain ⟨ret, cid, heq⟩ := connectFinish_eq s i w
      rw [heq] at h
      cases h
      exact .moved _ (by rw [hi]; rfl) rfl rfl
    · split at h
      · cases h; exact .moved _ (by rw [hi]; rfl) rfl rfl
      · cases h
  | abort cid =>
    simp only [Option.ite_none_left_eq_some] at h
    obtain ⟨-, h⟩ := h
    split at h
    · next hfound => cases h; exact .found cid hi hfound
    · cases h; exact .moved _ (by rw [hi]; rfl) rfl rfl
  | aborting cid => cases h; exact .aborted cid hi

/-- A step of one thread leaves the others where they are. -/
theorem NextOutcome.others {s t : PtuState ι} {i j : ι} (h : NextOutcome s i t) (hne : j ≠ i) :
    t.callers j = s.callers j := by
  cases h with
  | accepts t h =>
    obtain ⟨p, accepted, hp, rfl⟩ := h.eq
    exact Function.update_of_ne hne ..
  | moved p hi hp hnone => exact Function.update_of_ne hne ..
  | requested w hi hlock hnew => exact Function.update_of_ne hne ..
  | opened w p hi hp hnone => exact Function.update_of_ne hne ..
  | found cid hi hfound => exact Function.update_of_ne hne ..
  | aborted cid hi => exact Function.update_of_ne hne ..

/-! ### All steps -/

/-- One step. -/
inductive PtuAct (ι : Type) where
  /-- The hardware makes a connection. -/
  | newConn (conn : Conn)
  /-- The event thread reads an event of connection `k`. -/
  | event (k : ℕ) (factor : BitVec 16)
  /-- The event thread goes on with its event. -/
  | evt
  /-- Thread `i` calls `fpga_ptu_listen`. -/
  | listen (i : ι) (lport : BitVec 16)
  /-- Thread `i` calls `fpga_ptu_listen_close`. -/
  | listenClose (i : ι) (lport : BitVec 16)
  /-- Thread `i` calls `fpga_ptu_accept`. -/
  | accept (i : ι) (lport : BitVec 16) (raddr : BitVec 32) (rport : BitVec 16) (timeout : Option Timeval)
  /-- Thread `i` calls `fpga_ptu_connect`. -/
  | connect (i : ι) (lport : BitVec 16) (raddr : BitVec 32) (rport : BitVec 16) (timeout : Option Timeval)
  /-- Thread `i` calls `fpga_ptu_disconnect`. -/
  | disconnect (i : ι) (cid : BitVec 32)
  /-- Thread `i` goes on with its call. -/
  | next (i : ι)
  /-- Time passes. -/
  | tick (ns : ℕ)

/-- What a call for a four-tuple is for. -/
def PtuState.wanted (s : PtuState ι) (lport : BitVec 16) (raddr : BitVec 32) (rport : BitVec 16)
    (timeout : Option Timeval) : Wanted :=
  ⟨⟨s.ipAddr, lport, raddr, rport⟩, timeout, s.clock, false⟩

/-- `listen` -/
def PtuState.listen (s : PtuState ι) (i : ι) (lport : BitVec 16) : PtuState ι :=
  if lport ∈ s.listenSocks then s.goto i (.returned (-1) none)
  else
    { s.goto i (.returned 0 none) with
      listenSocks := lport :: s.listenSocks, commands := .lsnOpen lport :: s.commands }

/-- `listen_close` -/
def PtuState.listenClose (s : PtuState ι) (i : ι) (lport : BitVec 16) : PtuState ι :=
  if lport ∈ s.listenSocks then
    { s.goto i (.returned 0 none) with
      listenSocks := s.listenSocks.filter (· ≠ lport), commands := .lsnClose lport :: s.commands }
  else s.goto i (.returned (-1) none)

/-- One step, if it can be taken. -/
def ptuStep (s : PtuState ι) : PtuAct ι → Option (PtuState ι)
  | .newConn conn =>
    some { s with
      conns := s.conns ++ [conn], inUse := Function.update s.inUse conn.cid (some s.conns.length) }
  | .event k factor =>
    match s.evt, s.conns[k]? with
    | .idle, some conn =>
      (getTcpEvent (conn.eventQue factor)).map fun evt =>
        { s with evt := .handling k evt (TcpEve.factors evt.factor) 0 }
    | _, _ => none
  | .evt => evtStep s
  | .listen i lport => s.call i (s.listen i lport)
  | .listenClose i lport => s.call i (s.listenClose i lport)
  | .accept i lport raddr rport timeout =>
    s.call i (s.goto i (.accept (s.wanted lport raddr rport timeout)))
  | .connect i lport raddr rport timeout =>
    s.call i (s.goto i (.connect (s.wanted lport raddr rport timeout)))
  | .disconnect i cid => s.call i (s.goto i (.abort cid))
  | .next i => next s i
  | .tick ns => some { s with clock := s.clock + ns }

/-- What a call begins with. -/
def Point.Begins (clock : ℕ) : Point → Prop
  | .returned .. | .abort _ => True
  | .accept w | .connect w => w.start = clock
  | _ => False

/-- What a step can come to. -/
inductive StepOutcome (s : PtuState ι) : PtuAct ι → PtuState ι → Prop
  /-- There is a new connection. -/
  | newConn (conn : Conn) : StepOutcome s (.newConn conn) { s with
      conns := s.conns ++ [conn], inUse := Function.update s.inUse conn.cid (some s.conns.length) }
  /-- An event is read. -/
  | event (k : ℕ) (factor : BitVec 16) (conn : Conn) (evt : PtuTcpEvt) (h : s.evt = .idle)
      (hconn : s.conns[k]? = some conn) (hcid : evt.cid = conn.cid) (hinfo : evt.info = conn.info) :
      StepOutcome s (.event k factor) { s with evt := .handling k evt (TcpEve.factors factor) 0 }
  /-- The event thread goes on. -/
  | evt (t : PtuState ι) (h : EvtOutcome s t) : StepOutcome s .evt t
  /-- A call begins. -/
  | called (a : PtuAct ι) (i : ι) (p : Point) (listenSocks : List (BitVec 16))
      (commands : List TcpCommand) (hfree : (s.callers i).isFree) (hp : p.Begins s.clock)
      (hcommands : ∀ cid, commands ≠ .abort cid :: s.commands) :
      StepOutcome s a { s.goto i p with listenSocks, commands }
  /-- A call goes on. -/
  | next (i : ι) (t : PtuState ι) (h : NextOutcome s i t) : StepOutcome s (.next i) t
  /-- Time passes. -/
  | tick (ns : ℕ) : StepOutcome s (.tick ns) { s with clock := s.clock + ns }

theorem ptuStep_cases {s t : PtuState ι} {a : PtuAct ι} (h : ptuStep s a = some t) :
    StepOutcome s a t := by
  have hsame : ∀ cid, s.commands ≠ .abort cid :: s.commands := fun _ => (List.cons_ne_self _ _).symm
  cases a with
  | newConn conn => cases h; exact .newConn conn
  | event k factor =>
    dsimp only [ptuStep] at h
    split at h
    case h_1 conn hevt hconn =>
      obtain ⟨evt, hget, rfl⟩ := Option.map_eq_some_iff.mp h
      obtain ⟨hcid, hfactor, hinfo⟩ := getTcpEvent_eventQue hget
      rw [hfactor]
      exact .event k factor conn evt hevt hconn hcid hinfo
    case h_2 => cases h
  | evt => exact .evt t (evtStep_cases h)
  | listen i lport =>
    obtain ⟨hfree, rfl⟩ := call_eq_some.mp h
    unfold PtuState.listen
    split
    · exact .called _ i (.returned (-1) none) s.listenSocks s.commands hfree trivial hsame
    · exact .called _ i (.returned 0 none) (lport :: s.listenSocks) (.lsnOpen lport :: s.commands)
        hfree trivial fun _ => by simp
  | listenClose i lport =>
    obtain ⟨hfree, rfl⟩ := call_eq_some.mp h
    unfold PtuState.listenClose
    split
    · exact .called _ i (.returned 0 none) (s.listenSocks.filter (· ≠ lport))
        (.lsnClose lport :: s.commands) hfree trivial fun _ => by simp
    · exact .called _ i (.returned (-1) none) s.listenSocks s.commands hfree trivial hsame
  | accept i lport raddr rport timeout =>
    obtain ⟨hfree, rfl⟩ := call_eq_some.mp h
    exact .called _ i (.accept (s.wanted lport raddr rport timeout)) s.listenSocks s.commands
      hfree rfl hsame
  | connect i lport raddr rport timeout =>
    obtain ⟨hfree, rfl⟩ := call_eq_some.mp h
    exact .called _ i (.connect (s.wanted lport raddr rport timeout)) s.listenSocks s.commands
      hfree rfl hsame
  | disconnect i cid =>
    obtain ⟨hfree, rfl⟩ := call_eq_some.mp h
    exact .called _ i (.abort cid) s.listenSocks s.commands hfree trivial hsame
  | next i => exact .next i t (next_cases h)
  | tick ns => cases h; exact .tick ns

/-! ### The mutex in all steps -/

variable {s t : PtuState ι}

theorem Point.holds_of_isPlain {p : Point} (h : p.isPlain) : p.holds = false := by
  cases p <;> first | rfl | cases h

theorem Point.Begins.isPlain {p : Point} {clock : ℕ} (h : p.Begins clock) : p.isPlain := by
  cases p <;> first | rfl | cases h

/-- A thread that goes on takes no mutex. -/
theorem holds_goto {i : ι} {p : Point} (hp : p.isPlain) (x : Option ι)
    (hx : (s.goto i p).Holds x) : x ≠ some i ∧ s.Holds x := by
  cases x with
  | none => exact ⟨fun h => (by cases h), hx⟩
  | some j =>
    change (Function.update s.callers i p j).holds = true at hx
    rcases update_cases (fun p : Point => p.holds = true) hx with ⟨-, hpx⟩ | ⟨hne, hsx⟩
    · rw [Point.holds_of_isPlain hp] at hpx; cases hpx
    · exact ⟨fun heq => hne (Option.some.inj heq), hsx⟩

theorem Locked.next {i : ι} (hs : Locked s) (h : NextOutcome s i t) : Locked t := by
  cases h with
  | accepts t h =>
    obtain ⟨p, accepted, hp, rfl⟩ := h.eq
    exact hs.keep rfl fun x hx => (holds_goto hp x hx).2
  | moved p hi hp hnone => exact hs.keep rfl fun x hx => (holds_goto hp x hx).2
  | requested w hi hlock hnew =>
    refine hs.take (x := some i) hlock rfl fun x hx => ?_
    cases x with
    | none => exact .inr hx
    | some j =>
      rcases update_cases (fun p : Point => p.holds = true) hx with ⟨rfl, -⟩ | ⟨-, hx⟩
      · exact .inl rfl
      · exact .inr hx
  | opened w p hi hp hnone =>
    exact hs.leave (x := some i) (by rw [PtuState.Holds, hi]; rfl) fun x hx => holds_goto hp x hx
  | found cid hi hfound =>
    refine hs.keep rfl fun x hx => ?_
    cases x with
    | none => exact hx
    | some j =>
      rcases update_cases (fun p : Point => p.holds = true) hx with ⟨-, hx⟩ | ⟨-, hx⟩
      · cases hx
      · exact hx
  | aborted cid hi => exact hs.keep rfl fun x hx => (holds_goto rfl x hx).2

/-- In every run at most one thread holds the mutex of the table. -/
theorem Locked.step {a : PtuAct ι} (hs : Locked s) (h : ptuStep s a = some t) : Locked t := by
  cases ptuStep_cases h with
  | newConn conn => exact hs.keep rfl fun x hx => by cases x <;> exact hx
  | event k factor conn evt hevt hconn hcid hinfo =>
    refine hs.keep rfl fun x hx => ?_
    cases x with
    | none => cases hx
    | some i => exact hx
  | evt t h => exact hs.evt h
  | called _ i p listenSocks commands hfree hp hcommands =>
    exact hs.keep rfl fun x hx => (holds_goto hp.isPlain x hx).2
  | next i t h => exact hs.next h
  | tick => exact hs.keep rfl fun x hx => by cases x <;> exact hx

end HardwareDrivers.Libptu
