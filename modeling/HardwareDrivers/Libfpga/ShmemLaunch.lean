import HardwareDrivers.Libfpga.ShmemRequest

/-!
# The start of the controller

`fpga_shmem_controller_init` forks. The child sets a signal handler and then runs
`fpga_shmem_controller_launch`: it binds the port, over and over until it succeeds, and serves one
connection after the other. The parent tries ten times, a second apart, to connect to the port, to
send `SHMEM_CTRL_CMD_INITIALIZE` and to receive the answer. It leaves the loop at the first answer
that is not `0`, whoever sent it, and also after the tenth try; then it starts the thread that gets
the notices, unless it did so before, and returns `0` where that succeeds.

What passes between the two is on the streams of a connection, as in the requests to the controller.
Another process may listen on the port, so may the child of an earlier call. The thread of the
notices keeps its listening descriptor in the same static variable as the controller: a child that
is forked while it is open accepts on it, and does not bind the port before that fails.

## What is proved

* `fpgaShmemSend_complete`, `sendAll_complete` — sends of all bytes put frames on the stream.
* `Launch.Known.round`, `Launch.Known.recv` — what the child answered is what the parent receives.
* `threads_le_one` — in every run the thread is started at most once.
* `Launch.Serves.step` — a child that answered, and neither exits nor is told to quit, serves.
* `controllerInit_sound` — in a run in which a try hears `RES_INIT` from such a child, and the thread can
  be started, a call returns what became of the child.
-/

namespace HardwareDrivers.Libfpga

open Theory

/-! ### The processes -/

/-- `SHMEM_MAX_CHKCNT`. -/
abbrev shmemMaxChkcnt : ℕ := 10

/-- Who listens on the port of the controller. -/
inductive PortOwner where
  /-- The child. -/
  | child
  /-- Any other process. -/
  | other
  deriving DecidableEq

/-- The other end of the connection of a try. -/
inductive TryPeer where
  /-- The child, which did not accept it yet, and what was sent. -/
  | waiting (up : List WireByte)
  /-- The child, which serves it. -/
  | accepted
  /-- The child gave it up, or ended, and this is still to come from it. -/
  | lost (down : List WireByte)
  /-- Any other process. -/
  | other
  deriving DecidableEq

/-- Where the parent is, in `fpga_shmem_controller_init`. -/
inductive LauncherAt where
  /-- In no call. -/
  | idle
  /-- Before `fpga_shmem_get_fd_client`. -/
  | trying (chkcnt : ℕ)
  /-- Before `fpga_shmem_send`. -/
  | connected (chkcnt : ℕ) (peer : TryPeer)
  /-- Before `fpga_shmem_recv`. -/
  | sent (chkcnt : ℕ) (peer : TryPeer)
  /-- After the loop. -/
  | thread
  deriving DecidableEq

/-- Where the child is. -/
inductive ControllerAt where
  /-- There is none. -/
  | none
  /-- At `fpga_shmem_set_signal`. -/
  | signal
  /-- In the loop of `fpga_shmem_controller_launch`. -/
  | serve
  /-- After it. -/
  | leaving
  /-- It ended. -/
  | ended
  deriving DecidableEq

/-- An error of `fpga_shmem_controller_init`. -/
inductive LaunchErr where
  /-- `-FAILURE_FORK`. -/
  | failureFork
  /-- `-FAILURE_ESTABLISH`. -/
  | failureEstablish
  deriving DecidableEq

/-- A call that returned. -/
structure LaunchEnd where
  /-- What it returned. -/
  ret : Except LaunchErr Unit
  /-- Where the child was. -/
  child : ControllerAt
  /-- The child had answered `SHMEM_CTRL_CMD_INITIALIZE` with `RES_INIT`. -/
  answered : Bool

/-- The two processes and the port. -/
structure Launch where
  /-- `fpga_shmem_recv_tid`. -/
  tid : ℕ
  /-- How often the thread was started. -/
  threads : ℕ
  /-- `fd_listen` is that of the thread. -/
  noticeFd : Bool
  /-- Who listens on the port. -/
  listener : Option PortOwner
  /-- The parent. -/
  parent : LauncherAt
  /-- The child of the last call. -/
  child : ControllerAt
  /-- `fd_listen` of the child is the one it was forked with. -/
  inherited : Bool
  /-- The loop of the child, and its connection. -/
  loop : Controller
  /-- A send of the child on the connection of the try did not handle all bytes. -/
  outCut : Bool
  /-- The child answered `SHMEM_CTRL_CMD_INITIALIZE` with `RES_INIT` on the connection of a try. -/
  answered : Bool
  /-- The calls that returned. -/
  log : List LaunchEnd

/-- The other end of the connection of the parent. -/
def LauncherAt.peer : LauncherAt → Option TryPeer
  | .connected _ peer => some peer
  | .sent _ peer => some peer
  | _ => none

/-- The parent with another state of its connection. -/
def LauncherAt.withPeer (peer : TryPeer) : LauncherAt → LauncherAt
  | .connected chkcnt _ => .connected chkcnt peer
  | .sent chkcnt _ => .sent chkcnt peer
  | p => p

/-- The child serves the connection of the try. -/
def Launch.probing (s : Launch) : Bool := s.parent.peer = some .accepted

/-- What is to come from the child on a connection, if it is one with the child. -/
def Launch.down (s : Launch) : TryPeer → Option (List WireByte)
  | .waiting _ => some []
  | .accepted => some s.loop.out
  | .lost down => some down
  | .other => none

/-! ### The parent -/

/-- The command of a try: what is behind `cmd` was never set. -/
def initCommand (junk : ℕ → BitVec 8) : Message :=
  ⟨leBytes 0xfe ++ (List.range (ctrlInfoSize - 4)).map junk, by
    rw [List.length_append, List.length_map, List.length_range]; decide⟩

/-- `*recv_response`, where the memory may be shorter. -/
def responseAt (beyond : ℕ → BitVec 8) (memory : List (BitVec 8)) : BitVec 32 :=
  leWord ((List.range 4).map fun i => memory.getD i (beyond i))

/-- `recv_response && (*recv_response && RES_INIT)`. -/
def passes (beyond : ℕ → BitVec 8) : Option (List (BitVec 8)) → Bool
  | none => false
  | some memory => responseAt beyond memory ≠ 0 && SocketResponse.init.word ≠ 0

/-- The next try, or the end of the loop. -/
def nextTry (chkcnt : ℕ) : LauncherAt :=
  if chkcnt + 1 < shmemMaxChkcnt then .trying (chkcnt + 1) else .thread

/-- The call returns. -/
def Launch.ends (s : Launch) (ret : Except LaunchErr Unit) : Launch :=
  { s with parent := .idle, log := s.log ++ [⟨ret, s.child, s.answered⟩] }

/-- What a call finds when it begins: a child of an earlier call is one of the other processes. -/
def Launch.begin (s : Launch) : Launch :=
  { s with
    listener := s.listener.map fun _ => .other
    child := .none, inherited := s.noticeFd, loop := Controller.start
    outCut := false, answered := false }

/-- `fork`, with which a call begins. -/
def Launch.fork (s : Launch) (ok : Bool) : Launch :=
  if ok then { s.begin with parent := .trying 0, child := .signal }
  else s.begin.ends (.error .failureFork)

/-- `fpga_shmem_get_fd_client`; a connection that succeeds is one with who listens on the port. -/
def Launch.connect (s : Launch) (chkcnt : ℕ) (ok : Bool) : Launch :=
  match ok, s.listener with
  | true, some .child => { s with parent := .connected chkcnt (.waiting []), outCut := false }
  | true, some .other => { s with parent := .connected chkcnt .other, outCut := false }
  | _, _ => { s with parent := nextTry chkcnt }

/-- `fpga_shmem_send`: what it returns is not looked at. -/
def Launch.send (s : Launch) (chkcnt : ℕ) (peer : TryPeer) (m : Message) (env : SendEnv) : Launch :=
  match peer with
  | .waiting up => { s with parent := .sent chkcnt (.waiting (fpgaShmemSend env m up).2) }
  | .accepted =>
    { s with
      parent := .sent chkcnt .accepted
      loop := { s.loop with wire := (fpgaShmemSend env m s.loop.wire).2 } }
  | peer => { s with parent := .sent chkcnt peer }

/-- `close` of the connection. -/
def Launch.close (s : Launch) (parent : LauncherAt) : Launch :=
  { s with parent, loop := { s.loop with closed := s.loop.closed || s.probing } }

/-- `fpga_shmem_recv` of these bytes, the test of the answer, and `close`. -/
def Launch.recv (s : Launch) (chkcnt : ℕ) (env : RecvEnv) (beyond : ℕ → BitVec 8)
    (down : List WireByte) : Launch :=
  if passes beyond (fpgaShmemRecv env none 0 down).2.1 then s.close .thread
  else s.close (nextTry chkcnt)

/-- `pthread_create`, where it is called, and what it leaves in `fpga_shmem_recv_tid`. -/
def Launch.create (s : Launch) (ok : Bool) (tid : ℕ) : Launch :=
  if s.tid = 0 then
    if ok then { s with tid, threads := s.threads + 1 }.ends (.ok ())
    else { s with tid }.ends (.error .failureEstablish)
  else s.ends (.ok ())

/-! ### The child -/

/-- The child closes its connection, or its listening descriptor. -/
def Launch.lose (s : Launch) : Launch :=
  match s.parent.peer with
  | some (.waiting _) => { s with parent := s.parent.withPeer (.lost []) }
  | some .accepted => { s with parent := s.parent.withPeer (.lost s.loop.out) }
  | _ => s

/-- The child closes its listening descriptor: a connection that it did not accept is lost. -/
def Launch.unlisten (s : Launch) : Launch :=
  { (match s.parent.peer with
      | some (.waiting _) => { s with parent := s.parent.withPeer (.lost []) }
      | _ => s) with
    inherited := false
    listener := if s.listener = some .child then none else s.listener }

/-- The child ends. -/
def Launch.exit (s : Launch) : Launch :=
  { s.lose with
    child := .ended, listener := if s.listener = some .child then none else s.listener }

/-- A round of the loop, from the state that it leaves. -/
def Launch.round (s : Launch) (env : RoundEnv) (loop : Controller) : Launch :=
  { s with
    loop
    child := if loop.finished then .leaving else .serve
    outCut := s.outCut || s.probing && !(s.loop.answers env).all fun p => p.1.Complete p.2
    answered := s.answered || s.probing &&
      ((s.loop.produces env).map Prod.fst = some .init &&
        env.response.Complete (wordMessage SocketResponse.init.word)) }

/-! ### Steps -/

/-- What happens. -/
inductive LaunchOp where
  /-- A call begins: whether `fork` succeeds. -/
  | fork (ok : Bool)
  /-- `fpga_shmem_get_fd_client`: whether it succeeds where someone listens. -/
  | connect (ok : Bool)
  /-- `fpga_shmem_send`, with what is behind `cmd`. -/
  | send (junk : ℕ → BitVec 8) (env : SendEnv)
  /-- `fpga_shmem_recv`, with what is in memory behind the answer, and what comes where the other end
  is not the child. -/
  | recv (env : RecvEnv) (beyond : ℕ → BitVec 8) (foreign : List WireByte)
  /-- The end of the call: whether `pthread_create` succeeds, and the number that it stores. -/
  | create (ok : Bool) (tid : ℕ)
  /-- The thread opens its listening descriptor, or closes it. -/
  | notice (noticeFd : Bool)
  /-- Another process begins or ceases to listen on the port. -/
  | other (listens : Bool)
  /-- `fpga_shmem_set_signal` in the child: whether it succeeds. -/
  | signal (ok : Bool)
  /-- `socket`, `bind` and `listen` in the child: whether they succeed where the port is free. -/
  | bind (ok : Bool)
  /-- `accept` in the child: it fails, or gets the connection of the try (`true`) or another. -/
  | accept (own : Option Bool)
  /-- Bytes come on another connection. -/
  | arrive (bytes : List WireByte)
  /-- The connection of the child is lost, and so many bytes to it and to the parent still arrive. -/
  | cut (up down : ℕ)
  /-- A round of the loop in the child. -/
  | round (env : RoundEnv)
  /-- The child ends, by itself or by a signal. -/
  | exit

/-- `recv` returns `0` only where the other end is gone and nothing is left. -/
def LostAt (peer : TryPeer) (env : RecvEnv) (down : List WireByte) : Prop :=
  match peer with
  | .waiting _ => env.header ≠ .lost ∧ env.data ≠ .lost
  | .accepted => env.header ≠ .lost ∧ env.data ≠ .lost
  | _ => (env.header = .lost → down = []) ∧ (env.data = .lost → down.length ≤ env.header.count)

instance (peer : TryPeer) (env : RecvEnv) (down : List WireByte) :
    Decidable (LostAt peer env down) := by
  cases peer <;> exact inferInstanceAs (Decidable (_ ∧ _))

/-- A step of the parent. -/
def launcherStep (s : Launch) : LaunchOp → Option Launch
  | .fork ok => if s.parent = .idle then some (s.fork ok) else none
  | .connect ok =>
    match s.parent with
    | .trying chkcnt => some (s.connect chkcnt ok)
    | _ => none
  | .send junk env =>
    match s.parent with
    | .connected chkcnt peer =>
      if env.Fits (initCommand junk) then some (s.send chkcnt peer (initCommand junk) env) else none
    | _ => none
  | .recv env beyond foreign =>
    match s.parent with
    | .sent chkcnt peer =>
      let down := (s.down peer).getD foreign
      if env.Fits down ∧ LostAt peer env down then some (s.recv chkcnt env beyond down) else none
    | _ => none
  | .create ok tid =>
    if s.parent = .thread ∧ (ok = true → tid ≠ 0) then some (s.create ok tid) else none
  | _ => none

/-- A step of the child. -/
def controllerChildStep (s : Launch) : LaunchOp → Option Launch
  | .signal ok =>
    if s.child = .signal then some (if ok then { s with child := .serve } else s.exit) else none
  | .bind ok =>
    if s.child = .serve ∧ s.loop.fd = false ∧ s.inherited = false ∧ s.listener ≠ some .child then
      some (if ok ∧ s.listener = none then { s with listener := some .child } else s)
    else none
  | .accept own =>
    if s.child = .serve ∧ s.loop.fd = false ∧ (s.inherited = true ∨ s.listener = some .child) then
      match own, s.parent.peer with
      | none, _ => some s.unlisten
      | some true, some (.waiting up) =>
        if s.inherited then none
        else (controllerStep s.loop (.accept true)).map fun loop =>
          { s with parent := s.parent.withPeer .accepted, loop := { loop with wire := up } }
      | some true, _ => none
      | some false, _ =>
        (controllerStep s.loop (.accept true)).map fun loop => { s with loop }
    else none
  | .arrive bytes =>
    if s.child = .serve ∧ s.loop.fd = true ∧ s.loop.closed = false ∧ s.probing = false then
      some { s with loop := { s.loop with wire := s.loop.wire ++ bytes } }
    else none
  | .cut up down =>
    if s.child = .serve then
      (controllerStep s.loop (.cut up)).map fun loop =>
        if s.probing then
          { s with parent := s.parent.withPeer (.lost (s.loop.out.take down)), loop }
        else { s with loop }
    else none
  | .round env =>
    if s.child = .serve ∧ s.loop.AnswersFit env then
      (controllerStep s.loop (.iterate env)).map fun loop => s.round env loop
    else none
  | .exit => if s.child = .signal ∨ s.child = .serve ∨ s.child = .leaving then some s.exit else none
  | _ => none

/-- A step of the thread or of another process. -/
def othersStep (s : Launch) : LaunchOp → Option Launch
  | .notice noticeFd => if 0 < s.threads then some { s with noticeFd } else none
  | .other true => if s.listener = none then some { s with listener := some .other } else none
  | .other false => if s.listener = some .other then some { s with listener := none } else none
  | _ => none

/-- A step of any of them. -/
def launchStep (s : Launch) (op : LaunchOp) : Option Launch :=
  (othersStep s op).or ((launcherStep s op).or (controllerChildStep s op))

/-- Before the first call. -/
def Launch.start : Launch :=
  ⟨0, 0, false, none, .idle, .none, false, Controller.start, false, false, []⟩

/-- A call returns what became of the child. -/
structure Launch.Sound (s : Launch) : Prop where
  /-- Where it returns `0`, the child answered and runs. -/
  success : ∀ e ∈ s.log, e.ret = .ok () → e.child = .serve ∧ e.answered = true
  /-- Where it returns an error, there is no child. -/
  failure : ∀ e ∈ s.log, ∀ err, e.ret = .error err → e.child = .none ∨ e.child = .ended
  /-- The thread is started at most once. -/
  once : s.threads ≤ 1

/-- The answer is a whole `RES_INIT` of the child, none of whose sends on the connection was cut. -/
def Launch.Hears (s : Launch) (env : RecvEnv) (beyond : ℕ → BitVec 8) (peer : TryPeer) : Prop :=
  match s.down peer with
  | none => False
  | some down => s.outCut = false ∧ env.Complete down = true ∧
      ∀ memory ∈ (fpgaShmemRecv env none 0 down).2.1,
        responseAt beyond memory = SocketResponse.init.word

/-- The child answered, and the call goes on. -/
def Launch.Awaited (s : Launch) : Prop := s.parent ≠ .idle ∧ s.answered = true

instance (s : Launch) : Decidable s.Awaited := inferInstanceAs (Decidable (_ ∧ _))

/-- An answer that is not `0` is a whole `RES_INIT` of the child, and the last try gets one; from its
answer until the call returns the child neither exits nor gets a command to quit; and the thread can be
started. -/
def Heard (s : Launch) : LaunchOp → Prop
  | .connect ok =>
    match s.parent with
    | .trying chkcnt => ok = true ∧ s.listener ≠ none ∨ chkcnt + 1 < shmemMaxChkcnt
    | _ => True
  | .recv env beyond foreign =>
    match s.parent with
    | .sent chkcnt peer =>
      if passes beyond (fpgaShmemRecv env none 0 ((s.down peer).getD foreign)).2.1 then
        s.Hears env beyond peer
      else chkcnt + 1 < shmemMaxChkcnt
    | _ => True
  | .round env => s.Awaited → (s.loop.produces env).map Prod.fst ≠ some .quit
  | .exit => ¬ s.Awaited
  | .create ok _ => s.tid = 0 → ok = true
  | _ => True

instance (s : Launch) (env : RecvEnv) (beyond : ℕ → BitVec 8) (peer : TryPeer) :
    Decidable (s.Hears env beyond peer) := by
  unfold Launch.Hears
  split <;> infer_instance

instance (s : Launch) (op : LaunchOp) : Decidable (Heard s op) := by
  unfold Heard
  split
  · split <;> infer_instance
  · split <;> infer_instance
  · infer_instance
  · infer_instance
  · infer_instance
  · infer_instance

variable {s t : Launch}

/-! ### Whole messages -/

/-- **A send that handles all bytes puts a frame on the stream.** -/
theorem fpgaShmemSend_complete {env : SendEnv} {m : Message} (h : env.Complete m = true)
    (wire : List WireByte) : (fpgaShmemSend env m wire).2 = wire ++ m.frame := by
  unfold SendEnv.Complete at h
  rw [Bool.and_eq_true, decide_eq_true_eq] at h
  obtain ⟨hheader, hdata⟩ := h
  have hret : ¬ env.header.ret ≤ 0 := by
    cases hm : env.header with
    | moved n =>
      rw [hm] at hheader
      obtain rfl : n = 4 := hheader
      decide
    | lost => simp [hm, Transfer.count] at hheader
    | failed => simp [hm, Transfer.count] at hheader
  unfold fpgaShmemSend
  dsimp only
  rw [if_neg hret, hheader, List.take_of_length_le (by simp)]
  by_cases hlen : m.len = 0
  · rw [if_pos hlen, m.frame_of_len hlen]
  · rw [if_neg hlen]
    have hcount : env.data.count = m.bytes.length := by
      rw [Bool.or_eq_true, decide_eq_true_eq, decide_eq_true_eq] at hdata
      exact hdata.resolve_left hlen
    dsimp only
    rw [hcount, List.take_of_length_le (by simp), List.append_assoc]
    rfl

/-- **So do several.** -/
theorem sendAll_complete {sends : List (SendEnv × Message)}
    (h : (sends.all fun p => p.1.Complete p.2) = true) (wire : List WireByte) :
    (sendAll sends wire).2 = wire ++ (sends.map Prod.snd).flatMap Message.frame := by
  induction sends generalizing wire with
  | nil => exact (List.append_nil wire).symm
  | cons p sends ih =>
    obtain ⟨env, m⟩ := p
    rw [List.all_cons, Bool.and_eq_true] at h
    have hfirst := fpgaShmemSend_complete h.1 wire
    simp [sendAll, hfirst, ih h.2]

/-- A receive of all bytes gets the first message, or no memory. -/
theorem Aligned.complete {closed : Bool} {wire : List WireByte} {pend : List Message}
    (h : Aligned closed wire pend) {env : RecvEnv} (hfits : env.Fits wire)
    (hcomplete : env.Complete wire = true) :
    ∃ m rest, pend = m :: rest ∧ ∀ memory ∈ (fpgaShmemRecv env none 0 wire).2.1,
      memory = m.bytes := by
  unfold RecvEnv.Complete at hcomplete
  rw [Bool.and_eq_true, decide_eq_true_eq] at hcomplete
  obtain ⟨hheader, hdata⟩ := hcomplete
  have hret : 0 < env.header.ret := by
    obtain ⟨-, hcount⟩ | hret := hfits.1.header_cases (min_le_left ..)
    · rw [hcount] at hheader
      cases hheader
    · exact hret
  have hfour : 4 ≤ wire.length := by
    have hle := hfits.1.count_le
    omega
  obtain ⟨m, rest, w, rfl, rfl, hinitial, -⟩ := h.header hfour
  refine ⟨m, rest, rfl, fun memory hmemory => ?_⟩
  have hlen := env.len_append hheader m.len w
  rw [hlen] at hdata
  rw [fpgaShmemRecv_header hheader hret] at hmemory
  by_cases hz : m.len = 0
  · rw [if_pos hz] at hmemory
    cases hmemory
  · have hcount : env.data.count = m.bytes.length := by
      rw [Bool.or_eq_true, decide_eq_true_eq, decide_eq_true_eq, m.toNat_len] at hdata
      exact hdata.resolve_left hz
    have hmost := hfits.2.count_le
    rw [hlen, m.toNat_len, hcount, hheader, List.length_append, length_headerWire,
      Nat.add_sub_cancel_left] at hmost
    obtain ⟨w', rfl⟩ := List.prefix_of_prefix_length_le (List.prefix_append ..) hinitial
      (by rw [length_payloadWire]; omega)
    rw [if_neg hz, env.buffer_frame hheader hcount] at hmemory
    split_ifs at hmemory
    · cases hmemory
    · exact (Option.some.inj hmemory).symm
    · exact (Option.some.inj hmemory).symm

/-- The first message of a round is its response, as a word. -/
theorem answers_head (c : Controller) (env : RoundEnv) {p : SendEnv × Message}
    (h : (c.answers env).head? = some p) :
    p.1 = env.response ∧ ∃ r : SocketResponse, p.2 = wordMessage r.word ∧
      (r = .init → (c.produces env).map Prod.fst = some .init) := by
  unfold Controller.answers at h
  by_cases herror : (c.receive env.recv).1 = .error
  · rw [herror] at h
    cases h
    exact ⟨rfl, .ng, rfl, nofun⟩
  · cases hproduces : c.produces env with
    | none =>
      rw [hproduces] at h
      cases hret : (c.receive env.recv).1 with
      | ok => simp [hret] at h
      | lost => simp [hret] at h
      | error => exact absurd hret herror
    | some q =>
      obtain ⟨response, data⟩ := q
      have hp : p = (env.response, wordMessage response.word) := by
        rw [hproduces] at h
        cases hret : (c.receive env.recv).1 with
        | ok => simpa [hret] using h.symm
        | lost => simpa [hret] using h.symm
        | error => exact absurd hret herror
      subst hp
      exact ⟨rfl, response, rfl, fun hinit => congrArg some hinit⟩

/-! ### The answer -/

/-- The connection is lost. -/
def TryPeer.gone : TryPeer → Bool
  | .lost _ => true
  | _ => false

/-- What comes are messages, the first of which is a response, and no `RES_INIT` unless there was
an answer. -/
def Opens (closed : Bool) (down : List WireByte) (answered : Bool) : Prop :=
  ∃ msgs, Aligned closed down msgs ∧ ∀ m ∈ msgs.head?,
    ∃ r : SocketResponse, m = wordMessage r.word ∧ (r = .init → answered = true)

/-- What holds of the two processes. -/
structure Launch.Known (s : Launch) : Prop where
  /-- Where a call returned `0`, the child had answered and ran. -/
  success : ∀ e ∈ s.log, e.ret = .ok () → e.child = .serve ∧ e.answered = true
  /-- Where it returned an error, there was no child. -/
  failure : ∀ e ∈ s.log, ∀ err, e.ret = .error err → e.child = .none ∨ e.child = .ended
  /-- What is to come from the child, if none of its sends was cut. -/
  stream : ∀ peer down, s.parent.peer = some peer → s.down peer = some down → s.outCut = false →
    Opens peer.gone down s.answered
  /-- After the loop the child answered. -/
  thread : s.parent = .thread → s.answered = true

/-- A child that answered serves until the call returns. -/
def Launch.Serves (s : Launch) : Prop := s.Awaited → s.child = .serve

theorem opens_nil (closed answered : Bool) : Opens closed [] answered :=
  ⟨[], ⟨List.nil_prefix, fun _ => rfl⟩, nofun⟩

/-- Fewer bytes come. -/
theorem Opens.take {closed answered : Bool} {down : List WireByte} (h : Opens closed down answered)
    (n : ℕ) : Opens true (down.take n) answered := by
  obtain ⟨msgs, haligned, hfirst⟩ := h
  exact ⟨msgs, haligned.take n, hfirst⟩

/-- **A whole `RES_INIT` is one that the child answered.** -/
theorem Opens.answered {closed answered : Bool} {down : List WireByte}
    (h : Opens closed down answered) {env : RecvEnv} (hfits : env.Fits down)
    (hcomplete : env.Complete down = true) {beyond : ℕ → BitVec 8} {memory : List (BitVec 8)}
    (hmemory : memory ∈ (fpgaShmemRecv env none 0 down).2.1)
    (hinit : responseAt beyond memory = SocketResponse.init.word) : answered = true := by
  obtain ⟨msgs, haligned, hfirst⟩ := h
  obtain ⟨m, rest, rfl, hall⟩ := haligned.complete hfits hcomplete
  obtain ⟨r, rfl, hr⟩ := hfirst m rfl
  obtain rfl := hall memory hmemory
  refine hr (SocketResponse.word_inj ?_)
  have hword : responseAt beyond (wordMessage r.word).bytes = r.word := leWord_leBytes r.word
  rw [← hword, hinit]

/-- The child answers, and only adds to what it sent. -/
theorem Opens.round {answered : Bool} {c : Controller} (h : Opens false c.out answered)
    {env : RoundEnv} (hall : ((c.answers env).all fun p => p.1.Complete p.2) = true) :
    Opens false (c.iterate env).out (answered ||
      ((c.produces env).map Prod.fst = some .init &&
        env.response.Complete (wordMessage SocketResponse.init.word))) := by
  obtain ⟨msgs, haligned, hfirst⟩ := h
  have hout : (c.iterate env).out =
      (msgs ++ (c.answers env).map Prod.snd).flatMap Message.frame := by
    rw [iterate_out, sendAll_complete hall, haligned.all rfl, List.flatMap_append]
  refine ⟨msgs ++ (c.answers env).map Prod.snd,
    ⟨hout ▸ List.prefix_refl _, fun _ => hout⟩, fun m hm => ?_⟩
  cases msgs with
  | cons a rest =>
    obtain ⟨r, rfl, hr⟩ := hfirst m hm
    exact ⟨r, rfl, fun h => by rw [hr h, Bool.true_or]⟩
  | nil =>
    rw [List.nil_append, List.head?_map] at hm
    obtain ⟨p, hp, rfl⟩ := Option.mem_map.mp hm
    obtain ⟨henv, r, hr, hproduces⟩ := answers_head c env hp
    refine ⟨r, hr, fun hinit => ?_⟩
    have hcomplete := List.all_eq_true.mp hall p (List.mem_of_head? hp)
    rw [henv, hr, hinit] at hcomplete
    simp [hproduces hinit, hcomplete]

/-! ### Steps -/

@[simp] theorem peer_withPeer (p : LauncherAt) (peer : TryPeer) :
    (p.withPeer peer).peer = p.peer.map fun _ => peer := by
  cases p <;> rfl

theorem withPeer_eq_thread {p : LauncherAt} {peer : TryPeer} (h : p.withPeer peer = .thread) :
    p = .thread := by
  cases p with
  | thread => rfl
  | _ => cases h

theorem peer_nextTry (chkcnt : ℕ) : (nextTry chkcnt).peer = none := by
  unfold nextTry
  split <;> rfl

theorem known_start : Launch.start.Known :=
  ⟨nofun, nofun, nofun, nofun⟩

/-- What neither the streams to the parent nor the calls depend on. -/
theorem Launch.Known.frame (h : s.Known) (noticeFd : Bool) (listener : Option PortOwner)
    (child : ControllerAt) (inherited : Bool) {loop : Controller} (hout : loop.out = s.loop.out) :
    { s with noticeFd, listener, child, inherited, loop }.Known := by
  refine ⟨h.success, h.failure, fun peer down hpeer hdown => ?_, h.thread⟩
  refine h.stream peer down hpeer ?_
  cases peer with
  | accepted => exact (congrArg some hout.symm).trans hdown
  | _ => exact hdown

/-- Another connection of the parent, or none. -/
theorem Launch.Known.moves (h : s.Known) {parent : LauncherAt} {outCut : Bool}
    (hstream : ∀ peer down, parent.peer = some peer → s.down peer = some down → outCut = false →
      Opens peer.gone down s.answered) (hthread : parent = .thread → s.answered = true) :
    { s with parent, outCut }.Known :=
  ⟨h.success, h.failure, hstream, hthread⟩

/-- The same, where it becomes one that is lost or accepted. -/
theorem Launch.Known.withPeer (h : s.Known) {peer : TryPeer}
    (hstream : ∀ down, s.down peer = some down → s.outCut = false →
      Opens peer.gone down s.answered) :
    { s with parent := s.parent.withPeer peer }.Known := by
  refine h.moves (fun q down hpeer => ?_) fun hthread => h.thread (withPeer_eq_thread hthread)
  rw [peer_withPeer] at hpeer
  obtain ⟨-, -, rfl⟩ := Option.map_eq_some_iff.mp hpeer
  exact hstream down

/-- The call returns what became of the child. -/
theorem Launch.Known.ends (h : s.Known) {ret : Except LaunchErr Unit}
    (hok : ret = .ok () → s.child = .serve ∧ s.answered = true)
    (herror : ∀ err, ret = .error err → s.child = .none ∨ s.child = .ended) :
    (s.ends ret).Known := by
  refine ⟨fun e he => ?_, fun e he => ?_, nofun, nofun⟩
  · rcases List.mem_append.mp he with he | he
    · exact h.success e he
    · obtain rfl := List.mem_singleton.mp he
      exact hok
  · rcases List.mem_append.mp he with he | he
    · exact h.failure e he
    · obtain rfl := List.mem_singleton.mp he
      exact herror

/-- Before the fork of a call there is no connection. -/
theorem Launch.Known.fork (h : s.Known) (hidle : s.parent = .idle) (ok : Bool) :
    (s.fork ok).Known := by
  unfold Launch.fork
  cases ok with
  | true => exact ⟨h.success, h.failure, nofun, nofun⟩
  | false =>
    have hbegin : s.begin.Known := by
      refine ⟨h.success, h.failure, fun peer down hpeer => ?_, fun hthread => ?_⟩
      · change s.parent.peer = some peer at hpeer
        rw [hidle] at hpeer
        cases hpeer
      · change s.parent = .thread at hthread
        rw [hidle] at hthread
        cases hthread
    exact hbegin.ends nofun fun _ _ => .inl rfl

theorem Launch.Known.lose (h : s.Known) : s.lose.Known := by
  unfold Launch.lose
  split
  · refine h.withPeer fun down hdown _ => ?_
    cases hdown
    exact opens_nil true s.answered
  · next hpeer =>
    refine h.withPeer fun down hdown hcut => ?_
    cases hdown
    have hopens := (h.stream _ _ hpeer rfl hcut).take s.loop.out.length
    rwa [List.take_length] at hopens
  · exact h

theorem Launch.Known.unlisten (h : s.Known) : s.unlisten.Known := by
  unfold Launch.unlisten
  split
  · refine Launch.Known.frame (h.withPeer fun down hdown _ => ?_) _ _ _ _ rfl
    cases hdown
    exact opens_nil true s.answered
  · exact h.frame _ _ _ _ rfl

theorem Launch.Known.exit (h : s.Known) : s.exit.Known := h.lose.frame _ _ _ _ rfl

/-! ### The steps of the parent -/

theorem Launch.Known.connect (h : s.Known) {chkcnt : ℕ} {ok : Bool}
    (hq : ok = true ∧ s.listener ≠ none ∨ chkcnt + 1 < shmemMaxChkcnt) :
    (s.connect chkcnt ok).Known := by
  have hnext (hlt : chkcnt + 1 < shmemMaxChkcnt) :
      { s with parent := nextTry chkcnt }.Known := by
    unfold nextTry
    rw [if_pos hlt]
    exact h.moves nofun nofun
  unfold Launch.connect
  split
  · refine h.moves (fun peer down hpeer hdown _ => ?_) nofun
    cases hpeer
    cases hdown
    exact opens_nil false s.answered
  · refine h.moves (fun peer down hpeer hdown => ?_) nofun
    cases hpeer
    cases hdown
  · next hchild hother =>
    rcases hq with ⟨rfl, hlistener⟩ | hlt
    · cases hl : s.listener with
      | none => exact absurd hl hlistener
      | some owner =>
        cases owner with
        | child => exact (hchild rfl hl).elim
        | other => exact (hother rfl hl).elim
    · exact hnext hlt

/-- What is sent changes nothing of what comes. -/
theorem Launch.Known.send (h : s.Known) {chkcnt : ℕ} {peer : TryPeer}
    (hparent : s.parent = .connected chkcnt peer) (m : Message) (env : SendEnv) :
    (s.send chkcnt peer m env).Known := by
  have hstream := h.stream
  rw [hparent] at hstream
  unfold Launch.send
  split
  · next up =>
    refine h.moves (fun q down hpeer hdown hcut => ?_) nofun
    cases hpeer
    exact hstream (.waiting up) down rfl hdown hcut
  · have hmoved : { s with parent := .sent chkcnt .accepted }.Known :=
      h.moves (fun q down hpeer hdown hcut => hstream q down hpeer hdown hcut) nofun
    exact hmoved.frame _ _ _ _ rfl
  · refine h.moves (fun q down hpeer hdown hcut => ?_) nofun
    exact hstream q down hpeer hdown hcut

theorem Launch.Known.close (h : s.Known) {parent : LauncherAt} (hpeer : parent.peer = none)
    (hthread : parent = .thread → s.answered = true) : (s.close parent).Known := by
  unfold Launch.close
  refine (h.moves (fun peer down hp => ?_) hthread).frame _ _ _ _ rfl
  rw [hpeer] at hp
  cases hp

/-- **An answer that the parent takes for one is the answer of the child.** -/
theorem Launch.Known.recv (h : s.Known) {chkcnt : ℕ} {peer : TryPeer}
    (hparent : s.parent = .sent chkcnt peer) {env : RecvEnv} {beyond : ℕ → BitVec 8}
    {foreign : List WireByte} (hfits : env.Fits ((s.down peer).getD foreign))
    (hq : Heard s (.recv env beyond foreign)) :
    (s.recv chkcnt env beyond ((s.down peer).getD foreign)).Known := by
  simp only [Heard, hparent] at hq
  unfold Launch.recv
  by_cases hpasses :
      passes beyond (fpgaShmemRecv env none 0 ((s.down peer).getD foreign)).2.1 = true
  · rw [if_pos hpasses] at hq ⊢
    refine h.close rfl fun _ => ?_
    unfold Launch.Hears at hq
    cases hdown : s.down peer with
    | none =>
      rw [hdown] at hq
      exact hq.elim
    | some down =>
      rw [hdown] at hq hfits hpasses
      obtain ⟨hcut, hcomplete, hinit⟩ := hq
      have hopens := h.stream peer down (by rw [hparent]; rfl) hdown hcut
      cases hmemory : (fpgaShmemRecv env none 0 down).2.1 with
      | none =>
        rw [Option.getD_some, hmemory] at hpasses
        cases hpasses
      | some memory => exact hopens.answered hfits hcomplete hmemory (hinit memory hmemory)
  · rw [if_neg hpasses] at hq ⊢
    refine h.close (peer_nextTry chkcnt) fun hthread => ?_
    unfold nextTry at hthread
    rw [if_pos hq] at hthread
    cases hthread

theorem Launch.Known.create (h : s.Known) (hserves : s.Serves) (hthread : s.parent = .thread) {ok : Bool}
    {tid : ℕ} (hq : Heard s (.create ok tid)) : (s.create ok tid).Known := by
  have hanswered := h.thread hthread
  have hserve : s.child = .serve := hserves ⟨by rw [hthread]; nofun, hanswered⟩
  unfold Launch.create
  by_cases hz : s.tid = 0
  · rw [if_pos hz]
    obtain rfl : ok = true := hq hz
    rw [if_pos rfl]
    have hstarted : { s with tid, threads := s.threads + 1 }.Known :=
      ⟨h.success, h.failure, h.stream, h.thread⟩
    exact hstarted.ends (fun _ => ⟨hserve, hanswered⟩) nofun
  · rw [if_neg hz]
    exact h.ends (fun _ => ⟨hserve, hanswered⟩) nofun

/-! ### The steps of the child -/

/-- **What the child answers is what comes.** -/
theorem Launch.Known.round (h : s.Known) {env : RoundEnv} : (s.round env (s.loop.iterate env)).Known := by
  refine ⟨h.success, h.failure, fun peer down hpeer hdown hcut => ?_,
    fun hthread => ?_⟩
  · have hpeer' : s.parent.peer = some peer := hpeer
    cases hp : s.probing with
    | true =>
      have haccepted := of_decide_eq_true hp
      rw [hpeer'] at haccepted
      obtain rfl := Option.some.inj haccepted
      obtain rfl : (s.loop.iterate env).out = down := Option.some.inj hdown
      simp only [Launch.round, hp, Bool.true_and, Bool.or_eq_false_iff, Bool.not_eq_false'] at hcut ⊢
      exact (h.stream _ _ hpeer' rfl hcut.1).round hcut.2
    | false =>
      simp only [Launch.round, hp, Bool.false_and, Bool.or_false] at hcut ⊢
      refine h.stream peer down hpeer' ?_ hcut
      cases peer with
      | accepted =>
        rw [Launch.probing, hpeer'] at hp
        simp at hp
      | _ => exact hdown
  · have hanswered := h.thread hthread
    simp only [Launch.round, hanswered, Bool.true_or]

/-- From a connection that was accepted nothing comes yet. -/
theorem out_accept {c loop : Controller} (h : controllerStep c (.accept true) = some loop) :
    loop.out = [] := by
  simp only [controllerStep, Option.ite_none_left_eq_some, if_true, Option.some.injEq] at h
  obtain ⟨-, rfl⟩ := h
  rfl

/-- With such a connection nothing is to come. -/
theorem Launch.Known.fresh (h : s.Known) {loop : Controller} (hout : loop.out = []) :
    { s with loop }.Known := by
  refine ⟨h.success, h.failure, fun peer down hpeer hdown hcut => ?_, h.thread⟩
  cases peer with
  | accepted =>
    obtain rfl : loop.out = down := Option.some.inj hdown
    rw [hout]
    exact opens_nil false s.answered
  | _ => exact h.stream _ down hpeer hdown hcut

/-- **A step of the child keeps what the parent is to learn.** -/
theorem Launch.Known.childStep (h : s.Known) {op : LaunchOp}
    (ht : controllerChildStep s op = some t) : t.Known := by
  cases op with
  | signal ok =>
    obtain ⟨-, heq⟩ := Option.ite_none_right_eq_some.mp ht
    cases heq
    cases ok with
    | true => exact h.frame _ _ _ _ rfl
    | false => exact h.exit
  | bind ok =>
    obtain ⟨-, heq⟩ := Option.ite_none_right_eq_some.mp ht
    cases heq
    split
    · exact h.frame _ _ _ _ rfl
    · exact h
  | accept own =>
    obtain ⟨-, heq⟩ := Option.ite_none_right_eq_some.mp ht
    split at heq
    · cases heq
      exact h.unlisten
    · obtain ⟨-, heq⟩ := Option.ite_none_left_eq_some.mp heq
      obtain ⟨loop, hloop, rfl⟩ := Option.map_eq_some_iff.mp heq
      have hout := out_accept hloop
      have hpeer : { s with parent := s.parent.withPeer .accepted, loop }.Known :=
        (h.fresh hout).withPeer fun down hdown _ => by
          obtain rfl : loop.out = down := Option.some.inj hdown
          rw [hout]
          exact opens_nil false s.answered
      exact hpeer.frame _ _ _ _ rfl
    · cases heq
    · obtain ⟨loop, hloop, rfl⟩ := Option.map_eq_some_iff.mp heq
      exact h.fresh (out_accept hloop)
  | arrive bytes =>
    obtain ⟨-, heq⟩ := Option.ite_none_right_eq_some.mp ht
    cases heq
    exact h.frame _ _ _ _ rfl
  | cut up down =>
    obtain ⟨-, heq⟩ := Option.ite_none_right_eq_some.mp ht
    obtain ⟨loop, hloop, rfl⟩ := Option.map_eq_some_iff.mp heq
    obtain ⟨-, hcut⟩ := Option.ite_none_right_eq_some.mp hloop
    cases hcut
    split
    · next hprobing =>
      have hpeer := of_decide_eq_true hprobing
      refine (h.withPeer fun bytes hbytes hclean => ?_).frame _ _ _ _ rfl
      cases hbytes
      exact (h.stream _ _ hpeer rfl hclean).take down
    · exact h.frame _ _ _ _ rfl
  | round env =>
    obtain ⟨-, heq⟩ := Option.ite_none_right_eq_some.mp ht
    obtain ⟨loop, hloop, rfl⟩ := Option.map_eq_some_iff.mp heq
    obtain ⟨-, hround⟩ := Option.ite_none_right_eq_some.mp hloop
    cases hround
    exact h.round
  | exit =>
    obtain ⟨-, heq⟩ := Option.ite_none_right_eq_some.mp ht
    cases heq
    exact h.exit
  | _ => cases ht

/-- What a step of the parent is. -/
theorem launcherStep_cases {op : LaunchOp} (ht : launcherStep s op = some t) :
    (∃ ok, op = .fork ok ∧ s.parent = .idle ∧ t = s.fork ok) ∨
    (∃ ok chkcnt, op = .connect ok ∧ s.parent = .trying chkcnt ∧ t = s.connect chkcnt ok) ∨
    (∃ junk env chkcnt peer, op = .send junk env ∧ s.parent = .connected chkcnt peer ∧
      env.Fits (initCommand junk) ∧ t = s.send chkcnt peer (initCommand junk) env) ∨
    (∃ env beyond foreign chkcnt peer, op = .recv env beyond foreign ∧
      s.parent = .sent chkcnt peer ∧ env.Fits ((s.down peer).getD foreign) ∧
      LostAt peer env ((s.down peer).getD foreign) ∧
      t = s.recv chkcnt env beyond ((s.down peer).getD foreign)) ∨
    ∃ ok tid, op = .create ok tid ∧ s.parent = .thread ∧ (ok = true → tid ≠ 0) ∧
      t = s.create ok tid := by
  cases op with
  | fork ok =>
    obtain ⟨hidle, heq⟩ := Option.ite_none_right_eq_some.mp ht
    exact .inl ⟨ok, rfl, hidle, (Option.some.inj heq).symm⟩
  | connect ok =>
    cases hparent : s.parent with
    | trying chkcnt =>
      simp only [launcherStep, hparent] at ht
      exact .inr (.inl ⟨ok, chkcnt, rfl, rfl, (Option.some.inj ht).symm⟩)
    | _ => simp [launcherStep, hparent] at ht
  | send junk env =>
    cases hparent : s.parent with
    | connected chkcnt peer =>
      simp only [launcherStep, hparent] at ht
      obtain ⟨hfits, heq⟩ := Option.ite_none_right_eq_some.mp ht
      exact .inr (.inr (.inl ⟨junk, env, chkcnt, peer, rfl, rfl, hfits, (Option.some.inj heq).symm⟩))
    | _ => simp [launcherStep, hparent] at ht
  | recv env beyond foreign =>
    cases hparent : s.parent with
    | sent chkcnt peer =>
      simp only [launcherStep, hparent] at ht
      obtain ⟨⟨hfits, hlost⟩, heq⟩ := Option.ite_none_right_eq_some.mp ht
      exact .inr (.inr (.inr (.inl ⟨env, beyond, foreign, chkcnt, peer, rfl, rfl, hfits, hlost,
        (Option.some.inj heq).symm⟩)))
    | _ => simp [launcherStep, hparent] at ht
  | create ok tid =>
    obtain ⟨⟨hthread, hnumber⟩, heq⟩ := Option.ite_none_right_eq_some.mp ht
    exact .inr (.inr (.inr (.inr ⟨ok, tid, rfl, hthread, hnumber, (Option.some.inj heq).symm⟩)))
  | _ => cases ht

/-- **A step of the parent that hears the child keeps what it knows.** -/
theorem Launch.Known.parentStep (h : s.Known) (hserves : s.Serves) {op : LaunchOp} (hq : Heard s op)
    (ht : launcherStep s op = some t) : t.Known := by
  obtain ⟨ok, rfl, hidle, rfl⟩ | ⟨ok, chkcnt, rfl, hparent, rfl⟩ |
    ⟨junk, env, chkcnt, peer, rfl, hparent, -, rfl⟩ |
    ⟨env, beyond, foreign, chkcnt, peer, rfl, hparent, hfits, -, rfl⟩ |
    ⟨ok, tid, rfl, hthread, -, rfl⟩ := launcherStep_cases ht
  · exact h.fork hidle ok
  · simp only [Heard, hparent] at hq
    exact h.connect hq
  · exact h.send hparent _ env
  · exact h.recv hparent hfits hq
  · exact h.create hserves hthread hq

/-- Who takes a step. -/
theorem launchStep_cases {op : LaunchOp} (ht : launchStep s op = some t) :
    (∃ noticeFd listener, t = { s with noticeFd, listener }) ∨ launcherStep s op = some t ∨
      controllerChildStep s op = some t := by
  unfold launchStep at ht
  rw [Option.or_eq_some_iff, Option.or_eq_some_iff] at ht
  obtain ht | ⟨-, ht⟩ := ht
  · left
    unfold othersStep at ht
    split at ht
    · next noticeFd =>
      obtain ⟨-, heq⟩ := Option.ite_none_right_eq_some.mp ht
      cases heq
      exact ⟨noticeFd, s.listener, rfl⟩
    · obtain ⟨-, heq⟩ := Option.ite_none_right_eq_some.mp ht
      cases heq
      exact ⟨s.noticeFd, some .other, rfl⟩
    · obtain ⟨-, heq⟩ := Option.ite_none_right_eq_some.mp ht
      cases heq
      exact ⟨s.noticeFd, none, rfl⟩
    · cases ht
  · exact .inr (ht.imp_right And.right)

/-- **What is known of the two processes is kept by every step that hears the child.** -/
theorem Launch.Known.step (h : s.Known) (hserves : s.Serves) {op : LaunchOp} (hq : Heard s op)
    (ht : launchStep s op = some t) : t.Known := by
  obtain ⟨noticeFd, listener, rfl⟩ | ht | ht := launchStep_cases ht
  · exact h.frame _ _ _ _ rfl
  · exact h.parentStep hserves hq ht
  · exact h.childStep ht

/-! ### The child stays -/

theorem serves_start : Launch.start.Serves := fun h => absurd rfl h.1

/-- A step that neither begins a call nor lets the child answer or leave. -/
theorem Launch.Serves.frame (h : s.Serves) (hparent : s.parent = .idle → t.parent = .idle)
    (hanswered : t.answered = s.answered) (hchild : t.child = s.child) : t.Serves :=
  fun ht => hchild.trans (h ⟨fun hidle => ht.1 (hparent hidle), hanswered ▸ ht.2⟩)

theorem withPeer_idle {p : LauncherAt} (peer : TryPeer) (h : p = .idle) : p.withPeer peer = .idle := by
  rw [h]
  rfl

theorem Launch.Serves.lose (h : s.Serves) : s.lose.Serves := by
  unfold Launch.lose
  split
  · exact h.frame (withPeer_idle _) rfl rfl
  · exact h.frame (withPeer_idle _) rfl rfl
  · exact h

theorem Launch.Serves.unlisten (h : s.Serves) : s.unlisten.Serves := by
  unfold Launch.unlisten
  split
  · exact h.frame (withPeer_idle _) rfl rfl
  · exact h.frame id rfl rfl

/-- Nobody waits for a child that exits. -/
theorem serves_exit (h : ¬ s.Awaited) : s.exit.Serves := by
  have hlose : s.lose.parent ≠ .idle ∧ s.lose.answered = true → s.Awaited := by
    unfold Launch.lose
    split
    · exact fun ha => ⟨fun hidle => ha.1 (withPeer_idle _ hidle), ha.2⟩
    · exact fun ha => ⟨fun hidle => ha.1 (withPeer_idle _ hidle), ha.2⟩
    · exact id
  exact fun ha => absurd (hlose ha) h

/-- The loop goes on behind a command that is not one to quit. -/
theorem iterate_finished {c : Controller} (hc : c.finished = false) {env : RoundEnv}
    (hquit : (c.produces env).map Prod.fst ≠ some .quit) : (c.iterate env).finished = false := by
  have hfinished : (c.receive env.recv).2.finished = false := hc
  unfold Controller.produces at hquit
  unfold Controller.iterate
  generalize c.receive env.recv = x at hquit hfinished ⊢
  obtain ⟨ret, u⟩ := x
  dsimp only at hfinished
  cases ret with
  | lost => exact hfinished
  | error => exact hfinished
  | ok =>
    cases hmemory : u.recvCommand with
    | none => simpa only [hmemory] using hfinished
    | some memory =>
      simp only [hmemory, Option.map_some, Controller.execute] at hquit ⊢
      generalize controllerExecute env.exec _ u.sendData = y at hquit ⊢
      obtain ⟨response, sendData⟩ := y
      have hresponse : response ≠ .quit := fun heq => hquit (congrArg some heq)
      dsimp only
      split
      · exact hfinished
      · exact decide_eq_false hresponse

/-- **A child that answers goes on**, and so does one that answered and is not told to quit. -/
theorem Launch.Serves.round {env : RoundEnv} (hfinished : s.loop.finished = false)
    (hq : Heard s (.round env)) : (s.round env (s.loop.iterate env)).Serves := by
  intro ha
  have hquit : (s.loop.produces env).map Prod.fst ≠ some .quit := by
    obtain ⟨hparent, hanswered⟩ := ha
    change (s.answered || s.probing && (decide ((s.loop.produces env).map Prod.fst = some .init) && _)) =
      true at hanswered
    rw [Bool.or_eq_true, Bool.and_eq_true, Bool.and_eq_true, decide_eq_true_eq] at hanswered
    obtain hbefore | ⟨-, hinit, -⟩ := hanswered
    · exact hq ⟨hparent, hbefore⟩
    · rw [hinit]
      nofun
  change (if (s.loop.iterate env).finished then ControllerAt.leaving else .serve) = .serve
  rw [iterate_finished hfinished hquit, if_neg Bool.false_ne_true]

theorem Launch.Serves.childStep (h : s.Serves) {op : LaunchOp} (hq : Heard s op)
    (ht : controllerChildStep s op = some t) : t.Serves := by
  cases op with
  | signal ok =>
    obtain ⟨hsignal, heq⟩ := Option.ite_none_right_eq_some.mp ht
    cases heq
    have hnot : ¬ s.Awaited := fun ha => by
      have hserve := h ha
      rw [hsignal] at hserve
      cases hserve
    cases ok with
    | true => exact fun ha => absurd ha hnot
    | false => exact serves_exit hnot
  | bind ok =>
    obtain ⟨-, heq⟩ := Option.ite_none_right_eq_some.mp ht
    cases heq
    split
    · exact h.frame id rfl rfl
    · exact h
  | accept own =>
    obtain ⟨-, heq⟩ := Option.ite_none_right_eq_some.mp ht
    split at heq
    · cases heq
      exact h.unlisten
    · obtain ⟨-, heq⟩ := Option.ite_none_left_eq_some.mp heq
      obtain ⟨loop, -, rfl⟩ := Option.map_eq_some_iff.mp heq
      exact h.frame (withPeer_idle _) rfl rfl
    · cases heq
    · obtain ⟨loop, -, rfl⟩ := Option.map_eq_some_iff.mp heq
      exact h.frame id rfl rfl
  | arrive bytes =>
    obtain ⟨-, heq⟩ := Option.ite_none_right_eq_some.mp ht
    cases heq
    exact h.frame id rfl rfl
  | cut up down =>
    obtain ⟨-, heq⟩ := Option.ite_none_right_eq_some.mp ht
    obtain ⟨loop, -, rfl⟩ := Option.map_eq_some_iff.mp heq
    split
    · exact h.frame (withPeer_idle _) rfl rfl
    · exact h.frame id rfl rfl
  | round env =>
    obtain ⟨-, heq⟩ := Option.ite_none_right_eq_some.mp ht
    obtain ⟨loop, hloop, rfl⟩ := Option.map_eq_some_iff.mp heq
    obtain ⟨⟨-, hfinished, -⟩, hround⟩ := Option.ite_none_right_eq_some.mp hloop
    cases hround
    exact Launch.Serves.round (Bool.eq_false_iff.mpr hfinished) hq
  | exit =>
    obtain ⟨-, heq⟩ := Option.ite_none_right_eq_some.mp ht
    cases heq
    exact serves_exit hq
  | _ => cases ht

theorem Launch.Serves.parentStep (h : s.Serves) {op : LaunchOp} (ht : launcherStep s op = some t) :
    t.Serves := by
  obtain ⟨ok, rfl, -, rfl⟩ | ⟨ok, chkcnt, rfl, hparent, rfl⟩ |
    ⟨junk, env, chkcnt, peer, rfl, hparent, -, rfl⟩ |
    ⟨env, beyond, foreign, chkcnt, peer, rfl, hparent, -, -, rfl⟩ |
    ⟨ok, tid, rfl, -, -, rfl⟩ := launcherStep_cases ht
  · cases ok with
    | true => exact fun ha => absurd ha.2 Bool.false_ne_true
    | false => exact fun ha => absurd rfl ha.1
  · have hidle : s.parent ≠ .idle := by rw [hparent]; nofun
    unfold Launch.connect
    split <;> exact h.frame (fun h0 => absurd h0 hidle) rfl rfl
  · have hidle : s.parent ≠ .idle := by rw [hparent]; nofun
    unfold Launch.send
    split <;> exact h.frame (fun h0 => absurd h0 hidle) rfl rfl
  · have hidle : s.parent ≠ .idle := by rw [hparent]; nofun
    unfold Launch.recv
    split <;> exact h.frame (fun h0 => absurd h0 hidle) rfl rfl
  · unfold Launch.create
    split_ifs <;> exact fun ha => absurd rfl ha.1

/-- **A child that answered serves until the call returns**, if it neither exits nor is told to quit. -/
theorem Launch.Serves.step (h : s.Serves) {op : LaunchOp} (hq : Heard s op)
    (ht : launchStep s op = some t) : t.Serves := by
  obtain ⟨noticeFd, listener, rfl⟩ | ht | ht := launchStep_cases ht
  · exact h.frame id rfl rfl
  · exact h.parentStep ht
  · exact h.childStep hq ht

/-! ### The thread -/

/-- The thread is started at most once, and then has a number. -/
structure Launch.Started (s : Launch) : Prop where
  /-- It is started at most once. -/
  once : s.threads ≤ 1
  /-- A thread that was started has a number. -/
  fresh : s.tid = 0 → s.threads = 0

theorem started_start : Launch.start.Started := ⟨Nat.zero_le _, fun _ => rfl⟩

/-- The child does not start it. -/
theorem childStep_threads {op : LaunchOp} (ht : controllerChildStep s op = some t) :
    t.threads = s.threads ∧ t.tid = s.tid := by
  have hlose : s.lose.threads = s.threads ∧ s.lose.tid = s.tid := by
    unfold Launch.lose
    split <;> exact ⟨rfl, rfl⟩
  have hunlisten : s.unlisten.threads = s.threads ∧ s.unlisten.tid = s.tid := by
    unfold Launch.unlisten
    split <;> exact ⟨rfl, rfl⟩
  unfold controllerChildStep at ht
  split at ht
  · obtain ⟨-, heq⟩ := Option.ite_none_right_eq_some.mp ht
    cases heq
    split
    · exact ⟨rfl, rfl⟩
    · exact hlose
  · obtain ⟨-, heq⟩ := Option.ite_none_right_eq_some.mp ht
    cases heq
    split <;> exact ⟨rfl, rfl⟩
  · obtain ⟨-, heq⟩ := Option.ite_none_right_eq_some.mp ht
    split at heq
    · cases heq
      exact hunlisten
    · obtain ⟨-, heq⟩ := Option.ite_none_left_eq_some.mp heq
      obtain ⟨loop, -, rfl⟩ := Option.map_eq_some_iff.mp heq
      exact ⟨rfl, rfl⟩
    · cases heq
    · obtain ⟨loop, -, rfl⟩ := Option.map_eq_some_iff.mp heq
      exact ⟨rfl, rfl⟩
  · obtain ⟨-, heq⟩ := Option.ite_none_right_eq_some.mp ht
    cases heq
    exact ⟨rfl, rfl⟩
  · obtain ⟨-, heq⟩ := Option.ite_none_right_eq_some.mp ht
    obtain ⟨loop, -, rfl⟩ := Option.map_eq_some_iff.mp heq
    split <;> exact ⟨rfl, rfl⟩
  · obtain ⟨-, heq⟩ := Option.ite_none_right_eq_some.mp ht
    obtain ⟨loop, -, rfl⟩ := Option.map_eq_some_iff.mp heq
    exact ⟨rfl, rfl⟩
  · obtain ⟨-, heq⟩ := Option.ite_none_right_eq_some.mp ht
    cases heq
    exact hlose
  · cases ht

/-- The parent starts it where there is none yet. -/
theorem Launch.Started.parentStep (h : s.Started) {op : LaunchOp}
    (ht : launcherStep s op = some t) : t.Started := by
  obtain ⟨ok, rfl, -, rfl⟩ | ⟨ok, chkcnt, rfl, -, rfl⟩ |
    ⟨junk, env, chkcnt, peer, rfl, -, -, rfl⟩ |
    ⟨env, beyond, foreign, chkcnt, peer, rfl, -, -, -, rfl⟩ |
    ⟨ok, tid, rfl, -, hnumber, rfl⟩ := launcherStep_cases ht
  · cases ok <;> exact ⟨h.once, h.fresh⟩
  · unfold Launch.connect
    split <;> exact ⟨h.once, h.fresh⟩
  · unfold Launch.send
    split <;> exact ⟨h.once, h.fresh⟩
  · unfold Launch.recv
    split <;> exact ⟨h.once, h.fresh⟩
  · unfold Launch.create
    by_cases hz : s.tid = 0
    · rw [if_pos hz]
      cases ok with
      | true =>
        exact ⟨Nat.le_of_eq (congrArg (· + 1) (h.fresh hz)), fun h0 => absurd h0 (hnumber rfl)⟩
      | false => exact ⟨h.once, fun _ => h.fresh hz⟩
    · rw [if_neg hz]
      exact ⟨h.once, h.fresh⟩

theorem Launch.Started.step (h : s.Started) {op : LaunchOp} (ht : launchStep s op = some t) :
    t.Started := by
  obtain ⟨noticeFd, listener, rfl⟩ | ht | ht := launchStep_cases ht
  · exact ⟨h.once, h.fresh⟩
  · exact h.parentStep ht
  · obtain ⟨hthreads, htid⟩ := childStep_threads ht
    exact ⟨hthreads ▸ h.once, fun hz => hthreads ▸ h.fresh (htid ▸ hz)⟩

/-- **In every run the thread is started at most once.** -/
theorem threads_le_one {ops : List LaunchOp} (h : run launchStep Launch.start ops = some t) :
    t.threads ≤ 1 :=
  (run_invariant (fun _ _ _ h ht => Launch.Started.step h ht) started_start h).once

/-! ### Runs -/

/-- **In a run in which an answer that is not `0` is a whole `RES_INIT` of the child, the last try
gets one, a child that answered neither exits nor is told to quit before the call returns, and the thread
can be started, a call returns what became of the child.** -/
theorem controllerInit_sound (ops : List LaunchOp)
    (hops : Along launchStep Heard Launch.start ops) :
    Always launchStep Launch.Sound Launch.start ops := by
  have hall : Always launchStep (fun t => t.Known ∧ t.Serves ∧ t.Started) Launch.start ops :=
    always_of_along (fun _ _ _ h hq ht => ⟨h.1.step h.2.1 hq ht, h.2.1.step hq ht, h.2.2.step ht⟩)
      ⟨known_start, serves_start, started_start⟩ hops
  exact hall.mono fun _ h => ⟨h.1.success, h.1.failure, h.2.2.once⟩

/-! ### A child that cannot start -/

/-- A round of the child with a command that it receives as a whole. -/
def roundInit : RoundEnv := roundBytes (.moved 264)

/-- The call starts a child that answers the second try; no other process listens. -/
def launchOps : List LaunchOp :=
  [.fork true, .signal true, .connect true, .bind true, .connect true,
    .send (fun _ => 0) sendCommand, .accept (some true), .round roundInit,
    .recv recvWord (fun _ => 0) [], .create true 7]

/-- The child answers the second try. -/
theorem controllerInit_sound_second : Always launchStep Launch.Sound Launch.start launchOps :=
  controllerInit_sound launchOps (by decide +kernel)

/-- The child cannot set its signal handler and ends; no try connects, and the call returns `0`. -/
theorem not_controllerInit_sound_ended :
    ¬ Always launchStep Launch.Sound Launch.start
      (.fork true :: .signal false :: List.replicate 10 (.connect true) ++ [.create true 7]) := by
  intro h
  obtain ⟨hserve, -⟩ := (h.last rfl).success _ (List.mem_singleton_self _) rfl
  cases hserve

end HardwareDrivers.Libfpga
