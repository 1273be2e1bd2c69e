import HardwareDrivers.Libfpga.ShmemController

/-!
# Requests to the shared memory controller

`__fpga_shmem_controller_request` sends a command, receives the response, and where that is
`RES_OK` receives data as well. The connection is kept in a static variable; it is closed when the
controller quits, and at no other place. Nothing in a message tells which request it belongs to:
what a request receives is what is next on the stream.

A request takes three steps here, one for the command and one for each of the two messages, so that
rounds of the controller and losses of the connection can come between them.

## What is proved

* `Aligned.recv` — what a receive that is not short takes from a stream of messages.
* `sendAll_aligned` — what is sent, by an end that gives up after a failure, is such a stream.
* `Paired.step` — a request that begins on a clear connection gets its own response and data.
* `requests_paired` — so do all of a run, if none fails on a connection that is lost.
-/

namespace HardwareDrivers.Libfpga

open Theory

/-! ### The client -/

/-- `fpga_shmem_ctrl_info_t`. -/
structure CtrlInfo where
  /-- Its bytes. -/
  bytes : List (BitVec 8)
  /-- Its size. -/
  size : bytes.length = ctrlInfoSize

/-- It as a message. -/
def CtrlInfo.message (command : CtrlInfo) : Message := ⟨command.bytes, by rw [command.size]; decide⟩

/-- `command.cmd`. -/
def CtrlInfo.cmd (command : CtrlInfo) : CtrlCmd := ctrlCmd command.bytes

/-- The commands that a client may send. -/
def Supported : CtrlCmd → Bool
  | .start | .startDefaultSize | .stop | .getLimit | .getAvail | .getInfo | .getManagerPid
  | .finishManagersAll => true
  | .none | .init | .other => false

/-- `sizeof(fpga_shmem_manager_info_t)`. -/
abbrev managerInfoSize : ℕ := 4 + 4 + 4 + 4 * 16 + 64

/-- How many bytes of the data are read after the command. -/
def dataSize : CtrlCmd → ℕ
  | .getManagerPid | .getAvail | .getLimit => 4
  | .getInfo => 32 * managerInfoSize
  | _ => 0

/-- What is stored in `*data`. -/
def returned (cmd : CtrlCmd) (recvData : List (BitVec 8)) : Option (BitVec 32) :=
  if cmd = .getManagerPid then some (leWord (recvData.take 4)) else none

/-- Where the client is. -/
inductive Client where
  /-- In no request. -/
  | idle
  /-- The command was sent. -/
  | waiting (command : CtrlInfo)
  /-- The response was `RES_OK`. -/
  | data (command : CtrlInfo)

/-- A request that ended. -/
structure RequestEnd where
  /-- Its number. -/
  request : ℕ
  /-- Its command. -/
  cmd : CtrlCmd
  /-- The response and what is in `*data`, if it succeeded. -/
  result : Option (SocketResponse × Option (BitVec 32))
  /-- A transfer failed, and the connection was lost. -/
  lost : Bool

/-- What the controller produced. -/
structure Produced where
  /-- The request whose command it executed. -/
  request : Option ℕ
  /-- The response. -/
  response : SocketResponse
  /-- The data. -/
  data : List (BitVec 8)

/-- A controller, and the client that is connected with it. -/
structure Link where
  /-- The controller, and the two streams. -/
  controller : Controller
  /-- The requests that the messages belong to that it is still to receive. -/
  tags : List ℕ
  /-- A send of the controller failed since the request began. -/
  outCut : Bool
  /-- There is an `fd_client`. -/
  fdClient : Bool
  /-- The client. -/
  client : Client
  /-- How many requests began. -/
  begun : ℕ
  /-- What the controller produced. -/
  produced : List Produced
  /-- The requests that ended. -/
  log : List RequestEnd
  /-- Memory was read that no message filled. -/
  fault : Bool

/-- The connection is lost. -/
def Link.gone (s : Link) : Bool :=
  s.controller.closed || s.controller.finished || !s.controller.fd

/-! ### A round of the controller -/

/-- What a round of the loop produces. -/
def Controller.produces (s : Controller) (env : RoundEnv) : Option (SocketResponse × Message) :=
  match s.receive env.recv with
  | (.ok, s) => s.recvCommand.map fun memory =>
    let (response, sendData) :=
      controllerExecute env.exec (ctrlCmd (commandAt env.beyond memory)) s.sendData
    (response, sendData.getD .empty)
  | _ => none

/-- What a round sends. -/
def Controller.answers (s : Controller) (env : RoundEnv) : List (SendEnv × Message) :=
  match (s.receive env.recv).1, s.produces env with
  | .error, _ => [(env.response, wordMessage SocketResponse.ng.word)]
  | _, some (response, data) =>
    (env.response, wordMessage response.word) :: if response = .ok then [(env.data, data)] else []
  | _, none => []

/-- Sends, one after the other: whether all return `0`, and the stream. -/
def sendAll : List (SendEnv × Message) → List WireByte → Bool × List WireByte
  | [], wire => (true, wire)
  | (env, m) :: sends, wire =>
    let (ok, wire) := fpgaShmemSend env m wire
    let (all, wire) := sendAll sends wire
    (ok && all, wire)

/-- A round of the controller: on a connection that is lost nothing arrives. -/
def Link.round (s : Link) (env : RoundEnv) : Link :=
  let c := s.controller
  let request := if (c.wholeMessage env.recv).isSome then s.tags.head? else none
  { s with
    controller := { c.iterate env with out := if s.gone then c.out else (c.iterate env).out }
    tags := if (c.wholeMessage env.recv).isSome then s.tags.tail else s.tags
    outCut := s.outCut || !(sendAll (c.answers env) c.out).1
    produced := s.produced ++
      ((c.produces env).map fun p => ⟨request, p.1, p.2.bytes⟩).toList }

/-! ### A request -/

/-- The request ends. -/
def Link.ends (s : Link) (command : CtrlInfo)
    (result : Option (SocketResponse × Option (BitVec 32))) (lost : Bool) : Link :=
  { s with client := .idle, log := s.log ++ [⟨s.begun, command.cmd, result, lost⟩] }

/-- `fpga_shmem_send` of the command. -/
def Link.send (s : Link) (command : CtrlInfo) (env : SendEnv) : Link :=
  if s.gone then
    if (fpgaShmemSend env command.message s.controller.wire).1 then
      { s with client := .waiting command }
    else s.ends command none true
  else
    let (ok, wire) := fpgaShmemSend env command.message s.controller.wire
    if ok then
      { s with
        controller := { s.controller with
          wire, pend := s.controller.pend ++ [command.message] }
        tags := s.tags ++ [s.begun]
        client := .waiting command }
    else { s with controller := { s.controller with wire } }.ends command none false

/-- `fpga_shmem_recv` of the response, and what follows up to the next. -/
def Link.response (s : Link) (command : CtrlInfo) (env : RecvEnv) : Link :=
  let (ret, recvResponse, _, out) := fpgaShmemRecv env none 0 s.controller.out
  let s := { s with controller := { s.controller with out } }
  match ret, recvResponse with
  | .error, _ => s.ends command none s.gone
  | _, none => s.ends command none s.gone
  | _, some recvResponse =>
    if recvResponse.length < 4 then { s with client := .idle, fault := true }
    else if leWord (recvResponse.take 4) = SocketResponse.ok.word then
      { s with client := .data command }
    else if leWord (recvResponse.take 4) = SocketResponse.quit.word then
      { s.ends command (some (.quit, none)) false with fdClient := false }
    else s.ends command none false

/-- `fpga_shmem_recv` of the data, and the rest of the request. -/
def Link.data (s : Link) (command : CtrlInfo) (env : RecvEnv) : Link :=
  let (ret, recvData, _, out) := fpgaShmemRecv env none 0 s.controller.out
  let s := { s with controller := { s.controller with out } }
  if ret = .error then s.ends command none s.gone
  else if (recvData.getD []).length < dataSize command.cmd then
    { s with client := .idle, fault := true }
  else s.ends command (some (.ok, returned command.cmd (recvData.getD []))) false

/-- `recv` returns `0` only where the connection is lost and nothing is left. -/
def Link.LostFits (s : Link) (env : RecvEnv) : Prop :=
  (env.header = .lost → s.gone = true ∧ s.controller.out = []) ∧
    (env.data = .lost → s.gone = true ∧ s.controller.out.length ≤ env.header.count)

instance (s : Link) (env : RecvEnv) : Decidable (s.LostFits env) := inferInstanceAs (Decidable (_ ∧ _))

/-- The transfers of a round are possible. -/
def Controller.AnswersFit (s : Controller) (env : RoundEnv) : Prop :=
  ∀ p ∈ s.answers env, p.1.Fits p.2

instance (s : Controller) (env : RoundEnv) : Decidable (s.AnswersFit env) :=
  inferInstanceAs (Decidable (∀ p ∈ s.answers env, p.1.Fits p.2))

/-- What happens. -/
inductive LinkOp where
  /-- A request begins: the command is sent, on a new connection where there is none. -/
  | request (command : CtrlInfo) (connect : Bool) (env : SendEnv)
  /-- It receives the response. -/
  | response (env : RecvEnv)
  /-- It receives the data. -/
  | data (env : RecvEnv)
  /-- A round of the controller. -/
  | round (env : RoundEnv)
  /-- The connection is lost, and of the bytes that were sent so many still arrive. -/
  | cut (up down : ℕ)
  /-- After the end of the controller, or of its connection, a new one starts. -/
  | launch

/-- What it does. -/
def linkStep (s : Link) : LinkOp → Option Link
  | .request command connect env =>
    match s.client with
    | .idle =>
      let s := { s with begun := s.begun + 1, outCut := false }
      if ¬ env.Fits command.message then none
      else if ¬ Supported command.cmd then some (s.ends command none false)
      else if s.fdClient then some (s.send command env)
      else if connect then
        (controllerStep s.controller (.accept true)).map fun controller =>
          { s with controller, tags := [], fdClient := true }.send command env
      else some (s.ends command none false)
    | _ => none
  | .response env =>
    match s.client with
    | .waiting command =>
      if env.Fits s.controller.out ∧ s.LostFits env then some (s.response command env) else none
    | _ => none
  | .data env =>
    match s.client with
    | .data command =>
      if env.Fits s.controller.out ∧ s.LostFits env then some (s.data command env) else none
    | _ => none
  | .round env =>
    if s.controller.AnswersFit env then
      (controllerStep s.controller (.iterate env)).map fun _ => s.round env
    else none
  | .cut up down =>
    (controllerStep s.controller (.cut up)).map fun controller =>
      { s with controller := { controller with out := controller.out.take down } }
  | .launch =>
    if s.gone then
      some { s with
        controller := { Controller.start with closed := true, out := s.controller.out }
        tags := [] }
    else none

/-- At the start. -/
def Link.start : Link := ⟨Controller.start, [], false, false, .idle, 0, [], [], false⟩

/-- Responses belong to the requests. -/
structure Link.Sound (s : Link) : Prop where
  /-- A request that succeeds returns what the controller produced for it. -/
  answered : ∀ e ∈ s.log, ∀ response data, e.result = some (response, data) →
    ∃ p ∈ s.produced, p.request = some e.request ∧ p.response = response ∧
      data = returned e.cmd p.data
  /-- No data is read that was not received. -/
  received : s.fault = false
  /-- After a request that failed because the connection was lost, and while a controller runs, a
  later one can succeed. -/
  recovers : (∃ e ∈ s.log, e.result = none ∧ e.lost = true) → s.controller.finished = false →
    ∃ ops t, run linkStep s ops = some t ∧ ∃ e ∈ t.log.drop s.log.length, e.result.isSome

/-- Nothing of an earlier request is on the connection. -/
def Link.Clear (s : Link) : Prop :=
  s.gone = false ∧ s.controller.wire = [] ∧ s.controller.pend = [] ∧ s.controller.astray = false ∧
    s.controller.out = []

instance (s : Link) : Decidable s.Clear := inferInstanceAs (Decidable (_ ∧ _))

/-- A send handles all bytes of what it begins. -/
def SendEnv.Whole (env : SendEnv) (m : Message) : Prop :=
  (0 < env.header.ret → env.header.count = 4) ∧
    (0 < env.data.ret → env.data.count = m.bytes.length)

/-- A receive handles all bytes of what it begins. -/
def RecvEnv.Whole (env : RecvEnv) (wire : List WireByte) : Prop :=
  (0 < env.header.ret → env.header.count = 4) ∧
    (0 < env.data.ret → env.data.count = (env.len wire).toNat)

instance (env : SendEnv) (m : Message) : Decidable (env.Whole m) :=
  inferInstanceAs (Decidable (_ ∧ _))

instance (env : RecvEnv) (wire : List WireByte) : Decidable (env.Whole wire) :=
  inferInstanceAs (Decidable (_ ∧ _))

/-- Sends handle all bytes of what they begin, and after one that fails nothing more is sent. -/
def GivesUp : List (SendEnv × Message) → Prop
  | [] => True
  | (env, m) :: sends => env.Whole m ∧ GivesUp sends ∧
      (env.header.ret ≤ 0 ∨ m.len ≠ 0 ∧ env.data.ret ≤ 0 → ∀ p ∈ sends, p.1.header.ret ≤ 0)

instance : ∀ sends, Decidable (GivesUp sends)
  | [] => .isTrue trivial
  | _ :: sends =>
    have := instDecidableGivesUp sends
    inferInstanceAs (Decidable (_ ∧ _))

/-- A receive returns neither an error nor that the connection is lost. -/
def RecvEnv.Succeeds (env : RecvEnv) (wire : List WireByte) : Prop :=
  0 < env.header.ret ∧ (env.len wire = 0 ∨ env.malloc = true ∧ 0 < env.data.ret)

instance (env : RecvEnv) (wire : List WireByte) : Decidable (env.Succeeds wire) :=
  inferInstanceAs (Decidable (_ ∧ _))

/-- A round of the controller within a request receives a message from its start and as a whole, if
any of it, and on a connection that is not lost it sends no more after a send that failed. -/
def Link.RoundSmooth (s : Link) (env : RoundEnv) : Prop :=
  (0 < env.recv.header.ret → s.controller.astray = false) ∧ env.recv.Whole s.controller.wire ∧
    (s.gone = true ∨ s.outCut = false ∧ GivesUp (s.controller.answers env))

instance (s : Link) (env : RoundEnv) : Decidable (s.RoundSmooth env) :=
  inferInstanceAs (Decidable (_ ∧ _))

/-- A request begins on a clear connection or a new one; nothing is short; on a connection that is
lost no receive of the client fails; and where a command has data, it is `GET_MANAGER_PID` and the
connection is not lost before the data. -/
def Smooth (s : Link) : LinkOp → Prop
  | .request command _ env => (s.fdClient = true → s.Clear) ∧ env.Whole command.message
  | .response env =>
    env.Whole s.controller.out ∧ (s.gone = true → env.Succeeds s.controller.out)
  | .data env =>
    env.Whole s.controller.out ∧
      (s.gone = true → env.header.ret = 0 ∨ env.Succeeds s.controller.out) ∧
      match s.client with
      | .data command =>
        if command.cmd = .getManagerPid then env.header.ret ≠ 0
        else dataSize command.cmd ≠ 0 → env.header.ret < 0
      | _ => True
  | .round env =>
    match s.client with
    | .idle => True
    | _ => s.RoundSmooth env
  | _ => True

instance (s : Link) (op : LinkOp) : Decidable (Smooth s op) := by
  unfold Smooth
  split
  · infer_instance
  · infer_instance
  · cases s.client <;> infer_instance
  · cases s.client <;> infer_instance
  · infer_instance

variable {s t : Link}

/-! ### Streams of messages -/

/-- Fewer bytes of the messages come. -/
theorem Aligned.take {closed : Bool} {wire : List WireByte} {pend : List Message}
    (h : Aligned closed wire pend) (n : ℕ) : Aligned true (wire.take n) pend :=
  ⟨(List.take_prefix n wire).trans h.initial, nofun⟩

/-- They may never come. -/
theorem Aligned.weaken {closed closed' : Bool} {wire : List WireByte} {pend : List Message}
    (h : Aligned closed wire pend) (hc : closed' = false → closed = false) :
    Aligned closed' wire pend :=
  ⟨h.initial, fun h' => h.all (hc h')⟩

/-- **A receive that is not short takes the first message as a whole, or does not succeed.** -/
theorem Aligned.recv {closed : Bool} {wire : List WireByte} {pend : List Message}
    (h : Aligned closed wire pend) {env : RecvEnv} (hfits : env.Fits wire) (hwhole : env.Whole wire) :
    (fpgaShmemRecv env none 0 wire).1 ≠ .ok ∨
      ∃ m rest wire', pend = m :: rest ∧ Aligned closed wire' rest ∧
        fpgaShmemRecv env none 0 wire =
          (.ok, if m.len = 0 then none else some m.bytes, m.len, wire') := by
  obtain ⟨hret, -⟩ | hret := hfits.1.header_cases (min_le_left ..)
  · exact .inl (fpgaShmemRecv_none hret none 0 wire).1
  · have hheader := hwhole.1 hret
    have hfour : 4 ≤ wire.length := by
      have hle := hfits.1.count_le
      omega
    obtain ⟨m, rest, w, rfl, rfl, hinitial, hall⟩ := h.header hfour
    have hlen := env.len_append hheader m.len w
    rw [fpgaShmemRecv_header hheader hret]
    by_cases hz : m.len = 0
    · have hbytes : payloadWire m.bytes = [] := by
        rw [m.bytes_of_len hz]
        rfl
      rw [hbytes, List.nil_append] at hinitial hall
      right
      exact ⟨m, rest, w, rfl, ⟨hinitial, hall⟩, by rw [if_pos hz, if_pos hz]⟩
    · rw [if_neg hz]
      by_cases hmalloc : env.malloc = true
      · rw [if_neg (by simp [hmalloc])]
        by_cases hd : env.data.ret ≤ 0
        · left
          rw [if_pos hd]
          nofun
        · -- all bytes of the message are there
          have hcount := hwhole.2 (not_le.mp hd)
          have hmost := hfits.2.count_le
          rw [hlen, m.toNat_len] at hcount hmost
          rw [hheader, List.length_append, length_headerWire, Nat.add_sub_cancel_left,
            hcount] at hmost
          obtain ⟨w', rfl⟩ := List.prefix_of_prefix_length_le (List.prefix_append ..) hinitial
            (by rw [length_payloadWire]; omega)
          have hdrop : (payloadWire m.bytes ++ w').drop env.data.count = w' := by
            rw [hcount, List.drop_append_of_le_length (by simp), List.drop_of_length_le (by simp)]
            rfl
          right
          refine ⟨m, rest, w', rfl, ⟨(List.prefix_append_right_inj _).mp hinitial,
            fun hc => List.append_cancel_left (hall hc)⟩, ?_⟩
          rw [if_neg hd, if_neg hz, env.buffer_frame hheader hcount, hdrop]
      · left
        rw [if_pos (by simp [hmalloc])]
        nofun

/-- A send that is not short puts some first bytes of the frame on the stream, and all if it returns
`0`. -/
theorem fpgaShmemSend_initial {env : SendEnv} {m : Message} (hfits : env.Fits m)
    (hwhole : env.Whole m) (wire : List WireByte) :
    ∃ part, (fpgaShmemSend env m wire).2 = wire ++ part ∧ part <+: m.frame ∧
      ((fpgaShmemSend env m wire).1 = true → part = m.frame) ∧
      (env.header.ret ≤ 0 → part = []) ∧
      ((fpgaShmemSend env m wire).1 = false → env.header.ret ≤ 0 ∨ m.len ≠ 0 ∧ env.data.ret ≤ 0) := by
  obtain ⟨hfh, -⟩ := hfits
  unfold fpgaShmemSend Message.frame
  dsimp only
  obtain ⟨hret, hcount⟩ | hret := hfh.header_cases (le_refl 4)
  · rw [if_pos hret, hcount]
    exact ⟨[], rfl, List.nil_prefix, nofun, fun _ => rfl, fun _ => .inl hret⟩
  · rw [if_neg (not_le.mpr hret), hwhole.1 hret, List.take_of_length_le (by simp)]
    by_cases hz : m.len = 0
    · rw [if_pos hz]
      refine ⟨headerWire m.len, rfl, List.prefix_append .., fun _ => ?_,
        fun h => absurd h (not_le.mpr hret), nofun⟩
      rw [m.bytes_of_len hz]
      exact (List.append_nil _).symm
    · rw [if_neg hz]
      refine ⟨headerWire m.len ++ (payloadWire m.bytes).take env.data.count,
        List.append_assoc .., ?_, fun hok => ?_, fun h => absurd h (not_le.mpr hret), fun hok => ?_⟩
      · exact (List.prefix_append_right_inj _).mpr (List.take_prefix ..)
      · rw [hwhole.2 (not_le.mp (of_decide_eq_true hok)), List.take_of_length_le (by simp)]
      · exact .inr ⟨hz, not_not.mp (of_decide_eq_false hok)⟩

/-- Sends that fail at once send nothing. -/
theorem sendAll_nothing {sends : List (SendEnv × Message)} (hfits : ∀ p ∈ sends, p.1.Fits p.2)
    (hret : ∀ p ∈ sends, p.1.header.ret ≤ 0) (wire : List WireByte) :
    (sendAll sends wire).2 = wire := by
  induction sends generalizing wire with
  | nil => rfl
  | cons p sends ih =>
    obtain ⟨hfirst, hfits⟩ := List.forall_mem_cons.mp hfits
    obtain ⟨hnone, hret⟩ := List.forall_mem_cons.mp hret
    have hsend : fpgaShmemSend p.1 p.2 wire = (false, wire) := by
      obtain ⟨-, hcount⟩ | hpos := hfirst.1.header_cases (le_refl 4)
      · simp [fpgaShmemSend, hnone, hcount]
      · exact absurd hnone (not_le.mpr hpos)
    simp [sendAll, hsend, ih hfits hret]

/-- An end that gives up sends some first bytes of its messages, and all if no send fails. -/
theorem sendAll_initial {sends : List (SendEnv × Message)} (hfits : ∀ p ∈ sends, p.1.Fits p.2)
    (hgives : GivesUp sends) (wire : List WireByte) :
    ∃ part, (sendAll sends wire).2 = wire ++ part ∧
      part <+: (sends.map Prod.snd).flatMap Message.frame ∧
      ((sendAll sends wire).1 = true → part = (sends.map Prod.snd).flatMap Message.frame) := by
  induction sends generalizing wire with
  | nil => exact ⟨[], by simp [sendAll], List.nil_prefix, fun _ => rfl⟩
  | cons p sends ih =>
    obtain ⟨env, m⟩ := p
    obtain ⟨hwhole, hgives, hgiven⟩ := hgives
    obtain ⟨hfirst, hfits⟩ := List.forall_mem_cons.mp hfits
    obtain ⟨part, hpart, hinitial, hall, -, hfailed⟩ := fpgaShmemSend_initial hfirst hwhole wire
    cases hok : (fpgaShmemSend env m wire).1 with
    | true =>
      obtain ⟨part', hpart', hinitial', hall'⟩ := ih hfits hgives (wire ++ part)
      obtain rfl := hall hok
      refine ⟨m.frame ++ part', ?_, ?_, fun h => ?_⟩
      · simp [sendAll, hpart, hpart']
      · simpa [List.prefix_append_right_inj] using hinitial'
      · have hrest : (sendAll sends (wire ++ m.frame)).1 = true := by
          simpa [sendAll, hpart, hok] using h
        simp [hall' hrest]
    | false =>
      have hnothing := sendAll_nothing hfits (hgiven (hfailed hok)) (wire ++ part)
      refine ⟨part, by simp [sendAll, hpart, hnothing], ?_, fun h => ?_⟩
      · exact hinitial.trans (by simp)
      · simp [sendAll, hok] at h

/-- **What an end sends that gives up after a failure are messages.** -/
theorem sendAll_aligned {sends : List (SendEnv × Message)} (hfits : ∀ p ∈ sends, p.1.Fits p.2)
    (hgives : GivesUp sends) {wire : List WireByte} {pend : List Message}
    (h : wire = pend.flatMap Message.frame) :
    Aligned (!(sendAll sends wire).1) (sendAll sends wire).2 (pend ++ sends.map Prod.snd) := by
  obtain ⟨part, hpart, hinitial, hall⟩ := sendAll_initial hfits hgives wire
  rw [hpart]
  refine ⟨?_, fun hc => ?_⟩
  · rw [h, List.flatMap_append]
    exact (List.prefix_append_right_inj _).mpr hinitial
  · rw [hall (by simpa using hc), h, List.flatMap_append]

/-! ### What a round does -/

/-- What a round sends is what it puts on the stream. -/
theorem iterate_out (c : Controller) (env : RoundEnv) :
    (c.iterate env).out = (sendAll (c.answers env) c.out).2 := by
  have hout : (c.receive env.recv).2.out = c.out := rfl
  simp only [Controller.iterate, Controller.answers, Controller.produces]
  generalize c.receive env.recv = x at hout ⊢
  obtain ⟨ret, u⟩ := x
  replace hout : u.out = c.out := hout
  cases ret with
  | lost => simp [sendAll, hout]
  | error => simp [sendAll, hout]
  | ok =>
    cases hmemory : u.recvCommand with
    | none => simp [sendAll, hmemory, hout]
    | some memory =>
      simp only [hmemory, Option.map_some, Controller.execute]
      generalize controllerExecute env.exec _ u.sendData = y
      obtain ⟨response, sendData⟩ := y
      by_cases hok : response = .ok
      · simp [hok, sendAll, hout]
      · simp [hok, sendAll, hout]

/-- After the receive a round changes neither what comes nor what is lost. -/
theorem iterate_frame (c : Controller) (env : RoundEnv) :
    ∃ fd out recvCommand sendData finished executed, c.iterate env =
      { (c.receive env.recv).2 with fd, out, recvCommand, sendData, finished, executed } := by
  unfold Controller.iterate
  generalize c.receive env.recv = x
  obtain ⟨ret, u⟩ := x
  cases ret with
  | lost => exact ⟨false, u.out, u.recvCommand, u.sendData, u.finished, u.executed, rfl⟩
  | error => exact ⟨u.fd, _, u.recvCommand, u.sendData, u.finished, u.executed, rfl⟩
  | ok =>
    cases hmemory : u.recvCommand with
    | none =>
      refine ⟨u.fd, u.out, u.recvCommand, u.sendData, u.finished, u.executed, ?_⟩
      simp only [hmemory]
      rw [← hmemory]
    | some memory =>
      obtain ⟨out, sendData, finished, heq⟩ := execute_frame u env memory
      refine ⟨u.fd, out, none, sendData, finished,
        u.executed ++ [commandAt env.beyond memory], ?_⟩
      simpa only [hmemory] using heq

/-- A round in which at most one command can come. -/
theorem round_command {c : Controller} {env : RoundEnv} {m : Message}
    (hsize : m.bytes.length = ctrlInfoSize) (hpend : c.pend = [] ∨ c.pend = [m])
    (haligned : c.astray = false → Aligned c.closed c.wire c.pend) (hfits : env.recv.Fits c.wire)
    (hwhole : env.recv.Whole c.wire) (hastray : 0 < env.recv.header.ret → c.astray = false) :
    (c.iterate env = { c with fd := false } ∧ c.answers env = [] ∧
        c.wholeMessage env.recv = none) ∨
      c.answers env = [(env.response, wordMessage SocketResponse.ng.word)] ∨
      c.pend = [m] ∧ (c.wholeMessage env.recv).isSome ∧ (c.receive env.recv).1 = .ok ∧
        c.produces env = some ((controllerExecute env.exec (ctrlCmd m.bytes) c.sendData).1,
          (controllerExecute env.exec (ctrlCmd m.bytes) c.sendData).2.getD .empty) := by
  obtain ⟨hret, hcount⟩ | hret := hfits.1.header_cases (min_le_left ..)
  · obtain ⟨hnot, hsame⟩ := receive_none hret hcount c
    simp only [Controller.iterate, Controller.answers, Controller.produces]
    generalize c.receive env.recv = x at hnot hsame ⊢
    obtain ⟨ret, u⟩ := x
    obtain rfl : u = c := hsame
    cases ret with
    | ok => exact absurd rfl hnot
    | lost => exact .inl ⟨rfl, rfl, wholeMessage_none hcount u⟩
    | error => exact .inr (.inl rfl)
  · have hheader := hwhole.1 hret
    have hfour : 4 ≤ c.wire.length := by
      have hle := hfits.1.count_le
      omega
    obtain ⟨m', rest, w, hcons, hwire, hinitial, -⟩ := (haligned (hastray hret)).header hfour
    obtain rfl : m' = m := by
      rcases hpend with hpend | hpend
      · rw [hpend] at hcons
        cases hcons
      · rw [hpend] at hcons
        cases hcons
        rfl
    have hlen : env.recv.len c.wire = m'.len := by
      rw [hwire]
      exact env.recv.len_append hheader ..
    have hcases := receive_header (hastray hret) hcons hwire hret hheader
    simp only [Controller.iterate, Controller.answers, Controller.produces]
    obtain ⟨hz, -⟩ | ⟨hz, hmalloc, hdata, hreceive⟩ | ⟨recvCommand, wire, hreceive⟩ := hcases
    · -- a command is not empty
      rw [m'.bytes_of_len hz] at hsize
      cases hsize
    · have hcount : env.recv.data.count = m'.bytes.length := by
        rw [hwhole.2 hdata, hlen, m'.toNat_len]
      have hmost := hfits.2.count_le
      rw [hlen, m'.toNat_len, hwire, List.length_append, length_headerWire, hheader,
        Nat.add_sub_cancel_left, hcount] at hmost
      obtain ⟨w', rfl⟩ := List.prefix_of_prefix_length_le (List.prefix_append ..) hinitial
        (by rw [length_payloadWire]; omega)
      have htaken : c.wholeMessage env.recv = some m' := by
        simp [Controller.wholeMessage, hastray hret, hcons, hheader, hmalloc, hdata, hcount]
      right
      right
      rw [hreceive hcount, env.recv.buffer_frame hheader hcount w', htaken]
      simp only [Option.map_some, commandAt_eq hsize]
      exact ⟨hpend.resolve_left (by simp [hcons]), rfl, trivial, trivial⟩
    · right
      left
      rw [hreceive]

/-! ### The invariant -/

/-- The controller produced this for the request under way. -/
def Link.Own (s : Link) (command : CtrlInfo) (response : SocketResponse) (data : List (BitVec 8)) :
    Prop :=
  (∃ p ∈ s.produced, p.request = some s.begun ∧ p.response = response ∧ p.data = data) ∧
    (command.cmd = .getManagerPid → response = .ok ∧ data.length = 4)

/-- The command is the only one that can still come. -/
structure Link.Pending (s : Link) (command : CtrlInfo) : Prop where
  /-- It is still to come, or is not. -/
  pend : s.controller.pend = [] ∨
    s.controller.pend = [command.message] ∧ s.tags = [s.begun]
  /-- The bytes are its. -/
  stream : s.controller.astray = false →
    Aligned s.controller.closed s.controller.wire s.controller.pend

/-- What the controller sent after the request began: nothing, or at first a response to it. -/
def Link.Answered (s : Link) (command : CtrlInfo) : List Message → Prop
  | [] => s.Pending command
  | a :: rest => a.bytes.length = 4 ∧
      (leWord a.bytes = SocketResponse.ok.word →
        ∃ d rest', rest = d :: rest' ∧ s.Own command .ok d.bytes) ∧
      (leWord a.bytes = SocketResponse.quit.word → ∃ data, s.Own command .quit data)

/-- What is on the stream to the client. -/
def Link.Stream (s : Link) : Prop :=
  match s.client with
  | .idle => True
  | .waiting command => ∃ answers, s.Answered command answers ∧
      Aligned (s.gone || s.outCut) s.controller.out answers
  | .data command => ∃ d rest, s.Own command .ok d.bytes ∧
      Aligned (s.gone || s.outCut) s.controller.out (d :: rest)

/-- What holds throughout a run in which everything is smooth. -/
structure Paired (s : Link) : Prop where
  /-- A request that succeeds returns what the controller produced for it. -/
  answered : ∀ e ∈ s.log, ∀ response data, e.result = some (response, data) →
    ∃ p ∈ s.produced, p.request = some e.request ∧ p.response = response ∧
      data = returned e.cmd p.data
  /-- No data is read that was not received. -/
  received : s.fault = false
  /-- No request failed on a connection that is lost. -/
  kept : ∀ e ∈ s.log, ¬ (e.result = none ∧ e.lost = true)
  /-- Every message to come has its request. -/
  tags : s.tags.length = s.controller.pend.length
  /-- What comes belongs to the request under way. -/
  stream : s.Stream

theorem Paired.sound (h : Paired s) : s.Sound :=
  ⟨h.answered, h.received, fun ⟨e, he, hlost⟩ _ => absurd hlost (h.kept e he)⟩

theorem paired_start : Paired Link.start :=
  ⟨fun _ he => absurd he List.not_mem_nil, rfl, fun _ he => absurd he List.not_mem_nil, rfl, trivial⟩

/-- More may be produced. -/
theorem Link.Own.mono {command : CtrlInfo} {response : SocketResponse} {data : List (BitVec 8)}
    (h : s.Own command response data) (hbegun : t.begun = s.begun)
    (hproduced : ∀ p ∈ s.produced, p ∈ t.produced) : t.Own command response data := by
  obtain ⟨⟨p, hp, hrequest, hresponse, hdata⟩, hpid⟩ := h
  exact ⟨⟨p, hproduced p hp, hbegun ▸ hrequest, hresponse, hdata⟩, hpid⟩

/-- A response stays the first. -/
theorem Link.Answered.append {command : CtrlInfo} {a : Message} {rest : List Message}
    (h : s.Answered command (a :: rest)) (hbegun : t.begun = s.begun)
    (hproduced : ∀ p ∈ s.produced, p ∈ t.produced) (more : List Message) :
    t.Answered command (a :: (rest ++ more)) := by
  obtain ⟨hsize, hok, hquit⟩ := h
  refine ⟨hsize, fun h => ?_, fun h => ?_⟩
  · obtain ⟨d, rest', rfl, hown⟩ := hok h
    exact ⟨d, rest' ++ more, rfl, hown.mono hbegun hproduced⟩
  · obtain ⟨data, hown⟩ := hquit h
    exact ⟨data, hown.mono hbegun hproduced⟩

/-- The end of a request that does not succeed. -/
theorem Paired.ends_none (h : Paired s) {command : CtrlInfo} {lost : Bool} (hlost : lost = false) :
    Paired (s.ends command none lost) := by
  refine ⟨fun e he response data hresult => ?_, h.received, fun e he => ?_, h.tags, trivial⟩
  · obtain he | rfl := List.mem_append.mp he |>.imp_right List.mem_singleton.mp
    · exact h.answered e he response data hresult
    · cases hresult
  · obtain he | rfl := List.mem_append.mp he |>.imp_right List.mem_singleton.mp
    · exact h.kept e he
    · rw [hlost]
      rintro ⟨-, ⟨⟩⟩

/-- The end of one that succeeds. -/
theorem Paired.ends_some (h : Paired s) {command : CtrlInfo} {response : SocketResponse}
    {data : List (BitVec 8)} {result : Option (BitVec 32)} (hown : s.Own command response data)
    (hresult : result = returned command.cmd data) :
    Paired (s.ends command (some (response, result)) false) := by
  refine ⟨fun e he response' data' heq => ?_, h.received, fun e he => ?_, h.tags, trivial⟩
  · obtain he | rfl := List.mem_append.mp he |>.imp_right List.mem_singleton.mp
    · exact h.answered e he response' data' heq
    · cases heq
      obtain ⟨⟨p, hp, hrequest, hresponse, rfl⟩, -⟩ := hown
      exact ⟨p, hp, hrequest, hresponse, hresult⟩
  · obtain he | rfl := List.mem_append.mp he |>.imp_right List.mem_singleton.mp
    · exact h.kept e he
    · rintro ⟨⟨⟩, -⟩

/-! ### What a request does -/

/-- **A command on a clear connection is all that the controller is still to receive.** -/
theorem Paired.send (h : Paired s) (hclear : s.Clear) {command : CtrlInfo} {env : SendEnv}
    (hfits : env.Fits command.message) (hwhole : env.Whole command.message) :
    Paired (s.send command env) := by
  obtain ⟨hgone, hwire, hpend, hastray, hout⟩ := hclear
  have htags : s.tags = [] := by
    have hlen := h.tags
    rw [hpend] at hlen
    exact List.length_eq_zero_iff.mp hlen
  obtain ⟨part, hpart, -, hall, -, -⟩ := fpgaShmemSend_initial hfits hwhole s.controller.wire
  rw [hwire, List.nil_append] at hpart
  rw [hwire] at hall
  simp only [Link.send, hgone, hwire]
  generalize fpgaShmemSend env command.message [] = x at hpart hall
  obtain ⟨ok, wire⟩ := x
  obtain rfl : wire = part := hpart
  cases ok with
  | true =>
    obtain rfl := hall rfl
    refine ⟨h.answered, h.received, h.kept, ?_, [], ⟨?_, fun _ => ?_⟩, ?_⟩
    · simp [htags, hpend]
    · right
      simp [htags, hpend]
    · simp [hpend, Aligned.mk]
    · simpa [hout] using ⟨List.nil_prefix, fun _ => rfl⟩
  | false =>
    have hidle : Paired { s with
        controller := { s.controller with wire }, client := .idle } :=
      ⟨h.answered, h.received, h.kept, h.tags, trivial⟩
    exact hidle.ends_none rfl

/-- A request begins. -/
theorem Paired.request (h : Paired s) {command : CtrlInfo} {connect : Bool} {env : SendEnv}
    (hq : Smooth s (.request command connect env))
    (ht : linkStep s (.request command connect env) = some t) : Paired t := by
  obtain ⟨hclear, hwhole⟩ := hq
  cases hclient : s.client with
  | waiting _ => simp [linkStep, hclient] at ht
  | data _ => simp [linkStep, hclient] at ht
  | idle =>
    have hbegin : Paired { s with client := .idle, begun := s.begun + 1, outCut := false } :=
      ⟨h.answered, h.received, h.kept, h.tags, trivial⟩
    simp only [linkStep, hclient] at ht
    split_ifs at ht with hfits hsupported hfd hconnect
    · cases ht
      exact hbegin.send (hclear hfd) hfits hwhole
    · -- on a new connection
      obtain ⟨controller, hc, rfl⟩ := Option.map_eq_some_iff.mp ht
      simp only [controllerStep, if_true] at hc
      split_ifs at hc with hready
      cases hc
      have hnew : Paired { s with
          client := .idle, begun := s.begun + 1, outCut := false, tags := [], fdClient := true
          controller := { s.controller with
            fd := true, closed := false, wire := [], out := [], pend := [], astray := false } } :=
        ⟨h.answered, h.received, h.kept, rfl, trivial⟩
      refine hnew.send ⟨?_, rfl, rfl, rfl, rfl⟩ hfits hwhole
      simpa [Link.gone] using not_or.mp hready |>.2
    · cases ht
      exact hbegin.ends_none rfl
    · cases ht
      exact hbegin.ends_none rfl

/-- A receive that succeeds returns `0`. -/
theorem RecvEnv.Succeeds.ok {env : RecvEnv} {wire : List WireByte} (h : env.Succeeds wire) :
    (fpgaShmemRecv env none 0 wire).1 = .ok := by
  obtain ⟨hret, hdata⟩ := h
  simp only [fpgaShmemRecv, if_neg hret.ne', if_neg (not_lt.mpr hret.le)]
  rcases hdata with hz | ⟨hmalloc, hd⟩
  · rw [if_pos hz]
  · by_cases hz : env.len wire = 0
    · rw [if_pos hz]
    · rw [if_neg hz, if_neg (by simp [hmalloc]), if_neg (not_le.mpr hd)]

/-- One that finds the connection lost stores nothing. -/
theorem fpgaShmemRecv_lost {env : RecvEnv} {wire : List WireByte}
    (h : (fpgaShmemRecv env none 0 wire).1 = .lost) :
    env.header.ret = 0 ∧ (fpgaShmemRecv env none 0 wire).2.1 = none := by
  by_cases hz : env.header.ret = 0
  · exact ⟨hz, by simp [fpgaShmemRecv, hz]⟩
  · simp only [fpgaShmemRecv, if_neg hz] at h
    split_ifs at h

/-- What was sent to the client does not matter once the request ended. -/
theorem Paired.idle (h : Paired s) (out : List WireByte) :
    Paired { s with controller := { s.controller with out }, client := .idle } :=
  ⟨h.answered, h.received, h.kept, h.tags, trivial⟩

theorem SocketResponse.word_inj {a b : SocketResponse} (h : a.word = b.word) : a = b := by
  cases a <;> cases b <;> first | rfl | exact absurd h (by decide)

/-- **The response is one that the controller produced for this request.** -/
theorem Paired.response (h : Paired s) {command : CtrlInfo} (hclient : s.client = .waiting command)
    {env : RecvEnv} (hfits : env.Fits s.controller.out) (hq : Smooth s (.response env)) :
    Paired (s.response command env) := by
  obtain ⟨hwhole, hgone⟩ := hq
  have hstream := h.stream
  simp only [Link.Stream, hclient] at hstream
  obtain ⟨answers, hanswered, haligned⟩ := hstream
  obtain hnot | ⟨a, rest, out, rfl, haligned, hrecv⟩ := haligned.recv hfits hwhole
  · have hkept : s.gone = false := by
      rw [← Bool.not_eq_true]
      exact fun hg => hnot (hgone hg).ok
    have hlost := @fpgaShmemRecv_lost env s.controller.out
    unfold Link.response
    generalize fpgaShmemRecv env none 0 s.controller.out = x at hnot hlost ⊢
    obtain ⟨ret, recvResponse, len, out⟩ := x
    cases ret with
    | ok => exact absurd rfl hnot
    | lost =>
      obtain ⟨-, rfl⟩ := hlost rfl
      exact (h.idle out).ends_none hkept
    | error => exact (h.idle out).ends_none hkept
  · obtain ⟨hsize, hok, hquit⟩ := hanswered
    have hlen : a.len ≠ 0 := by
      intro hz
      rw [a.bytes_of_len hz] at hsize
      cases hsize
    have htake : a.bytes.take 4 = a.bytes := List.take_of_length_le hsize.le
    simp only [Link.response, hrecv, if_neg hlen, hsize, lt_irrefl, if_false, htake]
    by_cases hisok : leWord a.bytes = SocketResponse.ok.word
    · rw [if_pos hisok]
      obtain ⟨d, rest', rfl, hown⟩ := hok hisok
      exact ⟨h.answered, h.received, h.kept, h.tags, d, rest', hown, haligned⟩
    · rw [if_neg hisok]
      by_cases hisquit : leWord a.bytes = SocketResponse.quit.word
      · rw [if_pos hisquit]
        obtain ⟨data, hown⟩ := hquit hisquit
        have hnone : none = returned command.cmd data := by
          unfold returned
          rw [if_neg fun hpid => absurd (hown.2 hpid).1 (by decide)]
        obtain ⟨hanswered, hreceived, hkept, htags, -⟩ := (h.idle out).ends_some hown hnone
        exact ⟨hanswered, hreceived, hkept, htags, trivial⟩
      · rw [if_neg hisquit]
        exact (h.idle out).ends_none rfl

/-- **The data is what the controller produced for this request.** -/
theorem Paired.data (h : Paired s) {command : CtrlInfo} (hclient : s.client = .data command)
    {env : RecvEnv} (hfits : env.Fits s.controller.out) (hq : Smooth s (.data env)) :
    Paired (s.data command env) := by
  have hstream := h.stream
  simp only [Link.Stream, hclient] at hstream
  simp only [Smooth, hclient] at hq
  obtain ⟨hwhole, hgone, hcommand⟩ := hq
  obtain ⟨d, rest, hown, haligned⟩ := hstream
  obtain hnot | ⟨d', rest', out, hcons, -, hrecv⟩ := haligned.recv hfits hwhole
  · have hlost := @fpgaShmemRecv_lost env s.controller.out
    have hok := @RecvEnv.Succeeds.ok env s.controller.out
    have hzero : env.header.ret = 0 → (fpgaShmemRecv env none 0 s.controller.out).1 = .lost := by
      intro hz
      simp [fpgaShmemRecv, hz]
    unfold Link.data
    generalize fpgaShmemRecv env none 0 s.controller.out = x at hnot hlost hok hzero ⊢
    obtain ⟨ret, recvData, len, out⟩ := x
    cases ret with
    | ok => exact absurd rfl hnot
    | lost =>
      obtain ⟨hz, rfl⟩ := hlost rfl
      have hpid : command.cmd ≠ .getManagerPid := by
        intro hpid
        rw [if_pos hpid] at hcommand
        exact hcommand hz
      have hsize : dataSize command.cmd = 0 := by
        rw [if_neg hpid] at hcommand
        by_contra hne
        have hneg := hcommand hne
        omega
      simp only [Option.getD_none, hsize, List.length_nil, lt_irrefl, if_false]
      exact (h.idle out).ends_some hown (by simp [returned, hpid])
    | error =>
      have hkept : s.gone = false := by
        rw [← Bool.not_eq_true]
        intro hg
        obtain hz | hsucceeds := hgone hg
        · cases hzero hz
        · cases hok hsucceeds
      exact (h.idle out).ends_none hkept
  · cases hcons
    have hdata : (if d.len = 0 then none else some d.bytes).getD [] = d.bytes := by
      by_cases hz : d.len = 0
      · rw [if_pos hz, d.bytes_of_len hz]
        rfl
      · rw [if_neg hz]
        rfl
    have hret : 0 < env.header.ret := by
      by_contra hle
      exact (fpgaShmemRecv_none (not_lt.mp hle) none 0 s.controller.out).1 (by rw [hrecv])
    have hsize : ¬ d.bytes.length < dataSize command.cmd := by
      by_cases hpid : command.cmd = .getManagerPid
      · rw [(hown.2 hpid).2, hpid]
        exact lt_irrefl 4
      · rw [if_neg hpid] at hcommand
        intro hlt
        exact absurd (hcommand (Nat.ne_of_gt (Nat.zero_lt_of_lt hlt))) (not_lt.mpr hret.le)
    simp only [Link.data, hrecv, hdata, if_neg hsize]
    exact (h.idle out).ends_some hown rfl

/-! ### What the controller does -/

/-- The stream to the client after a round. -/
theorem Link.round_aligned {env : RoundEnv} {answers : List Message}
    (h : Aligned (s.gone || s.outCut) s.controller.out answers)
    (hfit : s.controller.AnswersFit env)
    (hq : s.gone = true ∨ s.outCut = false ∧ GivesUp (s.controller.answers env))
    (hready : s.controller.fd = true ∧ s.controller.finished = false) :
    Aligned ((s.round env).gone || (s.round env).outCut) (s.round env).controller.out
      (answers ++ (s.controller.answers env).map Prod.snd) := by
  have hclosed : (s.controller.iterate env).closed = s.controller.closed := by
    obtain ⟨_, _, _, _, _, _, heq⟩ := iterate_frame s.controller env
    rw [heq]
    rfl
  have hgone : s.gone = s.controller.closed := by simp [Link.gone, hready]
  cases hg : s.gone with
  | true =>
    have hlost : s.controller.closed = true := hgone ▸ hg
    have hstays : (s.round env).gone = true := by simp [Link.gone, Link.round, hclosed, hlost]
    have hout : (s.round env).controller.out = s.controller.out := by simp [Link.round, hg]
    rw [hstays, hout]
    exact ⟨h.initial.trans (by simp), nofun⟩
  | false =>
    obtain ⟨hcut, hgives⟩ := hq.resolve_left (by simp [hg])
    have hsent := sendAll_aligned hfit hgives (h.all (by simp [hg, hcut]))
    have hout : (s.round env).controller.out =
        (sendAll (s.controller.answers env) s.controller.out).2 := by
      simp [Link.round, hg, iterate_out]
    rw [hout]
    refine hsent.weaken fun hopen => ?_
    simpa [Link.round, hcut] using (Bool.or_eq_false_iff.mp hopen).2

/-- **The first that a round sends is a response to the request under way.** -/
theorem Link.round_answered {env : RoundEnv} {command : CtrlInfo} {answers : List Message}
    (h : s.Answered command answers) (hfits : env.recv.Fits s.controller.wire)
    (hq : s.RoundSmooth env) :
    (s.round env).Answered command (answers ++ (s.controller.answers env).map Prod.snd) := by
  obtain ⟨hastray, hwhole, -⟩ := hq
  have hproduced : ∀ p ∈ s.produced, p ∈ (s.round env).produced :=
    fun p hp => List.mem_append_left _ hp
  cases answers with
  | cons a rest => exact h.append (t := s.round env) rfl hproduced _
  | nil =>
    obtain ⟨hpend, hstream⟩ := h
    obtain ⟨hiterate, hanswers, hnone⟩ | hanswers | ⟨hcommand, htaken, hret, hproduces⟩ :=
      round_command (m := command.message) command.size (hpend.imp_right And.left) hstream hfits
        hwhole hastray
    · -- the connection is lost
      rw [hanswers]
      refine ⟨?_, ?_⟩
      · simpa [Link.round, hiterate, hnone] using hpend
      · simpa [Link.round, hiterate] using hstream
    · -- the receive failed
      rw [hanswers]
      refine ⟨rfl, fun h => ?_, fun h => ?_⟩
      · exact absurd (SocketResponse.word_inj ((leWord_leBytes _).symm.trans h)) (by decide)
      · exact absurd (SocketResponse.word_inj ((leWord_leBytes _).symm.trans h)) (by decide)
    · -- the command is executed
      have htags : s.tags = [s.begun] := by
        rcases hpend with hpend | ⟨-, htags⟩
        · rw [hpend] at hcommand
          cases hcommand
        · exact htags
      generalize hexecute : controllerExecute env.exec (ctrlCmd command.message.bytes)
        s.controller.sendData = x at hproduces
      obtain ⟨response, sendData⟩ := x
      have hown : (s.round env).Own command response (sendData.getD .empty).bytes := by
        refine ⟨⟨⟨some s.begun, response, (sendData.getD .empty).bytes⟩,
          List.mem_append_right _ ?_, rfl, rfl, rfl⟩, fun hpid => ?_⟩
        · simp [hproduces, htaken, htags]
        · change controllerExecute env.exec command.cmd s.controller.sendData = _ at hexecute
          rw [hpid] at hexecute
          cases hexecute
          exact ⟨rfl, rfl⟩
      have hword : leWord (wordMessage response.word).bytes = response.word := leWord_leBytes _
      have hanswers : s.controller.answers env = (env.response, wordMessage response.word) ::
          if response = .ok then [(env.data, sendData.getD .empty)] else [] := by
        simp [Controller.answers, hret, hproduces]
      rw [hanswers]
      refine ⟨rfl, fun h => ?_, fun h => ?_⟩
      · obtain rfl : response = .ok := SocketResponse.word_inj (hword.symm.trans h)
        exact ⟨_, _, rfl, hown⟩
      · obtain rfl : response = .quit := SocketResponse.word_inj (hword.symm.trans h)
        exact ⟨_, hown⟩

/-- **What is on the stream belongs to the request under way after a round, too.** -/
theorem Paired.round (h : Paired s) {env : RoundEnv} (hq : Smooth s (.round env))
    (ht : linkStep s (.round env) = some t) : Paired t := by
  simp only [linkStep, controllerStep, Option.ite_none_right_eq_some, Option.map_eq_some_iff] at ht
  obtain ⟨hfit, -, ⟨⟨hfd, hfinished, hfits, -⟩, -⟩, rfl⟩ := ht
  rw [Bool.not_eq_true] at hfinished
  have hproduced : ∀ p ∈ s.produced, p ∈ (s.round env).produced :=
    fun p hp => List.mem_append_left _ hp
  refine ⟨fun e he response data hresult => ?_, h.received, h.kept, ?_, ?_⟩
  · obtain ⟨p, hp, hrest⟩ := h.answered e he response data hresult
    exact ⟨p, hproduced p hp, hrest⟩
  · obtain ⟨_, _, _, _, _, _, heq⟩ := iterate_frame s.controller env
    have htags := h.tags
    simp only [Link.round, heq, Controller.receive]
    split_ifs
    · rw [List.length_tail, List.length_tail, htags]
    · exact htags
  · have hstream := h.stream
    simp only [Smooth] at hq
    simp only [Link.Stream] at hstream ⊢
    have hsame : (s.round env).client = s.client := rfl
    rw [hsame]
    cases hclient : s.client with
    | idle => trivial
    | waiting command =>
      rw [hclient] at hq hstream
      obtain ⟨answers, hanswered, haligned⟩ := hstream
      exact ⟨_, Link.round_answered hanswered hfits hq,
        Link.round_aligned haligned hfit hq.2.2 ⟨hfd, hfinished⟩⟩
    | data command =>
      rw [hclient] at hq hstream
      obtain ⟨d, rest, hown, haligned⟩ := hstream
      exact ⟨d, _, hown.mono rfl hproduced,
        Link.round_aligned haligned hfit hq.2.2 ⟨hfd, hfinished⟩⟩

/-- Fewer bytes come when the connection is lost. -/
theorem Paired.lose (h : Paired s) {controller : Controller} {tags : List ℕ} (n : ℕ)
    (hout : controller.out = s.controller.out.take n) (hclosed : controller.closed = true)
    (htags : tags.length = controller.pend.length)
    (hpending : ∀ command, s.Pending command →
      { s with controller, tags }.Pending command) :
    Paired { s with controller, tags } := by
  have hgone : { s with controller, tags }.gone = true := by simp [Link.gone, hclosed]
  refine ⟨h.answered, h.received, h.kept, htags, ?_⟩
  have hstream := h.stream
  simp only [Link.Stream] at hstream ⊢
  rw [hgone, hout]
  cases hclient : s.client with
  | idle => trivial
  | waiting command =>
    rw [hclient] at hstream
    obtain ⟨answers, hanswered, haligned⟩ := hstream
    refine ⟨answers, ?_, haligned.take n⟩
    cases answers with
    | nil =>
      obtain ⟨hpend, hstream⟩ := hpending command ⟨hanswered.pend, hanswered.stream⟩
      exact ⟨hpend, hstream⟩
    | cons a rest => exact hanswered
  | data command =>
    rw [hclient] at hstream
    obtain ⟨d, rest, hown, haligned⟩ := hstream
    exact ⟨d, rest, hown, haligned.take n⟩

/-! ### Runs -/

/-- **What a request receives is its own, whatever else happens.** -/
theorem Paired.step (h : Paired s) {op : LinkOp} (hq : Smooth s op) (ht : linkStep s op = some t) :
    Paired t := by
  cases op with
  | request command connect env => exact h.request hq ht
  | round env => exact h.round hq ht
  | response env =>
    cases hclient : s.client with
    | waiting command =>
      simp only [linkStep, hclient] at ht
      obtain ⟨⟨hfits, -⟩, heq⟩ := Option.ite_none_right_eq_some.mp ht
      cases heq
      exact h.response hclient hfits hq
    | idle => simp [linkStep, hclient] at ht
    | data _ => simp [linkStep, hclient] at ht
  | data env =>
    cases hclient : s.client with
    | data command =>
      simp only [linkStep, hclient] at ht
      obtain ⟨⟨hfits, -⟩, heq⟩ := Option.ite_none_right_eq_some.mp ht
      cases heq
      exact h.data hclient hfits hq
    | idle => simp [linkStep, hclient] at ht
    | waiting _ => simp [linkStep, hclient] at ht
  | cut up down =>
    simp only [linkStep, controllerStep, Option.ite_none_right_eq_some, Option.map_eq_some_iff,
      Option.some.injEq] at ht
    obtain ⟨-, ⟨-, rfl⟩, rfl⟩ := ht
    refine h.lose down rfl rfl h.tags fun command hpending => ⟨hpending.pend, fun hastray => ?_⟩
    exact (hpending.stream hastray).take up
  | launch =>
    simp only [linkStep] at ht
    split_ifs at ht
    cases ht
    refine h.lose s.controller.out.length (List.take_length).symm rfl rfl fun command _ =>
      ⟨.inl rfl, fun _ => ⟨List.nil_prefix, fun _ => rfl⟩⟩

/-- **In a run in which every request begins on a clear connection or a new one, no transfer is
short, the controller gives up after a send that failed, no receive of a client fails on a lost
connection, and of the commands that have data only `GET_MANAGER_PID` gets as far as the data,
requests are answered by what the controller produced for them.** -/
theorem requests_paired (ops : List LinkOp) (hops : Along linkStep Smooth Link.start ops) :
    Always linkStep Link.Sound Link.start ops := by
  have hpaired := always_of_along (fun _ _ _ h hq ht => Paired.step h hq ht) paired_start hops
  exact hpaired.mono fun _ h => h.sound

/-! ### A command without data -/

/-- A command with zeros after it. -/
def zeroCommand (cmd : BitVec 8) : CtrlInfo :=
  ⟨cmd :: List.replicate 263 0, by rw [List.length_cons, List.length_replicate]⟩

/-- The whole command is sent. -/
def sendCommand : SendEnv := ⟨.moved 4, .moved 264⟩

/-- A word is received. -/
def recvWord : RecvEnv := ⟨.moved 4, 0, true, fun _ => 0, .moved 4⟩

/-- An empty message is received. -/
def recvEmpty : RecvEnv := ⟨.moved 4, 0, true, fun _ => 0, .failed⟩

/-- A round with `GET_MANAGER_PID`. -/
def roundPid : RoundEnv := { roundBytes (.moved 264) with data := ⟨.moved 4, .moved 4⟩ }

set_option maxRecDepth 20000 in
/-- `STOP` with no connection and with one, `GET_MANAGER_PID`, and a command that is not sent. -/
theorem requests_paired_pid :
    Always linkStep Link.Sound Link.start
      [.request (zeroCommand 3) false sendCommand, .request (zeroCommand 3) true sendCommand,
        .round (roundBytes (.moved 264)), .response recvWord, .data recvEmpty,
        .request (zeroCommand 7) true sendCommand, .round roundPid, .response recvWord,
        .data recvWord, .request (zeroCommand 1) true ⟨.failed, .failed⟩, .cut 0 0] :=
  requests_paired _ (by
    rintro _ ⟨⟩
    refine ⟨by decide +kernel, ?_⟩
    rintro _ ⟨⟩
    refine ⟨by decide +kernel, ?_⟩
    rintro _ ⟨⟩
    refine ⟨by decide +kernel, ?_⟩
    rintro _ ⟨⟩
    refine ⟨by decide +kernel, ?_⟩
    rintro _ ⟨⟩
    refine ⟨by decide +kernel, ?_⟩
    rintro _ ⟨⟩
    refine ⟨by decide +kernel, ?_⟩
    rintro _ ⟨⟩
    refine ⟨by decide +kernel, ?_⟩
    rintro _ ⟨⟩
    refine ⟨by decide +kernel, ?_⟩
    rintro _ ⟨⟩
    refine ⟨by decide +kernel, ?_⟩
    rintro _ ⟨⟩
    refine ⟨by decide +kernel, ?_⟩
    rintro _ ⟨⟩
    exact ⟨trivial, trivial⟩)

set_option maxRecDepth 20000 in
/-- The data of `GET_AVAIL` is empty, and is read. -/
theorem not_requests_paired_avail :
    ¬ Always linkStep Link.Sound Link.start
      [.request (zeroCommand 5) true sendCommand, .round (roundBytes (.moved 264)),
        .response recvWord, .data recvEmpty] := by
  intro h
  exact absurd (h.last rfl).received (by decide +kernel)

end HardwareDrivers.Libfpga
