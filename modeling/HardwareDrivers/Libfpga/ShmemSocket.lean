import HardwareDrivers.Theory.Transition
import HardwareDrivers.Libfpga.ShmemManager

/-!
# Messages over a socket

`libshmem_socket.c` sends a message as its length, in four bytes, and then its bytes; the
receiver takes the four bytes, and then as many as they say. `send` and `recv` may handle fewer
bytes than they are asked for, and what they return is compared with `0` only.

The two ends take turns call by call: a call of the one takes nothing from a call of the other
but the bytes that it put on the stream.

## What is proved

* `fpgaShmemSend_whole`, `fpgaShmemRecv_whole` — where all bytes are handled, a message is sent as
  a frame, and the frame is received as the message.
* `Framed.step` — the stream stays a sequence of frames, as long as nothing is short and an end
  that failed inside a frame is given up.
* `stream_sound` — then the messages received are the first of those sent.
-/

namespace HardwareDrivers.Libfpga

open Theory

/-! ### The stream -/

/-- A byte on the stream, and whether it is of a header. -/
structure WireByte where
  /-- The byte. -/
  value : BitVec 8
  /-- It is of a header. -/
  isHeader : Bool
  deriving DecidableEq

/-- A message: its length is a `socklen_t`. -/
structure Message where
  /-- Its bytes. -/
  bytes : List (BitVec 8)
  /-- Their number. -/
  length_lt : bytes.length < 2 ^ 32

/-- A message without bytes. -/
def Message.empty : Message := ⟨[], by decide⟩

/-- `len`. -/
def Message.len (m : Message) : BitVec 32 := BitVec.ofNat 32 m.bytes.length

/-- A header. -/
def headerWire (len : BitVec 32) : List WireByte := (leBytes len).map (⟨·, true⟩)

/-- What comes after it. -/
def payloadWire (bytes : List (BitVec 8)) : List WireByte := bytes.map (⟨·, false⟩)

/-- A message on the stream. -/
def Message.frame (m : Message) : List WireByte := headerWire m.len ++ payloadWire m.bytes

/-- Four bytes as a word, the lowest first. -/
def leWord : List (BitVec 8) → BitVec 32
  | [a, b, c, d] => d ++ c ++ b ++ a
  | _ => 0

/-- What a call of `send` or `recv` does. -/
inductive Transfer where
  /-- It handles so many bytes. -/
  | moved (n : ℕ)
  /-- The connection is lost: it returns `0`. -/
  | lost
  /-- It fails: it returns `-1`. -/
  | failed
  deriving DecidableEq

/-- What it returns, as an `int`. -/
def Transfer.ret : Transfer → ℤ
  | .moved n => (BitVec.ofNat 32 n).toInt
  | .lost => 0
  | .failed => -1

/-- How many bytes it handles. -/
def Transfer.count : Transfer → ℕ
  | .moved n => n
  | _ => 0

/-- It handles a byte at least, and no more than this. -/
def Transfer.Fits (most : ℕ) : Transfer → Prop
  | .moved n => 0 < n ∧ n ≤ most
  | _ => True

instance (most : ℕ) (t : Transfer) : Decidable (t.Fits most) := by
  cases t with
  | moved n => exact inferInstanceAs (Decidable (0 < n ∧ n ≤ most))
  | lost => exact .isTrue trivial
  | failed => exact .isTrue trivial

/-! ### The calls -/

/-- The transfers of a call of `fpga_shmem_send`. -/
structure SendEnv where
  /-- That of the header. -/
  header : Transfer
  /-- That of the data. -/
  data : Transfer

/-- `fpga_shmem_send`: whether it returns `0`, and the stream. -/
def fpgaShmemSend (env : SendEnv) (m : Message) (wire : List WireByte) : Bool × List WireByte :=
  let wire := wire ++ (headerWire m.len).take env.header.count
  if env.header.ret ≤ 0 then (false, wire)
  else if m.len = 0 then (true, wire)
  else
    let wire := wire ++ (payloadWire m.bytes).take env.data.count
    (decide (¬ env.data.ret ≤ 0), wire)

/-- What happens in a call of `fpga_shmem_recv`. -/
structure RecvEnv where
  /-- The transfer of the header. -/
  header : Transfer
  /-- What is in `len` at the start. -/
  junk : BitVec 32
  /-- `malloc` succeeds. -/
  malloc : Bool
  /-- What is in the memory that it returns. -/
  fill : ℕ → BitVec 8
  /-- The transfer of the data. -/
  data : Transfer

/-- `len` after the header. -/
def RecvEnv.len (env : RecvEnv) (wire : List WireByte) : BitVec 32 :=
  leWord ((wire.take env.header.count).map WireByte.value ++ (leBytes env.junk).drop env.header.count)

/-- The memory after the data. -/
def RecvEnv.buffer (env : RecvEnv) (wire : List WireByte) : List (BitVec 8) :=
  let rest := wire.drop env.header.count
  (rest.take env.data.count).map WireByte.value ++
    (List.range ((env.len wire).toNat - env.data.count)).map fun i => env.fill (env.data.count + i)

/-- How `fpga_shmem_recv` returns. -/
inductive RecvRet where
  /-- `0`. -/
  | ok
  /-- `1`: the connection is lost. -/
  | lost
  /-- `-1` or `-FAILURE_MEMORY_ALLOC`. -/
  | error
  deriving DecidableEq

/-- `fpga_shmem_recv`: what it returns, `*pdata`, `*plen` and the stream. Memory that it allocates
is given by its bytes. -/
def fpgaShmemRecv (env : RecvEnv) (pdata : Option (List (BitVec 8))) (plen : BitVec 32)
    (wire : List WireByte) : RecvRet × Option (List (BitVec 8)) × BitVec 32 × List WireByte :=
  if env.header.ret = 0 then (.lost, pdata, plen, wire)
  else if env.header.ret < 0 then (.error, pdata, plen, wire)
  else
    let len := env.len wire
    let rest := wire.drop env.header.count
    if len = 0 then (.ok, pdata, len, rest)
    else if !env.malloc then (.error, none, len, rest)
    else if env.data.ret ≤ 0 then
      (.error, some (env.buffer wire), len, rest.drop env.data.count)
    else (.ok, some (env.buffer wire), len, rest.drop env.data.count)

/-! ### Runs -/

/-- A call that ended. -/
structure CallEnd where
  /-- All its transfers handled what they were asked for. -/
  complete : Bool
  /-- It returned `0`. -/
  ok : Bool

/-- A stream and its two ends. -/
structure Stream where
  /-- The bytes that were sent and not received. -/
  wire : List WireByte
  /-- The messages for which `fpga_shmem_send` returned `0`. -/
  sent : List (List (BitVec 8))
  /-- The messages that `fpga_shmem_recv` returned with `0`. -/
  received : List (List (BitVec 8))
  /-- A call of `fpga_shmem_send` failed after its header. -/
  sendCut : Bool
  /-- A call of `fpga_shmem_recv` failed after its header. -/
  recvCut : Bool
  /-- A byte that is of no header was taken for one of a header. -/
  misread : Bool
  /-- The calls that ended. -/
  log : List CallEnd

/-- A call at one of the ends. -/
inductive StreamOp where
  /-- `fpga_shmem_send`. -/
  | send (env : SendEnv) (m : Message)
  /-- `fpga_shmem_recv`. -/
  | recv (env : RecvEnv)

/-- The transfers of a send are possible. -/
def SendEnv.Fits (env : SendEnv) (m : Message) : Prop :=
  env.header.Fits 4 ∧ env.data.Fits m.bytes.length

/-- Those of a receive are. -/
def RecvEnv.Fits (env : RecvEnv) (wire : List WireByte) : Prop :=
  env.header.Fits (min 4 wire.length) ∧
    env.data.Fits (min (env.len wire).toNat (wire.length - env.header.count))

instance (env : SendEnv) (m : Message) : Decidable (env.Fits m) := inferInstanceAs (Decidable (_ ∧ _))

instance (env : RecvEnv) (wire : List WireByte) : Decidable (env.Fits wire) :=
  inferInstanceAs (Decidable (_ ∧ _))

/-- A send handles all bytes. -/
def SendEnv.Complete (env : SendEnv) (m : Message) : Bool :=
  env.header.count = 4 && (m.len = 0 || env.data.count = m.bytes.length)

/-- A receive handles all bytes. -/
def RecvEnv.Complete (env : RecvEnv) (wire : List WireByte) : Bool :=
  env.header.count = 4 && (env.len wire = 0 || env.data.count = (env.len wire).toNat)

/-- A call. -/
def streamStep (s : Stream) : StreamOp → Option Stream
  | .send env m =>
    if env.Fits m then
      let (ok, wire) := fpgaShmemSend env m s.wire
      some { s with
        wire
        sent := if ok then s.sent ++ [m.bytes] else s.sent
        sendCut := s.sendCut || (!ok && decide (0 < env.header.ret))
        log := s.log ++ [⟨env.Complete m, ok⟩] }
    else none
  | .recv env =>
    if env.Fits s.wire then
      let (ret, pdata, len, wire) := fpgaShmemRecv env none 0 s.wire
      some { s with
        wire
        received := if ret = .ok then
          s.received ++ [if len = 0 then [] else pdata.getD []] else s.received
        recvCut := s.recvCut || (decide (ret ≠ .ok) && decide (0 < env.header.ret))
        misread := s.misread || (s.wire.take env.header.count).any fun b => !b.isHeader
        log := s.log ++ [⟨env.Complete s.wire, ret = .ok⟩] }
    else none

/-- A stream of nothing. -/
def Stream.empty : Stream := ⟨[], [], [], false, false, false, []⟩

/-- The framing is kept. -/
structure Stream.Sound (s : Stream) : Prop where
  /-- The messages received are the first of those sent. -/
  initial : s.received <+: s.sent
  /-- A call that was short or failed returned an error. -/
  reported : ∀ e ∈ s.log, e.ok → e.complete
  /-- No payload was taken for a header. -/
  aligned : s.misread = false

/-- What is handled is all that was asked for, and an end that failed inside a frame is given up. -/
def Whole (s : Stream) : StreamOp → Prop
  | .send env m => s.sendCut = false ∧ (0 < env.header.ret → env.header.count = 4) ∧
      (0 < env.data.ret → env.data.count = m.bytes.length)
  | .recv env => s.recvCut = false ∧ (0 < env.header.ret → env.header.count = 4) ∧
      (0 < env.data.ret → env.data.count = (env.len s.wire).toNat)

instance (s : Stream) (op : StreamOp) : Decidable (Whole s op) := by
  cases op with
  | send env m => exact inferInstanceAs (Decidable (_ ∧ _))
  | recv env => exact inferInstanceAs (Decidable (_ ∧ _))

/-! ### Frames -/

@[simp] theorem length_leBytes (w : BitVec 32) : (leBytes w).length = 4 := rfl

@[simp] theorem length_headerWire (len : BitVec 32) : (headerWire len).length = 4 := rfl

@[simp] theorem length_payloadWire (bytes : List (BitVec 8)) :
    (payloadWire bytes).length = bytes.length := List.length_map ..

/-- The bytes of a word are those of no other. -/
theorem leWord_leBytes (w : BitVec 32) : leWord (leBytes w) = w := by
  unfold leWord leBytes
  refine BitVec.eq_of_getLsbD_eq fun i hi => ?_
  simp only [BitVec.getLsbD_append, BitVec.getLsbD_extractLsb']
  by_cases h₁ : i < 8
  · simp [h₁]
  · by_cases h₂ : i - 8 < 8
    · simp [h₁, h₂, show 8 + (i - 8) = i by omega]
    · by_cases h₃ : i - 8 - 8 < 8
      · simp [h₁, h₂, h₃, show 16 + (i - 8 - 8) = i by omega]
      · simp [h₁, h₂, h₃, show 24 + (i - 8 - 8 - 8) = i by omega,
          show i - 8 - 8 - 8 < 8 by omega]

@[simp] theorem Message.toNat_len (m : Message) : m.len.toNat = m.bytes.length := by
  unfold Message.len
  rw [BitVec.toNat_ofNat, Nat.mod_eq_of_lt m.length_lt]

theorem Message.bytes_of_len {m : Message} (h : m.len = 0) : m.bytes = [] := by
  have hlen := m.toNat_len
  rw [h] at hlen
  exact List.length_eq_zero_iff.mp hlen.symm

theorem Message.frame_of_len {m : Message} (h : m.len = 0) : m.frame = headerWire m.len := by
  unfold Message.frame payloadWire
  rw [m.bytes_of_len h]
  exact List.append_nil _

/-! ### Transfers -/

variable {t : Transfer} {most : ℕ}

/-- A few bytes are handled, or none. -/
theorem Transfer.Fits.header_cases (h : t.Fits most) (hmost : most ≤ 4) :
    (t.ret ≤ 0 ∧ t.count = 0) ∨ 0 < t.ret := by
  cases t with
  | moved n =>
    obtain ⟨hpos, hle⟩ := h
    have hn := hle.trans hmost
    right
    change 0 < (BitVec.ofNat 32 n).toInt
    rw [BitVec.toInt_eq_toNat_of_lt] <;> rw [BitVec.toNat_ofNat] <;> omega
  | lost => exact .inl ⟨le_refl 0, rfl⟩
  | failed => exact .inl ⟨by decide, rfl⟩

theorem Transfer.Fits.count_le (h : t.Fits most) : t.count ≤ most := by
  cases t with
  | moved n => exact h.2
  | lost => exact Nat.zero_le _
  | failed => exact Nat.zero_le _

/-- So many bytes that what is returned is no positive `int`. -/
theorem Transfer.Fits.big (h : t.Fits most) (hmost : most < 2 ^ 32) (hret : t.ret ≤ 0)
    (hcount : 0 < t.count) : 2 ^ 31 ≤ t.count := by
  cases t with
  | moved n =>
    have hlt := lt_of_le_of_lt h.2 hmost
    change 2 ^ 31 ≤ n
    change (BitVec.ofNat 32 n).toInt ≤ 0 at hret
    change 0 < n at hcount
    rw [BitVec.toInt_eq_toNat_cond, BitVec.toNat_ofNat] at hret
    split_ifs at hret <;> omega
  | lost => exact absurd hcount (lt_irrefl 0)
  | failed => exact absurd hcount (lt_irrefl 0)

/-! ### The framing -/

/-- What a send that failed after its header leaves: a frame without all its bytes, or one that is
too long for an `int`. -/
def Tail (cut : Bool) (tail : List WireByte) : Prop :=
  match cut with
  | false => tail = []
  | true => ∃ (len : BitVec 32) (bytes : List (BitVec 8)),
      tail = headerWire len ++ payloadWire bytes ∧ len ≠ 0 ∧ bytes.length ≤ len.toNat ∧
        (bytes.length = len.toNat → 2 ^ 31 ≤ len.toNat)

/-- What is on the stream are the frames that were not received. -/
structure Framed (s : Stream) : Prop where
  /-- The messages sent, and their frames. -/
  pending : ∃ pend : List Message, s.sent = s.received ++ pend.map Message.bytes ∧
    (s.recvCut = false → ∃ tail, Tail s.sendCut tail ∧ s.wire = pend.flatMap Message.frame ++ tail)
  /-- A call that was short or failed returned an error. -/
  reported : ∀ e ∈ s.log, e.ok → e.complete
  /-- No payload was taken for a header. -/
  aligned : s.misread = false

theorem Framed.sound {s : Stream} (h : Framed s) : s.Sound := by
  obtain ⟨pend, hsent, -⟩ := h.pending
  exact ⟨⟨_, hsent.symm⟩, h.reported, h.aligned⟩

theorem framed_empty : Framed Stream.empty :=
  ⟨⟨[], rfl, fun _ => ⟨[], rfl, rfl⟩⟩, fun _ he => absurd he List.not_mem_nil, rfl⟩

/-- A header that is taken as a whole is that of the frame. -/
theorem RecvEnv.len_append {env : RecvEnv} (h : env.header.count = 4) (len : BitVec 32)
    (rest : List WireByte) : env.len (headerWire len ++ rest) = len := by
  unfold RecvEnv.len
  rw [h, List.take_append_of_le_length (by simp), List.take_of_length_le (by simp),
    List.drop_of_length_le (by simp), List.append_nil]
  exact leWord_leBytes len

/-- The rest of a receive after a header that was taken as a whole. -/
theorem fpgaShmemRecv_header {env : RecvEnv} (hheader : env.header.count = 4)
    (hret : 0 < env.header.ret) (pdata : Option (List (BitVec 8))) (plen len : BitVec 32)
    (rest : List WireByte) :
    fpgaShmemRecv env pdata plen (headerWire len ++ rest) =
      if len = 0 then (.ok, pdata, len, rest)
      else if !env.malloc then (.error, none, len, rest)
      else if env.data.ret ≤ 0 then
        (.error, some (env.buffer (headerWire len ++ rest)), len, rest.drop env.data.count)
      else (.ok, some (env.buffer (headerWire len ++ rest)), len, rest.drop env.data.count) := by
  have hrest : (headerWire len ++ rest).drop env.header.count = rest := by
    rw [hheader, List.drop_append_of_le_length (by simp), List.drop_of_length_le (by simp),
      List.nil_append]
  unfold fpgaShmemRecv
  rw [if_neg hret.ne', if_neg (not_lt.mpr hret.le), env.len_append hheader, hrest]

/-- All bytes of a message are in the memory. -/
theorem RecvEnv.buffer_frame {env : RecvEnv} {m : Message} (hheader : env.header.count = 4)
    (hcount : env.data.count = m.bytes.length) (rest : List WireByte) :
    env.buffer (headerWire m.len ++ (payloadWire m.bytes ++ rest)) = m.bytes := by
  unfold RecvEnv.buffer
  dsimp only
  rw [env.len_append hheader, hheader, hcount, m.toNat_len, Nat.sub_self, List.range_zero,
    List.map_nil, List.append_nil, List.drop_append_of_le_length (by simp),
    List.drop_of_length_le (by simp), List.nil_append, List.take_append_of_le_length (by simp),
    List.take_of_length_le (by simp)]
  unfold payloadWire
  rw [List.map_map]
  exact List.map_id _

/-- **A send that handles all bytes puts a frame on the stream.** -/
theorem fpgaShmemSend_whole {env : SendEnv} {m : Message} (hfits : env.Fits m)
    (hheader : 0 < env.header.ret → env.header.count = 4)
    (hdata : 0 < env.data.ret → env.data.count = m.bytes.length) (wire : List WireByte) :
    fpgaShmemSend env m wire = (false, wire) ∧ env.header.ret ≤ 0 ∨
      fpgaShmemSend env m wire = (true, wire ++ m.frame) ∧ env.Complete m = true ∨
      ∃ tail, fpgaShmemSend env m wire = (false, wire ++ tail) ∧ 0 < env.header.ret ∧
        Tail true tail := by
  obtain ⟨hfh, hfd⟩ := hfits
  unfold fpgaShmemSend
  dsimp only
  obtain ⟨hret, hcount⟩ | hret := hfh.header_cases (le_refl 4)
  · rw [if_pos hret, hcount]
    exact .inl ⟨by rw [List.take_zero, List.append_nil], hret⟩
  · rw [if_neg (not_le.mpr hret), hheader hret, List.take_of_length_le (by simp)]
    unfold SendEnv.Complete
    by_cases hlen : m.len = 0
    · rw [if_pos hlen, m.frame_of_len hlen]
      exact .inr (.inl ⟨rfl, by simp [hheader hret, hlen]⟩)
    · rw [if_neg hlen]
      by_cases hd : env.data.ret ≤ 0
      · refine .inr (.inr ⟨headerWire m.len ++ (payloadWire m.bytes).take env.data.count, ?_, hret,
          m.len, m.bytes.take env.data.count, ?_, hlen, ?_, ?_⟩)
        · simp [hd]
        · unfold payloadWire
          rw [List.map_take]
        · rw [m.toNat_len]
          exact List.length_take_le' _ _
        · rw [m.toNat_len, List.length_take, Nat.min_eq_left hfd.count_le]
          intro heq
          rw [← heq]
          refine hfd.big m.length_lt hd (heq ▸ ?_)
          rw [← m.toNat_len]
          exact Nat.pos_of_ne_zero fun hz => hlen (BitVec.eq_of_toNat_eq hz)
      · have hcount := hdata (not_le.mp hd)
        rw [hcount, List.take_of_length_le (by simp)]
        exact .inr (.inl ⟨by simp [hd, Message.frame], by simp [hheader hret]⟩)

/-- **A frame is received as its message, or there is an error.** -/
theorem fpgaShmemRecv_whole {env : RecvEnv} {m : Message} (hheader : env.header.count = 4)
    (hret : 0 < env.header.ret) (hdata : 0 < env.data.ret → env.data.count = m.bytes.length)
    (pdata : Option (List (BitVec 8))) (plen : BitVec 32) (rest : List WireByte) :
    (∃ pdata', fpgaShmemRecv env pdata plen (m.frame ++ rest) = (.ok, pdata', m.len, rest) ∧
        (if m.len = 0 then [] else pdata'.getD []) = m.bytes ∧
        env.Complete (m.frame ++ rest) = true) ∨
      (fpgaShmemRecv env pdata plen (m.frame ++ rest)).1 = .error := by
  unfold Message.frame RecvEnv.Complete
  rw [List.append_assoc, fpgaShmemRecv_header hheader hret, env.len_append hheader]
  by_cases hz : m.len = 0
  · rw [if_pos hz]
    refine .inl ⟨pdata, ?_, ?_, by simp [hheader, hz]⟩
    · rw [m.bytes_of_len hz]
      rfl
    · rw [if_pos hz, m.bytes_of_len hz]
  · rw [if_neg hz]
    by_cases hmalloc : env.malloc = true
    · rw [hmalloc]
      by_cases hd : env.data.ret ≤ 0
      · right
        rw [if_pos hd]
        rfl
      · have hcount := hdata (not_le.mp hd)
        rw [if_neg hd, env.buffer_frame hheader hcount]
        refine .inl ⟨some m.bytes, ?_, if_neg hz, by simp [hheader, hcount]⟩
        rw [hcount, List.drop_append_of_le_length (by simp), List.drop_of_length_le (by simp)]
        rfl
    · right
      simp [hmalloc]

/-! ### Runs -/

variable {s u : Stream}

theorem Framed.send (h : Framed s) {env : SendEnv} {m : Message} (hq : Whole s (.send env m))
    (ht : streamStep s (.send env m) = some u) : Framed u := by
  obtain ⟨hcut, hheader, hdata⟩ := hq
  obtain ⟨⟨pend, hsent, hwire⟩, hreported, haligned⟩ := h
  simp only [streamStep, Option.ite_none_right_eq_some, Option.some.injEq] at ht
  obtain ⟨hfits, rfl⟩ := ht
  rw [hcut] at hwire
  obtain ⟨hcall, hret⟩ | ⟨hcall, hcomplete⟩ | ⟨tail, hcall, hret, htail⟩ :=
    fpgaShmemSend_whole hfits hheader hdata s.wire
  · -- nothing was sent
    refine ⟨⟨pend, ?_, fun hrecv => ?_⟩, ?_, haligned⟩
    · rw [hcall]
      exact hsent
    · obtain ⟨tail, htail, hwire⟩ := hwire hrecv
      rw [hcall, hcut]
      refine ⟨tail, ?_, hwire⟩
      simpa [not_lt.mpr hret] using htail
    · rw [hcall]
      exact List.forall_mem_append.mpr ⟨hreported, List.forall_mem_singleton.mpr nofun⟩
  · -- the message was sent
    refine ⟨⟨pend ++ [m], ?_, fun hrecv => ?_⟩, ?_, haligned⟩
    · rw [hcall]
      simp [hsent]
    · obtain ⟨tail, htail, hwire⟩ := hwire hrecv
      obtain rfl : tail = [] := htail
      rw [hcall, hcut]
      refine ⟨[], rfl, ?_⟩
      simp [hwire]
    · rw [hcall]
      exact List.forall_mem_append.mpr
        ⟨hreported, List.forall_mem_singleton.mpr fun _ => hcomplete⟩
  · -- the call failed after the header
    refine ⟨⟨pend, ?_, fun hrecv => ?_⟩, ?_, haligned⟩
    · rw [hcall]
      exact hsent
    · obtain ⟨tail', htail', hwire⟩ := hwire hrecv
      obtain rfl : tail' = [] := htail'
      rw [hcall, hcut]
      refine ⟨tail, ?_, ?_⟩
      · simpa [hret] using htail
      · rw [hwire, List.append_nil]
    · rw [hcall]
      exact List.forall_mem_append.mpr ⟨hreported, List.forall_mem_singleton.mpr nofun⟩

/-- A header of a frame is one. -/
theorem any_take_headerWire (len : BitVec 32) (rest : List WireByte) :
    ((headerWire len ++ rest).take 4).any (fun b => !b.isHeader) = false := by
  rw [List.take_append_of_le_length (by simp), List.take_of_length_le (by simp)]
  rfl

/-- Of a frame that was not sent as a whole nothing is received. -/
theorem fpgaShmemRecv_tail {env : RecvEnv} {tail : List WireByte} (htail : Tail true tail)
    (hheader : env.header.count = 4) (hret : 0 < env.header.ret) (hfits : env.Fits tail)
    (hdata : 0 < env.data.ret → env.data.count = (env.len tail).toNat)
    (pdata : Option (List (BitVec 8))) (plen : BitVec 32) :
    (fpgaShmemRecv env pdata plen tail).1 = .error ∧
      (tail.take env.header.count).any (fun b => !b.isHeader) = false := by
  obtain ⟨len, bytes, rfl, hlen, hle, hbig⟩ := htail
  have hd := hfits.2
  rw [env.len_append hheader] at hdata hd
  refine ⟨?_, hheader ▸ any_take_headerWire len _⟩
  rw [fpgaShmemRecv_header hheader hret, if_neg hlen]
  by_cases hmalloc : env.malloc = true
  · rw [hmalloc]
    have hshort : env.data.ret ≤ 0 := by
      by_contra hpos
      have hcount := hdata (not_le.mp hpos)
      have hmost := hd.count_le
      rw [List.length_append, length_headerWire, length_payloadWire, hheader,
        Nat.add_sub_cancel_left] at hmost
      have hbytes : bytes.length = len.toNat := by omega
      have hlarge := hbig hbytes
      -- so many bytes are no positive number
      cases hdt : env.data with
      | moved n =>
        rw [hdt] at hcount hpos
        change n = len.toNat at hcount
        apply hpos
        change (BitVec.ofNat 32 n).toInt ≤ 0
        have hlt := len.isLt
        rw [BitVec.toInt_eq_toNat_cond, BitVec.toNat_ofNat, hcount]
        split_ifs <;> omega
      | lost =>
        rw [hdt] at hpos
        exact hpos (le_refl 0)
      | failed =>
        rw [hdt] at hpos
        exact hpos (by decide)
    rw [if_pos hshort]
    rfl
  · simp [hmalloc]

/-- A receive that gets no header changes nothing. -/
theorem fpgaShmemRecv_none {env : RecvEnv} (hret : env.header.ret ≤ 0)
    (pdata : Option (List (BitVec 8))) (plen : BitVec 32) (wire : List WireByte) :
    (fpgaShmemRecv env pdata plen wire).1 ≠ .ok ∧
      (fpgaShmemRecv env pdata plen wire).2 = (pdata, plen, wire) := by
  unfold fpgaShmemRecv
  by_cases hz : env.header.ret = 0
  · rw [if_pos hz]
    exact ⟨nofun, rfl⟩
  · rw [if_neg hz, if_pos (lt_of_le_of_ne hret hz)]
    exact ⟨nofun, rfl⟩

theorem Framed.recv (h : Framed s) {env : RecvEnv} (hq : Whole s (.recv env))
    (ht : streamStep s (.recv env) = some u) : Framed u := by
  obtain ⟨hcut, hheader, hdata⟩ := hq
  obtain ⟨⟨pend, hsent, hwire⟩, hreported, haligned⟩ := h
  obtain ⟨tail, htail, hwire⟩ := hwire hcut
  simp only [streamStep, Option.ite_none_right_eq_some, Option.some.injEq] at ht
  obtain ⟨hfits, rfl⟩ := ht
  have hfailed : ∀ {complete ok : Bool}, ok = false → ∀ e ∈ s.log ++ [⟨complete, ok⟩], e.ok →
      e.complete := by
    rintro complete ok rfl e he hok
    obtain he | rfl := List.mem_append.mp he |>.imp_right List.mem_singleton.mp
    · exact hreported e he hok
    · cases hok
  obtain ⟨hret, hcount⟩ | hret := hfits.1.header_cases (min_le_left ..)
  · obtain ⟨hnot, hrest⟩ := fpgaShmemRecv_none hret none 0 s.wire
    generalize fpgaShmemRecv env none 0 s.wire = out at hnot hrest ⊢
    obtain ⟨ret, pdata, len, wire⟩ := out
    cases hrest
    refine ⟨⟨pend, ?_, fun _ => ⟨tail, htail, hwire⟩⟩, hfailed (decide_eq_false hnot), ?_⟩
    · rw [if_neg hnot]
      exact hsent
    · simpa [hcount] using haligned
  · have hfour := hheader hret
    cases pend with
    | nil =>
      rw [List.flatMap_nil, List.nil_append] at hwire
      have hmost := hfits.1.count_le
      have hcutTrue : s.sendCut = true := by
        by_contra hfalse
        rw [Bool.not_eq_true] at hfalse
        rw [hfalse] at htail
        obtain rfl : tail = [] := htail
        rw [hwire, hfour, List.length_nil] at hmost
        omega
      rw [hcutTrue] at htail
      rw [hwire] at hfits hdata
      obtain ⟨herror, hany⟩ := fpgaShmemRecv_tail htail hfour hret hfits hdata none 0
      rw [← hwire] at herror hany
      generalize fpgaShmemRecv env none 0 s.wire = out at herror ⊢
      obtain ⟨ret, pdata, len, wire⟩ := out
      obtain rfl : ret = .error := herror
      refine ⟨⟨[], hsent, fun hrecv => ?_⟩, hfailed rfl, ?_⟩
      · simp [hret] at hrecv
      · simp [haligned, hany]
    | cons m pend =>
      rw [List.flatMap_cons, List.append_assoc] at hwire
      have hlen : env.len s.wire = m.len := by
        rw [hwire]
        unfold Message.frame
        rw [List.append_assoc]
        exact env.len_append hfour ..
      have hany : (s.wire.take env.header.count).any (fun b => !b.isHeader) = false := by
        rw [hwire, hfour]
        unfold Message.frame
        rw [List.append_assoc]
        exact any_take_headerWire ..
      rw [hlen, m.toNat_len] at hdata
      obtain ⟨pdata, hcall, hbytes, hcomplete⟩ | herror :=
        fpgaShmemRecv_whole hfour hret hdata none 0 (pend.flatMap Message.frame ++ tail)
      · rw [← hwire] at hcall hcomplete
        rw [hcall]
        refine ⟨⟨pend, ?_, fun _ => ⟨tail, htail, rfl⟩⟩, ?_, ?_⟩
        · rw [if_pos rfl, hbytes, hsent]
          simp
        · intro e he hok
          obtain he | rfl := List.mem_append.mp he |>.imp_right List.mem_singleton.mp
          · exact hreported e he hok
          · exact hcomplete
        · simp [haligned, hany]
      · rw [← hwire] at herror
        generalize fpgaShmemRecv env none 0 s.wire = out at herror ⊢
        obtain ⟨ret, pdata, len, wire⟩ := out
        obtain rfl : ret = .error := herror
        refine ⟨⟨m :: pend, hsent, fun hrecv => ?_⟩, hfailed rfl, ?_⟩
        · simp [hret] at hrecv
        · simp [haligned, hany]

/-- **The stream stays a sequence of frames.** -/
theorem Framed.step (h : Framed s) {op : StreamOp} (hq : Whole s op)
    (ht : streamStep s op = some u) : Framed u := by
  cases op with
  | send env m => exact h.send hq ht
  | recv env => exact h.recv hq ht

/-- **In a run in which nothing is short, and an end that failed inside a frame is given up, the
messages received are the first of those sent.** -/
theorem stream_sound (ops : List StreamOp) (hops : Along streamStep Whole Stream.empty ops) :
    Always streamStep Stream.Sound Stream.empty ops := by
  have hframed := always_of_along (fun _ _ _ h hq ht => Framed.step h hq ht) framed_empty hops
  exact hframed.mono fun _ h => h.sound

/-! ### A short transfer -/

/-- Two bytes. -/
def twoBytes : Message := ⟨[1, 2], by decide⟩

/-- A receive for which so many bytes of the data are there. -/
def recvBytes (n : ℕ) : RecvEnv := ⟨.moved 4, 0, true, fun _ => 0, .moved n⟩

/-- A message, a call that fails, and an empty message. -/
theorem stream_sound_two :
    Always streamStep Stream.Sound Stream.empty
      [.send ⟨.moved 4, .moved 2⟩ twoBytes, .send ⟨.failed, .failed⟩ twoBytes,
        .send ⟨.moved 4, .failed⟩ .empty, .recv (recvBytes 2),
        .recv ⟨.moved 4, 7, true, fun _ => 0, .failed⟩] :=
  stream_sound _ (by
    rintro _ ⟨⟩
    refine ⟨by decide, ?_⟩
    rintro _ ⟨⟩
    refine ⟨by decide, ?_⟩
    rintro _ ⟨⟩
    refine ⟨by decide, ?_⟩
    rintro _ ⟨⟩
    refine ⟨by decide, ?_⟩
    rintro _ ⟨⟩
    exact ⟨by decide, trivial⟩)

/-- Of two bytes one is received, and the call returns `0`. -/
theorem not_stream_sound_short :
    ¬ Always streamStep Stream.Sound Stream.empty
      [.send ⟨.moved 4, .moved 2⟩ twoBytes, .recv (recvBytes 1)] := by
  intro h
  have hlast := h.last rfl
  exact absurd hlast.initial (by decide)

end HardwareDrivers.Libfpga
