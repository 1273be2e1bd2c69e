import HardwareDrivers.Libfpga.Dma
import HardwareDrivers.Theory.BoundedFifo

/-!
# The command queue is a bounded queue

One ring, from its start on: calls of `fpga_enqueue`, passes of `fpga_dequeue`, and
the hardware executing the ready descriptors in ring order, in any order. Nothing
counts the commands: the ring is full when the descriptor under `writehead` has a
`task_id`, and has a result when the one under `readhead` is done. The run is
followed in a bounded queue, whose history of accepted commands is what the
successful calls wrote.

## What is proved

* `Refines.step_cases` — every step is a step of the bounded queue, or none.
* `always_isFifo` — delivered commands are the accepted ones in order, no outstanding
  descriptor is touched, a call finds the queue full exactly if `size` commands
  are accepted and not delivered and is accepted otherwise, and a pass delivers the
  oldest command exactly if it is done.
-/

namespace HardwareDrivers.Libfpga

open Driver Theory

/-! ### The system -/

/-- What a command asks of the hardware. -/
structure Command where
  /-- The task. -/
  taskId : ℕ
  /-- The length. -/
  len : ℕ
  /-- The physical address. -/
  addr : ℕ
  deriving DecidableEq, Repr

/-- A ring with the hardware's position in it and the commands that went in and out. -/
structure QueueSystem where
  /-- The ring in shared memory. -/
  queue : FpgaQueue
  /-- The descriptor the hardware looks at. -/
  device : ℕ
  /-- The commands successful calls of `fpga_enqueue` wrote, in order. -/
  enqueued : List Command
  /-- The commands successful calls of `fpga_dequeue` read, in order. -/
  delivered : List Command

/-- A ring just started, the hardware at its heads. -/
def QueueSystem.init (size h : ℕ) : QueueSystem := ⟨.init size h, h, [], []⟩

/-- What happens to the ring. The address maps a call sees are those of its moment. A call of
`fpga_dequeue` delivers in its last pass, if at all (`fpgaDequeue_ok`). -/
inductive QueueOp where
  /-- `fpga_enqueue` of what `set_dma_cmd` prepared. -/
  | enqueue (m : ShmemMaps) (taskId : BitVec 16) (dataAddr : BitVec 64) (dataLen : BitVec 32)
  /-- A pass of `fpga_dequeue`. -/
  | dequeue (m : ShmemMaps)
  /-- The hardware executes the descriptor it looks at. -/
  | complete

/-- One step: the command must have a `task_id`, the descriptor of the hardware must be ready. -/
def queueStep (pm : PageMap) (s : QueueSystem) : QueueOp → Option QueueSystem
  | .enqueue m taskId dataAddr dataLen =>
    let cmd := setDmaCmd .zero taskId dataAddr dataLen
    if taskId = 0 then none
    else
      match fpgaEnqueue pm m s.queue cmd with
      | (.error _, queue) => some { s with queue }
      | (.ok _, queue) =>
        some { s with
          queue
          enqueued := s.enqueued ++
            [⟨cmd.taskId, cmd.dataLen, (dmaPaFromVa m cmd.dataAddr cmd.dataLen).1⟩] }
  | .dequeue m =>
    match dequeuePass m s.queue .zero with
    | none => some s
    | some (cmd, queue) =>
      some { s with
        queue
        delivered := s.delivered ++
          [⟨cmd.resultTaskId, cmd.resultDataLen, (s.queue.ring s.queue.readhead).addr⟩] }
  | .complete =>
    if (s.queue.ring s.device).op = .ready then
      some { s with queue := completeDesc s.queue s.device, device := s.queue.nextHead s.device }
    else none

/-! ### The bounded queue behind it -/

/-- The descriptor of a command. -/
def Command.desc (done : Bool) (c : Command) : FpgaDesc :=
  ⟨c.taskId, if done then .done else .ready, 0, c.len, c.addr⟩

/-- The state of the ring that went `h` positions ahead is the bounded queue `f`. -/
structure Refines (size h : ℕ) (s : QueueSystem) (f : BoundedFifo Command size) : Prop where
  /-- The size does not change. -/
  size_eq : s.queue.size = size
  /-- The slots hold the outstanding commands. -/
  holds : f.Holds h FpgaDesc.zero Command.desc s.queue.ring
  /-- The next command to deliver. -/
  readhead : s.queue.readhead = slot size h f.delivered
  /-- The next free slot. -/
  writehead : s.queue.writehead = slot size h f.accepted.length
  /-- The next command to execute. -/
  device : s.device = slot size h f.completed
  /-- What went in. -/
  enqueued : s.enqueued = f.accepted
  /-- What came out. -/
  delivered : s.delivered = f.out
  /-- Every command has a task. -/
  taskId_ne : ∀ c ∈ f.accepted, c.taskId ≠ 0

variable {pm : PageMap} {size h : ℕ} {s t : QueueSystem} {f : BoundedFifo Command size}

theorem refines_init (hh : h < size) : Refines size h (.init size h) .empty where
  size_eq := rfl
  holds := .empty (fun _ _ => rfl) (by omega)
  readhead := (slot_zero hh).symm
  writehead := (slot_zero hh).symm
  device := (slot_zero hh).symm
  enqueued := rfl
  delivered := rfl
  taskId_ne _ hc := by cases hc

/-- The next head is the next slot. -/
theorem nextHead_slot {q : FpgaQueue} (hq : q.size = size) (hs : 0 < size) (hlt : size < 2 ^ 16)
    (t : ℕ) : q.nextHead (slot size h t) = slot size h (t + 1) := by
  have hle := slot_lt hs h t
  rw [← slot_succ hs, FpgaQueue.nextHead, hq, Nat.mod_eq_of_lt (by omega)]

/-- The ring is full exactly if the descriptor under `writehead` has a `task_id`. -/
theorem Refines.full_iff (H : Refines size h s f) (hs : 0 < size) :
    f.Full ↔ (s.queue.ring s.queue.writehead).taskId ≠ 0 := by
  rw [H.writehead]
  rcases H.holds.next hs with ⟨hf, c, hc, b, hr⟩ | ⟨hf, hr⟩
  · rw [hr]
    exact ⟨fun _ => H.taskId_ne c hc, fun _ => hf⟩
  · rw [hr]
    exact ⟨fun h => absurd h hf, fun h => absurd rfl h⟩

/-- A command can be delivered exactly if the descriptor under `readhead` is done. -/
theorem Refines.done_iff (H : Refines size h s f) (hs : 0 < size) :
    f.delivered < f.completed ↔ (s.queue.ring s.queue.readhead).op = .done := by
  rw [H.readhead]
  rcases Nat.lt_or_ge f.delivered f.accepted.length with hlt | hge
  · rw [H.holds.live _ hlt (Nat.le_refl _)]
    by_cases hd : f.delivered < f.completed
    · simp [Command.desc, hd]
    · simp [Command.desc, hd]
  · have hcl := f.completed_le
    rw [H.holds.free _ hge (by omega)]
    constructor
    · intro hd
      omega
    · nofun

/-- A command can be executed exactly if the descriptor of the hardware is ready. -/
theorem Refines.ready_iff (H : Refines size h s f) (hs : 0 < size) :
    f.completed < f.accepted.length ↔ (s.queue.ring s.device).op = .ready := by
  rw [H.device]
  have hdc := f.delivered_le
  rcases Nat.lt_or_ge f.completed f.accepted.length with hlt | hge
  · rw [H.holds.live _ hlt hdc]
    simp [Command.desc, hlt]
  · -- everything accepted is executed: the slot is free, or the queue is full and holds the
    -- oldest command there, which is done
    have hcl := f.completed_le
    have hle := f.length_le
    have hc : f.completed = f.accepted.length := by omega
    simp only [hc, Nat.lt_irrefl, false_iff]
    by_cases hf : f.Full
    · unfold BoundedFifo.Full at hf
      rw [hf, slot_add_size, H.holds.live f.delivered (by omega) (Nat.le_refl _)]
      have hd : f.delivered < f.completed := by omega
      simp [Command.desc, hd]
    · unfold BoundedFifo.Full at hf
      rw [H.holds.free _ (Nat.le_refl _) (by omega)]
      nofun

/-- A command goes in. -/
theorem Refines.put (H : Refines size h s f) (hs : 0 < size) (hlt : size < 2 ^ 16) {c : Command}
    (hnf : ¬ f.Full) (hc : c.taskId ≠ 0) :
    Refines size h { s with
      queue := { s.queue with
        writehead := s.queue.nextHead s.queue.writehead
        ring := Function.update s.queue.ring s.queue.writehead (c.desc false) }
      enqueued := s.enqueued ++ [c] } (f.put c hnf) where
  size_eq := H.size_eq
  holds := by
    rw [H.writehead]
    exact H.holds.put c hnf
  readhead := H.readhead
  writehead := by
    show s.queue.nextHead s.queue.writehead = slot size h (f.accepted ++ [c]).length
    rw [H.writehead, nextHead_slot H.size_eq hs hlt, List.length_append]
    rfl
  device := H.device
  enqueued := congrArg (· ++ [c]) H.enqueued
  delivered := H.delivered.trans (BoundedFifo.out_put f c hnf).symm
  taskId_ne := List.forall_mem_append.mpr ⟨H.taskId_ne, List.forall_mem_singleton.mpr hc⟩

/-- The next command comes out. -/
theorem Refines.take (H : Refines size h s f) (hs : 0 < size) (hlt : size < 2 ^ 16)
    (hd : f.delivered < f.completed) :
    Refines size h { s with
      queue := { s.queue with
        readhead := s.queue.nextHead s.queue.readhead
        ring := Function.update s.queue.ring s.queue.readhead .zero }
      delivered := s.delivered ++ [f.accepted.get ⟨f.delivered, f.lt_length hd⟩] } (f.take hd) where
  size_eq := H.size_eq
  holds := by
    rw [H.readhead]
    exact H.holds.take hd
  readhead := by
    show s.queue.nextHead s.queue.readhead = slot size h (f.delivered + 1)
    rw [H.readhead, nextHead_slot H.size_eq hs hlt]
  writehead := H.writehead
  device := H.device
  enqueued := H.enqueued
  delivered := by
    rw [BoundedFifo.out_take, H.delivered]
  taskId_ne := H.taskId_ne

/-- The next command is executed. -/
theorem Refines.complete (H : Refines size h s f) (hs : 0 < size) (hlt : size < 2 ^ 16)
    (hc : f.completed < f.accepted.length) :
    Refines size h { s with
      queue := completeDesc s.queue s.device
      device := s.queue.nextHead s.device } (f.complete hc) where
  size_eq := H.size_eq
  holds := by
    have hslot := H.holds.live f.completed hc f.delivered_le
    have hdone : { s.queue.ring s.device with op := CmdOp.done } =
        Command.desc true f.accepted[f.completed] := by
      rw [H.device, hslot]
      rfl
    show (f.complete hc).Holds h FpgaDesc.zero Command.desc
      (Function.update s.queue.ring s.device _)
    rw [hdone, H.device]
    exact H.holds.complete hc
  readhead := H.readhead
  writehead := H.writehead
  device := by
    show s.queue.nextHead s.device = slot size h (f.completed + 1)
    rw [H.device, nextHead_slot H.size_eq hs hlt]
  enqueued := H.enqueued
  delivered := H.delivered
  taskId_ne := H.taskId_ne

/-- A descriptor without a task is clear, and the queue is not full. -/
theorem Refines.writehead_zero (H : Refines size h s f) (hs : 0 < size)
    (htask : (s.queue.ring s.queue.writehead).taskId = 0) :
    ¬ f.Full ∧ s.queue.ring s.queue.writehead = .zero := by
  have hnf : ¬ f.Full := fun hf => (H.full_iff hs).mp hf htask
  rw [H.writehead]
  rcases H.holds.next hs with ⟨hf, -⟩ | ⟨-, hr⟩
  · exact absurd hf hnf
  · exact ⟨hnf, hr⟩

/-- What `fpga_enqueue` fills into a clear descriptor. -/
theorem fill_zero (taskId : BitVec 16) (dataAddr : BitVec 64) (dataLen : BitVec 32) {pa : ℕ}
    (hpa : pa ≠ 0) : FpgaDesc.fill .zero (setDmaCmd .zero taskId dataAddr dataLen) pa =
      Command.desc false ⟨taskId.toNat, dataLen.toNat, pa⟩ := by
  have htask : taskId.toNat < 2 ^ 16 := taskId.isLt
  simp only [FpgaDesc.fill, setDmaCmd, Command.desc, if_neg hpa, Nat.mod_eq_of_lt htask]
  rfl

/-- **One step of the ring** is one step of the bounded queue, or leaves it as it is. -/
theorem Refines.step_cases (hs : 0 < size) (hlt : size < 2 ^ 16) (H : Refines size h s f)
    {op : QueueOp} (ht : queueStep pm s op = some t) :
    Refines size h t f ∨ (∃ c hf, Refines size h t (f.put c hf)) ∨
    (∃ hc, Refines size h t (f.complete hc)) ∨ (∃ hd, Refines size h t (f.take hd)) := by
  cases op with
  | enqueue m taskId dataAddr dataLen =>
    simp only [queueStep, fpgaEnqueue] at ht
    split_ifs at ht with h0
    rcases enqueueWith_cases pm m s.queue (setDmaCmd .zero taskId dataAddr dataLen)
      .virtAddrWithCheck with ⟨e, -, hr⟩ | ⟨pa, hpa, ⟨-, hr⟩ | ⟨hfree, hr⟩⟩
    · rw [hr] at ht
      cases ht
      exact .inl H
    · rw [hr] at ht
      cases ht
      exact .inl H
    · obtain ⟨-, -, hpa0, -, hdma⟩ := enqueueAddr_ok hpa
      obtain ⟨hnf, hzero⟩ := H.writehead_zero hs hfree
      have htask : taskId.toNat ≠ 0 := fun hz => h0 (BitVec.toNat_inj.mp hz)
      rw [hr] at ht
      dsimp only at ht
      rw [hzero, fill_zero _ _ _ hpa0, hdma] at ht
      cases ht
      exact .inr (.inl ⟨_, hnf, H.put hs hlt hnf htask⟩)
  | dequeue m =>
    simp only [queueStep, dequeuePass] at ht
    by_cases hdone : (s.queue.ring s.queue.readhead).op = .done
    · have hd : f.delivered < f.completed := (H.done_iff hs).mpr hdone
      have hslot := H.holds.live f.delivered (f.lt_length hd) (Nat.le_refl _)
      simp only [hdone, ne_eq, not_true, if_false, DmacmdInfo.report] at ht
      rw [H.readhead, hslot, ← H.readhead] at ht
      cases ht
      exact .inr (.inr (.inr ⟨hd, H.take hs hlt hd⟩))
    · simp only [hdone, ne_eq, not_false_eq_true, if_true] at ht
      cases ht
      exact .inl H
  | complete =>
    simp only [queueStep] at ht
    split_ifs at ht with hready
    cases ht
    have hc : f.completed < f.accepted.length := (H.ready_iff hs).mpr hready
    exact .inr (.inr (.inl ⟨hc, H.complete hs hlt hc⟩))

/-! ### What the callers see -/

/-- The ring behaves as a bounded queue of capacity `size`. -/
structure IsFifo (pm : PageMap) (size h : ℕ) (s : QueueSystem) : Prop where
  /-- The delivered commands are the first of the accepted ones. -/
  delivered_prefix : s.delivered <+: s.enqueued
  /-- At most `size` commands are outstanding. -/
  length_le : s.enqueued.length ≤ s.delivered.length + size
  /-- Every outstanding command is in its descriptor, ready or done. -/
  outstanding : ∀ t (ht : t < s.enqueued.length), s.delivered.length ≤ t →
    ∃ done, s.queue.ring (slot size h t) = Command.desc done s.enqueued[t]
  /-- A valid call finds the queue full exactly if `size` commands are outstanding. -/
  quefull_iff : ∀ m taskId dataAddr dataLen pa,
    enqueueAddr pm m (setDmaCmd .zero taskId dataAddr dataLen) .virtAddrWithCheck = .ok pa →
    ((fpgaEnqueue pm m s.queue (setDmaCmd .zero taskId dataAddr dataLen)).1 = .error .enqueueQuefull ↔
      s.enqueued.length = s.delivered.length + size)
  /-- With fewer outstanding, a valid call is successful, and its command is the last one. -/
  accepts : ∀ m taskId dataAddr dataLen pa, taskId ≠ 0 →
    enqueueAddr pm m (setDmaCmd .zero taskId dataAddr dataLen) .virtAddrWithCheck = .ok pa →
    s.enqueued.length < s.delivered.length + size →
    (∃ cmd, (fpgaEnqueue pm m s.queue (setDmaCmd .zero taskId dataAddr dataLen)).1 = .ok cmd) ∧
    ∃ t, queueStep pm s (.enqueue m taskId dataAddr dataLen) = some t ∧
      t.enqueued = s.enqueued ++ [⟨taskId.toNat, dataLen.toNat, pa⟩] ∧ t.delivered = s.delivered
  /-- A pass of `fpga_dequeue` has a result exactly if the oldest outstanding command is done. -/
  result_iff : ∀ m, (∃ r, dequeuePass m s.queue .zero = some r) ↔
    s.delivered.length < s.enqueued.length ∧
      (s.queue.ring (slot size h s.delivered.length)).op = .done
  /-- Then this command is delivered. -/
  delivers : ∀ m (hd : s.delivered.length < s.enqueued.length),
    (s.queue.ring (slot size h s.delivered.length)).op = .done →
    ∃ t, queueStep pm s (.dequeue m) = some t ∧
      t.delivered = s.delivered ++ [s.enqueued[s.delivered.length]] ∧ t.enqueued = s.enqueued

/-- A valid call when the queue is not full. -/
theorem Refines.accepts (H : Refines size h s f) (hs : 0 < size) {m : ShmemMaps} {taskId : BitVec 16}
    {dataAddr : BitVec 64} {dataLen : BitVec 32} {pa : ℕ} (htask : taskId ≠ 0)
    (hpa : enqueueAddr pm m (setDmaCmd .zero taskId dataAddr dataLen) .virtAddrWithCheck = .ok pa)
    (hnf : ¬ f.Full) :
    (∃ cmd, (fpgaEnqueue pm m s.queue (setDmaCmd .zero taskId dataAddr dataLen)).1 = .ok cmd) ∧
    ∃ t, queueStep pm s (.enqueue m taskId dataAddr dataLen) = some t ∧
      t.enqueued = s.enqueued ++ [⟨taskId.toNat, dataLen.toNat, pa⟩] ∧ t.delivered = s.delivered := by
  have hfree : ¬ (s.queue.ring s.queue.writehead).taskId ≠ 0 := fun hne => hnf ((H.full_iff hs).mpr hne)
  rcases enqueueWith_cases pm m s.queue (setDmaCmd .zero taskId dataAddr dataLen)
    .virtAddrWithCheck with ⟨e, he, -⟩ | ⟨pa', hpa', ⟨hne, -⟩ | ⟨-, hr⟩⟩
  · rw [hpa] at he
    cases he
  · exact absurd hne hfree
  · rw [hpa] at hpa'
    cases hpa'
    obtain ⟨-, -, -, -, hdma⟩ := enqueueAddr_ok hpa
    simp only [queueStep, if_neg htask, fpgaEnqueue, hr, hdma]
    exact ⟨⟨_, rfl⟩, _, rfl, rfl, rfl⟩

variable (pm) in
/-- A pass when the oldest command is done. -/
theorem Refines.delivers (H : Refines size h s f) (m : ShmemMaps) (hd : f.delivered < f.completed) :
    (∃ r, dequeuePass m s.queue .zero = some r) ∧
    ∃ t, queueStep pm s (.dequeue m) = some t ∧
      t.delivered = s.delivered ++ [f.accepted.get ⟨f.delivered, f.lt_length hd⟩] ∧
      t.enqueued = s.enqueued := by
  have hslot := H.holds.live f.delivered (f.lt_length hd) (Nat.le_refl _)
  rw [decide_eq_true hd, ← H.readhead] at hslot
  simp only [queueStep, dequeuePass, hslot]
  exact ⟨⟨_, rfl⟩, _, rfl, rfl, rfl⟩

theorem Refines.isFifo (H : Refines size h s f) (hs : 0 < size) : IsFifo pm size h s where
  delivered_prefix := by
    rw [H.delivered, H.enqueued]
    exact f.out_isPrefix
  length_le := by
    rw [H.delivered, H.enqueued, BoundedFifo.length_out]
    exact f.length_le
  outstanding t ht hd := by
    rw [H.delivered, BoundedFifo.length_out] at hd
    simp only [H.enqueued] at ht ⊢
    exact ⟨_, H.holds.live t ht hd⟩
  quefull_iff m taskId dataAddr dataLen pa hpa := by
    have hfull : f.Full ↔ s.enqueued.length = s.delivered.length + size := by
      rw [H.enqueued, H.delivered, BoundedFifo.length_out]
      rfl
    rw [← hfull, H.full_iff hs, fpgaEnqueue]
    rcases enqueueWith_cases pm m s.queue (setDmaCmd .zero taskId dataAddr dataLen)
      .virtAddrWithCheck with ⟨e, he, -⟩ | ⟨pa', -, ⟨hne, hr⟩ | ⟨heq, hr⟩⟩
    · rw [hpa] at he
      cases he
    · rw [hr]
      exact ⟨fun _ => hne, fun _ => rfl⟩
    · rw [hr]
      exact ⟨nofun, fun hne => absurd heq hne⟩
  accepts m taskId dataAddr dataLen pa htask hpa hlt := by
    rw [H.enqueued, H.delivered, BoundedFifo.length_out] at hlt
    exact H.accepts hs htask hpa hlt.ne
  result_iff m := by
    rw [H.delivered, BoundedFifo.length_out, H.enqueued, ← H.readhead]
    constructor
    · rintro ⟨r, hr⟩
      simp only [dequeuePass] at hr
      split_ifs at hr with hop
      have hdone := not_not.mp hop
      exact ⟨f.lt_length ((H.done_iff hs).mpr hdone), hdone⟩
    · exact fun ⟨_, hdone⟩ => (H.delivers pm m ((H.done_iff hs).mpr hdone)).1
  delivers m hd hdone := by
    have hlen : s.delivered.length = f.delivered := by rw [H.delivered, BoundedFifo.length_out]
    rw [hlen, ← H.readhead] at hdone
    obtain ⟨-, t, ht, hdel, henq⟩ := H.delivers pm m ((H.done_iff hs).mpr hdone)
    refine ⟨t, ht, ?_, henq⟩
    rw [hdel]
    simp only [hlen, H.enqueued, List.get_eq_getElem]

/-- **The command queue is a bounded queue of capacity `size`**, wherever it starts and whatever
the calls and the hardware do. -/
theorem always_isFifo (pm : PageMap) (size : BitVec 16) (h : ℕ) (hh : h < size.toNat)
    (ops : List QueueOp) :
    Always (queueStep pm) (IsFifo pm size.toNat h) (.init size.toNat h) ops := by
  have hs : 0 < size.toNat := by omega
  have hstep : ∀ s op t, (∃ f, Refines size.toNat h s f) → queueStep pm s op = some t →
      ∃ f, Refines size.toNat h t f := by
    rintro s op t ⟨f, H⟩ ht
    rcases H.step_cases hs size.isLt ht with H' | ⟨_, _, H'⟩ | ⟨_, H'⟩ | ⟨_, H'⟩
    · exact ⟨_, H'⟩
    · exact ⟨_, H'⟩
    · exact ⟨_, H'⟩
    · exact ⟨_, H'⟩
  have hrun := always_of_step hstep ⟨_, refines_init hh⟩ ops
  exact hrun.mono fun s ⟨f, H⟩ => H.isFifo hs

/-- A ring of four descriptors, started at the third, with one command on its way through. -/
theorem always_isFifo_four :
    2 < (4 : BitVec 16).toNat ∧
    Always (queueStep .flat) (IsFifo .flat (4 : BitVec 16).toNat 2) (.init (4 : BitVec 16).toNat 2)
      [.enqueue (fpgaShmemRegister .empty 0x40000000 0x40000000 0x1000).2 1 0x40000000 0x400,
        .complete, .dequeue (fpgaShmemRegister .empty 0x40000000 0x40000000 0x1000).2] :=
  ⟨by decide, always_isFifo .flat 4 2 (by decide) _⟩

end HardwareDrivers.Libfpga
