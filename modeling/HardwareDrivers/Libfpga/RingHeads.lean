import HardwareDrivers.Driver.Lldma
import HardwareDrivers.Libfpga.DmaShared

/-!
# The heads of a ring

When a queue is started the driver takes both heads from the bits 24 to 31 of `Q_CTRL`. The library
uses the heads as indices of the ring and sets a head to 0 when it becomes the size.

`ring_sound`: whatever the processes call afterwards, and however their steps are interleaved, the
heads and the indices of all accesses are below the size exactly if the hardware did not show
255, which is the size. From there the head goes on to 256.
-/

namespace HardwareDrivers.Libfpga

open Driver Theory

/-! ### A ring that was started -/

/-- The queue of a channel after `xpcie_fpga_start_queue`, with what the hardware shows in
`Q_CTRL`. -/
def startedQueue (dev : FpgaDevInfo) (side : DmaSide) (chid : Chid) (dir : DmaDir)
    (data : BitVec 32) : FpgaQueue :=
  ((xpcieFpgaStartQueue dev chid dir data).queues side chid).que

/-- The ring, with no process in a call. -/
def SharedState.start (q : FpgaQueue) : SharedState :=
  ⟨q, fun _ => .idle, 0, 0, [], [], fun _ => none⟩

/-- One step, if it can be taken: a command may have any `task_id` here. -/
def ringStep (s : SharedState) : SharedAct → Option SharedState
  | .enqueue p c =>
    match s.procs p with
    | .idle => some (s.goto p (.readWritehead c))
    | _ => none
  | act => sharedStep s act

/-- The index of the ring that the next step of the process uses. -/
def Proc.access : Proc → Option ℕ
  | .testTaskId _ head | .store _ _ head _ | .testOp head | .readFields head _ | .clear head _ =>
    some head
  | .idle | .readWritehead _ | .casWritehead .. | .readReadhead | .casReadhead _ => none

/-- The heads, and the indices that are used next, are in the ring. -/
structure RingSafe (s : SharedState) : Prop where
  /-- `readhead`. -/
  readhead : s.queue.readhead < s.queue.size
  /-- `writehead`. -/
  writehead : s.queue.writehead < s.queue.size
  /-- `ring[]`. -/
  access : ∀ p i, (s.procs p).access = some i → i < s.queue.size

/-! ### What a step keeps -/

/-- The head that the process has. -/
def Proc.head : Proc → Option ℕ
  | .testTaskId _ head | .casWritehead _ head | .store _ _ head _ | .testOp head |
    .casReadhead head | .readFields head _ | .clear head _ => some head
  | .idle | .readWritehead _ | .readReadhead => none

theorem Proc.head_of_access {pc : Proc} {i : ℕ} (h : pc.access = some i) : pc.head = some i := by
  cases pc <;> first | exact h | cases h

/-- The heads of the ring and of the processes are in the ring. -/
structure RingInv (size : ℕ) (s : SharedState) : Prop where
  size_eq : s.queue.size = size
  readhead : s.queue.readhead < size
  writehead : s.queue.writehead < size
  head : ∀ p i, (s.procs p).head = some i → i < size

variable {size : ℕ} {s t : SharedState}

theorem RingInv.safe (H : RingInv size s) : RingSafe s := by
  obtain ⟨rfl, hread, hwrite, hhead⟩ := H
  exact ⟨hread, hwrite, fun p i hi => hhead p i (Proc.head_of_access hi)⟩

/-- A ring that no process uses yet. -/
theorem ringInv_start {q : FpgaQueue} (hsize : q.size = size) (hread : q.readhead < size)
    (hwrite : q.writehead < size) : RingInv size (.start q) :=
  ⟨hsize, hread, hwrite, fun _ _ hi => by cases hi⟩

/-- A head in the ring is followed by one in the ring. -/
theorem nextHead_lt {q : FpgaQueue} {head : ℕ} (hsize : q.size = size) (hlt : size < 2 ^ 16)
    (hhead : head < size) : q.nextHead head < size := by
  unfold FpgaQueue.nextHead
  rw [Nat.mod_eq_of_lt (by omega)]
  dsimp only
  split_ifs with heq
  · exact Nat.zero_lt_of_lt hhead
  · omega

/-- A process goes on, with a head that is in the ring. -/
theorem RingInv.goto (H : RingInv size s) (p : ℕ) {pc : Proc} (hpc : ∀ i, pc.head = some i → i < size) :
    RingInv size (s.goto p pc) := by
  refine ⟨H.size_eq, H.readhead, H.writehead, fun q i hi => ?_⟩
  rcases update_cases (fun pc : Proc => pc.head = some i) hi with ⟨-, hi⟩ | ⟨-, hi⟩
  · exact hpc i hi
  · exact H.head q i hi

/-- A process goes on with one head, which is in the ring. -/
theorem RingInv.gotoHead (H : RingInv size s) (p : ℕ) {pc : Proc} {head : ℕ} (hhead : head < size)
    (hpc : pc.head = some head) : RingInv size (s.goto p pc) :=
  H.goto p fun i hi => by cases hpc.symm.trans hi; exact hhead

/-- A process goes on without a head. -/
theorem RingInv.drop (H : RingInv size s) (p : ℕ) {pc : Proc} (hpc : pc.head = none) :
    RingInv size (s.goto p pc) :=
  H.goto p fun i hi => by cases hpc.symm.trans hi

/-- Descriptors are of no account. -/
theorem RingInv.setDesc (H : RingInv size s) (i : ℕ) (desc : FpgaDesc) :
    RingInv size (s.setDesc i desc) :=
  ⟨H.size_eq, H.readhead, H.writehead, H.head⟩

/-- The step of a process. -/
theorem RingInv.next (H : RingInv size s) (hlt : size < 2 ^ 16) {p : ℕ} {timeout : Bool}
    (hstep : sharedStep s (.next p timeout) = some t) : RingInv size t := by
  simp only [sharedStep] at hstep
  have hhead : ∀ head, (s.procs p).head = some head → head < size := H.head p
  cases hp : s.procs p with
  | idle =>
    rw [hp] at hstep
    cases hstep
  | readWritehead c =>
    rw [hp] at hstep
    cases hstep
    exact H.gotoHead p H.writehead rfl
  | testTaskId c head =>
    rw [hp] at hstep hhead
    cases hstep
    split_ifs
    · exact H.drop p rfl
    · exact H.gotoHead p (hhead head rfl) rfl
  | casWritehead c head =>
    rw [hp] at hstep hhead
    dsimp only at hstep
    split_ifs at hstep
    · cases hstep
      have hnext := nextHead_lt H.size_eq hlt (hhead head rfl)
      have hgoto : RingInv size (s.goto p (.store .addr c head s.writes)) :=
        H.gotoHead p (hhead head rfl) rfl
      exact ⟨H.size_eq, H.readhead, hnext, hgoto.head⟩
    · cases hstep
      exact H.drop p rfl
  | store f c head ticket =>
    rw [hp] at hstep hhead
    cases f with
    | addr | len | taskId =>
      cases hstep
      exact (H.setDesc head _).gotoHead p (hhead head rfl) rfl
    | op =>
      cases hstep
      have hgoto : RingInv size
          ((s.setDesc head { s.queue.ring head with op := .ready }).goto p .idle) :=
        (H.setDesc head _).drop p rfl
      exact ⟨hgoto.size_eq, hgoto.readhead, hgoto.writehead, hgoto.head⟩
  | readReadhead =>
    rw [hp] at hstep
    cases hstep
    exact H.gotoHead p H.readhead rfl
  | testOp head =>
    rw [hp] at hstep hhead
    dsimp only at hstep
    split at hstep
    · cases hstep
      split_ifs
      · exact H.drop p rfl
      · exact H.drop p rfl
    · cases hstep
      exact H.gotoHead p (hhead head rfl) rfl
  | casReadhead head =>
    rw [hp] at hstep hhead
    dsimp only at hstep
    split_ifs at hstep
    · cases hstep
      have hnext := nextHead_lt H.size_eq hlt (hhead head rfl)
      have hgoto : RingInv size (s.goto p (.readFields head s.reads)) :=
        H.gotoHead p (hhead head rfl) rfl
      exact ⟨H.size_eq, hnext, H.writehead, hgoto.head⟩
    · cases hstep
      exact H.drop p rfl
  | readFields head ticket =>
    rw [hp] at hstep hhead
    cases hstep
    have hgoto : RingInv size (s.goto p (.clear head ticket)) :=
      H.gotoHead p (hhead head rfl) rfl
    exact ⟨hgoto.size_eq, hgoto.readhead, hgoto.writehead, hgoto.head⟩
  | clear head ticket =>
    rw [hp] at hstep
    cases hstep
    exact (H.setDesc head .zero).drop p rfl

/-- Every step keeps the heads in the ring. -/
theorem RingInv.step (H : RingInv size s) (hlt : size < 2 ^ 16) {act : SharedAct}
    (hstep : ringStep s act = some t) : RingInv size t := by
  cases act with
  | enqueue p c =>
    simp only [ringStep] at hstep
    split at hstep
    · cases hstep
      exact H.drop p rfl
    · cases hstep
  | dequeue p =>
    simp only [ringStep, sharedStep] at hstep
    split at hstep
    · cases hstep
      exact H.drop p rfl
    · cases hstep
  | next p timeout => exact H.next hlt hstep
  | complete i =>
    simp only [ringStep, sharedStep] at hstep
    split_ifs at hstep
    cases hstep
    exact H.setDesc i _

/-! ### The start -/

/-- The head that the driver takes from `Q_CTRL`. -/
theorem startHead_eq (data : BitVec 32) :
    ((data &&& 0xFF000000) >>> 24).toNat = data.toNat / 2 ^ 24 := by
  have hdata := data.isLt
  rw [BitVec.ushiftRight_and_distrib, BitVec.toNat_and, BitVec.toNat_ushiftRight,
    Nat.shiftRight_eq_div_pow]
  refine (Nat.and_two_pow_sub_one_eq_mod _ 8).trans (Nat.mod_eq_of_lt ?_)
  omega

/-- The ring of a channel that is started. -/
theorem startedQueue_eq {dev : FpgaDevInfo} {side : DmaSide} {chid : Chid} {dir : DmaDir}
    (hchid : chid < dev.availableDmaChannelNum) (hside : dir.queueSide = some side)
    (data : BitVec 32) : startedQueue dev side chid dir data =
      { (dev.queues side chid).que with
        writehead := data.toNat / 2 ^ 24
        readhead := data.toNat / 2 ^ 24 } := by
  unfold startedQueue
  rw [xpcieFpgaStartQueue_queues dev chid hside data]
  dsimp only
  rw [if_neg (Nat.not_le.mpr hchid), startHead_eq]

/-- From the start of a queue of 255 descriptors on, in every run of enqueues and dequeues of any
processes, the heads and the indices of all accesses are in the ring exactly if the hardware showed
another head than 255. -/
theorem ring_sound {dev : FpgaDevInfo} {side : DmaSide} {chid : Chid} {dir : DmaDir}
    (hchid : chid < dev.availableDmaChannelNum) (hside : dir.queueSide = some side)
    (hsize : (dev.queues side chid).que.size = xpcieQueueSize) (data : BitVec 32)
    (acts : List SharedAct) :
    Always ringStep RingSafe (.start (startedQueue dev side chid dir data)) acts ↔
      data >>> 24 ≠ 255 := by
  have hhead : data >>> 24 ≠ 255 ↔ data.toNat / 2 ^ 24 < xpcieQueueSize := by
    have hdata := data.isLt
    rw [ne_eq, ← BitVec.toNat_inj, BitVec.toNat_ushiftRight, Nat.shiftRight_eq_div_pow]
    change ¬ data.toNat / 2 ^ 24 = 255 ↔ data.toNat / 2 ^ 24 < 255
    omega
  rw [hhead, startedQueue_eq hchid hside]
  constructor
  · intro h
    have hread := h.head.readhead
    exact hsize ▸ hread
  · intro h
    have hinv : RingInv xpcieQueueSize (.start { (dev.queues side chid).que with
        writehead := data.toNat / 2 ^ 24, readhead := data.toNat / 2 ^ 24 }) :=
      ringInv_start hsize h h
    exact (always_of_step (fun _ _ _ H hstep => H.step (by decide) hstep) hinv acts).mono
      fun _ H => H.safe

/-- The device after its initialisation, with one channel. -/
def oneChannelDev : FpgaDevInfo := xpcieFpgaDevInit 0 (.reset 1 1) fun _ _ => 0

/-- The hardware shows 0, and a process enqueues a command. -/
theorem ring_sound_zero :
    (oneChannelDev.queues .rx 0).que.size = xpcieQueueSize ∧
      Always ringStep RingSafe (.start (startedQueue oneChannelDev .rx 0 .hostToDev 0))
        (.enqueue 0 ⟨1, 1024, 0x1000⟩ :: List.replicate 7 (.next 0 false)) :=
  ⟨rfl, (ring_sound (by decide) rfl rfl 0 _).mpr (by decide)⟩

/-- With 255 shown, a process that enqueues stores behind the ring, and the head goes on to 256. -/
theorem not_ring_sound :
    (run ringStep (.start (startedQueue oneChannelDev .rx 0 .hostToDev 0xFF000000))
        (.enqueue 0 ⟨1, 1024, 0x1000⟩ :: List.replicate 3 (.next 0 false))).any (fun s =>
          (s.procs 0).access = some 255 ∧ s.queue.writehead = 256 ∧ s.queue.size = 255) = true ∧
      ¬ Always ringStep RingSafe (.start (startedQueue oneChannelDev .rx 0 .hostToDev 0xFF000000))
        (.enqueue 0 ⟨1, 1024, 0x1000⟩ :: List.replicate 3 (.next 0 false)) := by
  refine ⟨by decide +kernel, fun h => ?_⟩
  have hwrite : 255 < 255 := h.head.writehead
  exact Nat.lt_irrefl 255 hwrite

end HardwareDrivers.Libfpga
