import HardwareDrivers.Driver.ModuleRegs
import HardwareDrivers.Theory.Transition
import Mathlib.Data.List.AList

/-!
# Counters behind a selector

The statistics of a lane are 64-bit counters. A register selects which of them are seen, and
a counter is seen as two registers; nothing holds a counter still while it is read. A request
writes the selector and then reads the low and the high word, while other programs and the
hardware go on.

## What is proved

* `StatRead.between` — what a request gives is a value that the counter had between its start
  and its end, if the selector is still its own when it reads and the counter does not carry into
  its high word between the two reads.
-/

namespace HardwareDrivers.Driver

open Theory

/-! ### The hardware -/

/-- The halves of a counter. -/
inductive StatHalf where
  /-- `*_VALUE_L`. -/
  | low
  /-- `*_VALUE_H`. -/
  | high
  deriving DecidableEq

/-- A half of a value. -/
def StatHalf.of : StatHalf → BitVec 64 → BitVec 32
  | .low, value => value.extractLsb' 0 32
  | .high, value => value.extractLsb' 32 32

/-- What a register shows. -/
structure StatWord where
  /-- The register that selects. -/
  sel : BitVec 32
  /-- The counters, by the register of their low word. -/
  counter : BitVec 32
  /-- The half of the one that is selected. -/
  half : StatHalf
  deriving DecidableEq

/-- The registers of a lane that show counters, by their offset. -/
abbrev StatBank := AList fun _ : BitVec 32 => StatWord

/-- The statistics of a lane. -/
structure StatHw where
  /-- What was written to a register. -/
  written : BitVec 32 → BitVec 32
  /-- The counters, and of each the one for every value of the selector. -/
  count : BitVec 32 → BitVec 32 → BitVec 64

/-- An access to the hardware. -/
def StatBank.access (bank : StatBank) : (c : RegCmd) → StatHw → c.Ans × StatHw
  | .read32 offset, hw =>
    (match bank.lookup offset with
      | some w => w.half.of (hw.count w.counter (hw.written w.sel))
      | none => hw.written offset, hw)
  | .write32 offset value, hw =>
    ((), { hw with written := Function.update hw.written offset value })

/-- The hardware counts. -/
def StatHw.setCount (hw : StatHw) (counter selected : BitVec 32) (value : BitVec 64) : StatHw :=
  { hw with count := fun k x => if k = counter ∧ x = selected then value else hw.count k x }

/-- What happens next on a lane. -/
inductive StatAction (ι : Type) where
  /-- Program `i` makes its next access. -/
  | turn (i : ι)
  /-- A counter goes up to `value`. -/
  | count (counter selected : BitVec 32) (value : BitVec 64)

variable {ι α : Type} [DecidableEq ι]

/-- A step of a lane that programs share. -/
def StatBank.step (bank : StatBank) (s : Shared ι RegCmd RegCmd.Ans α StatHw) :
    StatAction ι → Option (Shared ι RegCmd RegCmd.Ans α StatHw)
  | .turn i => Shared.step bank.access s i
  | .count k x value =>
    if s.state.count k x ≤ value then some { s with state := s.state.setCount k x value } else none

/-! ### The request -/

/-- The registers of a request for a 64-bit count, and what it selects. -/
structure StatRead where
  /-- The selector and the two words. -/
  (sel low high : BitVec 32)
  /-- What is written to the selector. -/
  index : BitVec 32

/-- The request: the selector, the low word, the high word. -/
def StatRead.prog (r : StatRead) (f : BitVec 64 → α) : RegProg α :=
  .cmd (.write32 r.sel r.index) fun _ => .cmd (.read32 r.low) fun valueL =>
    .cmd (.read32 r.high) fun valueH => .done (f (valueH ++ valueL))

/-- The registers of the request are those of one counter. -/
structure StatRead.Of (r : StatRead) (bank : StatBank) : Prop where
  /-- The low word. -/
  low : bank.lookup r.low = some ⟨r.sel, r.low, .low⟩
  /-- The high word. -/
  high : bank.lookup r.high = some ⟨r.sel, r.low, .high⟩

/-- The counter that the request is about. -/
def StatRead.counter (r : StatRead) (hw : StatHw) : BitVec 64 := hw.count r.low r.index

/-- A step does not get in the way of the request of program `i`: when it reads, it finds its own
selection, and while it has only read the low word, the high word does not change. -/
def StatRead.Undisturbed (r : StatRead) (i : ι) (s : Shared ι RegCmd RegCmd.Ans α StatHw) :
    StatAction ι → Prop
  | .turn j => j = i → ((s.progs i).nextCmd.bind RegCmd.readOffset).isSome →
      s.state.written r.sel = r.index
  | .count k x value => (s.progs i).nextCmd = some (.read32 r.high) → k = r.low → x = r.index →
      StatHalf.high.of value = StatHalf.high.of (r.counter s.state)

instance (r : StatRead) (i : ι) (s : Shared ι RegCmd RegCmd.Ans α StatHw) :
    ∀ a, Decidable (r.Undisturbed i s a)
  | .turn j => inferInstanceAs (Decidable (j = i → _ → _))
  | .count k x _ => inferInstanceAs (Decidable (_ → k = r.low → x = r.index → _))

/-! ### How far the request is -/

/-- The two halves make up the value. -/
theorem StatHalf.high_append_low (value : BitVec 64) :
    StatHalf.high.of value ++ StatHalf.low.of value = value :=
  BitVec.extractLsb'_append_extractLsb'

/-- Where a request can be that began at `start`, when the counter is at `now`. -/
inductive StatRead.Reached (r : StatRead) (f : BitVec 64 → α) (start : BitVec 64) :
    RegProg α → BitVec 64 → Prop
  /-- Nothing has been done. -/
  | begun {now : BitVec 64} (h : start ≤ now) : Reached r f start (r.prog f) now
  /-- The selector is written. -/
  | selected {now : BitVec 64} (h : start ≤ now) :
      Reached r f start (.cmd (.read32 r.low) fun valueL =>
        .cmd (.read32 r.high) fun valueH => .done (f (valueH ++ valueL))) now
  /-- The low word of `read` is read. -/
  | lowRead {read now : BitVec 64} (hstart : start ≤ read) (hnow : read ≤ now)
      (hhigh : StatHalf.high.of read = StatHalf.high.of now) :
      Reached r f start
        (.cmd (.read32 r.high) fun valueH => .done (f (valueH ++ StatHalf.low.of read))) now
  /-- `read` is what the request gives. -/
  | done {read now : BitVec 64} (hstart : start ≤ read) (hnow : read ≤ now) :
      Reached r f start (.done (f read)) now

variable {r : StatRead} {f : BitVec 64 → α} {start now : BitVec 64} {p : RegProg α}

/-- The counter goes up. -/
theorem StatRead.Reached.mono (h : r.Reached f start p now) {now' : BitVec 64} (hnow : now ≤ now')
    (hhigh : p.nextCmd = some (.read32 r.high) → StatHalf.high.of now' = StatHalf.high.of now) :
    r.Reached f start p now' := by
  cases h with
  | begun h => exact .begun (BitVec.le_trans h hnow)
  | selected h => exact .selected (BitVec.le_trans h hnow)
  | lowRead hs hn hh => exact .lowRead hs (BitVec.le_trans hn hnow) (hh.trans (hhigh rfl).symm)
  | done hs hn => exact .done hs (BitVec.le_trans hn hnow)

/-- The request makes its next access. -/
theorem StatRead.Reached.turn {bank : StatBank} (hr : r.Of bank) {hw : StatHw} {c : RegCmd}
    {next : c.Ans → RegProg α} (h : r.Reached f start (.cmd c next) (r.counter hw))
    (hsel : c.readOffset.isSome → hw.written r.sel = r.index) :
    r.Reached f start (next (bank.access c hw).1) (r.counter (bank.access c hw).2) := by
  cases h with
  | begun h => exact .selected h
  | selected h =>
    have hlow : (bank.access (.read32 r.low) hw).1 = StatHalf.low.of (r.counter hw) := by
      simp only [StatBank.access, hr.low, hsel rfl, StatRead.counter]
    rw [hlow]
    exact .lowRead h (BitVec.le_refl _) rfl
  | @lowRead read _ hs hn hh =>
    have hhigh : (bank.access (.read32 r.high) hw).1 = StatHalf.high.of (r.counter hw) := by
      simp only [StatBank.access, hr.high, hsel rfl, StatRead.counter]
    rw [hhigh, ← hh]
    simp only [StatHalf.high_append_low]
    exact .done hs hn

/-- A step that does not get in the way. -/
theorem StatRead.reached_step {bank : StatBank} (hr : r.Of bank) {i : ι}
    {s t : Shared ι RegCmd RegCmd.Ans α StatHw} {a : StatAction ι}
    (h : r.Reached f start (s.progs i) (r.counter s.state)) (hC : r.Undisturbed i s a)
    (ht : bank.step s a = some t) : r.Reached f start (t.progs i) (r.counter t.state) := by
  cases a with
  | turn j =>
    obtain ⟨c, next, hc, hstate, hself, hothers⟩ := Shared.step_cases ht
    rw [hstate]
    by_cases hj : j = i
    · subst hj
      rw [hself]
      rw [hc] at h
      exact h.turn hr fun hread => hC rfl (by rw [hc]; exact hread)
    · have hcount : r.counter (bank.access c s.state).2 = r.counter s.state := by
        cases c <;> rfl
      rw [hothers i (Ne.symm hj), hcount]
      exact h
  | count k x value =>
    rw [StatBank.step] at ht
    split at ht
    case isTrue hle =>
      cases ht
      by_cases hkx : r.low = k ∧ r.index = x
      · obtain ⟨rfl, rfl⟩ := hkx
        have hnow : r.counter (s.state.setCount r.low r.index value) = value :=
          if_pos ⟨rfl, rfl⟩
        rw [hnow]
        exact h.mono hle fun hnext => hC hnext rfl rfl
      · have hnow : r.counter (s.state.setCount k x value) = r.counter s.state := if_neg hkx
        rw [hnow]
        exact h
    case isFalse => cases ht

/-- **Counts**: a request gives a value that its counter had while it ran, in every run whose steps
do not get in the way. -/
theorem StatRead.between {bank : StatBank} (hr : r.Of bank) {i : ι}
    {s t : Shared ι RegCmd RegCmd.Ans α StatHw} {as : List (StatAction ι)}
    (hs : s.progs i = r.prog f) (hC : Along bank.step (r.Undisturbed i) s as)
    (ht : run bank.step s as = some t) {a : α} (ha : t.progs i = .done a) :
    ∃ value, a = f value ∧ r.counter s.state ≤ value ∧ value ≤ r.counter t.state := by
  have hinv : r.Reached f (r.counter s.state) (s.progs i) (r.counter s.state) := by
    rw [hs]
    exact .begun (BitVec.le_refl _)
  have h := (always_of_along (I := fun t : Shared ι RegCmd RegCmd.Ans α StatHw =>
    r.Reached f (r.counter s.state) (t.progs i) (r.counter t.state))
    (fun _ _ _ h hC ht => StatRead.reached_step hr h hC ht) hinv hC).last ht
  rw [ha] at h
  cases h with
  | done hstart hnow => exact ⟨_, rfl, hstart, hnow⟩

end HardwareDrivers.Driver
