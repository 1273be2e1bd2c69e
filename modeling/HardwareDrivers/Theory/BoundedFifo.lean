import Mathlib.Data.List.Basic
import Mathlib.Data.Nat.ModEq
import Mathlib.Logic.Function.Basic

/-!
# Bounded queues and the rings that hold them

A bounded queue whose entries are put in, completed by a third party in order, and
taken out: the whole history of accepted entries is kept, with two counts into it.
A ring keeps such a queue in `size` slots: entry `t` sits at position
`slot size h t`, the `t`-th from the start `h`, going around.

## What is proved

* `slot_inj` — within one turn no two positions share a slot.
* `Holds.put`, `Holds.complete`, `Holds.take` — writing the next slot, marking the
  first entry that is not complete, and clearing the first slot do to the ring what
  the operations of the queue do to its history.
-/

namespace HardwareDrivers.Theory

universe u v

/-! ### Positions in a ring -/

/-- The slot of the `t`-th position counted from `h`. -/
def slot (size h t : ℕ) : ℕ := (h + t) % size

theorem slot_zero {size h : ℕ} (hh : h < size) : slot size h 0 = h := Nat.mod_eq_of_lt hh

theorem slot_lt {size : ℕ} (hs : 0 < size) (h t : ℕ) : slot size h t < size := Nat.mod_lt _ hs

/-- The slot after a slot: one more, back to `0` at the end. -/
theorem slot_succ {size : ℕ} (hs : 0 < size) (h t : ℕ) :
    (if slot size h t + 1 = size then 0 else slot size h t + 1) = slot size h (t + 1) := by
  have hlt := slot_lt hs h t
  have hmod : slot size h (t + 1) = (slot size h t + 1) % size := by
    show (h + (t + 1)) % size = ((h + t) % size + 1) % size
    rw [Nat.mod_add_mod, Nat.add_assoc]
  rw [hmod]
  split_ifs with he
  · rw [he, Nat.mod_self]
  · rw [Nat.mod_eq_of_lt (by omega)]

theorem slot_add_size (size h t : ℕ) : slot size h (t + size) = slot size h t := by
  show (h + (t + size)) % size = (h + t) % size
  rw [← Nat.add_assoc, Nat.add_mod_right]

/-- Within one turn the slots are distinct. -/
theorem slot_inj {size h t u : ℕ} (htu : t ≤ u) (hut : u < t + size)
    (he : slot size h t = slot size h u) : t = u := by
  have hdvd : size ∣ (h + u) - (h + t) := (Nat.modEq_iff_dvd' (by omega)).mp he
  obtain ⟨k, hk⟩ := hdvd
  rcases Nat.eq_zero_or_pos k with rfl | hpos
  · omega
  · have : size ≤ size * k := Nat.le_mul_of_pos_right size hpos
    omega

/-- Distinct positions of a window of one turn have distinct slots. -/
theorem slot_ne {size h r t u : ℕ} (ht : r ≤ t) (ht' : t < r + size) (hu : r ≤ u)
    (hu' : u < r + size) (hne : t ≠ u) : slot size h t ≠ slot size h u := by
  intro he
  rcases Nat.le_total t u with hle | hle
  · exact hne (slot_inj hle (by omega) he)
  · exact hne (slot_inj hle (by omega) he.symm).symm

/-! ### The queue -/

/-- A queue of capacity `cap`: all the entries ever accepted, how many of them are
complete, and how many are delivered. -/
structure BoundedFifo (α : Type u) (cap : ℕ) where
  /-- The entries accepted, the oldest first. -/
  accepted : List α
  /-- How many entries are complete. -/
  completed : ℕ
  /-- How many entries are delivered. -/
  delivered : ℕ
  /-- Only complete entries are delivered. -/
  delivered_le : delivered ≤ completed
  /-- Only accepted entries are complete. -/
  completed_le : completed ≤ accepted.length
  /-- At most `cap` entries are accepted and not delivered. -/
  length_le : accepted.length ≤ delivered + cap

namespace BoundedFifo

variable {α : Type u} {β : Type v} {cap : ℕ}

/-- Nothing accepted yet. -/
def empty : BoundedFifo α cap where
  accepted := []
  completed := 0
  delivered := 0
  delivered_le := Nat.le_refl 0
  completed_le := Nat.zero_le _
  length_le := Nat.zero_le _

/-- Exactly `cap` entries are accepted and not delivered. -/
def Full (f : BoundedFifo α cap) : Prop := f.accepted.length = f.delivered + cap

/-- The entries delivered. -/
def out (f : BoundedFifo α cap) : List α := f.accepted.take f.delivered

/-- An entry is accepted. -/
def put (f : BoundedFifo α cap) (a : α) (hf : ¬ f.Full) : BoundedFifo α cap where
  accepted := f.accepted ++ [a]
  completed := f.completed
  delivered := f.delivered
  delivered_le := f.delivered_le
  completed_le := by
    have := f.completed_le
    simp
    omega
  length_le := by
    have := f.length_le
    unfold Full at hf
    simp
    omega

/-- The oldest entry that is not complete becomes complete. -/
def complete (f : BoundedFifo α cap) (hc : f.completed < f.accepted.length) : BoundedFifo α cap where
  accepted := f.accepted
  completed := f.completed + 1
  delivered := f.delivered
  delivered_le := Nat.le_succ_of_le f.delivered_le
  completed_le := hc
  length_le := f.length_le

/-- The oldest entry that is not delivered is delivered. -/
def take (f : BoundedFifo α cap) (hd : f.delivered < f.completed) : BoundedFifo α cap where
  accepted := f.accepted
  completed := f.completed
  delivered := f.delivered + 1
  delivered_le := hd
  completed_le := f.completed_le
  length_le := by
    have := f.length_le
    omega

theorem lt_length (f : BoundedFifo α cap) (hd : f.delivered < f.completed) :
    f.delivered < f.accepted.length := Nat.lt_of_lt_of_le hd f.completed_le

theorem delivered_le_length (f : BoundedFifo α cap) : f.delivered ≤ f.accepted.length :=
  Nat.le_trans f.delivered_le f.completed_le

/-- What is delivered was accepted, in the same order. -/
theorem out_isPrefix (f : BoundedFifo α cap) : f.out <+: f.accepted := List.take_prefix _ _

@[simp] theorem length_out (f : BoundedFifo α cap) : f.out.length = f.delivered := by
  rw [out, List.length_take, Nat.min_eq_left f.delivered_le_length]

theorem out_put (f : BoundedFifo α cap) (a : α) (hf : ¬ f.Full) : (f.put a hf).out = f.out := by
  show (f.accepted ++ [a]).take f.delivered = f.accepted.take f.delivered
  rw [List.take_append_of_le_length f.delivered_le_length]

theorem out_take (f : BoundedFifo α cap) (hd : f.delivered < f.completed) :
    (f.take hd).out = f.out ++ [f.accepted.get ⟨f.delivered, f.lt_length hd⟩] := by
  show f.accepted.take (f.delivered + 1) = _
  rw [List.take_succ_eq_append_getElem (f.lt_length hd)]
  rfl

/-! ### The ring that holds it -/

/-- The slots of the ring, from position `h` on, hold the entries accepted and not
delivered, each marked with whether it is complete, and are clear elsewhere. -/
structure Holds (h : ℕ) (clear : β) (enc : Bool → α → β) (ring : ℕ → β)
    (f : BoundedFifo α cap) : Prop where
  /-- The outstanding entries. -/
  live : ∀ t (ht : t < f.accepted.length), f.delivered ≤ t →
    ring (slot cap h t) = enc (decide (t < f.completed)) f.accepted[t]
  /-- The slots that are free. -/
  free : ∀ t, f.accepted.length ≤ t → t < f.delivered + cap → ring (slot cap h t) = clear

variable {h : ℕ} {clear : β} {enc : Bool → α → β} {ring : ℕ → β} {f : BoundedFifo α cap}

/-- A ring of clear slots holds the queue nothing was put in. -/
theorem Holds.empty (hr : ∀ i < cap, ring i = clear) (hcap : 0 < cap) :
    Holds h clear enc ring (BoundedFifo.empty : BoundedFifo α cap) where
  live t ht := absurd ht (Nat.not_lt_zero t)
  free t _ _ := hr _ (slot_lt hcap h t)

/-- Writing the slot after the last entry. -/
theorem Holds.put (H : Holds h clear enc ring f) (a : α) (hf : ¬ f.Full) :
    Holds h clear enc (Function.update ring (slot cap h f.accepted.length) (enc false a))
      (f.put a hf) := by
  have hle := f.length_le
  have hdl := f.delivered_le_length
  have hcl := f.completed_le
  unfold Full at hf
  constructor
  · intro t ht hd
    simp only [BoundedFifo.put, List.length_append, List.length_cons, List.length_nil] at ht hd ⊢
    rcases Nat.lt_or_ge t f.accepted.length with hlt | hge
    · have hne : slot cap h t ≠ slot cap h f.accepted.length :=
        slot_ne hd (by omega) hdl (by omega) (by omega)
      rw [Function.update_of_ne hne, H.live t hlt hd, List.getElem_append_left hlt]
      rfl
    · obtain rfl : t = f.accepted.length := by omega
      have hnc : ¬ f.accepted.length < f.completed := by omega
      simp [hnc]
  · intro t ht hd
    simp only [BoundedFifo.put, List.length_append, List.length_cons, List.length_nil] at ht hd
    have hne : slot cap h t ≠ slot cap h f.accepted.length :=
      slot_ne (by omega) hd hdl (by omega) (by omega)
    rw [Function.update_of_ne hne, H.free t (by omega) hd]

/-- Marking the oldest entry that is not complete. -/
theorem Holds.complete (H : Holds h clear enc ring f) (hc : f.completed < f.accepted.length) :
    Holds h clear enc
      (Function.update ring (slot cap h f.completed) (enc true f.accepted[f.completed]))
      (f.complete hc) := by
  have hle := f.length_le
  have hdc := f.delivered_le
  constructor
  · intro t ht hd
    simp only [BoundedFifo.complete] at ht hd ⊢
    by_cases he : t = f.completed
    · subst he
      simp
    · have hne : slot cap h t ≠ slot cap h f.completed :=
        slot_ne hd (by omega) hdc (by omega) he
      have hiff : t < f.completed ↔ t < f.completed + 1 := by omega
      rw [Function.update_of_ne hne, H.live t ht hd]
      exact congrArg (enc · _) (decide_eq_decide.mpr hiff)
  · intro t ht hd
    simp only [BoundedFifo.complete] at ht hd
    have hne : slot cap h t ≠ slot cap h f.completed :=
      slot_ne (by omega) hd hdc (by omega) (by omega)
    rw [Function.update_of_ne hne, H.free t ht hd]

/-- Clearing the slot of the oldest entry. -/
theorem Holds.take (H : Holds h clear enc ring f) (hd : f.delivered < f.completed) :
    Holds h clear enc (Function.update ring (slot cap h f.delivered) clear) (f.take hd) := by
  have hle := f.length_le
  have hlt := f.lt_length hd
  constructor
  · intro t ht hdt
    simp only [BoundedFifo.take] at ht hdt ⊢
    have hne : slot cap h t ≠ slot cap h f.delivered :=
      slot_ne (by omega) (by omega) (Nat.le_refl _) (by omega) (by omega)
    rw [Function.update_of_ne hne, H.live t ht (by omega)]
    rfl
  · intro t ht hdt
    simp only [BoundedFifo.take] at ht hdt
    by_cases he : t = f.delivered + cap
    · -- the slot just cleared is the last free one, a turn later
      subst he
      rw [slot_add_size, Function.update_self]
    · have hne : slot cap h t ≠ slot cap h f.delivered :=
        slot_ne (by omega) (by omega) (Nat.le_refl _) (by omega) (by omega)
      rw [Function.update_of_ne hne, H.free t ht (by omega)]

/-- The slot after the last entry holds the oldest one when the queue is full, and is
clear otherwise. -/
theorem Holds.next (H : Holds h clear enc ring f) (hcap : 0 < cap) :
    (f.Full ∧ ∃ a ∈ f.accepted, ∃ b, ring (slot cap h f.accepted.length) = enc b a) ∨
    (¬ f.Full ∧ ring (slot cap h f.accepted.length) = clear) := by
  have hle := f.length_le
  by_cases hf : f.Full
  · left
    unfold Full at hf
    have hlt : f.delivered < f.accepted.length := by omega
    refine ⟨hf, f.accepted[f.delivered], List.getElem_mem hlt,
      decide (f.delivered < f.completed), ?_⟩
    rw [hf, slot_add_size]
    exact H.live f.delivered hlt (Nat.le_refl _)
  · right
    refine ⟨hf, H.free _ (Nat.le_refl _) ?_⟩
    unfold Full at hf
    omega

end BoundedFifo

end HardwareDrivers.Theory
