import HardwareDrivers.Theory.Ledger
import Mathlib.Data.List.Perm.Basic

/-!
# Balances of ledgers

A ledger is balanced by a list of resources if every resource that was acquired is either in the list
or was released, and only once. Then nothing is lost, nothing was released twice, and nothing in the
list was released.

## What is proved

* `Balanced.acquire`, `Balanced.release`, `Balanced.settled` — how operations change the list.
* `Balanced.nodup`, `Balanced.isOpen`, `Balanced.kept` — what a balance says.
-/

namespace HardwareDrivers.Theory.Ledger

/-- Every resource was released or is held, once. -/
def Balanced (l : Ledger) (held : List ℕ) : Prop := (l.released ++ held).Perm (List.range l.next)

variable {l l' : Ledger} {held held' : List ℕ} {r : ℕ}

theorem balanced_empty : empty.Balanced [] := List.Perm.refl _

theorem Balanced.perm (h : l.Balanced held) (hp : held.Perm held') : l.Balanced held' :=
  (hp.symm.append_left _).trans h

theorem Balanced.acquire (h : l.Balanced held) : l.acquire.Balanced (l.next :: held) := by
  change (l.released ++ l.next :: held).Perm (List.range (l.next + 1))
  rw [List.range_succ]
  exact List.perm_middle.trans ((h.cons _).trans (List.perm_append_singleton _ _).symm)

/-- What was acquired in a row. -/
theorem Balanced.acquires (h : l.Balanced held) (k : ℕ) :
    ({ l with next := l.next + k } : Ledger).Balanced (List.range' l.next k ++ held) := by
  induction k with
  | zero => exact h
  | succ k ih =>
    refine (ih.acquire).perm ?_
    rw [List.range'_concat, Nat.one_mul]
    exact (List.perm_middle.symm.trans (by rw [List.append_assoc]; rfl))

theorem Balanced.release (h : l.Balanced (r :: held)) : (l.release r).Balanced held :=
  List.perm_middle.symm.trans h

theorem Balanced.releases {rs : List ℕ} (h : l.Balanced (rs ++ held)) :
    (rs.foldl Ledger.release l).Balanced held := by
  induction rs generalizing l with
  | nil => exact h
  | cons r rs ih => exact ih h.release

/-- What was acquired in between was released. -/
theorem Balanced.settled (h : l.Balanced held) (hs : l.Settled l') : l'.Balanced held := by
  obtain ⟨hle, hperm⟩ := hs
  have hrange : List.range l'.next = List.range l.next ++ List.range' l.next (l'.next - l.next) := by
    have happend := @List.range'_append_1 0 l.next (l'.next - l.next)
    rw [Nat.zero_add, Nat.add_sub_cancel' hle] at happend
    rw [List.range_eq_range', List.range_eq_range', happend]
  rw [Balanced, hrange]
  refine (hperm.append_right held).trans ?_
  rw [List.append_assoc]
  exact List.perm_append_comm.trans (h.append_right _)

theorem Balanced.nodup (h : l.Balanced held) : (l.released ++ held).Nodup :=
  h.nodup_iff.mpr List.nodup_range

/-- What is held is open. -/
theorem Balanced.isOpen (h : l.Balanced held) (hr : r ∈ held) : l.Open r :=
  ⟨List.mem_range.mp (h.mem_iff.mp (List.mem_append_right _ hr)), fun hmem =>
    (List.nodup_append'.mp h.nodup).2.2 hmem hr⟩

/-- What is open is held. -/
theorem Balanced.kept (h : l.Balanced held) (hr : l.Open r) : r ∈ held :=
  (List.mem_append.mp (h.mem_iff.mpr (List.mem_range.mpr hr.1))).resolve_left hr.2

end HardwareDrivers.Theory.Ledger
