import Mathlib.Data.Finset.Card
import Mathlib.Data.List.FinRange
import Mathlib.Data.List.Perm.Basic
import Mathlib.Logic.Function.Basic

/-!
# Tables of slots

A table of a fixed number of slots, each free or with an entry. What matters of a table is
often only which entries it has, whatever the slots are: a list up to order.

## What is proved

* `Slots.entries_fill`, `Slots.entries_clear` — filling a free slot adds its entry to the
  entries, clearing a slot takes it away.
-/

namespace HardwareDrivers.Theory

universe u

/-- A table with `n` slots. -/
abbrev Slots (n : ℕ) (β : Type u) := Fin n → Option β

namespace Slots

variable {n : ℕ} {β : Type u} {t : Slots n β} {i : Fin n} {b : β}

/-- The entries, in the order of their slots. -/
def entries (t : Slots n β) : List β := (List.finRange n).filterMap t

/-- The first slot that is free. -/
def firstFree (t : Slots n β) : Option (Fin n) := (List.finRange n).find? fun i => (t i).isNone

@[simp] theorem mem_entries : b ∈ t.entries ↔ ∃ i, t i = some b := by
  simp only [entries, List.mem_filterMap, List.mem_finRange, true_and]

theorem mem_entries_of_eq (h : t i = some b) : b ∈ t.entries := mem_entries.mpr ⟨i, h⟩

theorem eq_none_of_firstFree (h : t.firstFree = some i) : t i = none := by
  have hnone := List.find?_some (p := fun i => (t i).isNone) h
  exact Option.isNone_iff_eq_none.mp hnone

/-- A table without entries. -/
theorem entries_eq_nil_iff : t.entries = [] ↔ ∀ i, t i = none := by
  simp only [entries, List.filterMap_eq_nil_iff, List.mem_finRange, true_imp_iff]

/-- A slot that is not looked at. -/
theorem filterMap_update_of_notMem {l : List (Fin n)} (hi : i ∉ l) (o : Option β) :
    l.filterMap (Function.update t i o) = l.filterMap t := by
  refine List.filterMap_congr fun j hj => ?_
  rw [Function.update_of_ne]
  rintro rfl
  exact hi hj

/-- The entry of one slot, and those of the others. -/
theorem filterMap_perm {l : List (Fin n)} (hl : l.Nodup) (hi : i ∈ l) (h : t i = some b) :
    (l.filterMap t).Perm (b :: l.filterMap (Function.update t i none)) := by
  induction l with
  | nil => cases hi
  | cons j l ih =>
    obtain ⟨hj, hl⟩ := List.nodup_cons.mp hl
    by_cases hij : i = j
    · subst hij
      rw [List.filterMap_cons_some h, List.filterMap_cons_none (Function.update_self ..),
        filterMap_update_of_notMem hj]
    · have hupd : Function.update t i none j = t j := Function.update_of_ne (Ne.symm hij) ..
      have hrest := ih hl ((List.mem_cons.mp hi).resolve_left hij)
      cases htj : t j with
      | none =>
        rw [List.filterMap_cons_none htj, List.filterMap_cons_none (hupd.trans htj)]
        exact hrest
      | some c =>
        rw [List.filterMap_cons_some htj, List.filterMap_cons_some (hupd.trans htj)]
        exact (hrest.cons c).trans (List.Perm.swap ..)

/-- **Clearing** a slot takes its entry away. -/
theorem entries_clear (h : t i = some b) :
    t.entries.Perm (b :: entries (Function.update t i none)) :=
  filterMap_perm (List.nodup_finRange n) (List.mem_finRange i) h

/-- **Filling** a free slot adds its entry. -/
theorem entries_fill (h : t i = none) (b : β) :
    (entries (Function.update t i (some b))).Perm (b :: t.entries) := by
  have hclear := entries_clear (t := Function.update t i (some b)) (Function.update_self ..)
  rwa [Function.update_idem, ← h, Function.update_eq_self] at hclear

end Slots

end HardwareDrivers.Theory
