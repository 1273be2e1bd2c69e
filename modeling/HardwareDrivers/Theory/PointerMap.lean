import Mathlib.Data.Set.Insert
import Mathlib.Logic.Function.Basic

/-!
# Maps of pointers

A `std::map` to pointers that own what they point to. `find` only looks; `operator[]` puts a null
pointer under a key that is missing, and what is reached through it is a null pointer. Where nothing
is reached by `operator[]` under a missing key, there are no null pointers in the map, and its keys
are those that were assigned and not erased.

## What is proved

* `PointerMap.arrow_of_live`, `PointerMap.arrow_of_missing` — what `operator[]` and `->` come to.
* `PointerMap.NoNull.assign`, `PointerMap.NoNull.erase`, `PointerMap.NoNull.arrow` — no null pointers
  come into the map.
* `PointerMap.keys_assign`, `PointerMap.keys_erase`, `PointerMap.keys_arrow` — its keys.
-/

namespace HardwareDrivers.Theory

universe u v w

/-- A map of pointers: a key may be missing, and the pointer under it may be null. -/
abbrev PointerMap (κ : Type u) (α : Type v) := κ → Option (Option α)

namespace PointerMap

variable {κ : Type u} {α : Type v} {β : Type w}

/-- `m.find(k) != m.end()`. -/
def contains (m : PointerMap κ α) (k : κ) : Bool := (m k).isSome

/-- Its keys. -/
def keys (m : PointerMap κ α) : Set κ := {k | m.contains k = true}

/-- No pointer in it is null. -/
def NoNull (m : PointerMap κ α) : Prop := ∀ k, m k ≠ some none

/-- The map without keys. -/
def empty : PointerMap κ α := fun _ => none

variable {m : PointerMap κ α} {k : κ} {a : α}

theorem contains_of_eq {p : Option α} (h : m k = some p) : m.contains k = true :=
  Option.isSome_iff_exists.mpr ⟨p, h⟩

theorem eq_none_of_not_contains (h : m.contains k = false) : m k = none :=
  Option.not_isSome_iff_eq_none.mp fun hsome => Bool.false_ne_true (h ▸ hsome)

/-- A pointer that is there is not null. -/
theorem NoNull.live (h : m.NoNull) (hk : m.contains k = true) : ∃ a, m k = some (some a) := by
  obtain ⟨p, hp⟩ := Option.isSome_iff_exists.mp hk
  cases p with
  | none => exact absurd hp (h k)
  | some a => exact ⟨a, hp⟩

theorem noNull_empty : NoNull (empty : PointerMap κ α) := fun _ => nofun

variable [DecidableEq κ]

/-- `m[k]`: a null pointer is put under a key that is missing. -/
def subscript (m : PointerMap κ α) (k : κ) : PointerMap κ α :=
  if m.contains k then m else Function.update m k (some none)

/-- `m[k] = v`. -/
def assign (m : PointerMap κ α) (k : κ) (a : α) : PointerMap κ α :=
  Function.update m k (some (some a))

/-- `m.erase(k)`. -/
def erase (m : PointerMap κ α) (k : κ) : PointerMap κ α := Function.update m k none

/-- `m[k]->f()`, where `f` gives a value and changes what it is called on; there is no value where
the pointer is null. -/
def arrow (m : PointerMap κ α) (k : κ) (f : α → β × α) : Option β × PointerMap κ α :=
  match m.subscript k k with
  | some (some a) => (some (f a).1, m.assign k (f a).2)
  | _ => (none, m.subscript k)

theorem subscript_of_contains (h : m.contains k = true) : m.subscript k = m := if_pos h

/-- **What is reached under a key with a pointer that is not null.** -/
theorem arrow_of_live (h : m k = some (some a)) (f : α → β × α) :
    m.arrow k f = (some (f a).1, m.assign k (f a).2) := by
  unfold arrow
  rw [subscript_of_contains (contains_of_eq h), h]

/-- **Under a missing key a null pointer is reached, and left.** -/
theorem arrow_of_missing (h : m k = none) (f : α → β × α) :
    m.arrow k f = (none, Function.update m k (some none)) := by
  have hsub : m.subscript k = Function.update m k (some none) := by
    unfold subscript contains
    rw [h]
    rfl
  unfold arrow
  rw [hsub, Function.update_self]

theorem NoNull.update (h : m.NoNull) (k : κ) {v : Option (Option α)} (hv : v ≠ some none) :
    NoNull (Function.update m k v) := by
  intro j
  by_cases hj : j = k
  · subst hj
    rwa [Function.update_self]
  · rw [Function.update_of_ne hj]
    exact h j

theorem NoNull.assign (h : m.NoNull) (k : κ) (a : α) : (m.assign k a).NoNull :=
  h.update k (by simp)

theorem NoNull.erase (h : m.NoNull) (k : κ) : (m.erase k).NoNull := h.update k (by simp)

/-- Under a key that is there `operator[]` brings no null pointer. -/
theorem NoNull.arrow (h : m.NoNull) (hk : m.contains k = true) (f : α → β × α) :
    (m.arrow k f).2.NoNull := by
  obtain ⟨a, ha⟩ := h.live hk
  rw [arrow_of_live ha]
  exact h.assign k (f a).2

theorem assign_self (m : PointerMap κ α) (k : κ) (a : α) : m.assign k a k = some (some a) :=
  Function.update_self ..

/-- What was under the key does not matter. -/
theorem assign_assign (m : PointerMap κ α) (k : κ) (a b : α) :
    (m.assign k a).assign k b = m.assign k b := Function.update_idem ..

theorem keys_assign : (m.assign k a).keys = insert k m.keys := by
  ext j
  unfold keys contains PointerMap.assign
  by_cases hj : j = k
  · simp [hj]
  · simp [hj]

theorem keys_erase : (m.erase k).keys = m.keys \ {k} := by
  ext j
  unfold keys contains PointerMap.erase
  by_cases hj : j = k
  · simp [hj]
  · simp [hj]

/-- Under a key that is there `operator[]` brings no key. -/
theorem keys_arrow (h : m.NoNull) (hk : m.contains k = true) (f : α → β × α) :
    (m.arrow k f).2.keys = m.keys := by
  obtain ⟨a, ha⟩ := h.live hk
  rw [arrow_of_live ha, keys_assign]
  exact Set.insert_eq_of_mem hk

end PointerMap

end HardwareDrivers.Theory
