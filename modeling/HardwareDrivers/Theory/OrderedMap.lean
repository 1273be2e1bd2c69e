import Mathlib.Data.Finset.Max
import Mathlib.Data.Option.Basic

/-!
# Ordered maps

Finite maps whose keys are linearly ordered, with the searches an ordered
container offers besides lookup: the entry of the greatest key that is at most a
given one (`entryLE?`, what an iterator one before the upper bound points to) and
the entry of the least key that is greater (`entryGT?`, the upper bound itself).
The keys are kept as a finite set beside the lookup function, and a map carries
the proof that the two agree.
-/

namespace HardwareDrivers.Theory

universe u v

/-- A finite map with ordered keys. -/
structure OrderedMap (κ : Type u) (ν : Type v) [LinearOrder κ] where
  /-- Lookup. -/
  get : κ → Option ν
  /-- The keys present. -/
  keys : Finset κ
  /-- The keys are those lookup finds. -/
  mem_keys : ∀ k, k ∈ keys ↔ (get k).isSome

namespace OrderedMap

variable {κ : Type u} {ν : Type v} [LinearOrder κ]

/-- Two maps with the same lookups are the same. -/
@[ext] theorem ext {m m' : OrderedMap κ ν} (h : ∀ k, m.get k = m'.get k) : m = m' := by
  obtain ⟨g, ks, hk⟩ := m
  obtain ⟨g', ks', hk'⟩ := m'
  obtain rfl : g = g' := funext h
  obtain rfl : ks = ks' := by
    ext k
    rw [hk, hk']
  rfl

/-- The empty map. -/
def empty : OrderedMap κ ν where
  get _ := none
  keys := ∅
  mem_keys := by simp

/-- The map after `m[k] = v`. -/
def set (m : OrderedMap κ ν) (k : κ) (v : ν) : OrderedMap κ ν where
  get := Function.update m.get k (some v)
  keys := insert k m.keys
  mem_keys a := by
    by_cases h : a = k
    · simp [h]
    · simp [h, m.mem_keys]

/-- The map without the entry of `k`. -/
def erase (m : OrderedMap κ ν) (k : κ) : OrderedMap κ ν where
  get := Function.update m.get k none
  keys := m.keys.erase k
  mem_keys a := by
    by_cases h : a = k
    · simp [h]
    · simp [h, m.mem_keys]

@[simp] theorem get_empty (k : κ) : (empty : OrderedMap κ ν).get k = none := rfl

theorem get_set (m : OrderedMap κ ν) (k a : κ) (v : ν) :
    (m.set k v).get a = if a = k then some v else m.get a := by
  simp only [set, Function.update_apply]

theorem get_erase (m : OrderedMap κ ν) (k a : κ) :
    (m.erase k).get a = if a = k then none else m.get a := by
  simp only [erase, Function.update_apply]

@[simp] theorem get_set_self (m : OrderedMap κ ν) (k : κ) (v : ν) : (m.set k v).get k = some v := by
  simp [get_set]

theorem get_set_of_ne (m : OrderedMap κ ν) {k a : κ} (h : a ≠ k) (v : ν) :
    (m.set k v).get a = m.get a := by
  simp [get_set, h]

@[simp] theorem get_erase_self (m : OrderedMap κ ν) (k : κ) : (m.erase k).get k = none := by
  simp [get_erase]

theorem get_erase_of_ne (m : OrderedMap κ ν) {k a : κ} (h : a ≠ k) :
    (m.erase k).get a = m.get a := by
  simp [get_erase, h]

/-- Setting a new key and erasing it again changes nothing. -/
theorem erase_set {m : OrderedMap κ ν} {k : κ} (h : m.get k = none) (v : ν) :
    (m.set k v).erase k = m := by
  ext a
  by_cases ha : a = k
  · simp [ha, h]
  · simp [get_erase, get_set, ha]

/-- Erasing a key before setting it makes no difference. -/
theorem set_erase (m : OrderedMap κ ν) (k : κ) (v : ν) : (m.erase k).set k v = m.set k v := by
  ext a
  by_cases ha : a = k
  · simp [ha]
  · simp [get_erase, get_set, ha]

/-! ### Nearest keys -/

/-- The entry of a key that lookup finds. -/
def entryAt (m : OrderedMap κ ν) (k : κ) : Option (κ × ν) := (m.get k).map fun v => (k, v)

/-- The entry of the greatest key that is at most `x`. -/
def entryLE? (m : OrderedMap κ ν) (x : κ) : Option (κ × ν) :=
  if h : (m.keys.filter (· ≤ x)).Nonempty then m.entryAt ((m.keys.filter (· ≤ x)).max' h) else none

/-- The entry of the least key that is greater than `x`. -/
def entryGT? (m : OrderedMap κ ν) (x : κ) : Option (κ × ν) :=
  if h : (m.keys.filter (x < ·)).Nonempty then m.entryAt ((m.keys.filter (x < ·)).min' h) else none

theorem entryAt_eq_some {m : OrderedMap κ ν} {k k' : κ} {v : ν} :
    m.entryAt k' = some (k, v) ↔ k' = k ∧ m.get k = some v := by
  simp only [entryAt, Option.map_eq_some_iff, Prod.mk.injEq]
  constructor
  · rintro ⟨w, hw, rfl, rfl⟩
    exact ⟨rfl, hw⟩
  · rintro ⟨rfl, hv⟩
    exact ⟨v, hv, rfl, rfl⟩

/-- What `entryLE?` finds is an entry, and no key lies between it and `x`. -/
theorem entryLE?_eq_some {m : OrderedMap κ ν} {x k : κ} {v : ν} :
    m.entryLE? x = some (k, v) ↔
      m.get k = some v ∧ k ≤ x ∧ ∀ a ≤ x, (m.get a).isSome → a ≤ k := by
  unfold entryLE?
  split_ifs with h
  · rw [entryAt_eq_some]
    constructor
    · rintro ⟨rfl, hv⟩
      refine ⟨hv, (Finset.mem_filter.mp (Finset.max'_mem _ h)).2, fun a ha hs => ?_⟩
      exact Finset.le_max' _ _ (Finset.mem_filter.mpr ⟨(m.mem_keys a).mpr hs, ha⟩)
    · rintro ⟨hv, hk, hmax⟩
      refine ⟨?_, hv⟩
      have hmem := Finset.mem_filter.mp (Finset.max'_mem _ h)
      refine le_antisymm (hmax _ hmem.2 ((m.mem_keys _).mp hmem.1)) (Finset.le_max' _ _ ?_)
      exact Finset.mem_filter.mpr ⟨(m.mem_keys k).mpr (by simp [hv]), hk⟩
  · simp only [false_iff]
    rintro ⟨hv, hk, -⟩
    exact h ⟨k, Finset.mem_filter.mpr ⟨(m.mem_keys k).mpr (by simp [hv]), hk⟩⟩

/-- `entryLE?` finds nothing when no key is at most `x`. -/
theorem entryLE?_eq_none {m : OrderedMap κ ν} {x : κ} :
    m.entryLE? x = none ↔ ∀ a ≤ x, m.get a = none := by
  unfold entryLE?
  split_ifs with h
  · obtain ⟨hmem, hle⟩ := Finset.mem_filter.mp (Finset.max'_mem _ h)
    obtain ⟨v, hv⟩ := Option.isSome_iff_exists.mp ((m.mem_keys _).mp hmem)
    constructor
    · intro hn
      simp [entryAt, hv] at hn
    · intro hn
      rw [hn _ hle] at hv
      cases hv
  · simp only [true_iff]
    intro a ha
    by_contra hs
    refine h ⟨a, Finset.mem_filter.mpr ⟨(m.mem_keys a).mpr ?_, ha⟩⟩
    exact Option.isSome_iff_ne_none.mpr hs

/-- What `entryGT?` finds is an entry above `x`, and no key lies between. -/
theorem entryGT?_eq_some {m : OrderedMap κ ν} {x k : κ} {v : ν} :
    m.entryGT? x = some (k, v) ↔
      m.get k = some v ∧ x < k ∧ ∀ a, x < a → (m.get a).isSome → k ≤ a := by
  unfold entryGT?
  split_ifs with h
  · rw [entryAt_eq_some]
    constructor
    · rintro ⟨rfl, hv⟩
      refine ⟨hv, (Finset.mem_filter.mp (Finset.min'_mem _ h)).2, fun a ha hs => ?_⟩
      exact Finset.min'_le _ _ (Finset.mem_filter.mpr ⟨(m.mem_keys a).mpr hs, ha⟩)
    · rintro ⟨hv, hk, hmin⟩
      refine ⟨?_, hv⟩
      have hmem := Finset.mem_filter.mp (Finset.min'_mem _ h)
      refine le_antisymm (Finset.min'_le _ _ ?_) (hmin _ hmem.2 ((m.mem_keys _).mp hmem.1))
      exact Finset.mem_filter.mpr ⟨(m.mem_keys k).mpr (by simp [hv]), hk⟩
  · simp only [false_iff]
    rintro ⟨hv, hk, -⟩
    exact h ⟨k, Finset.mem_filter.mpr ⟨(m.mem_keys k).mpr (by simp [hv]), hk⟩⟩

/-- `entryGT?` finds nothing when no key is greater than `x`. -/
theorem entryGT?_eq_none {m : OrderedMap κ ν} {x : κ} :
    m.entryGT? x = none ↔ ∀ a, x < a → m.get a = none := by
  unfold entryGT?
  split_ifs with h
  · obtain ⟨hmem, hlt⟩ := Finset.mem_filter.mp (Finset.min'_mem _ h)
    obtain ⟨v, hv⟩ := Option.isSome_iff_exists.mp ((m.mem_keys _).mp hmem)
    constructor
    · intro hn
      simp [entryAt, hv] at hn
    · intro hn
      rw [hn _ hlt] at hv
      cases hv
  · simp only [true_iff]
    intro a ha
    by_contra hs
    refine h ⟨a, Finset.mem_filter.mpr ⟨(m.mem_keys a).mpr ?_, ha⟩⟩
    exact Option.isSome_iff_ne_none.mpr hs

/-- Setting a key does not move the next greater entry. -/
theorem entryGT?_set (m : OrderedMap κ ν) (x : κ) (v : ν) : (m.set x v).entryGT? x = m.entryGT? x := by
  cases h : m.entryGT? x with
  | none =>
    rw [entryGT?_eq_none] at h ⊢
    exact fun a ha => by rw [get_set_of_ne _ ha.ne', h a ha]
  | some e =>
    obtain ⟨k, w⟩ := e
    rw [entryGT?_eq_some] at h ⊢
    obtain ⟨hk, hlt, hmin⟩ := h
    refine ⟨by rw [get_set_of_ne _ hlt.ne', hk], hlt, fun a ha hs => hmin a ha ?_⟩
    rwa [get_set_of_ne _ ha.ne'] at hs

end OrderedMap

end HardwareDrivers.Theory
