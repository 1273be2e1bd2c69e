import Mathlib.Order.CompletePartialOrder
import Mathlib.Order.Interval.Set.Disjoint
import HardwareDrivers.Theory.OrderedMap

/-!
# Maps of regions

An ordered map read as a set of regions: the entry `start ↦ (target, length)` says
that the addresses from `start` on, `length` of them, are taken to those from
`target` on. The entry of the nearest lower key is the region of an address, if any
is, as long as the regions are disjoint and none is empty.

## What is proved

* `disjoint_set_iff` — when a new or changed entry leaves the regions disjoint.
* `entryLE?_of_mem` — the nearest lower key is the key of the region.
-/

namespace HardwareDrivers.Theory

/-- A map from the start of each region to its target and its length. -/
abbrev RegionMap := OrderedMap ℕ (ℕ × ℕ)

namespace RegionMap

variable {m : RegionMap} {a k p n : ℕ}

/-- The regions of distinct entries have no address in common. -/
def RegionsDisjoint (m : RegionMap) : Prop :=
  ∀ k l e f, k ≠ l → m.get k = some e → m.get l = some f →
    Disjoint (Set.Ico k (k + e.2)) (Set.Ico l (l + f.2))

/-- No region that starts below `a` reaches past it. -/
def NoneReaches (m : RegionMap) (a : ℕ) : Prop :=
  ∀ k e, m.get k = some e → k < a → k + e.2 ≤ a

/-- No region with an address starts above `a` and before `b`. -/
def NoneStarts (m : RegionMap) (a b : ℕ) : Prop :=
  ∀ k e, m.get k = some e → a < k → e.2 = 0 ∨ b ≤ k

/-- No region is empty. -/
def RegionsPos (m : RegionMap) : Prop := ∀ k e, m.get k = some e → 0 < e.2

theorem regionsDisjoint_empty : RegionsDisjoint OrderedMap.empty := by
  intro k l e f _ hk
  cases hk

theorem RegionsDisjoint.erase (h : RegionsDisjoint m) (k : ℕ) : RegionsDisjoint (m.erase k) := by
  intro a b e f hab ha hb
  rw [OrderedMap.get_erase] at ha hb
  split_ifs at ha hb
  exact h a b e f hab ha hb

/-- **When an entry can be set.** The new region is empty, or it lies between those
below and those above. -/
theorem disjoint_set_iff (h : RegionsDisjoint m) :
    RegionsDisjoint (m.set a (p, n)) ↔ n = 0 ∨ NoneReaches m a ∧ NoneStarts m a (a + n) := by
  constructor
  · intro hd
    by_cases hn : n = 0
    · exact .inl hn
    have hne : ∀ k e, m.get k = some e → k ≠ a → min (a + n) (k + e.2) ≤ max a k := by
      intro k e hk hka
      refine Set.Ico_disjoint_Ico.mp (hd a k (p, n) e hka.symm (OrderedMap.get_set_self _ _ _) ?_)
      rwa [OrderedMap.get_set_of_ne _ hka]
    refine .inr ⟨fun k e hk hlt => ?_, fun k e hk hlt => ?_⟩
    · have := hne k e hk (by omega)
      omega
    · have := hne k e hk (by omega)
      omega
  · intro hn
    -- the new entry against an old one
    have hnew : ∀ k e, m.get k = some e → k ≠ a →
        Disjoint (Set.Ico a (a + n)) (Set.Ico k (k + e.2)) := by
      intro k e hk hka
      rw [Set.Ico_disjoint_Ico]
      rcases hn with hn | ⟨hr, hs⟩
      · omega
      · rcases Nat.lt_or_gt_of_ne hka with hlt | hgt
        · have := hr k e hk hlt
          omega
        · have := hs k e hk hgt
          omega
    intro k l e f hkl hk hl
    rw [OrderedMap.get_set] at hk hl
    split_ifs at hk hl with hka hla hla
    · exact absurd (hka.trans hla.symm) hkl
    · subst hka
      cases hk
      exact hnew l f hl hla
    · subst hla
      cases hl
      exact (hnew k e hk hka).symm
    · exact h k l e f hkl hk hl

/-- **The nearest lower key.** With disjoint regions, none of them empty, the search for
the greatest key that is at most an address of a region finds that region. -/
theorem entryLE?_of_mem (hd : RegionsDisjoint m) (hp : RegionsPos m) (hk : m.get k = some (p, n))
    (hle : k ≤ a) (hlt : a < k + n) : m.entryLE? a = some (k, p, n) := by
  refine OrderedMap.entryLE?_eq_some.mpr ⟨hk, hle, fun l hl hs => ?_⟩
  obtain ⟨e, he⟩ := Option.isSome_iff_exists.mp hs
  by_contra hkl
  have hdis := Set.Ico_disjoint_Ico.mp (hd k l (p, n) e (by omega) hk he)
  have hpos := hp l e he
  simp only at hdis
  omega

end RegionMap

end HardwareDrivers.Theory
