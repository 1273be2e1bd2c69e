import HardwareDrivers.Theory.Transition
import Mathlib.Data.Set.Insert
import Mathlib.Logic.ExistsUnique

/-!
# Leases

Resources that holders take and put back, each holder at most one at a time. Who has
what is recorded twice: a resource is marked while it is taken, and a holder notes the
resource it has. The two records agree.

## What is proved

* `Leases.take`, `Leases.put` — taking a free resource, by a holder that has none, and
  putting back the one that a holder has keep the records in agreement.
* `Leases.mem_used_iff` — a resource is taken exactly if exactly one holder has it.
-/

namespace HardwareDrivers.Theory

universe u v

/-- The two records. -/
structure Leases (ρ : Type u) (η : Type v) where
  /-- The resources that are taken. -/
  used : Set ρ
  /-- The resource that each holder has. -/
  owner : η → Option ρ
  /-- What a holder has is taken. -/
  mem_used : ∀ {h r}, owner h = some r → r ∈ used
  /-- What is taken is had by a holder. -/
  exists_owner : ∀ {r}, r ∈ used → ∃ h, owner h = some r
  /-- No two holders have the same. -/
  owner_inj : ∀ {g h r}, owner g = some r → owner h = some r → g = h

namespace Leases

variable {ρ : Type u} {η : Type v}

/-- Nothing is taken. -/
def empty : Leases ρ η where
  used := ∅
  owner _ := none
  mem_used hh := by cases hh
  exists_owner hr := False.elim hr
  owner_inj hg := by cases hg

variable (L : Leases ρ η) {h : η} {r : ρ}

theorem mem_used_iff : r ∈ L.used ↔ ∃! h, L.owner h = some r := by
  constructor
  · intro hr
    obtain ⟨h, hh⟩ := L.exists_owner hr
    exact ⟨h, hh, fun g hg => L.owner_inj hg hh⟩
  · rintro ⟨h, hh, -⟩
    exact L.mem_used hh

variable [DecidableEq η]

/-- A holder that has nothing takes a free resource. -/
def take (h : η) (r : ρ) (hr : r ∉ L.used) (hh : L.owner h = none) : Leases ρ η where
  used := insert r L.used
  owner := Function.update L.owner h (some r)
  mem_used := by
    intro g r' hg
    rcases update_cases (· = some r') hg with ⟨-, he⟩ | ⟨-, hg'⟩
    · cases he
      exact Set.mem_insert _ _
    · exact Set.mem_insert_of_mem _ (L.mem_used hg')
  exists_owner := by
    rintro r' (rfl | hr')
    · exact ⟨h, Function.update_self ..⟩
    · obtain ⟨g, hg⟩ := L.exists_owner hr'
      have hgh : g ≠ h := by
        rintro rfl
        rw [hh] at hg
        cases hg
      exact ⟨g, by rw [Function.update_of_ne hgh, hg]⟩
  owner_inj := by
    intro g g' r' hg hg'
    rcases update_cases (· = some r') hg with ⟨rfl, he⟩ | ⟨-, hg₁⟩
    · rcases update_cases (· = some r') hg' with ⟨rfl, -⟩ | ⟨-, hg₂⟩
      · rfl
      · cases he
        exact absurd (L.mem_used hg₂) hr
    · rcases update_cases (· = some r') hg' with ⟨rfl, he⟩ | ⟨-, hg₂⟩
      · cases he
        exact absurd (L.mem_used hg₁) hr
      · exact L.owner_inj hg₁ hg₂

/-- A holder puts back what it has. -/
def put (h : η) (r : ρ) (hh : L.owner h = some r) : Leases ρ η where
  used := {r' ∈ L.used | r' ≠ r}
  owner := Function.update L.owner h none
  mem_used := by
    intro g r' hg
    rcases update_cases (· = some r') hg with ⟨-, he⟩ | ⟨hgh, hg'⟩
    · cases he
    · refine ⟨L.mem_used hg', ?_⟩
      rintro rfl
      exact hgh (L.owner_inj hg' hh)
  exists_owner := by
    rintro r' ⟨hr', hne⟩
    obtain ⟨g, hg⟩ := L.exists_owner hr'
    have hgh : g ≠ h := by
      rintro rfl
      rw [hh] at hg
      cases hg
      exact hne rfl
    exact ⟨g, by rw [Function.update_of_ne hgh, hg]⟩
  owner_inj := by
    intro g g' r' hg hg'
    rcases update_cases (· = some r') hg with ⟨-, he⟩ | ⟨-, hg₁⟩
    · cases he
    · rcases update_cases (· = some r') hg' with ⟨-, he⟩ | ⟨-, hg₂⟩
      · cases he
      · exact L.owner_inj hg₁ hg₂

end Leases

end HardwareDrivers.Theory
