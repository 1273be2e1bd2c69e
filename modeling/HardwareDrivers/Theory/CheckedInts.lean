import HardwareDrivers.Theory.Faults
import Mathlib.Algebra.Order.Ring.Int
import Mathlib.Tactic.Linarith

/-!
# Signed integers with a range, and numbers in two parts

A signed 64-bit operation whose result leaves the range is a fault, as the language
leaves it undefined. A number in two parts is kept as `hi * B + lo`; when such numbers are
added, the low parts are carried with a division that truncates toward zero, so that the
two parts may have opposite signs in between.

## What is proved

* `split_add` — the carry keeps the sum exact, whatever the signs.
* `tmod_lt_base` — the low part stays below the base in size.
* `hi_nonneg`, `hi_le_of_le` — what the whole says about the high part.
-/

namespace HardwareDrivers.Theory

universe u

variable {φ : Type u} {fault : φ} {z : ℤ}

/-- A value of a signed 64-bit type. -/
def InInt64 (z : ℤ) : Prop := -2 ^ 63 ≤ z ∧ z < 2 ^ 63

instance (z : ℤ) : Decidable (InInt64 z) := inferInstanceAs (Decidable (_ ∧ _))

/-- The result of a signed 64-bit operation. -/
def int64 (fault : φ) (z : ℤ) : Except φ ℤ := if InInt64 z then .ok z else .error fault

theorem int64_of_mem (h : InInt64 z) : int64 fault z = .ok z := if_pos h

theorem int64_eq_ok {y : ℤ} : int64 fault z = .ok y ↔ InInt64 z ∧ z = y := by
  by_cases h : InInt64 z
  · rw [int64_of_mem h, Except.ok.injEq, and_iff_right h]
  · rw [int64, if_neg h]
    exact iff_of_false nofun fun hz => h hz.1

/-- A factor of a value of the type. -/
theorem InInt64.of_mul {c : ℤ} (h : InInt64 (z * c)) (hc : 0 < c) : InInt64 z := by
  obtain ⟨hlo, hhi⟩ := h
  constructor
  · by_contra hz
    have : z * c ≤ z * 1 := Int.mul_le_mul_of_nonpos_left (by omega) (by omega)
    omega
  · by_contra hz
    have : z * 1 ≤ z * c := Int.mul_le_mul_of_nonneg_left (by omega) (by omega)
    omega

/-! ### Numbers in two parts -/

section Split

variable {B hi lo : ℤ}

/-- **The carry is exact.** -/
theorem split_add (B hi lo dhi dlo : ℤ) :
    (hi + (dhi + (lo + dlo).tdiv B)) * B + (lo + dlo).tmod B = hi * B + lo + (dhi * B + dlo) := by
  have h := Int.tmod_add_tdiv_mul (lo + dlo) B
  linarith

/-- What is left after the carry is smaller than the base. -/
theorem tmod_lt_base (hB : 0 < B) (a : ℤ) : -B < a.tmod B ∧ a.tmod B < B :=
  ⟨Int.lt_tmod_of_pos a hB, Int.tmod_lt_of_pos a hB⟩

/-- A whole that is not negative has such a high part. -/
theorem hi_nonneg (hB : 0 < B) (hlo : lo < B) (h : 0 ≤ hi * B + lo) : 0 ≤ hi := by
  by_contra hneg
  have : hi * B ≤ -1 * B := Int.mul_le_mul_of_nonneg_right (by omega) hB.le
  omega

/-- A greater whole with a low part in order has a high part that is at least as great, if
the low part is not negative. -/
theorem hi_le_of_le {m l : ℤ} (hB : 0 < B) (hlo : 0 ≤ lo) (hl : l < B)
    (h : hi * B + lo ≤ m * B + l) : hi ≤ m := by
  by_contra hgt
  have : (m + 1) * B ≤ hi * B := Int.mul_le_mul_of_nonneg_right (by omega) hB.le
  linarith

end Split

end HardwareDrivers.Theory
