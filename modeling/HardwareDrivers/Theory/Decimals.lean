import Mathlib.Data.List.Basic

/-!
# Decimal numbers in a text

A number is written by `Nat.toDigits 10`; what follows it does not start with a digit. Then the digits
and what follows are determined by the text (`append_inj`), and so is the number (`toDigits_inj`).
-/

namespace HardwareDrivers.Theory.Decimals

/-- No digit comes first. -/
def NoDigitHead (text : List Char) : Prop := ∀ c ∈ text.head?, c.isDigit = false

@[simp] theorem noDigitHead_nil : NoDigitHead [] := by simp [NoDigitHead]

@[simp] theorem noDigitHead_cons {c : Char} {text : List Char} :
    NoDigitHead (c :: text) ↔ c.isDigit = false := by simp [NoDigitHead]

theorem isDigit_of_mem {n : ℕ} {c : Char} (h : c ∈ Nat.toDigits 10 n) : c.isDigit = true :=
  Nat.isDigit_of_mem_toDigits (by decide) (by decide) h

theorem toDigits_inj {m n : ℕ} (h : Nat.toDigits 10 m = Nat.toDigits 10 n) : m = n := by
  rw [← Nat.ofDigitChars_ten_toDigits (n := m), h, Nat.ofDigitChars_ten_toDigits]

/-- Digits end where no digit comes. -/
theorem takeWhile_append {a r : List Char} (ha : ∀ c ∈ a, c.isDigit = true) (hr : NoDigitHead r) :
    (a ++ r).takeWhile Char.isDigit = a := by
  rw [List.takeWhile_append_of_pos ha]
  cases r with
  | nil => simp
  | cons c r => rw [List.takeWhile_cons_of_neg (by simpa using hr), List.append_nil]

theorem dropWhile_append {a r : List Char} (ha : ∀ c ∈ a, c.isDigit = true) (hr : NoDigitHead r) :
    (a ++ r).dropWhile Char.isDigit = r := by
  rw [List.dropWhile_append_of_pos ha]
  cases r with
  | nil => simp
  | cons c r => rw [List.dropWhile_cons_of_neg (by simpa using hr)]

theorem append_inj {a b r r' : List Char} (ha : ∀ c ∈ a, c.isDigit = true)
    (hb : ∀ c ∈ b, c.isDigit = true) (hr : NoDigitHead r) (hr' : NoDigitHead r')
    (h : a ++ r = b ++ r') : a = b ∧ r = r' := by
  constructor
  · rw [← takeWhile_append ha hr, h, takeWhile_append hb hr']
  · rw [← dropWhile_append ha hr, h, dropWhile_append hb hr']

end HardwareDrivers.Theory.Decimals
