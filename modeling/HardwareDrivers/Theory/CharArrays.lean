import HardwareDrivers.Theory.Faults

/-!
# Texts in arrays

A text in an array of characters goes as far as the first terminator. The functions of a library that
copy texts say nothing of one that is too long for the array, and what reads a text without a
terminator leaves the array.

## What is proved

* `Holds.readText` — what is read of an array that holds a text is the text.
* `holds_zero`, `holds_memcpy`, `Holds.store_length`, `Holds.store_last` — how an array comes to hold a text.
-/

namespace HardwareDrivers.Theory.CharArray

universe u

variable {φ : Type} {α : Type u} {n : ℕ}

/-- `memset` of the whole array. -/
def zero (nul : α) : Fin n → α := fun _ => nul

/-- `memcpy` of a text to the beginning of an array. -/
def memcpy (fault : φ) (a : Fin n → α) (text : List α) : Except φ (Fin n → α) :=
  if text.length ≤ n then .ok fun i => (text[i.val]?).getD (a i) else .error fault

/-- `a[i] = c`. -/
def store (fault : φ) (a : Fin n → α) (i : ℤ) (c : α) : Except φ (Fin n → α) :=
  if 0 ≤ i then (indexed n fault i.toNat).map fun j => Function.update a j c else .error fault

/-- The text in an array, as far as its terminator. -/
def readText [DecidableEq α] (fault : φ) (nul : α) (a : Fin n → α) : Except φ (List α) :=
  let text := (List.ofFn a).takeWhile (· ≠ nul)
  if text.length < n then .ok text else .error fault

/-- An array holds a text, with terminators behind it. -/
structure Holds (nul : α) (a : Fin n → α) (text : List α) : Prop where
  /-- It is shorter than the array. -/
  room : text.length < n
  /-- The terminator is none of its characters. -/
  plain : nul ∉ text
  /-- What is in the array. -/
  get : ∀ i : Fin n, a i = (text[i.val]?).getD nul

variable {nul : α} {a b : Fin n → α} {text : List α} {fault : φ}

theorem ofFn_of_holds (h : Holds nul a text) :
    List.ofFn a = text ++ List.replicate (n - text.length) nul := by
  have hroom := h.room
  apply List.ext_getElem
  · rw [List.length_ofFn, List.length_append, List.length_replicate]
    omega
  · intro i hi hi'
    rw [List.getElem_ofFn, h.get, List.getElem_append]
    split_ifs with hlt
    · rw [List.getElem?_eq_getElem hlt, Option.getD_some]
    · rw [List.getElem?_eq_none (Nat.le_of_not_lt hlt), Option.getD_none, List.getElem_replicate]

/-- **What is read of an array** that holds a text. -/
theorem Holds.readText [DecidableEq α] (h : Holds nul a text) : readText fault nul a = .ok text := by
  have hroom := h.room
  have htext : (List.ofFn a).takeWhile (· ≠ nul) = text := by
    obtain ⟨k, hk⟩ : ∃ k, n - text.length = k + 1 := ⟨n - text.length - 1, by omega⟩
    rw [ofFn_of_holds h, hk, List.replicate_succ, List.takeWhile_append_of_pos]
    · rw [List.takeWhile_cons_of_neg (by simp), List.append_nil]
    · intro c hc
      have hne : c ≠ nul := fun heq => h.plain (heq ▸ hc)
      exact decide_eq_true hne
  unfold CharArray.readText
  rw [htext]
  exact if_pos hroom

/-- An array that was cleared. -/
theorem holds_zero (hn : 0 < n) : Holds nul (zero nul : Fin n → α) [] :=
  ⟨hn, List.not_mem_nil, fun _ => rfl⟩

variable (fault) in
/-- A text at the beginning of one that was cleared. -/
theorem holds_memcpy (hroom : text.length < n) (hplain : nul ∉ text) :
    ∃ b, memcpy fault (zero nul : Fin n → α) text = .ok b ∧ Holds nul b text :=
  ⟨_, if_pos hroom.le, hroom, hplain, fun _ => rfl⟩

variable (fault) in
/-- A character behind the text. -/
theorem Holds.store_length {c : α} (h : Holds nul a text) (hroom : text.length + 1 < n) (hc : c ≠ nul) :
    ∃ b, store fault a text.length c = .ok b ∧ Holds nul b (text ++ [c]) := by
  refine ⟨Function.update a ⟨text.length, h.room⟩ c, ?_, ?_, ?_, ?_⟩
  · unfold store
    rw [if_pos (by omega), Int.toNat_natCast, indexed_of_lt h.room]
    rfl
  · rwa [List.length_append, List.length_singleton]
  · rintro hmem
    rcases List.mem_append.mp hmem with hmem | hmem
    · exact h.plain hmem
    · exact hc (List.mem_singleton.mp hmem).symm
  · intro i
    by_cases hi : i = ⟨text.length, h.room⟩
    · rw [hi, Function.update_self, List.getElem?_append_right le_rfl, Nat.sub_self]
      rfl
    · have hne : i.val ≠ text.length := fun heq => hi (Fin.ext heq)
      rw [Function.update_of_ne hi, h.get]
      rcases Nat.lt_or_ge i.val text.length with hlt | hge
      · rw [List.getElem?_append_left hlt]
      · rw [List.getElem?_eq_none hge, List.getElem?_eq_none]
        rw [List.length_append, List.length_singleton]
        omega

/-- The last character of the text, once more. -/
theorem Holds.store_last {c : α} (h : Holds nul a text) (hlast : text.getLast? = some c) :
    store fault a (text.length - 1 : ℕ) c = .ok a := by
  have hne : text ≠ [] := by
    rintro rfl
    cases hlast
  have hpos := List.length_pos_iff.mpr hne
  have hlt : text.length - 1 < n := by
    have hroom := h.room
    omega
  have hget : a ⟨text.length - 1, hlt⟩ = c := by
    rw [h.get, ← List.getLast?_eq_getElem?, hlast]
    rfl
  unfold store
  rw [if_pos (by omega), Int.toNat_natCast, indexed_of_lt hlt, ← hget]
  simp [Except.map]

end HardwareDrivers.Theory.CharArray
