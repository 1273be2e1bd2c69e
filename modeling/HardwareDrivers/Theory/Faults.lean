import HardwareDrivers.Theory.Transition
import Mathlib.Data.Fintype.Basic
import Mathlib.Data.List.FinRange

/-!
# Computations that may fault

A program in a language without checks goes on after it has left an array, and nothing
can be said of it from there. Such a program is modelled as a computation that ends with
the first fault, `Except φ α`, and a system of such programs as one that stops in the
fault. Strings are bytes in an array that a zero byte ends.

## What is proved

* `noFault_bind` — a sequence is free of faults if its first part is and the rest is for
  what the first part returns.
* `always_noFault_iff` — where a step is free of faults exactly if it meets a condition, a
  run is exactly if all its steps meet it.
* `noFault_foldlM_iff` — a loop is free of faults exactly if its rounds are.
* `noFault_strcpy_iff`, `noFault_strcmp` — copying needs a terminated source, and
  comparing is safe if one of the two is terminated.
* `noFault_readStr_iff` — reading a string, as printing does, needs its end.
-/

namespace HardwareDrivers.Theory

universe u v w

variable {φ : Type u} {α β : Type v}

/-! ### Faults -/

/-- The computation ends without a fault. -/
def NoFault (x : Except φ α) : Prop := ∃ a, x = .ok a

instance (x : Except φ α) : Decidable (NoFault x) :=
  match x with
  | .ok a => isTrue ⟨a, rfl⟩
  | .error _ => isFalse nofun

@[simp] theorem noFault_ok (a : α) : NoFault (.ok a : Except φ α) := ⟨a, rfl⟩

@[simp] theorem noFault_pure (a : α) : NoFault (pure a : Except φ α) := ⟨a, rfl⟩

@[simp] theorem not_noFault_error (e : φ) : ¬ NoFault (.error e : Except φ α) := nofun

@[simp] theorem ok_bind (a : α) (f : α → Except φ β) : (Except.ok a >>= f) = f a := rfl

/-- **One part after another.** -/
theorem noFault_bind {x : Except φ α} {f : α → Except φ β} :
    NoFault (x >>= f) ↔ ∃ a, x = .ok a ∧ NoFault (f a) := by
  cases x with
  | error e => exact iff_of_false nofun nofun
  | ok a =>
    constructor
    · exact fun h => ⟨a, rfl, h⟩
    · rintro ⟨_, ⟨⟩, h⟩
      exact h

theorem bind_eq_ok {x : Except φ α} {f : α → Except φ β} {b : β} :
    x >>= f = .ok b ↔ ∃ a, x = .ok a ∧ f a = .ok b := by
  cases x with
  | error e => exact iff_of_false nofun nofun
  | ok a =>
    constructor
    · exact fun h => ⟨a, rfl, h⟩
    · rintro ⟨_, ⟨⟩, h⟩
      exact h

theorem noFault_map {x : Except φ α} {f : α → β} : NoFault (x.map f) ↔ NoFault x := by
  cases x with
  | error e => exact iff_of_false nofun nofun
  | ok a => exact iff_of_true (noFault_ok _) (noFault_ok _)

theorem map_eq_ok {x : Except φ α} {f : α → β} {b : β} :
    x.map f = .ok b ↔ ∃ a, x = .ok a ∧ f a = b := by
  cases x with
  | error e => exact iff_of_false nofun nofun
  | ok a =>
    constructor
    · rintro ⟨⟩
      exact ⟨a, rfl, rfl⟩
    · rintro ⟨_, ⟨⟩, rfl⟩
      rfl

/-- An index of an array with `n` entries. -/
def indexed (n : ℕ) (fault : φ) (i : ℕ) : Except φ (Fin n) :=
  if h : i < n then .ok ⟨i, h⟩ else .error fault

variable {n : ℕ} {fault : φ} {i : ℕ}

theorem indexed_of_lt (h : i < n) : indexed n fault i = .ok ⟨i, h⟩ := dif_pos h

theorem indexed_eq_ok {j : Fin n} : indexed n fault i = .ok j ↔ i = j := by
  by_cases h : i < n
  · rw [indexed_of_lt h, Except.ok.injEq, Fin.ext_iff]
  · refine iff_of_false ?_ fun he => h (he ▸ j.isLt)
    rw [indexed, dif_neg h]
    nofun

theorem noFault_indexed_iff : NoFault (indexed n fault i) ↔ i < n := by
  constructor
  · intro ⟨j, hj⟩
    rw [indexed_eq_ok] at hj
    exact hj ▸ j.isLt
  · exact fun h => ⟨_, indexed_of_lt h⟩

/-! ### Runs -/

section Runs

variable {σ : Type v} {ω : Type w}

/-- Nothing is done after a fault. -/
def faultStep (exec : σ → ω → Option (Except φ σ)) : Except φ σ → ω → Option (Except φ σ)
  | .error _, _ => none
  | .ok s, a => exec s a

/-- A condition on the state before a step. -/
def BeforeFault (C : σ → ω → Prop) : Except φ σ → ω → Prop
  | .error _, _ => True
  | .ok s, a => C s a

instance (C : σ → ω → Prop) [∀ s a, Decidable (C s a)] :
    ∀ (s : Except φ σ) (a : ω), Decidable (BeforeFault C s a)
  | .error _, _ => isTrue trivial
  | .ok s, a => inferInstanceAs (Decidable (C s a))

/-- **A run is free of faults** exactly if its steps all meet the condition under which a step
is. -/
theorem always_noFault_iff {exec : σ → ω → Option (Except φ σ)} {I : σ → Prop} {C : σ → ω → Prop}
    (hexec : ∀ s a r, I s → exec s a = some r → (NoFault r ↔ C s a))
    (hI : ∀ s a t, I s → exec s a = some (.ok t) → I t) {s : σ} (hs : I s) (as : List ω) :
    Always (faultStep exec) NoFault (.ok s) as ↔
      Along (faultStep exec) (BeforeFault C) (.ok s) as := by
  refine always_iff_along (I := fun r => ∃ s, r = .ok s ∧ I s) ?_ ?_ ?_ ⟨s, rfl, hs⟩ as
  · rintro _ a r ⟨s, rfl, hs⟩ hC hr
    obtain ⟨t, rfl⟩ := (hexec s a r hs hr).mpr hC
    exact ⟨t, rfl, hI s a t hs hr⟩
  · rintro _ ⟨s, rfl, -⟩
    exact ⟨s, rfl⟩
  · rintro _ a r ⟨s, rfl, hs⟩ hr hno
    exact (hexec s a r hs hr).mp hno

/-- A step of a loop. -/
abbrev loopStep (f : σ → ω → Except φ σ) : Except φ σ → ω → Option (Except φ σ) :=
  faultStep fun s a => some (f s a)

/-- A loop whose first round is free of faults. -/
theorem along_loopStep_cons {f : σ → ω → Except φ σ} {C : σ → ω → Prop} {s t : σ} {a : ω}
    {as : List ω} (h : f s a = .ok t) :
    Along (loopStep f) (BeforeFault C) (.ok s) (a :: as) ↔
      C s a ∧ Along (loopStep f) (BeforeFault C) (.ok t) as := by
  constructor
  · intro ha
    have ha := ha _ rfl
    rw [h] at ha
    exact ha
  · rintro ha _ ⟨⟩
    rw [h]
    exact ha

/-- What every round keeps holds after a loop that is free of faults. -/
theorem foldlM_invariant {f : σ → ω → Except φ σ} {I : σ → Prop}
    (hI : ∀ s a t, I s → f s a = .ok t → I t) {s t : σ} (hs : I s) {as : List ω}
    (h : as.foldlM f s = .ok t) : I t := by
  induction as generalizing s with
  | nil =>
    cases h
    exact hs
  | cons a as ih =>
    rw [List.foldlM_cons] at h
    obtain ⟨u, hu, h⟩ := bind_eq_ok.mp h
    exact ih (hI s a u hs hu) h

/-- **A loop is free of faults** exactly if its rounds all meet the condition under which a round
is. -/
theorem noFault_foldlM_iff {f : σ → ω → Except φ σ} {I : σ → Prop} {C : σ → ω → Prop}
    (hf : ∀ s a, I s → (NoFault (f s a) ↔ C s a)) (hI : ∀ s a t, I s → f s a = .ok t → I t)
    {s : σ} (hs : I s) (as : List ω) :
    NoFault (as.foldlM f s) ↔ Along (loopStep f) (BeforeFault C) (.ok s) as := by
  induction as generalizing s with
  | nil => exact iff_of_true (noFault_ok _) trivial
  | cons a as ih =>
    rw [List.foldlM_cons, noFault_bind]
    constructor
    · rintro ⟨t, ht, hrest⟩
      rw [along_loopStep_cons ht]
      exact ⟨(hf s a hs).mp ⟨t, ht⟩, (ih (hI s a t hs ht)).mp hrest⟩
    · intro h
      obtain ⟨t, ht⟩ := (hf s a hs).mpr (h _ rfl).1
      obtain ⟨-, hrest⟩ := (along_loopStep_cons ht).mp h
      exact ⟨t, ht, (ih (hI s a t hs ht)).mpr hrest⟩

end Runs

/-! ### Strings -/

section Strings

/-- The array holds a string. -/
def Terminated (a : Fin n → UInt8) : Prop := ∃ i, a i = 0

instance (a : Fin n → UInt8) : Decidable (Terminated a) := inferInstanceAs (Decidable (∃ _, _))

/-- The loop of `strcpy` over the indices that are left; then it leaves the arrays. -/
def strcpyLoop (fault : φ) (src : Fin n → UInt8) :
    List (Fin n) → (Fin n → UInt8) → Except φ (Fin n → UInt8)
  | [], _ => .error fault
  | i :: is, dst =>
    let dst := Function.update dst i (src i)
    if src i = 0 then .ok dst else strcpyLoop fault src is dst

/-- `strcpy` between arrays of one size. -/
def strcpy (fault : φ) (dst src : Fin n → UInt8) : Except φ (Fin n → UInt8) :=
  strcpyLoop fault src (List.finRange n) dst

/-- The loop of `strcmp` over the indices that are left. -/
def strcmpLoop (fault : φ) (a b : Fin n → UInt8) : List (Fin n) → Except φ Bool
  | [] => .error fault
  | i :: is =>
    if a i ≠ b i then .ok false else if a i = 0 then .ok true else strcmpLoop fault a b is

/-- `strcmp` of arrays of one size: whether they are equal. -/
def strcmp (fault : φ) (a b : Fin n → UInt8) : Except φ Bool :=
  strcmpLoop fault a b (List.finRange n)

variable {src dst dst' a b : Fin n → UInt8}

theorem strcpyLoop_eq_ok {l : List (Fin n)} (h : strcpyLoop fault src l dst = .ok dst') :
    (∃ i ∈ l, src i = 0) ∧ Terminated dst' := by
  induction l generalizing dst with
  | nil => cases h
  | cons i is ih =>
    unfold strcpyLoop at h
    split_ifs at h with hz
    · cases h
      exact ⟨⟨i, List.mem_cons_self .., hz⟩, i, by rw [Function.update_self, hz]⟩
    · obtain ⟨⟨j, hj, hz'⟩, hterm⟩ := ih h
      exact ⟨⟨j, List.mem_cons_of_mem _ hj, hz'⟩, hterm⟩

theorem noFault_strcpyLoop {l : List (Fin n)} (h : ∃ i ∈ l, src i = 0) :
    NoFault (strcpyLoop fault src l dst) := by
  induction l generalizing dst with
  | nil =>
    obtain ⟨i, hi, -⟩ := h
    cases hi
  | cons i is ih =>
    unfold strcpyLoop
    split_ifs with hz
    · exact noFault_ok _
    · obtain ⟨j, hj, hz'⟩ := h
      rcases List.mem_cons.mp hj with rfl | hj
      · exact absurd hz' hz
      · exact ih ⟨j, hj, hz'⟩

/-- **Copying** stays inside the arrays exactly if the source is terminated. -/
theorem noFault_strcpy_iff : NoFault (strcpy fault dst src) ↔ Terminated src := by
  constructor
  · intro ⟨dst', h⟩
    obtain ⟨⟨i, -, hz⟩, -⟩ := strcpyLoop_eq_ok h
    exact ⟨i, hz⟩
  · intro ⟨i, hz⟩
    exact noFault_strcpyLoop ⟨i, List.mem_finRange i, hz⟩

/-- A copy is terminated. -/
theorem terminated_of_strcpy (h : strcpy fault dst src = .ok dst') : Terminated dst' :=
  (strcpyLoop_eq_ok h).2

theorem noFault_strcmpLoop {l : List (Fin n)} (h : ∃ i ∈ l, a i = 0) :
    NoFault (strcmpLoop fault a b l) := by
  induction l with
  | nil =>
    obtain ⟨i, hi, -⟩ := h
    cases hi
  | cons i is ih =>
    unfold strcmpLoop
    split_ifs with hne hz
    · exact noFault_ok _
    · exact noFault_ok _
    · obtain ⟨j, hj, hz'⟩ := h
      rcases List.mem_cons.mp hj with rfl | hj
      · exact absurd hz' hz
      · exact ih ⟨j, hj, hz'⟩

/-- **Comparing** stays inside the arrays if the first is terminated, whatever the second is. -/
theorem noFault_strcmp (h : Terminated a) : NoFault (strcmp fault a b) := by
  obtain ⟨i, hz⟩ := h
  exact noFault_strcmpLoop ⟨i, List.mem_finRange i, hz⟩

/-- The loop that reads a string over the indices that are left. -/
def readStrLoop (fault : φ) (a : Fin n → UInt8) : List (Fin n) → Except φ (List UInt8)
  | [] => .error fault
  | i :: is => if a i = 0 then .ok [] else (readStrLoop fault a is).map (a i :: ·)

/-- The characters of a string up to its end. -/
def readStr (fault : φ) (a : Fin n → UInt8) : Except φ (List UInt8) :=
  readStrLoop fault a (List.finRange n)

theorem noFault_readStrLoop_iff {l : List (Fin n)} :
    NoFault (readStrLoop fault a l) ↔ ∃ i ∈ l, a i = 0 := by
  induction l with
  | nil => exact iff_of_false (not_noFault_error _) fun ⟨i, hi, _⟩ => absurd hi List.not_mem_nil
  | cons i is ih =>
    unfold readStrLoop
    rw [List.exists_mem_cons_iff]
    split_ifs with hz
    · exact iff_of_true (noFault_ok _) (.inl hz)
    · rw [noFault_map, ih, or_iff_right hz]

/-- **Reading a string** stays inside the array exactly if it ends there. -/
theorem noFault_readStr_iff : NoFault (readStr fault a) ↔ Terminated a := by
  rw [readStr, noFault_readStrLoop_iff]
  simp only [List.mem_finRange, true_and]
  rfl

end Strings

end HardwareDrivers.Theory
