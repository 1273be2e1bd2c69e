import HardwareDrivers.Theory.Decimals
import HardwareDrivers.Theory.Faults
import Mathlib.Algebra.Group.Int.Defs
import Mathlib.Algebra.Group.Nat.Defs

/-!
# Numbers and lists of cores in files

`fscanf` with `%d` and `%*c`, and the loop of `__fpga_shmem_init_host_info` over the file `cpulist` of
a node: a number and a character in turn, until there is no number or no character. What is kept is
the number read last; a file without numbers leaves what was there before.

## What is proved

* `cpuLoop_text` — over a list of numbers and ranges the loop ends with its last number.
* `CpuList.exists_greatest` — which is the greatest core.
-/

namespace HardwareDrivers.Libfpga

open Theory Theory.Decimals

/-! ### Scanning -/

/-- What the language does not define. -/
inductive HostFault where
  /-- A variable is read that has no value. -/
  | unset
  /-- A number is too large for an `int`. -/
  | overflow
  deriving DecidableEq

/-- `isspace`. -/
def isSpace (c : Char) : Bool :=
  c ∈ [' ', '\t', '\n', Char.ofNat 11, Char.ofNat 12, '\r']

/-- What `fscanf` with `%d` finds. -/
inductive ScanD where
  /-- `EOF`. -/
  | eof
  /-- No number. -/
  | mismatch
  /-- A number. -/
  | number (n : ℤ)
  deriving DecidableEq

/-- The digits behind a sign. -/
def scanDigits (sign : ℤ) (text : List Char) : ScanD × List Char :=
  if text.takeWhile Char.isDigit = [] then (.mismatch, text)
  else (.number (sign * Nat.ofDigitChars 10 (text.takeWhile Char.isDigit) 0),
    text.dropWhile Char.isDigit)

/-- `fscanf` with `%d`, and what is left. -/
def scanD (text : List Char) : ScanD × List Char :=
  match text.dropWhile isSpace with
  | [] => (.eof, [])
  | '-' :: rest => scanDigits (-1) rest
  | '+' :: rest => scanDigits 1 rest
  | rest => scanDigits 1 rest

/-- The values of an `int`. -/
def IsInt (n : ℤ) : Prop := -2 ^ 31 ≤ n ∧ n < 2 ^ 31

instance (n : ℤ) : Decidable (IsInt n) := inferInstanceAs (Decidable (_ ∧ _))

theorem length_scanDigits (sign : ℤ) (text : List Char) :
    (scanDigits sign text).2.length ≤ text.length := by
  unfold scanDigits
  split_ifs
  · exact le_rfl
  · exact (List.dropWhile_suffix _).length_le

/-- Nothing is put back. -/
theorem length_scanD (text : List Char) : (scanD text).2.length ≤ text.length := by
  have hspace := (List.dropWhile_suffix (l := text) isSpace).length_le
  unfold scanD
  split
  · exact Nat.zero_le _
  next rest heq =>
    have hrest := length_scanDigits (-1) rest
    rw [heq, List.length_cons] at hspace
    omega
  next rest heq =>
    have hrest := length_scanDigits 1 rest
    rw [heq, List.length_cons] at hspace
    omega
  next rest _ _ _ => exact (length_scanDigits 1 _).trans hspace

/-- The loop over `cpulist`: what `cpu_list_num` has after it. -/
def cpuLoop (text : List Char) (cpuListNum : Option ℤ) : Except HostFault (Option ℤ) :=
  match _h : scanD text with
  | (.number n, []) => if IsInt n then .ok (some n) else .error .overflow
  | (.number n, _ :: rest) => if IsInt n then cpuLoop rest (some n) else .error .overflow
  | _ => .ok cpuListNum
termination_by text.length
decreasing_by
  have hlength := length_scanD text
  rw [_h, List.length_cons] at hlength
  omega

/-! ### Lists of cores -/

/-- An item of `cpulist`. -/
inductive CpuItem where
  /-- One core. -/
  | number (n : ℕ)
  /-- All from the first to the last. -/
  | range (first last : ℕ)
  deriving DecidableEq

namespace CpuItem

/-- The numbers in the text of an item. -/
def ends : CpuItem → List ℕ
  | .number n => [n]
  | .range first last => [first, last]

/-- The number that comes last. -/
def last : CpuItem → ℕ
  | .number n => n
  | .range _ last => last

/-- The text. -/
def text : CpuItem → List Char
  | .number n => Nat.toDigits 10 n
  | .range first last => Nat.toDigits 10 first ++ '-' :: Nat.toDigits 10 last

/-- The cores. -/
def Has (core : ℕ) : CpuItem → Prop
  | .number n => core = n
  | .range first last => first ≤ core ∧ core ≤ last

end CpuItem

/-- Items with commas between them. -/
def itemsText : List CpuItem → List Char
  | [] => []
  | [item] => item.text
  | item :: items => item.text ++ ',' :: itemsText items

/-- `cpulist` of a node: items in ascending order, and the end of the line. -/
structure CpuList where
  /-- The items. -/
  items : List CpuItem
  /-- They are ascending. -/
  ascending : (items.flatMap CpuItem.ends).Pairwise (· ≤ ·)
  /-- Whether the line ends. -/
  newline : Bool

namespace CpuList

/-- The text of the file. -/
def text (l : CpuList) : List Char := itemsText l.items ++ if l.newline then ['\n'] else []

/-- The numbers in it. -/
def numbers (l : CpuList) : List ℕ := l.items.flatMap CpuItem.ends

/-- The cores. -/
def Has (l : CpuList) (core : ℕ) : Prop := ∃ item ∈ l.items, item.Has core

end CpuList

/-! ### The loop -/

/-- A digit is no blank and no sign. -/
theorem isDigit_cases {c : Char} (h : c.isDigit = true) : isSpace c = false ∧ c ≠ '-' ∧ c ≠ '+' := by
  have hrange : 48 ≤ c.val ∧ c.val ≤ 57 := by simpa [Char.isDigit] using h
  refine ⟨?_, ?_, ?_⟩
  · simp only [isSpace, List.mem_cons, List.not_mem_nil, or_false, decide_eq_false_iff_not, not_or]
    refine ⟨?_, ?_, ?_, ?_, ?_, ?_⟩ <;> rintro rfl <;> revert hrange <;> decide
  · rintro rfl
    revert hrange
    decide
  · rintro rfl
    revert hrange
    decide

/-- A number is scanned up to its end. -/
theorem scanD_toDigits (n : ℕ) {rest : List Char} (hrest : NoDigitHead rest) :
    scanD (Nat.toDigits 10 n ++ rest) = (.number n, rest) := by
  have hdigits : ∀ c ∈ Nat.toDigits 10 n, c.isDigit = true := fun c => isDigit_of_mem
  have hscan : scanDigits 1 (Nat.toDigits 10 n ++ rest) = (.number n, rest) := by
    rw [scanDigits, takeWhile_append hdigits hrest, dropWhile_append hdigits hrest,
      if_neg Nat.toDigits_ne_nil, Nat.ofDigitChars_ten_toDigits, Int.one_mul]
  obtain ⟨c, cs, hcs⟩ := List.exists_cons_of_ne_nil (Nat.toDigits_ne_nil (n := n) (b := 10))
  obtain ⟨hspace, hminus, hplus⟩ := isDigit_cases (hdigits c (hcs ▸ List.mem_cons_self))
  rw [hcs, List.cons_append] at hscan ⊢
  unfold scanD
  rw [List.dropWhile_cons_of_neg (by simp [hspace])]
  split
  next heq => cases heq
  next heq => exact absurd (List.cons.inj heq).1 hminus
  next heq => exact absurd (List.cons.inj heq).1 hplus
  next => exact hscan

/-- One turn of the loop. -/
theorem cpuLoop_toDigits (n : ℕ) {rest : List Char} (hrest : NoDigitHead rest)
    (cpuListNum : Option ℤ) : cpuLoop (Nat.toDigits 10 n ++ rest) cpuListNum =
      if n < 2 ^ 31 then
        match rest with
        | [] => .ok (some n)
        | _ :: rest => cpuLoop rest (some n)
      else .error .overflow := by
  have hint : IsInt (n : ℤ) ↔ n < 2 ^ 31 := by
    unfold IsInt
    omega
  have hscan := scanD_toDigits n hrest
  conv_lhs => unfold cpuLoop
  split
  next m heq =>
    obtain ⟨hm, rfl⟩ := Prod.ext_iff.1 (hscan.symm.trans heq)
    obtain rfl : (n : ℤ) = m := ScanD.number.inj hm
    simp only [hint]
  next m c rest' heq =>
    obtain ⟨hm, rfl⟩ := Prod.ext_iff.1 (hscan.symm.trans heq)
    obtain rfl : (n : ℤ) = m := ScanD.number.inj hm
    simp only [hint]
  next hnil hcons =>
    cases rest with
    | nil => exact absurd hscan (hnil _)
    | cons c rest => exact absurd hscan (hcons _ _ _)

/-- Nothing is found in an empty line. -/
theorem cpuLoop_blank {text : List Char} (h : scanD text = (.eof, [])) (cpuListNum : Option ℤ) :
    cpuLoop text cpuListNum = .ok cpuListNum := by
  unfold cpuLoop
  split
  next heq => cases h.symm.trans heq
  next heq => cases h.symm.trans heq
  next => rfl

/-- An item with what follows it. -/
theorem cpuLoop_item (item : CpuItem) {rest : List Char} (hrest : NoDigitHead rest)
    (cpuListNum : Option ℤ) : cpuLoop (item.text ++ rest) cpuListNum =
      if ∀ n ∈ item.ends, n < 2 ^ 31 then
        match rest with
        | [] => .ok (some item.last)
        | _ :: rest => cpuLoop rest (some item.last)
      else .error .overflow := by
  cases item with
  | number n =>
    rw [CpuItem.text, cpuLoop_toDigits n hrest]
    simp [CpuItem.ends, CpuItem.last]
  | range first last =>
    have hminus : NoDigitHead ('-' :: (Nat.toDigits 10 last ++ rest)) := by
      simp [Char.isDigit]
    rw [CpuItem.text, List.append_assoc, List.cons_append, cpuLoop_toDigits first hminus]
    by_cases hfirst : first < 2 ^ 31
    · rw [if_pos hfirst]
      simp only
      rw [cpuLoop_toDigits last hrest]
      simp only [CpuItem.ends, CpuItem.last, List.forall_mem_cons, hfirst, List.not_mem_nil,
        false_imp_iff, implies_true, true_and, and_true]
    · rw [if_neg hfirst, if_neg]
      intro h
      exact hfirst (h first (by simp [CpuItem.ends]))

/-- What is kept after a list of items. -/
def keptLast (items : List CpuItem) (cpuListNum : Option ℤ) : Option ℤ :=
  items.foldl (fun _ item => some (item.last : ℤ)) cpuListNum

/-- The loop over items: what the last leaves. -/
theorem cpuLoop_items (items : List CpuItem) {tail : List Char} (htail : tail = [] ∨ tail = ['\n'])
    (cpuListNum : Option ℤ) : cpuLoop (itemsText items ++ tail) cpuListNum =
      if ∀ n ∈ items.flatMap CpuItem.ends, n < 2 ^ 31 then .ok (keptLast items cpuListNum)
      else .error .overflow := by
  have hend : NoDigitHead tail := by
    rcases htail with rfl | rfl <;> simp [Char.isDigit]
  induction items generalizing cpuListNum with
  | nil =>
    have hblank : scanD tail = (.eof, []) := by
      rcases htail with rfl | rfl <;> decide
    simp [itemsText, cpuLoop_blank hblank, keptLast]
  | cons item items ih =>
    cases items with
    | nil =>
      have hblank : cpuLoop [] (some (item.last : ℤ)) = .ok (some (item.last : ℤ)) :=
        cpuLoop_blank (by decide) _
      rw [itemsText, cpuLoop_item item hend]
      rcases htail with rfl | rfl <;> simp [hblank, keptLast]
    | cons next items =>
      have hcomma : NoDigitHead (',' :: (itemsText (next :: items) ++ tail)) := by
        simp [Char.isDigit]
      rw [itemsText, List.append_assoc, List.cons_append, cpuLoop_item item hcomma]
      · simp only [ih, List.flatMap_cons, List.mem_append, or_imp, forall_and, ← ite_and]
        rfl
      · simp

/-- **A list of cores**: its last number, if it has one. -/
theorem cpuLoop_text (l : CpuList) (cpuListNum : Option ℤ) : cpuLoop l.text cpuListNum =
    if ∀ n ∈ l.numbers, n < 2 ^ 31 then .ok (keptLast l.items cpuListNum)
    else .error .overflow :=
  cpuLoop_items l.items (by cases l.newline <;> simp) cpuListNum

/-! ### The greatest core -/

namespace CpuItem

variable {item : CpuItem} {core : ℕ}

theorem last_mem : item.last ∈ item.ends := by cases item <;> simp [last, ends]

theorem le_last (h : item.Has core) : core ≤ item.last := by
  cases item with
  | number n => exact le_of_eq h
  | range first last => exact h.2

theorem has_last (h : item.ends.Pairwise (· ≤ ·)) : item.Has item.last := by
  cases item with
  | number n => rfl
  | range a b =>
    have hle : a ≤ b := by simpa [ends] using h
    exact ⟨hle, le_rfl⟩

end CpuItem

/-- The number that is kept is the greatest core. -/
theorem CpuList.exists_greatest (l : CpuList) (hne : l.items ≠ []) (cpuListNum : Option ℤ) :
    ∃ n : ℕ, keptLast l.items cpuListNum = some (n : ℤ) ∧ n ∈ l.numbers ∧ l.Has n ∧
      ∀ core, l.Has core → core ≤ n := by
  obtain ⟨items, item, heq⟩ := (List.eq_nil_or_concat' l.items).resolve_left hne
  have hascending := l.ascending
  rw [heq, List.flatMap_append, List.flatMap_singleton, List.pairwise_append] at hascending
  obtain ⟨-, hitem, hbelow⟩ := hascending
  have hmem : item ∈ l.items := by simp [heq]
  refine ⟨item.last, by simp [heq, keptLast], List.mem_flatMap.2 ⟨item, hmem, CpuItem.last_mem⟩,
    ⟨item, hmem, CpuItem.has_last hitem⟩, ?_⟩
  rintro core ⟨other, hother, hcore⟩
  rw [heq, List.mem_append, List.mem_singleton] at hother
  rcases hother with hother | rfl
  · exact (CpuItem.le_last hcore).trans
      (hbelow _ (List.mem_flatMap.2 ⟨other, hother, CpuItem.last_mem⟩) _ CpuItem.last_mem)
  · exact CpuItem.le_last hcore

/-- The number that comes last may have come from another file, if this one has none. -/
theorem keptLast_eq_none {items : List CpuItem} {cpuListNum : Option ℤ} :
    keptLast items cpuListNum = none ↔ items = [] ∧ cpuListNum = none := by
  induction items using List.reverseRecOn with
  | nil => simp [keptLast]
  | append_singleton items item => simp [keptLast]

end HardwareDrivers.Libfpga
