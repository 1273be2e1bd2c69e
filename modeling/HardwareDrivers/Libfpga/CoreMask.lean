import HardwareDrivers.Libfpga.ReconfigCommand
import Mathlib.Data.Nat.Digits.Defs

/-!
# The mask of the cores

`__fpga_shmem_init` makes the hexadecimal text for the option `-c` out of one truth value per core:
the groups of four from the highest downwards, and the cores above the last whole group, if there
are any, behind them.

## What is proved

* `ofDigits_groups` — the groups have the bits of the mask.
* `coreMaskRight_iff` — when the text denotes the cores of the mask.
-/

namespace HardwareDrivers.Libfpga

/-! ### The text -/

/-- `SHMEM_MAX_LCORE`, above which `fpga_shmem_set_lcore_limit` sets no number of cores. -/
def shmemMaxLcore : ℕ := 128

/-- `sizeof(lcore_cmd)`. -/
def lcoreCmdSize : ℕ := 256

variable (lcoreMask : ℕ → Bool)

/-- `core_mask` after `count` cores, downwards from the one below `top`: it is shifted, and the value
of the core is added. -/
def groupMask (top count : ℕ) : ℕ :=
  (List.range count).foldl (fun coreMask k => 2 * coreMask + (lcoreMask (top - 1 - k)).toNat) 0

/-- The loop over the whole groups: `i` is four times the counter. -/
def lcoreLoop : ℕ → List Char → List Char
  | 0, lcoreCmd => lcoreCmd
  | k + 1, lcoreCmd => lcoreLoop k (lcoreCmd ++ hex (groupMask lcoreMask (4 * (k + 1)) 4))

/-- `lcore_cmd`. -/
def lcoreCmd (coreMax : ℕ) : List Char :=
  let alignment := coreMax - coreMax % 4
  let cmd := lcoreLoop lcoreMask (alignment / 4) ['0', 'x']
  if alignment ≠ coreMax then
    cmd ++ hex (groupMask lcoreMask coreMax (coreMax - alignment))
  else cmd

/-! ### What a text denotes -/

/-- A hexadecimal digit. -/
def xdigit (c : Char) : Option ℕ := (List.range 16).find? fun d => Nat.digitChar d = c

/-- A hexadecimal number with `0x` before it. -/
def hexValue : List Char → Option ℕ
  | '0' :: 'x' :: digits =>
    if digits = [] then none
    else (digits.mapM xdigit).map fun ds => Nat.ofDigits 16 ds.reverse
  | _ => none

/-- The text fits its buffer, and its bits are the cores of the mask. -/
structure CoreMaskRight (coreMax : ℕ) (cmd : List Char) : Prop where
  /-- With the null character. -/
  fits : cmd.length < lcoreCmdSize
  /-- The cores. -/
  cores : ∃ v, hexValue cmd = some v ∧
    ∀ i, v.testBit i = true ↔ i < coreMax ∧ lcoreMask i = true

/-! ### Groups -/

@[simp] theorem groupMask_zero (top : ℕ) : groupMask lcoreMask top 0 = 0 := rfl

theorem groupMask_succ (top count : ℕ) : groupMask lcoreMask top (count + 1) =
    2 * groupMask lcoreMask top count + (lcoreMask (top - 1 - count)).toNat := by
  simp [groupMask, List.range_succ]

theorem groupMask_lt (top count : ℕ) : groupMask lcoreMask top count < 2 ^ count := by
  induction count with
  | zero => simp
  | succ count ih =>
    have hbit := Bool.toNat_lt (lcoreMask (top - 1 - count))
    rw [groupMask_succ, pow_succ]
    omega

/-- The bits of a group are its cores. -/
theorem testBit_groupMask {top count : ℕ} (h : count ≤ top) (i : ℕ) :
    (groupMask lcoreMask top count).testBit i =
      (decide (i < count) && lcoreMask (top - count + i)) := by
  induction count generalizing i with
  | zero => simp
  | succ count ih =>
    rw [groupMask_succ]
    cases i with
    | zero =>
      have hcore : top - (count + 1) + 0 = top - 1 - count := by omega
      rw [Nat.testBit_zero, hcore]
      cases lcoreMask (top - 1 - count) <;> simp [Nat.add_mod]
    | succ i =>
      have hcore : top - (count + 1) + (i + 1) = top - count + i := by omega
      have hhalf : (2 * groupMask lcoreMask top count + (lcoreMask (top - 1 - count)).toNat) / 2 =
          groupMask lcoreMask top count := by
        have hbit := Bool.toNat_lt (lcoreMask (top - 1 - count))
        omega
      rw [Nat.testBit_succ, hhalf, ih (by omega), hcore]
      simp

/-- A group is the one above and the one below. -/
theorem groupMask_add (top a b : ℕ) : groupMask lcoreMask top (a + b) =
    groupMask lcoreMask top a * 2 ^ b + groupMask lcoreMask (top - a) b := by
  induction b with
  | zero => simp
  | succ b ih =>
    have hcore : top - 1 - (a + b) = top - a - 1 - b := by omega
    rw [← Nat.add_assoc, groupMask_succ, groupMask_succ, ih, hcore, pow_succ]
    ring

/-- The whole groups, the highest first. -/
def groups : ℕ → List ℕ
  | 0 => []
  | k + 1 => groupMask lcoreMask (4 * (k + 1)) 4 :: groups k

theorem length_groups (k : ℕ) : (groups lcoreMask k).length = k := by
  induction k with
  | zero => rfl
  | succ k ih => rw [groups, List.length_cons, ih]

theorem mem_groups {k d : ℕ} :
    d ∈ groups lcoreMask k ↔ ∃ g < k, d = groupMask lcoreMask (4 * (g + 1)) 4 := by
  induction k with
  | zero => simp [groups]
  | succ k ih =>
    rw [groups, List.mem_cons, ih]
    constructor
    · rintro (rfl | ⟨g, hg, rfl⟩)
      · exact ⟨k, by omega, rfl⟩
      · exact ⟨g, by omega, rfl⟩
    · rintro ⟨g, hg, rfl⟩
      rcases Nat.lt_succ_iff_lt_or_eq.1 hg with hg | rfl
      · exact .inr ⟨g, hg, rfl⟩
      · exact .inl rfl

theorem groups_lt {k d : ℕ} (h : d ∈ groups lcoreMask k) : d < 16 := by
  obtain ⟨g, -, rfl⟩ := (mem_groups lcoreMask).1 h
  exact groupMask_lt lcoreMask _ 4

/-- **The groups have the bits of the mask.** -/
theorem ofDigits_groups (k : ℕ) :
    Nat.ofDigits 16 (groups lcoreMask k).reverse = groupMask lcoreMask (4 * k) (4 * k) := by
  induction k with
  | zero => rfl
  | succ k ih =>
    have hsplit := groupMask_add lcoreMask (4 * (k + 1)) 4 (4 * k)
    have htop : 4 + 4 * k = 4 * (k + 1) := by omega
    have hrest : 4 * (k + 1) - 4 = 4 * k := by omega
    rw [htop, hrest] at hsplit
    rw [groups, List.reverse_cons, Nat.ofDigits_append, ih, hsplit, List.length_reverse,
      length_groups, Nat.ofDigits_singleton, pow_mul]
    ring

/-! ### The text and its digits -/

theorem hex_of_lt {d : ℕ} (h : d < 16) : hex d = [Nat.digitChar d] := Nat.toDigits_of_lt_base h

/-- The loop writes the groups. -/
theorem lcoreLoop_eq (k : ℕ) (cmd : List Char) :
    lcoreLoop lcoreMask k cmd = cmd ++ (groups lcoreMask k).map Nat.digitChar := by
  induction k generalizing cmd with
  | zero => simp [lcoreLoop, groups]
  | succ k ih =>
    rw [lcoreLoop, ih, hex_of_lt (groupMask_lt lcoreMask _ 4), groups, List.map_cons,
      List.append_assoc, List.singleton_append]

/-- The digits of the text. -/
def lcoreDigits (coreMax : ℕ) : List ℕ :=
  if coreMax % 4 = 0 then groups lcoreMask (coreMax / 4)
  else groups lcoreMask (coreMax / 4) ++ [groupMask lcoreMask coreMax (coreMax % 4)]

theorem lcoreCmd_eq (coreMax : ℕ) :
    lcoreCmd lcoreMask coreMax = '0' :: 'x' :: (lcoreDigits lcoreMask coreMax).map Nat.digitChar := by
  have hgroups : (coreMax - coreMax % 4) / 4 = coreMax / 4 := by omega
  have hrest : coreMax - (coreMax - coreMax % 4) = coreMax % 4 := by omega
  by_cases hmod : coreMax % 4 = 0
  · simp [lcoreCmd, lcoreDigits, hmod, lcoreLoop_eq]
  · have hne : coreMax - coreMax % 4 ≠ coreMax := by omega
    have hlt : groupMask lcoreMask coreMax (coreMax % 4) < 16 :=
      Nat.lt_of_lt_of_le (groupMask_lt lcoreMask _ _)
        (Nat.pow_le_pow_right (by decide) (by omega : coreMax % 4 ≤ 4))
    simp only [lcoreCmd, hgroups, hrest, lcoreLoop_eq, if_pos hne, lcoreDigits, if_neg hmod,
      hex_of_lt hlt, List.map_append, List.map_cons, List.map_nil, List.cons_append, List.nil_append]

theorem length_lcoreDigits_le (coreMax : ℕ) :
    (lcoreDigits lcoreMask coreMax).length ≤ coreMax / 4 + 1 := by
  unfold lcoreDigits
  split_ifs <;> simp [length_groups]

theorem lcoreDigits_lt {coreMax d : ℕ} (h : d ∈ lcoreDigits lcoreMask coreMax) : d < 16 := by
  unfold lcoreDigits at h
  split_ifs at h with hmod
  · exact groups_lt lcoreMask h
  · rcases List.mem_append.1 h with h | h
    · exact groups_lt lcoreMask h
    · obtain rfl := List.mem_singleton.1 h
      exact Nat.lt_of_lt_of_le (groupMask_lt lcoreMask _ _)
        (Nat.pow_le_pow_right (by decide) (by omega : coreMax % 4 ≤ 4))

theorem xdigit_digitChar {d : ℕ} (h : d < 16) : xdigit (Nat.digitChar d) = some d := by
  have hall : ∀ d : Fin 16, xdigit (Nat.digitChar d) = some d.val := by decide
  exact hall ⟨d, h⟩

theorem mapM_xdigit {ds : List ℕ} (h : ∀ d ∈ ds, d < 16) :
    (ds.map Nat.digitChar).mapM xdigit = some ds := by
  induction ds with
  | nil => rfl
  | cons d ds ih =>
    rw [List.forall_mem_cons] at h
    simp [xdigit_digitChar h.1, ih h.2]

/-- What digits denote. -/
theorem hexValue_digits {ds : List ℕ} (hne : ds ≠ []) (h : ∀ d ∈ ds, d < 16) :
    hexValue ('0' :: 'x' :: ds.map Nat.digitChar) = some (Nat.ofDigits 16 ds.reverse) := by
  simp [hexValue, mapM_xdigit h, hne]

/-- What the text denotes. -/
theorem hexValue_lcoreCmd {coreMax : ℕ} (h : 1 ≤ coreMax) :
    hexValue (lcoreCmd lcoreMask coreMax) =
      some (Nat.ofDigits 16 (lcoreDigits lcoreMask coreMax).reverse) := by
  rw [lcoreCmd_eq]
  refine hexValue_digits (fun hnil => ?_) fun d hd => lcoreDigits_lt lcoreMask hd
  have hlength := congrArg List.length hnil
  unfold lcoreDigits at hlength
  split_ifs at hlength
  · simp [length_groups] at hlength
    omega
  · simp at hlength

/-! ### The cores -/

/-- A number with the bits of the mask. -/
theorem forall_testBit_iff {coreMax v : ℕ} :
    (∀ i, v.testBit i = true ↔ i < coreMax ∧ lcoreMask i = true) ↔
      v = groupMask lcoreMask coreMax coreMax := by
  constructor
  · intro h
    apply Nat.eq_of_testBit_eq
    intro i
    rw [Bool.eq_iff_iff, h, testBit_groupMask lcoreMask le_rfl]
    simp
  · rintro rfl i
    rw [testBit_groupMask lcoreMask le_rfl]
    simp

/-- One item before a list or behind it. -/
theorem cons_eq_append_singleton_iff {α : Type} (x : α) (l : List α) :
    x :: l = l ++ [x] ↔ ∀ y ∈ l, y = x := by
  induction l with
  | nil => simp
  | cons y l ih =>
    rw [List.cons_append, List.cons.injEq, List.forall_mem_cons]
    constructor
    · rintro ⟨rfl, h⟩
      exact ⟨rfl, ih.1 h⟩
    · rintro ⟨rfl, h⟩
      exact ⟨rfl, ih.2 h⟩

/-- Every whole group is the incomplete one. -/
theorem groups_eq_iff {coreMax : ℕ} : (∀ d ∈ groups lcoreMask (coreMax / 4),
      d = groupMask lcoreMask coreMax (coreMax % 4)) ↔
    ∀ i < coreMax - coreMax % 4, lcoreMask i =
      (decide (i % 4 < coreMax % 4) && lcoreMask (coreMax - coreMax % 4 + i % 4)) := by
  have hbits : ∀ g b, (groupMask lcoreMask (4 * (g + 1)) 4).testBit b =
      (decide (b < 4) && lcoreMask (4 * g + b)) := by
    intro g b
    rw [testBit_groupMask lcoreMask (by omega)]
    congr 2
  have hrest := testBit_groupMask lcoreMask (Nat.mod_le coreMax 4)
  constructor
  · intro h i hi
    have hgroup := h _ ((mem_groups lcoreMask).2 ⟨i / 4, by omega, rfl⟩)
    have hbit := congrArg (fun d => d.testBit (i % 4)) hgroup
    simp only [hbits, hrest] at hbit
    have hindex : 4 * (i / 4) + i % 4 = i := Nat.div_add_mod i 4
    rw [hindex, decide_eq_true (Nat.mod_lt i (by decide)), Bool.true_and] at hbit
    exact hbit
  · intro h d hd
    obtain ⟨g, hg, rfl⟩ := (mem_groups lcoreMask).1 hd
    apply Nat.eq_of_testBit_eq
    intro b
    rw [hbits, hrest]
    by_cases hb : b < 4
    · have hcore := h (4 * g + b) (by omega)
      have hmod : (4 * g + b) % 4 = b := by omega
      rw [hmod] at hcore
      rw [hcore, decide_eq_true hb, Bool.true_and]
    · have hb' : ¬b < coreMax % 4 := by omega
      simp [hb, hb']

/-- The digits of the mask are the incomplete group and the whole ones below it. -/
theorem groupMask_eq_ofDigits (coreMax : ℕ) : groupMask lcoreMask coreMax coreMax =
    Nat.ofDigits 16 ((groups lcoreMask (coreMax / 4)).reverse ++
      [groupMask lcoreMask coreMax (coreMax % 4)]) := by
  have hsplit := groupMask_add lcoreMask coreMax (coreMax % 4) (4 * (coreMax / 4))
  have htop : coreMax - coreMax % 4 = 4 * (coreMax / 4) := by omega
  rw [Nat.mod_add_div, htop] at hsplit
  rw [Nat.ofDigits_append, ofDigits_groups, List.length_reverse, length_groups,
    Nat.ofDigits_singleton, hsplit, pow_mul]
  ring

/-- The text denotes the cores if and only if there is no incomplete group, or it is at its place
wherever it stands. -/
theorem ofDigits_lcoreDigits_iff (coreMax : ℕ) :
    Nat.ofDigits 16 (lcoreDigits lcoreMask coreMax).reverse =
        groupMask lcoreMask coreMax coreMax ↔
      coreMax % 4 = 0 ∨ ∀ i < coreMax - coreMax % 4, lcoreMask i =
        (decide (i % 4 < coreMax % 4) && lcoreMask (coreMax - coreMax % 4 + i % 4)) := by
  by_cases hmod : coreMax % 4 = 0
  · have hall : 4 * (coreMax / 4) = coreMax := by omega
    simp [lcoreDigits, hmod, ofDigits_groups, hall]
  · have hlt : ∀ l : List ℕ, (∀ d ∈ l, d ∈ lcoreDigits lcoreMask coreMax) → ∀ d ∈ l, d < 16 :=
      fun l hl d hd => lcoreDigits_lt lcoreMask (hl d hd)
    rw [groupMask_eq_ofDigits, ← groups_eq_iff]
    simp only [hmod, false_or]
    constructor
    · intro h d hd
      have hlist := Nat.ofDigits_inj_of_len_eq (by decide) (by simp [lcoreDigits, hmod])
        (hlt _ (by simp)) (hlt _ (by simp [lcoreDigits, hmod])) h
      rw [lcoreDigits, if_neg hmod, List.reverse_append, List.reverse_singleton,
        List.singleton_append, cons_eq_append_singleton_iff] at hlist
      exact hlist d (List.mem_reverse.2 hd)
    · intro h
      rw [lcoreDigits, if_neg hmod, List.reverse_append, List.reverse_singleton,
        List.singleton_append, (cons_eq_append_singleton_iff _ _).2]
      exact fun d hd => h d (List.mem_reverse.1 hd)

/-- **The text denotes the cores of the mask** if and only if the number of cores is a multiple of
four, or every whole group is the same as the incomplete one. -/
theorem coreMaskRight_iff (coreMax : ℕ) (hpos : 1 ≤ coreMax) (hmax : coreMax ≤ shmemMaxLcore)
    (lcoreMask : ℕ → Bool) :
    CoreMaskRight lcoreMask coreMax (lcoreCmd lcoreMask coreMax) ↔
      coreMax % 4 = 0 ∨ ∀ i < coreMax - coreMax % 4, lcoreMask i =
        (decide (i % 4 < coreMax % 4) && lcoreMask (coreMax - coreMax % 4 + i % 4)) := by
  rw [← ofDigits_lcoreDigits_iff]
  constructor
  · rintro ⟨-, v, hv, hbits⟩
    rw [hexValue_lcoreCmd lcoreMask hpos, Option.some.injEq] at hv
    rw [hv]
    exact (forall_testBit_iff lcoreMask).1 hbits
  · intro h
    refine ⟨?_, _, hexValue_lcoreCmd lcoreMask hpos, (forall_testBit_iff lcoreMask).2 h⟩
    have hlength := length_lcoreDigits_le lcoreMask coreMax
    rw [lcoreCmd_eq, List.length_cons, List.length_cons, List.length_map]
    simp only [shmemMaxLcore, lcoreCmdSize] at hmax ⊢
    omega

/-- With eight cores, and with six of which every fourth one is in the mask. -/
theorem coreMaskRight_eight :
    CoreMaskRight (fun i => i == 1 || i == 6) 8 (lcoreCmd (fun i => i == 1 || i == 6) 8) ∧
      CoreMaskRight (fun i => i % 4 == 0) 6 (lcoreCmd (fun i => i % 4 == 0) 6) :=
  ⟨(coreMaskRight_iff 8 (by decide) (by decide) _).mpr (.inl rfl),
    (coreMaskRight_iff 6 (by decide) (by decide) _).mpr (.inr (by decide))⟩

/-- With five cores and a mask of the last, the text denotes the first. -/
theorem not_coreMaskRight : ¬∀ coreMax, 1 ≤ coreMax → coreMax ≤ shmemMaxLcore →
    ∀ lcoreMask : ℕ → Bool,
      CoreMaskRight lcoreMask coreMax (lcoreCmd lcoreMask coreMax) := by
  intro hall
  obtain ⟨-, v, hv, hbits⟩ := hall 5 (by decide) (by decide) fun i => i == 4
  have hone : hexValue (lcoreCmd (fun i => i == 4) 5) = some 1 := by decide
  rw [hone] at hv
  obtain rfl := Option.some.inj hv
  exact absurd ((hbits 0).1 rfl).2 (by decide)

end HardwareDrivers.Libfpga
