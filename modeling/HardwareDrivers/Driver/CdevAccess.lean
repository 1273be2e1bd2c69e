import HardwareDrivers.Theory.Faults
import Mathlib.Data.BitVec

/-!
# Registers through read and write

`xpcie_cdev_read` and `xpcie_cdev_write` access the registers of a device by the position in the file.
The position has 64 bits and the offset of `reg_read32` has 32; nothing is compared with
`base_addr_len`. An 8-byte read is one access, of which `reg_read64` keeps 32 bits; an 8-byte write is
two accesses, and puts the lower half of the value behind the upper half.

The registers keep what is written. To access what is behind them is a fault.

## What is proved

* `cdevRead_four`, `cdevRead_eight`, `cdevWrite_four`, `cdevWrite_eight` — what a request does.
* `cdevWrite_four_cdevRead_four` — what is written with 4 bytes is read back.
* `cdevWrite_eight_cdevRead_eight` — with 8 bytes only the upper half is.
* `registerFile_iff` — for which requests the registers behave as an array of words.
-/

namespace HardwareDrivers.Driver

open Theory

/-- The errors of the two functions. -/
inductive CdevErrno where
  /-- `-EBUSY`. -/
  | ebusy
  /-- `-EINVAL`. -/
  | einval
  /-- `-EFAULT`. -/
  | efault
  deriving DecidableEq, Repr

/-- What the language does not define. -/
inductive BarFault where
  /-- An access goes outside the memory at `base_addr`. -/
  | outside
  deriving DecidableEq, Repr

/-- The `n` registers at `base_addr`, so that `base_addr_len` is `4 * n`, and the accesses. -/
structure Bar (n : ℕ) where
  /-- The registers. -/
  words : Fin n → BitVec 32
  /-- The registers that were read or written, the last one first. -/
  touched : List (Fin n)

variable {n : ℕ}

/-- A register is accessed. -/
def Bar.touch (bar : Bar n) (i : Fin n) : Bar n := { bar with touched := i :: bar.touched }

/-! ### The accesses -/

/-- `reg_read32`. -/
def regRead32 (bar : Bar n) (offset : BitVec 32) : Except BarFault (BitVec 32 × Bar n) := do
  let i ← indexed n .outside (offset.toNat / 4)
  return (bar.words i, bar.touch i)

/-- `reg_read64`; `value` has 32 bits there. -/
def regRead64 (bar : Bar n) (offset : BitVec 32) : Except BarFault (BitVec 64 × Bar n) := do
  let i ← indexed n .outside (offset.toNat / 4)
  let j ← indexed n .outside (offset.toNat / 4 + 1)
  let value : BitVec 32 := (bar.words j ++ bar.words i).setWidth 32
  return (value.setWidth 64, (bar.touch i).touch j)

/-- `reg_write32`. -/
def regWrite32 (bar : Bar n) (offset value : BitVec 32) : Except BarFault (Bar n) := do
  let i ← indexed n .outside (offset.toNat / 4)
  return { bar.touch i with words := Function.update bar.words i value }

/-- `copy_to_user`, where `buf` says whether the buffer can be written. -/
def copyData (buf : Bool) (data : BitVec 64) : Except CdevErrno (BitVec 64) :=
  if buf then .ok data else .error .efault

/-- `xpcie_cdev_read`: an error, or `data`, of which the first `count` bytes are copied. -/
def cdevRead (isAvailRw buf : Bool) (count pos : ℕ) (bar : Bar n) :
    Except BarFault (Except CdevErrno (BitVec 64) × Bar n) :=
  if isAvailRw = false then .ok (.error .ebusy, bar)
  else if pos % 4 ≠ 0 then .ok (.error .einval, bar)
  else if count = 4 then do
    let (data, bar) ← regRead32 bar (.ofNat 32 pos)
    return (copyData buf (data.setWidth 64), bar)
  else if count = 8 then do
    let (data, bar) ← regRead64 bar (.ofNat 32 pos)
    return (copyData buf data, bar)
  else .ok (.error .einval, bar)

/-- `xpcie_cdev_write`; `buf` is what `copy_from_user` gives, and only its first `count` bytes are
known. -/
def cdevWrite (isAvailRw : Bool) (buf : Option (BitVec 64)) (count pos : ℕ) (bar : Bar n) :
    Except BarFault (Except CdevErrno Unit × Bar n) :=
  if isAvailRw = false then .ok (.error .ebusy, bar)
  else if pos % 4 ≠ 0 ∨ count > 8 then .ok (.error .einval, bar)
  else buf.elim (.ok (.error .efault, bar)) fun data =>
    if count = 4 then do
      let bar ← regWrite32 bar (.ofNat 32 pos) (data.setWidth 32)
      return (.ok (), bar)
    else if count = 8 then do
      let bar ← regWrite32 bar (.ofNat 32 (pos + 4)) ((data &&& 0xFFFFFFFF).setWidth 32)
      let bar ← regWrite32 bar (.ofNat 32 pos) (((data >>> 32) &&& 0xFFFFFFFF).setWidth 32)
      return (.ok (), bar)
    else .ok (.error .einval, bar)

/-! ### The property -/

/-- The registers behave as an array of 32-bit words, at a position, for a number of bytes and for a
value; `buf` says whether the buffer of the caller can be accessed. -/
structure RegisterFile (isAvailRw buf : Bool) (count pos : ℕ) (value : BitVec 64) (bar : Bar n) :
    Prop where
  /-- What 8 bytes are written is what is read back. -/
  roundTrip : ∀ t data u, cdevWrite isAvailRw (some value) 8 pos bar = .ok (.ok (), t) →
    cdevRead isAvailRw true 8 pos t = .ok (.ok data, u) → data = value
  /-- 8 bytes are what two reads of 4 bytes give. -/
  halves : ∀ data t, cdevRead isAvailRw true 8 pos bar = .ok (.ok data, t) →
    ∃ low high u v, cdevRead isAvailRw true 4 pos bar = .ok (.ok low, u) ∧
      cdevRead isAvailRw true 4 (pos + 4) u = .ok (.ok high, v) ∧
      data.extractLsb' 0 32 = low.setWidth 32 ∧ data.extractLsb' 32 32 = high.setWidth 32
  /-- A read that leaves the registers is refused, and accesses none. -/
  refusesRead : ¬ pos + count ≤ 4 * n →
    ∃ e, cdevRead isAvailRw buf count pos bar = .ok (.error e, bar)
  /-- So is a write. -/
  refusesWrite : ¬ pos + count ≤ 4 * n →
    ∃ e, cdevWrite isAvailRw (if buf then some value else none) count pos bar = .ok (.error e, bar)
  /-- A read that is refused changes nothing. -/
  keepsRead : ∀ e t, cdevRead isAvailRw buf count pos bar = .ok (.error e, t) → t.words = bar.words
  /-- Nor does a write. -/
  keepsWrite : ∀ e t, cdevWrite isAvailRw (if buf then some value else none) count pos bar =
    .ok (.error e, t) → t.words = bar.words

/-- Where the position is accepted: if the lower half of it is that of 8 bytes in the registers, the
value is 0, and so is the register that the second of two reads gives; and a request that is not
refused for its number of bytes does not leave the registers. -/
def RegisterFileFair (isAvailRw : Bool) (count pos : ℕ) (value : BitVec 64) (bar : Bar n) : Prop :=
  isAvailRw = true → pos % 4 = 0 →
    ((BitVec.ofNat 32 pos).toNat / 4 + 1 < n → value = 0 ∧
      ∀ i : Fin n, i.val = (BitVec.ofNat 32 (pos + 4)).toNat / 4 → bar.words i = 0) ∧
    (count = 4 ∨ count = 8 → pos + count ≤ 4 * n)

variable {isAvailRw buf : Bool} {count pos : ℕ} {value : BitVec 64} {bar : Bar n}

/-! ### What a request does -/

theorem regRead32_eq {offset : BitVec 32} {i : Fin n} (hi : offset.toNat / 4 = i) :
    regRead32 bar offset = .ok (bar.words i, bar.touch i) := by
  unfold regRead32
  rw [indexed_eq_ok.mpr hi, ok_bind]
  rfl

theorem regWrite32_eq {offset v : BitVec 32} {i : Fin n} (hi : offset.toNat / 4 = i) :
    regWrite32 bar offset v =
      .ok { bar.touch i with words := Function.update bar.words i v } := by
  unfold regWrite32
  rw [indexed_eq_ok.mpr hi, ok_bind]
  rfl

/-- `reg_read64` gives the first of the two registers. -/
theorem regRead64_eq {offset : BitVec 32} {i j : Fin n} (hi : offset.toNat / 4 = i)
    (hj : offset.toNat / 4 + 1 = j) :
    regRead64 bar offset = .ok ((bar.words i).setWidth 64, (bar.touch i).touch j) := by
  unfold regRead64
  rw [indexed_eq_ok.mpr hi, ok_bind, indexed_eq_ok.mpr hj, ok_bind, BitVec.setWidth_append_eq_right]
  rfl

theorem cdevRead_four (hpos : pos % 4 = 0) :
    cdevRead true buf 4 pos bar = (regRead32 bar (.ofNat 32 pos)).map fun r =>
      (copyData buf (r.1.setWidth 64), r.2) := by
  unfold cdevRead
  rw [if_neg (by decide), if_neg (not_not.mpr hpos), if_pos rfl]
  cases regRead32 bar (.ofNat 32 pos) <;> rfl

theorem cdevRead_eight (hpos : pos % 4 = 0) :
    cdevRead true buf 8 pos bar = (regRead64 bar (.ofNat 32 pos)).map fun r =>
      (copyData buf r.1, r.2) := by
  unfold cdevRead
  rw [if_neg (by decide), if_neg (not_not.mpr hpos), if_neg (by decide), if_pos rfl]
  cases regRead64 bar (.ofNat 32 pos) <;> rfl

theorem cdevWrite_four (hpos : pos % 4 = 0) :
    cdevWrite true (some value) 4 pos bar =
      (regWrite32 bar (.ofNat 32 pos) (value.setWidth 32)).map fun bar => (.ok (), bar) := by
  unfold cdevWrite
  rw [if_neg (by decide), if_neg (by omega), Option.elim_some, if_pos rfl]
  cases regWrite32 bar (.ofNat 32 pos) (value.setWidth 32) <;> rfl

theorem setWidth_and_mask (v : BitVec 64) : (v &&& 0xFFFFFFFF).setWidth 32 = v.setWidth 32 := by
  have hmask : (0xFFFFFFFF : BitVec 64).setWidth 32 = BitVec.allOnes 32 := rfl
  rw [BitVec.setWidth_and, hmask, BitVec.and_allOnes]

/-- The two halves of a value, as they are written. -/
theorem cdevWrite_eight (hpos : pos % 4 = 0) :
    cdevWrite true (some value) 8 pos bar = do
      let bar ← regWrite32 bar (.ofNat 32 (pos + 4)) (value.extractLsb' 0 32)
      let bar ← regWrite32 bar (.ofNat 32 pos) (value.extractLsb' 32 32)
      return (.ok (), bar) := by
  have hlow : value.setWidth 32 = value.extractLsb' 0 32 := by
    ext i
    simp
  have hhigh : (value >>> 32).setWidth 32 = value.extractLsb' 32 32 := by
    ext i
    simp
  unfold cdevWrite
  rw [if_neg (by decide), if_neg (by omega), Option.elim_some, if_neg (by decide), if_pos rfl,
    setWidth_and_mask, setWidth_and_mask, hlow, hhigh]

/-- **Four bytes** that are written are read back. -/
theorem cdevWrite_four_cdevRead_four {t u : Bar n} {data : BitVec 64} (hpos : pos % 4 = 0)
    (hwrite : cdevWrite true (some value) 4 pos bar = .ok (.ok (), t))
    (hread : cdevRead true true 4 pos t = .ok (.ok data, u)) :
    data = (value.setWidth 32).setWidth 64 := by
  rw [cdevWrite_four hpos] at hwrite
  obtain ⟨v, hwrite, heq⟩ := map_eq_ok.mp hwrite
  cases heq
  obtain ⟨i, hi, hwrite⟩ := bind_eq_ok.mp hwrite
  cases hwrite
  rw [cdevRead_four hpos, regRead32_eq (indexed_eq_ok.mp hi)] at hread
  cases hread
  exact congrArg (BitVec.setWidth 64) (Function.update_self ..)

/-! ### Refusals -/

/-- What makes a request be refused before a register is accessed. -/
theorem cdevRead_refused (buf : Bool) (bar : Bar n)
    (h : isAvailRw = true → pos % 4 = 0 → ¬ (count = 4 ∨ count = 8)) :
    ∃ e, cdevRead isAvailRw buf count pos bar = .ok (.error e, bar) := by
  unfold cdevRead
  by_cases havail : isAvailRw = false
  · exact ⟨_, if_pos havail⟩
  by_cases hpos : pos % 4 = 0
  · have hcount := not_or.mp (h (Bool.eq_true_of_not_eq_false havail) hpos)
    rw [if_neg havail, if_neg (not_not.mpr hpos), if_neg hcount.1, if_neg hcount.2]
    exact ⟨_, rfl⟩
  · rw [if_neg havail, if_pos hpos]
    exact ⟨_, rfl⟩

theorem cdevWrite_refused {data : Option (BitVec 64)}
    (h : isAvailRw = true → pos % 4 = 0 → ¬ (count = 4 ∨ count = 8)) :
    ∃ e, cdevWrite isAvailRw data count pos bar = .ok (.error e, bar) := by
  unfold cdevWrite
  by_cases havail : isAvailRw = false
  · exact ⟨_, if_pos havail⟩
  by_cases hpos : pos % 4 ≠ 0 ∨ count > 8
  · rw [if_neg havail, if_pos hpos]
    exact ⟨_, rfl⟩
  · rw [if_neg havail, if_neg hpos]
    cases data with
    | none => exact ⟨_, rfl⟩
    | some data =>
      have hcount := not_or.mp (h (Bool.eq_true_of_not_eq_false havail) (by omega))
      rw [Option.elim_some, if_neg hcount.1, if_neg hcount.2]
      exact ⟨_, rfl⟩

theorem words_regRead32 {offset v : BitVec 32} {t : Bar n} (h : regRead32 bar offset = .ok (v, t)) :
    t.words = bar.words ∧ t.touched.length = bar.touched.length + 1 := by
  obtain ⟨i, -, h⟩ := bind_eq_ok.mp h
  cases h
  exact ⟨rfl, rfl⟩

theorem words_regRead64 {offset : BitVec 32} {v : BitVec 64} {t : Bar n}
    (h : regRead64 bar offset = .ok (v, t)) :
    t.words = bar.words ∧ t.touched.length = bar.touched.length + 2 := by
  obtain ⟨i, -, h⟩ := bind_eq_ok.mp h
  obtain ⟨j, -, h⟩ := bind_eq_ok.mp h
  cases h
  exact ⟨rfl, rfl⟩

/-- A read leaves the registers as they are; if it is not refused before, it accesses one. -/
theorem words_cdevRead {r : Except CdevErrno (BitVec 64)} {t : Bar n}
    (h : cdevRead isAvailRw buf count pos bar = .ok (r, t)) :
    t.words = bar.words ∧
      (isAvailRw = true → pos % 4 = 0 → count = 4 ∨ count = 8 → t ≠ bar) := by
  by_cases hrefused : isAvailRw = true → pos % 4 = 0 → ¬ (count = 4 ∨ count = 8)
  · obtain ⟨e, he⟩ := cdevRead_refused buf bar hrefused
    rw [he] at h
    cases h
    exact ⟨rfl, fun havail hpos hcount => absurd hcount (hrefused havail hpos)⟩
  · push Not at hrefused
    obtain ⟨rfl, hpos, rfl | rfl⟩ := hrefused
    · rw [cdevRead_four hpos] at h
      obtain ⟨⟨v, u⟩, hread, h⟩ := map_eq_ok.mp h
      cases h
      obtain ⟨hwords, htouched⟩ := words_regRead32 hread
      refine ⟨hwords, fun _ _ _ heq => ?_⟩
      have hsame : u = bar := heq
      rw [hsame] at htouched
      omega
    · rw [cdevRead_eight hpos] at h
      obtain ⟨⟨v, u⟩, hread, h⟩ := map_eq_ok.mp h
      cases h
      obtain ⟨hwords, htouched⟩ := words_regRead64 hread
      refine ⟨hwords, fun _ _ _ heq => ?_⟩
      have hsame : u = bar := heq
      rw [hsame] at htouched
      omega

/-- A write that is refused does nothing. -/
theorem cdevWrite_error {data : Option (BitVec 64)} {e : CdevErrno} {t : Bar n}
    (h : cdevWrite isAvailRw data count pos bar = .ok (.error e, t)) : t = bar := by
  unfold cdevWrite at h
  split at h
  · cases h
    rfl
  split at h
  · cases h
    rfl
  cases data with
  | none =>
    cases h
    rfl
  | some data =>
    rw [Option.elim_some] at h
    split at h
    · obtain ⟨u, -, h⟩ := bind_eq_ok.mp h
      cases h
    split at h
    · obtain ⟨u, -, h⟩ := bind_eq_ok.mp h
      obtain ⟨v, -, h⟩ := bind_eq_ok.mp h
      cases h
    · cases h
      rfl

/-! ### Eight bytes -/

/-- The halves of what 32 bits of `data` are. -/
theorem low_setWidth (w : BitVec 32) : (w.setWidth 64).extractLsb' 0 32 = w := by
  ext k hk
  rw [BitVec.getElem_extractLsb', Nat.zero_add, BitVec.getLsbD_setWidth,
    decide_eq_true (Nat.lt_trans hk (by decide)), Bool.true_and, BitVec.getLsbD_eq_getElem hk]

theorem high_setWidth (w : BitVec 32) : (w.setWidth 64).extractLsb' 32 32 = 0 := by
  ext k
  simp

/-- The next offset is that of the next register, or wraps to the first. -/
theorem offset_add_four (hpos : pos % 4 = 0) :
    (BitVec.ofNat 32 (pos + 4)).toNat / 4 = (BitVec.ofNat 32 pos).toNat / 4 + 1 ∨
      (BitVec.ofNat 32 (pos + 4)).toNat / 4 = 0 := by
  simp only [BitVec.toNat_ofNat]
  omega

theorem cdevRead_eight_eq {i j : Fin n} (hpos : pos % 4 = 0)
    (hi : (BitVec.ofNat 32 pos).toNat / 4 = i) (hj : (BitVec.ofNat 32 pos).toNat / 4 + 1 = j) :
    cdevRead true buf 8 pos bar =
      .ok (copyData buf ((bar.words i).setWidth 64), (bar.touch i).touch j) := by
  rw [cdevRead_eight hpos, regRead64_eq hi hj]
  rfl

/-- An 8-byte read that succeeds is of two registers, and gives the first. -/
theorem cdevRead_eight_ok {data : BitVec 64} {t : Bar n} (hpos : pos % 4 = 0)
    (h : cdevRead true true 8 pos bar = .ok (.ok data, t)) :
    ∃ i j : Fin n, (BitVec.ofNat 32 pos).toNat / 4 = i ∧ (BitVec.ofNat 32 pos).toNat / 4 + 1 = j ∧
      data = (bar.words i).setWidth 64 := by
  rw [cdevRead_eight hpos] at h
  obtain ⟨⟨v, u⟩, hread, h⟩ := map_eq_ok.mp h
  cases h
  obtain ⟨i, hi, h⟩ := bind_eq_ok.mp hread
  obtain ⟨j, hj, h⟩ := bind_eq_ok.mp h
  cases h
  rw [indexed_eq_ok] at hi hj
  refine ⟨i, j, hi, hj, ?_⟩
  change ((bar.words j ++ bar.words i).setWidth 32).setWidth 64 = _
  rw [BitVec.setWidth_append_eq_right]

theorem cdevWrite_eight_ok {t : Bar n} {i : Fin n} (hpos : pos % 4 = 0)
    (hi : (BitVec.ofNat 32 pos).toNat / 4 = i)
    (h : cdevWrite true (some value) 8 pos bar = .ok (.ok (), t)) :
    t.words i = value.extractLsb' 32 32 := by
  rw [cdevWrite_eight hpos] at h
  obtain ⟨u, -, h⟩ := bind_eq_ok.mp h
  rw [regWrite32_eq hi, ok_bind] at h
  cases h
  exact Function.update_self ..

/-- **Of a value that is written only the upper half is read back**, as the lower half. -/
theorem cdevWrite_eight_cdevRead_eight {t u : Bar n} {data : BitVec 64} (hpos : pos % 4 = 0)
    (hwrite : cdevWrite true (some value) 8 pos bar = .ok (.ok (), t))
    (hread : cdevRead true true 8 pos t = .ok (.ok data, u)) :
    data = (value.extractLsb' 32 32).setWidth 64 := by
  obtain ⟨i, j, hi, -, hdata⟩ := cdevRead_eight_ok hpos hread
  rw [hdata, cdevWrite_eight_ok hpos hi hwrite]

/-- That is the value only if it is 0. -/
theorem setWidth_extractLsb'_eq_iff :
    (value.extractLsb' 32 32).setWidth 64 = value ↔ value = 0 := by
  constructor
  · intro h
    have hnat := congrArg BitVec.toNat h
    rw [BitVec.toNat_setWidth, BitVec.extractLsb'_toNat, Nat.shiftRight_eq_div_pow] at hnat
    have hle : value.toNat ≤ value.toNat / 2 ^ 32 := calc
      value.toNat = value.toNat / 2 ^ 32 % 2 ^ 32 % 2 ^ 64 := hnat.symm
      _ ≤ value.toNat / 2 ^ 32 % 2 ^ 32 := Nat.mod_le _ _
      _ ≤ value.toNat / 2 ^ 32 := Nat.mod_le _ _
    have hzero : value.toNat = 0 := by omega
    exact BitVec.eq_of_toNat_eq hzero
  · rintro rfl
    rfl

/-! ### The whole -/

/-- A request that is refused early, for whatever reason, meets the property. -/
theorem registerFile_of_refused (h : isAvailRw = true → pos % 4 ≠ 0) :
    RegisterFile isAvailRw buf count pos value bar := by
  have hread : ∀ (buf : Bool) (count : ℕ) (bar : Bar n),
      ∃ e, cdevRead isAvailRw buf count pos bar = .ok (.error e, bar) := fun buf count bar =>
    cdevRead_refused buf bar fun havail hpos => absurd hpos (h havail)
  have hwrite : ∀ (data : Option (BitVec 64)) (count : ℕ),
      ∃ e, cdevWrite isAvailRw data count pos bar = .ok (.error e, bar) := fun data count =>
    cdevWrite_refused fun havail hpos => absurd hpos (h havail)
  constructor
  · intro t data u ht
    obtain ⟨e, he⟩ := hwrite (some value) 8
    rw [he] at ht
    cases ht
  · intro data t ht
    obtain ⟨e, he⟩ := hread true 8 bar
    rw [he] at ht
    cases ht
  · exact fun _ => hread buf count bar
  · exact fun _ => hwrite _ count
  · exact fun e t ht => (words_cdevRead ht).1
  · exact fun e t ht => congrArg Bar.words (cdevWrite_error ht)

theorem registerFile_of_fair (hpos : pos % 4 = 0)
    (hpair : (BitVec.ofNat 32 pos).toNat / 4 + 1 < n → value = 0 ∧
      ∀ i : Fin n, i.val = (BitVec.ofNat 32 (pos + 4)).toNat / 4 → bar.words i = 0)
    (hcount : count = 4 ∨ count = 8 → pos + count ≤ 4 * n) :
    RegisterFile true buf count pos value bar := by
  constructor
  · intro t data u hwrite hread
    obtain ⟨i, j, hi, hj, -⟩ := cdevRead_eight_ok hpos hread
    rw [cdevWrite_eight_cdevRead_eight hpos hwrite hread]
    exact setWidth_extractLsb'_eq_iff.mpr (hpair (hj ▸ j.isLt)).1
  · intro data t hread
    obtain ⟨i, j, hi, hj, hdata⟩ := cdevRead_eight_ok hpos hread
    have hlt : (BitVec.ofNat 32 (pos + 4)).toNat / 4 < n := by
      have := j.isLt
      rcases offset_add_four hpos with heq | heq <;> omega
    have hzero := (hpair (hj ▸ j.isLt)).2 ⟨_, hlt⟩ rfl
    have hpos' : (pos + 4) % 4 = 0 := by omega
    refine ⟨(bar.words i).setWidth 64, 0, bar.touch i, (bar.touch i).touch ⟨_, hlt⟩, ?_, ?_, ?_, ?_⟩
    · rw [cdevRead_four hpos, regRead32_eq hi]
      rfl
    · rw [cdevRead_four hpos', regRead32_eq (i := ⟨_, hlt⟩) rfl]
      change Except.ok (copyData true ((bar.words ⟨_, hlt⟩).setWidth 64), _) = _
      rw [hzero]
      rfl
    · rw [hdata, low_setWidth, BitVec.setWidth_setWidth_of_le _ (by decide), BitVec.setWidth_eq]
    · rw [hdata, high_setWidth]
      rfl
  · intro hout
    exact cdevRead_refused buf bar fun _ _ h => hout (hcount h)
  · intro hout
    exact cdevWrite_refused fun _ _ h => hout (hcount h)
  · exact fun e t ht => (words_cdevRead ht).1
  · exact fun e t ht => congrArg Bar.words (cdevWrite_error ht)

theorem fair_of_registerFile (h : RegisterFile isAvailRw buf count pos value bar) :
    RegisterFileFair isAvailRw count pos value bar := by
  rintro rfl hpos
  refine ⟨fun hpair => ?_, fun hcount => ?_⟩
  · have hlt : (BitVec.ofNat 32 (pos + 4)).toNat / 4 < n := by
      rcases offset_add_four hpos with heq | heq <;> omega
    have hread : ∀ bar : Bar n, cdevRead true true 8 pos bar = .ok (.ok _, _) := fun bar =>
      cdevRead_eight_eq (i := ⟨_, Nat.lt_of_succ_lt hpair⟩) (j := ⟨_, hpair⟩) hpos rfl rfl
    constructor
    · have hwrite : ∃ t, cdevWrite true (some value) 8 pos bar = .ok (.ok (), t) := by
        rw [cdevWrite_eight hpos, regWrite32_eq (i := ⟨_, hlt⟩) rfl, ok_bind,
          regWrite32_eq (i := ⟨_, Nat.lt_of_succ_lt hpair⟩) rfl]
        exact ⟨_, rfl⟩
      obtain ⟨t, ht⟩ := hwrite
      have hdata := h.roundTrip t _ _ ht (hread t)
      rw [cdevWrite_eight_ok hpos rfl ht] at hdata
      exact setWidth_extractLsb'_eq_iff.mp hdata
    · intro i hi
      obtain ⟨low, high, u, v, hlow, hhigh, -, hword⟩ := h.halves _ _ (hread bar)
      have hwords := (words_cdevRead hlow).1
      rw [cdevRead_four (by omega), regRead32_eq hi.symm] at hhigh
      cases hhigh
      rw [hwords, high_setWidth, BitVec.setWidth_setWidth_of_le _ (by decide),
        BitVec.setWidth_eq] at hword
      exact hword.symm
  · by_contra hout
    obtain ⟨e, he⟩ := h.refusesRead hout
    exact (words_cdevRead he).2 rfl hpos hcount rfl

/-- **Exactly which requests find an array of words.** -/
theorem registerFile_iff (isAvailRw buf : Bool) (count pos : ℕ) (value : BitVec 64) (bar : Bar n) :
    RegisterFile isAvailRw buf count pos value bar ↔
      RegisterFileFair isAvailRw count pos value bar := by
  refine ⟨fair_of_registerFile, fun h => ?_⟩
  by_cases hrefused : isAvailRw = true → pos % 4 ≠ 0
  · exact registerFile_of_refused hrefused
  · push Not at hrefused
    obtain ⟨rfl, hpos⟩ := hrefused
    exact registerFile_of_fair hpos (h rfl hpos).1 (h rfl hpos).2

/-- The value 1 at the start of two registers. -/
theorem not_registerFile : ¬ ∀ (isAvailRw buf : Bool) (n count pos : ℕ) (value : BitVec 64)
    (bar : Bar n), RegisterFile isAvailRw buf count pos value bar := by
  intro h
  have hdata := (h true true 2 8 0 1 ⟨fun _ => 0, []⟩).roundTrip _ _ _ rfl rfl
  exact absurd hdata (by decide)

end HardwareDrivers.Driver
