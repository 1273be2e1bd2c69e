import Mathlib.Data.BitVec

/-!
# Fields in the bits of a word

A field of a word has a mask for its value and a place that the value is shifted to. A word is put
together from several fields with `or`, and each is taken out of it again with its mask.

## What is proved

* `BitField.read_place`, `BitField.read_place_of_disjoint` — what a field is read as from one of its
  own values, and from a value of a field elsewhere.
* `read_packFields` — fields in different places are read as what was put there.
* `map_read_packFields`, `zipWith_mask` — all fields of a word, and what the masks keep of values
  that fit.
* `toNat_or_of_dvd`, `toNat_setWidth_shiftLeft` — the number of a word that is put together.
* `byteOf_wordAt`, `putBytes_copied` — the bytes of a word that is read from memory, and copying words
  one after another.
-/

namespace HardwareDrivers.Theory

variable {n : ℕ}

/-- A field of a word. -/
structure BitField (n : ℕ) where
  /-- The bits of its value. -/
  mask : BitVec n
  /-- How far its value is shifted. -/
  shift : ℕ
  deriving DecidableEq

namespace BitField

/-- The word with the value of a field. -/
def place (b : BitField n) (v : BitVec n) : BitVec n := (v &&& b.mask) <<< b.shift

/-- The value of a field in a word. -/
def read (b : BitField n) (x : BitVec n) : BitVec n := (x &&& b.mask <<< b.shift) >>> b.shift

/-- Two fields are in different places. -/
def Disjoint (a b : BitField n) : Prop := (a.mask <<< a.shift) &&& (b.mask <<< b.shift) = 0

/-- The field is inside the word. -/
def Whole (b : BitField n) : Prop := (b.mask <<< b.shift) >>> b.shift = b.mask

instance (a b : BitField n) : Decidable (a.Disjoint b) := inferInstanceAs (Decidable (_ = _))

instance (b : BitField n) : Decidable b.Whole := inferInstanceAs (Decidable (_ = _))

variable {a b : BitField n} {v x y : BitVec n}

theorem read_or : b.read (x ||| y) = b.read x ||| b.read y := by
  ext i
  simp only [read, BitVec.getElem_ushiftRight, BitVec.getLsbD_and, BitVec.getLsbD_or,
    BitVec.getElem_or, Bool.and_or_distrib_right]

theorem read_zero : b.read 0#n = 0#n := by
  rw [read, BitVec.zero_and, BitVec.zero_ushiftRight]

theorem Disjoint.symm (h : a.Disjoint b) : b.Disjoint a := (BitVec.and_comm ..).trans h

theorem place_eq : b.place v = v <<< b.shift &&& b.mask <<< b.shift :=
  BitVec.shiftLeft_and_distrib ..

/-- What a shift to the left and back keeps. -/
theorem shiftLeft_shiftRight (x : BitVec n) (s : ℕ) :
    (x <<< s) >>> s = x &&& (BitVec.allOnes n <<< s) >>> s := by
  ext i hi
  simp only [BitVec.getElem_ushiftRight, BitVec.getElem_and, BitVec.getLsbD_shiftLeft,
    Nat.add_sub_cancel_left, BitVec.getLsbD_eq_getElem hi, BitVec.getElem_allOnes, Bool.and_true]
  exact Bool.and_comm ..

/-- **A field is read as what was put there.** -/
theorem read_place (h : b.Whole) : b.read (b.place v) = v &&& b.mask := by
  rw [read, place_eq, BitVec.and_assoc, BitVec.and_self, BitVec.ushiftRight_and_distrib, h]
  rw [Whole, shiftLeft_shiftRight, BitVec.and_comm] at h
  rw [shiftLeft_shiftRight, BitVec.and_assoc, h]

theorem toNat_read_le (h : b.Whole) : (b.read x).toNat ≤ b.mask.toNat := by
  rw [read, BitVec.ushiftRight_and_distrib, h, BitVec.toNat_and]
  exact Nat.and_le_right

/-- **A field is read as 0** from a value that is elsewhere. -/
theorem read_place_of_disjoint (h : a.Disjoint b) : a.read (b.place v) = 0#n := by
  have hzero : b.mask <<< b.shift &&& a.mask <<< a.shift = 0#n := h.symm
  rw [read, place_eq, BitVec.and_assoc, hzero, BitVec.and_zero, BitVec.zero_ushiftRight]

end BitField

/-- `value = ..; value |= ..`: the word with several fields. -/
def packFields (fields : List (BitVec n × BitField n)) : BitVec n :=
  fields.foldl (fun value f => value ||| f.2.place f.1) 0#n

variable {b : BitField n} {fields : List (BitVec n × BitField n)} {v : BitVec n}

/-- Fields in other places do not matter. -/
theorem read_foldl_of_disjoint (x : BitVec n) (h : ∀ f ∈ fields, b.Disjoint f.2) :
    b.read (fields.foldl (fun value f => value ||| f.2.place f.1) x) = b.read x := by
  induction fields generalizing x with
  | nil => rfl
  | cons f fields ih =>
    rw [List.foldl_cons, ih _ fun g hg => h g (List.mem_cons_of_mem f hg), BitField.read_or,
      BitField.read_place_of_disjoint (h f (List.mem_cons_self ..)), BitVec.or_zero]

theorem read_foldl_of_mem (x : BitVec n) (hx : b.read x = 0#n) (hb : b.Whole)
    (hdisj : fields.Pairwise fun f g => f.2.Disjoint g.2) (hmem : (v, b) ∈ fields) :
    b.read (fields.foldl (fun value f => value ||| f.2.place f.1) x) = v &&& b.mask := by
  induction fields generalizing x with
  | nil => cases hmem
  | cons f fields ih =>
    obtain ⟨hfirst, hdisj⟩ := List.pairwise_cons.mp hdisj
    rw [List.foldl_cons]
    rcases List.mem_cons.mp hmem with rfl | hmem
    · rw [read_foldl_of_disjoint _ hfirst, BitField.read_or, hx, BitVec.zero_or,
        BitField.read_place hb]
    · refine ih _ ?_ hdisj hmem
      have hother : b.Disjoint f.2 := (hfirst (v, b) hmem).symm
      rw [BitField.read_or, hx, BitVec.zero_or, BitField.read_place_of_disjoint hother]

/-- **Fields in different places** are read as what was put there. -/
theorem read_packFields (hwhole : ∀ b ∈ fields.map Prod.snd, b.Whole)
    (hdisj : (fields.map Prod.snd).Pairwise BitField.Disjoint) (hmem : (v, b) ∈ fields) :
    b.read (packFields fields) = v &&& b.mask :=
  read_foldl_of_mem 0#n BitField.read_zero (hwhole b (List.mem_map_of_mem hmem))
    (List.pairwise_map.mp hdisj) hmem

variable {layout : List (BitField n)} {values : List (BitVec n)} {widths : List ℕ}

/-- **All fields** are read as what their masks keep of the values. -/
theorem map_read_packFields (hwhole : ∀ b ∈ layout, b.Whole) (hdisj : layout.Pairwise BitField.Disjoint)
    (hlen : values.length = layout.length) :
    layout.map (fun b => b.read (packFields (values.zip layout))) =
      List.zipWith (fun v b => v &&& b.mask) values layout := by
  have hsnd : (values.zip layout).map Prod.snd = layout := List.map_snd_zip hlen.ge
  conv_lhs => rw [← hsnd]
  rw [List.map_map, ← List.map_uncurry_zip_eq_zipWith]
  refine List.map_congr_left fun f hf => ?_
  rw [hsnd]
  exact read_packFields (hsnd.symm ▸ hwhole) (hsnd.symm ▸ hdisj) hf

/-- The mask of a field of `w` bits. -/
def ones (w : ℕ) : BitVec n := BitVec.ofNat n (2 ^ w - 1)

theorem and_ones {w : ℕ} (h : v.toNat < 2 ^ w) : v &&& ones w = v := by
  refine BitVec.eq_of_getLsbD_eq fun i hi => ?_
  rw [BitVec.getLsbD_and, ones, BitVec.getLsbD_ofNat, Nat.testBit_two_pow_sub_one, decide_eq_true hi,
    Bool.true_and]
  by_cases hiw : i < w
  · rw [decide_eq_true hiw, Bool.and_true]
  · have hlt : v.toNat < 2 ^ i := h.trans_le (Nat.pow_le_pow_right Nat.two_pos (not_lt.mp hiw))
    rw [BitVec.getLsbD, Nat.testBit_lt_two_pow hlt, Bool.false_and]

/-- Masks keep the values that fit. -/
theorem zipWith_mask (hfit : List.Forall₂ (fun v w => v.toNat < 2 ^ w) values widths)
    (hmask : layout.map BitField.mask = widths.map ones) :
    List.zipWith (fun v b => v &&& b.mask) values layout = values := by
  induction hfit generalizing layout with
  | nil => rfl
  | cons hv _ ih =>
    cases layout with
    | nil => cases hmask
    | cons b layout =>
      obtain ⟨hb, hmask⟩ := List.cons.inj hmask
      rw [List.zipWith_cons_cons, hb, and_ones hv, ih hmask]

/-! ### Words as numbers -/

/-- A word put together from a multiple of a power of two and what is below that. -/
theorem toNat_or_of_dvd {s : ℕ} {x y : BitVec n} (hx : 2 ^ s ∣ x.toNat) (hy : y.toNat < 2 ^ s) :
    (x ||| y).toNat = x.toNat + y.toNat := by
  obtain ⟨q, hq⟩ := hx
  rw [BitVec.toNat_or, hq, Nat.two_pow_add_eq_or_of_lt hy]

/-- A value that is widened by what it is shifted. -/
theorem toNat_setWidth_shiftLeft {v w s : ℕ} (x : BitVec v) (h : v + s ≤ w) :
    ((x.setWidth w : BitVec w) <<< s).toNat = x.toNat * 2 ^ s := by
  have hlt : x.toNat * 2 ^ s < 2 ^ w := by
    calc x.toNat * 2 ^ s < 2 ^ v * 2 ^ s := Nat.mul_lt_mul_of_pos_right x.isLt (Nat.two_pow_pos s)
      _ = 2 ^ (v + s) := (Nat.pow_add 2 v s).symm
      _ ≤ 2 ^ w := Nat.pow_le_pow_right (by decide) h
  rw [BitVec.toNat_shiftLeft, BitVec.toNat_setWidth_of_le (by omega), Nat.shiftLeft_eq,
    Nat.mod_eq_of_lt hlt]

/-! ### The bytes of a word -/

/-- Byte `k` of a word, the lowest one first. -/
def byteOf (x : BitVec n) (k : ℕ) : UInt8 := .ofBitVec (x.extractLsb' (8 * k) 8)

/-- The byte of a word that is shifted down and masked. -/
theorem byteOf_eq_shift (x : BitVec 32) (k : ℕ) :
    .ofBitVec (((x >>> (8 * k)) &&& 0xFF).setWidth 8) = byteOf x k := by
  refine congrArg UInt8.ofBitVec (BitVec.eq_of_getLsbD_eq fun i hi => ?_)
  have hmask : (0xFF : BitVec 32).getLsbD i = true := by
    have hall : ∀ j < 8, (0xFF : BitVec 32).getLsbD j = true := by decide
    exact hall i hi
  rw [BitVec.getLsbD_setWidth, BitVec.getLsbD_and, hmask, BitVec.getLsbD_ushiftRight,
    BitVec.getLsbD_extractLsb', Bool.and_true]

/-- The lowest byte of a word whose other bytes are above it. -/
theorem byteOf_append_zero (x : BitVec n) (b : UInt8) : byteOf (x ++ b.toBitVec) 0 = b := by
  refine congrArg UInt8.ofBitVec (BitVec.eq_of_getLsbD_eq fun i hi => ?_)
  rw [BitVec.getLsbD_extractLsb', BitVec.getLsbD_append, decide_eq_true hi, Bool.true_and,
    Nat.mul_zero, Nat.zero_add, if_pos hi]

/-- The bytes above it. -/
theorem byteOf_append_succ (x : BitVec n) (b : UInt8) (k : ℕ) :
    byteOf (x ++ b.toBitVec) (k + 1) = byteOf x k := by
  refine congrArg UInt8.ofBitVec (BitVec.eq_of_getLsbD_eq fun i hi => ?_)
  rw [BitVec.getLsbD_extractLsb', BitVec.getLsbD_extractLsb', BitVec.getLsbD_append,
    if_neg (by omega)]
  congr 2
  omega

theorem byteOf_toBitVec (b : UInt8) : byteOf b.toBitVec 0 = b := by
  refine congrArg UInt8.ofBitVec (BitVec.eq_of_getLsbD_eq fun i hi => ?_)
  rw [BitVec.getLsbD_extractLsb', decide_eq_true hi, Bool.true_and, Nat.mul_zero, Nat.zero_add]

/-- The word in memory from an address. -/
def wordAt (mem : ℕ → UInt8) (a : ℕ) : BitVec 32 :=
  (mem (a + 3)).toBitVec ++ (mem (a + 2)).toBitVec ++ (mem (a + 1)).toBitVec ++ (mem a).toBitVec

/-- The bytes of a word are those in memory. -/
theorem byteOf_wordAt (mem : ℕ → UInt8) (a : ℕ) {k : ℕ} (h : k < 4) :
    byteOf (wordAt mem a) k = mem (a + k) := by
  unfold wordAt
  match k, h with
  | 0, _ => exact byteOf_append_zero ..
  | 1, _ =>
    rw [byteOf_append_succ]
    exact byteOf_append_zero ..
  | 2, _ =>
    rw [byteOf_append_succ, byteOf_append_succ]
    exact byteOf_append_zero ..
  | 3, _ =>
    rw [byteOf_append_succ, byteOf_append_succ, byteOf_append_succ]
    exact byteOf_toBitVec _

/-- `memcpy` of the first bytes of a word into an array that has the place for them. -/
def putBytes {m : ℕ} (a : Fin m → UInt8) (index count : ℕ) (_h : index + count ≤ m) (x : BitVec n) :
    Fin m → UInt8 :=
  fun i => if index ≤ i ∧ i < index + count then byteOf x (i - index) else a i

/-- An array that begins with the bytes in memory. -/
def copied {m : ℕ} (mem : ℕ → UInt8) (d k : ℕ) (a : Fin m → UInt8) : Fin m → UInt8 :=
  fun i => if i < k then mem (d + i) else a i

/-- **One word more is copied.** -/
theorem putBytes_copied {m k count : ℕ} (a : Fin m → UInt8) (h : k + count ≤ m) (mem : ℕ → UInt8)
    (d : ℕ) (hcount : count ≤ 4) :
    putBytes (copied mem d k a) k count h (wordAt mem (d + k)) = copied mem d (k + count) a := by
  funext i
  unfold putBytes copied
  by_cases hlt : i < k + count
  · rw [if_pos hlt]
    by_cases hle : k ≤ i
    · rw [if_pos ⟨hle, hlt⟩, byteOf_wordAt mem _ (by omega), Nat.add_assoc, Nat.add_sub_cancel' hle]
    · rw [if_neg fun hi => hle hi.1, if_pos (Nat.lt_of_not_le hle)]
  · rw [if_neg fun hi => hlt hi.2, if_neg hlt, if_neg (by omega)]

end HardwareDrivers.Theory
