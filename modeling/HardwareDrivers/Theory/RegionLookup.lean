import HardwareDrivers.Theory.RegionMap

/-!
# Looking an address up in a map of regions

The region of an address is looked for at one key only, the greatest that is at most
the address. Here the regions may overlap, in a space of addresses below `N` where an
image leaves the space at `N` and comes in again at `0`. The lookup is right for every
entry that contains the address when what starts inside a region continues it.

## What is proved

* `meshed_iff` — the lookup gives the image and the length left of every entry with the
  address exactly if a region that starts inside another continues it and ends with it.
* `chained_iff` — it gives the image of every such entry exactly if what starts inside a
  region continues it and reaches the end or the next key.
* `avoidsZero_iff` — no address has the image `0`.
-/

namespace HardwareDrivers.Theory

namespace RegionMap

variable {N : ℕ} {m : RegionMap} {a k l : ℕ} {e f : ℕ × ℕ}

/-- The address `a` lies in the region of the entry `k ↦ e`. -/
def Contains (k : ℕ) (e : ℕ × ℕ) (a : ℕ) : Prop := k ≤ a ∧ a < k + e.2

/-- Some entry contains the address. -/
def InRegion (m : RegionMap) (a : ℕ) : Prop := ∃ k e, m.get k = some e ∧ Contains k e a

/-- Where the entry `k ↦ e` takes `a`. -/
def image (N k : ℕ) (e : ℕ × ℕ) (a : ℕ) : ℕ := (e.1 + (a - k)) % N

/-- The entry of the nearest lower key, if it contains the address. -/
def nearest (m : RegionMap) (a : ℕ) : Option (ℕ × ℕ × ℕ) :=
  match m.entryLE? a with
  | none => none
  | some (k, e) => if a - k < e.2 then some (k, e) else none

/-- Keys, targets and lengths are below `N`. -/
def Bounded (N : ℕ) (m : RegionMap) : Prop := ∀ k e, m.get k = some e → k < N ∧ e.1 < N ∧ e.2 < N

/-- The region from `l` on goes where the one from `k` on takes `l`. -/
def Continues (N k : ℕ) (e : ℕ × ℕ) (l : ℕ) (f : ℕ × ℕ) : Prop := image N k e l = f.1 % N

/-- What starts inside a region continues it and ends with it. -/
def Meshed (N : ℕ) (m : RegionMap) : Prop :=
  ∀ k e l f, m.get k = some e → m.get l = some f → k < l → l < k + e.2 →
    Continues N k e l f ∧ k + e.2 = l + f.2

/-- What starts inside a region continues it and reaches the end of it, the end of the
addresses or the next key. -/
def Chained (N : ℕ) (m : RegionMap) : Prop :=
  ∀ k e l f, m.get k = some e → m.get l = some f → k < l → l < k + e.2 →
    Continues N k e l f ∧
      (k + e.2 ≤ l + f.2 ∨ N ≤ l + f.2 ∨ ∃ j g, m.get j = some g ∧ l < j ∧ j ≤ l + f.2)

/-- No region has an address with the image `0`. -/
def AvoidsZero (N : ℕ) (m : RegionMap) : Prop :=
  ∀ k e, m.get k = some e → e.2 = 0 ∨ 0 < e.1 ∧ e.1 + min e.2 (N - k) ≤ N

theorem nearest_eq_some :
    nearest m a = some (l, f) ↔ m.get l = some f ∧ Contains l f a ∧
      ∀ b ≤ a, (m.get b).isSome → b ≤ l := by
  unfold nearest Contains
  cases h : m.entryLE? a with
  | none =>
    rw [OrderedMap.entryLE?_eq_none] at h
    simp only [reduceCtorEq, false_iff]
    rintro ⟨hl, ⟨hle, -⟩, -⟩
    rw [h l hle] at hl
    cases hl
  | some p =>
    obtain ⟨k, e⟩ := p
    obtain ⟨hk, hle, hmax⟩ := OrderedMap.entryLE?_eq_some.mp h
    simp only
    split_ifs with hlt
    · constructor
      · intro he
        cases he
        exact ⟨hk, ⟨hle, by omega⟩, hmax⟩
      · rintro ⟨hl, ⟨hla, -⟩, hl'⟩
        obtain rfl : l = k :=
          le_antisymm (hmax l hla (by simp [hl])) (hl' k hle (by simp [hk]))
        cases hk.symm.trans hl
        rfl
    · simp only [false_iff]
      rintro ⟨hl, ⟨hla, hla'⟩, hl'⟩
      obtain rfl : l = k :=
        le_antisymm (hmax l hla (by simp [hl])) (hl' k hle (by simp [hk]))
      cases hk.symm.trans hl
      omega

/-- At or above a key there is a nearest lower one. -/
theorem exists_greatest (hk : m.get k = some e) (hle : k ≤ a) :
    ∃ l f, m.get l = some f ∧ k ≤ l ∧ l ≤ a ∧ ∀ b ≤ a, (m.get b).isSome → b ≤ l := by
  cases h : m.entryLE? a with
  | none =>
    rw [OrderedMap.entryLE?_eq_none] at h
    rw [h k hle] at hk
    cases hk
  | some p =>
    obtain ⟨l, f⟩ := p
    obtain ⟨hl, hla, hmax⟩ := OrderedMap.entryLE?_eq_some.mp h
    exact ⟨l, f, hl, hmax k hle (by simp [hk]), hla, hmax⟩

/-- What is found at a key is the entry of the key. -/
theorem eq_of_nearest_self {l' : ℕ} {f' : ℕ × ℕ} (hl : m.get l = some f)
    (h : nearest m l = some (l', f')) : l' = l ∧ f' = f := by
  obtain ⟨hl', ⟨hle, -⟩, hmax⟩ := nearest_eq_some.mp h
  obtain rfl : l = l' := le_antisymm (hmax l le_rfl (by simp [hl])) hle
  exact ⟨rfl, Option.some_inj.mp (hl'.symm.trans hl)⟩

theorem image_self (N k : ℕ) (e : ℕ × ℕ) : image N k e k = e.1 % N := by
  simp [image]

/-- Past the start of what continues a region the images agree. -/
theorem Continues.image_eq (h : Continues N k e l f) (hkl : k ≤ l) (hla : l ≤ a) :
    image N l f a = image N k e a := by
  have hsum : e.1 + (a - k) = e.1 + (l - k) + (a - l) := by omega
  unfold Continues image at h
  unfold image
  rw [hsum, Nat.add_mod, ← h, ← Nat.add_mod]

/-- **Every region with the address is what the lookup sees, the length left included**,
exactly if what starts inside a region continues it and ends with it. -/
theorem meshed_iff (hb : Bounded N m) :
    Meshed N m ↔ ∀ a < N, ∀ k e, m.get k = some e → Contains k e a →
      ∃ l f, nearest m a = some (l, f) ∧ image N l f a = image N k e a ∧
        l + f.2 = k + e.2 := by
  constructor
  · intro hm a _ k e hk ⟨hka, hak⟩
    obtain ⟨l, f, hl, hkl, hla, hmax⟩ := exists_greatest hk hka
    rcases hkl.eq_or_lt with rfl | hlt
    · cases hk.symm.trans hl
      exact ⟨k, e, nearest_eq_some.mpr ⟨hl, ⟨hla, hak⟩, hmax⟩, rfl, rfl⟩
    · obtain ⟨hc, hend⟩ := hm k e l f hk hl hlt (by omega)
      exact ⟨l, f, nearest_eq_some.mpr ⟨hl, ⟨hla, by omega⟩, hmax⟩, hc.image_eq hkl hla, hend.symm⟩
  · intro h k e l f hk hl hkl hle
    -- what the lookup gives at the inner start
    obtain ⟨l', f', hn, hi, hend⟩ := h l (hb l f hl).1 k e hk ⟨hkl.le, hle⟩
    obtain ⟨rfl, rfl⟩ := eq_of_nearest_self hl hn
    rw [image_self] at hi
    exact ⟨hi.symm, hend.symm⟩

/-- **Every region with the address goes where the lookup says** exactly if what starts
inside a region continues it and reaches its end or the next key. -/
theorem chained_iff (hb : Bounded N m) :
    Chained N m ↔ ∀ a < N, ∀ k e, m.get k = some e → Contains k e a →
      ∃ l f, nearest m a = some (l, f) ∧ image N l f a = image N k e a := by
  constructor
  · intro hm a haN k e hk ⟨hka, hak⟩
    obtain ⟨l, f, hl, hkl, hla, hmax⟩ := exists_greatest hk hka
    rcases hkl.eq_or_lt with rfl | hlt
    · cases hk.symm.trans hl
      exact ⟨k, e, nearest_eq_some.mpr ⟨hl, ⟨hla, hak⟩, hmax⟩, rfl⟩
    · obtain ⟨hc, hend⟩ := hm k e l f hk hl hlt (by omega)
      have hreach : a < l + f.2 := by
        by_contra hout
        obtain hend | hend | ⟨j, g, hj, hlj, hjf⟩ := hend
        · omega
        · omega
        · -- the next key would be nearer
          have := hmax j (by omega) (by simp [hj])
          omega
      exact ⟨l, f, nearest_eq_some.mpr ⟨hl, ⟨hla, hreach⟩, hmax⟩, hc.image_eq hkl hla⟩
  · intro h k e l f hk hl hkl hle
    have hc : Continues N k e l f := by
      obtain ⟨l', f', hn, hi⟩ := h l (hb l f hl).1 k e hk ⟨hkl.le, hle⟩
      obtain ⟨rfl, rfl⟩ := eq_of_nearest_self hl hn
      rw [image_self] at hi
      exact hi.symm
    refine ⟨hc, ?_⟩
    by_contra hend
    simp only [not_or, not_le, not_exists, not_and] at hend
    obtain ⟨hshort, hspace, hnext⟩ := hend
    -- the first address past the inner region is still in the outer one
    obtain ⟨l', f', hn', -⟩ := h (l + f.2) hspace k e hk ⟨by omega, hshort⟩
    obtain ⟨hl'', ⟨hle'', hlt''⟩, hmax'⟩ := nearest_eq_some.mp hn'
    rcases (hmax' l (Nat.le_add_right _ _) (by simp [hl])).eq_or_lt with rfl | hlt
    · cases hl.symm.trans hl''
      omega
    · exact absurd hle'' (by have := hnext l' f' hl'' hlt; omega)

/-- **No address has the image `0`** exactly if every region with an address starts above
`0` on the other side and does not leave the addresses there. -/
theorem avoidsZero_iff (hb : Bounded N m) :
    AvoidsZero N m ↔ ∀ a < N, ∀ k e, m.get k = some e → Contains k e a → image N k e a ≠ 0 := by
  constructor
  · intro hz a ha k e hk ⟨hka, hak⟩
    obtain ⟨hkN, heN, -⟩ := hb k e hk
    rcases hz k e hk with hz | ⟨hpos, hle⟩
    · omega
    · unfold image
      rw [Nat.mod_eq_of_lt (by omega)]
      omega
  · intro h k e hk
    obtain ⟨hkN, heN, -⟩ := hb k e hk
    by_cases hn : e.2 = 0
    · exact .inl hn
    have hpos : 0 < e.1 := by
      have := h k hkN k e hk ⟨le_rfl, by omega⟩
      rw [image_self, Nat.mod_eq_of_lt heN] at this
      omega
    refine .inr ⟨hpos, ?_⟩
    by_contra hover
    -- the address that goes to `N`
    refine h (k + (N - e.1)) (by omega) k e hk ⟨by omega, by omega⟩ ?_
    have hN : e.1 + (k + (N - e.1) - k) = N := by omega
    rw [image, hN, Nat.mod_self]

/-! ### Maps that are changed -/

theorem bounded_empty : Bounded N OrderedMap.empty := by
  intro k e hk
  cases hk

theorem Bounded.set (h : Bounded N m) (hk : k < N) (h₁ : e.1 < N) (h₂ : e.2 < N) :
    Bounded N (m.set k e) := by
  intro l f hl
  rw [OrderedMap.get_set] at hl
  split_ifs at hl with hlk
  · cases hl
    subst hlk
    exact ⟨hk, h₁, h₂⟩
  · exact h l f hl

theorem Bounded.erase (h : Bounded N m) (k : ℕ) : Bounded N (m.erase k) := by
  intro l f hl
  rw [OrderedMap.get_erase] at hl
  split_ifs at hl
  exact h l f hl

theorem Meshed.erase (h : Meshed N m) (k : ℕ) : Meshed N (m.erase k) := by
  intro a e b f ha hb
  rw [OrderedMap.get_erase] at ha hb
  split_ifs at ha hb
  exact h a e b f ha hb

theorem AvoidsZero.erase (h : AvoidsZero N m) (k : ℕ) : AvoidsZero N (m.erase k) := by
  intro a e ha
  rw [OrderedMap.get_erase] at ha
  split_ifs at ha
  exact h a e ha

end RegionMap

end HardwareDrivers.Theory
