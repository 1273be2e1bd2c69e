import HardwareDrivers.Libfpga.ShmemMmap

/-!
# The shared memory allocator

`libshmem.c`: a buffer is taken from DPDK's heap and registered in the address maps;
releasing it gives it back to the heap and unregisters it. The heap itself and the
page tables are DPDK's: `rte_malloc` may answer with any range that is free, and
`rte_mem_virt2phy` is any assignment of pages to frames.

## What is proved

* `regionLoop_two` — the registration loop ends within two passes, or never.
* `tracks_run` — after any history of calls the virtual map holds exactly the live
  buffers, each with the physical address of its first byte and its whole length.
-/

namespace HardwareDrivers.Libfpga

open Theory RegionMap

/-! ### The calls -/

/-- An assignment of the pages of a 64-bit address space to frames. -/
structure PageMap where
  /-- The size of a page. -/
  pageSize : ℕ
  /-- How many pages, and frames, there are. -/
  frames : ℕ
  /-- The frame of a page. -/
  frame : ℕ → ℕ
  /-- The pages make up the address space. -/
  mul_eq : pageSize * frames = 2 ^ 64
  /-- Every page has one of the frames. -/
  frame_lt : ∀ page, frame page < frames

/-- `rte_mem_virt2phy`. -/
def PageMap.rteMemVirt2phy (pm : PageMap) (va : ℕ) : ℕ :=
  pm.frame (va / pm.pageSize) * pm.pageSize + va % pm.pageSize

/-- Pages of 1 GiB, each in the frame of its own number. -/
def PageMap.flat : PageMap where
  pageSize := 2 ^ 30
  frames := 2 ^ 34
  frame page := page % 2 ^ 34
  mul_eq := rfl
  frame_lt page := Nat.mod_lt page (by decide)

/-- Pages of 1 GiB, the third and the ninth in each other's frame. -/
def PageMap.swapped : PageMap where
  pageSize := 2 ^ 30
  frames := 2 ^ 34
  frame page := if page % 2 ^ 34 = 3 then 9 else if page % 2 ^ 34 = 9 then 3 else page % 2 ^ 34
  mul_eq := rfl
  frame_lt page := by
    have := Nat.mod_lt page (show 0 < 2 ^ 34 by decide)
    split_ifs <;> omega

/-- `__add_new_region`; `memseg` says whether DPDK knows the memory segment of the address.
What `fpga_shmem_register` returns is not looked at. -/
def addNewRegion (pm : PageMap) (memseg : Bool) (m : ShmemMaps) (va len : ℕ) : Bool × ShmemMaps :=
  if memseg then (true, (fpgaShmemRegister m va (pm.rteMemVirt2phy va) len).2) else (false, m)

/-- `__remap_region`. -/
def remapRegion (pm : PageMap) (memseg : Bool) (m : ShmemMaps) (va len : ℕ) : Bool × ShmemMaps :=
  if !fpgaShmemRegisterCheck m va then (false, m)
  else if memseg then (true, (fpgaShmemRegisterUpdate m va (pm.rteMemVirt2phy va) len).2)
  else (false, m)

/-- The loop of the allocation functions, under `region_mutex`: at most `fuel` passes, `none`
if they were not enough. The result is whether the loop was left without an error, the maps
and `chklen`. -/
def regionLoop (pm : PageMap) (memseg : Bool) (va : ℕ) :
    ℕ → ShmemMaps → ℕ → Option (Bool × ShmemMaps × ℕ)
  | 0, _, _ => none
  | fuel + 1, m, chklen =>
    let (pa, chklen) := fpgaShmemMmapV2p m va chklen
    if pa = 0 then
      match addNewRegion pm memseg m va chklen with
      | (false, m) => some (false, m, chklen)
      | (true, m) => regionLoop pm memseg va fuel m chklen
    else if pa ≠ pm.rteMemVirt2phy va then
      match remapRegion pm memseg m va chklen with
      | (ok, m) => some (ok, m, chklen)
    else some (true, m, chklen)

/-- What `fpga_shmem_alloc` and `fpga_shmem_aligned_alloc` do with the `va` that `rte_malloc`
returned: the address they return, or `none` for `NULL`, and the maps; `none` altogether if the
call does not return. -/
def registerBuffer (pm : PageMap) (memseg : Bool) (m : ShmemMaps) (va length : ℕ) :
    Option (Option ℕ × ShmemMaps) :=
  (regionLoop pm memseg va 2 m length).map fun (ok, m, chklen) =>
    if ok && length = chklen then (some va, m) else (none, m)

/-- A live buffer: what `rte_malloc` handed out and `rte_free` has not had back. -/
structure Buffer where
  /-- Its first address. -/
  va : ℕ
  /-- Its length. -/
  len : ℕ
  deriving DecidableEq

/-- The address lies in the buffer. -/
def Buffer.Contains (b : Buffer) (x : ℕ) : Prop := b.va ≤ x ∧ x < b.va + b.len

/-- Two buffers without a common address. -/
def Buffer.Apart (a b : Buffer) : Prop := a.va + a.len ≤ b.va ∨ b.va + b.len ≤ a.va

instance (a b : Buffer) : Decidable (a.Apart b) := inferInstanceAs (Decidable (_ ∨ _))

/-- The state of the library and of the heap. -/
structure ShmemState where
  /-- The address maps. -/
  maps : ShmemMaps
  /-- The live buffers. -/
  live : List Buffer

/-- Nothing allocated. -/
def ShmemState.init : ShmemState := ⟨.empty, []⟩

/-- What `rte_malloc` may return: an aligned address that is not `NULL`, of a range that does
not wrap and is apart from every live buffer. (For a length of `0` it returns `NULL`.) -/
def MayMalloc (live : List Buffer) (align va length : ℕ) : Prop :=
  0 < length ∧ va ≠ 0 ∧ va % align = 0 ∧ va + length ≤ 2 ^ 64 ∧ ∀ b ∈ live, b.Apart ⟨va, length⟩

instance (live : List Buffer) (align va length : ℕ) : Decidable (MayMalloc live align va length) :=
  inferInstanceAs (Decidable (_ ∧ _ ∧ _ ∧ _ ∧ _))

/-- The calls, with what DPDK answers: the address `rte_malloc` returns (`none` for `NULL`) and
whether the memory segment is found. -/
inductive ShmemOp where
  /-- `fpga_shmem_alloc(length)`. -/
  | alloc (length : ℕ) (va : Option ℕ) (memseg : Bool)
  /-- `fpga_shmem_aligned_alloc(length)`. -/
  | alignedAlloc (length : ℕ) (va : Option ℕ) (memseg : Bool)
  /-- `fpga_shmem_free(addr)`. -/
  | free (addr : ℕ)

/-- The common body of `fpga_shmem_alloc` and `fpga_shmem_aligned_alloc`. On an error the buffer
goes back to the heap. -/
def allocWith (pm : PageMap) (align : ℕ) (s : ShmemState) (length : ℕ) (va : Option ℕ)
    (memseg : Bool) : Option ShmemState :=
  match va with
  | none => some s
  | some va =>
    if MayMalloc s.live align va length then
      (registerBuffer pm memseg s.maps va length).map fun
        | (none, m) => { s with maps := m }
        | (some va, m) => ⟨m, ⟨va, length⟩ :: s.live⟩
    else none

/-- `fpga_shmem_alloc`: aligned to `RTE_CACHE_LINE_SIZE`. -/
def fpgaShmemAlloc (pm : PageMap) := allocWith pm 64

/-- `fpga_shmem_aligned_alloc`: aligned to `SHMEM_BOUNDARY_SIZE`. -/
def fpgaShmemAlignedAlloc (pm : PageMap) := allocWith pm 1024

/-- `fpga_shmem_free`. -/
def fpgaShmemFree (s : ShmemState) (addr : ℕ) : ShmemState :=
  ⟨fpgaShmemUnregister s.maps addr, s.live.filter fun b => b.va ≠ addr⟩

/-- One call, if the environment can answer it so and it returns. -/
def shmemStep (pm : PageMap) (s : ShmemState) : ShmemOp → Option ShmemState
  | .alloc length va memseg => fpgaShmemAlloc pm s length va memseg
  | .alignedAlloc length va memseg => fpgaShmemAlignedAlloc pm s length va memseg
  | .free addr => some (fpgaShmemFree s addr)

/-- The alignment, the address and the length of the buffer the call is about to register. -/
def ShmemOp.request : ShmemOp → Option (ℕ × ℕ × ℕ)
  | .alloc length (some va) true => some (64, va, length)
  | .alignedAlloc length (some va) true => some (1024, va, length)
  | _ => none

/-- `DMA_WORD_LINE_MASK` leaves no bit of the value. -/
def wordAligned (x : ℕ) : Bool := x % 4 = 0

/-- `dma_pa_from_va`. -/
def dmaPaFromVa (m : ShmemMaps) (va len : ℕ) : ℕ × ℕ :=
  if !wordAligned va || !wordAligned len then (0, len) else fpgaShmemMmapV2p m va len

/-- `local_phy2virt`. -/
def localPhy2virt (m : ShmemMaps) (pa64 : ℕ) : ℕ := fpgaShmemMmapP2v m pa64

/-- An address `dma_pa_from_va` finds is one the maps translate. -/
theorem dmaPaFromVa_eq {m : ShmemMaps} {va len : ℕ} (h : (dmaPaFromVa m va len).1 ≠ 0) :
    dmaPaFromVa m va len = fpgaShmemMmapV2p m va len := by
  unfold dmaPaFromVa at h ⊢
  split_ifs at h ⊢
  · exact absurd rfl h
  · rfl

variable {pm : PageMap}

theorem PageMap.rteMemVirt2phy_lt (pm : PageMap) (va : ℕ) : pm.rteMemVirt2phy va < 2 ^ 64 := by
  have hpos : 0 < pm.pageSize := by
    have := pm.mul_eq
    exact Nat.pos_of_ne_zero fun h => by simp [h] at this
  have hmod : va % pm.pageSize < pm.pageSize := Nat.mod_lt _ hpos
  have hfr := Nat.mul_le_mul_right pm.pageSize (pm.frame_lt (va / pm.pageSize))
  calc pm.frame (va / pm.pageSize) * pm.pageSize + va % pm.pageSize
      < (pm.frame (va / pm.pageSize) + 1) * pm.pageSize := by
        rw [Nat.add_mul, Nat.one_mul]
        omega
    _ ≤ pm.frames * pm.pageSize := hfr
    _ = 2 ^ 64 := by rw [Nat.mul_comm, pm.mul_eq]

/-! ### Two passes are enough -/

/-- Looking an address up twice shortens the length no further. -/
theorem fpgaShmemMmapV2p_idem (m : ShmemMaps) (va len : ℕ) :
    fpgaShmemMmapV2p m va (fpgaShmemMmapV2p m va len).2 = fpgaShmemMmapV2p m va len := by
  unfold fpgaShmemMmapV2p
  cases m.v2pMap.entryLE? va with
  | none => rfl
  | some e =>
    obtain ⟨k, pa, n⟩ := e
    simp only
    split_ifs <;> rfl

/-- Registering an address that was just registered, or refused, changes nothing, and looking
it up does not shorten the length it was registered with. -/
theorem register_settles (m : ShmemMaps) (va pa len : ℕ)
    (hl : (fpgaShmemMmapV2p m va len).2 = len) :
    let m' := (fpgaShmemRegister m va pa len).2
    (fpgaShmemMmapV2p m' va len).2 = len ∧ (fpgaShmemRegister m' va pa len).2 = m' := by
  rcases fpgaShmemRegister_cases m va pa len with ⟨-, hr⟩ | ⟨-, -, hr⟩ | ⟨-, -, hr⟩
  · rw [hr]
    exact ⟨hl, by rw [hr]⟩
  · rw [hr]
    exact ⟨hl, by rw [hr]⟩
  · rw [hr]
    have hself : (m.v2pMap.set va (pa, len)).entryLE? va = some (va, pa, len) :=
      OrderedMap.entryLE?_eq_some.mpr ⟨OrderedMap.get_set_self _ _ _, Nat.le_refl va, fun _ h _ => h⟩
    constructor
    · simp only [fpgaShmemMmapV2p, hself]
      split_ifs <;> simp_all
    · simp [fpgaShmemRegister]

/-- A pass that finds no physical address and registers nothing is repeated for ever. -/
theorem regionLoop_stuck {m : ShmemMaps} {va len : ℕ} (hv : fpgaShmemMmapV2p m va len = (0, len))
    (hr : (fpgaShmemRegister m va (pm.rteMemVirt2phy va) len).2 = m) (fuel : ℕ) :
    regionLoop pm true va fuel m len = none := by
  induction fuel with
  | zero => rfl
  | succ fuel ih => simpa [regionLoop, hv, addNewRegion, hr] using ih

/-- **The loop ends within two passes, or never.** -/
theorem regionLoop_two {memseg : Bool} {m : ShmemMaps} {va len fuel : ℕ}
    {r : Bool × ShmemMaps × ℕ} (h : regionLoop pm memseg va fuel m len = some r) :
    regionLoop pm memseg va 2 m len = some r := by
  cases fuel with
  | zero => cases h
  | succ fuel =>
    by_cases hpa : (fpgaShmemMmapV2p m va len).1 = 0
    · cases memseg with
      | false => simpa [regionLoop, hpa, addNewRegion] using h
      | true =>
        -- what the first pass leaves: the maps `m'` and the length `len'`
        obtain ⟨len', hlen'⟩ : ∃ len', (fpgaShmemMmapV2p m va len).2 = len' := ⟨_, rfl⟩
        obtain ⟨m', hm'⟩ : ∃ m', (fpgaShmemRegister m va (pm.rteMemVirt2phy va) len').2 = m' := ⟨_, rfl⟩
        have hpass : ∀ n, regionLoop pm true va (n + 1) m len = regionLoop pm true va n m' len' := by
          intro n
          simp [regionLoop, hpa, hlen', addNewRegion, hm']
        have hset := register_settles m va (pm.rteMemVirt2phy va) len'
          (by rw [← hlen', fpgaShmemMmapV2p_idem])
        rw [hm'] at hset
        rw [hpass] at h ⊢
        cases fuel with
        | zero => cases h
        | succ fuel =>
          by_cases hpa' : (fpgaShmemMmapV2p m' va len').1 = 0
          · rw [regionLoop_stuck (Prod.ext hpa' hset.1) hset.2] at h
            cases h
          · simpa [regionLoop, hpa'] using h
    · simpa [regionLoop, hpa] using h

/-! ### What the virtual map holds -/

/-- The virtual map holds exactly the live buffers, which are apart from each other. -/
structure Tracks (pm : PageMap) (s : ShmemState) : Prop where
  /-- No buffer is empty. -/
  pos : ∀ b ∈ s.live, 0 < b.len
  /-- No buffer wraps. -/
  le : ∀ b ∈ s.live, b.va + b.len ≤ 2 ^ 64
  /-- No two buffers overlap. -/
  apart : ∀ a ∈ s.live, ∀ b ∈ s.live, a ≠ b → a.Apart b
  /-- The entries are the buffers, each with the physical address of its first byte. -/
  v2p : ∀ k p n, s.maps.v2pMap.get k = some (p, n) ↔ p = pm.rteMemVirt2phy k ∧ ⟨k, n⟩ ∈ s.live
  /-- No buffer starts at the physical address `0`. -/
  phys_ne : ∀ b ∈ s.live, pm.rteMemVirt2phy b.va ≠ 0

theorem tracks_init : Tracks pm .init where
  pos _ hb := by cases hb
  le _ hb := by cases hb
  apart _ ha := by cases ha
  v2p _ _ _ := ⟨nofun, fun h => by cases h.2⟩
  phys_ne _ hb := by cases hb

theorem Tracks.regionsPos {s : ShmemState} (h : Tracks pm s) : RegionsPos s.maps.v2pMap :=
  fun _ _ he => h.pos _ ((h.v2p _ _ _).mp he).2

theorem Tracks.regionsDisjoint {s : ShmemState} (h : Tracks pm s) :
    RegionsDisjoint s.maps.v2pMap := by
  intro k l e f hkl hk hl
  have hap := h.apart _ ((h.v2p _ _ _).mp hk).2 _ ((h.v2p _ _ _).mp hl).2 (by simp [hkl])
  rw [Set.Ico_disjoint_Ico]
  rcases hap with hap | hap
  · simp only at hap
    omega
  · simp only at hap
    omega

/-- The translation of an address of a live buffer: from the physical address of its first
byte on, whatever the pages after the first one are mapped to. -/
theorem Tracks.mmapV2p {s : ShmemState} (h : Tracks pm s) {b : Buffer} (hb : b ∈ s.live) {x : ℕ}
    (hx : b.Contains x) (len : ℕ) :
    fpgaShmemMmapV2p s.maps x len =
      ((pm.rteMemVirt2phy b.va + (x - b.va)) % 2 ^ 64, min len (b.len - (x - b.va))) :=
  fpgaShmemMmapV2p_of_mem h.regionsDisjoint h.regionsPos ((h.v2p _ _ _).mpr ⟨rfl, hb⟩) hx.1 hx.2 len

/-- Whatever is translated lies in a live buffer. -/
theorem Tracks.exists_contains {s : ShmemState} (h : Tracks pm s) (x len : ℕ)
    (hx : (fpgaShmemMmapV2p s.maps x len).1 ≠ 0) : ∃ b ∈ s.live, b.Contains x := by
  rcases fpgaShmemMmapV2p_cases s.maps x len with he | ⟨k, pa, n, hk, hle, hlt, -⟩
  · rw [he] at hx
    exact absurd rfl hx
  · exact ⟨⟨k, n⟩, ((h.v2p _ _ _).mp hk).2, hle, hlt⟩

/-- The state after a buffer was registered. -/
def ShmemState.add (pm : PageMap) (s : ShmemState) (b : Buffer) : ShmemState :=
  ⟨⟨s.maps.v2pMap.set b.va (pm.rteMemVirt2phy b.va, b.len),
    s.maps.p2vMap.set (pm.rteMemVirt2phy b.va) (b.va, b.len)⟩, b :: s.live⟩

variable {s t : ShmemState} {align va length : ℕ}

/-- No live buffer starts where `rte_malloc` may put a new one. -/
theorem Tracks.get_malloc (h : Tracks pm s) (hm : MayMalloc s.live align va length) :
    s.maps.v2pMap.get va = none := by
  by_contra hne
  obtain ⟨⟨p, n⟩, he⟩ := Option.ne_none_iff_exists'.mp hne
  have hb := ((h.v2p _ _ _).mp he).2
  have hpos := h.pos _ hb
  have hap := hm.2.2.2.2 _ hb
  have hlen := hm.1
  unfold Buffer.Apart at hap
  simp only at hap hpos
  omega

/-- Registering a new buffer keeps the virtual map exact. -/
theorem Tracks.add (h : Tracks pm s) (hm : MayMalloc s.live align va length)
    (hp : pm.rteMemVirt2phy va ≠ 0) : Tracks pm (s.add pm ⟨va, length⟩) where
  pos b hb := by
    rcases List.mem_cons.mp hb with rfl | hb
    · exact hm.1
    · exact h.pos b hb
  le b hb := by
    rcases List.mem_cons.mp hb with rfl | hb
    · exact hm.2.2.2.1
    · exact h.le b hb
  apart a ha b hb hab := by
    rcases List.mem_cons.mp ha with rfl | ha
    · rcases List.mem_cons.mp hb with rfl | hb
      · exact absurd rfl hab
      · exact (hm.2.2.2.2 b hb).symm
    · rcases List.mem_cons.mp hb with rfl | hb
      · exact hm.2.2.2.2 a ha
      · exact h.apart a ha b hb hab
  v2p k p n := by
    simp only [ShmemState.add, OrderedMap.get_set, List.mem_cons, Buffer.mk.injEq]
    split_ifs with hk
    · have hnot : ⟨k, n⟩ ∉ s.live := by
        intro hb
        have := (h.v2p k _ n).mpr ⟨rfl, hb⟩
        rw [hk, h.get_malloc hm] at this
        cases this
      simp only [hk, Option.some.injEq, Prod.mk.injEq, true_and, eq_comm]
      rw [hk] at hnot
      simp [hnot]
    · rw [h.v2p]
      simp [hk]
  phys_ne b hb := by
    rcases List.mem_cons.mp hb with rfl | hb
    · exact hp
    · exact h.phys_ne b hb

/-- What the allocation functions do with a new address: an error, if DPDK does not know its
memory segment; no return, if its physical address is `0`; and otherwise one new entry. -/
theorem Tracks.registerBuffer (h : Tracks pm s) (memseg : Bool)
    (hm : MayMalloc s.live align va length) :
    (memseg = false ∧ registerBuffer pm memseg s.maps va length = some (none, s.maps)) ∨
    (memseg = true ∧ pm.rteMemVirt2phy va = 0 ∧ registerBuffer pm memseg s.maps va length = none) ∨
    (memseg = true ∧ pm.rteMemVirt2phy va ≠ 0 ∧
      registerBuffer pm memseg s.maps va length = some (some va, (s.add pm ⟨va, length⟩).maps)) := by
  -- the first pass finds nothing
  have hnone : fpgaShmemMmapV2p s.maps va length = (0, length) := by
    rcases fpgaShmemMmapV2p_cases s.maps va length with he | ⟨k, pa, n, hk, hle, hlt, -⟩
    · exact he
    · have hap := hm.2.2.2.2 _ ((h.v2p _ _ _).mp hk).2
      have hlen := hm.1
      unfold Buffer.Apart at hap
      simp only at hap
      omega
  cases memseg with
  | false => exact .inl ⟨rfl, by simp [HardwareDrivers.Libfpga.registerBuffer, regionLoop, hnone, addNewRegion]⟩
  | true =>
    -- so it registers the buffer, which is below the next entry
    have hreg : (fpgaShmemRegister s.maps va (pm.rteMemVirt2phy va) length).2 =
        (s.add pm ⟨va, length⟩).maps := by
      rcases fpgaShmemRegister_cases s.maps va (pm.rteMemVirt2phy va) length with
        ⟨hs, -⟩ | ⟨-, hc, -⟩ | ⟨-, -, hr⟩
      · rw [h.get_malloc hm] at hs
        cases hs
      · rw [← Bool.not_eq_false, nextConflict_eq_false] at hc
        refine absurd (fun k hk hs => ?_) hc
        obtain ⟨⟨p, n⟩, he⟩ := Option.isSome_iff_exists.mp hs
        have hb := ((h.v2p _ _ _).mp he).2
        have hap := hm.2.2.2.2 _ hb
        have hmod := Nat.mod_le (va + length) (2 ^ 64)
        unfold Buffer.Apart at hap
        simp only at hap
        omega
      · rw [hr]
        rfl
    right
    have htwo : regionLoop pm true va 2 s.maps length =
        regionLoop pm true va 1 (s.add pm ⟨va, length⟩).maps length := by
      simp [regionLoop, hnone, addNewRegion, hreg]
    by_cases hp : pm.rteMemVirt2phy va = 0
    · refine .inl ⟨rfl, hp, ?_⟩
      have hself : (s.add pm ⟨va, length⟩).maps.v2pMap.entryLE? va = some (va, 0, length) :=
        OrderedMap.entryLE?_eq_some.mpr ⟨by simp [ShmemState.add, hp], Nat.le_refl va, fun _ h _ => h⟩
      have hlook : (fpgaShmemMmapV2p (s.add pm ⟨va, length⟩).maps va length).1 = 0 := by
        simp only [fpgaShmemMmapV2p, hself]
        split_ifs <;> simp
      have hone : regionLoop pm true va 1 (s.add pm ⟨va, length⟩).maps length = none := by
        simp [regionLoop, hlook, addNewRegion]
      rw [HardwareDrivers.Libfpga.registerBuffer, htwo, hone]
      rfl
    · refine .inr ⟨rfl, hp, ?_⟩
      -- the second pass finds the new entry
      have hlook : fpgaShmemMmapV2p (s.add pm ⟨va, length⟩).maps va length =
          (pm.rteMemVirt2phy va, length) := by
        have hlt := pm.rteMemVirt2phy_lt va
        have hlen := hm.1
        rw [(h.add hm hp).mmapV2p (b := ⟨va, length⟩) List.mem_cons_self
          ⟨Nat.le_refl va, by simp only; omega⟩]
        simp only [Nat.sub_self, Nat.add_zero, Nat.sub_zero, Nat.min_self, Nat.mod_eq_of_lt hlt]
      have hone : regionLoop pm true va 1 (s.add pm ⟨va, length⟩).maps length =
          some (true, (s.add pm ⟨va, length⟩).maps, length) := by
        simp [regionLoop, hlook, hp]
      rw [HardwareDrivers.Libfpga.registerBuffer, htwo, hone]
      simp

/-- Releasing a buffer keeps the virtual map exact. -/
theorem Tracks.free (h : Tracks pm s) (addr : ℕ) : Tracks pm (fpgaShmemFree s addr) := by
  have hmem : ∀ b, b ∈ (fpgaShmemFree s addr).live ↔ b ∈ s.live ∧ b.va ≠ addr := by
    intro b
    simp [fpgaShmemFree, List.mem_filter]
  refine ⟨fun b hb => h.pos b ((hmem b).mp hb).1, fun b hb => h.le b ((hmem b).mp hb).1,
    fun a ha b hb => h.apart a ((hmem a).mp ha).1 b ((hmem b).mp hb).1, fun k p n => ?_,
    fun b hb => h.phys_ne b ((hmem b).mp hb).1⟩
  rw [hmem]
  show (fpgaShmemUnregister s.maps addr).v2pMap.get k = some (p, n) ↔ _
  rcases fpgaShmemUnregister_cases s.maps addr with ⟨hn, hr⟩ | ⟨pa, m, hs, hr⟩
  · rw [hr, h.v2p]
    constructor
    · rintro ⟨rfl, hb⟩
      refine ⟨rfl, hb, ?_⟩
      rintro rfl
      rw [(h.v2p _ _ _).mpr ⟨rfl, hb⟩] at hn
      cases hn
    · rintro ⟨rfl, hb, -⟩
      exact ⟨rfl, hb⟩
  · rw [hr]
    simp only [OrderedMap.get_erase]
    split_ifs with hk
    · simp [hk]
    · rw [h.v2p]
      simp [hk]

/-! ### Runs -/

/-- What an allocation does: nothing where DPDK does not serve it, or one more buffer. -/
theorem Tracks.allocWith_cases (h : Tracks pm s) {align length : ℕ} {va : Option ℕ} {memseg : Bool}
    (ha : allocWith pm align s length va memseg = some t) :
    ((va = none ∨ memseg = false) ∧ t = s) ∨
    ∃ va', va = some va' ∧ memseg = true ∧ MayMalloc s.live align va' length ∧
      pm.rteMemVirt2phy va' ≠ 0 ∧ t = s.add pm ⟨va', length⟩ := by
  cases va with
  | none =>
    cases ha
    exact .inl ⟨.inl rfl, rfl⟩
  | some va =>
    simp only [allocWith] at ha
    split_ifs at ha with hm
    rcases h.registerBuffer memseg hm with ⟨hf, hr⟩ | ⟨-, -, hr⟩ | ⟨htr, hp, hr⟩
    · rw [hr] at ha
      cases ha
      exact .inl ⟨.inr hf, rfl⟩
    · rw [hr] at ha
      cases ha
    · rw [hr] at ha
      cases ha
      exact .inr ⟨va, rfl, htr, hm, hp, rfl⟩

theorem request_of_unserved {length : ℕ} {va : Option ℕ} {memseg : Bool}
    (h : va = none ∨ memseg = false) : (ShmemOp.alloc length va memseg).request = none ∧
      (ShmemOp.alignedAlloc length va memseg).request = none := by
  rcases h with rfl | rfl
  · exact ⟨rfl, rfl⟩
  · cases va <;> exact ⟨rfl, rfl⟩

/-- What a call does: nothing, or one more buffer, or one less. -/
theorem Tracks.step_cases (h : Tracks pm s) {op : ShmemOp} (ht : shmemStep pm s op = some t) :
    (op.request = none ∧ t = s) ∨
    (∃ align va length, op.request = some (align, va, length) ∧ MayMalloc s.live align va length ∧
      pm.rteMemVirt2phy va ≠ 0 ∧ t = s.add pm ⟨va, length⟩) ∨
    (∃ addr, op = .free addr ∧ t = fpgaShmemFree s addr) := by
  cases op with
  | alloc length va memseg =>
    rcases h.allocWith_cases ht with ⟨hn, rfl⟩ | ⟨va', rfl, rfl, hm, hp, rfl⟩
    · exact .inl ⟨(request_of_unserved hn).1, rfl⟩
    · exact .inr (.inl ⟨_, va', length, rfl, hm, hp, rfl⟩)
  | alignedAlloc length va memseg =>
    rcases h.allocWith_cases ht with ⟨hn, rfl⟩ | ⟨va', rfl, rfl, hm, hp, rfl⟩
    · exact .inl ⟨(request_of_unserved hn).2, rfl⟩
    · exact .inr (.inl ⟨_, va', length, rfl, hm, hp, rfl⟩)
  | free addr =>
    cases ht
    exact .inr (.inr ⟨addr, rfl, rfl⟩)

theorem Tracks.step {op : ShmemOp} (h : Tracks pm s) (ht : shmemStep pm s op = some t) :
    Tracks pm t := by
  rcases h.step_cases ht with ⟨-, rfl⟩ | ⟨align, va, length, -, hm, hp, rfl⟩ | ⟨addr, -, rfl⟩
  · exact h
  · exact h.add hm hp
  · exact h.free addr

/-- **An allocation that DPDK can serve returns**, with the buffer registered. -/
theorem Tracks.alignedAlloc (h : Tracks pm s) (hm : MayMalloc s.live 1024 va length)
    (hp : pm.rteMemVirt2phy va ≠ 0) :
    shmemStep pm s (.alignedAlloc length (some va) true) = some (s.add pm ⟨va, length⟩) := by
  rcases h.registerBuffer true hm with ⟨hf, -⟩ | ⟨-, h0, -⟩ | ⟨-, -, hr⟩
  · cases hf
  · exact absurd h0 hp
  · simp only [shmemStep, fpgaShmemAlignedAlloc, allocWith, if_pos hm, hr]
    rfl

/-- **After any history of calls the virtual map holds exactly the live buffers.** -/
theorem tracks_run {ops : List ShmemOp} (ht : run (shmemStep pm) .init ops = some s) :
    Tracks pm s :=
  run_invariant (fun _ _ _ h hs => Tracks.step h hs) tracks_init ht

end HardwareDrivers.Libfpga
