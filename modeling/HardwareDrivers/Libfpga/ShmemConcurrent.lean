import HardwareDrivers.Libfpga.Shmem

/-!
# Concurrent allocation and release

The calls of `libshmem.c` by any number of threads, each in its separate steps:
`rte_malloc`; `region_mutex`; every lookup, registration and update of the maps, which
take `mmap_mutex` one by one; `rte_free`; and the unregistration. `fpga_shmem_free`
gives the memory back before it unregisters it, without `region_mutex`, so the heap
may hand the range out again while the maps still hold it.

## What is proved

* `Inv.step` — what every step keeps, if no allocation takes a region that was left
  behind for its own.
* `always_translatable` — in every run in which that does not happen every buffer
  returned and not yet passed to `fpga_shmem_free` has its own entry in the maps.
-/

namespace HardwareDrivers.Libfpga

open Theory

/-! ### The threads -/

/-- A range of the heap and the physical address `rte_mem_virt2phy` gives for it. -/
structure Block extends Buffer where
  /-- The physical address. -/
  pa : ℕ
  deriving DecidableEq

/-- Where a thread is. An allocation carries its block and its `chklen`, and, for the statements
only, whether it has stored its own entry in the maps. -/
inductive Pc where
  /-- In no call. -/
  | idle
  /-- `rte_malloc` returned the block; about to lock `region_mutex`. -/
  | lock (b : Block)
  /-- About to call `__dma_pa_from_va`. -/
  | lookup (b : Block) (chklen : ℕ) (own : Bool)
  /-- In `__add_new_region`, about to call `fpga_shmem_register`. -/
  | register (b : Block) (chklen : ℕ) (own : Bool)
  /-- In `__remap_region`, about to call `__fpga_shmem_register_check`. -/
  | check (b : Block) (chklen : ℕ)
  /-- In `__remap_region`, about to call `fpga_shmem_register_update`. -/
  | update (b : Block) (chklen : ℕ)
  /-- About to unlock `region_mutex` and return the block. -/
  | finish (b : Block)
  /-- At `err_out`, about to unlock `region_mutex`. -/
  | errOut (b : Block)
  /-- About to give the block back and return `NULL`. -/
  | giveBack (b : Block)
  /-- In `fpga_shmem_free`, about to call `fpga_shmem_unregister`. -/
  | unregister (addr : ℕ)

/-- The state that the threads share, and where each of them is. -/
structure MemState where
  /-- The address maps. -/
  maps : ShmemMaps
  /-- The blocks handed out by `rte_malloc` and not given back. -/
  heap : List Block
  /-- The blocks returned to the callers and not yet passed to `fpga_shmem_free`. -/
  returned : List Block
  /-- Who holds `region_mutex`. -/
  regionMutex : Option ℕ
  /-- The threads. -/
  threads : ℕ → Pc

/-- Nothing allocated, no thread in a call. -/
def MemState.init : MemState := ⟨.empty, [], [], none, fun _ => .idle⟩

/-- What `rte_malloc` may hand out: any aligned range that is free at the moment, with some
physical address. -/
def MayHandOut (heap : List Block) (align : ℕ) (b : Block) : Prop :=
  0 < b.len ∧ b.va ≠ 0 ∧ b.va % align = 0 ∧ b.va + b.len < 2 ^ 64 ∧ b.pa < 2 ^ 64 ∧
    ∀ c ∈ heap, c.Apart b.toBuffer

instance (heap : List Block) (align : ℕ) (b : Block) : Decidable (MayHandOut heap align b) :=
  inferInstanceAs (Decidable (_ ∧ _ ∧ _ ∧ _ ∧ _ ∧ _))

/-- Thread `i` goes on to `pc`. -/
def MemState.goto (s : MemState) (i : ℕ) (pc : Pc) : MemState :=
  { s with threads := Function.update s.threads i pc }

/-- One step of a thread. -/
inductive MemAct where
  /-- Thread `i` calls `fpga_shmem_alloc` or `fpga_shmem_aligned_alloc`, and `rte_malloc` answers
  with a block; an answer of `NULL` changes nothing. -/
  | malloc (i : ℕ) (aligned : Bool) (b : Block)
  /-- Thread `i` calls `fpga_shmem_free` with a returned block, and `rte_free` takes it back. -/
  | free (i : ℕ) (b : Block)
  /-- Thread `i` takes the next step of its call; `memseg` says whether DPDK knows the memory
  segment, where that is asked. -/
  | next (i : ℕ) (memseg : Bool)

/-- What follows the loop: the comparison of `chklen` with the length asked for. -/
def afterLoop (b : Block) (chklen : ℕ) : Pc := if b.len = chklen then .finish b else .errOut b

/-- One step, if the thread can take it. -/
def memStep (s : MemState) : MemAct → Option MemState
  | .malloc i aligned b =>
    match s.threads i with
    | .idle =>
      if MayHandOut s.heap (if aligned then 1024 else 64) b then
        some { s.goto i (.lock b) with heap := b :: s.heap }
      else none
    | _ => none
  | .free i b =>
    match s.threads i with
    | .idle =>
      if b ∈ s.returned then
        some { s.goto i (.unregister b.va) with
          heap := s.heap.filter (· ≠ b), returned := s.returned.filter (· ≠ b) }
      else none
    | _ => none
  | .next i memseg =>
    match s.threads i with
    | .idle => none
    | .lock b =>
      if s.regionMutex = none then
        some { s.goto i (.lookup b b.len false) with regionMutex := some i }
      else none
    | .lookup b chklen own =>
      let (pa, chklen) := fpgaShmemMmapV2p s.maps b.va chklen
      if pa = 0 then some (s.goto i (if memseg then .register b chklen own else .errOut b))
      else if pa ≠ b.pa then some (s.goto i (.check b chklen))
      else some (s.goto i (afterLoop b chklen))
    | .register b chklen own =>
      let maps := (fpgaShmemRegister s.maps b.va b.pa chklen).2
      let stored := (s.maps.v2pMap.get b.va).isNone && (maps.v2pMap.get b.va).isSome
      some { s.goto i (.lookup b chklen (own || stored)) with maps }
    | .check b chklen =>
      some (s.goto i
        (if fpgaShmemRegisterCheck s.maps b.va && memseg then .update b chklen else .errOut b))
    | .update b chklen =>
      some { s.goto i (afterLoop b chklen) with
        maps := (fpgaShmemRegisterUpdate s.maps b.va b.pa chklen).2 }
    | .finish b => some { s.goto i .idle with regionMutex := none, returned := b :: s.returned }
    | .errOut b => some { s.goto i (.giveBack b) with regionMutex := none }
    | .giveBack b => some { s.goto i .idle with heap := s.heap.filter (· ≠ b) }
    | .unregister addr => some { s.goto i .idle with maps := fpgaShmemUnregister s.maps addr }

/-! ### What must hold -/

/-- The maps hold a region that covers the block and gives it its own physical address. -/
def Covered (m : ShmemMaps) (b : Block) : Prop :=
  ∃ k p n, m.v2pMap.get k = some (p, n) ∧ k ≤ b.va ∧ b.va + b.len ≤ k + n ∧
    (p + (b.va - k)) % 2 ^ 64 = b.pa

/-- The maps translate every address of the block to its own physical address. -/
def Translated (m : ShmemMaps) (b : Block) : Prop :=
  ∀ x, b.Contains x → ∀ len, (fpgaShmemMmapV2p m x len).1 = (b.pa + (x - b.va)) % 2 ^ 64

/-- If the step is a lookup of an allocation that has not yet stored its own entry, no region in
the maps covers its whole block. -/
def NotShadowed (s : MemState) : MemAct → Prop
  | .next i _ =>
    match s.threads i with
    | .lookup b _ false =>
      ∀ k p n, s.maps.v2pMap.get k = some (p, n) → k ≤ b.va → ¬ b.va + b.len ≤ k + n
    | _ => True
  | _ => True

/-- The block's own entry, with no other region starting inside it. -/
def OwnEntry (m : ShmemMaps) (b : Block) : Prop :=
  m.v2pMap.get b.va = some (b.pa, b.len) ∧
  ∀ k, (m.v2pMap.get k).isSome → k ≤ b.va ∨ b.va + b.len ≤ k

/-- The block a thread has from `rte_malloc` and has neither returned nor given back. -/
def Pc.block : Pc → Option Block
  | .lock b | .lookup b _ _ | .register b _ _ | .check b _ | .update b _ | .finish b | .errOut b
  | .giveBack b => some b
  | .idle | .unregister _ => none

/-- The allocation has stored the entry of its block, with the whole length. -/
def Pc.Owns (b : Block) : Pc → Prop
  | .lookup c chklen own | .register c chklen own => c = b ∧ own = true ∧ chklen = b.len
  | .finish c => c = b
  | _ => False

/-- `chklen` never exceeds the length asked for, and is less where the region found is not the
block's own. -/
def Pc.Fits : Pc → Prop
  | .lookup b chklen _ | .register b chklen _ => chklen ≤ b.len
  | .check b chklen | .update b chklen => chklen < b.len
  | _ => True

/-- The block has its own entry: it was returned, or its allocation is about to return it. -/
def MemState.Owned (s : MemState) (b : Block) : Prop := b ∈ s.returned ∨ ∃ i, (s.threads i).Owns b

/-- What every step keeps. -/
structure Inv (s : MemState) : Prop where
  /-- Blocks are not empty and do not wrap. -/
  heap_ok : ∀ b ∈ s.heap, 0 < b.len ∧ b.va + b.len < 2 ^ 64 ∧ b.pa < 2 ^ 64
  /-- Blocks do not overlap. -/
  apart : ∀ a ∈ s.heap, ∀ b ∈ s.heap, a ≠ b → a.Apart b.toBuffer
  /-- What was returned is on the heap. -/
  returned_mem : ∀ b ∈ s.returned, b ∈ s.heap
  /-- What a thread holds is on the heap and was not returned. -/
  block_mem : ∀ i b, (s.threads i).block = some b → b ∈ s.heap ∧ b ∉ s.returned
  /-- No two threads hold one block. -/
  block_inj : ∀ i j b, (s.threads i).block = some b → (s.threads j).block = some b → i = j
  /-- `chklen` is as it should be. -/
  fits : ∀ i, (s.threads i).Fits
  /-- The blocks that should have their own entry do. -/
  owned : ∀ b, s.Owned b → OwnEntry s.maps b
  /-- What is about to be unregistered is registered, belongs to no block with its own entry,
  and only one thread is about to do it. -/
  pending : ∀ i addr, s.threads i = .unregister addr →
    (s.maps.v2pMap.get addr).isSome ∧ (∀ b, s.Owned b → b.va ≠ addr) ∧
    ∀ j, s.threads j = .unregister addr → i = j

theorem inv_init : Inv .init where
  heap_ok _ hb := by cases hb
  apart _ ha := by cases ha
  returned_mem _ hb := by cases hb
  block_mem _ _ hb := by cases hb
  block_inj _ _ _ hb := by cases hb
  fits _ := trivial
  owned b hb := by
    rcases hb with hb | ⟨_, hb⟩
    · cases hb
    · exact hb.elim
  pending _ _ h := by cases h

variable {s t : MemState} {i : ℕ} {b c : Block}

theorem Pc.Owns.block {pc : Pc} (h : pc.Owns b) : pc.block = some b := by
  cases pc with
  | lookup c n own => exact congrArg some h.1
  | register c n own => exact congrArg some h.1
  | finish c => exact congrArg some h
  | idle => exact h.elim
  | lock c => exact h.elim
  | check c n => exact h.elim
  | update c n => exact h.elim
  | errOut c => exact h.elim
  | giveBack c => exact h.elim
  | unregister a => exact h.elim

theorem Inv.owned_mem (h : Inv s) (hb : s.Owned b) : b ∈ s.heap := by
  rcases hb with hb | ⟨i, hb⟩
  · exact h.returned_mem b hb
  · exact (h.block_mem i b hb.block).1

/-- Two blocks of the heap start at different addresses. -/
theorem Inv.va_ne (h : Inv s) (hb : b ∈ s.heap) (hc : c ∈ s.heap) (hne : b ≠ c) : b.va ≠ c.va := by
  intro he
  have hap := h.apart b hb c hc hne
  have hb' := h.heap_ok b hb
  have hc' := h.heap_ok c hc
  unfold Buffer.Apart at hap
  omega

/-- A block with its own entry is translated as it should be. -/
theorem OwnEntry.mmapV2p {m : ShmemMaps} (h : OwnEntry m b) {x : ℕ} (hx : b.Contains x) (len : ℕ) :
    fpgaShmemMmapV2p m x len = ((b.pa + (x - b.va)) % 2 ^ 64, min len (b.len - (x - b.va))) := by
  obtain ⟨hle, hlt⟩ := hx
  have hentry : m.v2pMap.entryLE? x = some (b.va, b.pa, b.len) := by
    refine OrderedMap.entryLE?_eq_some.mpr ⟨h.1, hle, fun k hk hs => ?_⟩
    rcases h.2 k hs with h' | h'
    · exact h'
    · omega
  have hoff : ¬ b.len ≤ x - b.va := by omega
  simp only [fpgaShmemMmapV2p, hentry, if_neg hoff]
  congr 1
  split_ifs <;> omega

theorem OwnEntry.covered {m : ShmemMaps} (h : OwnEntry m b) (hpa : b.pa < 2 ^ 64) : Covered m b := by
  refine ⟨b.va, b.pa, b.len, h.1, Nat.le_refl _, Nat.le_refl _, ?_⟩
  rw [Nat.sub_self, Nat.add_zero, Nat.mod_eq_of_lt hpa]

/-- A change of the maps at another address, outside the block, keeps the block's own entry. -/
theorem OwnEntry.set {m : ShmemMaps} (h : OwnEntry m b) {addr : ℕ} {v : ℕ × ℕ} {p2v : RegionMap}
    (ha : addr < b.va ∨ b.va + b.len ≤ addr) (hpos : 0 < b.len) :
    OwnEntry ⟨m.v2pMap.set addr v, p2v⟩ b := by
  constructor
  · show (m.v2pMap.set addr v).get b.va = _
    rw [OrderedMap.get_set_of_ne _ (by omega), h.1]
  · intro k hk
    by_cases hka : k = addr
    · omega
    · exact h.2 k (by rwa [← OrderedMap.get_set_of_ne _ hka])

/-- Erasing another entry keeps the block's own. -/
theorem OwnEntry.erase {m : ShmemMaps} (h : OwnEntry m b) {addr : ℕ} {p2v : RegionMap}
    (ha : b.va ≠ addr) : OwnEntry ⟨m.v2pMap.erase addr, p2v⟩ b := by
  constructor
  · show (m.v2pMap.erase addr).get b.va = _
    rw [OrderedMap.get_erase_of_ne _ ha, h.1]
  · intro k hk
    refine h.2 k ?_
    simp only [OrderedMap.get_erase] at hk
    split_ifs at hk
    · cases hk
    · exact hk

/-! ### Steps that only move a thread on -/

@[simp] theorem goto_threads_self (s : MemState) (i : ℕ) (pc : Pc) :
    (s.goto i pc).threads i = pc := Function.update_self ..

theorem goto_threads_of_ne (s : MemState) {i j : ℕ} (h : j ≠ i) (pc : Pc) :
    (s.goto i pc).threads j = s.threads j := Function.update_of_ne h ..

/-- A thread that goes out of its call has no block. -/
theorem goto_idle_block {j : ℕ} (h : ((s.goto i .idle).threads j).block = some c) :
    j ≠ i ∧ (s.threads j).block = some c := by
  rcases update_cases (Pc.block · = some c) h with ⟨-, hpc⟩ | hj
  · cases hpc
  · exact hj

/-- Only a thread that was about to unregister is, unless one goes on to that. -/
theorem goto_unregister {pc : Pc} {j addr : ℕ} (h : (s.goto i pc).threads j = .unregister addr)
    (hpc : ∀ addr, pc ≠ .unregister addr) : s.threads j = .unregister addr := by
  rcases update_cases (· = Pc.unregister addr) h with ⟨-, he⟩ | ⟨-, hj⟩
  · exact absurd he (hpc addr)
  · exact hj

/-- The threads are as they should be after the step if the one that moved is. -/
theorem goto_fits (h : ∀ j, (s.threads j).Fits) {pc : Pc} (hpc : pc.Fits) (j : ℕ) :
    ((s.goto i pc).threads j).Fits := by
  by_cases hj : j = i
  · subst hj
    rwa [goto_threads_self]
  · rw [goto_threads_of_ne _ hj]
    exact h j

/-- Whoever has a block after the step had it before, if the thread keeps its block. -/
theorem goto_block {pc : Pc} (hpc : pc.block = (s.threads i).block) (j : ℕ) :
    ((s.goto i pc).threads j).block = (s.threads j).block := by
  by_cases hj : j = i
  · subst hj
    rw [goto_threads_self, hpc]
  · rw [goto_threads_of_ne _ hj]

theorem goto_owned {pc : Pc} (hown : ∀ b, pc.Owns b → (s.threads i).Owns b)
    (hb : (s.goto i pc).Owned b) : s.Owned b := by
  rcases hb with hb | ⟨j, hb⟩
  · exact .inl hb
  · rcases update_cases (Pc.Owns b) hb with ⟨-, hpc⟩ | ⟨-, hj⟩
    · exact .inr ⟨i, hown b hpc⟩
    · exact .inr ⟨j, hj⟩

/-- A thread in an allocation that goes on in it, without coming to own more. -/
theorem Inv.goto (h : Inv s) {pc : Pc} (hblock : (s.threads i).block = some b)
    (hpc : pc.block = some b) (hfits : pc.Fits) (hown : ∀ b, pc.Owns b → (s.threads i).Owns b) :
    Inv (s.goto i pc) where
  heap_ok := h.heap_ok
  apart := h.apart
  returned_mem := h.returned_mem
  block_mem j c hc := h.block_mem j c (by rwa [goto_block (hpc.trans hblock.symm)] at hc)
  block_inj j k c hj hk := by
    rw [goto_block (hpc.trans hblock.symm)] at hj hk
    exact h.block_inj j k c hj hk
  fits := goto_fits h.fits hfits
  owned c hc := h.owned c (goto_owned hown hc)
  pending j addr hj := by
    have hne : ∀ addr, pc ≠ .unregister addr := by
      rintro addr rfl
      cases hpc
    obtain ⟨hs, ho, hu⟩ := h.pending j addr (goto_unregister hj hne)
    exact ⟨hs, fun c hc => ho c (goto_owned hown hc), fun k hk => hu k (goto_unregister hk hne)⟩

/-- Who holds `region_mutex` does not matter. -/
theorem Inv.regionMutex (h : Inv s) (o : Option ℕ) : Inv { s with regionMutex := o } :=
  ⟨h.heap_ok, h.apart, h.returned_mem, h.block_mem, h.block_inj, h.fits, h.owned, h.pending⟩

/-! ### The calls -/

/-- `rte_malloc` hands out a block. -/
theorem Inv.malloc (h : Inv s) {align : ℕ} (hi : s.threads i = .idle)
    (hm : MayHandOut s.heap align b) : Inv { s.goto i (.lock b) with heap := b :: s.heap } := by
  obtain ⟨hlen, -, -, hle, hpa, hap⟩ := hm
  have hnew : b ∉ s.heap := by
    intro hb
    have := hap b hb
    unfold Buffer.Apart at this
    omega
  have howned : ∀ c, (s.goto i (.lock b)).Owned c → s.Owned c := fun c => goto_owned fun _ => False.elim
  have hblock : ∀ j c, ((s.goto i (.lock b)).threads j).block = some c →
      (j = i ∧ c = b) ∨ (j ≠ i ∧ (s.threads j).block = some c) := by
    intro j c hj
    rcases update_cases (Pc.block · = some c) hj with ⟨hji, hpc⟩ | hj
    · cases hpc
      exact .inl ⟨hji, rfl⟩
    · exact .inr hj
  refine ⟨fun c hc => ?_, fun a ha c hc hac => ?_, fun c hc => List.mem_cons_of_mem _ (h.returned_mem c hc),
    fun j c hj => ?_, fun j k c hj hk => ?_, goto_fits h.fits trivial,
    fun c hc => h.owned c (howned c hc), fun j addr hj => ?_⟩
  · rcases List.mem_cons.mp hc with rfl | hc
    · exact ⟨hlen, hle, hpa⟩
    · exact h.heap_ok c hc
  · rcases List.mem_cons.mp ha with rfl | ha'
    · rcases List.mem_cons.mp hc with rfl | hc'
      · exact absurd rfl hac
      · exact (hap c hc').symm
    · rcases List.mem_cons.mp hc with rfl | hc'
      · exact hap a ha'
      · exact h.apart a ha' c hc' hac
  · rcases hblock j c hj with ⟨-, rfl⟩ | ⟨-, hj'⟩
    · exact ⟨List.mem_cons_self, fun hr => hnew (h.returned_mem _ hr)⟩
    · exact ⟨List.mem_cons_of_mem _ (h.block_mem j c hj').1, (h.block_mem j c hj').2⟩
  · rcases hblock j c hj with ⟨rfl, rfl⟩ | ⟨-, hj'⟩
    · rcases hblock k _ hk with ⟨rfl, -⟩ | ⟨-, hk'⟩
      · rfl
      · exact absurd (h.block_mem k _ hk').1 hnew
    · rcases hblock k c hk with ⟨-, rfl⟩ | ⟨-, hk'⟩
      · exact absurd (h.block_mem j _ hj').1 hnew
      · exact h.block_inj j k c hj' hk'
  · obtain ⟨hs, ho, hu⟩ := h.pending j addr (goto_unregister hj nofun)
    exact ⟨hs, fun c hc => ho c (howned c hc), fun k hk => hu k (goto_unregister hk nofun)⟩

/-- `fpga_shmem_free` gives a block back; its entry stays until it is unregistered. -/
theorem Inv.free (h : Inv s) (hi : s.threads i = .idle) (hb : b ∈ s.returned) :
    Inv { s.goto i (.unregister b.va) with
      heap := s.heap.filter (· ≠ b), returned := s.returned.filter (· ≠ b) } := by
  have hbh := h.returned_mem b hb
  have hheap : ∀ c, c ∈ s.heap.filter (· ≠ b) ↔ c ∈ s.heap ∧ c ≠ b := by simp [List.mem_filter]
  have hret : ∀ c, c ∈ s.returned.filter (· ≠ b) ↔ c ∈ s.returned ∧ c ≠ b := by
    simp [List.mem_filter]
  -- what another thread holds is another block
  have hblock : ∀ j c, ((s.goto i (.unregister b.va)).threads j).block = some c →
      (s.threads j).block = some c ∧ c ≠ b := by
    intro j c hj
    rcases update_cases (Pc.block · = some c) hj with ⟨-, hpc⟩ | ⟨-, hj'⟩
    · cases hpc
    · refine ⟨hj', ?_⟩
      rintro rfl
      exact (h.block_mem j c hj').2 hb
  have howned : ∀ c, MemState.Owned { s.goto i (.unregister b.va) with
      heap := s.heap.filter (· ≠ b), returned := s.returned.filter (· ≠ b) } c →
      s.Owned c ∧ c ≠ b := by
    rintro c (hc | ⟨j, hc⟩)
    · obtain ⟨hc', hne⟩ := (hret c).mp hc
      exact ⟨.inl hc', hne⟩
    · obtain ⟨-, hne⟩ := hblock j c hc.block
      rcases update_cases (Pc.Owns c) hc with ⟨-, hpc⟩ | ⟨-, hc⟩
      · exact hpc.elim
      · exact ⟨.inr ⟨j, hc⟩, hne⟩
  have hbo : s.Owned b := .inl hb
  have hunreg : ∀ j addr, (s.goto i (.unregister b.va)).threads j = .unregister addr →
      (j = i ∧ addr = b.va) ∨ (j ≠ i ∧ s.threads j = .unregister addr) := by
    intro j addr hj
    rcases update_cases (· = Pc.unregister addr) hj with ⟨hji, hpc⟩ | hj
    · cases hpc
      exact .inl ⟨hji, rfl⟩
    · exact .inr hj
  refine ⟨fun c hc => h.heap_ok c ((hheap c).mp hc).1,
    fun a ha c hc => h.apart a ((hheap a).mp ha).1 c ((hheap c).mp hc).1, fun c hc => ?_,
    fun j c hj => ?_, fun j k c hj hk => h.block_inj j k c (hblock j c hj).1 (hblock k c hk).1,
    goto_fits h.fits trivial, fun c hc => h.owned c (howned c hc).1, fun j addr hj => ?_⟩
  · obtain ⟨hc', hne⟩ := (hret c).mp hc
    exact (hheap c).mpr ⟨h.returned_mem c hc', hne⟩
  · obtain ⟨hj', hne⟩ := hblock j c hj
    obtain ⟨hc, hcr⟩ := h.block_mem j c hj'
    exact ⟨(hheap c).mpr ⟨hc, hne⟩, fun hr => hcr ((hret c).mp hr).1⟩
  · rcases hunreg j addr hj with ⟨rfl, rfl⟩ | ⟨hji, hj'⟩
    · refine ⟨by simp [MemState.goto, (h.owned b hbo).1], fun c hc => ?_, fun k hk => ?_⟩
      · obtain ⟨hc', hne⟩ := howned c hc
        exact h.va_ne (h.owned_mem hc') hbh hne
      · rcases hunreg k _ hk with ⟨rfl, -⟩ | ⟨-, hk'⟩
        · rfl
        · exact absurd rfl ((h.pending k _ hk').2.1 b hbo)
    · obtain ⟨hs, ho, hu⟩ := h.pending j addr hj'
      refine ⟨hs, fun c hc => ho c (howned c hc).1, fun k hk => ?_⟩
      rcases hunreg k addr hk with ⟨-, rfl⟩ | ⟨-, hk'⟩
      · exact absurd rfl (ho b hbo)
      · exact hu k hk'

/-- A block is returned to its caller. -/
theorem Inv.finish (h : Inv s) (hi : s.threads i = .finish b) :
    Inv { s.goto i .idle with regionMutex := none, returned := b :: s.returned } := by
  have hb := h.block_mem i b (by rw [hi]; rfl)
  have hbo : s.Owned b := .inr ⟨i, by rw [hi]; rfl⟩
  have howned : ∀ c, MemState.Owned
      { s.goto i .idle with regionMutex := none, returned := b :: s.returned } c → s.Owned c := by
    rintro c (hc | ⟨j, hc⟩)
    · rcases List.mem_cons.mp hc with rfl | hc
      · exact hbo
      · exact .inl hc
    · rcases update_cases (Pc.Owns c) hc with ⟨-, hpc⟩ | ⟨-, hc⟩
      · exact hpc.elim
      · exact .inr ⟨j, hc⟩
  refine ⟨h.heap_ok, h.apart, fun c hc => ?_, fun j c hj => ?_,
    fun j k c hj hk => h.block_inj j k c (goto_idle_block hj).2 (goto_idle_block hk).2,
    goto_fits h.fits trivial, fun c hc => h.owned c (howned c hc), fun j addr hj => ?_⟩
  · rcases List.mem_cons.mp hc with rfl | hc
    · exact hb.1
    · exact h.returned_mem c hc
  · obtain ⟨hji, hj'⟩ := goto_idle_block hj
    obtain ⟨hc, hcr⟩ := h.block_mem j c hj'
    refine ⟨hc, fun hr => ?_⟩
    rcases List.mem_cons.mp hr with rfl | hr
    · exact hji (h.block_inj j i _ hj' (by rw [hi]; rfl))
    · exact hcr hr
  · obtain ⟨hs, ho, hu⟩ := h.pending j addr (goto_unregister hj nofun)
    exact ⟨hs, fun c hc => ho c (howned c hc), fun k hk => hu k (goto_unregister hk nofun)⟩

/-- A failed allocation gives its block back. -/
theorem Inv.giveBack (h : Inv s) (hi : s.threads i = .giveBack b) :
    Inv { s.goto i .idle with heap := s.heap.filter (· ≠ b) } := by
  have hb := h.block_mem i b (by rw [hi]; rfl)
  have hheap : ∀ c, c ∈ s.heap.filter (· ≠ b) ↔ c ∈ s.heap ∧ c ≠ b := by simp [List.mem_filter]
  have howned : ∀ c, (s.goto i .idle).Owned c → s.Owned c := fun c => goto_owned fun _ => False.elim
  refine ⟨fun c hc => h.heap_ok c ((hheap c).mp hc).1,
    fun a ha c hc => h.apart a ((hheap a).mp ha).1 c ((hheap c).mp hc).1, fun c hc => ?_,
    fun j c hj => ?_, fun j k c hj hk => h.block_inj j k c (goto_idle_block hj).2 (goto_idle_block hk).2,
    goto_fits h.fits trivial, fun c hc => h.owned c (howned c hc), fun j addr hj => ?_⟩
  · refine (hheap c).mpr ⟨h.returned_mem c hc, ?_⟩
    rintro rfl
    exact hb.2 hc
  · obtain ⟨hji, hj'⟩ := goto_idle_block hj
    obtain ⟨hc, hcr⟩ := h.block_mem j c hj'
    refine ⟨(hheap c).mpr ⟨hc, ?_⟩, hcr⟩
    rintro rfl
    exact hji (h.block_inj j i _ hj' (by rw [hi]; rfl))
  · obtain ⟨hs, ho, hu⟩ := h.pending j addr (goto_unregister hj nofun)
    exact ⟨hs, fun c hc => ho c (howned c hc), fun k hk => hu k (goto_unregister hk nofun)⟩

/-- The entry of a released block is erased. -/
theorem Inv.unregister (h : Inv s) {addr : ℕ} (hi : s.threads i = .unregister addr) :
    Inv { s.goto i .idle with maps := fpgaShmemUnregister s.maps addr } := by
  obtain ⟨hs, ho, hu⟩ := h.pending i addr hi
  obtain ⟨pa, n, hget, hr⟩ : ∃ pa n, s.maps.v2pMap.get addr = some (pa, n) ∧
      fpgaShmemUnregister s.maps addr = ⟨s.maps.v2pMap.erase addr, s.maps.p2vMap.erase pa⟩ := by
    rcases fpgaShmemUnregister_cases s.maps addr with ⟨hn, -⟩ | hex
    · rw [hn] at hs
      cases hs
    · exact hex
  have howned : ∀ c, (s.goto i .idle).Owned c → s.Owned c := fun c => goto_owned fun _ => False.elim
  refine ⟨h.heap_ok, h.apart, h.returned_mem, fun j c hj => h.block_mem j c (goto_idle_block hj).2,
    fun j k c hj hk => h.block_inj j k c (goto_idle_block hj).2 (goto_idle_block hk).2,
    goto_fits h.fits trivial, fun c hc => ?_, fun j a hj => ?_⟩
  · show OwnEntry (fpgaShmemUnregister s.maps addr) c
    rw [hr]
    exact (h.owned c (howned c hc)).erase (ho c (howned c hc))
  · rcases update_cases (· = Pc.unregister a) hj with ⟨-, hpc⟩ | ⟨hji, hj'⟩
    · cases hpc
    · obtain ⟨hs', ho', hu'⟩ := h.pending j a hj'
      have hne : a ≠ addr := by
        rintro rfl
        exact hji (hu j hj').symm
      refine ⟨?_, fun c hc => ho' c (howned c hc), fun k hk => ?_⟩
      · show ((fpgaShmemUnregister s.maps addr).v2pMap.get a).isSome
        rwa [hr, OrderedMap.get_erase_of_ne _ hne]
      · exact hu' k (goto_unregister hk nofun)

/-- A thread in an allocation that sets the entry at the start of its own block, which nobody
owned before, and afterwards owns it or not. -/
theorem Inv.set (h : Inv s) {pc : Pc} {v : ℕ × ℕ} {p2v : RegionMap}
    (hblock : (s.threads i).block = some b) (hpc : pc.block = some b) (hfits : pc.Fits)
    (hno : ¬ (s.threads i).Owns b) (hnew : (∃ c, pc.Owns c) →
      (s.maps.v2pMap.get b.va = none ∧ OwnEntry ⟨s.maps.v2pMap.set b.va v, p2v⟩ b)) :
    Inv { s.goto i pc with maps := ⟨s.maps.v2pMap.set b.va v, p2v⟩ } := by
  obtain ⟨hb, hbr⟩ := h.block_mem i b hblock
  have hblk := fun j => goto_block (s := s) (i := i) (hpc.trans hblock.symm) j
  -- nobody owns the block
  have hnob : ¬ s.Owned b := by
    rintro (hr | ⟨j, hj⟩)
    · exact hbr hr
    · obtain rfl := h.block_inj i j b hblock hj.block
      exact hno hj
  have howned : ∀ c, (s.goto i pc).Owned c → (c = b ∧ pc.Owns b) ∨ s.Owned c := by
    rintro c (hc | ⟨j, hc⟩)
    · exact .inr (.inl hc)
    · rcases update_cases (Pc.Owns c) hc with ⟨-, hown⟩ | ⟨-, hc⟩
      · obtain rfl := Option.some.inj (hpc.symm.trans hown.block)
        exact .inl ⟨rfl, hown⟩
      · exact .inr (.inr ⟨j, hc⟩)
  have hne : ∀ addr, pc ≠ .unregister addr := by
    rintro addr rfl
    cases hpc
  refine ⟨h.heap_ok, h.apart, h.returned_mem, fun j c hj => h.block_mem j c (by rwa [← hblk]),
    fun j k c hj hk => h.block_inj j k c (by rwa [← hblk]) (by rwa [← hblk]),
    goto_fits h.fits hfits, fun c hc => ?_, fun j addr hj => ?_⟩
  · rcases howned c hc with ⟨rfl, hown⟩ | hc'
    · exact (hnew ⟨c, hown⟩).2
    · have hch := h.owned_mem hc'
      have hne : b ≠ c := by
        rintro rfl
        exact hnob hc'
      have hap := h.apart b hb c hch hne
      have hbl := h.heap_ok b hb
      have hcl := h.heap_ok c hch
      refine (h.owned c hc').set ?_ hcl.1
      unfold Buffer.Apart at hap
      omega
  · obtain ⟨hs, ho, hu⟩ := h.pending j addr (goto_unregister hj hne)
    refine ⟨?_, fun c hc => ?_, fun k hk => hu k (goto_unregister hk hne)⟩
    · show ((s.maps.v2pMap.set b.va v).get addr).isSome
      rw [OrderedMap.get_set]
      split_ifs
      · rfl
      · exact hs
    · rcases howned c hc with ⟨rfl, hown⟩ | hc'
      · rintro rfl
        rw [(hnew ⟨c, hown⟩).1] at hs
        cases hs
      · exact ho c hc'

/-! ### The loop -/

/-- What is found for a block that is not the block's own entry is too short, unless it covers the
block. -/
theorem mmapV2p_short {m : ShmemMaps} {chklen : ℕ} (hle : chklen ≤ b.len)
    (hc : ∀ k p n, m.v2pMap.get k = some (p, n) → k ≤ b.va → ¬ b.va + b.len ≤ k + n)
    (hpa : (fpgaShmemMmapV2p m b.va chklen).1 ≠ 0) :
    (fpgaShmemMmapV2p m b.va chklen).2 < b.len := by
  rcases fpgaShmemMmapV2p_cases m b.va chklen with he | ⟨k, p, n, hk, hkle, hlt, he⟩
  · rw [he] at hpa
    exact absurd rfl hpa
  · rw [he]
    have := hc k p n hk hkle
    simp only
    omega

/-- The lookup of the loop. -/
theorem Inv.lookup (h : Inv s) {chklen : ℕ} {own memseg : Bool}
    (hi : s.threads i = .lookup b chklen own) (hn : NotShadowed s (.next i memseg)) {t : MemState}
    (ht : memStep s (.next i memseg) = some t) : Inv t := by
  have hblock : (s.threads i).block = some b := by
    rw [hi]
    rfl
  have hle : chklen ≤ b.len := by
    have := h.fits i
    rwa [hi] at this
  have hlen : (fpgaShmemMmapV2p s.maps b.va chklen).2 ≤ chklen := by
    rcases fpgaShmemMmapV2p_cases s.maps b.va chklen with he | ⟨k, p, n, -, -, -, he⟩
    · rw [he]
    · rw [he]
      exact Nat.min_le_left _ _
  -- a region that is long enough is the block's own
  have hfull : (fpgaShmemMmapV2p s.maps b.va chklen).1 ≠ 0 →
      (fpgaShmemMmapV2p s.maps b.va chklen).2 = b.len →
      (s.threads i).Owns b ∧ (fpgaShmemMmapV2p s.maps b.va chklen).1 = b.pa := by
    intro hpa heq
    cases own with
    | false =>
      simp only [NotShadowed, hi] at hn
      have := mmapV2p_short hle hn hpa
      omega
    | true =>
      have hown : (s.threads i).Owns b := by
        rw [hi]
        exact ⟨rfl, rfl, by omega⟩
      obtain ⟨hpos, -, hlt⟩ := h.heap_ok b (h.block_mem i b hblock).1
      refine ⟨hown, ?_⟩
      rw [(h.owned b (.inr ⟨i, hown⟩)).mmapV2p ⟨Nat.le_refl _, by omega⟩, Nat.sub_self, Nat.add_zero,
        Nat.mod_eq_of_lt hlt]
  simp only [memStep, hi] at ht
  split_ifs at ht with h0 hseg hpa
  · cases ht
    refine h.goto hblock rfl (hlen.trans hle) ?_
    rintro c ⟨rfl, rfl, heq⟩
    rw [hi]
    exact ⟨rfl, rfl, by omega⟩
  · cases ht
    exact h.goto hblock rfl trivial fun _ => False.elim
  · cases ht
    refine h.goto hblock rfl ?_ fun _ => False.elim
    refine Nat.lt_of_le_of_ne (hlen.trans hle) fun heq => ?_
    exact hpa (hfull h0 heq).2
  · cases ht
    unfold afterLoop
    split_ifs with heq
    · refine h.goto hblock rfl trivial ?_
      rintro c rfl
      exact (hfull h0 heq.symm).1
    · exact h.goto hblock rfl trivial fun _ => False.elim

/-- The registration of the loop. -/
theorem Inv.register (h : Inv s) {chklen : ℕ} {own memseg : Bool}
    (hi : s.threads i = .register b chklen own) {t : MemState}
    (ht : memStep s (.next i memseg) = some t) : Inv t := by
  have hblock : (s.threads i).block = some b := by
    rw [hi]
    rfl
  have hfits : chklen ≤ b.len := by
    have := h.fits i
    rwa [hi] at this
  obtain ⟨hpos, hwrap, -⟩ := h.heap_ok b (h.block_mem i b hblock).1
  have hstay : Inv (s.goto i (.lookup b chklen own)) := by
    refine h.goto hblock rfl hfits ?_
    rintro c hc
    rw [hi]
    exact hc
  simp only [memStep, hi] at ht
  rcases fpgaShmemRegister_cases s.maps b.va b.pa chklen with ⟨hs, hr⟩ | ⟨hn, -, hr⟩ | ⟨hn, hc, hr⟩
  · rw [hr] at ht
    obtain ⟨v, hv⟩ := Option.isSome_iff_exists.mp hs
    simp only [hv, Option.isNone_some, Bool.false_and, Bool.or_false] at ht
    cases ht
    exact hstay
  · rw [hr] at ht
    simp only [hn, Option.isSome_none, Bool.and_false, Bool.or_false] at ht
    cases ht
    exact hstay
  · rw [hr] at ht
    simp only [hn, Option.isNone_none, OrderedMap.get_set_self, Option.isSome_some, Bool.and_true,
      Bool.or_true] at ht
    cases ht
    refine h.set hblock rfl hfits (fun hown => ?_) ?_
    · have := (h.owned b (.inr ⟨i, hown⟩)).1
      rw [hn] at this
      cases this
    · rintro ⟨c, rfl, -, rfl⟩
      refine ⟨hn, OrderedMap.get_set_self _ _ _, fun k hk => ?_⟩
      by_cases hkb : k = b.va
      · exact .inl hkb.le
      · rw [OrderedMap.get_set_of_ne _ hkb] at hk
        rcases Nat.lt_or_ge b.va k with hlt | hge
        · have hle := nextConflict_eq_false.mp hc k hlt hk
          rw [Nat.mod_eq_of_lt hwrap] at hle
          exact .inr hle
        · exact .inl hge

/-- The update of `__remap_region`: the region found was too short, so the allocation fails. -/
theorem Inv.update (h : Inv s) {chklen : ℕ} {memseg : Bool} (hi : s.threads i = .update b chklen)
    {t : MemState} (ht : memStep s (.next i memseg) = some t) : Inv t := by
  have hblock : (s.threads i).block = some b := by
    rw [hi]
    rfl
  have hfits : chklen < b.len := by
    have := h.fits i
    rwa [hi] at this
  have hno : ¬ (s.threads i).Owns b := by
    rw [hi]
    exact id
  simp only [memStep, hi, afterLoop, if_neg hfits.ne'] at ht
  rcases fpgaShmemRegisterUpdate_cases s.maps b.va b.pa chklen with
    ⟨-, hr⟩ | ⟨n, va, n', -, -, hr⟩ | ⟨pa, n, e, -, -, -, hr⟩
  · rw [hr] at ht
    cases ht
    exact h.goto hblock rfl trivial fun _ => False.elim
  · rw [hr] at ht
    cases ht
    exact h.set hblock rfl trivial hno fun ⟨_, hown⟩ => hown.elim
  · rw [hr] at ht
    cases ht
    exact h.set hblock rfl trivial hno fun ⟨_, hown⟩ => hown.elim

/-! ### Runs -/

/-- **Every step keeps the invariant**, unless an allocation finds its block covered by a region
that it has not stored. -/
theorem Inv.step (h : Inv s) {a : MemAct} (hn : NotShadowed s a) {t : MemState}
    (ht : memStep s a = some t) : Inv t := by
  cases a with
  | malloc i aligned b =>
    simp only [memStep] at ht
    cases hi : s.threads i with
    | idle =>
      simp only [hi] at ht
      split_ifs at ht with ha hm hm
      · cases ht
        exact h.malloc hi hm
      · cases ht
        exact h.malloc hi hm
    | _ => simp [hi] at ht
  | free i b =>
    simp only [memStep] at ht
    cases hi : s.threads i with
    | idle =>
      simp only [hi] at ht
      split_ifs at ht with hb
      cases ht
      exact h.free hi hb
    | _ => simp [hi] at ht
  | next i memseg =>
    cases hi : s.threads i with
    | idle => simp [memStep, hi] at ht
    | lock b =>
      simp only [memStep, hi] at ht
      split_ifs at ht
      cases ht
      have hg : Inv (s.goto i (.lookup b b.len false)) := by
        refine h.goto (by rw [hi]; rfl) rfl (Nat.le_refl b.len) ?_
        rintro c ⟨-, hf, -⟩
        cases hf
      exact hg.regionMutex _
    | lookup b chklen own => exact h.lookup hi hn ht
    | register b chklen own => exact h.register hi ht
    | check b chklen =>
      have hfits := h.fits i
      rw [hi] at hfits
      simp only [memStep, hi] at ht
      cases ht
      split_ifs
      · exact h.goto (by rw [hi]; rfl) rfl hfits fun _ => False.elim
      · exact h.goto (by rw [hi]; rfl) rfl trivial fun _ => False.elim
    | update b chklen => exact h.update hi ht
    | finish b =>
      simp only [memStep, hi] at ht
      cases ht
      exact h.finish hi
    | errOut b =>
      simp only [memStep, hi] at ht
      cases ht
      have hg : Inv (s.goto i (.giveBack b)) :=
        h.goto (by rw [hi]; rfl) rfl trivial fun _ => False.elim
      exact hg.regionMutex _
    | giveBack b =>
      simp only [memStep, hi] at ht
      cases ht
      exact h.giveBack hi
    | unregister addr =>
      simp only [memStep, hi] at ht
      cases ht
      exact h.unregister hi

/-- **Live buffers stay translatable.** In every run in which no allocation that has not yet
stored its own entry finds its whole block covered by a region of the maps, every buffer returned
and not yet passed to `fpga_shmem_free` is covered by an entry with its own physical address, and
every address of it is translated accordingly. -/
theorem always_translatable (acts : List MemAct) (h : Along memStep NotShadowed .init acts) :
    Always memStep (fun s => ∀ b ∈ s.returned, Covered s.maps b ∧ Translated s.maps b) .init acts := by
  have hinv : Always memStep Inv .init acts :=
    always_of_along (fun _ _ _ hI hn ht => hI.step hn ht) inv_init h
  refine hinv.mono fun s hI b hb => ?_
  have hown := hI.owned b (.inl hb)
  refine ⟨hown.covered (hI.heap_ok b (hI.returned_mem b hb)).2.2, fun x hx len => ?_⟩
  rw [hown.mmapV2p hx len]

/-- The condition, for the keys that the map has. -/
def notShadowed (s : MemState) : MemAct → Bool
  | .next i _ =>
    match s.threads i with
    | .lookup b _ false =>
      decide (∀ k ∈ s.maps.v2pMap.keys, k ≤ b.va →
        ¬ b.va + b.len ≤ k + ((s.maps.v2pMap.get k).map (·.2)).getD 0)
    | _ => true
  | _ => true

theorem notShadowed_of_eq_true {a : MemAct} (h : notShadowed s a = true) : NotShadowed s a := by
  cases a with
  | next i memseg =>
    cases hi : s.threads i with
    | lookup b chklen own =>
      cases own with
      | true => simp only [NotShadowed, hi]
      | false =>
        simp only [notShadowed, hi, decide_eq_true_eq] at h
        simp only [NotShadowed, hi]
        intro k p n hk hle
        have hmem : k ∈ s.maps.v2pMap.keys := (s.maps.v2pMap.mem_keys k).mpr (by simp [hk])
        have hlen := h k hmem hle
        rwa [hk] at hlen
    | _ => simp only [NotShadowed, hi]
  | _ => trivial

/-- Two threads allocate at the same time, and one waits for the other's mutex. The buffer of the first
is released while the second registers its own, and its range is handed out again, with another physical
address, when its entry is gone. -/
def allocFreeAlloc : List MemAct :=
  [.malloc 0 true ⟨⟨0x10000, 0x400⟩, 0x90000⟩, .malloc 1 false ⟨⟨0x20000, 0x800⟩, 0xa0000⟩,
    .next 0 true, .next 0 true, .next 0 true, .next 0 true, .next 0 true, .next 1 true, .next 1 true,
    .free 0 ⟨⟨0x10000, 0x400⟩, 0x90000⟩, .next 1 true, .next 0 true, .next 1 true,
    .malloc 0 true ⟨⟨0x10000, 0x800⟩, 0xb0000⟩, .next 1 true, .next 0 true, .next 0 true,
    .next 0 true, .next 0 true, .next 0 true]

/-- Both buffers are returned and have their entries. -/
theorem always_translatable_two :
    Along memStep NotShadowed .init allocFreeAlloc ∧
    Always memStep (fun s => ∀ b ∈ s.returned, Covered s.maps b ∧ Translated s.maps b) .init
      allocFreeAlloc ∧
    (run memStep .init allocFreeAlloc).map (fun s =>
        (s.returned, s.maps.v2pMap.get 0x10000, s.maps.v2pMap.get 0x20000)) =
      some ([⟨⟨0x10000, 0x800⟩, 0xb0000⟩, ⟨⟨0x20000, 0x800⟩, 0xa0000⟩],
        some (0xb0000, 0x800), some (0xa0000, 0x800)) := by
  have hcheck : Along memStep (fun s a => notShadowed s a = true) .init allocFreeAlloc := by
    decide +kernel
  have h : Along memStep NotShadowed .init allocFreeAlloc :=
    along_of_along (I := fun _ => True) (fun _ _ _ _ _ _ => trivial)
      (fun _ _ _ _ hs _ => notShadowed_of_eq_true hs) trivial hcheck
  exact ⟨h, always_translatable _ h, by decide +kernel⟩

/-- A thread gets a block that another one is releasing, finds the old entry in the maps, and loses
it when the other thread goes on. -/
theorem not_always_covered :
    ¬ ∀ acts : List MemAct,
      Always memStep (fun s => ∀ b ∈ s.returned, Covered s.maps b) .init acts := by
  intro h
  let b : Block := ⟨⟨0x10000, 0x400⟩, 0x90000⟩
  let acts : List MemAct := [.malloc 0 true b, .next 0 true, .next 0 true, .next 0 true,
    .next 0 true, .next 0 true, .free 0 b, .malloc 1 true b, .next 1 true, .next 1 true,
    .next 1 true, .next 0 true]
  have hrun : ((run memStep .init acts).map fun t =>
      (decide (b ∈ t.returned), decide (t.maps.v2pMap.keys = ∅))) = some (true, true) := by decide
  obtain ⟨t, ht, hb⟩ := Option.map_eq_some_iff.mp hrun
  simp only [Prod.mk.injEq, decide_eq_true_eq] at hb
  obtain ⟨k, p, n, hk, -⟩ := (h acts).last ht b hb.1
  have hmem : k ∈ t.maps.v2pMap.keys := (t.maps.v2pMap.mem_keys k).mpr (by simp [hk])
  rw [hb.2] at hmem
  cases hmem

end HardwareDrivers.Libfpga
