import HardwareDrivers.Libfpga.Shmem

/-!
# The loop of the allocation functions

`fpga_shmem_alloc` and `fpga_shmem_aligned_alloc` look the new buffer up, register it as long as it
is not found, and look again. What `fpga_shmem_register` returns is not looked at, so whether the
loop ends depends on what the maps have from other calls.

`alloc_sound`: in every run of the calls of the library, with any answers of DPDK, the loop of an
allocation ends, the buffer that is returned is translated as a whole to its physical address, and
nothing is left where `NULL` is returned, exactly as long as `AllocFair` holds for each allocation.
-/

namespace HardwareDrivers.Libfpga

open Theory

/-! ### Calls -/

/-- Any answer of `rte_mem_virt2phy`, as pages of one byte. -/
def PageMap.answer (phys : BitVec 64) : PageMap where
  pageSize := 1
  frames := 2 ^ 64
  frame _ := phys.toNat
  mul_eq := rfl
  frame_lt _ := phys.isLt

@[simp] theorem PageMap.rteMemVirt2phy_answer (phys : BitVec 64) (va : ℕ) :
    (PageMap.answer phys).rteMemVirt2phy va = phys.toNat := by
  simp only [rteMemVirt2phy, answer, Nat.mul_one, Nat.mod_one, Nat.add_zero]

/-- `RTE_BAD_IOVA`, which `rte_mem_virt2phy` returns if the physical address is unknown. -/
def rteBadIova : BitVec 64 := -1

/-- The calls of the library, with what DPDK answers. Pages may move between two calls. -/
inductive AllocCall where
  /-- `fpga_shmem_alloc(length)`. -/
  | alloc (length : ℕ) (va : Option ℕ) (memseg : Bool) (phys : BitVec 64)
  /-- `fpga_shmem_aligned_alloc(length)`. -/
  | alignedAlloc (length : ℕ) (va : Option ℕ) (memseg : Bool) (phys : BitVec 64)
  /-- `fpga_shmem_free(addr)`. -/
  | free (addr : ℕ)
  /-- `fpga_shmem_register`, `fpga_shmem_unregister` and the other calls on the maps. -/
  | map (op : MapOp)

/-- A call, if DPDK can answer so and it returns. -/
def allocCallStep (s : ShmemState) : AllocCall → Option ShmemState
  | .alloc length va memseg phys => fpgaShmemAlloc (.answer phys) s length va memseg
  | .alignedAlloc length va memseg phys => fpgaShmemAlignedAlloc (.answer phys) s length va memseg
  | .free addr => some (fpgaShmemFree s addr)
  | .map op => some { s with maps := (op.exec s.maps).2 }

/-! ### When an allocation is right -/

/-- The physical address is known: it is not what `rte_mem_virt2phy` returns for an unknown one,
and not what the maps return for an address without one. -/
def PhysKnown (phys : BitVec 64) : Prop := phys ≠ rteBadIova ∧ phys ≠ 0

instance (phys : BitVec 64) : Decidable (PhysKnown phys) := inferInstanceAs (Decidable (_ ∧ _))

/-- An allocation for which `rte_malloc` returned `va` is right. -/
structure AllocOk (s : ShmemState) (align length va : ℕ) (memseg : Bool) (phys : BitVec 64) :
    Prop where
  /-- The loop ends. -/
  ends : ∃ fuel, (regionLoop (.answer phys) memseg va fuel s.maps length).isSome
  /-- A buffer that is returned has its physical address in the maps, for its whole length. -/
  delivers : ∀ addr m, registerBuffer (.answer phys) memseg s.maps va length = some (some addr, m) →
    addr = va ∧ PhysKnown phys ∧ fpgaShmemMmapV2p m va length = (phys.toNat, length)
  /-- Where `NULL` is returned, the maps and the heap are as before. -/
  keeps : ∀ m, registerBuffer (.answer phys) memseg s.maps va length = some (none, m) →
    allocWith (.answer phys) align s length (some va) memseg = some s

/-- `fpga_shmem_register_update` finds the address in both maps. -/
def Updatable (m : ShmemMaps) (va : ℕ) : Prop :=
  ((m.v2pMap.get va).bind fun e => m.p2vMap.get e.1).isSome = true

instance (m : ShmemMaps) (va : ℕ) : Decidable (Updatable m va) :=
  inferInstanceAs (Decidable (_ = _))

/-- The condition for an allocation: what the address is translated to before the call, and for
how much of the length, and what there is in the maps at the address and behind it. -/
def AllocFair (m : ShmemMaps) (length va : ℕ) (memseg : Bool) (phys : BitVec 64) : Prop :=
  if (fpgaShmemMmapV2p m va length).1 = 0 then
    memseg = true → m.v2pMap.get va = none ∧ nextConflict m.v2pMap va length = false ∧
      (fpgaShmemMmapV2p m va length).2 = length ∧ PhysKnown phys
  else if (fpgaShmemMmapV2p m va length).1 = phys.toNat then
    (fpgaShmemMmapV2p m va length).2 = length → PhysKnown phys
  else
    memseg = true → if (fpgaShmemMmapV2p m va length).2 = length then
      Updatable m va ∧ PhysKnown phys else ¬ Updatable m va

instance (m : ShmemMaps) (length va : ℕ) (memseg : Bool) (phys : BitVec 64) :
    Decidable (AllocFair m length va memseg phys) := by
  unfold AllocFair
  infer_instance

/-- What is asked of a call. -/
def AllocCallOk (s : ShmemState) : AllocCall → Prop
  | .alloc length (some va) memseg phys =>
    MayMalloc s.live 64 va length → AllocOk s 64 length va memseg phys
  | .alignedAlloc length (some va) memseg phys =>
    MayMalloc s.live 1024 va length → AllocOk s 1024 length va memseg phys
  | _ => True

/-- The condition for a call. -/
def AllocCallFair (s : ShmemState) : AllocCall → Prop
  | .alloc length (some va) memseg phys =>
    MayMalloc s.live 64 va length → AllocFair s.maps length va memseg phys
  | .alignedAlloc length (some va) memseg phys =>
    MayMalloc s.live 1024 va length → AllocFair s.maps length va memseg phys
  | _ => True

/-! ### What the loop does -/

section

variable {m : ShmemMaps} {pm : PageMap} {va length : ℕ} {memseg : Bool}

/-- A pass that does not find the address registers it. -/
theorem regionLoop_pass (h : (fpgaShmemMmapV2p m va length).1 = 0) (fuel : ℕ) :
    regionLoop pm true va (fuel + 1) m length =
      regionLoop pm true va fuel (fpgaShmemRegister m va (pm.rteMemVirt2phy va)
        (fpgaShmemMmapV2p m va length).2).2 (fpgaShmemMmapV2p m va length).2 := by
  simp only [regionLoop, h, addNewRegion, if_true]

/-- The loop does not end if the address is not found and cannot be registered. -/
theorem regionLoop_endless (h : (fpgaShmemMmapV2p m va length).1 = 0)
    (hr : (fpgaShmemRegister m va (pm.rteMemVirt2phy va) (fpgaShmemMmapV2p m va length).2).2 = m)
    (fuel : ℕ) : regionLoop pm true va fuel m length = none := by
  cases fuel with
  | zero => rfl
  | succ fuel =>
    rw [regionLoop_pass h, hr]
    refine regionLoop_stuck ?_ hr fuel
    rw [fpgaShmemMmapV2p_idem]
    exact Prod.ext h rfl

/-- The address is not found, and DPDK does not know its segment. -/
theorem regionLoop_noSegment (h : (fpgaShmemMmapV2p m va length).1 = 0) (fuel : ℕ) :
    regionLoop pm false va (fuel + 1) m length =
      some (false, m, (fpgaShmemMmapV2p m va length).2) := by
  simp only [regionLoop, h, addNewRegion, if_true, Bool.false_eq_true, if_false]

/-- The address is found with its physical address. -/
theorem regionLoop_found (pm : PageMap) (memseg : Bool) (h : (fpgaShmemMmapV2p m va length).1 ≠ 0)
    (hpa : (fpgaShmemMmapV2p m va length).1 = pm.rteMemVirt2phy va) (fuel : ℕ) :
    regionLoop pm memseg va (fuel + 1) m length =
      some (true, m, (fpgaShmemMmapV2p m va length).2) := by
  simp only [regionLoop, if_neg h, if_neg (not_not.mpr hpa)]

/-- The nearest lower region has the address. -/
theorem registerCheck_of_found (h : (fpgaShmemMmapV2p m va length).1 ≠ 0) :
    fpgaShmemRegisterCheck m va = true := by
  unfold fpgaShmemMmapV2p at h
  unfold fpgaShmemRegisterCheck
  cases hentry : m.v2pMap.entryLE? va with
  | none =>
    rw [hentry] at h
    exact absurd rfl h
  | some e =>
    obtain ⟨k, pa, size⟩ := e
    rw [hentry] at h
    dsimp only at h
    split_ifs at h with hoff
    · exact absurd rfl h
    · exact decide_eq_true (Nat.not_le.mp hoff)
    · exact decide_eq_true (Nat.not_le.mp hoff)

/-- The address is found with another physical address. -/
theorem regionLoop_moved (pm : PageMap) (memseg : Bool) (h : (fpgaShmemMmapV2p m va length).1 ≠ 0)
    (hpa : (fpgaShmemMmapV2p m va length).1 ≠ pm.rteMemVirt2phy va) (fuel : ℕ) :
    regionLoop pm memseg va (fuel + 1) m length =
      some (memseg, if memseg then (fpgaShmemRegisterUpdate m va (pm.rteMemVirt2phy va)
        (fpgaShmemMmapV2p m va length).2).2 else m, (fpgaShmemMmapV2p m va length).2) := by
  simp only [regionLoop, if_neg h, if_pos hpa, remapRegion, registerCheck_of_found h, Bool.not_true,
    Bool.false_eq_true, if_false]
  cases memseg <;> rfl

/-- Looking a region up at its first address. -/
theorem mmapV2p_first {v2p : RegionMap} (p2v : RegionMap) {pa len : ℕ}
    (hget : v2p.get va = some (pa, len)) (hpos : 0 < len) : fpgaShmemMmapV2p ⟨v2p, p2v⟩ va len = (pa % 2 ^ 64, len) := by
  have hself : v2p.entryLE? va = some (va, pa, len) :=
    OrderedMap.entryLE?_eq_some.mpr ⟨hget, Nat.le_refl va, fun _ h _ => h⟩
  simp only [fpgaShmemMmapV2p, hself, Nat.sub_self, Nat.add_zero, Nat.sub_zero,
    if_neg (Nat.not_le.mpr hpos), Nat.lt_irrefl, if_false]

/-- A lookup leaves some of the length. -/
theorem mmapV2p_pos (hlen : 0 < length) : 0 < (fpgaShmemMmapV2p m va length).2 := by
  rcases fpgaShmemMmapV2p_cases m va length with he | ⟨k, pa, n, -, hle, hlt, he⟩
  · rw [he]
    exact hlen
  · rw [he]
    exact Nat.lt_min.mpr ⟨hlen, by omega⟩

/-- A new region makes the loop end, unless its physical address is 0. -/
theorem regionLoop_added (phys : BitVec 64) (h : (fpgaShmemMmapV2p m va length).1 = 0)
    (hlen : 0 < length) (hget : m.v2pMap.get va = none)
    (hnext : nextConflict m.v2pMap va (fpgaShmemMmapV2p m va length).2 = false) :
    (phys ≠ 0 → regionLoop (.answer phys) true va 2 m length =
      some (true, ⟨m.v2pMap.set va (phys.toNat, (fpgaShmemMmapV2p m va length).2),
        m.p2vMap.set phys.toNat (va, (fpgaShmemMmapV2p m va length).2)⟩,
        (fpgaShmemMmapV2p m va length).2)) ∧
      (phys = 0 → ∀ fuel, regionLoop (.answer phys) true va fuel m length = none) := by
  have hlen' : 0 < (fpgaShmemMmapV2p m va length).2 := mmapV2p_pos hlen
  have hreg := fpgaShmemRegister_cases m va phys.toNat (fpgaShmemMmapV2p m va length).2
  rw [hget, hnext] at hreg
  have hadd := (hreg.resolve_left fun h => Bool.noConfusion h.1).resolve_left
    fun h => Bool.noConfusion h.2.1
  have hpass : ∀ fuel, regionLoop (.answer phys) true va (fuel + 1) m length =
      regionLoop (.answer phys) true va fuel
        ⟨m.v2pMap.set va (phys.toNat, (fpgaShmemMmapV2p m va length).2),
          m.p2vMap.set phys.toNat (va, (fpgaShmemMmapV2p m va length).2)⟩
        (fpgaShmemMmapV2p m va length).2 := by
    intro fuel
    rw [regionLoop_pass h, PageMap.rteMemVirt2phy_answer, hadd.2.2]
  generalize (fpgaShmemMmapV2p m va length).2 = len at hpass hlen'
  have hlook := mmapV2p_first (m.p2vMap.set phys.toNat (va, len))
    (OrderedMap.get_set_self m.v2pMap va (phys.toNat, len)) hlen'
  rw [Nat.mod_eq_of_lt phys.isLt] at hlook
  constructor
  · intro hphys
    have hne : phys.toNat ≠ 0 := fun h0 => hphys (BitVec.eq_of_toNat_eq h0)
    rw [hpass, regionLoop_found (.answer phys) true (by rw [hlook]; exact hne)
      (by rw [hlook, PageMap.rteMemVirt2phy_answer]), hlook]
  · rintro rfl fuel
    cases fuel with
    | zero => rfl
    | succ fuel =>
      rw [hpass]
      -- the entry is there, and is not registered again
      refine regionLoop_endless (by rw [hlook]; rfl) ?_ fuel
      have hself := OrderedMap.get_set_self m.v2pMap va ((0 : BitVec 64).toNat, len)
      rcases fpgaShmemRegister_cases ⟨m.v2pMap.set va ((0 : BitVec 64).toNat, len),
        m.p2vMap.set (0 : BitVec 64).toNat (va, len)⟩ va
        ((PageMap.answer 0).rteMemVirt2phy va) len with ⟨-, hr⟩ | ⟨hnone, -⟩ | ⟨hnone, -⟩
      · rw [hlook]
        exact congrArg Prod.snd hr
      · cases hself.symm.trans hnone
      · cases hself.symm.trans hnone

end

/-! ### The condition is exact -/

section

variable {s : ShmemState} {align length va : ℕ} {memseg : Bool} {phys : BitVec 64}

/-- Where the loop does not end. -/
theorem not_allocOk_of_endless
    (h : ∀ fuel, regionLoop (.answer phys) memseg va fuel s.maps length = none) :
    ¬ AllocOk s align length va memseg phys := by
  intro hok
  obtain ⟨fuel, hsome⟩ := hok.ends
  rw [h fuel] at hsome
  cases hsome

/-- Where the loop ends, with the maps and with `chklen`. -/
theorem allocOk_iff_of_loop (hm : MayMalloc s.live align va length) {ok : Bool} {m : ShmemMaps}
    {chklen : ℕ} (h : regionLoop (.answer phys) memseg va 2 s.maps length = some (ok, m, chklen)) :
    AllocOk s align length va memseg phys ↔
      if ok = true ∧ chklen = length then
        PhysKnown phys ∧ fpgaShmemMmapV2p m va length = (phys.toNat, length)
      else m = s.maps := by
  have hends : ∃ fuel, (regionLoop (.answer phys) memseg va fuel s.maps length).isSome :=
    ⟨2, by rw [h]; rfl⟩
  split_ifs with hcond
  · obtain ⟨rfl, rfl⟩ := hcond
    have hbuf : registerBuffer (.answer phys) memseg s.maps va chklen = some (some va, m) := by
      simp only [registerBuffer, h, Option.map_some, decide_true, Bool.and_self, if_true]
    constructor
    · intro hok
      exact (hok.delivers va m hbuf).2
    · intro hdel
      refine ⟨hends, fun addr m' hres => ?_, fun m' hres => ?_⟩
      · cases hbuf.symm.trans hres
        exact ⟨rfl, hdel⟩
      · cases hbuf.symm.trans hres
  · have hbuf : registerBuffer (.answer phys) memseg s.maps va length = some (none, m) := by
      have hfalse : (ok && decide (length = chklen)) = false := by
        rw [Bool.and_eq_false_iff, decide_eq_false_iff_not]
        by_cases hok : ok = true
        · exact .inr fun heq => hcond ⟨hok, heq.symm⟩
        · exact .inl (Bool.eq_false_of_not_eq_true hok)
      simp only [registerBuffer, h, Option.map_some, hfalse, Bool.false_eq_true, if_false]
    have halloc : allocWith (.answer phys) align s length (some va) memseg =
        some { s with maps := m } := by
      simp only [allocWith, if_pos hm, hbuf, Option.map_some]
    constructor
    · intro hok
      exact congrArg ShmemState.maps (Option.some.inj (halloc.symm.trans (hok.keeps m hbuf)))
    · rintro rfl
      refine ⟨hends, fun addr m' hres => ?_, fun m' _ => halloc⟩
      cases hbuf.symm.trans hres

/-- An address that is not found. -/
theorem allocOk_iff_of_absent (hm : MayMalloc s.live align va length)
    (h : (fpgaShmemMmapV2p s.maps va length).1 = 0) :
    AllocOk s align length va true phys ↔ s.maps.v2pMap.get va = none ∧
      nextConflict s.maps.v2pMap va length = false ∧
      (fpgaShmemMmapV2p s.maps va length).2 = length ∧ PhysKnown phys := by
  rcases fpgaShmemRegister_cases s.maps va ((PageMap.answer phys).rteMemVirt2phy va)
    (fpgaShmemMmapV2p s.maps va length).2 with ⟨hget, hr⟩ | ⟨hget, hnext, hr⟩ | ⟨hget, hnext, -⟩
  · -- the address is in the maps, without a size or with physical address 0
    refine iff_of_false (not_allocOk_of_endless (regionLoop_endless h (congrArg Prod.snd hr))) ?_
    rintro ⟨hnone, -⟩
    rw [hnone] at hget
    cases hget
  · refine iff_of_false (not_allocOk_of_endless (regionLoop_endless h (congrArg Prod.snd hr))) ?_
    rintro ⟨-, hfalse, hlen, -⟩
    rw [hlen, hfalse] at hnext
    cases hnext
  · obtain ⟨hends, hendless⟩ := regionLoop_added phys h hm.1 hget hnext
    by_cases hphys : phys = 0
    · exact iff_of_false (not_allocOk_of_endless (hendless hphys)) fun hall => hall.2.2.2.2 hphys
    · rw [allocOk_iff_of_loop hm (hends hphys)]
      by_cases hlen : (fpgaShmemMmapV2p s.maps va length).2 = length
      · rw [if_pos ⟨rfl, hlen⟩]
        rw [hlen] at hnext ⊢
        have hlook := mmapV2p_first (s.maps.p2vMap.set phys.toNat (va, length))
          (OrderedMap.get_set_self s.maps.v2pMap va (phys.toNat, length)) hm.1
        rw [Nat.mod_eq_of_lt phys.isLt] at hlook
        exact ⟨fun hdel => ⟨hget, hnext, rfl, hdel.1⟩, fun hall => ⟨hall.2.2.2, hlook⟩⟩
      · rw [if_neg fun hcond => hlen hcond.2]
        refine iff_of_false (fun heq => ?_) fun hall => hlen hall.2.2.1
        -- the entry stays
        have hnew := OrderedMap.get_set_self s.maps.v2pMap va
          (phys.toNat, (fpgaShmemMmapV2p s.maps va length).2)
        rw [← heq] at hget
        cases hget.symm.trans hnew

/-- An address that is found with another physical address. -/
theorem allocOk_iff_of_moved (hm : MayMalloc s.live align va length)
    (h : (fpgaShmemMmapV2p s.maps va length).1 ≠ 0)
    (hpa : (fpgaShmemMmapV2p s.maps va length).1 ≠ phys.toNat) :
    AllocOk s align length va true phys ↔
      if (fpgaShmemMmapV2p s.maps va length).2 = length then
        Updatable s.maps va ∧ PhysKnown phys else ¬ Updatable s.maps va := by
  have hloop := regionLoop_moved (.answer phys) true h
    (by rw [PageMap.rteMemVirt2phy_answer]; exact hpa) 1
  rw [allocOk_iff_of_loop hm hloop, if_pos rfl, PageMap.rteMemVirt2phy_answer]
  simp only [true_and]
  rcases fpgaShmemRegisterUpdate_cases s.maps va phys.toNat
    (fpgaShmemMmapV2p s.maps va length).2 with
    ⟨hnone, hr⟩ | ⟨n, va', n', hget, -, -⟩ | ⟨pa, n, e, hget, hp2v, hne, hr⟩
  · -- nothing is updated
    have hupd : ¬ Updatable s.maps va := by
      unfold Updatable
      rw [hnone]
      exact Bool.noConfusion
    rw [hr]
    split_ifs with hlen
    · exact iff_of_false (fun hdel => hpa (congrArg Prod.fst hdel.2)) fun hall => hupd hall.1
    · exact iff_of_true rfl hupd
  · -- an entry at the address has the physical address that is found
    refine absurd ?_ hpa
    have hself : s.maps.v2pMap.entryLE? va = some (va, phys.toNat, n) :=
      OrderedMap.entryLE?_eq_some.mpr ⟨hget, Nat.le_refl va, fun _ h _ => h⟩
    unfold fpgaShmemMmapV2p at h ⊢
    simp only [hself, Nat.sub_self, Nat.add_zero, Nat.mod_eq_of_lt phys.isLt] at h ⊢
    split_ifs at h ⊢
    · exact absurd rfl h
    · rfl
    · rfl
  · have hupd : Updatable s.maps va := by
      unfold Updatable
      rw [hget, Option.bind_some, hp2v]
      rfl
    rw [hr]
    split_ifs with hlen
    · rw [hlen]
      have hlook := mmapV2p_first ((s.maps.p2vMap.erase pa).set phys.toNat (va, length))
        (OrderedMap.get_set_self s.maps.v2pMap va (phys.toNat, length)) hm.1
      rw [Nat.mod_eq_of_lt phys.isLt] at hlook
      exact ⟨fun hdel => ⟨hupd, hdel.1⟩, fun hall => ⟨hall.2, hlook⟩⟩
    · refine iff_of_false (fun heq => ?_) fun hnot => hnot hupd
      have hnew := OrderedMap.get_set_self s.maps.v2pMap va
        (phys.toNat, (fpgaShmemMmapV2p s.maps va length).2)
      rw [← heq] at hget
      cases hget.symm.trans hnew
      exact hne rfl

/-- An allocation is right exactly where the condition holds. -/
theorem allocOk_iff (hm : MayMalloc s.live align va length) :
    AllocOk s align length va memseg phys ↔ AllocFair s.maps length va memseg phys := by
  unfold AllocFair
  by_cases h : (fpgaShmemMmapV2p s.maps va length).1 = 0
  · rw [if_pos h]
    cases memseg with
    | false =>
      rw [allocOk_iff_of_loop hm (regionLoop_noSegment h 1),
        if_neg fun hcond => Bool.noConfusion hcond.1]
      exact iff_of_true rfl Bool.noConfusion
    | true =>
      rw [allocOk_iff_of_absent hm h]
      exact ⟨fun hall _ => hall, fun hall => hall rfl⟩
  · rw [if_neg h]
    by_cases hpa : (fpgaShmemMmapV2p s.maps va length).1 = phys.toNat
    · rw [if_pos hpa]
      have hloop := regionLoop_found (.answer phys) memseg h
        (by rw [PageMap.rteMemVirt2phy_answer]; exact hpa) 1
      rw [allocOk_iff_of_loop hm hloop]
      split_ifs with hcond
      · exact ⟨fun hdel _ => hdel.1, fun hknown => ⟨hknown hcond.2, Prod.ext hpa hcond.2⟩⟩
      · exact iff_of_true rfl fun hlen => absurd ⟨rfl, hlen⟩ hcond
    · rw [if_neg hpa]
      cases memseg with
      | false =>
        have hloop := regionLoop_moved (.answer phys) false h
          (by rw [PageMap.rteMemVirt2phy_answer]; exact hpa) 1
        rw [allocOk_iff_of_loop hm hloop, if_neg fun hcond => Bool.noConfusion hcond.1]
        exact iff_of_true rfl Bool.noConfusion
      | true =>
        rw [allocOk_iff_of_moved hm h hpa]
        exact ⟨fun hall _ => hall, fun hall => hall rfl⟩

theorem allocCallOk_iff (s : ShmemState) (call : AllocCall) :
    AllocCallOk s call ↔ AllocCallFair s call := by
  cases call with
  | alloc length va memseg phys =>
    cases va with
    | none => exact Iff.rfl
    | some va => exact forall_congr' fun hm => allocOk_iff hm
  | alignedAlloc length va memseg phys =>
    cases va with
    | none => exact Iff.rfl
    | some va => exact forall_congr' fun hm => allocOk_iff hm
  | free addr => exact Iff.rfl
  | map op => exact Iff.rfl

end

/-- In every run of calls, with any answers of DPDK, each allocation ends, delivers what it returns
and leaves nothing where it fails, exactly if each meets the condition. -/
theorem alloc_sound (calls : List AllocCall) :
    AtEvery allocCallStep AllocCallOk .init calls ↔
      AtEvery allocCallStep AllocCallFair .init calls :=
  atEvery_congr allocCallOk_iff .init calls

/-! ### Where the code is wrong -/

instance (s : ShmemState) : ∀ call, Decidable (AllocCallFair s call)
  | .alloc length (some va) memseg phys =>
    inferInstanceAs (Decidable (MayMalloc s.live 64 va length → AllocFair s.maps length va memseg phys))
  | .alignedAlloc length (some va) memseg phys =>
    inferInstanceAs (Decidable (MayMalloc s.live 1024 va length → AllocFair s.maps length va memseg phys))
  | .alloc _ none _ _ | .alignedAlloc _ none _ _ | .free _ | .map _ => isTrue trivial

/-- A region with physical memory at 256 MiB is registered. -/
def neighbour (addr size : BitVec 64) : AllocCall := .map (.register addr 0x10000000 size)

/-- After `pre` there is a call that is not right. -/
theorem not_atEvery_ok {pre : List AllocCall} {call : AllocCall}
    (h : ((run allocCallStep .init pre).any fun s => ¬ AllocCallFair s call) = true) :
    ¬ AtEvery allocCallStep AllocCallOk .init (pre ++ [call]) := by
  intro hok
  obtain ⟨s, hs, hfair⟩ := Option.any_eq_true _ _ |>.mp h
  exact of_decide_eq_true hfair ((allocCallOk_iff s call).mp (hok.of_run hs))

/-- With a region registered behind the new buffer the loop does not end; a buffer in a region
that has other physical memory is returned with the old address; a longer buffer at the address of
a region fails and leaves a changed entry; and a buffer whose physical address is unknown
is returned. -/
theorem not_alloc_sound :
    ((run allocCallStep .init [neighbour 0x201000 0x1000]).any fun s =>
        MayMalloc s.live 64 0x200000 0x2000 ∧
        ((fpgaShmemMmapV2p s.maps 0x200000 0x2000).1 = 0 ∧
          (fpgaShmemRegister s.maps 0x200000 0x50000000 0x2000).1 = .error .invalidArgument)) = true ∧
      ((run allocCallStep .init [neighbour 0x200000 0x2000,
        .alignedAlloc 0x1000 (some 0x200400) true 0x50000400]).any fun s =>
          s.live = [⟨0x200400, 0x1000⟩] ∧
            fpgaShmemMmapV2p s.maps 0x200400 0x1000 = (0x10000400, 0x1000)) = true ∧
      ((run allocCallStep .init [neighbour 0x200000 0x1000,
        .alloc 0x2000 (some 0x200000) true 0x50000000]).any fun s =>
          s.live = [] ∧ s.maps.v2pMap.get 0x200000 = some (0x50000000, 0x1000)) = true ∧
      ¬ AtEvery allocCallStep AllocCallOk .init ([neighbour 0x201000 0x1000] ++
        [.alloc 0x2000 (some 0x200000) true 0x50000000]) ∧
      ¬ AtEvery allocCallStep AllocCallOk .init ([neighbour 0x200000 0x2000] ++
        [.alignedAlloc 0x1000 (some 0x200400) true 0x50000400]) ∧
      ¬ AtEvery allocCallStep AllocCallOk .init ([neighbour 0x200000 0x1000] ++
        [.alloc 0x2000 (some 0x200000) true 0x50000000]) ∧
      ¬ AtEvery allocCallStep AllocCallOk .init ([] ++
        [.alloc 0x1000 (some 0x200000) true rteBadIova]) :=
  ⟨by decide +kernel, by decide +kernel, by decide +kernel, not_atEvery_ok (by decide +kernel),
    not_atEvery_ok (by decide +kernel), not_atEvery_ok (by decide +kernel),
    not_atEvery_ok (by decide +kernel)⟩

end HardwareDrivers.Libfpga
