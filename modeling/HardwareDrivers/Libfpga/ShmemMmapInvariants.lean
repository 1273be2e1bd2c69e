import HardwareDrivers.Libfpga.ShmemMmap

/-!
# What the address maps keep

Two properties of the pair of maps, and for each the exact calls that keep it. No
call of the library checks what either needs: `fpga_shmem_register` and
`fpga_shmem_register_update` store under a physical address without looking whether
it already is a key, and of the neighbours of a new region only the next one is
compared, with the end taken modulo `2 ^ 64`.

## What is proved

* `always_inverse_iff` — the maps stay inverse to each other throughout a run exactly
  if no call stores under a physical address in use.
* `always_regionsDisjoint_iff` — the virtual regions stay disjoint throughout a run
  exactly if every new or changed region fits between its neighbours; an error leaves
  both maps as they were.
-/

namespace HardwareDrivers.Libfpga

open Theory RegionMap

/-! ### Inverse maps -/

/-- Each map is the other read backwards. -/
def Inverse (m : ShmemMaps) : Prop :=
  ∀ va pa size, m.v2pMap.get va = some (pa, size) ↔ m.p2vMap.get pa = some (va, size)

theorem inverse_empty : Inverse .empty := fun _ _ _ => ⟨nofun, nofun⟩

/-- A new entry keeps the maps inverse exactly if its physical address is not yet a key. -/
theorem inverse_set_iff {m : ShmemMaps} (h : Inverse m) {addr paddr : ℕ}
    (ha : m.v2pMap.get addr = none) (size : ℕ) :
    Inverse ⟨m.v2pMap.set addr (paddr, size), m.p2vMap.set paddr (addr, size)⟩ ↔
      m.p2vMap.get paddr = none := by
  constructor
  · intro hs
    by_contra hne
    obtain ⟨⟨va, n⟩, hva⟩ := Option.ne_none_iff_exists'.mp hne
    -- the old owner of `paddr` keeps its entry in the one map and loses it in the other
    have hold : m.v2pMap.get va = some (paddr, n) := (h va paddr n).mpr hva
    have hvne : va ≠ addr := by
      rintro rfl
      rw [ha] at hold
      cases hold
    have hnew := (hs va paddr n).mp (by simp [OrderedMap.get_set, hvne, hold])
    simp [Ne.symm hvne] at hnew
  · intro hp va pa n
    simp only [OrderedMap.get_set]
    split_ifs with hva hpa hpa
    · simp [hva, hpa]
    · rw [← h va pa n, hva, ha]
      simp [Ne.symm hpa]
    · rw [h va pa n, hpa, hp]
      simp [Ne.symm hva]
    · exact h va pa n

/-- Erasing an entry and its reverse keeps the maps inverse. -/
theorem Inverse.erase {m : ShmemMaps} (h : Inverse m) {vaddr pa size : ℕ}
    (hv : m.v2pMap.get vaddr = some (pa, size)) :
    Inverse ⟨m.v2pMap.erase vaddr, m.p2vMap.erase pa⟩ := by
  have hp := (h vaddr pa size).mp hv
  intro va q n
  simp only [OrderedMap.get_erase]
  split_ifs with hva hq hq
  · rfl
  · rw [← h va q n, hva, hv]
    simp [Ne.symm hq]
  · rw [h va q n, hq, hp]
    simp [Ne.symm hva]
  · exact h va q n

/-- The call stores nothing under a physical address that already is a key of `p2v_map`. -/
def MapOp.KeyFree (m : ShmemMaps) : MapOp → Prop
  | .register addr paddr size =>
    m.v2pMap.get addr.toNat = none → nextConflict m.v2pMap addr.toNat size.toNat = false →
      m.p2vMap.get paddr.toNat = none
  | .registerUpdate addr paddr _ =>
    ∀ pa n, m.v2pMap.get addr.toNat = some (pa, n) → pa ≠ paddr.toNat →
      m.p2vMap.get paddr.toNat = none
  | .unregister _ => True
  | .unregisterAll => True

/-- What one call does to inverse maps. -/
theorem inverse_exec_iff {m : ShmemMaps} (h : Inverse m) (op : MapOp) :
    Inverse (op.exec m).2 ↔ op.KeyFree m := by
  cases op with
  | register addr paddr size =>
    simp only [MapOp.exec, MapOp.KeyFree]
    rcases fpgaShmemRegister_cases m addr.toNat paddr.toNat size.toNat with
      ⟨hs, hr⟩ | ⟨-, hc, hr⟩ | ⟨ha, hc, hr⟩
    · rw [hr]
      exact ⟨fun _ ha => by simp [ha] at hs, fun _ => h⟩
    · rw [hr]
      exact ⟨fun _ _ hc' => by simp [hc] at hc', fun _ => h⟩
    · rw [hr, inverse_set_iff h ha]
      exact ⟨fun hp _ _ => hp, fun hp => hp ha hc⟩
  | registerUpdate addr paddr size =>
    simp only [MapOp.exec, MapOp.KeyFree]
    rcases fpgaShmemRegisterUpdate_cases m addr.toNat paddr.toNat size.toNat with
      ⟨hb, hr⟩ | ⟨n, va, n', hv, hp, hr⟩ | ⟨pa, n, e, hv, hp, hne, hr⟩
    · rw [hr]
      refine ⟨fun _ pa n hv => ?_, fun _ => h⟩
      rw [hv, Option.bind_some, (h _ _ _).mp hv] at hb
      cases hb
    · rw [hr]
      obtain ⟨rfl, rfl⟩ : va = addr.toNat ∧ n' = n := by
        have := (h _ _ _).mp hv
        rw [hp] at this
        simpa using this
      refine ⟨fun _ pa k hk hne => absurd ?_ hne, fun _ => ?_⟩
      · rw [hv] at hk
        cases hk
        rfl
      · -- only the size changes: the entry taken out and put back
        have he := (inverse_set_iff (h.erase hv) (OrderedMap.get_erase_self _ _) size.toNat).mpr
          (OrderedMap.get_erase_self m.p2vMap paddr.toNat)
        simpa only [OrderedMap.set_erase] using he
    · rw [hr]
      have he : Inverse ⟨m.v2pMap.set addr.toNat (paddr.toNat, size.toNat),
          (m.p2vMap.erase pa).set paddr.toNat (addr.toNat, size.toNat)⟩ ↔
          (m.p2vMap.erase pa).get paddr.toNat = none := by
        rw [← inverse_set_iff (h.erase hv) (OrderedMap.get_erase_self _ _), OrderedMap.set_erase]
      rw [he, OrderedMap.get_erase_of_ne _ hne.symm]
      refine ⟨fun hk pa' n' _ _ => hk, fun hk => hk pa n hv hne⟩
  | unregister vaddr =>
    simp only [MapOp.exec, MapOp.KeyFree, iff_true]
    rcases fpgaShmemUnregister_cases m vaddr.toNat with ⟨-, hr⟩ | ⟨pa, n, hv, hr⟩
    · rwa [hr]
    · rw [hr]
      exact h.erase hv
  | unregisterAll => simpa [MapOp.exec, MapOp.KeyFree, fpgaShmemUnregisterAll] using inverse_empty

/-- **The maps are inverse to each other throughout a run exactly if no call of it
stores under a physical address in use.** -/
theorem always_inverse_iff (ops : List MapOp) :
    Always mapStep Inverse .empty ops ↔ Along mapStep MapOp.KeyFree .empty ops := by
  refine always_iff_along (fun m op t h hk ht => ?_) (fun _ h => h) (fun m op t h ht hi => ?_)
    inverse_empty ops
  · cases ht
    exact (inverse_exec_iff h op).mpr hk
  · cases ht
    exact (inverse_exec_iff h op).mp hi

/-- Two virtual addresses registered with one physical address. -/
theorem not_always_inverse :
    ¬ ∀ ops : List MapOp, Always mapStep Inverse .empty ops := by
  intro h
  have hk := (h [.register 0x1000 0x9000 0x100, .register 0x2000 0x9000 0x100]).last rfl
  have hnew := (hk 0x1000 0x9000 0x100).mp (by decide)
  revert hnew
  decide

/-! ### Disjoint regions -/

/-- The region a call is about to store, if it stores one, fits between its neighbours.
(`fpga_shmem_register` itself makes sure of the next one, as long as the end does not
leave 64 bits.) -/
def MapOp.Fits (m : ShmemMaps) : MapOp → Prop
  | .register addr _ size =>
    m.v2pMap.get addr.toNat = none → nextConflict m.v2pMap addr.toNat size.toNat = false →
      size = 0 ∨ NoneReaches m.v2pMap addr.toNat ∧
        (addr.toNat + size.toNat < 2 ^ 64 ∨
          NoneStarts m.v2pMap addr.toNat (addr.toNat + size.toNat))
  | .registerUpdate addr _ size =>
    ((m.v2pMap.get addr.toNat).bind fun e => m.p2vMap.get e.1).isSome →
      size = 0 ∨ NoneReaches m.v2pMap addr.toNat ∧
        NoneStarts m.v2pMap addr.toNat (addr.toNat + size.toNat)
  | .unregister _ => True
  | .unregisterAll => True

/-- The check against the next region is enough when the end does not wrap. -/
theorem noneStarts_of_nextConflict {v2p : RegionMap} {addr size : ℕ}
    (h : nextConflict v2p addr size = false) (hlt : addr + size < 2 ^ 64) :
    NoneStarts v2p addr (addr + size) := by
  intro k e hk hak
  have := nextConflict_eq_false.mp h k hak (by simp [hk])
  rw [Nat.mod_eq_of_lt hlt] at this
  exact .inr this

/-- What one call does to disjoint regions. -/
theorem regionsDisjoint_exec_iff {m : ShmemMaps} (h : RegionsDisjoint m.v2pMap) (op : MapOp) :
    RegionsDisjoint (op.exec m).2.v2pMap ↔ op.Fits m := by
  have hz : ∀ n : BitVec 64, n.toNat = 0 ↔ n = 0 := fun n => by
    rw [← BitVec.toNat_inj]
    rfl
  cases op with
  | register addr paddr size =>
    simp only [MapOp.exec, MapOp.Fits]
    rcases fpgaShmemRegister_cases m addr.toNat paddr.toNat size.toNat with
      ⟨hs, hr⟩ | ⟨-, hc, hr⟩ | ⟨ha, hc, hr⟩
    · rw [hr]
      exact ⟨fun _ ha => by simp [ha] at hs, fun _ => h⟩
    · rw [hr]
      exact ⟨fun _ _ hc' => by simp [hc] at hc', fun _ => h⟩
    · rw [hr, disjoint_set_iff h, hz]
      constructor
      · rintro hn - -
        rcases hn with hn | ⟨hb, hs⟩
        · exact .inl hn
        · exact .inr ⟨hb, .inr hs⟩
      · intro hn
        rcases hn ha hc with hn | ⟨hb, hs⟩
        · exact .inl hn
        · exact .inr ⟨hb, hs.elim (noneStarts_of_nextConflict hc) id⟩
  | registerUpdate addr paddr size =>
    simp only [MapOp.exec, MapOp.Fits]
    rcases fpgaShmemRegisterUpdate_cases m addr.toNat paddr.toNat size.toNat with
      ⟨hb, hr⟩ | ⟨n, va, n', hv, hp, hr⟩ | ⟨pa, n, e, hv, hp, hne, hr⟩
    · rw [hr, hb]
      exact ⟨fun _ hs => by simp at hs, fun _ => h⟩
    · rw [hr, disjoint_set_iff h, hz]
      simp [hv, hp]
    · rw [hr, disjoint_set_iff h, hz]
      simp [hv, hp]
  | unregister vaddr =>
    simp only [MapOp.exec, MapOp.Fits, iff_true]
    rcases fpgaShmemUnregister_cases m vaddr.toNat with ⟨-, hr⟩ | ⟨pa, n, hv, hr⟩
    · rwa [hr]
    · rw [hr]
      exact h.erase _
  | unregisterAll =>
    exact ⟨fun _ => trivial, fun _ => regionsDisjoint_empty⟩

/-- **The virtual regions are disjoint throughout a run exactly if every region it stores
fits between its neighbours; and no call that returns an error changes a map.** -/
theorem always_regionsDisjoint_iff (ops : List MapOp) :
    (Always mapStep (fun m => RegionsDisjoint m.v2pMap) .empty ops ↔
      Along mapStep MapOp.Fits .empty ops) ∧
    ∀ (m : ShmemMaps) (op : MapOp) e, (op.exec m).1 = .error e → (op.exec m).2 = m := by
  refine ⟨?_, fun m op e he => MapOp.exec_error he⟩
  refine always_iff_along (I := fun m : ShmemMaps => RegionsDisjoint m.v2pMap) (fun m op t h hf ht => ?_)
    (fun _ h => h) (fun m op t h ht hd => ?_) regionsDisjoint_empty ops
  · cases ht
    exact (regionsDisjoint_exec_iff h op).mpr hf
  · cases ht
    exact (regionsDisjoint_exec_iff h op).mp hd

/-- A region registered below another reaches into it, and the one below is not looked at. -/
theorem not_always_regionsDisjoint :
    ¬ ∀ ops : List MapOp, Always mapStep (fun m => RegionsDisjoint m.v2pMap) .empty ops := by
  intro h
  have hd := (h [.register 0x1000 0x9000 0x2000, .register 0x2000 0xA000 0x1000]).last rfl
  have h12 := hd 0x1000 0x2000 (0x9000, 0x2000) (0xA000, 0x1000) (by decide) (by decide) (by decide)
  revert h12
  rw [Set.Ico_disjoint_Ico]
  decide

end HardwareDrivers.Libfpga
