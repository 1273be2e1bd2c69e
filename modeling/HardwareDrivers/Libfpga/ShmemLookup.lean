import HardwareDrivers.Libfpga.ShmemMmap
import HardwareDrivers.Theory.RegionLookup

/-!
# What the address lookups find

`__fpga_shmem_register_check`, `__fpga_shmem_mmap_v2p` and `__fpga_shmem_mmap_p2v` look
at one entry only, the one of the greatest key that is at most the address. The comment
in `fpga_shmem_register` asks for regions that do not overlap; what it compares is the
next key of `v2p_map`, and `fpga_shmem_register_update` compares nothing.

## What is proved

* `lookupsRight_iff` — in maps of 64-bit values the lookups are right exactly if the
  maps are legible.
* `always_lookupsRight_iff` — they are right throughout a run exactly if every call
  leaves legible what it changes.
-/

namespace HardwareDrivers.Libfpga

open Theory RegionMap

/-- The lookups find a region of every address that is in one, and only of those; and what
they return is what each entry with the address says. -/
structure LookupsRight (m : ShmemMaps) : Prop where
  /-- `__fpga_shmem_register_check`. -/
  check : ∀ va : BitVec 64, fpgaShmemRegisterCheck m va.toNat = true ↔ InRegion m.v2pMap va.toNat
  /-- `__fpga_shmem_mmap_v2p` returns an address. -/
  v2p_found : ∀ va len : BitVec 64,
    (fpgaShmemMmapV2p m va.toNat len.toNat).1 ≠ 0 ↔ InRegion m.v2pMap va.toNat
  /-- The address and the length are those of the entry. -/
  v2p_eq : ∀ (va len : BitVec 64) k e, m.v2pMap.get k = some e → Contains k e va.toNat →
    fpgaShmemMmapV2p m va.toNat len.toNat =
      (image (2 ^ 64) k e va.toNat, min len.toNat (e.2 - (va.toNat - k)))
  /-- `__fpga_shmem_mmap_p2v` returns an address. -/
  p2v_found : ∀ pa : BitVec 64, fpgaShmemMmapP2v m pa.toNat ≠ 0 ↔ InRegion m.p2vMap pa.toNat
  /-- The address is that of the entry. -/
  p2v_eq : ∀ (pa : BitVec 64) k e, m.p2vMap.get k = some e → Contains k e pa.toNat →
    fpgaShmemMmapP2v m pa.toNat = image (2 ^ 64) k e pa.toNat

/-- What the lookups need of the maps. -/
structure Legible (m : ShmemMaps) : Prop where
  /-- A virtual region inside another continues it and ends with it. -/
  v2p : Meshed (2 ^ 64) m.v2pMap
  /-- A physical region inside another continues it, to its end or to the next key. -/
  p2v : Chained (2 ^ 64) m.p2vMap
  /-- No virtual address has the physical address `0`, which says that there is none. -/
  v2p_zero : AvoidsZero (2 ^ 64) m.v2pMap
  /-- No physical address has the virtual address `NULL`. -/
  p2v_zero : AvoidsZero (2 ^ 64) m.p2vMap

/-- Every address and every size has 64 bits. -/
def Words (m : ShmemMaps) : Prop := Bounded (2 ^ 64) m.v2pMap ∧ Bounded (2 ^ 64) m.p2vMap

/-! ### The lookups by the entry they see -/

theorem fpgaShmemRegisterCheck_eq (m : ShmemMaps) (va : ℕ) :
    fpgaShmemRegisterCheck m va = (nearest m.v2pMap va).isSome := by
  unfold fpgaShmemRegisterCheck nearest
  cases m.v2pMap.entryLE? va with
  | none => rfl
  | some e => by_cases h : va - e.1 < e.2.2 <;> simp [h]

theorem fpgaShmemMmapV2p_of_none {m : ShmemMaps} {va : ℕ} (h : nearest m.v2pMap va = none)
    (len : ℕ) : fpgaShmemMmapV2p m va len = (0, len) := by
  unfold nearest at h
  unfold fpgaShmemMmapV2p
  cases hle : m.v2pMap.entryLE? va with
  | none => rfl
  | some e =>
    rw [hle] at h
    have hout : e.2.2 ≤ va - e.1 := by simpa using h
    simp only [if_pos hout]

theorem fpgaShmemMmapV2p_of_some {m : ShmemMaps} {va k : ℕ} {e : ℕ × ℕ}
    (h : nearest m.v2pMap va = some (k, e)) (len : ℕ) :
    fpgaShmemMmapV2p m va len = (image (2 ^ 64) k e va, min len (e.2 - (va - k))) := by
  obtain ⟨hk, ⟨hle, hlt⟩, hmax⟩ := nearest_eq_some.mp h
  have hentry : m.v2pMap.entryLE? va = some (k, e) :=
    OrderedMap.entryLE?_eq_some.mpr ⟨hk, hle, hmax⟩
  have hin : ¬ e.2 ≤ va - k := by omega
  simp only [fpgaShmemMmapV2p, hentry, if_neg hin]
  refine congrArg _ ?_
  split_ifs <;> omega

theorem fpgaShmemMmapP2v_of_none {m : ShmemMaps} {pa : ℕ} (h : nearest m.p2vMap pa = none) :
    fpgaShmemMmapP2v m pa = 0 := by
  unfold nearest at h
  unfold fpgaShmemMmapP2v
  cases hle : m.p2vMap.entryLE? pa with
  | none => rfl
  | some e =>
    rw [hle] at h
    have hout : e.2.2 ≤ pa - e.1 := by simpa using h
    simp only [if_pos hout]

theorem fpgaShmemMmapP2v_of_some {m : ShmemMaps} {pa k : ℕ} {e : ℕ × ℕ}
    (h : nearest m.p2vMap pa = some (k, e)) :
    fpgaShmemMmapP2v m pa = image (2 ^ 64) k e pa := by
  obtain ⟨hk, ⟨hle, hlt⟩, hmax⟩ := nearest_eq_some.mp h
  have hentry : m.p2vMap.entryLE? pa = some (k, e) :=
    OrderedMap.entryLE?_eq_some.mpr ⟨hk, hle, hmax⟩
  have hin : ¬ e.2 ≤ pa - k := by omega
  simp only [fpgaShmemMmapP2v, hentry, if_neg hin, image]

/-- What is found contains the address. -/
theorem inRegion_of_nearest {m : RegionMap} {a : ℕ} {p : ℕ × ℕ × ℕ} (h : nearest m a = some p) :
    InRegion m a := by
  obtain ⟨k, e⟩ := p
  obtain ⟨hk, hc, -⟩ := nearest_eq_some.mp h
  exact ⟨k, e, hk, hc⟩

/-- What the nearest entries of legible maps make the lookups return. -/
theorem Legible.lookupsRight {m : ShmemMaps} (hw : Words m) (h : Legible m) : LookupsRight m := by
  have hv2p : ∀ (va len : BitVec 64) k e, m.v2pMap.get k = some e → Contains k e va.toNat →
      fpgaShmemMmapV2p m va.toNat len.toNat =
        (image (2 ^ 64) k e va.toNat, min len.toNat (e.2 - (va.toNat - k))) := by
    intro va len k e hk hc
    obtain ⟨l, f, hn, hi, hend⟩ := (meshed_iff hw.1).mp h.v2p va.toNat va.isLt k e hk hc
    obtain ⟨-, ⟨hla, -⟩, -⟩ := nearest_eq_some.mp hn
    obtain ⟨hka, -⟩ := hc
    have hleft : f.2 - (va.toNat - l) = e.2 - (va.toNat - k) := by omega
    rw [fpgaShmemMmapV2p_of_some hn, hi, hleft]
  have hp2v : ∀ (pa : BitVec 64) k e, m.p2vMap.get k = some e → Contains k e pa.toNat →
      fpgaShmemMmapP2v m pa.toNat = image (2 ^ 64) k e pa.toNat := by
    intro pa k e hk hc
    obtain ⟨l, f, hn, hi⟩ := (chained_iff hw.2).mp h.p2v pa.toNat pa.isLt k e hk hc
    rw [fpgaShmemMmapP2v_of_some hn, hi]
  refine ⟨fun va => ?_, fun va len => ?_, hv2p, fun pa => ?_, hp2v⟩
  · rw [fpgaShmemRegisterCheck_eq, Option.isSome_iff_exists]
    refine ⟨fun ⟨p, hp⟩ => inRegion_of_nearest hp, fun ⟨k, e, hk, hc⟩ => ?_⟩
    obtain ⟨l, f, hn, -⟩ := (meshed_iff hw.1).mp h.v2p va.toNat va.isLt k e hk hc
    exact ⟨(l, f), hn⟩
  · constructor
    · intro hne
      cases hn : nearest m.v2pMap va.toNat with
      | none => exact absurd (by rw [fpgaShmemMmapV2p_of_none hn]) hne
      | some p => exact inRegion_of_nearest hn
    · rintro ⟨k, e, hk, hc⟩
      rw [hv2p va len k e hk hc]
      exact (avoidsZero_iff hw.1).mp h.v2p_zero va.toNat va.isLt k e hk hc
  · constructor
    · intro hne
      cases hn : nearest m.p2vMap pa.toNat with
      | none => exact absurd (fpgaShmemMmapP2v_of_none hn) hne
      | some p => exact inRegion_of_nearest hn
    · rintro ⟨k, e, hk, hc⟩
      rw [hp2v pa k e hk hc]
      exact (avoidsZero_iff hw.2).mp h.p2v_zero pa.toNat pa.isLt k e hk hc

/-- What lookups that are right say about the entries. -/
theorem LookupsRight.legible {m : ShmemMaps} (hw : Words m) (h : LookupsRight m) : Legible m := by
  refine ⟨(meshed_iff hw.1).mpr fun a ha k e hk hc => ?_,
    (chained_iff hw.2).mpr fun a ha k e hk hc => ?_,
    (avoidsZero_iff hw.1).mpr fun a ha k e hk hc => ?_,
    (avoidsZero_iff hw.2).mpr fun a ha k e hk hc => ?_⟩
  · -- the whole length is asked for
    have hfound := (h.check (BitVec.ofNatLT a ha)).mpr ⟨k, e, hk, hc⟩
    rw [fpgaShmemRegisterCheck_eq, Option.isSome_iff_exists] at hfound
    obtain ⟨⟨l, f⟩, hn⟩ := hfound
    rw [BitVec.toNat_ofNatLT] at hn
    have heq := h.v2p_eq (BitVec.ofNatLT a ha) (BitVec.ofNatLT (2 ^ 64 - 1) (by omega)) k e hk hc
    rw [BitVec.toNat_ofNatLT, BitVec.toNat_ofNatLT, fpgaShmemMmapV2p_of_some hn,
      Prod.mk.injEq] at heq
    obtain ⟨hi, hlen⟩ := heq
    refine ⟨l, f, hn, hi, ?_⟩
    obtain ⟨hl, ⟨hla, hlt⟩, -⟩ := nearest_eq_some.mp hn
    have hle := (hw.1 k e hk).2.2
    have hlf := (hw.1 l f hl).2.2
    obtain ⟨hka, hkt⟩ := hc
    omega
  · have hfound := (h.p2v_found (BitVec.ofNatLT a ha)).mpr ⟨k, e, hk, hc⟩
    have heq := h.p2v_eq (BitVec.ofNatLT a ha) k e hk hc
    rw [BitVec.toNat_ofNatLT] at hfound heq
    cases hn : nearest m.p2vMap a with
    | none => exact absurd (fpgaShmemMmapP2v_of_none hn) hfound
    | some p =>
      rw [fpgaShmemMmapP2v_of_some hn] at heq
      exact ⟨p.1, p.2, rfl, heq⟩
  · have hfound := (h.v2p_found (BitVec.ofNatLT a ha) 0).mpr ⟨k, e, hk, hc⟩
    have heq := h.v2p_eq (BitVec.ofNatLT a ha) 0 k e hk hc
    rw [heq] at hfound
    exact hfound
  · have hfound := (h.p2v_found (BitVec.ofNatLT a ha)).mpr ⟨k, e, hk, hc⟩
    rw [h.p2v_eq (BitVec.ofNatLT a ha) k e hk hc] at hfound
    exact hfound

/-- **When the lookups are right.** -/
theorem lookupsRight_iff {m : ShmemMaps} (hw : Words m) : LookupsRight m ↔ Legible m :=
  ⟨LookupsRight.legible hw, Legible.lookupsRight hw⟩

/-! ### Runs -/

theorem words_empty : Words .empty := ⟨bounded_empty, bounded_empty⟩

/-- A call stores 64-bit values. -/
theorem Words.exec {m : ShmemMaps} (h : Words m) (op : MapOp) : Words (op.exec m).2 := by
  obtain ⟨hv, hp⟩ := h
  cases op with
  | register addr paddr size =>
    simp only [MapOp.exec]
    rcases fpgaShmemRegister_cases m addr.toNat paddr.toNat size.toNat with
      ⟨-, hr⟩ | ⟨-, -, hr⟩ | ⟨-, -, hr⟩
    · rw [hr]
      exact ⟨hv, hp⟩
    · rw [hr]
      exact ⟨hv, hp⟩
    · rw [hr]
      exact ⟨hv.set addr.isLt paddr.isLt size.isLt, hp.set paddr.isLt addr.isLt size.isLt⟩
  | registerUpdate addr paddr size =>
    simp only [MapOp.exec]
    rcases fpgaShmemRegisterUpdate_cases m addr.toNat paddr.toNat size.toNat with
      ⟨-, hr⟩ | ⟨n, va, n', -, hva, hr⟩ | ⟨pa, n, e, -, -, -, hr⟩
    · rw [hr]
      exact ⟨hv, hp⟩
    · rw [hr]
      have hva' : va < 2 ^ 64 := (hp _ _ hva).2.1
      exact ⟨hv.set addr.isLt paddr.isLt size.isLt, hp.set paddr.isLt hva' size.isLt⟩
    · rw [hr]
      exact ⟨hv.set addr.isLt paddr.isLt size.isLt,
        (hp.erase _).set paddr.isLt addr.isLt size.isLt⟩
  | unregister vaddr =>
    simp only [MapOp.exec]
    rcases fpgaShmemUnregister_cases m vaddr.toNat with ⟨-, hr⟩ | ⟨pa, n, -, hr⟩
    · rw [hr]
      exact ⟨hv, hp⟩
    · rw [hr]
      exact ⟨hv.erase _, hp.erase _⟩
  | unregisterAll => exact words_empty

theorem legible_empty : Legible .empty := by
  refine ⟨?_, ?_, ?_, ?_⟩
  · intro k e l f hk
    cases hk
  · intro k e l f hk
    cases hk
  · intro k e hk
    cases hk
  · intro k e hk
    cases hk

/-- The call changes the maps only to legible ones: what it stores fits what is there, and
what it takes out of `p2v_map` was not the next key another region relied on. -/
def MapOp.LeavesLegible (m : ShmemMaps) : MapOp → Prop
  | .register addr paddr size =>
    m.v2pMap.get addr.toNat = none → nextConflict m.v2pMap addr.toNat size.toNat = false →
      Legible ⟨m.v2pMap.set addr.toNat (paddr.toNat, size.toNat),
        m.p2vMap.set paddr.toNat (addr.toNat, size.toNat)⟩
  | .registerUpdate addr paddr size =>
    ∀ pa n va n', m.v2pMap.get addr.toNat = some (pa, n) → m.p2vMap.get pa = some (va, n') →
      Legible ⟨m.v2pMap.set addr.toNat (paddr.toNat, size.toNat),
        if pa = paddr.toNat then m.p2vMap.set pa (va, size.toNat)
        else (m.p2vMap.erase pa).set paddr.toNat (addr.toNat, size.toNat)⟩
  | .unregister vaddr =>
    ∀ pa n, m.v2pMap.get vaddr.toNat = some (pa, n) → Chained (2 ^ 64) (m.p2vMap.erase pa)
  | .unregisterAll => True

/-- What one call does to legible maps. -/
theorem legible_exec_iff {m : ShmemMaps} (h : Legible m) (op : MapOp) :
    Legible (op.exec m).2 ↔ op.LeavesLegible m := by
  cases op with
  | register addr paddr size =>
    simp only [MapOp.exec, MapOp.LeavesLegible]
    rcases fpgaShmemRegister_cases m addr.toNat paddr.toNat size.toNat with
      ⟨hs, hr⟩ | ⟨-, hc, hr⟩ | ⟨ha, hc, hr⟩
    · rw [hr]
      exact ⟨fun _ ha => by simp [ha] at hs, fun _ => h⟩
    · rw [hr]
      exact ⟨fun _ _ hc' => by simp [hc] at hc', fun _ => h⟩
    · rw [hr]
      exact ⟨fun hl _ _ => hl, fun hl => hl ha hc⟩
  | registerUpdate addr paddr size =>
    simp only [MapOp.exec, MapOp.LeavesLegible]
    rcases fpgaShmemRegisterUpdate_cases m addr.toNat paddr.toNat size.toNat with
      ⟨hb, hr⟩ | ⟨n, va, n', hv, hp, hr⟩ | ⟨pa, n, e, hv, hp, hne, hr⟩
    · rw [hr]
      refine ⟨fun _ pa n va n' hv hp => ?_, fun _ => h⟩
      rw [hv, Option.bind_some, hp] at hb
      cases hb
    · rw [hr]
      constructor
      · intro hl pa k va' k' hv' hp'
        cases hv.symm.trans hv'
        cases hp.symm.trans hp'
        rwa [if_pos rfl]
      · intro hl
        have := hl _ _ _ _ hv hp
        rwa [if_pos rfl] at this
    · rw [hr]
      constructor
      · intro hl pa' k va' k' hv' hp'
        cases hv.symm.trans hv'
        rwa [if_neg hne]
      · intro hl
        have := hl pa n e.1 e.2 hv hp
        rwa [if_neg hne] at this
  | unregister vaddr =>
    simp only [MapOp.exec, MapOp.LeavesLegible]
    rcases fpgaShmemUnregister_cases m vaddr.toNat with ⟨hn, hr⟩ | ⟨pa, n, hv, hr⟩
    · rw [hr]
      exact ⟨fun _ pa n hv => by simp [hn] at hv, fun _ => h⟩
    · rw [hr]
      constructor
      · intro hl pa' n' hv'
        cases hv.symm.trans hv'
        exact hl.p2v
      · intro hl
        exact ⟨h.v2p.erase _, hl pa n hv, h.v2p_zero.erase _, h.p2v_zero.erase _⟩
  | unregisterAll => exact ⟨fun _ => trivial, fun _ => legible_empty⟩

/-- **The lookups are right throughout a run exactly if every call of it leaves legible
what it changes.** -/
theorem always_lookupsRight_iff (ops : List MapOp) :
    Always mapStep LookupsRight .empty ops ↔ Along mapStep MapOp.LeavesLegible .empty ops := by
  refine always_iff_along (I := fun m : ShmemMaps => Words m ∧ Legible m)
    (fun m op t h hl ht => ?_) (fun m h => (lookupsRight_iff h.1).mpr h.2)
    (fun m op t h ht hr => ?_) ⟨words_empty, legible_empty⟩ ops
  · cases ht
    exact ⟨h.1.exec op, (legible_exec_iff h.2 op).mpr hl⟩
  · cases ht
    exact (legible_exec_iff h.2 op).mp ((lookupsRight_iff (h.1.exec op)).mp hr)

/-- The second region starts inside the first and ends before it: the addresses of the first
behind the second are not found any more. -/
theorem not_always_lookupsRight :
    ¬ ∀ ops : List MapOp, Always mapStep LookupsRight .empty ops := by
  intro h
  have hr := (h [.register 0x1000 0x9000 0x3000, .register 0x2000 0xF000 0x1000]).last rfl
  have hfound := (hr.check 0x3000).mpr ⟨0x1000, (0x9000, 0x3000), by decide, by decide, by decide⟩
  revert hfound
  decide

end HardwareDrivers.Libfpga
