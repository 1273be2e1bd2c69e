import HardwareDrivers.Libfpga.Lldma

/-!
# What an address is translated to

The allocator registers a buffer as one region, from the physical address of its
first byte on and as long as the buffer is, and never looks at the pages after the
first. So the region stands for frames that may belong to another buffer, or to
nothing: the length check of the callers compares with the registered length, which
is the one asked for.

## What is proved

* `always_roundTrip_iff` — translating an address of a live buffer and back gives the
  address throughout a run exactly if every new buffer's physical region is apart from
  those of the live ones; then a completed command is reported with its own address.
* `contiguous_iff` — an accepted buffer is physically contiguous exactly if the pages it
  touches have consecutive frames.
-/

namespace HardwareDrivers.Libfpga

open Driver Theory RegionMap

variable {pm : PageMap} {s t : ShmemState} {align va length : ℕ}

/-! ### There and back -/

/-- The physical region that the maps give to a buffer. -/
def PageMap.region (pm : PageMap) (b : Buffer) : Buffer := ⟨pm.rteMemVirt2phy b.va, b.len⟩

/-- Every address of a live buffer is translated to a physical address that is translated back to
it. -/
def RoundTrip (s : ShmemState) : Prop :=
  ∀ b ∈ s.live, ∀ x, b.Contains x → ∀ len,
    fpgaShmemMmapP2v s.maps (fpgaShmemMmapV2p s.maps x len).1 = x

/-- If the call registers a buffer, its physical region does not wrap and is apart from the
physical regions of the live buffers. -/
def ShmemOp.PhysApart (pm : PageMap) (s : ShmemState) (op : ShmemOp) : Prop :=
  ∀ align va length, op.request = some (align, va, length) →
    pm.rteMemVirt2phy va + length ≤ 2 ^ 64 ∧
    ∀ b ∈ s.live, (pm.region b).Apart (pm.region ⟨va, length⟩)

/-- Both maps hold exactly the live buffers, whose physical regions are apart. -/
structure Clean (pm : PageMap) (s : ShmemState) : Prop extends Tracks pm s where
  /-- The entries of the physical map are the buffers. -/
  p2v : ∀ p va n, s.maps.p2vMap.get p = some (va, n) ↔ p = pm.rteMemVirt2phy va ∧ ⟨va, n⟩ ∈ s.live
  /-- No physical region wraps. -/
  phys_le : ∀ b ∈ s.live, pm.rteMemVirt2phy b.va + b.len ≤ 2 ^ 64
  /-- No two physical regions overlap. -/
  phys_apart : ∀ a ∈ s.live, ∀ b ∈ s.live, a ≠ b → (pm.region a).Apart (pm.region b)

theorem clean_init : Clean pm .init where
  toTracks := tracks_init
  p2v _ _ _ := ⟨nofun, fun h => by cases h.2⟩
  phys_le _ hb := by cases hb
  phys_apart _ ha := by cases ha

/-- In clean maps the physical regions are disjoint and not empty. -/
theorem Clean.p2v_regions (h : Clean pm s) :
    RegionsDisjoint s.maps.p2vMap ∧ RegionsPos s.maps.p2vMap := by
  constructor
  · intro k l e f hkl hk hl
    obtain ⟨hk, hek⟩ := (h.p2v _ _ _).mp hk
    obtain ⟨hl, hfl⟩ := (h.p2v _ _ _).mp hl
    have hne : (⟨e.1, e.2⟩ : Buffer) ≠ ⟨f.1, f.2⟩ := by
      rintro he
      rw [hk, hl, (Buffer.mk.inj he).1] at hkl
      exact hkl rfl
    have hap := h.phys_apart _ hek _ hfl hne
    rw [Set.Ico_disjoint_Ico]
    unfold Buffer.Apart PageMap.region at hap
    simp only [← hk, ← hl] at hap
    omega
  · intro k e hk
    exact h.pos _ ((h.p2v _ _ _).mp hk).2

theorem Clean.roundTrip (h : Clean pm s) : RoundTrip s := by
  intro b hb x hx len
  have hle := h.phys_le b hb
  have hva := h.le b hb
  obtain ⟨h1, h2⟩ := hx
  obtain ⟨hd, hp⟩ := h.p2v_regions
  have hget := (h.p2v _ _ _).mpr ⟨rfl, hb⟩
  rw [h.mmapV2p hb ⟨h1, h2⟩ len, Nat.mod_eq_of_lt (by omega),
    fpgaShmemMmapP2v_of_mem hd hp hget (by omega) (by omega)]
  rw [Nat.add_sub_cancel_left, Nat.add_sub_cancel' h1, Nat.mod_eq_of_lt (by omega)]

/-- Registering a buffer whose physical region is apart keeps the maps clean. -/
theorem Clean.add (h : Clean pm s) (hm : MayMalloc s.live align va length)
    (hp : pm.rteMemVirt2phy va ≠ 0) (hle : pm.rteMemVirt2phy va + length ≤ 2 ^ 64)
    (hap : ∀ b ∈ s.live, (pm.region b).Apart (pm.region ⟨va, length⟩)) :
    Clean pm (s.add pm ⟨va, length⟩) where
  toTracks := h.toTracks.add hm hp
  p2v p va' n := by
    simp only [ShmemState.add, OrderedMap.get_set, List.mem_cons, Buffer.mk.injEq]
    split_ifs with hk
    · -- nothing live has this physical address already
      have hnot : ∀ b ∈ s.live, pm.rteMemVirt2phy b.va ≠ pm.rteMemVirt2phy va := by
        intro b hb he
        have hpos := h.pos b hb
        have hlen := hm.1
        have := hap b hb
        unfold Buffer.Apart PageMap.region at this
        simp only [he] at this
        omega
      constructor
      · intro he
        cases he
        exact ⟨hk, .inl ⟨rfl, rfl⟩⟩
      · rintro ⟨hq, ⟨rfl, rfl⟩ | hb⟩
        · rfl
        · exact absurd (hq.symm.trans hk) (hnot _ hb)
    · rw [h.p2v]
      constructor
      · rintro ⟨rfl, hb⟩
        exact ⟨rfl, .inr hb⟩
      · rintro ⟨rfl, ⟨rfl, -⟩ | hb⟩
        · exact absurd rfl hk
        · exact ⟨rfl, hb⟩
  phys_le b hb := by
    rcases List.mem_cons.mp hb with rfl | hb
    · exact hle
    · exact h.phys_le b hb
  phys_apart a ha b hb hab := by
    rcases List.mem_cons.mp ha with rfl | ha
    · rcases List.mem_cons.mp hb with rfl | hb
      · exact absurd rfl hab
      · exact (hap b hb).symm
    · rcases List.mem_cons.mp hb with rfl | hb
      · exact hap a ha
      · exact h.phys_apart a ha b hb hab

/-- Releasing a buffer keeps the maps clean. -/
theorem Clean.free (h : Clean pm s) (addr : ℕ) : Clean pm (fpgaShmemFree s addr) := by
  have hmem : ∀ b, b ∈ (fpgaShmemFree s addr).live ↔ b ∈ s.live ∧ b.va ≠ addr := by
    intro b
    simp [fpgaShmemFree, List.mem_filter]
  refine ⟨h.toTracks.free addr, fun p va n => ?_, fun b hb => h.phys_le b ((hmem b).mp hb).1,
    fun a ha b hb => h.phys_apart a ((hmem a).mp ha).1 b ((hmem b).mp hb).1⟩
  rw [hmem]
  show (fpgaShmemUnregister s.maps addr).p2vMap.get p = some (va, n) ↔ _
  rcases fpgaShmemUnregister_cases s.maps addr with ⟨hn, hr⟩ | ⟨pa, n', hs, hr⟩
  · rw [hr, h.p2v]
    constructor
    · rintro ⟨rfl, hb⟩
      refine ⟨rfl, hb, ?_⟩
      rintro rfl
      rw [(h.v2p _ _ _).mpr ⟨rfl, hb⟩] at hn
      cases hn
    · rintro ⟨rfl, hb, -⟩
      exact ⟨rfl, hb⟩
  · obtain ⟨rfl, ha⟩ := (h.v2p _ _ _).mp hs
    rw [hr]
    simp only [OrderedMap.get_erase]
    split_ifs with hk
    · -- the erased entry is the only one of a buffer that starts at `addr`
      simp only [false_iff, not_and]
      rintro rfl hb hne
      have hap := h.phys_apart _ hb _ ha (fun he => hne (Buffer.mk.inj he).1)
      have hpos := h.pos _ hb
      have hpos' := h.pos _ ha
      unfold Buffer.Apart PageMap.region at hap
      simp only [hk] at hap hpos hpos'
      omega
    · rw [h.p2v]
      constructor
      · rintro ⟨rfl, hb⟩
        refine ⟨rfl, hb, ?_⟩
        rintro rfl
        exact hk rfl
      · rintro ⟨rfl, hb, -⟩
        exact ⟨rfl, hb⟩

/-- A call that meets the condition keeps the maps clean. -/
theorem Clean.step {op : ShmemOp} (h : Clean pm s) (hc : op.PhysApart pm s)
    (ht : shmemStep pm s op = some t) : Clean pm t := by
  rcases h.step_cases ht with ⟨-, rfl⟩ | ⟨align, va, length, hr, hm, hp, rfl⟩ | ⟨addr, -, rfl⟩
  · exact h
  · obtain ⟨hle, hap⟩ := hc align va length hr
    exact h.add hm hp hle hap
  · exact h.free addr

/-- **Round trips need physical regions that are apart**: two addresses with one translation
cannot both come back. -/
theorem Clean.physApart {op : ShmemOp} (h : Clean pm s) (ht : shmemStep pm s op = some t)
    (hrt : RoundTrip t) : op.PhysApart pm s := by
  intro align va length hreq
  rcases h.step_cases ht with ⟨hr, -⟩ | ⟨align', va', length', hr, hm, hp, rfl⟩ | ⟨addr, rfl, -⟩
  · rw [hr] at hreq
    cases hreq
  · rw [hr] at hreq
    cases hreq
    have hT := h.toTracks.add hm hp
    have hnew : (⟨va, length⟩ : Buffer) ∈ (s.add pm ⟨va, length⟩).live := List.mem_cons_self
    have hlt := pm.rteMemVirt2phy_lt va
    constructor
    · -- past the end of the physical address space comes the address `0`, which is nobody's
      by_contra hwrap
      have hx : (⟨va, length⟩ : Buffer).Contains (va + (2 ^ 64 - pm.rteMemVirt2phy va)) :=
        ⟨by simp only; omega, by simp only; omega⟩
      have hback := hrt _ hnew _ hx 0
      rw [hT.mmapV2p hnew hx] at hback
      simp only [Nat.add_sub_cancel_left, Nat.add_sub_cancel' hlt.le, Nat.mod_self] at hback
      have hnone : (s.add pm ⟨va, length⟩).maps.p2vMap.entryLE? 0 = none := by
        refine OrderedMap.entryLE?_eq_none.mpr fun a ha => ?_
        obtain rfl := Nat.le_zero.mp ha
        simp only [ShmemState.add]
        rw [OrderedMap.get_set_of_ne _ hp.symm]
        by_contra hne
        obtain ⟨e, he⟩ := Option.ne_none_iff_exists'.mp hne
        obtain ⟨h0, hb⟩ := (h.p2v _ _ _).mp he
        exact h.phys_ne _ hb h0.symm
      simp only [fpgaShmemMmapP2v, hnone] at hback
      have := hm.2.1
      omega
    · -- a common physical address would be the translation of two virtual ones
      intro b hb
      by_contra hover
      unfold Buffer.Apart PageMap.region at hover
      simp only [not_or, Nat.not_le] at hover
      obtain ⟨i, j, hi, hj, hij⟩ : ∃ i j, i < length ∧ j < b.len ∧
          pm.rteMemVirt2phy va + i = pm.rteMemVirt2phy b.va + j := by
        refine ⟨pm.rteMemVirt2phy b.va - pm.rteMemVirt2phy va,
          pm.rteMemVirt2phy va - pm.rteMemVirt2phy b.va, ?_, ?_, ?_⟩
        · have := hm.1
          omega
        · have := h.pos b hb
          omega
        · omega
      have hold : b ∈ (s.add pm ⟨va, length⟩).live := List.mem_cons_of_mem _ hb
      have hxi : (⟨va, length⟩ : Buffer).Contains (va + i) := ⟨by simp, by simpa using hi⟩
      have hxj : b.Contains (b.va + j) := ⟨by simp, by simpa using hj⟩
      have hback := hrt _ hnew _ hxi 0
      have hback' := hrt _ hold _ hxj 0
      rw [hT.mmapV2p hnew hxi] at hback
      rw [hT.mmapV2p hold hxj] at hback'
      simp only [Nat.add_sub_cancel_left] at hback hback'
      rw [hij, hback'] at hback
      have hap := hm.2.2.2.2 b hb
      unfold Buffer.Apart at hap
      simp only at hap
      omega
  · cases hreq

/-- A completed command is reported with the address that was enqueued, if the buffer is live at
both moments. -/
theorem Clean.dequeue_eq (h : Tracks pm s) (h' : Clean pm t) {q q' deq deq' : FpgaQueue}
    {cmd cmd' c c' : DmacmdInfo} (henq : fpgaEnqueue pm s.maps q cmd = (.ok cmd', q')) {b : Buffer}
    (hb : b ∈ s.live) (hb' : b ∈ t.live) (hx : b.Contains cmd.dataAddr)
    (hdesc : (deq.ring deq.readhead).addr = (q'.ring cmd'.descAddr).addr)
    (hdeq : dequeuePass t.maps deq c = some (c', deq')) : c'.resultDataAddr = cmd.dataAddr := by
  rcases enqueueWith_cases pm s.maps q cmd .virtAddrWithCheck with
    ⟨e, -, hr⟩ | ⟨pa, hpa, ⟨-, hr⟩ | ⟨-, hr⟩⟩
  · rw [fpgaEnqueue, hr] at henq
    cases henq
  · rw [fpgaEnqueue, hr] at henq
    cases henq
  · rw [fpgaEnqueue, hr] at henq
    cases henq
    obtain ⟨-, -, hpa0, -, hdma⟩ := enqueueAddr_ok hpa
    have hv2p : fpgaShmemMmapV2p s.maps cmd.dataAddr cmd.dataLen = (pa, cmd.dataLen) := by
      rw [← dmaPaFromVa_eq (by rw [hdma]; exact hpa0), hdma]
    have haddr : (deq.ring deq.readhead).addr = pa := by
      rw [hdesc]
      simp [FpgaDesc.fill]
    -- the buffer has the same translation now as it had then
    have hnow : (fpgaShmemMmapV2p t.maps cmd.dataAddr cmd.dataLen).1 = pa := by
      rw [h'.mmapV2p hb' hx, ← h.mmapV2p hb hx cmd.dataLen, hv2p]
    have hback := h'.roundTrip b hb' _ hx cmd.dataLen
    rw [hnow] at hback
    simp only [dequeuePass] at hdeq
    split_ifs at hdeq
    cases hdeq
    simp only [DmacmdInfo.report, haddr, if_neg hpa0]
    exact hback

/-- **Translation there and back.** It gives every address of a live buffer back throughout a run
exactly if every new buffer's physical region is apart from those of the live buffers. In such a
run a completed command is reported with the address that was enqueued. -/
theorem always_roundTrip_iff (pm : PageMap) :
    (∀ ops, Always (shmemStep pm) RoundTrip .init ops ↔
      Along (shmemStep pm) (fun s op => op.PhysApart pm s) .init ops) ∧
    ∀ ops ops' s t, Along (shmemStep pm) (fun s op => op.PhysApart pm s) .init (ops ++ ops') →
      run (shmemStep pm) .init ops = some s → run (shmemStep pm) s ops' = some t →
      ∀ q q' cmd cmd', fpgaEnqueue pm s.maps q cmd = (.ok cmd', q') →
      ∀ b ∈ s.live, b ∈ t.live → b.Contains cmd.dataAddr →
      ∀ deq deq' c c', (deq.ring deq.readhead).addr = (q'.ring cmd'.descAddr).addr →
        dequeuePass t.maps deq c = some (c', deq') → c'.resultDataAddr = cmd.dataAddr := by
  have hstep : ∀ (s : ShmemState) (op : ShmemOp) t, Clean pm s → op.PhysApart pm s →
      shmemStep pm s op = some t → Clean pm t := fun _ _ _ h hc ht => h.step hc ht
  constructor
  · exact always_iff_along hstep (fun _ h => h.roundTrip) (fun _ _ _ h ht hrt => h.physApart ht hrt)
      clean_init
  · intro ops ops' s t hC hs ht q q' cmd cmd' henq b hb hb' hx deq deq' c c' hdesc hdeq
    have hclean : Clean pm t :=
      (always_of_along hstep clean_init hC).last (run_trans hs ht)
    exact Clean.dequeue_eq (tracks_run hs) hclean henq hb hb' hx hdesc hdeq

/-- A buffer across two pages whose frames are apart, and one in the frame that the first only
seems to go on into. -/
theorem not_always_roundTrip :
    ¬ ∀ (pm : PageMap), Set.InjOn pm.frame (Set.Iio pm.frames) →
      ∀ ops, Always (shmemStep pm) RoundTrip .init ops := by
  intro h
  have hinj : Set.InjOn PageMap.swapped.frame (Set.Iio PageMap.swapped.frames) := by
    intro a ha b hb hab
    have ha' : a < 2 ^ 34 := ha
    have hb' : b < 2 ^ 34 := hb
    simp only [PageMap.swapped, Nat.mod_eq_of_lt ha', Nat.mod_eq_of_lt hb'] at hab
    split_ifs at hab <;> omega
  -- the first buffer goes on from page 2 into page 3, its region from frame 2 into frame 3
  have hfirst : shmemStep .swapped .init (.alignedAlloc 2048 (some (3 * 2 ^ 30 - 1024)) true) = _ :=
    tracks_init.alignedAlloc (by decide) (by decide)
  have hclean := clean_init.step (fun _ _ _ hr => by cases hr; exact ⟨by decide, nofun⟩) hfirst
  have hsecond : shmemStep .swapped _ (.alignedAlloc 1024 (some (9 * 2 ^ 30)) true) = _ :=
    hclean.alignedAlloc (by decide) (by decide)
  have hrun := h .swapped hinj [.alignedAlloc 2048 (some (3 * 2 ^ 30 - 1024)) true,
    .alignedAlloc 1024 (some (9 * 2 ^ 30)) true]
  have hrt := hrun.last (run_cons_eq_some.mpr ⟨_, hfirst, run_cons_eq_some.mpr ⟨_, hsecond, rfl⟩⟩)
  have hap := (hclean.physApart hsecond hrt 1024 (9 * 2 ^ 30) 1024 rfl).2 _ List.mem_cons_self
  revert hap
  decide

/-! ### Contiguity -/

/-- The address that the library hands to the hardware for `len` bytes from `x` on: in the
descriptor that `fpga_enqueue` fills in, or as the connection buffer. -/
def GivenToHardware (pm : PageMap) (m : ShmemMaps) (x len pa : ℕ) : Prop :=
  (∃ q q' cmd cmd', fpgaEnqueue pm m q cmd = (.ok cmd', q') ∧ cmd.dataAddr = x ∧ cmd.dataLen = len ∧
    (q'.ring cmd'.descAddr).addr = pa) ∨
  fpgaLldmaCheckBufValid m x len = .ok pa

/-- The pages of `len` bytes from `x` on have the frames that follow the frame of `base`. -/
def PageMap.Consecutive (pm : PageMap) (base x len : ℕ) : Prop :=
  ∀ page, x / pm.pageSize ≤ page → page ≤ (x + len - 1) / pm.pageSize →
    pm.frame page = (pm.frame (base / pm.pageSize) + (page - base / pm.pageSize)) % pm.frames

/-- What is given to the hardware was found in the maps, with its whole length. -/
theorem GivenToHardware.mmapV2p {m : ShmemMaps} {x len pa : ℕ} (h : GivenToHardware pm m x len pa) :
    0 < len ∧ pa ≠ 0 ∧ fpgaShmemMmapV2p m x len = (pa, len) := by
  have hfound : ∀ {n : ℕ}, 0 < n → n ≤ len → pa ≠ 0 → dmaPaFromVa m x len = (pa, len) →
      0 < len ∧ pa ≠ 0 ∧ fpgaShmemMmapV2p m x len = (pa, len) := by
    intro n hn hle hpa hdma
    exact ⟨by omega, hpa, by rw [← dmaPaFromVa_eq (by rw [hdma]; exact hpa), hdma]⟩
  rcases h with ⟨q, q', cmd, cmd', henq, rfl, rfl, rfl⟩ | h
  · rcases enqueueWith_cases pm m q cmd .virtAddrWithCheck with
      ⟨e, -, hr⟩ | ⟨pa, hpa, ⟨-, hr⟩ | ⟨-, hr⟩⟩
    · rw [fpgaEnqueue, hr] at henq
      cases henq
    · rw [fpgaEnqueue, hr] at henq
      cases henq
    · rw [fpgaEnqueue, hr] at henq
      cases henq
      obtain ⟨hlen, -, hpa0, -, hdma⟩ := enqueueAddr_ok hpa
      have haddr : (Function.update q.ring q.writehead
          (FpgaDesc.fill (q.ring q.writehead) cmd pa) q.writehead).addr = pa := by
        simp [FpgaDesc.fill]
      rw [haddr] at hfound ⊢
      exact hfound (by decide) hlen hpa0 hdma
  · obtain ⟨hlen, hpa0, -, hdma⟩ := fpgaLldmaCheckBufValid_ok h
    exact hfound (by decide) hlen hpa0 hdma

/-- The remainder of a page number and an offset. -/
theorem PageMap.mul_add_mod (pm : PageMap) (a : ℕ) {r : ℕ} (hr : r < pm.pageSize) :
    (a * pm.pageSize + r) % 2 ^ 64 = a % pm.frames * pm.pageSize + r := by
  have hpos : 0 < pm.frames := Nat.lt_of_le_of_lt (Nat.zero_le _) (pm.frame_lt 0)
  have hlt : a % pm.frames * pm.pageSize + r < pm.frames * pm.pageSize := by
    have hmul := Nat.mul_le_mul_right pm.pageSize (Nat.mod_lt a hpos)
    rw [Nat.succ_mul] at hmul
    omega
  have hdecomp : a * pm.pageSize + r =
      a % pm.frames * pm.pageSize + r + pm.frames * pm.pageSize * (a / pm.frames) := by
    conv_lhs => rw [← Nat.mod_add_div a pm.frames]
    rw [Nat.add_mul, Nat.mul_right_comm]
    omega
  rw [← pm.mul_eq, Nat.mul_comm pm.pageSize, hdecomp, Nat.add_mul_mod_self_left,
    Nat.mod_eq_of_lt hlt]

/-- An address of a buffer is where the region of the buffer puts it exactly if its page has the
frame that follows. -/
theorem PageMap.virt2phy_eq_iff (pm : PageMap) {base y : ℕ} (hy : base ≤ y) :
    pm.rteMemVirt2phy y = (pm.rteMemVirt2phy base + (y - base)) % 2 ^ 64 ↔
      pm.frame (y / pm.pageSize) =
        (pm.frame (base / pm.pageSize) + (y / pm.pageSize - base / pm.pageSize)) % pm.frames := by
  have hpos : 0 < pm.pageSize := Nat.pos_of_ne_zero fun h => by
    have := pm.mul_eq
    simp [h] at this
  have hdiv : base / pm.pageSize ≤ y / pm.pageSize := Nat.div_le_div_right hy
  have hsum : pm.rteMemVirt2phy base + (y - base) =
      (pm.frame (base / pm.pageSize) + (y / pm.pageSize - base / pm.pageSize)) * pm.pageSize +
        y % pm.pageSize := by
    have hb := Nat.div_add_mod' base pm.pageSize
    have hy' := Nat.div_add_mod' y pm.pageSize
    have hmul := Nat.mul_le_mul_right pm.pageSize hdiv
    rw [PageMap.rteMemVirt2phy, Nat.add_mul, Nat.sub_mul]
    omega
  rw [hsum, pm.mul_add_mod _ (Nat.mod_lt y hpos), PageMap.rteMemVirt2phy]
  constructor
  · intro h
    exact Nat.eq_of_mul_eq_mul_right hpos (by omega)
  · intro h
    rw [h]

/-- **Contiguity.** What is given to the hardware lies in a live buffer, and its bytes follow each
other physically exactly if the pages it touches have the frames that follow the frame of the
buffer's first page. -/
theorem contiguous_iff (pm : PageMap) (ops : List ShmemOp) (s : ShmemState)
    (hs : run (shmemStep pm) .init ops = some s) (x len pa : ℕ)
    (h : GivenToHardware pm s.maps x len pa) :
    ∃ b ∈ s.live, b.va ≤ x ∧ x + len ≤ b.va + b.len ∧
      ((∀ i < len, pm.rteMemVirt2phy (x + i) = (pa + i) % 2 ^ 64) ↔ pm.Consecutive b.va x len) := by
  have hT := tracks_run hs
  obtain ⟨hlen, hpa, hv⟩ := h.mmapV2p
  obtain ⟨b, hb, hx⟩ := hT.exists_contains x len (by rw [hv]; exact hpa)
  have hmap := hT.mmapV2p hb hx len
  rw [hv, Prod.mk.injEq] at hmap
  obtain ⟨hpa', hmin⟩ := hmap
  obtain ⟨hle, hlt⟩ := hx
  refine ⟨b, hb, hle, by omega, ?_⟩
  have hbyte : ∀ i, (pm.rteMemVirt2phy (x + i) = (pa + i) % 2 ^ 64 ↔
      pm.frame ((x + i) / pm.pageSize) = (pm.frame (b.va / pm.pageSize) +
        ((x + i) / pm.pageSize - b.va / pm.pageSize)) % pm.frames) := by
    intro i
    rw [← pm.virt2phy_eq_iff (by omega), hpa', Nat.mod_add_mod]
    have hoff : pm.rteMemVirt2phy b.va + (x - b.va) + i =
        pm.rteMemVirt2phy b.va + (x + i - b.va) := by omega
    rw [hoff]
  have hpos : 0 < pm.pageSize := Nat.pos_of_ne_zero fun h => by
    have := pm.mul_eq
    simp [h] at this
  constructor
  · intro hc page hlo hhi
    -- a byte of the page: its first one, or `x` in the page of `x`
    have hdm := Nat.div_mul_le_self (x + len - 1) pm.pageSize
    have hmul := Nat.mul_le_mul_right pm.pageSize hhi
    rcases Nat.lt_or_ge x (page * pm.pageSize) with hlt' | hge
    · have hi := (hbyte (page * pm.pageSize - x)).mp (hc _ (by omega))
      rwa [Nat.add_sub_cancel' hlt'.le, Nat.mul_div_cancel _ hpos] at hi
    · have hpage : x / pm.pageSize = page :=
        Nat.le_antisymm hlo ((Nat.le_div_iff_mul_le hpos).mpr hge)
      have hi := (hbyte 0).mp (hc 0 hlen)
      rwa [Nat.add_zero, hpage] at hi
  · intro hc i hi
    exact (hbyte i).mpr (hc _ (Nat.div_le_div_right (by omega)) (Nat.div_le_div_right (by omega)))

/-- One buffer in one page, accepted as a connection buffer. -/
theorem contiguous_iff_flat :
    ∃ s b, run (shmemStep .flat) .init [.alignedAlloc 4096 (some (2 ^ 30)) true] = some s ∧
      GivenToHardware .flat s.maps (2 ^ 30) 4096 (2 ^ 30) ∧ b ∈ s.live ∧
      ((∀ i < 4096, PageMap.flat.rteMemVirt2phy (2 ^ 30 + i) = (2 ^ 30 + i) % 2 ^ 64) ↔
        PageMap.flat.Consecutive b.va (2 ^ 30) 4096) := by
  have hstep : shmemStep .flat .init (.alignedAlloc 4096 (some (2 ^ 30)) true) = _ :=
    tracks_init.alignedAlloc (by decide) (by decide)
  have hrun : run (shmemStep .flat) .init [.alignedAlloc 4096 (some (2 ^ 30)) true] =
      some (ShmemState.init.add .flat ⟨2 ^ 30, 4096⟩) := run_cons_eq_some.mpr ⟨_, hstep, rfl⟩
  have hgiven : GivenToHardware .flat (ShmemState.init.add .flat ⟨2 ^ 30, 4096⟩).maps
      (2 ^ 30) 4096 (2 ^ 30) := .inr (by decide)
  obtain ⟨b, hb, -, -, hiff⟩ := contiguous_iff .flat _ _ hrun _ _ _ hgiven
  exact ⟨_, b, hrun, hgiven, hb, hiff⟩

/-- A buffer across two pages whose frames are apart. -/
theorem not_contiguous :
    ¬ ∀ (pm : PageMap) (ops : List ShmemOp) (s : ShmemState),
      run (shmemStep pm) .init ops = some s → ∀ x len pa, GivenToHardware pm s.maps x len pa →
        ∀ i < len, pm.rteMemVirt2phy (x + i) = (pa + i) % 2 ^ 64 := by
  intro h
  have hstep : shmemStep .swapped .init (.alignedAlloc 4096 (some (3 * 2 ^ 30 - 1024)) true) = _ :=
    tracks_init.alignedAlloc (by decide) (by decide)
  have hrun : run (shmemStep .swapped) .init [.alignedAlloc 4096 (some (3 * 2 ^ 30 - 1024)) true] =
      some (ShmemState.init.add .swapped ⟨3 * 2 ^ 30 - 1024, 4096⟩) :=
    run_cons_eq_some.mpr ⟨_, hstep, rfl⟩
  have hgiven : GivenToHardware .swapped
      (ShmemState.init.add .swapped ⟨3 * 2 ^ 30 - 1024, 4096⟩).maps
      (3 * 2 ^ 30 - 1024) 4096 (3 * 2 ^ 30 - 1024) := .inr (by decide)
  have hbyte := h .swapped _ _ hrun _ _ _ hgiven 1024 (by decide)
  revert hbyte
  decide

end HardwareDrivers.Libfpga
