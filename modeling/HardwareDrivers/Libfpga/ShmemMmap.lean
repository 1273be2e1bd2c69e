import HardwareDrivers.Theory.RegionMap
import HardwareDrivers.Theory.Transition

/-!
# The address maps of the shared memory library

`libshmem_mmap.cpp` keeps two maps, from virtual to physical regions and back, and
translates an address by looking for the nearest lower key. Each function holds
`mmap_mutex` for its whole body, so each is one step here: it takes the pair of
maps to its return value and the new pair.

Addresses and sizes are natural numbers; where the source adds two 64-bit values
the sum is taken modulo `2 ^ 64`.
-/

namespace HardwareDrivers.Libfpga

open Theory

/-- The error codes of the library (`liblogging.h`); a function returns their negation. -/
inductive LibfpgaErr where
  | notInitialized | alreadyInitialized | alreadyAssigned | noDevices | fullElement
  | enqueueQuefull | dequeueTimeout | unavailableChid | alreadyActiveChid | connectorIdMismatch
  | funcChainIdMismatch | tableUpdateTimeout
  | callbackFunction | mismatchFilePrefix | notRegisteredSignal | connectionLost
  | invalidArgument | invalidAddress | invalidData | invalidParameter | invalidOperation
  | failureDeviceOpen | failureInitialize | failureEstablish | failureController
  | failureMemoryAlloc | failureOpen | failureRead | failureWrite | failureIoctl | failureMmap
  | failureBind | failureTransfer | failureSendSignal | failureRegisterSignal | failureFork
  | failureMkdir
  deriving DecidableEq, Repr

/-- `v2p_map` (`vaddr ↦ (paddr, size)`) and `p2v_map` (`paddr ↦ (vaddr, size)`). -/
@[ext]
structure ShmemMaps where
  /-- Virtual to physical. -/
  v2pMap : RegionMap
  /-- Physical to virtual. -/
  p2vMap : RegionMap

/-- Both maps empty, as they are at the start and after `fpga_shmem_unregister_all`. -/
def ShmemMaps.empty : ShmemMaps := ⟨.empty, .empty⟩

/-- The check of `fpga_shmem_register` on the entry after the new one: the end of the new
region, computed in 64 bits, is above the start of the next. -/
def nextConflict (v2p : RegionMap) (addr size : ℕ) : Bool :=
  match v2p.entryGT? addr with
  | none => false
  | some (next, _) => next < (addr + size) % 2 ^ 64

/-- `fpga_shmem_register`. -/
def fpgaShmemRegister (m : ShmemMaps) (addr paddr size : ℕ) : Except LibfpgaErr Unit × ShmemMaps :=
  match m.v2pMap.get addr with
  | some _ => (.ok (), m)
  | none =>
    let v2p := m.v2pMap.set addr (paddr, size)
    if nextConflict v2p addr size then
      (.error .invalidArgument, { m with v2pMap := v2p.erase addr })
    else (.ok (), ⟨v2p, m.p2vMap.set paddr (addr, size)⟩)

/-- `fpga_shmem_register_update`. -/
def fpgaShmemRegisterUpdate (m : ShmemMaps) (addr paddr size : ℕ) :
    Except LibfpgaErr Unit × ShmemMaps :=
  match m.v2pMap.get addr with
  | none => (.error .invalidArgument, m)
  | some (pa, _) =>
    match m.p2vMap.get pa with
    | none => (.error .invalidArgument, m)
    | some (va, _) =>
      if pa = paddr then (.ok (), ⟨m.v2pMap.set addr (pa, size), m.p2vMap.set pa (va, size)⟩)
      else
        (.ok (), ⟨m.v2pMap.set addr (paddr, size), (m.p2vMap.erase pa).set paddr (addr, size)⟩)

/-- `fpga_shmem_unregister`. (Erasing a key that is absent changes nothing, so the source's
test before the erasure in `p2v_map` is not repeated.) -/
def fpgaShmemUnregister (m : ShmemMaps) (vaddr : ℕ) : ShmemMaps :=
  match m.v2pMap.get vaddr with
  | none => m
  | some (pa, _) => ⟨m.v2pMap.erase vaddr, m.p2vMap.erase pa⟩

/-- `fpga_shmem_unregister_all`. -/
def fpgaShmemUnregisterAll (_ : ShmemMaps) : ShmemMaps := .empty

/-- `__fpga_shmem_register_check`: whether the nearest lower region contains `va`
(the source's `0`; `-1` otherwise). -/
def fpgaShmemRegisterCheck (m : ShmemMaps) (va : ℕ) : Bool :=
  match m.v2pMap.entryLE? va with
  | none => false
  | some (k, _, size) => va - k < size

/-- `__fpga_shmem_mmap_v2p`: the physical address of `va`, `0` if it is in no region, and the
length `*len` shortened to what is left of the region. -/
def fpgaShmemMmapV2p (m : ShmemMaps) (va len : ℕ) : ℕ × ℕ :=
  match m.v2pMap.entryLE? va with
  | none => (0, len)
  | some (k, pa, size) =>
    let offset := va - k
    if size ≤ offset then (0, len)
    else ((pa + offset) % 2 ^ 64, if size - offset < len then size - offset else len)

/-- `__fpga_shmem_mmap_p2v`: the virtual address of `pa64`, `0` (`NULL`) if it is in no region. -/
def fpgaShmemMmapP2v (m : ShmemMaps) (pa64 : ℕ) : ℕ :=
  match m.p2vMap.entryLE? pa64 with
  | none => 0
  | some (k, va, size) =>
    let offset := pa64 - k
    if size ≤ offset then 0 else (va + offset) % 2 ^ 64

/-- The calls that change the maps. -/
inductive MapOp where
  /-- `fpga_shmem_register(addr, paddr, size)`. -/
  | register (addr paddr size : BitVec 64)
  /-- `fpga_shmem_register_update(addr, paddr, size)`. -/
  | registerUpdate (addr paddr size : BitVec 64)
  /-- `fpga_shmem_unregister(vaddr)`. -/
  | unregister (vaddr : BitVec 64)
  /-- `fpga_shmem_unregister_all()`. -/
  | unregisterAll

/-- The return value of a call and the maps after it. -/
def MapOp.exec (m : ShmemMaps) : MapOp → Except LibfpgaErr Unit × ShmemMaps
  | .register addr paddr size => fpgaShmemRegister m addr.toNat paddr.toNat size.toNat
  | .registerUpdate addr paddr size => fpgaShmemRegisterUpdate m addr.toNat paddr.toNat size.toNat
  | .unregister vaddr => (.ok (), fpgaShmemUnregister m vaddr.toNat)
  | .unregisterAll => (.ok (), fpgaShmemUnregisterAll m)

/-- Every call can be made in every state. -/
def mapStep (m : ShmemMaps) (op : MapOp) : Option ShmemMaps := some (op.exec m).2

/-! ### What a call does -/

theorem nextConflict_set (v2p : RegionMap) (addr size : ℕ) (v : ℕ × ℕ) :
    nextConflict (v2p.set addr v) addr size = nextConflict v2p addr size := by
  simp only [nextConflict, OrderedMap.entryGT?_set]

theorem nextConflict_eq_false {v2p : RegionMap} {addr size : ℕ} :
    nextConflict v2p addr size = false ↔
      ∀ k, addr < k → (v2p.get k).isSome → (addr + size) % 2 ^ 64 ≤ k := by
  unfold nextConflict
  cases h : v2p.entryGT? addr with
  | none =>
    rw [OrderedMap.entryGT?_eq_none] at h
    simp only [true_iff]
    intro k hk hs
    rw [h k hk] at hs
    cases hs
  | some e =>
    obtain ⟨next, v⟩ := e
    obtain ⟨hget, hlt, hmin⟩ := OrderedMap.entryGT?_eq_some.mp h
    simp only [decide_eq_false_iff_not, Nat.not_lt]
    constructor
    · exact fun hle k hk hs => hle.trans (hmin k hk hs)
    · exact fun hall => hall next hlt (by simp [hget])

/-- `fpga_shmem_register` finds the address registered and does nothing, or refuses the
region because of the next one, or stores it in both maps. -/
theorem fpgaShmemRegister_cases (m : ShmemMaps) (addr paddr size : ℕ) :
    ((m.v2pMap.get addr).isSome ∧ fpgaShmemRegister m addr paddr size = (.ok (), m)) ∨
    (m.v2pMap.get addr = none ∧ nextConflict m.v2pMap addr size = true ∧
      fpgaShmemRegister m addr paddr size = (.error .invalidArgument, m)) ∨
    (m.v2pMap.get addr = none ∧ nextConflict m.v2pMap addr size = false ∧
      fpgaShmemRegister m addr paddr size =
        (.ok (), ⟨m.v2pMap.set addr (paddr, size), m.p2vMap.set paddr (addr, size)⟩)) := by
  cases h : m.v2pMap.get addr with
  | some v => exact .inl ⟨rfl, by simp [fpgaShmemRegister, h]⟩
  | none =>
    right
    cases hc : nextConflict m.v2pMap addr size with
    | true => simp [fpgaShmemRegister, h, nextConflict_set, hc, OrderedMap.erase_set h]
    | false => simp [fpgaShmemRegister, h, nextConflict_set, hc]

/-- `fpga_shmem_register_update` refuses an address without an entry in both maps, or changes
the size of both entries, or moves the entry to another physical address. -/
theorem fpgaShmemRegisterUpdate_cases (m : ShmemMaps) (addr paddr size : ℕ) :
    (((m.v2pMap.get addr).bind fun e => m.p2vMap.get e.1) = none ∧
      fpgaShmemRegisterUpdate m addr paddr size = (.error .invalidArgument, m)) ∨
    (∃ n va n', m.v2pMap.get addr = some (paddr, n) ∧ m.p2vMap.get paddr = some (va, n') ∧
      fpgaShmemRegisterUpdate m addr paddr size =
        (.ok (), ⟨m.v2pMap.set addr (paddr, size), m.p2vMap.set paddr (va, size)⟩)) ∨
    (∃ pa n e, m.v2pMap.get addr = some (pa, n) ∧ m.p2vMap.get pa = some e ∧ pa ≠ paddr ∧
      fpgaShmemRegisterUpdate m addr paddr size =
        (.ok (), ⟨m.v2pMap.set addr (paddr, size),
          (m.p2vMap.erase pa).set paddr (addr, size)⟩)) := by
  cases h : m.v2pMap.get addr with
  | none => exact .inl ⟨rfl, by simp [fpgaShmemRegisterUpdate, h]⟩
  | some e =>
    obtain ⟨pa, n⟩ := e
    cases h' : m.p2vMap.get pa with
    | none => exact .inl ⟨by simp [h'], by simp [fpgaShmemRegisterUpdate, h, h']⟩
    | some e' =>
      right
      by_cases hp : pa = paddr
      · subst hp
        exact .inl ⟨n, e'.1, e'.2, rfl, h', by simp [fpgaShmemRegisterUpdate, h, h']⟩
      · exact .inr ⟨pa, n, e', rfl, h', hp, by simp [fpgaShmemRegisterUpdate, h, h', hp]⟩

/-- `fpga_shmem_unregister` finds nothing and does nothing, or erases both entries. -/
theorem fpgaShmemUnregister_cases (m : ShmemMaps) (vaddr : ℕ) :
    (m.v2pMap.get vaddr = none ∧ fpgaShmemUnregister m vaddr = m) ∨
    (∃ pa n, m.v2pMap.get vaddr = some (pa, n) ∧
      fpgaShmemUnregister m vaddr = ⟨m.v2pMap.erase vaddr, m.p2vMap.erase pa⟩) := by
  cases h : m.v2pMap.get vaddr with
  | none => exact .inl ⟨rfl, by simp [fpgaShmemUnregister, h]⟩
  | some e => exact .inr ⟨e.1, e.2, rfl, by simp [fpgaShmemUnregister, h]⟩

/-- **A call that returns an error leaves both maps as they were.** -/
theorem MapOp.exec_error {m : ShmemMaps} {op : MapOp} {e : LibfpgaErr}
    (h : (op.exec m).1 = .error e) : (op.exec m).2 = m := by
  cases op with
  | register addr paddr size =>
    rcases fpgaShmemRegister_cases m addr.toNat paddr.toNat size.toNat with
      ⟨-, hr⟩ | ⟨-, -, hr⟩ | ⟨-, -, hr⟩ <;> simp_all [MapOp.exec]
  | registerUpdate addr paddr size =>
    rcases fpgaShmemRegisterUpdate_cases m addr.toNat paddr.toNat size.toNat with
      ⟨-, hr⟩ | ⟨n, va, n', -, -, hr⟩ | ⟨pa, n, e', -, -, -, hr⟩ <;> simp_all [MapOp.exec]
  | unregister vaddr => simp [MapOp.exec] at h
  | unregisterAll => simp [MapOp.exec] at h

/-! ### What a lookup finds -/

/-- `v2p` finds no region and leaves the length, or finds the nearest lower one, which
contains the address. -/
theorem fpgaShmemMmapV2p_cases (m : ShmemMaps) (va len : ℕ) :
    fpgaShmemMmapV2p m va len = (0, len) ∨
    ∃ k pa n, m.v2pMap.get k = some (pa, n) ∧ k ≤ va ∧ va < k + n ∧
      fpgaShmemMmapV2p m va len = ((pa + (va - k)) % 2 ^ 64, min len (n - (va - k))) := by
  unfold fpgaShmemMmapV2p
  cases h : m.v2pMap.entryLE? va with
  | none => exact .inl rfl
  | some e =>
    obtain ⟨k, pa, n⟩ := e
    obtain ⟨hk, hle, -⟩ := OrderedMap.entryLE?_eq_some.mp h
    simp only
    split_ifs with hoff hlen
    · exact .inl rfl
    · refine .inr ⟨k, pa, n, hk, hle, by omega, ?_⟩
      rw [Nat.min_eq_right (by omega)]
    · refine .inr ⟨k, pa, n, hk, hle, by omega, ?_⟩
      rw [Nat.min_eq_left (by omega)]

/-- With disjoint regions, none of them empty, `v2p` finds the region of an address. -/
theorem fpgaShmemMmapV2p_of_mem {m : ShmemMaps} (hd : RegionMap.RegionsDisjoint m.v2pMap)
    (hp : RegionMap.RegionsPos m.v2pMap) {k pa n va : ℕ} (hk : m.v2pMap.get k = some (pa, n))
    (hle : k ≤ va) (hlt : va < k + n) (len : ℕ) :
    fpgaShmemMmapV2p m va len = ((pa + (va - k)) % 2 ^ 64, min len (n - (va - k))) := by
  have hoff : ¬ n ≤ va - k := by omega
  simp only [fpgaShmemMmapV2p, RegionMap.entryLE?_of_mem hd hp hk hle hlt, if_neg hoff]
  congr 1
  split_ifs <;> omega

/-- With disjoint regions, none of them empty, `p2v` finds the region of an address. -/
theorem fpgaShmemMmapP2v_of_mem {m : ShmemMaps} (hd : RegionMap.RegionsDisjoint m.p2vMap)
    (hp : RegionMap.RegionsPos m.p2vMap) {k va n pa : ℕ} (hk : m.p2vMap.get k = some (va, n))
    (hle : k ≤ pa) (hlt : pa < k + n) :
    fpgaShmemMmapP2v m pa = (va + (pa - k)) % 2 ^ 64 := by
  have hoff : ¬ n ≤ pa - k := by omega
  simp only [fpgaShmemMmapP2v, RegionMap.entryLE?_of_mem hd hp hk hle hlt, if_neg hoff]

end HardwareDrivers.Libfpga
