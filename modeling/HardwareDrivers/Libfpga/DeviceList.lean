import HardwareDrivers.Libfpga.DeviceOpen
import HardwareDrivers.Theory.Ledger

/-!
# The list of the devices

`fpga_get_device_list` allocates a block for a pointer for each device and one byte more, and stores a
copy of each name in it. `fpga_release_device_list` frees what the pointers in the block point to, up
to the first that is `NULL`. There is such a pointer inside the block only if `devices_num` counts more
devices than are open.

Allocations are numbered. Of a block only the pointers are modelled that lie completely inside: to read
or write another one is a fault.

## What is proved

* `counted_of_run` — what `devices_num` counts too much.
* `copyNames_stored` — the loop stores the names in the order of the table.
* `deviceListRight_iff` — when the list ends inside the block.
-/

namespace HardwareDrivers.Libfpga

open Theory

/-! ### Memory -/

/-- What the language does not define. -/
inductive ListFault where
  /-- A pointer that is not completely inside the block is read or written. -/
  | outside
  deriving DecidableEq

/-- The allocations, and the strings in them. -/
structure StringHeap where
  /-- The allocations. -/
  ledger : Ledger
  /-- The strings. -/
  strings : ℕ → CString

/-- A block of pointers. -/
structure PointerBlock where
  /-- Its allocation. -/
  block : ℕ
  /-- The pointers that are completely inside; `NULL` is `none`. -/
  pointers : List (Option ℕ)

/-- `strdup`. -/
def StringHeap.strdup (h : StringHeap) (string : CString) : StringHeap :=
  ⟨h.ledger.acquire, Function.update h.strings h.ledger.next string⟩

/-- `free`. -/
def StringHeap.free (h : StringHeap) (p : ℕ) : StringHeap :=
  { h with ledger := h.ledger.release p }

/-- `malloc`. -/
def StringHeap.malloc (h : StringHeap) : StringHeap := { h with ledger := h.ledger.acquire }

/-- A pointer of a block is read. -/
def readPointer (pointers : List (Option ℕ)) (index : ℕ) : Except ListFault (Option ℕ) :=
  (pointers[index]?).elim (.error .outside) .ok

/-- A pointer of a block is written. -/
def writePointer (pointers : List (Option ℕ)) (index : ℕ) (p : Option ℕ) :
    Except ListFault (List (Option ℕ)) :=
  if index < pointers.length then .ok (pointers.set index p) else .error .outside

/-! ### The calls -/

/-- `sizeof(char*)`. -/
def sizeofPointer : ℕ := 8

/-- `list_length`, in bytes. -/
def listLength (s : LibfpgactlState) : ℕ := (sizeofPointer * s.devicesNum + 1).toNat

/-- What `fpga_get_device_list` finds outside. -/
structure ListEnv where
  /-- There is memory for the block. -/
  list : Bool
  /-- There is memory for the copy of each name. -/
  names : ℕ → Bool

/-- The variables of the loop of `fpga_get_device_list`. -/
structure ListLoop where
  /-- The pointers in `tmp_dev_list`. -/
  pointers : List (Option ℕ)
  /-- `list_index`. -/
  listIndex : ℕ
  /-- The allocations. -/
  heap : StringHeap

/-- `tmp_dev_list[list_index++] = strdup(name)`, where there is memory for it. -/
def ListLoop.store (x : ListLoop) (name : CString) : Except ListFault ListLoop := do
  let pointers ← writePointer x.pointers x.listIndex (some x.heap.ledger.next)
  return ⟨pointers, x.listIndex + 1, x.heap.strdup name⟩

/-- The loop of `fpga_get_device_list`, and whether it came to its end. -/
def copyNames (env : ListEnv) (devices : Slots fpgaMaxDevices FpgaDeviceEntry) :
    List DevIndex → ListLoop → Except ListFault (Bool × ListLoop)
  | [], x => .ok (true, x)
  | index :: indices, x =>
    (devices index).elim (copyNames env devices indices x) fun dev =>
      if env.names x.listIndex = false then .ok (false, x)
      else x.store dev.name >>= copyNames env devices indices

/-- One round of the loop behind `failed`. -/
def freeStored (pointers : List (Option ℕ)) (h : StringHeap) (index : ℕ) :
    Except ListFault StringHeap :=
  (readPointer pointers index).map fun p => p.elim h h.free

/-- `fpga_get_device_list`: an error, or 0 and what is written to `*device_list`. -/
def fpgaGetDeviceList (deviceList : Bool) (env : ListEnv) (s : LibfpgactlState) (h : StringHeap) :
    Except ListFault (Except LibfpgactlErr PointerBlock × StringHeap) :=
  if deviceList = false then .ok (.error .invalidArgument, h)
  else if s.devicesNum = 0 then .ok (.error .notInitialized, h)
  else if env.list = false then .ok (.error .failureMemoryAlloc, h)
  else do
    -- `memset` makes every pointer `NULL`
    let (done, x) ← copyNames env s.devices (List.finRange fpgaMaxDevices)
      ⟨List.replicate (listLength s / sizeofPointer) none, 0, h.malloc⟩
    if done then return (.ok ⟨h.ledger.next, x.pointers⟩, x.heap)
    let h' ← (List.range x.listIndex).foldlM (freeStored x.pointers) x.heap
    return (.error .failureMemoryAlloc, h'.free h.ledger.next)

/-- The loop of `fpga_release_device_list`, with the pointers that it has not read. -/
def releaseStrings : List (Option ℕ) → StringHeap → Except ListFault StringHeap
  | [], _ => .error .outside
  | p :: pointers, h => p.elim (.ok h) fun p => releaseStrings pointers (h.free p)

/-- `fpga_release_device_list`. -/
def fpgaReleaseDeviceList (deviceList : Option PointerBlock) (h : StringHeap) :
    Except ListFault (Except LibfpgactlErr Unit × StringHeap) :=
  deviceList.elim (.ok (.error .invalidArgument, h)) fun b => do
    let h ← releaseStrings b.pointers h
    return (.ok (), h.free b.block)

/-! ### The property -/

/-- The block holds the strings, and behind them a `NULL` that is completely inside. -/
def PointerBlock.Holds (b : PointerBlock) (h : StringHeap) (strings : List CString) : Prop :=
  ∃ (ps : List ℕ) (rest : List (Option ℕ)),
    b.pointers = ps.map some ++ none :: rest ∧ ps.map h.strings = strings

/-- What `fpga_get_device_list` is to do. -/
structure DeviceListRight (env : ListEnv) (s : LibfpgactlState) (h : StringHeap) : Prop where
  /-- It stays inside the block. -/
  inside : NoFault (fpgaGetDeviceList true env s h)
  /-- The list holds the names of the open devices, in the order of the table. -/
  holds : ∀ b h', fpgaGetDeviceList true env s h = .ok (.ok b, h') → b.Holds h' s.names
  /-- `fpga_release_device_list` stays inside the block, too, and then all that was allocated is freed,
  once. -/
  released : ∀ b h', fpgaGetDeviceList true env s h = .ok (.ok b, h') →
    ∃ t, fpgaReleaseDeviceList (some b) h' = .ok (.ok (), t) ∧ h.ledger.Settled t.ledger
  /-- If the call fails, it frees what it allocated. -/
  failed : ∀ e h', fpgaGetDeviceList true env s h = .ok (.error e, h') → h.ledger.Settled h'.ledger

/-- There is no memory for the block or one of the names, or `devices_num` counts devices that are not
open. -/
def ListFair (env : ListEnv) (s : LibfpgactlState) : Prop :=
  env.list = false ∨ (∃ k < s.devices.entries.length, env.names k = false) ∨
    s.devices.entries.length < s.devicesNum

variable {files : DeviceFiles} {env : ListEnv} {s t : LibfpgactlState} {h h' : StringHeap}

/-! ### What `devices_num` counts -/

/-- `devices_num` counts the open devices, and at most the names of an option list more. -/
structure LibfpgactlState.Counted (s : LibfpgactlState) : Prop where
  /-- It counts every open device. -/
  ge : s.devices.entries.length ≤ s.devicesNum
  /-- It counts no more than those and the names. -/
  le : s.devicesNum ≤ s.devices.entries.length + fpgaMaxDevices

namespace LibfpgactlState

theorem counted_start : start.Counted := by
  have hnil : start.devices.entries = [] := Slots.entries_eq_nil_iff.mpr fun _ => rfl
  constructor <;> simp only [hnil] <;> decide

theorem Counted.entries_eq_nil (hs : s.Counted) (hnum : s.devicesNum ≤ 0) :
    s.devices.entries = [] := by
  have := hs.ge
  exact List.length_eq_zero_iff.mp (by omega)

theorem Counted.devFinish (hs : s.Counted) {index : DevIndex} {dev : FpgaDeviceEntry}
    (hdev : s.devices index = some dev) : (devFinish s index dev).Counted := by
  have hlen := (Slots.entries_clear hdev).length_eq
  rw [List.length_cons] at hlen
  obtain ⟨hge, hle⟩ := hs
  rw [hlen] at hge hle
  constructor
  · change (Slots.entries (Function.update s.devices index none)).length ≤ s.devicesNum - 1
    omega
  · change s.devicesNum - 1 ≤
      (Slots.entries (Function.update s.devices index none)).length + fpgaMaxDevices
    omega

end LibfpgactlState

theorem DevInitOutcome.counted {name : CString} {env : DevInitEnv}
    {ret : Except LibfpgactlErr (Option DevIndex)} (hout : DevInitOutcome files name env s ret t)
    (hs : s.Counted) : t.Counted := by
  cases hout with
  | failed => exact ⟨hs.ge, hs.le⟩
  | already => exact hs
  | opened index dev v _ hfree =>
    have hlen := (Slots.entries_fill hfree dev).length_eq
    rw [List.length_cons] at hlen
    obtain ⟨hge, hle⟩ := hs
    constructor
    · change ((Slots.entries (Function.update s.devices index (some dev))).length : ℤ) ≤
        s.devicesNum + 1
      omega
    · change s.devicesNum + 1 ≤
        ((Slots.entries (Function.update s.devices index (some dev))).length : ℤ) + fpgaMaxDevices
      omega

/-- What is left of the names when the options are parsed. -/
theorem counted_parseArgs {events : List GetoptEvent} {parsed : Bool} {names : List CString}
    (hs : s.Counted) (hnum : s.devicesNum ≤ 0)
    (hparse : parseArgs s [] events = .ok (parsed, t, names)) :
    t.devices.entries = [] ∧ t.Counted := by
  have hnil := hs.entries_eq_nil hnum
  have h0 : s.devicesNum = 0 := by
    have := hs.ge
    omega
  by_cases hroom : (parsedNames events).2.length ≤ fpgaMaxDevices
  · rw [parseArgs_eq h0.ge (by omega)] at hparse
    cases hparse
    refine ⟨hnil, ?_⟩
    constructor
    · change (s.devices.entries.length : ℤ) ≤ s.devicesNum + (parsedNames events).2.length
      rw [hnil, h0, List.length_nil]
      omega
    · change s.devicesNum + (parsedNames events).2.length ≤
        (s.devices.entries.length : ℤ) + fpgaMaxDevices
      rw [hnil, h0, List.length_nil]
      omega
  · have hfault : ¬ NoFault (parseArgs s [] events) :=
      not_noFault_parseArgs h0.ge (by omega) (by omega)
    exact absurd ⟨_, hparse⟩ hfault

theorem counted_fpgaInit {env : FpgaInitEnv} {ret : Except LibfpgactlErr ℕ} (hs : s.Counted)
    (hinit : fpgaInit files env s = .ok (ret, t)) : t.Counted := by
  unfold fpgaInit at hinit
  split at hinit
  · cases hinit
    exact hs
  split at hinit
  · cases hinit
    exact hs
  next hnum _ =>
    obtain ⟨⟨parsed, u, names⟩, hparse, hinit⟩ := bind_eq_ok.mp hinit
    obtain ⟨hnil, hu⟩ := counted_parseArgs hs (by omega) hparse
    dsimp only at hinit
    split at hinit
    · cases hinit
      exact hu
    · obtain ⟨v, hloop, hinit⟩ := bind_eq_ok.mp hinit
      have hzero : ({ u with devicesNum := 0 } : LibfpgactlState).Counted := by
        constructor <;> simp only [hnil] <;> decide
      have hv := foldlM_invariant (I := LibfpgactlState.Counted) (fun s a t hs hround =>
        (initName_eq_ok hround).elim fun _ hr => (devInit_outcome hr).counted hs) hzero hloop
      split at hinit
      all_goals
        cases hinit
        exact hv

theorem counted_fpgaFinish (hs : s.Counted) : (fpgaFinish s).2.Counted := by
  unfold fpgaFinish
  split
  · exact hs
  · refine List.foldlRecOn _ _ hs fun t ht index _ => ?_
    split
    · unfold fpgaDevFinish
      split
      · exact ht
      next hdev => exact ht.devFinish (eq_some_of_fpgaGetDevice hdev)
    · exact ht

theorem counted_scanFile {x y : LibfpgactlState × ℕ} {file : CString × DevInitEnv}
    (hs : x.1.Counted) (hround : scanFile files x file = .ok y) : y.1.Counted := by
  unfold scanFile at hround
  split at hround
  · dsimp only at hround
    split at hround
    · cases hround
      exact hs
    · obtain ⟨⟨ret, u⟩, hr, hround⟩ := bind_eq_ok.mp hround
      have hu := (devInit_outcome hr).counted hs
      cases ret
      all_goals
        cases hround
        exact hu
  · cases hround
    exact hs

theorem counted_fpgaScanDevices {env : ScanEnv} {ret : Except LibfpgactlErr ℕ} (hs : s.Counted)
    (hscan : fpgaScanDevices files env s = .ok (ret, t)) : t.Counted := by
  unfold fpgaScanDevices at hscan
  split at hscan
  · cases hscan
    exact hs
  next fd _ =>
    obtain ⟨⟨u, k⟩, hloop, hscan⟩ := bind_eq_ok.mp hscan
    have hopen : ({ s with dir := some (s.fresh fd) } : LibfpgactlState).Counted := ⟨hs.ge, hs.le⟩
    have hu := foldlM_invariant (I := fun x => x.1.Counted)
      (fun x file y => counted_scanFile) hopen hloop
    dsimp only at hscan
    split at hscan
    all_goals
      cases hscan
      exact ⟨hu.ge, hu.le⟩

/-- **Every call** keeps it. -/
theorem counted_next {call : CtlCall} (hs : s.Counted) (hcall : call.next files s = .ok t) :
    t.Counted := by
  obtain ⟨⟨ret, t⟩, hexec, rfl⟩ := map_eq_ok.mp hcall
  cases call with
  | init env => exact counted_fpgaInit hs hexec
  | devInit name devId env =>
    obtain ⟨⟨ret, u⟩, hdev, heq⟩ := map_eq_ok.mp hexec
    cases heq
    unfold fpgaDevInit at hdev
    split at hdev
    · exact (devInit_outcome hdev).counted hs
    · cases hdev
      exact hs
  | devSimpleInit name env =>
    obtain ⟨⟨ret, u⟩, hdev, heq⟩ := map_eq_ok.mp hexec
    cases heq
    unfold fpgaDevSimpleInit at hdev
    split at hdev
    · exact (devInit_outcome hdev).counted hs
    · cases hdev
      exact hs
  | scanDevices env => exact counted_fpgaScanDevices hs hexec
  | devFinish devId =>
    cases hexec
    unfold fpgaDevFinish
    split
    · exact hs
    next hdev => exact hs.devFinish (eq_some_of_fpgaGetDevice hdev)
  | finish =>
    cases hexec
    exact counted_fpgaFinish hs

theorem counted_of_run {calls : List CtlCall}
    (hrun : run (loopStep (CtlCall.next files)) (.ok .start) calls = some (.ok s)) : s.Counted := by
  refine run_invariant (I := fun r => ∀ s, r = .ok s → s.Counted) ?_ ?_ hrun s rfl
  · rintro r call _ hr hstep t rfl
    cases r with
    | error e => cases hstep
    | ok s => exact counted_next (hr s rfl) (Option.some.inj hstep)
  · rintro _ ⟨⟩
    exact LibfpgactlState.counted_start

/-! ### The loop of `fpga_get_device_list` -/

/-- The names are stored in the block, in allocations from `first` on. -/
structure ListLoop.Stored (first : ℕ) (released : List ℕ) (size : ℕ) (names : List CString)
    (x : ListLoop) : Prop where
  /-- `list_index` is their number. -/
  index : x.listIndex = names.length
  /-- The other pointers are `NULL`. -/
  pointers : x.pointers = (List.range' first names.length).map some ++
    List.replicate (size - names.length) none
  /-- Nothing is freed. -/
  ledger : x.heap.ledger = ⟨first + names.length, released⟩
  /-- The allocations hold the names. -/
  strings : (List.range' first names.length).map x.heap.strings = names

variable {first size : ℕ} {released : List ℕ} {names : List CString} {x : ListLoop}

/-- **One name** is stored. -/
theorem ListLoop.Stored.store (hx : x.Stored first released size names)
    (hroom : names.length < size) (name : CString) :
    ∃ y, x.store name = .ok y ∧ y.Stored first released size (names ++ [name]) := by
  obtain ⟨hindex, hpointers, hledger, hstrings⟩ := hx
  have hnext : x.heap.ledger.next = first + names.length := by rw [hledger]
  have hfill : size - names.length = size - (names.length + 1) + 1 := by omega
  have hlt : x.listIndex < x.pointers.length := by
    rw [hindex, hpointers, List.length_append, List.length_map, List.length_range',
      List.length_replicate]
    omega
  refine ⟨_, congrArg (· >>= _) (if_pos hlt), ?_⟩
  constructor
  · change x.listIndex + 1 = _
    rw [hindex, List.length_append, List.length_singleton]
  · change x.pointers.set x.listIndex (some x.heap.ledger.next) = _
    rw [hindex, hpointers, hnext, List.length_append, List.length_singleton, List.range'_concat,
      List.map_append, hfill, List.replicate_succ, List.set_append_right _ _ (by simp)]
    simp
  · change x.heap.ledger.acquire = _
    rw [hledger, List.length_append, List.length_singleton]
    rfl
  · rw [List.length_append, List.length_singleton, List.range'_concat, List.map_append]
    change (List.range' first names.length).map
      (Function.update x.heap.strings x.heap.ledger.next name) ++ _ = _
    have hold : (List.range' first names.length).map
        (Function.update x.heap.strings x.heap.ledger.next name) = names := by
      refine Eq.trans (List.map_congr_left fun r hr => Function.update_of_ne ?_ ..) hstrings
      have := List.mem_range'_1.mp hr
      omega
    rw [hold, one_mul, ← hnext]
    change names ++ [Function.update x.heap.strings x.heap.ledger.next name x.heap.ledger.next] = _
    rw [Function.update_self]

/-- **The loop** stores the names up to the first for which there is no memory. -/
theorem copyNames_stored (env : ListEnv) {devices : Slots fpgaMaxDevices FpgaDeviceEntry}
    {indices : List DevIndex} (hx : x.Stored first released size names)
    (hroom : names.length + (indices.filterMap devices).length ≤ size) :
    ∃ done y more, copyNames env devices indices x = .ok (done, y) ∧
      y.Stored first released size (names ++ more) ∧
      (done = true → more = (indices.filterMap devices).map (·.name)) ∧
      (done = true ↔
        ∀ k < (indices.filterMap devices).length, env.names (names.length + k) = true) := by
  induction indices generalizing x names with
  | nil =>
    refine ⟨true, x, [], rfl, ?_, fun _ => rfl, iff_of_true rfl fun k hk => ?_⟩
    · rwa [List.append_nil]
    · cases hk
  | cons index indices ih =>
    unfold copyNames
    cases hdev : devices index with
    | none =>
      rw [List.filterMap_cons_none hdev] at hroom ⊢
      exact ih hx hroom
    | some dev =>
      rw [List.filterMap_cons_some hdev, List.length_cons] at hroom ⊢
      rw [Option.elim_some]
      by_cases hmem : env.names x.listIndex = false
      · rw [if_pos hmem]
        refine ⟨false, x, [], rfl, ?_, nofun, iff_of_false nofun fun hall => ?_⟩
        · rwa [List.append_nil]
        · have hfirst := hall 0 (Nat.succ_pos _)
          rw [add_zero, ← hx.index, hmem] at hfirst
          cases hfirst
      · obtain ⟨y, hstore, hy⟩ := hx.store (by omega) dev.name
        have hlen : (names ++ [dev.name]).length = names.length + 1 := List.length_append
        obtain ⟨done, z, more, hloop, hz, hdone, hall⟩ := ih hy (by omega)
        rw [if_neg hmem, hstore]
        refine ⟨done, z, dev.name :: more, hloop, ?_, fun hd => ?_, hall.trans ?_⟩
        · rwa [List.append_assoc] at hz
        · rw [List.map_cons, hdone hd]
        · rw [Nat.forall_lt_succ_left, add_zero, ← hx.index, hlen, ← hx.index]
          rw [Bool.not_eq_false] at hmem
          rw [and_iff_right hmem]
          refine forall₂_congr fun k _ => ?_
          rw [Nat.add_right_comm, Nat.add_assoc]

/-! ### Freeing -/

theorem foldl_free_ledger (ps : List ℕ) :
    (ps.foldl StringHeap.free h).ledger = ps.foldl Ledger.release h.ledger := by
  induction ps generalizing h with
  | nil => rfl
  | cons p ps ih => exact ih

/-- What is stored is freed. -/
theorem foldlM_freeStored (h : StringHeap) (first n : ℕ) (rest : List (Option ℕ)) :
    (List.range n).foldlM (freeStored ((List.range' first n).map some ++ rest)) h =
      .ok ((List.range' first n).foldl StringHeap.free h) := by
  induction n generalizing rest with
  | zero => rfl
  | succ n ih =>
    have hread : readPointer ((List.range' first n).map some ++ some (first + 1 * n) :: rest) n =
        .ok (some (first + 1 * n)) := by
      unfold readPointer
      rw [List.getElem?_append_right (by simp)]
      simp
    rw [List.range_succ, List.range'_concat, List.map_append, List.append_assoc, List.foldlM_append,
      List.foldl_append]
    change (List.range n).foldlM
      (freeStored ((List.range' first n).map some ++ some (first + 1 * n) :: rest)) h >>= _ = _
    rw [ih, ok_bind, List.foldlM_cons, freeStored]
    change (readPointer ((List.range' first n).map some ++ some (first + 1 * n) :: rest) n).map _
      >>= _ = _
    rw [hread]
    rfl

/-- `fpga_release_device_list` goes on behind the strings. -/
theorem releaseStrings_append (ps : List ℕ) (rest : List (Option ℕ)) :
    releaseStrings (ps.map some ++ rest) h = releaseStrings rest (ps.foldl StringHeap.free h) := by
  induction ps generalizing h with
  | nil => rfl
  | cons p ps ih => exact ih

/-- The strings and the block are freed. -/
theorem settled_free (l : Ledger) (n : ℕ) (hl : x.heap.ledger = ⟨l.next + 1 + n, l.released⟩) :
    l.Settled (((List.range' (l.next + 1) n).foldl StringHeap.free x.heap).free l.next).ledger := by
  have hsettled := Ledger.settled_release l n
  rw [← hl, ← foldl_free_ledger] at hsettled
  exact hsettled

/-! ### The whole call -/

/-- What `fpga_get_device_list` can come to, if a device is open. -/
inductive DeviceListOutcome (env : ListEnv) (s : LibfpgactlState) (h : StringHeap) :
    Except ListFault (Except LibfpgactlErr PointerBlock × StringHeap) → Prop
  /-- There is no memory. -/
  | failed (h' : StringHeap)
      (hmem : env.list = false ∨ ∃ k < s.devices.entries.length, env.names k = false)
      (hsettled : h.ledger.Settled h'.ledger) :
      DeviceListOutcome env s h (.ok (.error .failureMemoryAlloc, h'))
  /-- The list is given out. -/
  | given (x : ListLoop) (hlist : env.list = true)
      (hnames : ∀ k < s.devices.entries.length, env.names k = true)
      (hx : x.Stored (h.ledger.next + 1) h.ledger.released s.devicesNum.toNat s.names) :
      DeviceListOutcome env s h (.ok (.ok ⟨h.ledger.next, x.pointers⟩, x.heap))

theorem listLength_div (h0 : 0 ≤ s.devicesNum) :
    listLength s / sizeofPointer = s.devicesNum.toNat := by
  unfold listLength sizeofPointer
  omega

theorem fpgaGetDeviceList_outcome (hs : s.Counted) (hopen : s.devices.entries ≠ []) :
    DeviceListOutcome env s h (fpgaGetDeviceList true env s h) := by
  have hpos := List.length_pos_iff.mpr hopen
  have hge := hs.ge
  have hnum : s.devicesNum ≠ 0 := by omega
  unfold fpgaGetDeviceList
  rw [if_neg (by decide), if_neg hnum]
  split
  next hlist => exact .failed h (.inl hlist) (.refl _)
  next hlist =>
    have hstart : ListLoop.Stored (h.ledger.next + 1) h.ledger.released s.devicesNum.toNat []
        ⟨List.replicate s.devicesNum.toNat none, 0, h.malloc⟩ := ⟨rfl, rfl, rfl, rfl⟩
    have hroom : ([] : List CString).length +
        ((List.finRange fpgaMaxDevices).filterMap s.devices).length ≤ s.devicesNum.toNat := by
      change 0 + s.devices.entries.length ≤ _
      omega
    obtain ⟨done, x, more, hloop, hx, hdone, hall⟩ := copyNames_stored env hstart hroom
    rw [List.nil_append] at hx
    rw [listLength_div (by omega), hloop, ok_bind]
    cases done with
    | true =>
      rw [hdone rfl] at hx
      refine .given x (Bool.eq_true_of_not_eq_false hlist) (fun k hk => ?_) hx
      have hk := hall.mp rfl k hk
      rwa [List.length_nil, Nat.zero_add] at hk
    | false =>
      have hfree := foldlM_freeStored x.heap (h.ledger.next + 1) more.length
        (List.replicate (s.devicesNum.toNat - more.length) none)
      rw [← hx.pointers, ← hx.index] at hfree
      dsimp only
      rw [if_neg (by decide), hfree, ok_bind]
      refine .failed _ (.inr ?_) ?_
      · by_contra hno
        push Not at hno
        refine absurd (hall.mpr fun k hk => ?_) (by decide)
        rw [List.length_nil, Nat.zero_add]
        exact Bool.eq_true_of_not_eq_false (hno k hk)
      · refine settled_free h.ledger x.listIndex ?_
        rw [hx.ledger, hx.index]

theorem noFault_of_outcome {r : Except ListFault (Except LibfpgactlErr PointerBlock × StringHeap)}
    (hout : DeviceListOutcome env s h r) : NoFault r := by
  cases hout with
  | failed => exact noFault_ok _
  | given => exact noFault_ok _

/-- The list ends inside its block if `devices_num` counts more than the names. -/
theorem ListLoop.Stored.ends (hx : x.Stored first released size names) (hroom : names.length < size) :
    ∃ rest, x.pointers = (List.range' first names.length).map some ++ none :: rest := by
  refine ⟨List.replicate (size - names.length - 1) none, ?_⟩
  have hfill : size - names.length = size - names.length - 1 + 1 := by omega
  rw [hx.pointers, ← List.replicate_succ, ← hfill]

/-- A list is only given out if there is memory, and then the condition is about the count. -/
theorem ListFair.lt {n : ℕ} (hfair : ListFair env s) (hlist : env.list = true)
    (hnames : ∀ k < s.devices.entries.length, env.names k = true)
    (hn : n = s.devices.entries.length) : n < s.devicesNum.toNat := by
  rcases hfair with hf | ⟨k, hk, hf⟩ | hf
  · rw [hlist] at hf
    cases hf
  · rw [hnames k hk] at hf
    cases hf
  · omega

/-- **The device list is right**, in every reachable state with an open device, exactly if there is no
memory or `devices_num` counts a device that is not open. -/
theorem deviceListRight_iff {calls : List CtlCall}
    (hrun : run (loopStep (CtlCall.next files)) (.ok .start) calls = some (.ok s))
    (hopen : s.devices.entries ≠ []) (env : ListEnv) (h : StringHeap) :
    DeviceListRight env s h ↔ ListFair env s := by
  have hs := counted_of_run hrun
  have hge := hs.ge
  have hout : DeviceListOutcome env s h _ := fpgaGetDeviceList_outcome hs hopen
  have hlen : s.names.length = s.devices.entries.length := List.length_map _
  constructor
  · intro hright
    generalize hr : fpgaGetDeviceList true env s h = r at hout
    cases hout with
    | failed h' hmem =>
      rcases hmem with hlist | hnames
      · exact .inl hlist
      · exact .inr (.inl hnames)
    | given x _ _ hx =>
      refine .inr (.inr (lt_of_le_of_ne hge fun heq => ?_))
      obtain ⟨ps, rest, hends, -⟩ := hright.holds _ _ hr
      have hfull := hx.pointers
      rw [hlen, ← heq, Int.toNat_natCast, Nat.sub_self, List.replicate_zero, List.append_nil] at hfull
      have hnull : none ∈ ps.map some ++ none :: rest :=
        List.mem_append_right _ (List.mem_cons_self ..)
      rw [← hends, hfull] at hnull
      obtain ⟨_, -, hsome⟩ := List.mem_map.mp hnull
      cases hsome
  · intro hfair
    refine ⟨noFault_of_outcome hout, fun b h' hr => ?_, fun b h' hr => ?_, fun e h' hr => ?_⟩
    all_goals
      rw [hr] at hout
      cases hout
    case refine_1.given x hlist hnames hx =>
      obtain ⟨rest, hends⟩ := hx.ends (hfair.lt hlist hnames hlen)
      exact ⟨_, rest, hends, hx.strings⟩
    case refine_2.given x hlist hnames hx =>
      obtain ⟨rest, hends⟩ := hx.ends (hfair.lt hlist hnames hlen)
      refine ⟨_, ?_, settled_free h.ledger s.names.length hx.ledger⟩
      unfold fpgaReleaseDeviceList
      rw [Option.elim_some, hends, releaseStrings_append]
      rfl
    case refine_3.failed _ hsettled => exact hsettled

/-- A call of `fpga_init` that leaves a name counted, and then a device that is opened. -/
def overcounted : List CtlCall :=
  [.init ⟨true, [.device "a".toList true fun _ => true, .other], 0, fun _ => devAnswers⟩,
    .devInit (some "0".toList) true devAnswers]

/-- The table of `overcounted` has a list that ends inside its block. -/
theorem deviceListRight_overcounted : ∃ s,
    run (loopStep (CtlCall.next serialIdFiles)) (.ok .start) overcounted = some (.ok s) ∧
      s.names = ["0".toList] ∧
      DeviceListRight ⟨true, fun _ => true⟩ s ⟨.empty, fun _ => []⟩ := by
  have hrun : run (loopStep (CtlCall.next serialIdFiles)) (.ok .start) overcounted = some _ := rfl
  exact ⟨_, hrun, rfl, (deviceListRight_iff hrun (by decide) _ _).mpr (.inr (.inr (by decide)))⟩

/-- One device, whose list ends outside its block. -/
theorem not_deviceListRight : ¬ ∀ (calls : List CtlCall) (s : LibfpgactlState) (env : ListEnv)
    (h : StringHeap),
    run (loopStep (CtlCall.next serialIdFiles)) (.ok .start) calls = some (.ok s) →
      s.devices.entries ≠ [] → DeviceListRight env s h := by
  intro h
  have hright := h [.devInit (some "0".toList) true devAnswers] _ ⟨true, fun _ => true⟩
    ⟨.empty, fun _ => []⟩ rfl (by decide)
  obtain ⟨t, ht, -⟩ := hright.released _ _ rfl
  cases ht

end HardwareDrivers.Libfpga
