import HardwareDrivers.Theory.Replies
import HardwareDrivers.Libfpga.ShmemManager

/-!
# The prefixes of managers that reported an error

`libshmem_controller.c` keeps them in an array of pointers that ends with a null pointer. A
prefix is added at the end, in a new array; one that is deleted is found from the end, and those
after it move up. A prefix that is not in the array is looked for at index `-1` then.

## What is proved

* `call_iff` — a call behaves as one on a list, exactly if it deletes no prefix that is not there.
* `behavesAsList_iff` — so does every list of calls.
-/

namespace HardwareDrivers.Libfpga

open Theory

/-! ### The array -/

instance : DecidableEq CStr := fun p q =>
  decidable_of_iff (p.bytes = q.bytes) ⟨fun h => by cases p; cases q; cases h; rfl, congrArg _⟩

/-- A pointer in the array. -/
inductive PrefixPtr where
  /-- It was not written. -/
  | uninit
  /-- `NULL`. -/
  | null
  /-- It points to a string. -/
  | str (p : CStr)
  deriving DecidableEq

/-- `fpga_shmem_fallingout_prefix_list`: `NULL`, or an array. -/
abbrev PrefixList : Type := Option (List PrefixPtr)

/-- The pointer at an index, which lies in the array. -/
def readPtr (cells : List PrefixPtr) (index : ℤ) : Option PrefixPtr :=
  if 0 ≤ index then cells[index.toNat]? else none

/-- It is written. -/
def writePtr (cells : List PrefixPtr) (index : ℤ) (ptr : PrefixPtr) : Option (List PrefixPtr) :=
  if 0 ≤ index ∧ index.toNat < cells.length then some (cells.set index.toNat ptr) else none

/-- `for (; *(list + num_prefix); num_prefix++) {}`. -/
def countPrefixes : List PrefixPtr → Option ℕ
  | .null :: _ => some 0
  | .str _ :: cells => (countPrefixes cells).map (· + 1)
  | _ => none

/-- The loop of `fpga_shmem_check_error_prefix`. -/
def findPrefix (filePrefix : CStr) : List PrefixPtr → Option Bool
  | .null :: _ => some false
  | .str p :: cells => if filePrefix = p then some true else findPrefix filePrefix cells
  | _ => none

/-- The loop of `fpga_shmem_delete_error_prefix` that finds `delete_index`. -/
def scanPrefixes (filePrefix : CStr) : List PrefixPtr → ℕ → ℤ → Option (ℕ × ℤ)
  | .null :: _, numPrefix, deleteIndex => some (numPrefix, deleteIndex)
  | .str p :: cells, numPrefix, deleteIndex =>
    scanPrefixes filePrefix cells (numPrefix + 1) (if filePrefix = p then numPrefix else deleteIndex)
  | _, _, _ => none

/-- A round of the loop that copies the pointers. -/
def copyPtr (cells temp : List PrefixPtr) (index : ℕ) : Option (List PrefixPtr) :=
  (readPtr cells index).bind (writePtr temp index)

/-- A round of the loop that moves up the pointers after `delete_index`. -/
def movePtr (deleteIndex : ℤ) (cells : List PrefixPtr) (k : ℕ) : Option (List PrefixPtr) :=
  (readPtr cells (deleteIndex + k + 1)).bind (writePtr cells (deleteIndex + k))

/-! ### The calls -/

/-- `fpga_shmem_set_error_prefix`. -/
def fpgaShmemSetErrorPrefix (filePrefix : Option CStr) (list : PrefixList) :
    Option (Except LibfpgaErr Unit × PrefixList) :=
  match filePrefix, list with
  | none, _ => some (.error .invalidArgument, list)
  | some filePrefix, none => some (.ok (), some [.str filePrefix, .null])
  | some filePrefix, some cells => do
    let numPrefix ← countPrefixes cells
    let temp ← (List.range numPrefix).foldlM (copyPtr cells)
      (List.replicate (numPrefix + 2) .uninit)
    let temp ← writePtr temp numPrefix (.str filePrefix)
    let temp ← writePtr temp (numPrefix + 1) .null
    some (.ok (), some temp)

/-- `fpga_shmem_get_error_prefix`. -/
def fpgaShmemGetErrorPrefix (list : PrefixList) : Option (Option CStr) :=
  match list with
  | none => some none
  | some cells => do
    let numPrefix ← countPrefixes cells
    if numPrefix = 0 then some none
    else match ← readPtr cells (numPrefix - 1) with
      | .str p => some (some p)
      | .null => some none
      | .uninit => none

/-- `fpga_shmem_check_error_prefix`, with somewhere to put the answer. -/
def fpgaShmemCheckErrorPrefix (filePrefix : Option CStr) (list : PrefixList) :
    Option (Except LibfpgaErr Bool) :=
  match filePrefix, list with
  | none, _ => some (.error .invalidArgument)
  | some _, none => some (.ok false)
  | some filePrefix, some cells => (findPrefix filePrefix cells).map .ok

/-- `fpga_shmem_delete_error_prefix`. -/
def fpgaShmemDeleteErrorPrefix (filePrefix : Option CStr) (list : PrefixList) :
    Option (Except LibfpgaErr Unit × PrefixList) :=
  match filePrefix, list with
  | none, _ => some (.error .invalidArgument, list)
  | some _, none => some (.error .invalidData, none)
  | some filePrefix, some cells => do
    let (numPrefix, deleteIndex) ← scanPrefixes filePrefix cells 0 (-1)
    if numPrefix = 0 then some (.error .mismatchFilePrefix, some cells)
    else
      -- the pointer that is freed
      let _ ← readPtr cells deleteIndex
      let cells ← (List.range (numPrefix - deleteIndex).toNat).foldlM (movePtr deleteIndex) cells
      if (← readPtr cells 0) = .null then some (.ok (), none) else some (.ok (), some cells)

/-- A call. -/
inductive PrefixOp where
  /-- `fpga_shmem_set_error_prefix`. -/
  | set (filePrefix : Option CStr)
  /-- `fpga_shmem_get_error_prefix`. -/
  | get
  /-- `fpga_shmem_check_error_prefix`. -/
  | check (filePrefix : Option CStr)
  /-- `fpga_shmem_delete_error_prefix`. -/
  | delete (filePrefix : Option CStr)

/-- What it returns. -/
inductive PrefixReply where
  /-- Of a call that changes the list. -/
  | done (ret : Except LibfpgaErr Unit)
  /-- Of `fpga_shmem_get_error_prefix`. -/
  | got (filePrefix : Option CStr)
  /-- Of `fpga_shmem_check_error_prefix`. -/
  | checked (ret : Except LibfpgaErr Bool)

/-- A call returns, or goes beyond the array. -/
def prefixCall (list : PrefixList) : PrefixOp → Option (PrefixReply × PrefixList)
  | .set filePrefix => (fpgaShmemSetErrorPrefix filePrefix list).map fun x => (.done x.1, x.2)
  | .get => (fpgaShmemGetErrorPrefix list).map fun p => (.got p, list)
  | .check filePrefix =>
    (fpgaShmemCheckErrorPrefix filePrefix list).map fun ret => (.checked ret, list)
  | .delete filePrefix => (fpgaShmemDeleteErrorPrefix filePrefix list).map fun x => (.done x.1, x.2)

/-! ### The list -/

/-- A list without the last occurrence of an element. -/
def eraseLast {α : Type} [DecidableEq α] (a : α) (l : List α) : List α := (l.reverse.erase a).reverse

theorem eraseLast_append {α : Type} [DecidableEq α] {a : α} (s : List α) {t : List α}
    (ht : a ∉ t) : eraseLast a (s ++ a :: t) = s ++ t := by
  unfold eraseLast
  rw [List.reverse_append, List.reverse_cons, List.append_assoc,
    List.erase_append_right _ (by rwa [List.mem_reverse])]
  simp

/-- An element that is in a list has a last occurrence. -/
theorem eq_append_of_mem {α : Type} {a : α} {l : List α} (h : a ∈ l) :
    ∃ s t, l = s ++ a :: t ∧ a ∉ t := by
  obtain ⟨s, t, heq, hs⟩ := List.eq_append_cons_of_mem (List.mem_reverse.mpr h)
  refine ⟨t.reverse, s.reverse, ?_, by rwa [List.mem_reverse]⟩
  rw [← List.reverse_reverse l, heq]
  simp

/-- What a call makes of the list. -/
def PrefixOp.next (l : List CStr) : PrefixOp → List CStr
  | .set (some filePrefix) => l ++ [filePrefix]
  | .delete (some filePrefix) => eraseLast filePrefix l
  | _ => l

/-- What it is to return. -/
def PrefixOp.Allowed (l : List CStr) : PrefixOp → PrefixReply → Prop
  | .set none, reply => reply = .done (.error .invalidArgument)
  | .set (some _), reply => reply = .done (.ok ())
  | .get, reply => reply = .got l.getLast?
  | .check none, reply => reply = .checked (.error .invalidArgument)
  | .check (some filePrefix), reply => reply = .checked (.ok (decide (filePrefix ∈ l)))
  | .delete none, reply => reply = .done (.error .invalidArgument)
  | .delete (some filePrefix), reply =>
    if filePrefix ∈ l then reply = .done (.ok ()) else ∃ err, reply = .done (.error err)

/-- The array holds a list. -/
inductive Stored : PrefixList → List CStr → Prop where
  /-- There is none. -/
  | none : Stored none []
  /-- Its elements, and a null pointer after them. -/
  | array (l : List CStr) (rest : List PrefixPtr) (h : l ≠ []) :
      Stored (some (l.map .str ++ .null :: rest)) l

/-- Every call behaves as one on the list. -/
def BehavesAsList : PrefixList → List CStr → List PrefixOp → Prop :=
  Behaves prefixCall PrefixOp.next PrefixOp.Allowed Stored

/-- What is deleted is there, or nothing is. -/
def DeletesStored (l : List CStr) (op : PrefixOp) : Prop :=
  ∀ filePrefix, op = .delete (some filePrefix) → filePrefix ∈ l ∨ l = []

/-! ### The loops -/

theorem countPrefixes_stored (l : List CStr) (rest : List PrefixPtr) :
    countPrefixes (l.map .str ++ .null :: rest) = some l.length := by
  induction l with
  | nil => rfl
  | cons p l ih =>
    change (countPrefixes (l.map .str ++ .null :: rest)).map (· + 1) = _
    rw [ih]
    rfl

theorem findPrefix_stored (filePrefix : CStr) (l : List CStr) (rest : List PrefixPtr) :
    findPrefix filePrefix (l.map .str ++ .null :: rest) = some (decide (filePrefix ∈ l)) := by
  induction l with
  | nil => rfl
  | cons p l ih =>
    change (if filePrefix = p then some true else findPrefix filePrefix (l.map .str ++ .null :: rest)) = _
    by_cases hp : filePrefix = p
    · simp [hp]
    · rw [if_neg hp, ih]
      simp [hp]

/-- Some index is found in the first strings, and the search goes on after them. -/
theorem scanPrefixes_append (filePrefix : CStr) (l : List CStr) (cells : List PrefixPtr) (n : ℕ)
    (d : ℤ) : ∃ d', scanPrefixes filePrefix (l.map .str ++ cells) n d =
      scanPrefixes filePrefix cells (n + l.length) d' := by
  induction l generalizing n d with
  | nil => exact ⟨d, rfl⟩
  | cons p l ih =>
    obtain ⟨d', hd⟩ := ih (n + 1) (if filePrefix = p then n else d)
    refine ⟨d', ?_⟩
    change scanPrefixes filePrefix (l.map .str ++ cells) (n + 1) _ = _
    rw [hd, List.length_cons]
    congr 1
    omega

/-- None is found where the prefix is not. -/
theorem scanPrefixes_absent {filePrefix : CStr} {l : List CStr} (h : filePrefix ∉ l)
    (rest : List PrefixPtr) (n : ℕ) (d : ℤ) :
    scanPrefixes filePrefix (l.map .str ++ .null :: rest) n d = some (n + l.length, d) := by
  induction l generalizing n with
  | nil => rfl
  | cons p l ih =>
    obtain ⟨hp, hl⟩ := not_or.mp (List.mem_cons.not.mp h)
    change scanPrefixes filePrefix (l.map .str ++ .null :: rest) (n + 1)
      (if filePrefix = p then n else d) = _
    rw [if_neg hp, ih hl, List.length_cons]
    congr 2
    omega

/-- The last occurrence is found. -/
theorem scanPrefixes_last {filePrefix : CStr} (s : List CStr) {t : List CStr} (h : filePrefix ∉ t)
    (rest : List PrefixPtr) :
    scanPrefixes filePrefix ((s ++ filePrefix :: t).map .str ++ .null :: rest) 0 (-1) =
      some ((s ++ filePrefix :: t).length, (s.length : ℤ)) := by
  obtain ⟨d, hd⟩ := scanPrefixes_append filePrefix s (.str filePrefix :: (t.map .str ++ .null :: rest))
    0 (-1)
  rw [List.map_append, List.map_cons, List.append_assoc, List.cons_append, hd]
  change scanPrefixes filePrefix (t.map .str ++ .null :: rest) (0 + s.length + 1)
    (if filePrefix = filePrefix then ((0 + s.length : ℕ) : ℤ) else d) = _
  rw [if_pos rfl, scanPrefixes_absent h, List.length_append, List.length_cons]
  congr 2
  · omega
  · rw [Nat.zero_add]

theorem readPtr_nat (cells : List PrefixPtr) (i : ℕ) : readPtr cells i = cells[i]? := by
  unfold readPtr
  rw [if_pos (Int.natCast_nonneg i), Int.toNat_natCast]

theorem writePtr_append (s : List PrefixPtr) (ptr ptr' : PrefixPtr) (t : List PrefixPtr) {i : ℕ}
    (hi : i = s.length) : writePtr (s ++ ptr :: t) i ptr' = some (s ++ ptr' :: t) := by
  subst hi
  unfold writePtr
  rw [Int.toNat_natCast, if_pos ⟨Int.natCast_nonneg _, by simp⟩]
  simp

/-- How far the copy came. -/
theorem copy_foldlM {cells : List PrefixPtr} {n : ℕ} (hn : n ≤ cells.length) (m : ℕ) :
    (List.range n).foldlM (copyPtr cells) (List.replicate (n + m) .uninit) =
      some (cells.take n ++ List.replicate m .uninit) := by
  induction n generalizing m with
  | zero =>
    rw [Nat.zero_add]
    rfl
  | succ n ih =>
    have hlt : n < cells.length := hn
    have hcopy : copyPtr cells (cells.take n ++ .uninit :: List.replicate m .uninit) n =
        some (cells.take n ++ cells[n] :: List.replicate m .uninit) := by
      unfold copyPtr
      rw [readPtr_nat, List.getElem?_eq_getElem hlt]
      exact writePtr_append _ _ _ _ (by rw [List.length_take, Nat.min_eq_left hlt.le])
    rw [List.range_succ, List.foldlM_append, Nat.succ_add_eq_add_succ, ih (Nat.le_of_succ_le hn),
      List.replicate_succ]
    change copyPtr cells (cells.take n ++ .uninit :: List.replicate m .uninit) n >>= pure = _
    rw [hcopy, ← List.take_append_getElem hlt, List.append_assoc]
    rfl

/-- How far the pointers moved up. -/
theorem move_foldlM (s t : List PrefixPtr) {n : ℕ} (hn : n < t.length) :
    (List.range n).foldlM (movePtr s.length) (s ++ t) =
      some (s ++ (t.drop 1).take n ++ t.drop n) := by
  induction n with
  | zero => simp
  | succ n ih =>
    have hlt : n < t.length := Nat.lt_of_succ_lt hn
    have hfront : (s ++ (t.drop 1).take n).length = s.length + n := by
      rw [List.length_append, List.length_take, List.length_drop]
      omega
    have htake : (t.drop 1).take (n + 1) = (t.drop 1).take n ++ [t[n + 1]] := by
      rw [List.take_succ_eq_append_getElem (by rw [List.length_drop]; omega), List.getElem_drop]
      congr 3
      omega
    have hmove : movePtr s.length (s ++ (t.drop 1).take n ++ t.drop n) n =
        some (s ++ (t.drop 1).take n ++ t[n + 1] :: t.drop (n + 1)) := by
      unfold movePtr
      rw [← Nat.cast_add, ← Nat.cast_succ, readPtr_nat,
        List.getElem?_append_right (by omega), hfront, List.getElem?_drop,
        show n + (s.length + n + 1 - (s.length + n)) = n + 1 by omega,
        List.getElem?_eq_getElem hn, List.drop_eq_getElem_cons hlt]
      exact writePtr_append _ _ _ _ hfront.symm
    rw [List.range_succ, List.foldlM_append, ih hlt]
    change movePtr s.length (s ++ (t.drop 1).take n ++ t.drop n) n >>= pure = _
    rw [hmove, htake]
    simp

/-! ### What a call does -/

variable {list : PrefixList} {l : List CStr}

theorem setErrorPrefix_stored (h : Stored list l) (filePrefix : CStr) :
    ∃ t, fpgaShmemSetErrorPrefix (some filePrefix) list = some (.ok (), t) ∧
      Stored t (l ++ [filePrefix]) := by
  cases h with
  | none => exact ⟨_, rfl, .array [filePrefix] [] nofun⟩
  | array l rest h =>
    refine ⟨some ((l ++ [filePrefix]).map .str ++ .null :: []), ?_, .array _ _ (by simp)⟩
    have hlength : l.length ≤ (l.map PrefixPtr.str ++ .null :: rest).length := by simp
    have hcopy := copy_foldlM hlength 2
    rw [List.take_append_of_le_length (by simp), List.take_of_length_le (by simp)] at hcopy
    have hfirst : writePtr (l.map .str ++ .uninit :: [.uninit]) l.length (.str filePrefix) =
        some ((l ++ [filePrefix]).map .str ++ .uninit :: []) := by
      rw [writePtr_append _ _ _ _ (by simp)]
      simp
    have hsecond : writePtr ((l ++ [filePrefix]).map .str ++ .uninit :: []) (l.length + 1) .null =
        some ((l ++ [filePrefix]).map .str ++ .null :: []) := by
      rw [← Nat.cast_succ]
      exact writePtr_append _ _ _ _ (by simp)
    unfold fpgaShmemSetErrorPrefix
    simp only [countPrefixes_stored, Option.bind_eq_bind, Option.bind_some, hcopy]
    change ((writePtr (l.map .str ++ .uninit :: [.uninit]) l.length (.str filePrefix)).bind
      fun temp => (writePtr temp (l.length + 1) .null).bind fun temp => some (_, some temp)) = _
    rw [hfirst, Option.bind_some, hsecond]
    rfl

theorem getErrorPrefix_stored (h : Stored list l) :
    fpgaShmemGetErrorPrefix list = some l.getLast? := by
  cases h with
  | none => rfl
  | array l rest h =>
    have hpos : 0 < l.length := List.length_pos_iff.mpr h
    have hcast : ((l.length : ℤ) - 1) = ((l.length - 1 : ℕ) : ℤ) := by omega
    unfold fpgaShmemGetErrorPrefix
    simp only [countPrefixes_stored, Option.bind_eq_bind, Option.bind_some]
    rw [if_neg hpos.ne', hcast, readPtr_nat, List.getElem?_append_left (by rw [List.length_map]; omega),
      List.getElem?_map, List.getElem?_eq_getElem (by omega), List.getLast?_eq_getElem?,
      List.getElem?_eq_getElem (by omega)]
    rfl

theorem checkErrorPrefix_stored (h : Stored list l) (filePrefix : CStr) :
    fpgaShmemCheckErrorPrefix (some filePrefix) list =
      some (.ok (decide (filePrefix ∈ l))) := by
  cases h with
  | none => rfl
  | array l rest h =>
    unfold fpgaShmemCheckErrorPrefix
    dsimp only
    rw [findPrefix_stored]
    rfl

/-- **The last occurrence is deleted.** -/
theorem deleteErrorPrefix_stored (h : Stored list l) {filePrefix : CStr} (hp : filePrefix ∈ l) :
    ∃ t, fpgaShmemDeleteErrorPrefix (some filePrefix) list = some (.ok (), t) ∧
      Stored t (eraseLast filePrefix l) := by
  cases h with
  | none => cases hp
  | array l rest h =>
    obtain ⟨a, b, rfl, hb⟩ := eq_append_of_mem hp
    have hcount : (((a ++ filePrefix :: b).length : ℤ) - (a.length : ℤ)).toNat = b.length + 1 := by
      rw [List.length_append, List.length_cons]
      omega
    have hmove := move_foldlM (a.map .str) ((filePrefix :: b).map .str ++ .null :: rest)
      (n := b.length + 1) (by simp)
    rw [List.length_map, ← List.append_assoc, ← List.map_append] at hmove
    have hmoved : a.map .str ++ List.take (b.length + 1) (List.drop 1 ((filePrefix :: b).map .str ++
        .null :: rest)) ++ List.drop (b.length + 1) ((filePrefix :: b).map .str ++ .null :: rest) =
          (a ++ b).map .str ++ .null :: .null :: rest := by
      simp [List.take_append, List.drop_append, List.take_of_length_le]
    rw [hmoved] at hmove
    have hne : (a ++ filePrefix :: b).length ≠ 0 := by simp
    have hfree : ∃ ptr, readPtr ((a ++ filePrefix :: b).map .str ++ .null :: rest) a.length =
        some ptr := by
      rw [readPtr_nat]
      exact ⟨_, List.getElem?_eq_getElem (by simp)⟩
    obtain ⟨ptr, hfree⟩ := hfree
    rw [eraseLast_append a hb]
    unfold fpgaShmemDeleteErrorPrefix
    simp only [scanPrefixes_last a hb, Option.bind_eq_bind, Option.bind_some, if_neg hne, hfree,
      hcount, hmove]
    -- the array is given up with its last string
    cases hab : a ++ b with
    | nil =>
      exact ⟨none, rfl, .none⟩
    | cons p l =>
      exact ⟨some ((p :: l).map .str ++ .null :: .null :: rest), rfl,
        Stored.array (p :: l) (.null :: rest) nofun⟩

/-- **Where the prefix is not in the list, the call goes beyond the array.** -/
theorem deleteErrorPrefix_absent {filePrefix : CStr} (hp : filePrefix ∉ l) (hl : l ≠ [])
    (rest : List PrefixPtr) :
    fpgaShmemDeleteErrorPrefix (some filePrefix) (some (l.map .str ++ .null :: rest)) = none := by
  have hne : 0 + l.length ≠ 0 := by simpa using hl
  unfold fpgaShmemDeleteErrorPrefix
  simp only [scanPrefixes_absent hp, Option.bind_eq_bind, Option.bind_some, if_neg hne]
  rfl

theorem allowed_delete_absent {filePrefix : CStr} (hp : filePrefix ∉ l) (err : LibfpgaErr) :
    PrefixOp.Allowed l (.delete (some filePrefix)) (.done (.error err)) := by
  unfold PrefixOp.Allowed
  dsimp only
  rw [if_neg hp]
  exact ⟨err, rfl⟩

/-- **A call behaves as one on a list exactly if it deletes no prefix that is not there.** -/
theorem call_iff (list : PrefixList) (l : List CStr) (op : PrefixOp) (h : Stored list l) :
    (∃ r t, prefixCall list op = some (r, t) ∧ op.Allowed l r ∧ Stored t (op.next l)) ↔
      DeletesStored l op := by
  cases op with
  | set filePrefix =>
    refine iff_of_true ?_ nofun
    cases filePrefix with
    | none => exact ⟨_, _, rfl, rfl, h⟩
    | some filePrefix =>
      obtain ⟨t, hcall, ht⟩ := setErrorPrefix_stored h filePrefix
      exact ⟨_, t, congrArg (Option.map _) hcall, rfl, ht⟩
  | get =>
    refine iff_of_true ?_ nofun
    exact ⟨_, list, congrArg (Option.map _) (getErrorPrefix_stored h), rfl, h⟩
  | check filePrefix =>
    refine iff_of_true ?_ nofun
    cases filePrefix with
    | none => exact ⟨_, _, rfl, rfl, h⟩
    | some filePrefix =>
      exact ⟨_, list, congrArg (Option.map _) (checkErrorPrefix_stored h filePrefix), rfl, h⟩
  | delete filePrefix =>
    cases filePrefix with
    | none => exact iff_of_true ⟨_, _, rfl, rfl, h⟩ nofun
    | some filePrefix =>
      by_cases hp : filePrefix ∈ l
      · refine iff_of_true ?_ ?_
        · obtain ⟨t, hcall, ht⟩ := deleteErrorPrefix_stored h hp
          exact ⟨_, t, congrArg (Option.map _) hcall, (if_pos hp).mpr rfl, ht⟩
        · rintro _ ⟨⟩
          exact .inl hp
      · cases h with
        | none =>
          exact iff_of_true ⟨_, _, rfl, allowed_delete_absent hp .invalidData, .none⟩
            fun _ _ => .inr rfl
        | array l rest hl =>
          refine iff_of_false ?_ ?_
          · rintro ⟨r, t, hcall, -⟩
            have hfail : prefixCall (some (l.map .str ++ .null :: rest)) (.delete (some filePrefix)) =
                none := congrArg (Option.map _) (deleteErrorPrefix_absent hp hl rest)
            cases hcall.symm.trans hfail
          · intro hdelete
            obtain hmem | hempty := hdelete filePrefix rfl
            · exact hp hmem
            · exact hl hempty

/-- **All calls behave as on a list exactly if none deletes a prefix that is not there, unless
nothing is.** -/
theorem behavesAsList_iff (ops : List PrefixOp) :
    BehavesAsList none [] ops ↔ Meets PrefixOp.next DeletesStored [] ops :=
  behaves_iff call_iff .none ops

/-! ### A prefix that is not there -/

/-- The prefix `a`. -/
def errorA : CStr := ⟨[97], by decide⟩

/-- The prefix `b`. -/
def errorB : CStr := ⟨[98], by decide⟩

/-- With one prefix in the array, another is deleted. -/
theorem not_behavesAsList_absent :
    ¬ BehavesAsList none [] [.set (some errorA), .delete (some errorB)] := by
  rintro ⟨-, r, t, hset, -, -, r', t', hdelete, -⟩
  cases hset
  cases hdelete

end HardwareDrivers.Libfpga
