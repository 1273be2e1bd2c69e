import HardwareDrivers.Libfpga.FunctionTable
import HardwareDrivers.Theory.Transition

/-!
# The tables of the function libraries

`functionTable_sound`: in every run of calls, with whatever the libraries and the system do, no table
has operations of a library that is not loaded, the names in the list are different, nothing is
freed or closed twice, and a load that fails leaves the tables as they were, exactly as long as

* a load that has got the name of its library finds the register function, which returns 0, and
* a library that is unloaded has no operations with another name in a table, or is open once more.

At `failed` the load frees `library_name_under_score`, which is freed already when it has the name of
the library; and the unload looks for operations by their name.
-/

namespace HardwareDrivers.Libfpga

open Theory

namespace FunctionState

/-! ### Consistent tables -/

/-- A table has the operations. -/
def Refers (s : FunctionState) (ops : FunctionOps) : Prop :=
  (∃ index, s.operationsList index = some ops) ∨ ∃ lane, s.operationsTable lane = some ops

/-- The tables are consistent, and nothing was released twice. -/
structure Consistent (s : FunctionState) : Prop where
  /-- What a table has is there. -/
  alive : ∀ ops, s.Refers ops → s.Alive ops
  /-- The names in the list are different. -/
  names : ∀ i j a b, s.operationsList i = some a → s.operationsList j = some b →
    a.name = b.name → i = j
  /-- No string is freed twice. -/
  strings : s.strings.released.Nodup
  /-- No handle is closed twice. -/
  handles : s.handles.released.Nodup

/-- The tables are the same. -/
structure SameTables (s t : FunctionState) : Prop where
  list : t.operationsList = s.operationsList
  table : t.operationsTable = s.operationsTable
  json : t.jsonParamsTable = s.jsonParamsTable
  libs : t.sharedLibsTable = s.sharedLibsTable

end FunctionState

/-- A load that returns an error leaves the tables as they were. -/
def LoadKeeps (s : FunctionState) : FunctionCall → Prop
  | .load libraryName env =>
    ∀ err, (fpgaFunctionLoad libraryName env s).1 = .error err →
      s.SameTables (fpgaFunctionLoad libraryName env s).2
  | _ => True

/-- A load gets as far as to the name of the library. -/
structure LoadNames (s : FunctionState) (libraryName : CString) (env : LoadEnv) : Prop where
  /-- The name is not too long. -/
  short : libraryName.length < filenameMax
  /-- There is a slot. -/
  slot : s.sharedLibsTable.firstFree.isSome
  /-- There is memory for the temporary name. -/
  convert : env.convert = true
  /-- The library can be opened, and has a name. -/
  opened : ((env.opened (convertHyphen2underscore libraryName)).bind Prod.snd).isSome
  /-- There is memory for the name. -/
  setName : env.setName = true

/-- The library of the handle is open once more. -/
def FunctionState.OpenedAgain (s : FunctionState) (handle : ℕ) : Prop :=
  ∃ other < s.handles.next, s.handles.Open other ∧ other ≠ handle ∧
    s.libraryOf other = s.libraryOf handle

/-- Operations of the library in a table have the name that it is unloaded with, or it is open once
more. -/
def UnloadFinds (s : FunctionState) (name : CString) (lib : FunctionLib) : Prop :=
  ∀ ops, s.Refers ops → ops.library = some (s.libraryOf lib.handle) →
    ops.name = name ∨ s.OpenedAgain lib.handle

/-- The condition for a call. -/
def FunctionFair (s : FunctionState) : FunctionCall → Prop
  | .load libraryName env =>
    ∀ name ∈ libraryName, LoadNames s name env → env.symbol = true ∧ env.ret = 0
  | .unload libraryName memory =>
    ∀ name ∈ libraryName, name.length < filenameMax → memory = true →
      ∀ index ∈ s.findLib (unloadName name), ∀ lib ∈ s.sharedLibsTable index,
        UnloadFinds s (unloadName name) lib
  | _ => True

/-! ### The invariant -/

namespace FunctionState

/-- Who holds a string. -/
def stringOf (s : FunctionState) : FunctionLane ⊕ Fin libfunctionFunctionMax → Option ℕ
  | .inl lane => s.jsonParamsTable lane
  | .inr index => (s.sharedLibsTable index).map FunctionLib.string

/-- Who holds a handle. -/
def handleOf (s : FunctionState) (index : Fin libfunctionFunctionMax) : Option ℕ :=
  (s.sharedLibsTable index).map FunctionLib.handle

variable {s : FunctionState} {lane : FunctionLane} {index : Fin libfunctionFunctionMax}
  {ops : FunctionOps} {name : CString}

theorem stringOf_setJson (json : Option ℕ) :
    (s.setJson lane json).stringOf = Function.update s.stringOf (.inl lane) json := by
  funext place
  cases place with
  | inl l => simp only [stringOf, setJson, Function.update_apply, Sum.inl.injEq]
  | inr i => simp only [stringOf, setJson, Function.update_apply, reduceCtorEq, if_false]

theorem stringOf_setLib (lib : Option FunctionLib) : (s.setLib index lib).stringOf =
    Function.update s.stringOf (.inr index) (lib.map FunctionLib.string) := by
  funext place
  cases place with
  | inl l => simp only [stringOf, setLib, Function.update_apply, reduceCtorEq, if_false]
  | inr i =>
    simp only [stringOf, setLib, Function.update_apply, Sum.inr.injEq]
    exact apply_ite _ _ _ _

theorem handleOf_setLib (lib : Option FunctionLib) : (s.setLib index lib).handleOf =
    Function.update s.handleOf index (lib.map FunctionLib.handle) := by
  funext i
  simp only [handleOf, setLib, Function.update_apply]
  exact apply_ite _ _ _ _

/-- What a table has is there, and the names in the list are different. -/
structure Registered (s : FunctionState) : Prop where
  alive : ∀ ops, s.Refers ops → s.Alive ops
  names : ∀ i j a b, s.operationsList i = some a → s.operationsList j = some b →
    a.name = b.name → i = j

/-- The invariant: strings and handles are accounted for. -/
structure Inv (s : FunctionState) : Prop where
  registered : s.Registered
  strings : s.strings.Sound s.stringOf
  handles : s.handles.Sound s.handleOf

theorem Inv.consistent (h : s.Inv) : s.Consistent :=
  ⟨h.registered.alive, h.registered.names, h.strings.nodup, h.handles.nodup⟩

theorem refers_init {default : Option CString} (h : (init default).Refers ops) :
    ops.library = none := by
  rcases h with ⟨index, h⟩ | ⟨lane, h⟩
  · simp only [init] at h
    split at h
    · obtain ⟨name, -, rfl⟩ := Option.map_eq_some_iff.mp h
      rfl
    · cases h
  · cases h

theorem Inv.init (default : Option CString) : (init default).Inv := by
  refine ⟨⟨fun ops h library hmem => ?_, fun i j a b hi hj _ => ?_⟩,
    Ledger.sound_empty fun place => ?_, Ledger.sound_empty fun _ => rfl⟩
  · rw [refers_init h] at hmem
    cases hmem
  · -- only the first slot is in use
    have hzero : ∀ {i a}, (FunctionState.init default).operationsList i = some a → i.val = 0 := by
      intro i a h
      by_contra hne
      simp only [FunctionState.init, hne, if_false, reduceCtorEq] at h
    exact Fin.ext ((hzero hi).trans (hzero hj).symm)
  · cases place <;> rfl

/-! ### Writing the tables -/

theorem Refers.of_setTable {o : Option FunctionOps} (h : (s.setTable lane o).Refers ops) :
    s.Refers ops ∨ o = some ops := by
  rcases h with ⟨i, h⟩ | ⟨l, h⟩
  · exact .inl (.inl ⟨i, h⟩)
  · rcases update_cases (fun x => x = some ops) h with ⟨-, h⟩ | ⟨-, h⟩
    · exact .inr h
    · exact .inl (.inr ⟨l, h⟩)

theorem Refers.of_setList {o : Option FunctionOps} (h : (s.setList index o).Refers ops) :
    s.Refers ops ∨ o = some ops := by
  rcases h with ⟨i, h⟩ | ⟨l, h⟩
  · rcases update_cases (fun x => x = some ops) h with ⟨-, h⟩ | ⟨-, h⟩
    · exact .inr h
    · exact .inl (.inl ⟨i, h⟩)
  · exact .inl (.inr ⟨l, h⟩)

theorem Registered.setTable (h : s.Registered) {o : Option FunctionOps}
    (ho : ∀ ops ∈ o, s.Refers ops) : (s.setTable lane o).Registered :=
  ⟨fun ops hr => h.alive ops (hr.of_setTable.elim id (ho ops)), h.names⟩

theorem Registered.setListNone (h : s.Registered) : (s.setList index none).Registered := by
  have hold : ∀ {i a}, (s.setList index none).operationsList i = some a →
      s.operationsList i = some a := by
    intro i a hi
    rcases update_cases (fun x => x = some a) hi with ⟨-, hi⟩ | ⟨-, hi⟩
    · cases hi
    · exact hi
  exact ⟨fun ops hr => h.alive ops (hr.of_setList.elim id fun hn => (by cases hn)),
    fun i j a b hi hj => h.names i j a b (hold hi) (hold hj)⟩

theorem Registered.setListSome (h : s.Registered) (ha : s.Alive ops)
    (hnew : ∀ i a, s.operationsList i = some a → a.name ≠ ops.name) :
    (s.setList index (some ops)).Registered := by
  refine ⟨fun o hr => hr.of_setList.elim (h.alive o) fun ho => (by cases ho; exact ha),
    fun i j a b hi hj hname => ?_⟩
  rcases update_cases (fun x => x = some a) hi with ⟨rfl, ha'⟩ | ⟨hi, ha'⟩ <;>
    rcases update_cases (fun x => x = some b) hj with ⟨rfl, hb'⟩ | ⟨hj, hb'⟩
  · rfl
  · cases ha'
    exact absurd hname.symm (hnew j b hb')
  · cases hb'
    exact absurd hname (hnew i a ha')
  · exact h.names i j a b ha' hb' hname

theorem Inv.setTable (h : s.Inv) {o : Option FunctionOps} (ho : ∀ ops ∈ o, s.Refers ops) :
    (s.setTable lane o).Inv :=
  ⟨h.registered.setTable ho, h.strings, h.handles⟩

theorem Inv.clearTable (h : s.Inv) : (s.setTable lane none).Inv :=
  h.setTable fun ops hmem => (by cases hmem)

theorem Inv.strdup (h : s.Inv) : s.strdup.Inv :=
  ⟨⟨h.registered.alive, h.registered.names⟩, h.strings.acquire, h.handles⟩

/-- A string that is used for a moment. -/
theorem Inv.temp (h : s.Inv) : (s.strdup.free s.strings.next).Inv :=
  ⟨⟨h.registered.alive, h.registered.names⟩, h.strings.temp, h.handles⟩

/-- The text of a lane is freed. -/
theorem Inv.freeJson (h : s.Inv) : (s.freeJson lane).Inv := by
  cases hj : s.jsonParamsTable lane with
  | none =>
    simp only [FunctionState.freeJson, hj]
    exact h
  | some json =>
    simp only [FunctionState.freeJson, hj]
    have htake := h.strings.take (i := Sum.inl lane) hj
    exact ⟨⟨h.registered.alive, h.registered.names⟩, by rw [stringOf_setJson]; exact htake, h.handles⟩

/-- The text that is given for a lane. -/
theorem Inv.putJson (h : s.Inv) : (s.strdup.setJson lane (some s.strings.next)).Inv := by
  have hput := h.strings.put (Sum.inl lane)
  exact ⟨⟨h.registered.alive, h.registered.names⟩, by rw [stringOf_setJson]; exact hput, h.handles⟩

/-! ### The calls -/

theorem Inv.config (h : s.Inv) (lane : Option FunctionLane) (funcType : Option CString)
    (memory : Bool) : (fpgaFunctionConfig lane funcType memory s).2.Inv := by
  unfold fpgaFunctionConfig
  split
  · split
    · exact h.clearTable
    · split
      · exact h
      · dsimp only
        split
        case _ ops hfind =>
          have hmem : ops ∈ s.operationsList.entries := List.mem_of_find?_eq_some hfind
          obtain ⟨index, hindex⟩ := Slots.mem_entries.mp hmem
          exact h.temp.setTable fun o ho => by
            cases ho
            exact .inl ⟨index, hindex⟩
        · exact h.temp
  · exact h

theorem Inv.get (h : s.Inv) (lane : Option FunctionLane) (ret : ℤ) (text : Bool) :
    (fpgaFunctionGet lane ret text s).2.Inv := by
  unfold fpgaFunctionGet
  split
  · exact h
  case _ lane =>
    split
    · exact h
    · split
      · exact h
      · have hfree : (s.freeJson lane).Inv := h.freeJson
        dsimp only
        cases text with
        | false => split <;> exact hfree
        | true =>
          rw [if_pos rfl]
          split
          · exact hfree.putJson
          · exact hfree.strdup

theorem Inv.getConfigName (h : s.Inv) (lane : Option FunctionLane) (memory : Bool) :
    (fpgaFunctionGetConfigName lane memory s).2.Inv := by
  unfold fpgaFunctionGetConfigName
  split
  · exact h
  · split
    · exact h
    · split
      · exact h.strdup
      · exact h

theorem Inv.finish (h : s.Inv) (lane : Option FunctionLane) (ret : ℤ) :
    (fpgaFunctionFinish lane ret s).2.Inv := by
  unfold fpgaFunctionFinish
  split
  · exact h
  · split
    · exact h
    · split
      · exact h
      · exact h.clearTable.freeJson

/-- What `fpga_function_register` does. -/
inductive RegisterOutcome (s : FunctionState) :
    Option FunctionOps → FunctionResult × FunctionState → Prop where
  /-- An error. -/
  | refused (ops : Option FunctionOps) (err : FunctionErr) : RegisterOutcome s ops (.error err, s)
  /-- The operations have a slot. -/
  | registered (ops : FunctionOps) (index : Fin libfunctionFunctionMax)
      (hnew : ∀ i a, s.operationsList i = some a → a.name ≠ ops.name) :
      RegisterOutcome s (some ops) (.ok (), s.setList index (some ops))

theorem register_outcome (s : FunctionState) (ops : Option FunctionOps) :
    RegisterOutcome s ops (fpgaFunctionRegister ops s) := by
  unfold fpgaFunctionRegister
  split
  · exact .refused ..
  case _ ops =>
    split
    · exact .refused ..
    · next hnone =>
      split
      · exact .refused ..
      · refine .registered _ _ fun i a hi hname => hnone ?_
        exact List.any_eq_true.mpr ⟨a, Slots.mem_entries_of_eq hi, decide_eq_true hname⟩

theorem Inv.register (h : s.Inv) {o : Option FunctionOps} (ha : ∀ ops ∈ o, s.Alive ops) :
    (fpgaFunctionRegister o s).2.Inv := by
  have hout := register_outcome s o
  generalize fpgaFunctionRegister o s = r at hout ⊢
  cases hout with
  | refused => exact h
  | registered ops index hnew =>
    exact ⟨h.registered.setListSome (ha ops rfl) hnew, h.strings, h.handles⟩

theorem Inv.unregister (h : s.Inv) (name : Option CString) :
    (fpgaFunctionUnregister name s).2.Inv := by
  unfold fpgaFunctionUnregister
  split
  · exact h
  · split
    · exact h
    · exact ⟨h.registered.setListNone, h.strings, h.handles⟩

/-! ### Unloading -/

/-- Only the two tables of a lane and the strings may differ. -/
structure SameLibs (s t : FunctionState) : Prop where
  list : t.operationsList = s.operationsList
  libs : t.sharedLibsTable = s.sharedLibsTable
  handles : t.handles = s.handles
  libraryOf : t.libraryOf = s.libraryOf

theorem sameLibs_freeJson (s : FunctionState) (lane : FunctionLane) : s.SameLibs (s.freeJson lane) := by
  unfold FunctionState.freeJson
  split <;> exact ⟨rfl, rfl, rfl, rfl⟩

theorem table_freeJson : (s.freeJson lane).operationsTable = s.operationsTable := by
  unfold FunctionState.freeJson
  split <;> rfl

theorem sameLibs_unconfigure : s.SameLibs (unconfigure name s lane) := by
  unfold unconfigure
  split
  · exact ⟨rfl, rfl, rfl, rfl⟩
  · split
    · obtain ⟨hlist, hlibs, hhandles, hlib⟩ := sameLibs_freeJson (s.setTable lane none) lane
      exact ⟨hlist, hlibs, hhandles, hlib⟩
    · exact ⟨rfl, rfl, rfl, rfl⟩

theorem Inv.unconfigure (h : s.Inv) : (unconfigure name s lane).Inv := by
  unfold Libfpga.unconfigure
  split
  · exact h
  · split
    · exact h.clearTable.freeJson
    · exact h

/-- One lane is left without operations of the name. -/
theorem table_unconfigure : (unconfigure name s lane).operationsTable =
    Function.update s.operationsTable lane
      ((s.operationsTable lane).filter fun ops => ops.name ≠ name) := by
  unfold Libfpga.unconfigure
  split
  · next h =>
    rw [h, Option.filter_none, ← h, Function.update_eq_self]
  · next ops h =>
    split
    · next hname =>
      rw [table_freeJson, h, Option.filter_some, if_neg (by simpa using hname)]
      rfl
    · next hname =>
      rw [h, Option.filter_some, if_pos (by simpa using hname), ← h, Function.update_eq_self]

theorem mem_functionLanes (lane : FunctionLane) : lane ∈ functionLanes :=
  List.mem_flatMap.mpr ⟨lane.1, List.mem_finRange _, List.mem_map.mpr
    ⟨lane.2, List.mem_finRange _, rfl⟩⟩

theorem sameLibs_foldl_unconfigure (name : CString) (lanes : List FunctionLane) (s : FunctionState) :
    s.SameLibs (lanes.foldl (unconfigure name) s) := by
  induction lanes generalizing s with
  | nil => exact ⟨rfl, rfl, rfl, rfl⟩
  | cons lane lanes ih =>
    have hstep : s.SameLibs (unconfigure name s lane) := sameLibs_unconfigure
    have hrest := ih (unconfigure name s lane)
    exact ⟨hrest.list.trans hstep.list, hrest.libs.trans hstep.libs,
      hrest.handles.trans hstep.handles, hrest.libraryOf.trans hstep.libraryOf⟩

theorem Inv.foldl_unconfigure (lanes : List FunctionLane) (h : s.Inv) :
    (lanes.foldl (Libfpga.unconfigure name) s).Inv := by
  induction lanes generalizing s with
  | nil => exact h
  | cons lane lanes ih => exact ih h.unconfigure

theorem table_foldl_unconfigure (name : CString) (lanes : List FunctionLane) (s : FunctionState)
    (l : FunctionLane) : (lanes.foldl (unconfigure name) s).operationsTable l =
      if l ∈ lanes then (s.operationsTable l).filter fun ops => ops.name ≠ name
      else s.operationsTable l := by
  induction lanes generalizing s with
  | nil => rfl
  | cons lane lanes ih =>
    rw [List.foldl_cons, ih, table_unconfigure]
    by_cases hl : l = lane
    · subst hl
      rw [Function.update_self, if_pos List.mem_cons_self, Option.filter_filter]
      simp only [Bool.and_self, ite_self]
    · rw [Function.update_of_ne hl]
      simp only [List.mem_cons, hl, false_or]

/-- `fpga_function_unregister` writes the list only. -/
theorem unregister_eq (name : Option CString) :
    ∃ list, (fpgaFunctionUnregister name s).2 = { s with operationsList := list } := by
  unfold fpgaFunctionUnregister
  split
  · exact ⟨_, rfl⟩
  · split
    · exact ⟨_, rfl⟩
    · exact ⟨_, rfl⟩

/-- The list is left without operations of the name. -/
theorem list_unregister (h : s.Registered) (i : Fin libfunctionFunctionMax) :
    (fpgaFunctionUnregister (some name) s).2.operationsList i =
      (s.operationsList i).filter fun ops => ops.name ≠ name := by
  -- an entry with another name is kept by the filter
  have hkeep : ∀ {i}, (∀ a, s.operationsList i = some a → a.name ≠ name) →
      s.operationsList i = (s.operationsList i).filter fun ops => ops.name ≠ name := by
    intro i hne
    cases hi : s.operationsList i with
    | none => rfl
    | some a => rw [Option.filter_some, if_pos (by simpa using hne a hi)]
  unfold fpgaFunctionUnregister
  dsimp only
  split
  case _ hfind =>
    refine hkeep fun a hi hname => ?_
    have hnone := List.find?_eq_none.mp hfind i (List.mem_finRange i)
    rw [hi, Option.any_some, decide_eq_true_eq] at hnone
    exact hnone hname
  case _ index hfind =>
    have hsome := List.find?_some hfind
    obtain ⟨a, ha, hname⟩ := Option.any_eq_true _ _ |>.mp hsome
    have haname : a.name = name := of_decide_eq_true hname
    by_cases hi : i = index
    · subst hi
      rw [ha, Option.filter_some, if_neg (by simpa using haname)]
      exact Function.update_self ..
    · exact (Function.update_of_ne hi ..).trans <| hkeep fun b hb hbname =>
        hi (h.names i index b a hb ha (hbname.trans haname.symm))

/-- Among the entries of a table, those with another name. -/
theorem filter_name_eq_some {o : Option FunctionOps} :
    (o.filter fun ops => ops.name ≠ name) = some ops ↔ o = some ops ∧ ops.name ≠ name := by
  rw [Option.filter_eq_some_iff, decide_eq_true_eq]

variable {lib : FunctionLib}

/-- The last part of unloading: the table of the libraries. -/
def closeLib (index : Fin libfunctionFunctionMax) (lib : FunctionLib) (s : FunctionState) :
    FunctionState :=
  ((s.free lib.string).dlclose lib.handle).setLib index none

@[simp] theorem operationsList_closeLib :
    (closeLib index lib s).operationsList = s.operationsList := rfl

@[simp] theorem operationsTable_closeLib :
    (closeLib index lib s).operationsTable = s.operationsTable := rfl

@[simp] theorem handles_closeLib : (closeLib index lib s).handles = s.handles.release lib.handle := rfl

@[simp] theorem libraryOf_closeLib : (closeLib index lib s).libraryOf = s.libraryOf := rfl

theorem refers_closeLib (index : Fin libfunctionFunctionMax) (lib : FunctionLib) :
    (closeLib index lib s).Refers ops ↔ s.Refers ops := Iff.rfl

theorem unloadFound_eq : unloadFound name index lib s = closeLib index lib
    (fpgaFunctionUnregister (some name) (functionLanes.foldl (unconfigure name) s)).2 := rfl

/-- It keeps the invariant, if what is left in the tables is of other libraries. -/
theorem Inv.closeLib (h : s.Inv) (hlib : s.sharedLibsTable index = some lib)
    (halive : ∀ ops, s.Refers ops → (closeLib index lib s).Alive ops) :
    (closeLib index lib s).Inv := by
  refine ⟨⟨halive, h.registered.names⟩, ?_, ?_⟩
  · have hheld : s.stringOf (.inr index) = some lib.string :=
      congrArg (Option.map FunctionLib.string) hlib
    have htake := h.strings.take hheld
    unfold FunctionState.closeLib
    rw [stringOf_setLib]
    exact htake
  · have hheld : s.handleOf index = some lib.handle := congrArg (Option.map FunctionLib.handle) hlib
    have htake := h.handles.take hheld
    unfold FunctionState.closeLib
    rw [handleOf_setLib]
    exact htake

/-- What the tables have after the library is unloaded. -/
theorem refers_unloadFound (h : s.Inv) :
    (unloadFound name index lib s).Refers ops ↔ s.Refers ops ∧ ops.name ≠ name := by
  have hsame := sameLibs_foldl_unconfigure name functionLanes s
  have hfold : (functionLanes.foldl (Libfpga.unconfigure name) s).Inv :=
    h.foldl_unconfigure functionLanes
  obtain ⟨list, heq⟩ :=
    unregister_eq (s := functionLanes.foldl (Libfpga.unconfigure name) s) (some name)
  have hlist : ∀ i, (unloadFound name index lib s).operationsList i =
      (s.operationsList i).filter fun ops => ops.name ≠ name := by
    intro i
    rw [unloadFound_eq, operationsList_closeLib, list_unregister hfold.registered i, hsame.list]
  have htable : ∀ l, (unloadFound name index lib s).operationsTable l =
      (s.operationsTable l).filter fun ops => ops.name ≠ name := by
    intro l
    have hl := table_foldl_unconfigure name functionLanes s l
    rw [if_pos (mem_functionLanes l)] at hl
    rw [unloadFound_eq, operationsTable_closeLib, heq]
    exact hl
  simp only [Refers, hlist, htable, filter_name_eq_some]
  rw [exists_and_right, exists_and_right, or_and_right]

/-- A library that is loaded after another one was unloaded. -/
theorem alive_unloadFound : (unloadFound name index lib s).Alive ops ↔
    ∀ library ∈ ops.library, ∃ other < s.handles.next, s.handles.Open other ∧ other ≠ lib.handle ∧
      s.libraryOf other = library := by
  have hsame := sameLibs_foldl_unconfigure name functionLanes s
  obtain ⟨list, heq⟩ :=
    unregister_eq (s := functionLanes.foldl (Libfpga.unconfigure name) s) (some name)
  have hhandles : (unloadFound name index lib s).handles = s.handles.release lib.handle := by
    rw [unloadFound_eq, handles_closeLib, heq]
    exact congrArg (Ledger.release · lib.handle) hsame.handles
  have hlib : (unloadFound name index lib s).libraryOf = s.libraryOf := by
    rw [unloadFound_eq, libraryOf_closeLib, heq]
    exact hsame.libraryOf
  simp only [Alive, Loaded, hhandles, hlib]
  constructor
  · intro h library hmem
    obtain ⟨other, hlt, hopen, hof⟩ := h library hmem
    obtain ⟨hne, hopen⟩ := Ledger.open_of_release hopen
    exact ⟨other, hlt, hopen, hne, hof⟩
  · intro h library hmem
    obtain ⟨other, hlt, hopen, hne, hof⟩ := h library hmem
    exact ⟨other, hlt, hopen.release hne, hof⟩

/-- Unloading keeps the invariant, if it finds what the tables have of the library. -/
theorem Inv.unloadFound (h : s.Inv) (hlib : s.sharedLibsTable index = some lib)
    (hfinds : UnloadFinds s name lib) : (unloadFound name index lib s).Inv := by
  have hsame := sameLibs_foldl_unconfigure name functionLanes s
  have hfold : (functionLanes.foldl (Libfpga.unconfigure name) s).Inv :=
    h.foldl_unconfigure functionLanes
  obtain ⟨list, heq⟩ :=
    unregister_eq (s := functionLanes.foldl (Libfpga.unconfigure name) s) (some name)
  rw [unloadFound_eq]
  refine (hfold.unregister (some name)).closeLib ?_ fun ops hr => ?_
  · rw [heq]
    exact (congrFun hsame.libs index).trans hlib
  · rw [← refers_closeLib index lib, ← unloadFound_eq, refers_unloadFound h] at hr
    obtain ⟨hr, hname⟩ := hr
    rw [← unloadFound_eq]
    refine alive_unloadFound.mpr fun library hmem => ?_
    obtain ⟨handle, hlt, hopen, hof⟩ := h.registered.alive ops hr library hmem
    by_cases hhandle : handle = lib.handle
    · subst hhandle
      have hlibrary : ops.library = some (s.libraryOf lib.handle) :=
        (Option.mem_def.mp hmem).trans (congrArg some hof.symm)
      obtain ⟨other, hlt, hopen, hne, hsameLib⟩ := (hfinds ops hr hlibrary).resolve_left hname
      exact ⟨other, hlt, hopen, hne, hsameLib.trans hof⟩
    · exact ⟨handle, hlt, hopen, hhandle, hof⟩

/-- Operations of the library that unloading does not find stay in the table. -/
theorem unloadFinds_of_consistent (h : s.Inv) (hc : (unloadFound name index lib s).Consistent) :
    UnloadFinds s name lib := by
  intro ops hr hlibrary
  by_cases hname : ops.name = name
  · exact .inl hname
  · have halive := hc.alive ops ((refers_unloadFound h).mpr ⟨hr, hname⟩)
    exact .inr (alive_unloadFound.mp halive _ hlibrary)

/-- What `fpga_function_unload` does. -/
inductive UnloadOutcome (s : FunctionState) (libraryName : Option CString) (memory : Bool) :
    FunctionResult × FunctionState → Prop where
  /-- An error, before the name is looked at. -/
  | refused (err : FunctionErr)
      (hbad : ∀ name ∈ libraryName, ¬ (name.length < filenameMax ∧ memory = true)) :
      UnloadOutcome s libraryName memory (.error err, s)
  /-- There is no such library. -/
  | notFound (err : FunctionErr)
      (hbad : ∀ name ∈ libraryName, ∀ index ∈ s.findLib (unloadName name),
        s.sharedLibsTable index = none) :
      UnloadOutcome s libraryName memory (.error err, s.strdup.free s.strings.next)
  /-- The library is unloaded. -/
  | unloaded (name : CString) (index : Fin libfunctionFunctionMax) (lib : FunctionLib)
      (hname : libraryName = some name) (hshort : name.length < filenameMax)
      (hmemory : memory = true) (hfind : s.findLib (unloadName name) = some index)
      (hlib : s.sharedLibsTable index = some lib) :
      UnloadOutcome s libraryName memory
        (.ok (), Libfpga.unloadFound (unloadName name) index lib (s.strdup.free s.strings.next))

theorem unload_outcome (s : FunctionState) (libraryName : Option CString) (memory : Bool) :
    UnloadOutcome s libraryName memory (fpgaFunctionUnload libraryName memory s) := by
  unfold fpgaFunctionUnload
  split
  · exact .refused _ fun name hmem => (by cases hmem)
  case _ name =>
    split
    case _ hlong =>
      refine .refused _ fun n hmem hok => ?_
      cases hmem
      exact absurd hok.1 (Nat.not_lt.mpr hlong)
    case _ hshort =>
      split
      case _ hmemory =>
        refine .refused _ fun n hmem hok => ?_
        rw [hmemory] at hok
        exact Bool.noConfusion hok.2
      case _ hmemory =>
        dsimp only
        split
        case _ hfind =>
          refine .notFound _ fun n hmem index hindex => ?_
          cases hmem
          cases hfind.symm.trans hindex
        case _ index hfind =>
          split
          case _ hnone =>
            refine .notFound _ fun n hmem i hi => ?_
            cases hmem
            cases hfind.symm.trans hi
            exact hnone
          case _ lib hlib =>
            exact .unloaded name index lib rfl (Nat.not_le.mp hshort)
              (Bool.eq_true_of_not_eq_false hmemory) hfind hlib

/-! ### Loading -/

/-- Loaded libraries stay loaded when another one is opened. -/
theorem Loaded.dlopen {library : ℕ} (h : s.Loaded library) (other : ℕ) :
    (s.dlopen other).Loaded library := by
  obtain ⟨handle, hlt, hopen, hof⟩ := h
  exact ⟨handle, Nat.lt_succ_of_lt hlt, hopen.acquire,
    (Function.update_of_ne (Nat.ne_of_lt hlt) ..).trans hof⟩

/-- The library is opened. -/
theorem Inv.dlopen (h : s.Inv) (library : ℕ) : (s.dlopen library).Inv :=
  ⟨⟨fun ops hr lib hmem => (h.registered.alive ops hr lib hmem).dlopen library, h.registered.names⟩,
    h.strings, h.handles.acquire⟩

/-- The library is opened and closed, and what was opened before stays open. -/
theorem Inv.openClose (h : s.Inv) (library : ℕ) :
    ((s.dlopen library).dlclose s.handles.next).Inv := by
  refine ⟨⟨fun ops hr lib hmem => ?_, h.registered.names⟩, h.strings, h.handles.temp⟩
  obtain ⟨handle, hlt, hopen, hof⟩ := h.registered.alive ops hr lib hmem
  exact ⟨handle, Nat.lt_succ_of_lt hlt, hopen.acquire.release (Nat.ne_of_lt hlt),
    (Function.update_of_ne (Nat.ne_of_lt hlt) ..).trans hof⟩

/-- What `fpga_function_load` does. -/
inductive LoadOutcome (s : FunctionState) (libraryName : Option CString) (env : LoadEnv) :
    FunctionResult × FunctionState → Prop where
  /-- An error, before the name is copied. -/
  | refused (err : FunctionErr) (hbad : ∀ name ∈ libraryName, ¬ LoadNames s name env) :
      LoadOutcome s libraryName env (.error err, s)
  /-- The library cannot be opened. -/
  | notOpened (err : FunctionErr) (hbad : ∀ name ∈ libraryName, ¬ LoadNames s name env) :
      LoadOutcome s libraryName env (.error err, s.strdup.free s.strings.next)
  /-- The library is opened, and has no name. -/
  | notNamed (err : FunctionErr) (library : ℕ)
      (hbad : ∀ name ∈ libraryName, ¬ LoadNames s name env) :
      LoadOutcome s libraryName env
        (.error err, loadFailed none s.handles.next s.strings.next (s.strdup.dlopen library))
  /-- The library is opened, and has its name. -/
  | named (name : CString) (index : Fin libfunctionFunctionMax) (library : ℕ) (setName : CString)
      (hname : libraryName = some name) (hnames : LoadNames s name env)
      (hopened : env.opened (convertHyphen2underscore name) = some (library, some setName)) :
      LoadOutcome s libraryName env (loadRegister index setName (s.strings.next + 1) s.handles.next
        s.strings.next env ((s.strdup.dlopen library).strdup.free s.strings.next))

theorem load_outcome (s : FunctionState) (libraryName : Option CString) (env : LoadEnv) :
    LoadOutcome s libraryName env (fpgaFunctionLoad libraryName env s) := by
  unfold fpgaFunctionLoad
  split
  · exact .refused _ fun name hmem => (by cases hmem)
  case _ name =>
    split
    case _ hlong =>
      refine .refused _ fun n hmem hnames => ?_
      cases hmem
      exact absurd hnames.short (Nat.not_lt.mpr hlong)
    case _ hshort =>
      split
      case _ hfull =>
        refine .refused _ fun n hmem hnames => ?_
        have hslot := hnames.slot
        rw [hfull] at hslot
        cases hslot
      case _ index hslot =>
        split
        case _ hconvert =>
          refine .refused _ fun n hmem hnames => ?_
          cases hconvert.symm.trans hnames.convert
        case _ hconvert =>
          dsimp only
          split
          case _ hopened =>
            refine .notOpened _ fun n hmem hnames => ?_
            cases hmem
            have hsome := hnames.opened
            rw [hopened] at hsome
            cases hsome
          case _ library setName hopened =>
            unfold loadOpened
            split
            · refine .notNamed _ library fun n hmem hnames => ?_
              cases hmem
              have hsome := hnames.opened
              rw [hopened] at hsome
              cases hsome
            case _ setName =>
              split
              case _ hsetName =>
                refine .notNamed _ library fun n hmem hnames => ?_
                cases hsetName.symm.trans hnames.setName
              case _ hsetName =>
                refine .named name index library setName rfl
                  ⟨Nat.not_le.mp hshort, ?_, Bool.eq_true_of_not_eq_false hconvert, ?_,
                    Bool.eq_true_of_not_eq_false hsetName⟩ hopened
                · rw [hslot]
                  rfl
                · rw [hopened]
                  rfl

/-- Registering writes the list only. -/
theorem register_eq (o : Option FunctionOps) :
    ∃ list, (fpgaFunctionRegister o s).2 = { s with operationsList := list } := by
  have hout := register_outcome s o
  generalize fpgaFunctionRegister o s = r at hout ⊢
  cases hout with
  | refused => exact ⟨_, rfl⟩
  | registered ops index hnew => exact ⟨_, rfl⟩

/-- What a library registers. -/
theorem foldl_register_eq (registers : List FunctionOps) (s : FunctionState) :
    ∃ list, registers.foldl (fun s ops => (fpgaFunctionRegister (some ops) s).2) s =
      { s with operationsList := list } := by
  induction registers generalizing s with
  | nil => exact ⟨_, rfl⟩
  | cons ops registers ih =>
    obtain ⟨list, hlist⟩ := register_eq (s := s) (some ops)
    obtain ⟨list', hlist'⟩ := ih { s with operationsList := list }
    refine ⟨list', ?_⟩
    rw [List.foldl_cons, hlist, hlist']

theorem Registered.foldl_register (h : s.Registered) (registers : List FunctionOps)
    (ha : ∀ ops ∈ registers, s.Alive ops) :
    (registers.foldl (fun s ops => (fpgaFunctionRegister (some ops) s).2) s).Registered := by
  induction registers generalizing s with
  | nil => exact h
  | cons ops registers ih =>
    obtain ⟨hops, hrest⟩ := List.forall_mem_cons.mp ha
    have hout := register_outcome s (some ops)
    rw [List.foldl_cons]
    generalize fpgaFunctionRegister (some ops) s = r at hout ⊢
    cases hout with
    | refused => exact ih h hrest
    | registered ops index hnew => exact ih (h.setListSome hops hnew) hrest

/-- With its name, the library is loaded if its register function goes through. -/
theorem Inv.loadRegister {library : ℕ} {setName : CString} {env : LoadEnv} (h : s.Inv)
    (hregisters : ∀ ops ∈ env.registers, (s.dlopen library).Alive ops) (hsymbol : env.symbol = true)
    (hret : env.ret = 0) :
    (Libfpga.loadRegister index setName (s.strings.next + 1) s.handles.next s.strings.next env
      ((s.strdup.dlopen library).strdup.free s.strings.next)).2.Inv := by
  unfold Libfpga.loadRegister
  rw [hsymbol, if_neg Bool.noConfusion, hret, if_neg (fun h => h rfl)]
  have hopen := h.dlopen library
  have hreg := Registered.foldl_register (s := (s.strdup.dlopen library).strdup.free s.strings.next)
    ⟨hopen.registered.alive, hopen.registered.names⟩ env.registers hregisters
  obtain ⟨list, heq⟩ := foldl_register_eq env.registers
    ((s.strdup.dlopen library).strdup.free s.strings.next)
  -- the name of the library is the string that is left of the two
  have hstrings : (s.strings.acquire.acquire.release s.strings.next).Sound s.stringOf :=
    h.strings.acquire.acquire.release h.strings.open_next.acquire h.strings.ne_next
  have hname : (s.strings.acquire.acquire.release s.strings.next).Open (s.strings.next + 1) :=
    h.strings.acquire.open_next.release (Nat.succ_ne_self _)
  have hhold := hstrings.hold hname (h.strings.acquire.ne_next) (.inr index)
  have hput := h.handles.put index
  rw [heq] at hreg ⊢
  refine ⟨⟨hreg.alive, hreg.names⟩, ?_, ?_⟩
  · rw [stringOf_setLib]
    exact hhold
  · rw [handleOf_setLib]
    exact hput

/-- `failed` frees `library_name_under_score` once more, if the library has its name. -/
theorem not_consistent_loadFailed {handle string underScore : ℕ} {t : FunctionState}
    (hfreed : underScore ∈ t.strings.released) :
    ¬ (loadFailed (some string) handle underScore t).Consistent := fun hc =>
  Ledger.not_nodup_release (l := t.strings.release string) (List.mem_cons_of_mem _ hfreed)
    hc.strings

theorem loadRegister_of_consistent {library : ℕ} {setName : CString} {env : LoadEnv}
    (hc : (Libfpga.loadRegister index setName (s.strings.next + 1) s.handles.next s.strings.next env
      ((s.strdup.dlopen library).strdup.free s.strings.next)).2.Consistent) :
    env.symbol = true ∧ env.ret = 0 := by
  have hfreed : s.strings.next ∈
      ((s.strdup.dlopen library).strdup.free s.strings.next).strings.released := List.mem_cons_self
  unfold Libfpga.loadRegister at hc
  split at hc
  · exact absurd hc (not_consistent_loadFailed hfreed)
  · next hsymbol =>
    dsimp only at hc
    split at hc
    · refine absurd hc (not_consistent_loadFailed ?_)
      obtain ⟨list, heq⟩ := foldl_register_eq env.registers
        ((s.strdup.dlopen library).strdup.free s.strings.next)
      rw [heq]
      exact hfreed
    · next hret => exact ⟨Bool.eq_true_of_not_eq_false hsymbol, not_not.mp hret⟩

theorem Inv.load (h : s.Inv) {libraryName : Option CString} {env : LoadEnv}
    (hvalid : (FunctionCall.load libraryName env).Valid s)
    (hfair : FunctionFair s (.load libraryName env)) :
    (fpgaFunctionLoad libraryName env s).2.Inv := by
  have hout := load_outcome s libraryName env
  generalize fpgaFunctionLoad libraryName env s = r at hout ⊢
  cases hout with
  | refused => exact h
  | notOpened => exact h.temp
  | notNamed err library => exact (h.openClose library).temp
  | named name index library setName hname hnames hopened =>
    obtain ⟨hsymbol, hret⟩ := hfair name hname hnames
    exact h.loadRegister (hvalid name hname _ hopened) hsymbol hret

theorem Inv.unload (h : s.Inv) {libraryName : Option CString} {memory : Bool}
    (hfair : FunctionFair s (.unload libraryName memory)) :
    (fpgaFunctionUnload libraryName memory s).2.Inv := by
  have hout := unload_outcome s libraryName memory
  generalize fpgaFunctionUnload libraryName memory s = r at hout ⊢
  cases hout with
  | refused => exact h
  | notFound => exact h.temp
  | unloaded name index lib hname hshort hmemory hfind hlib =>
    exact h.temp.unloadFound hlib (hfair name hname hshort hmemory index hfind lib hlib)

/-- A step that meets the condition keeps the invariant. -/
theorem Inv.step {t : FunctionState} {call : FunctionCall} (h : s.Inv) (hfair : FunctionFair s call)
    (hstep : functionStep s call = some t) : t.Inv := by
  obtain ⟨hvalid, heq⟩ := Option.ite_none_right_eq_some.mp hstep
  cases heq
  cases call with
  | config lane funcType memory => exact h.config lane funcType memory
  | get lane ret text => exact h.get lane ret text
  | getConfigName lane memory => exact h.getConfigName lane memory
  | finish lane ret => exact h.finish lane ret
  | register ops => exact h.register hvalid
  | unregister name => exact h.unregister name
  | load libraryName env => exact h.load hvalid hfair
  | unload libraryName memory => exact h.unload hfair

/-- A step to a consistent state meets the condition. -/
theorem Inv.fair {t : FunctionState} {call : FunctionCall} (h : s.Inv)
    (hstep : functionStep s call = some t) (ht : t.Consistent) : FunctionFair s call := by
  obtain ⟨-, heq⟩ := Option.ite_none_right_eq_some.mp hstep
  cases heq
  cases call with
  | load libraryName env =>
    intro name hmem hnames
    have hout := load_outcome s libraryName env
    change (fpgaFunctionLoad libraryName env s).2.Consistent at ht
    generalize fpgaFunctionLoad libraryName env s = r at hout ht
    cases hout with
    | refused _ hbad => exact absurd hnames (hbad name hmem)
    | notOpened _ hbad => exact absurd hnames (hbad name hmem)
    | notNamed _ _ hbad => exact absurd hnames (hbad name hmem)
    | named => exact loadRegister_of_consistent ht
  | unload libraryName memory =>
    intro name hmem hshort hmemory index hfind lib hlib
    have hout := unload_outcome s libraryName memory
    change (fpgaFunctionUnload libraryName memory s).2.Consistent at ht
    generalize fpgaFunctionUnload libraryName memory s = r at hout ht
    cases hout with
    | refused _ hbad => exact absurd ⟨hshort, hmemory⟩ (hbad name hmem)
    | notFound _ hbad => cases (hbad name hmem index hfind).symm.trans hlib
    | unloaded name' index' lib' hname' _ _ hfind' hlib' =>
      cases hname'.symm.trans hmem
      cases hfind'.symm.trans hfind
      cases hlib'.symm.trans hlib
      have hfinds := unloadFinds_of_consistent h.temp ht
      exact hfinds
  | _ => trivial

/-- A load that meets the condition leaves the tables as they were if it fails. -/
theorem loadKeeps {call : FunctionCall} (hfair : FunctionFair s call) : LoadKeeps s call := by
  cases call with
  | load libraryName env =>
    intro err herr
    have hout := load_outcome s libraryName env
    generalize fpgaFunctionLoad libraryName env s = r at hout herr ⊢
    cases hout with
    | refused => exact ⟨rfl, rfl, rfl, rfl⟩
    | notOpened => exact ⟨rfl, rfl, rfl, rfl⟩
    | notNamed => exact ⟨rfl, rfl, rfl, rfl⟩
    | named name index library setName hname hnames hopened =>
      -- where the condition holds, this load does not fail
      obtain ⟨hsymbol, hret⟩ := hfair name hname hnames
      unfold Libfpga.loadRegister at herr
      rw [hsymbol, if_neg Bool.noConfusion, hret, if_neg (fun h => h rfl)] at herr
      cases herr
  | _ => trivial

end FunctionState

open FunctionState

/-- In every run of calls, with whatever the libraries and the system do, the tables are consistent
and loads that fail leave them as they were exactly if every call meets the condition. -/
theorem functionTable_sound (default : Option CString) (calls : List FunctionCall) :
    (Always functionStep Consistent (.init default) calls ∧
        Along functionStep LoadKeeps (.init default) calls) ↔
      Along functionStep FunctionFair (.init default) calls := by
  have hstep : ∀ s call t, FunctionState.Inv s → FunctionFair s call →
      functionStep s call = some t → FunctionState.Inv t :=
    fun _ _ _ h hfair hstep => h.step hfair hstep
  have hiff := always_iff_along hstep (fun _ h => h.consistent)
    (fun _ _ _ h hstep ht => h.fair hstep ht) (Inv.init default) calls
  exact ⟨fun h => hiff.mp h.1, fun h => ⟨hiff.mpr h,
    along_of_along hstep (fun _ _ _ _ hfair _ => loadKeeps hfair) (Inv.init default) h⟩⟩

/-! ### Where the code is wrong -/

/-- `blur` of the library `edge`. -/
def blurOps : FunctionOps := ⟨"blur".toList, some 7, true, true⟩

/-- The library `edge` registers operations named `blur`; it has a register function if `symbol`. -/
def blurEnv (symbol : Bool) (ret : ℤ) : LoadEnv where
  convert := true
  dlopen := fun file => if file = libraryFile "edge".toList then some 7 else none
  setName := true
  symbol := symbol
  registers := [blurOps]
  ret := ret

/-- The library `edge` has no register function. -/
def noSymbolRun : List FunctionCall := [.load (some "edge".toList) (blurEnv false 0)]

/-- The library `edge` registers `blur`, and its register function fails. -/
def failingRun : List FunctionCall := [.load (some "edge".toList) (blurEnv true (-1))]

/-- Lane 0 of device 0. -/
def firstLane : FunctionLane := (⟨0, Nat.zero_lt_succ 15⟩, ⟨0, Nat.zero_lt_succ 3⟩)

/-- The first slot of the list. -/
def firstSlot : Fin libfunctionFunctionMax := ⟨0, Nat.zero_lt_succ 63⟩

/-- The library `edge` registers `blur`, which is configured, and is unloaded. -/
def otherNameRun : List FunctionCall :=
  [.load (some "edge".toList) (blurEnv true 0), .config (some firstLane) (some "blur".toList) true,
    .unload (some "edge".toList) true]

/-- A run that ends in a state that is not consistent. -/
theorem not_always_consistent {calls : List FunctionCall} (p : FunctionState → Bool)
    (hrun : (run functionStep (.init none) calls).any p = true)
    (hp : ∀ t, p t = true → ¬ t.Consistent) :
    ¬ Always functionStep Consistent (.init none) calls := by
  intro h
  obtain ⟨t, ht, hpt⟩ := Option.any_eq_true _ _ |>.mp hrun
  exact hp t hpt (h.last ht)

/-- A table has operations of a library that is not loaded. -/
theorem not_consistent_of_refers {s : FunctionState} {ops : FunctionOps} {library : ℕ}
    (hr : s.Refers ops) (hlibrary : ops.library = some library) (h : ¬ s.Loaded library) :
    ¬ s.Consistent := fun hc => h (hc.alive ops hr library hlibrary)

/-- A load without a register function frees a string twice; a register function that fails
leaves its operations in the list, with the library closed; and unloading leaves operations with
another name in both tables. -/
theorem not_functionTable_sound :
    ¬ Always functionStep Consistent (.init none) noSymbolRun ∧
      ¬ Always functionStep Consistent (.init none) failingRun ∧
      ¬ Along functionStep LoadKeeps (.init none) failingRun ∧
      ¬ Always functionStep Consistent (.init none) otherNameRun := by
  refine ⟨?_, ?_, ?_, ?_⟩
  · refine not_always_consistent (fun s => ¬ s.strings.released.Nodup) (by decide +kernel) ?_
    exact fun s hs hc => of_decide_eq_true hs hc.strings
  · refine not_always_consistent (fun s => s.operationsList firstSlot = some blurOps ∧ ¬ s.Loaded 7)
      (by decide +kernel) fun s hs => ?_
    obtain ⟨hlist, hloaded⟩ := of_decide_eq_true hs
    exact not_consistent_of_refers (.inl ⟨_, hlist⟩) rfl hloaded
  · intro h
    have hstep : (run functionStep (.init none) failingRun).isSome = true := by decide +kernel
    obtain ⟨t, ht⟩ := Option.isSome_iff_exists.mp hstep
    obtain ⟨u, hu, -⟩ := run_cons_eq_some.mp ht
    have hlist := ((h u hu).1 (.library (-1)) (by decide +kernel)).list
    have hnew : (fpgaFunctionLoad (some "edge".toList) (blurEnv true (-1))
      (.init none)).2.operationsList firstSlot = some blurOps := by decide +kernel
    cases (congrFun hlist firstSlot).symm.trans hnew
  · refine not_always_consistent (fun s => s.operationsTable firstLane = some blurOps ∧
      s.operationsList firstSlot = some blurOps ∧ ¬ s.Loaded 7) (by decide +kernel) fun s hs => ?_
    obtain ⟨htable, -, hloaded⟩ := of_decide_eq_true hs
    exact not_consistent_of_refers (.inr ⟨_, htable⟩) rfl hloaded

end HardwareDrivers.Libfpga
