import HardwareDrivers.Libfpga.DeviceTable
import HardwareDrivers.Theory.Ledger

/-!
# The function libraries

`libfunction.c`: the operations of functions are registered in `function_operations_list`,
`fpga_function_config` puts those with the name of the function into
`function_operations_table`, and `fpga_function_load` opens a shared library, whose register
function registers its operations. A library has a slot of `function_shared_libs_table` with its
name and its handle as long as it is loaded.

The operations are pointers into the library that they belong to. What the library and the system
do is part of a call: memory, `dlopen`, `dlsym`, and what the functions of the library register and
return. Strings and handles are numbered, so that what is freed is known (`Theory.Ledger`).
-/

namespace HardwareDrivers.Libfpga

open Theory

/-! ### The state -/

/-- `LIBFPGA_KERNEL_MAX_ALL`. -/
def kernelMaxAll : ℕ := 4

/-- `LIBFUNCTION_FUNCTION_MAX`. -/
def libfunctionFunctionMax : ℕ := fpgaMaxDevices * kernelMaxAll

/-- The indices `dev_id` and `lane` of a table. -/
abbrev FunctionLane := DevIndex × Fin kernelMaxAll

/-- `fpga_function_ops_t`, with the library that it is a variable of, or `none` if the program is
linked with it. -/
structure FunctionOps where
  /-- `name`. -/
  name : CString
  /-- The shared library. -/
  library : Option ℕ
  /-- `get` is not `NULL`. -/
  get : Bool
  /-- `finish` is not `NULL`. -/
  finish : Bool
  deriving DecidableEq

/-- `fpga_function_lib_t`, if it is in use. -/
structure FunctionLib where
  /-- `library_name`. -/
  libraryName : CString
  /-- The memory of `library_name`. -/
  string : ℕ
  /-- `handle`. -/
  handle : ℕ
  deriving DecidableEq

/-- The variables of `libfunction.c`, with the strings and the handles of shared libraries. -/
structure FunctionState where
  /-- `function_operations_list`. -/
  operationsList : Slots libfunctionFunctionMax FunctionOps
  /-- `function_operations_table`. -/
  operationsTable : FunctionLane → Option FunctionOps
  /-- `function_json_params_table`. -/
  jsonParamsTable : FunctionLane → Option ℕ
  /-- `function_shared_libs_table`. -/
  sharedLibsTable : Slots libfunctionFunctionMax FunctionLib
  /-- What `strdup` gave and `free` got. -/
  strings : Ledger
  /-- What `dlopen` gave and `dlclose` got. -/
  handles : Ledger
  /-- The library that a handle was opened for. -/
  libraryOf : ℕ → ℕ

/-- After `__libfunction_init`, with the function that is registered by default, if there is one. -/
def FunctionState.init (default : Option CString) : FunctionState where
  operationsList := fun index =>
    if index.val = 0 then default.map fun name => ⟨name, none, true, true⟩ else none
  operationsTable := fun _ => none
  jsonParamsTable := fun _ => none
  sharedLibsTable := fun _ => none
  strings := .empty
  handles := .empty
  libraryOf := fun _ => 0

/-- The errors of `libfunction.c`. -/
inductive FunctionErr where
  | invalidArgument | invalidData | failureMemoryAlloc | failureOpen | fullElement | alreadyAssigned
  /-- What a function of the library returns. -/
  | library (ret : ℤ)
  deriving DecidableEq

/-- What a function of `libfunction.c` returns. -/
abbrev FunctionResult := Except FunctionErr Unit

namespace FunctionState

/-- `strdup`. -/
def strdup (s : FunctionState) : FunctionState := { s with strings := s.strings.acquire }

/-- `free`. -/
def free (s : FunctionState) (string : ℕ) : FunctionState :=
  { s with strings := s.strings.release string }

/-- `dlopen` of a library. -/
def dlopen (s : FunctionState) (library : ℕ) : FunctionState :=
  { s with
    handles := s.handles.acquire
    libraryOf := Function.update s.libraryOf s.handles.next library }

/-- `dlclose`. -/
def dlclose (s : FunctionState) (handle : ℕ) : FunctionState :=
  { s with handles := s.handles.release handle }

/-- An entry of `function_operations_list` is written. -/
def setList (s : FunctionState) (index : Fin libfunctionFunctionMax) (ops : Option FunctionOps) :
    FunctionState := { s with operationsList := Function.update s.operationsList index ops }

/-- An entry of `function_operations_table` is written. -/
def setTable (s : FunctionState) (lane : FunctionLane) (ops : Option FunctionOps) :
    FunctionState := { s with operationsTable := Function.update s.operationsTable lane ops }

/-- An entry of `function_json_params_table` is written. -/
def setJson (s : FunctionState) (lane : FunctionLane) (json : Option ℕ) : FunctionState :=
  { s with jsonParamsTable := Function.update s.jsonParamsTable lane json }

/-- An entry of `function_shared_libs_table` is written. -/
def setLib (s : FunctionState) (index : Fin libfunctionFunctionMax) (lib : Option FunctionLib) :
    FunctionState := { s with sharedLibsTable := Function.update s.sharedLibsTable index lib }

/-- The text that `fpga_function_get` gave is freed, if there is one. -/
def freeJson (s : FunctionState) (lane : FunctionLane) : FunctionState :=
  match s.jsonParamsTable lane with
  | none => s
  | some json => (s.free json).setJson lane none

/-- The library is loaded. -/
def Loaded (s : FunctionState) (library : ℕ) : Prop :=
  ∃ handle < s.handles.next, s.handles.Open handle ∧ s.libraryOf handle = library

/-- The operations are there: the library that they belong to is loaded. -/
def Alive (s : FunctionState) (ops : FunctionOps) : Prop :=
  ∀ library ∈ ops.library, s.Loaded library

instance (s : FunctionState) (library : ℕ) : Decidable (s.Loaded library) :=
  inferInstanceAs (Decidable (∃ _ < _, _))

instance (s : FunctionState) (ops : FunctionOps) : Decidable (s.Alive ops) :=
  inferInstanceAs (Decidable (∀ _ ∈ ops.library, _))

end FunctionState

/-! ### Functions -/

/-- `__libfunction_convert_hyphen2underscore`. -/
def convertHyphen2underscore (funcName : CString) : CString :=
  funcName.map fun c => if c = '-' then '_' else c

/-- `fpga_function_config`. `lane` is `none` if the device is not open or has no such lane; `memory`
is whether there is memory for the temporary name. -/
def fpgaFunctionConfig (lane : Option FunctionLane) (funcType : Option CString) (memory : Bool)
    (s : FunctionState) : FunctionResult × FunctionState :=
  match lane, funcType with
  | some lane, some funcType =>
    if funcType = [] then (.ok (), s.setTable lane none)
    else if memory = false then (.error .failureMemoryAlloc, s)
    else
      let funcName := convertHyphen2underscore funcType
      let string := s.strings.next
      let s := s.strdup
      match s.operationsList.entries.find? fun ops => ops.name = funcName with
      | some ops => (.ok (), (s.setTable lane (some ops)).free string)
      | none => (.error .invalidData, s.free string)
  | _, _ => (.error .invalidArgument, s)

/-- `fpga_function_get`. The function of the library returns `ret`, and gives a text, for which it
has got memory, if `text`. -/
def fpgaFunctionGet (lane : Option FunctionLane) (ret : ℤ) (text : Bool) (s : FunctionState) :
    FunctionResult × FunctionState :=
  match lane with
  | none => (.error .invalidArgument, s)
  | some lane =>
    match s.operationsTable lane with
    | none => (.error .invalidData, s)
    | some ops =>
      if ops.get = false then (.error .invalidData, s)
      else
        let s := s.freeJson lane
        let json := s.strings.next
        let s := if text then s.strdup else s
        if ret = 0 then (.ok (), if text then s.setJson lane (some json) else s)
        else (.error (.library ret), s)

/-- `fpga_function_get_config_name`; the caller frees the name. -/
def fpgaFunctionGetConfigName (lane : Option FunctionLane) (memory : Bool) (s : FunctionState) :
    FunctionResult × FunctionState :=
  match lane with
  | none => (.error .invalidArgument, s)
  | some lane =>
    match s.operationsTable lane with
    | none => (.error .invalidData, s)
    | some _ => if memory then (.ok (), s.strdup) else (.error .failureMemoryAlloc, s)

/-- `fpga_function_finish`. The function of the library returns `ret`. -/
def fpgaFunctionFinish (lane : Option FunctionLane) (ret : ℤ) (s : FunctionState) :
    FunctionResult × FunctionState :=
  match lane with
  | none => (.error .invalidArgument, s)
  | some lane =>
    match s.operationsTable lane with
    | none => (.error .invalidData, s)
    | some ops =>
      if ops.finish = false then (.error .invalidData, s)
      else
        (if ret = 0 then .ok () else .error (.library ret), (s.setTable lane none).freeJson lane)

/-- `fpga_function_register`. `ops` is `none` if it or its name is `NULL`. -/
def fpgaFunctionRegister (ops : Option FunctionOps) (s : FunctionState) :
    FunctionResult × FunctionState :=
  match ops with
  | none => (.error .invalidArgument, s)
  | some ops =>
    if s.operationsList.entries.any fun element => element.name = ops.name then
      (.error .alreadyAssigned, s)
    else
      match s.operationsList.firstFree with
      | none => (.error .fullElement, s)
      | some index => (.ok (), s.setList index (some ops))

/-- The entry of `function_operations_list` with the name. -/
def FunctionState.findOps (s : FunctionState) (name : CString) :
    Option (Fin libfunctionFunctionMax) :=
  (List.finRange libfunctionFunctionMax).find? fun index =>
    (s.operationsList index).any fun ops => ops.name = name

/-- `fpga_function_unregister`. -/
def fpgaFunctionUnregister (name : Option CString) (s : FunctionState) :
    FunctionResult × FunctionState :=
  match name with
  | none => (.error .invalidArgument, s)
  | some name =>
    match s.findOps name with
    | none => (.error .invalidData, s)
    | some index => (.ok (), s.setList index none)

/-! ### Libraries -/

/-- What `fpga_function_load` finds outside. -/
structure LoadEnv where
  /-- There is memory for the temporary name. -/
  convert : Bool
  /-- The library that a file name opens. -/
  dlopen : CString → Option ℕ
  /-- There is memory for the name of the library. -/
  setName : Bool
  /-- `dlsym` finds the register function. -/
  symbol : Bool
  /-- What the register function registers. -/
  registers : List FunctionOps
  /-- What the register function returns. -/
  ret : ℤ

/-- `libfunction_`. -/
def libfunctionPrefix : CString := "libfunction_".toList

/-- `library_tmp_name`. -/
def libraryFile (name : CString) : CString :=
  (libfunctionPrefix ++ name ++ ".so".toList).take (filenameMax - 1)

/-- `sscanf(name, "libfunction_%[^.].so", …)`, if it reads a name. -/
def scanLibraryName (name : CString) : Option CString :=
  if libfunctionPrefix.isPrefixOf name then
    let scanned := (name.drop libfunctionPrefix.length).takeWhile (· ≠ '.')
    if scanned = [] then none else some scanned
  else none

/-- The library that is opened, and its name if it has one. -/
def LoadEnv.opened (env : LoadEnv) (name : CString) : Option (ℕ × Option CString) :=
  match env.dlopen (libraryFile name) with
  | some library => some (library, some name)
  | none => (env.dlopen name).map fun library => (library, scanLibraryName name)

/-- `failed` of `fpga_function_load`. -/
def loadFailed (setName : Option ℕ) (handle underScore : ℕ) (s : FunctionState) :
    FunctionState :=
  let s := match setName with
    | none => s
    | some string => s.free string
  (s.dlclose handle).free underScore

/-- `fpga_function_load` from the point on where the library has its name: `dlsym`, and the register
function. `library_name_under_score` is freed by now. -/
def loadRegister (index : Fin libfunctionFunctionMax) (setName : CString)
    (string handle underScore : ℕ) (env : LoadEnv) (s : FunctionState) :
    FunctionResult × FunctionState :=
  if env.symbol = false then
    (.error .invalidData, loadFailed (some string) handle underScore s)
  else
    let s := env.registers.foldl (fun s ops => (fpgaFunctionRegister (some ops) s).2) s
    if env.ret ≠ 0 then
      (.error (.library env.ret), loadFailed (some string) handle underScore s)
    else (.ok (), s.setLib index (some ⟨setName, string, handle⟩))

/-- `fpga_function_load` with the library open as `handle`. -/
def loadOpened (index : Fin libfunctionFunctionMax) (setName : Option CString)
    (handle underScore : ℕ) (env : LoadEnv) (s : FunctionState) : FunctionResult × FunctionState :=
  match setName with
  | none => (.error .invalidArgument, loadFailed none handle underScore s)
  | some setName =>
    if env.setName = false then
      (.error .failureMemoryAlloc, loadFailed none handle underScore s)
    else
      loadRegister index setName s.strings.next handle underScore env (s.strdup.free underScore)

/-- `fpga_function_load`. -/
def fpgaFunctionLoad (libraryName : Option CString) (env : LoadEnv) (s : FunctionState) :
    FunctionResult × FunctionState :=
  match libraryName with
  | none => (.error .invalidArgument, s)
  | some libraryName =>
    if filenameMax ≤ libraryName.length then (.error .invalidArgument, s)
    else
      match s.sharedLibsTable.firstFree with
      | none => (.error .fullElement, s)
      | some index =>
        if env.convert = false then (.error .failureMemoryAlloc, s)
        else
          let underScore := s.strings.next
          let s := s.strdup
          match env.opened (convertHyphen2underscore libraryName) with
          | none => (.error .failureOpen, s.free underScore)
          | some (library, setName) =>
            loadOpened index setName s.handles.next underScore env (s.dlopen library)

/-- `tmp_library_name` of `fpga_function_unload`. -/
def unloadName (libraryName : CString) : CString :=
  let name := convertHyphen2underscore libraryName
  (scanLibraryName name).getD (name.take (filenameMax - 1))

/-- The entry of `function_shared_libs_table` with the name. -/
def FunctionState.findLib (s : FunctionState) (name : CString) :
    Option (Fin libfunctionFunctionMax) :=
  (List.finRange libfunctionFunctionMax).find? fun index =>
    (s.sharedLibsTable index).any fun lib => lib.libraryName = name

/-- One round of the loops of `fpga_function_unload` over the devices and lanes. -/
def unconfigure (name : CString) (s : FunctionState) (lane : FunctionLane) : FunctionState :=
  match s.operationsTable lane with
  | none => s
  | some ops => if ops.name = name then (s.setTable lane none).freeJson lane else s

/-- The devices and lanes, in the order of the loops. -/
def functionLanes : List FunctionLane :=
  (List.finRange fpgaMaxDevices).flatMap fun devId =>
    (List.finRange kernelMaxAll).map fun lane => (devId, lane)

/-- `fpga_function_unload` with the library found. -/
def unloadFound (name : CString) (index : Fin libfunctionFunctionMax) (lib : FunctionLib)
    (s : FunctionState) : FunctionState :=
  let s := functionLanes.foldl (unconfigure name) s
  let s := (fpgaFunctionUnregister (some name) s).2
  ((s.free lib.string).dlclose lib.handle).setLib index none

/-- `fpga_function_unload`. `memory` is whether there is memory for the temporary name. -/
def fpgaFunctionUnload (libraryName : Option CString) (memory : Bool) (s : FunctionState) :
    FunctionResult × FunctionState :=
  match libraryName with
  | none => (.error .invalidArgument, s)
  | some libraryName =>
    if filenameMax ≤ libraryName.length then (.error .invalidArgument, s)
    else if memory = false then (.error .failureMemoryAlloc, s)
    else
      let s := s.strdup.free s.strings.next
      match s.findLib (unloadName libraryName) with
      | none => (.error .invalidData, s)
      | some index =>
        match s.sharedLibsTable index with
        | none => (.error .invalidData, s)
        | some lib => (.ok (), unloadFound (unloadName libraryName) index lib s)

/-! ### Calls -/

/-- A call, with what it finds outside. -/
inductive FunctionCall where
  /-- `fpga_function_config`. -/
  | config (lane : Option FunctionLane) (funcType : Option CString) (memory : Bool)
  /-- `fpga_function_get`. -/
  | get (lane : Option FunctionLane) (ret : ℤ) (text : Bool)
  /-- `fpga_function_get_config_name`. -/
  | getConfigName (lane : Option FunctionLane) (memory : Bool)
  /-- `fpga_function_finish`. -/
  | finish (lane : Option FunctionLane) (ret : ℤ)
  /-- `fpga_function_register`. -/
  | register (ops : Option FunctionOps)
  /-- `fpga_function_unregister`. -/
  | unregister (name : Option CString)
  /-- `fpga_function_load`. -/
  | load (libraryName : Option CString) (env : LoadEnv)
  /-- `fpga_function_unload`. -/
  | unload (libraryName : Option CString) (memory : Bool)

/-- A call. -/
def FunctionCall.exec (s : FunctionState) : FunctionCall → FunctionResult × FunctionState
  | .config lane funcType memory => fpgaFunctionConfig lane funcType memory s
  | .get lane ret text => fpgaFunctionGet lane ret text s
  | .getConfigName lane memory => fpgaFunctionGetConfigName lane memory s
  | .finish lane ret => fpgaFunctionFinish lane ret s
  | .register ops => fpgaFunctionRegister ops s
  | .unregister name => fpgaFunctionUnregister name s
  | .load libraryName env => fpgaFunctionLoad libraryName env s
  | .unload libraryName memory => fpgaFunctionUnload libraryName memory s

/-- What is registered can be pointed to: it is there when `fpga_function_register` is called. -/
def FunctionCall.Valid (s : FunctionState) : FunctionCall → Prop
  | .register ops => ∀ o ∈ ops, s.Alive o
  | .load libraryName env =>
    ∀ name ∈ libraryName, ∀ opened ∈ env.opened (convertHyphen2underscore name),
      ∀ ops ∈ env.registers, (s.dlopen opened.1).Alive ops
  | _ => True

instance FunctionCall.decidableValid (s : FunctionState) :
    ∀ call : FunctionCall, Decidable (call.Valid s)
  | .register ops => inferInstanceAs (Decidable (∀ o ∈ ops, s.Alive o))
  | .load libraryName env =>
    inferInstanceAs (Decidable (∀ name ∈ libraryName,
      ∀ opened ∈ env.opened (convertHyphen2underscore name),
        ∀ ops ∈ env.registers, (s.dlopen opened.1).Alive ops))
  | .config .. | .get .. | .getConfigName .. | .finish .. | .unregister .. | .unload .. =>
    isTrue trivial

/-- The step of a call. -/
def functionStep (s : FunctionState) (call : FunctionCall) : Option FunctionState :=
  if call.Valid s then some (call.exec s).2 else none

end HardwareDrivers.Libfpga
