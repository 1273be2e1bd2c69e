import HardwareDrivers.Libfpga.DeviceTable
import Mathlib.Data.List.AList
import Mathlib.Data.Rat.Defs

/-!
# Parameters in JSON texts

`libfpga_json.c`: names with 32-bit values are put into a text, and the value of a name is got out of
it again. The text itself is made and read by `parson`, which is a parameter here. A number of a JSON
text is a double; it is converted to `int`, which the language does not define for a number that is
too large, and then to `uint32_t`.

## What is proved

* `getValue_build` — what the object has that is made from a list of parameters.
* `jsonRight_iff` — when what was put in is got out.
-/

namespace HardwareDrivers.Libfpga

open Theory

/-! ### parson -/

/-- A member of an object. -/
inductive JsonMember where
  /-- `JSONNumber`. -/
  | number (x : ℚ)
  /-- Any other type. -/
  | other
  deriving DecidableEq

/-- The calls of `parson`. -/
structure Parson where
  /-- What a text is read as. -/
  Value : Type
  /-- Objects. -/
  Obj : Type
  /-- `json_value_init_object`. -/
  initObject : Obj
  /-- `json_object_set_number`; it can fail. -/
  setNumber : Obj → CString → ℚ → Option Obj
  /-- `json_serialize_to_string_pretty`. -/
  serialize : Obj → Option CString
  /-- `json_parse_string_with_comments`. -/
  parse : CString → Option Value
  /-- `json_value_get_object`. -/
  getObject : Value → Option Obj
  /-- `json_object_get_value`. -/
  getValue : Obj → CString → Option JsonMember

/-- What is relied on. -/
structure Parson.Documented (P : Parson) : Prop where
  /-- A new object has no members. -/
  init : ∀ name, P.getValue P.initObject name = none
  /-- A member that is set. -/
  set_self : ∀ obj obj' name x, P.setNumber obj name x = some obj' →
    P.getValue obj' name = some (.number x)
  /-- The others stay. -/
  set_of_ne : ∀ obj obj' name x other, P.setNumber obj name x = some obj' → other ≠ name →
    P.getValue obj' other = P.getValue obj other
  /-- An object of integers below `2 ^ 32` is read from its text. -/
  exact : ∀ obj text, P.serialize obj = some text →
    (∀ name v, P.getValue obj name = some v → ∃ n : ℕ, n < 2 ^ 32 ∧ v = .number n) →
    ∃ root obj', P.parse text = some root ∧ P.getObject root = some obj' ∧
      ∀ name, P.getValue obj' name = P.getValue obj name

/-! ### The calls -/

/-- What the language does not define. -/
inductive JsonFault where
  /-- A double is converted to `int` that is too large for it. -/
  | overflow
  deriving DecidableEq

/-- The errors of the calls. -/
inductive JsonErr where
  /-- `INVALID_ARGUMENT`. -/
  | invalidArgument
  /-- `INVALID_DATA`. -/
  | invalidData
  deriving DecidableEq

/-- `(int)x`, as a word. -/
def castInt (x : ℚ) : Except JsonFault (BitVec 32) :=
  let n := x.num.tdiv x.den
  if -2 ^ 31 ≤ n ∧ n < 2 ^ 31 then .ok (.ofInt 32 n) else .error .overflow

/-- `PARAM_IS_EXIST` and `PARAM_IS_GET`. -/
inductive ParamFlag where
  /-- `PARAM_IS_EXIST`. -/
  | isExist
  /-- `PARAM_IS_GET`. -/
  | isGet

variable {P : Parson}

/-- `__json_parse_string`. -/
def jsonParseString (P : Parson) (jsonTxt : CString) : Option P.Obj :=
  (P.parse jsonTxt).bind P.getObject

/-- `__json_parse_param_u32`: an error, or what is stored in `*value`. -/
def jsonParseParamU32 (P : Parson) (jsonTxt parameter : CString) (flag : ParamFlag) :
    Except JsonFault (Except JsonErr (Option (BitVec 32))) :=
  match jsonParseString P jsonTxt with
  | none => .ok (.error .invalidArgument)
  | some obj =>
    match flag with
    | .isGet =>
      match P.getValue obj parameter with
      | some (.number x) => (castInt x).map fun value => .ok (some value)
      | _ => .ok (.error .invalidData)
    | .isExist =>
      match P.getValue obj parameter with
      | none => .ok (.error .invalidData)
      | some _ => .ok (.ok none)

/-- `__fpga_json_get_param_u32`; `value` says whether the pointer is given. -/
def fpgaJsonGetParamU32 (P : Parson) (jsonTxt parameter : Option CString) (value : Bool) :
    Except JsonFault (Except JsonErr (Option (BitVec 32))) :=
  match jsonTxt, parameter, value with
  | some jsonTxt, some parameter, true => jsonParseParamU32 P jsonTxt parameter .isGet
  | _, _, _ => .ok (.error .invalidArgument)

/-- `__fpga_json_check_param`. -/
def fpgaJsonCheckParam (P : Parson) (jsonTxt parameter : Option CString) :
    Except JsonFault (Except JsonErr (Option (BitVec 32))) :=
  match jsonTxt, parameter with
  | some jsonTxt, some parameter => jsonParseParamU32 P jsonTxt parameter .isExist
  | _, _ => .ok (.error .invalidArgument)

/-- `(uint32_t)-1`. -/
def paramFailed : BitVec 32 := -1

/-- `__fpga_get_parameter`. -/
def fpgaGetParameter (P : Parson) (jsonTxt parameter : CString) : Except JsonFault (BitVec 32) := do
  match ← fpgaJsonCheckParam P (some jsonTxt) (some parameter) with
  | .error _ => return paramFailed
  | .ok _ =>
    match ← fpgaJsonGetParamU32 P (some jsonTxt) (some parameter) true with
    | .ok (some value) => return value
    | _ => return paramFailed

/-- `json_param_u32_t`. -/
structure JsonParamU32 where
  /-- `val`. -/
  val : BitVec 32
  /-- `str`. -/
  str : CString
  deriving DecidableEq

/-- The loop of `__fpga_json_malloc_string_u32`. -/
def buildObject (P : Parson) (params : List JsonParamU32) : Option P.Obj :=
  params.foldlM (fun obj p => P.setNumber obj p.str (p.val.toNat : ℚ)) P.initObject

/-- `__fpga_json_malloc_string_u32`; `strdup` says whether there is memory. -/
def fpgaJsonMallocStringU32 (P : Parson) (strdup : Bool) (params : Option (List JsonParamU32)) :
    Option CString := do
  let params ← params
  let obj ← buildObject P params
  let str ← P.serialize obj
  if strdup then some str else none

/-! ### The property -/

/-- What was put into the text is got out of it. -/
structure JsonRight (P : Parson) (params : List JsonParamU32) (jsonTxt : CString) : Prop where
  /-- The value of every name of the list. -/
  stored : ∀ p ∈ params,
    fpgaJsonGetParamU32 P (some jsonTxt) (some p.str) true = .ok (.ok (some p.val))
  /-- Nothing for another name. -/
  missing : ∀ name, (∀ p ∈ params, p.str ≠ name) →
    ∃ err, fpgaJsonGetParamU32 P (some jsonTxt) (some name) true = .ok (.error err)
  /-- `__fpga_get_parameter` tells one from the other. -/
  tells : ∀ p ∈ params, ∃ value, fpgaGetParameter P jsonTxt p.str = .ok value ∧
    ∀ name, (∀ q ∈ params, q.str ≠ name) → fpgaGetParameter P jsonTxt name ≠ .ok value

/-! ### What was put in -/

/-- The loop: a name of the list has its value, another name what it had. -/
theorem getValue_foldlM (hP : P.Documented) {params : List JsonParamU32}
    (hnodup : (params.map JsonParamU32.str).Nodup) {obj obj' : P.Obj}
    (h : params.foldlM (fun obj p => P.setNumber obj p.str (p.val.toNat : ℚ)) obj = some obj') :
    (∀ p ∈ params, P.getValue obj' p.str = some (.number p.val.toNat)) ∧
      ∀ name, (∀ p ∈ params, p.str ≠ name) → P.getValue obj' name = P.getValue obj name := by
  induction params generalizing obj with
  | nil =>
    obtain rfl : obj = obj' := by simpa using h
    simp
  | cons p params ih =>
    rw [List.map_cons, List.nodup_cons] at hnodup
    rw [List.foldlM_cons] at h
    obtain ⟨next, hset, hrest⟩ := Option.bind_eq_some_iff.1 h
    obtain ⟨hlisted, hothers⟩ := ih hnodup.2 hrest
    -- the names behind `p` differ from its own, so it stays as it was set
    have hp : ∀ q ∈ params, q.str ≠ p.str := by
      intro q hq heq
      exact hnodup.1 (heq ▸ List.mem_map_of_mem hq)
    refine ⟨?_, fun name hname => ?_⟩
    · intro q hq
      rcases List.mem_cons.1 hq with rfl | hq
      · rw [hothers _ hp, hP.set_self _ _ _ _ hset]
      · exact hlisted q hq
    · rw [List.forall_mem_cons] at hname
      rw [hothers name hname.2, hP.set_of_ne _ _ _ _ _ hset hname.1.symm]

/-- What the object has that is made from a list of parameters. -/
theorem getValue_build (hP : P.Documented) {params : List JsonParamU32}
    (hnodup : (params.map JsonParamU32.str).Nodup) {obj : P.Obj}
    (h : buildObject P params = some obj) :
    (∀ p ∈ params, P.getValue obj p.str = some (.number p.val.toNat)) ∧
      ∀ name, (∀ p ∈ params, p.str ≠ name) → P.getValue obj name = none := by
  obtain ⟨hlisted, hothers⟩ := getValue_foldlM hP hnodup h
  refine ⟨hlisted, fun name hname => ?_⟩
  rw [hothers name hname, hP.init]

/-- The text of an object that was made. -/
theorem malloc_eq {params : List JsonParamU32} {obj : P.Obj} {text : CString}
    (hobj : buildObject P params = some obj) (htext : P.serialize obj = some text) :
    fpgaJsonMallocStringU32 P true (some params) = some text := by
  simp [fpgaJsonMallocStringU32, hobj, htext]

/-- The text is read as an object with the parameters and nothing else. -/
theorem parse_malloc (hP : P.Documented) {params : List JsonParamU32}
    (hnodup : (params.map JsonParamU32.str).Nodup) {mem : Bool} {text : CString}
    (h : fpgaJsonMallocStringU32 P mem (some params) = some text) :
    ∃ obj, jsonParseString P text = some obj ∧
      (∀ p ∈ params, P.getValue obj p.str = some (.number p.val.toNat)) ∧
      ∀ name, (∀ p ∈ params, p.str ≠ name) → P.getValue obj name = none := by
  obtain ⟨obj, hobj, h⟩ := Option.bind_eq_some_iff.1 h
  obtain ⟨str, hstr, h⟩ := Option.bind_eq_some_iff.1 h
  obtain rfl : str = text := by
    cases mem <;> simp_all
  obtain ⟨hlisted, hothers⟩ := getValue_build hP hnodup hobj
  have hwords : ∀ name v, P.getValue obj name = some v →
      ∃ n : ℕ, n < 2 ^ 32 ∧ v = .number n := by
    intro name v hv
    by_cases hname : ∃ p ∈ params, p.str = name
    · obtain ⟨p, hp, rfl⟩ := hname
      rw [hlisted p hp] at hv
      exact ⟨p.val.toNat, p.val.isLt, (Option.some.inj hv).symm⟩
    · push Not at hname
      simp [hothers name hname] at hv
  obtain ⟨root, obj', hparse, hroot, hsame⟩ := hP.exact obj str hstr hwords
  refine ⟨obj', by simp [jsonParseString, hparse, hroot], ?_, ?_⟩
  · intro p hp
    rw [hsame, hlisted p hp]
  · intro name hname
    rw [hsame, hothers name hname]

/-! ### What is got out -/

/-- A word that is not negative as an `int` is converted as it is. -/
theorem castInt_of_lt {n : BitVec 32} (h : n.toNat < 2 ^ 31) : castInt (n.toNat : ℚ) = .ok n := by
  have hn : ((n.toNat : ℚ).num.tdiv (n.toNat : ℚ).den) = (n.toNat : ℤ) := by simp
  have hrange : (-2 ^ 31 : ℤ) ≤ n.toNat ∧ (n.toNat : ℤ) < 2 ^ 31 := by omega
  simp only [castInt, hn, if_pos hrange]
  simp

/-- For a greater one nothing is said. -/
theorem castInt_of_le {n : BitVec 32} (h : 2 ^ 31 ≤ n.toNat) :
    castInt (n.toNat : ℚ) = .error .overflow := by
  have hn : ((n.toNat : ℚ).num.tdiv (n.toNat : ℚ).den) = (n.toNat : ℤ) := by simp
  have hrange : ¬((-2 ^ 31 : ℤ) ≤ n.toNat ∧ (n.toNat : ℤ) < 2 ^ 31) := by omega
  simp only [castInt, hn, if_neg hrange]

/-- The value of a number. -/
theorem getParam_number {text name : CString} {obj : P.Obj} {x : ℚ}
    (hobj : jsonParseString P text = some obj) (hx : P.getValue obj name = some (.number x)) :
    fpgaJsonGetParamU32 P (some text) (some name) true =
      (castInt x).map fun value => .ok (some value) := by
  simp [fpgaJsonGetParamU32, jsonParseParamU32, hobj, hx]

/-- The value of what is missing. -/
theorem getParam_none {text name : CString} {obj : P.Obj}
    (hobj : jsonParseString P text = some obj) (hnone : P.getValue obj name = none) :
    fpgaJsonGetParamU32 P (some text) (some name) true = .ok (.error .invalidData) := by
  simp [fpgaJsonGetParamU32, jsonParseParamU32, hobj, hnone]

/-- `__fpga_get_parameter` for a number. -/
theorem getParameter_number {text name : CString} {obj : P.Obj} {n : BitVec 32}
    (hobj : jsonParseString P text = some obj)
    (hx : P.getValue obj name = some (.number n.toNat)) (hn : n.toNat < 2 ^ 31) :
    fpgaGetParameter P text name = .ok n := by
  have hcheck : fpgaJsonCheckParam P (some text) (some name) = .ok (.ok none) := by
    simp [fpgaJsonCheckParam, jsonParseParamU32, hobj, hx]
  have hget := getParam_number hobj hx
  rw [castInt_of_lt hn] at hget
  simp only [fpgaGetParameter, hcheck, hget]
  rfl

/-- `__fpga_get_parameter` for what is missing. -/
theorem getParameter_none {text name : CString} {obj : P.Obj}
    (hobj : jsonParseString P text = some obj) (hnone : P.getValue obj name = none) :
    fpgaGetParameter P text name = .ok paramFailed := by
  have hcheck : fpgaJsonCheckParam P (some text) (some name) = .ok (.error .invalidData) := by
    simp [fpgaJsonCheckParam, jsonParseParamU32, hobj, hnone]
  simp only [fpgaGetParameter, hcheck]
  rfl

/-- The code of a failure is no number below `2 ^ 31`. -/
theorem ne_paramFailed {n : BitVec 32} (h : n.toNat < 2 ^ 31) : n ≠ paramFailed := by
  rintro rfl
  exact absurd h (by decide)

/-! ### One object with its text -/

/-- An object of numbers. -/
abbrev NumberObject : Type := AList fun _ : CString => ℚ

/-- The object of some parameters. -/
def objectOf (params : List JsonParamU32) : NumberObject :=
  params.foldl (fun obj p => obj.insert p.str (p.val.toNat : ℚ)) ∅

/-- What `parson` writes for it, if it is not empty. -/
def prettyText (params : List JsonParamU32) : CString :=
  "\x7b\n".toList ++ ((params.map fun p =>
    "    \"".toList ++ p.str ++ "\": ".toList ++ Nat.toDigits 10 p.val.toNat).intersperse
      ",\n".toList).flatten ++ "\n\x7d".toList

/-- `parson` for the object of some parameters: for all others there is no memory. -/
def parsonOf (params : List JsonParamU32) : Parson where
  Value := NumberObject
  Obj := NumberObject
  initObject := ∅
  setNumber obj name x := some (obj.insert name x)
  serialize obj := if obj = objectOf params then some (prettyText params) else none
  parse text := if text = prettyText params then some (objectOf params) else none
  getObject := some
  getValue obj name := (obj.lookup name).map .number

/-- It does what is relied on. -/
theorem parsonOf_documented (params : List JsonParamU32) : (parsonOf params).Documented where
  init name := by simp [parsonOf]
  set_self obj obj' name x h := by
    obtain rfl : obj.insert name x = obj' := Option.some.inj h
    exact congrArg (Option.map JsonMember.number) (AList.lookup_insert obj)
  set_of_ne obj obj' name x other h hne := by
    obtain rfl : obj.insert name x = obj' := Option.some.inj h
    exact congrArg (Option.map JsonMember.number) (AList.lookup_insert_ne hne)
  exact obj text h _ := by
    obtain ⟨rfl, htext⟩ := Option.ite_none_right_eq_some.mp h
    obtain rfl := Option.some.inj htext
    exact ⟨objectOf params, objectOf params, if_pos rfl, rfl, fun name => rfl⟩

/-- The text of the parameters. -/
theorem malloc_parsonOf (params : List JsonParamU32) :
    fpgaJsonMallocStringU32 (parsonOf params) true (some params) = some (prettyText params) := by
  have hbuild (ps : List JsonParamU32) (obj : NumberObject) :
      ps.foldlM (fun obj p => (parsonOf params).setNumber obj p.str (p.val.toNat : ℚ)) obj =
        some (ps.foldl (fun obj p => obj.insert p.str (p.val.toNat : ℚ)) obj) := by
    induction ps generalizing obj with
    | nil => rfl
    | cons p ps ih => exact ih _
  have hobj : buildObject (parsonOf params) params = some (objectOf params) := hbuild params ∅
  exact malloc_eq hobj (if_pos rfl)

/-- What was put in is got out if and only if no value is too large for an `int`. -/
theorem jsonRight_iff (P : Parson) (hP : P.Documented) (params : List JsonParamU32)
    (hnodup : (params.map JsonParamU32.str).Nodup) (strdup : Bool) (text : CString)
    (hmade : fpgaJsonMallocStringU32 P strdup (some params) = some text) :
    JsonRight P params text ↔ ∀ p ∈ params, p.val.toNat < 2 ^ 31 := by
  obtain ⟨obj, hobj, hlisted, hothers⟩ := parse_malloc hP hnodup hmade
  constructor
  · intro hright p hp
    by_contra hlarge
    have hstored := hright.stored p hp
    rw [getParam_number hobj (hlisted p hp), castInt_of_le (by omega)] at hstored
    simp [Except.map] at hstored
  · intro hsmall
    refine ⟨?_, ?_, ?_⟩
    · intro p hp
      rw [getParam_number hobj (hlisted p hp), castInt_of_lt (hsmall p hp)]
      rfl
    · intro name hname
      exact ⟨_, getParam_none hobj (hothers name hname)⟩
    · intro p hp
      refine ⟨p.val, getParameter_number hobj (hlisted p hp) (hsmall p hp), ?_⟩
      intro name hname heq
      rw [getParameter_none hobj (hothers name hname)] at heq
      exact ne_paramFailed (hsmall p hp) (Except.ok.inj heq).symm

/-- The sizes of a function module. -/
def sizeParams : List JsonParamU32 :=
  [⟨640, "i_width".toList⟩, ⟨480, "i_height".toList⟩, ⟨320, "o_width".toList⟩, ⟨240, "o_height".toList⟩]

/-- The four sizes are got out of their text, and nothing else is. -/
theorem jsonRight_sizes :
    fpgaJsonMallocStringU32 (parsonOf sizeParams) true (some sizeParams) = some (prettyText sizeParams) ∧
      JsonRight (parsonOf sizeParams) sizeParams (prettyText sizeParams) :=
  ⟨malloc_parsonOf sizeParams, (jsonRight_iff _ (parsonOf_documented sizeParams) sizeParams (by decide) true _
    (malloc_parsonOf sizeParams)).mpr (by decide)⟩

/-- This is that text. -/
example : prettyText sizeParams = ("\x7b\n    \"i_width\": 640,\n    \"i_height\": 480,\n" ++
    "    \"o_width\": 320,\n    \"o_height\": 240\n\x7d").toList := by decide +kernel

/-- The greatest value is put in, and the conversion of it is not defined. -/
theorem not_jsonRight : ¬∀ P : Parson, P.Documented → ∀ params : List JsonParamU32,
    (params.map JsonParamU32.str).Nodup → ∀ strdup text,
      fpgaJsonMallocStringU32 P strdup (some params) = some text → JsonRight P params text := by
  intro hall
  let params : List JsonParamU32 := [⟨4294967295, ['f']⟩]
  have hdocumented := parsonOf_documented params
  have hmade := malloc_parsonOf params
  have hright := hall _ hdocumented params (by decide) true _ hmade
  obtain ⟨obj, hobj, hlisted, -⟩ := parse_malloc hdocumented (by decide) hmade
  have hmem : (⟨4294967295, ['f']⟩ : JsonParamU32) ∈ params := List.mem_singleton_self _
  have hstored := hright.stored _ hmem
  rw [getParam_number hobj (hlisted _ hmem), castInt_of_le (by decide)] at hstored
  simp [Except.map] at hstored

end HardwareDrivers.Libfpga
