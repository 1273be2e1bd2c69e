import HardwareDrivers.Driver.StoredRegs
import HardwareDrivers.Libfpga.JsonParams

/-!
# The sensors of a card

`fpga_get_power_by_json` and `fpga_get_temp` ask the driver for one sensor after the other, by a flag,
and put the values into a text under the names of the sensors. The driver has the registers of the
flags, the library has their names. A sensor can change at any time.

## What is proved

* `sensors_read` — each ioctl of the loop reads the register of its flag, and its value gets the name of
  the flag.
* `power_text`, `temp_text` — the text has, for each name, what the register of this sensor had when it
  was read, and nothing else.
-/

namespace HardwareDrivers.Libfpga

open Driver Theory

/-! ### The driver -/

/-- `FPGA_POWER_FLAG`. -/
inductive FpgaPowerFlag where
  /-- `U250_PCIE_12V_*`. -/
  | pcie12vVoltage | pcie12vCurrent
  /-- `U250_AUX_12V_*`. -/
  | aux12vVoltage | aux12vCurrent
  /-- `U250_PEX_3V3_*`. -/
  | pex3v3Voltage | pex3v3Current | pex3v3Power
  /-- `U250_AUX_3V3_*`. -/
  | aux3v3Voltage | aux3v3Current
  /-- `U250_VCCINT_*`. -/
  | vccintVoltage | vccintCurrent
  deriving DecidableEq

/-- Its number. -/
def FpgaPowerFlag.code (flag : FpgaPowerFlag) : BitVec 32 := .ofNat 32 flag.ctorIdx

/-- `FPGA_TEMP_FLAG`. -/
inductive FpgaTempFlag where
  /-- `U250_CAGE_TEMP*`. -/
  | cageTemp0 | cageTemp1
  /-- `U250_DIMM_TEMP*`. -/
  | dimmTemp0 | dimmTemp1 | dimmTemp2 | dimmTemp3
  /-- `U250_FAN_TEMP` and `U250_FPGA_TEMP`. -/
  | fanTemp | fpgaTemp
  /-- `U250_SE98_TEMP*`. -/
  | se98Temp0 | se98Temp1 | se98Temp2
  /-- `U250_VCCINT_TEMP`. -/
  | vccintTemp
  deriving DecidableEq

/-- Its number. -/
def FpgaTempFlag.code (flag : FpgaTempFlag) : BitVec 32 := .ofNat 32 flag.ctorIdx

/-- `XPCIE_FPGA_POWER_*`. -/
def powerReg : FpgaPowerFlag → BitVec 64
  | .pcie12vVoltage => 0x28028
  | .pcie12vCurrent => 0x280D0
  | .aux12vVoltage => 0x2804C
  | .aux12vCurrent => 0x280DC
  | .pex3v3Voltage => 0x28034
  | .pex3v3Current => 0x28280
  | .pex3v3Power => 0x282EC
  | .aux3v3Voltage => 0x28040
  | .aux3v3Current => 0x282F8
  | .vccintVoltage => 0x280E8
  | .vccintCurrent => 0x280F4

/-- `XPCIE_FPGA_TEMP_*`. -/
def tempReg : FpgaTempFlag → BitVec 64
  | .cageTemp0 => 0x28174
  | .cageTemp1 => 0x28180
  | .dimmTemp0 => 0x28114
  | .dimmTemp1 => 0x28120
  | .dimmTemp2 => 0x2812C
  | .dimmTemp3 => 0x28138
  | .fanTemp => 0x28108
  | .fpgaTemp => 0x280FC
  | .se98Temp0 => 0x28144
  | .se98Temp1 => 0x28150
  | .se98Temp2 => 0x2815C
  | .vccintTemp => 0x282D0

/-- `fpga_ioctl_power_t` and `fpga_ioctl_temp_t`. -/
structure FpgaIoctlSensor where
  /-- `power` or `temp`. -/
  value : BitVec 32
  /-- `flag`. -/
  flag : BitVec 32

variable {φ : Type} (m : FpgaModuleInfo)

/-- A `switch` over flags; for another flag nothing is read. -/
def getSensorInfo (code : φ → BitVec 32) (reg : φ → BitVec 64) (cases : List φ) (info : FpgaIoctlSensor) :
    RegProg FpgaIoctlSensor :=
  match cases.find? fun flag => code flag == info.flag with
  | some flag => do
    let value ← regRead m (reg flag) 0
    pure { info with value }
  | none => pure info

/-- `xpcie_fpga_get_power_info`. -/
def xpcieFpgaGetPowerInfo : FpgaIoctlSensor → RegProg FpgaIoctlSensor :=
  getSensorInfo m FpgaPowerFlag.code powerReg
    [.pcie12vVoltage, .pcie12vCurrent, .aux12vVoltage, .aux12vCurrent, .pex3v3Voltage, .pex3v3Current,
      .pex3v3Power, .aux3v3Voltage, .aux3v3Current, .vccintVoltage, .vccintCurrent]

/-- `xpcie_fpga_get_temp_info`. -/
def xpcieFpgaGetTempInfo : FpgaIoctlSensor → RegProg FpgaIoctlSensor :=
  getSensorInfo m FpgaTempFlag.code tempReg
    [.cageTemp0, .cageTemp1, .dimmTemp0, .dimmTemp1, .dimmTemp2, .dimmTemp3, .fanTemp, .fpgaTemp,
      .se98Temp0, .se98Temp1, .se98Temp2, .vccintTemp]

/-- Whether `copy_from_user` and `copy_to_user` succeed. -/
structure UserCopies where
  /-- `copy_from_user`. -/
  copyIn : Bool
  /-- `copy_to_user`. -/
  copyOut : Bool

/-- `XPCIE_DEV_CMS_GET_POWER` and `XPCIE_DEV_CMS_GET_TEMP` in `xpcie_fpga_ioctl_cms`: what the caller
has then, if the ioctl succeeds. -/
def sensorIoctl (handle : FpgaIoctlSensor → RegProg FpgaIoctlSensor) (copies : UserCopies)
    (info : FpgaIoctlSensor) : RegProg (Option FpgaIoctlSensor) :=
  if copies.copyIn then do
    let info ← handle info
    pure (if copies.copyOut then some info else none)
  else pure none

/-! ### The library -/

/-- `FPGA_AVAILABLE_CARD_ID`. -/
inductive FpgaAvailableCardId where
  /-- `FPGA_CARD_U250`. -/
  | u250
  /-- `FPGA_CARD_U280`. -/
  | u280
  deriving DecidableEq

/-- `fpga_available_card_table`. -/
def fpgaAvailableCardTable : List (FpgaAvailableCardId × CString) :=
  [(.u250, "ALVEO U250 PQ".toList), (.u250, "AU250A64G".toList), (.u280, "ALVEO U280 PQ".toList)]

/-- `__fpga_get_device_card_id`, for a device that there is. -/
def fpgaGetDeviceCardId (cardName : CString) : Option FpgaAvailableCardId :=
  (fpgaAvailableCardTable.find? fun row => row.2 == cardName).map Prod.fst

/-- `fpga_power_table_u250`. -/
def fpgaPowerTableU250 : List (FpgaPowerFlag × CString) :=
  [(.pcie12vVoltage, "PCIE_12V_VOLTAGE".toList), (.pcie12vCurrent, "PCIE_12V_CURRENT".toList),
    (.aux12vVoltage, "AUX_12V_VOLTAGE".toList), (.aux12vCurrent, "AUX_12V_CURRENT".toList),
    (.pex3v3Voltage, "PEX_3V3_VOLTAGE".toList), (.pex3v3Current, "PEX_3V3_CURRENT".toList),
    (.pex3v3Power, "PEX_3V3_POWER".toList), (.aux3v3Voltage, "AUX_3V3_VOLTAGE".toList),
    (.aux3v3Current, "AUX_3V3_CURRENT".toList), (.vccintVoltage, "VCCINT_VOLTAGE".toList),
    (.vccintCurrent, "VCCINT_CURRENT".toList)]

/-- `fpga_temp_table_u250`. -/
def fpgaTempTableU250 : List (FpgaTempFlag × CString) :=
  [(.cageTemp0, "U250_CAGE_TEMP0".toList), (.cageTemp1, "U250_CAGE_TEMP1".toList),
    (.dimmTemp0, "U250_DIMM_TEMP0".toList), (.dimmTemp1, "U250_DIMM_TEMP1".toList),
    (.dimmTemp2, "U250_DIMM_TEMP2".toList), (.dimmTemp3, "U250_DIMM_TEMP3".toList),
    (.fanTemp, "U250_FAN_TEMP".toList), (.fpgaTemp, "U250_FPGA_TEMP".toList),
    (.se98Temp0, "U250_SE98_TEMP0".toList), (.se98Temp1, "U250_SE98_TEMP1".toList),
    (.se98Temp2, "U250_SE98_TEMP2".toList), (.vccintTemp, "U250_VCCINT_TEMP".toList)]

/-- The errors of the calls. -/
inductive SensorErr where
  /-- `INVALID_ARGUMENT`. -/
  | invalidArgument
  /-- `INVALID_PARAMETER`. -/
  | invalidParameter
  /-- `NO_DEVICES`. -/
  | noDevices
  /-- `FAILURE_IOCTL`. -/
  | failureIoctl
  /-- `FAILURE_MEMORY_ALLOC`. -/
  | failureMemoryAlloc
  deriving DecidableEq

/-- What a call finds. -/
structure SensorEnv where
  /-- `card_name` of the device, if it is there. -/
  dev : Option CString
  /-- The pointer for the text is given. -/
  pointer : Bool
  /-- What was in the local variable for the ioctl. -/
  unset : BitVec 32
  /-- The copies of the ioctls, in their order. -/
  copies : ℕ → UserCopies
  /-- `strdup` has memory. -/
  strdup : Bool

/-- The loop over the table, from the `i`-th ioctl on. -/
def sensorLoop (handle : FpgaIoctlSensor → RegProg FpgaIoctlSensor) (code : φ → BitVec 32)
    (copies : ℕ → UserCopies) : ℕ → BitVec 32 → List (φ × CString) → RegProg (Option (List JsonParamU32))
  | _, _, [] => pure (some [])
  | i, value, row :: rows => do
    let some info ← sensorIoctl handle (copies i) ⟨value, code row.1⟩ | pure none
    let some params ← sensorLoop handle code copies (i + 1) info.value rows | pure none
    pure (some (⟨info.value, row.2⟩ :: params))

/-- The two calls: the text, or an error. -/
def getSensorsByJson (P : Parson) (handle : FpgaIoctlSensor → RegProg FpgaIoctlSensor)
    (code : φ → BitVec 32) (tableU250 : List (φ × CString)) (env : SensorEnv) :
    RegProg (Except SensorErr CString) :=
  match env.dev, env.pointer with
  | some cardName, true =>
    match fpgaGetDeviceCardId cardName with
    | none => pure (.error .invalidParameter)
    | some .u280 => pure (.error .noDevices)
    | some .u250 => do
      let some params ← sensorLoop handle code env.copies 0 env.unset tableU250
        | pure (.error .failureIoctl)
      match fpgaJsonMallocStringU32 P env.strdup (some params) with
      | some text => pure (.ok text)
      | none => pure (.error .failureMemoryAlloc)
  | _, _ => pure (.error .invalidArgument)

/-- `fpga_get_power_by_json`. -/
def fpgaGetPowerByJson (P : Parson) : SensorEnv → RegProg (Except SensorErr CString) :=
  getSensorsByJson P (xpcieFpgaGetPowerInfo m) FpgaPowerFlag.code fpgaPowerTableU250

/-- `fpga_get_temp`. -/
def fpgaGetTemp (P : Parson) : SensorEnv → RegProg (Except SensorErr CString) :=
  getSensorsByJson P (xpcieFpgaGetTempInfo m) FpgaTempFlag.code fpgaTempTableU250

/-! ### What is read -/

/-- The driver reads the register of every flag of the table. -/
def Served (handle : FpgaIoctlSensor → RegProg FpgaIoctlSensor) (code : φ → BitVec 32)
    (reg : φ → BitVec 64) (table : List (φ × CString)) : Prop :=
  ∀ row ∈ table, ∀ value, handle ⟨value, code row.1⟩ = do
    let value ← regRead m (reg row.1) 0
    pure ⟨value, code row.1⟩

theorem served_power : Served m (xpcieFpgaGetPowerInfo m) FpgaPowerFlag.code powerReg fpgaPowerTableU250 := by
  rintro ⟨flag, name⟩ - value
  cases flag <;> rfl

theorem served_temp : Served m (xpcieFpgaGetTempInfo m) FpgaTempFlag.code tempReg fpgaTempTableU250 := by
  rintro ⟨flag, name⟩ - value
  cases flag <;> rfl

/-- What a step of the loop adds. -/
def addParam (name : CString) (value : BitVec 32) (params : Option (List JsonParamU32)) :
    Option (List JsonParamU32) := params.map (⟨value, name⟩ :: ·)

variable {m} {handle : FpgaIoctlSensor → RegProg FpgaIoctlSensor} {code : φ → BitVec 32}
  {reg : φ → BitVec 64} {copies : ℕ → UserCopies} {S : Type} {step : (c : RegCmd) → S → c.Ans × S}

/-- An ioctl that succeeds reads the register of its flag. -/
theorem sensorLoop_cons {row : φ × CString} {rows : List (φ × CString)} {i : ℕ} {value : BitVec 32}
    (hrow : ∀ value, handle ⟨value, code row.1⟩ = do
      let value ← regRead m (reg row.1) 0
      pure ⟨value, code row.1⟩) :
    sensorLoop handle code copies i value (row :: rows) =
      if (copies i).copyIn then .cmd (.read32 (m.offset (reg row.1) 0)) fun value =>
        if (copies i).copyOut then
          addParam row.2 value <$> sensorLoop handle code copies (i + 1) value rows
        else pure none
      else pure none := by
  rw [sensorLoop, sensorIoctl, hrow]
  cases (copies i).copyIn with
  | false => rfl
  | true =>
    cases (copies i).copyOut with
    | false => rfl
    | true =>
      refine congrArg (Prog.cmd _) (funext fun value => ?_)
      refine congrArg (sensorLoop handle code copies (i + 1) value rows >>= ·) (funext fun params => ?_)
      cases params <;> rfl

/-- Each ioctl reads the register of its flag, and its value gets the name of the flag. -/
theorem sensors_read [DecidableEq φ] {table : List (φ × CString)} (hserved : Served m handle code reg table)
    (hnodup : (table.map Prod.fst).Nodup) {i : ℕ} {value : BitVec 32} {s : S} {params : List JsonParamU32}
    (h : ((sensorLoop handle code copies i value table).eval step s).1 = some params) :
    ∃ val : φ → BitVec 32, params = table.map (fun row => ⟨val row.1, row.2⟩) ∧
      (sensorLoop handle code copies i value table).transcript step s =
        table.map fun row => ⟨.read32 (m.offset (reg row.1) 0), val row.1⟩ := by
  induction table generalizing i value s params with
  | nil =>
    cases h
    exact ⟨fun _ => 0, rfl, rfl⟩
  | cons row rows ih =>
    rw [List.map_cons, List.nodup_cons] at hnodup
    rw [sensorLoop_cons (hserved row List.mem_cons_self)] at h ⊢
    cases hin : (copies i).copyIn with
    | false =>
      rw [hin] at h
      cases h
    | true =>
      cases hout : (copies i).copyOut with
      | false =>
        rw [hin, hout] at h
        cases h
      | true =>
        rw [hin, hout] at h
        simp only [if_true, Prog.eval_cmd, Prog.eval_map, addParam] at h
        obtain ⟨rest, hrest, rfl⟩ := Option.map_eq_some_iff.mp h
        obtain ⟨val, rfl, htranscript⟩ :=
          ih (fun row hrow => hserved row (List.mem_cons_of_mem _ hrow)) hnodup.2 hrest
        -- the flags behind this one are others
        have hval : ∀ v, ∀ r ∈ rows, Function.update val row.1 v r.1 = val r.1 := by
          intro v r hr
          refine Function.update_of_ne (fun heq => hnodup.1 ?_) ..
          rw [← heq]
          exact List.mem_map_of_mem hr
        refine ⟨Function.update val row.1 (step (.read32 (m.offset (reg row.1) 0)) s).1, ?_, ?_⟩
        · rw [List.map_cons, Function.update_self]
          refine congrArg (_ :: ·) (List.map_congr_left fun r hr => ?_)
          rw [hval _ r hr]
        · simp only [if_true, Prog.transcript_cmd, List.map_cons, Function.update_self]
          refine congrArg (_ :: ·) ?_
          rw [Prog.transcript_map, htranscript]
          refine List.map_congr_left fun r hr => ?_
          rw [hval _ r hr]

/-! ### The texts -/

/-- The text has, for each name of the table, what the register of its flag had when it was read, and
nothing else is in it or was read. -/
def TextOf (P : Parson) (m : FpgaModuleInfo) (reg : φ → BitVec 64) (table : List (φ × CString))
    (read : List ((c : RegCmd) × c.Ans)) (text : CString) : Prop :=
  ∃ val : φ → BitVec 32,
    read = table.map (fun row => ⟨.read32 (m.offset (reg row.1) 0), val row.1⟩) ∧
    ∃ obj, jsonParseString P text = some obj ∧
      (∀ row ∈ table, P.getValue obj row.2 = some (.number (val row.1).toNat)) ∧
      ∀ name, (∀ row ∈ table, row.2 ≠ name) → P.getValue obj name = none

variable {P : Parson} {env : SensorEnv} {s : S} {text : CString}

theorem sensors_text [DecidableEq φ] (hP : P.Documented) {table : List (φ × CString)}
    (hserved : Served m handle code reg table) (hflags : (table.map Prod.fst).Nodup)
    (hnames : (table.map Prod.snd).Nodup)
    (h : ((getSensorsByJson P handle code table env).eval step s).1 = .ok text) :
    TextOf P m reg table ((getSensorsByJson P handle code table env).transcript step s) text := by
  unfold getSensorsByJson at h ⊢
  split at h
  · split at h
    · cases h
    · cases h
    · rw [Prog.eval_bind] at h
      rw [Prog.transcript_bind]
      cases hloop : ((sensorLoop handle code env.copies 0 env.unset table).eval step s).1 with
      | none =>
        rw [hloop] at h
        cases h
      | some params =>
        obtain ⟨val, rfl, htranscript⟩ := sensors_read hserved hflags hloop
        rw [hloop] at h
        dsimp only at h ⊢
        cases hmade : fpgaJsonMallocStringU32 P env.strdup
          (some (table.map fun row => ⟨val row.1, row.2⟩)) with
        | none =>
          rw [hmade] at h
          cases h
        | some txt =>
          rw [hmade] at h
          cases h
          have hstr : ((table.map fun row => (⟨val row.1, row.2⟩ : JsonParamU32)).map
              JsonParamU32.str).Nodup := by
            rwa [List.map_map]
          obtain ⟨obj, hobj, hlisted, hothers⟩ := parse_malloc hP hstr hmade
          refine ⟨val, ?_, obj, hobj, fun row hrow => ?_, fun name hname => hothers name ?_⟩
          · rw [htranscript]
            exact List.append_nil _
          · exact hlisted ⟨val row.1, row.2⟩ (List.mem_map_of_mem hrow)
          · rintro p hp
            obtain ⟨row, hrow, rfl⟩ := List.mem_map.mp hp
            exact hname row hrow
  · cases h

/-- **The text of the power sensors.** Whatever the sensors do meanwhile, the text has under each of the
eleven names what the register of this sensor had when the driver read it. -/
theorem power_text (hP : P.Documented) (h : ((fpgaGetPowerByJson m P env).eval step s).1 = .ok text) :
    TextOf P m powerReg fpgaPowerTableU250 ((fpgaGetPowerByJson m P env).transcript step s) text :=
  sensors_text hP (served_power m) (by decide) (by decide) h

/-- The text of the temperatures. -/
theorem temp_text (hP : P.Documented) (h : ((fpgaGetTemp m P env).eval step s).1 = .ok text) :
    TextOf P m tempReg fpgaTempTableU250 ((fpgaGetTemp m P env).transcript step s) text :=
  sensors_text hP (served_temp m) (by decide) (by decide) h

/-- A card whose sensors have eleven values: each the last three digits of where its register is. -/
def cardRegs : StoredRegs := fun offset => offset &&& 0xfff

/-- They are under the eleven names. -/
def cardParams : List JsonParamU32 :=
  fpgaPowerTableU250.map fun row => ⟨cardRegs ((powerReg row.1).setWidth 32), row.2⟩

/-- A call without failures. -/
def cardEnv : SensorEnv := ⟨some "AU250A64G".toList, true, 0, fun _ => ⟨true, true⟩, true⟩

theorem power_text_card :
    ((fpgaGetPowerByJson ⟨0x40000, 0x40000⟩ (parsonOf cardParams) cardEnv).eval storedExec cardRegs).1 =
      .ok (prettyText cardParams) ∧
    TextOf (parsonOf cardParams) ⟨0x40000, 0x40000⟩ powerReg fpgaPowerTableU250
      ((fpgaGetPowerByJson ⟨0x40000, 0x40000⟩ (parsonOf cardParams) cardEnv).transcript storedExec cardRegs)
      (prettyText cardParams) ∧
    (cardParams.map JsonParamU32.val).Nodup := by
  have hloop : ((sensorLoop (xpcieFpgaGetPowerInfo ⟨0x40000, 0x40000⟩) FpgaPowerFlag.code cardEnv.copies 0
      cardEnv.unset fpgaPowerTableU250).eval storedExec cardRegs).1 = some cardParams := rfl
  have hcall : ((fpgaGetPowerByJson ⟨0x40000, 0x40000⟩ (parsonOf cardParams) cardEnv).eval storedExec
      cardRegs).1 = .ok (prettyText cardParams) := by
    change (Prog.eval storedExec (_ >>= _) _).1 = _
    rw [Prog.eval_bind, hloop]
    change (Prog.eval storedExec (match fpgaJsonMallocStringU32 (parsonOf cardParams) true _ with
      | some text => _ | none => _) _).1 = _
    rw [malloc_parsonOf]
    rfl
  exact ⟨hcall, power_text (parsonOf_documented cardParams) hcall, by decide⟩

end HardwareDrivers.Libfpga
