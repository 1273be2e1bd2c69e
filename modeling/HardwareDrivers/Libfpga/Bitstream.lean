import HardwareDrivers.Driver.RefcountDev
import HardwareDrivers.Libfpga.ShmemMmap

/-!
# Writing a bitstream

`libfpgabs.c`: a bitstream is written between a `WRITE` and a `CLEAR` of the reference count,
so that nobody uses the device meanwhile. What the `CLEAR` returns is ignored.

## What is proved

* `fpgaWriteBitstream_cases` — where a call leaves the driver.
* `leavesWriting_iff` — when the device can be used again afterwards.
-/

namespace HardwareDrivers.Libfpga

open Driver

/-- `fpga_region_t`. -/
inductive FpgaRegion where
  /-- `FPGA_MODULE_REGION_ALL`. -/
  | all
  /-- `FPGA_MODULE_REGION_MAX`, and any other value. -/
  | max
  deriving DecidableEq, Repr

/-- `__fpga_get_xpcie_region`. -/
def fpgaGetXpcieRegion : FpgaRegion → XpcieRegion
  | .all => .all
  | .max => .max

/-- `XPCIE_DEV_REFCOUNT_MAX` or above. -/
def refcountCmdMax : RefcountCmd → Bool
  | .other _ => true
  | _ => false

/-- `__fpga_ref_control`; `found` says whether `fpga_get_device` finds the device. -/
def fpgaRefControl (build : BuildOptions) (found : Bool) (region : FpgaRegion) (cmd : RefcountCmd)
    (dev : ModulesInfo) : Except LibfpgaErr Unit × ModulesInfo :=
  if !found || fpgaGetXpcieRegion region = .max || refcountCmdMax cmd then
    (.error .invalidArgument, dev)
  else
    match xpcieFpgaControlRefcount build cmd (fpgaGetXpcieRegion region) dev with
    | (.ok (), dev) => (.ok (), dev)
    | (.error .writing, dev) => (.error .invalidOperation, dev)
    | (.error .inUse, dev) => (.error .invalidOperation, dev)
    | (.error _, dev) => (.error .failureIoctl, dev)

/-- `fpga_update_bitstream_info`. -/
def fpgaUpdateBitstreamInfo (build : BuildOptions) (found : Bool) (regs : BarRegs)
    (dev : ModulesInfo) : Except LibfpgaErr Unit × ModulesInfo :=
  if !found then (.error .invalidArgument, dev)
  else
    match ioctlSetFpgaUpdate build regs dev with
    | (.ok (), dev) => (.ok (), dev)
    | (.error _, dev) => (.error .failureIoctl, dev)

/-- How writing a bitstream fails. -/
inductive BitstreamErr where
  /-- An error code of the library. -/
  | code (err : LibfpgaErr)
  /-- `LIBFPGA_FATAL_ERROR`. -/
  | fatalError
  /-- What `system` returned. -/
  | status (ret : BitVec 32)
  deriving DecidableEq, Repr

/-- What the calls of a writer meet with. -/
structure BitstreamEnv where
  /-- `system(NULL)`. -/
  commandProcessor : Bool
  /-- What `system` returns for the command of mcap. -/
  mcap : BitVec 32
  /-- The registers of the bitstream that was written. -/
  regs : BarRegs
  /-- The error of `fpga_lldma_setup_buffer`. -/
  setupBuffer : Option LibfpgaErr
  /-- The error of `fpga_set_cms_unrest`. -/
  cmsUnrest : Option LibfpgaErr

/-- `ret` after the command of mcap: `WIFEXITED` and `WEXITSTATUS` look at the lower 16 bits. -/
def mcapRet (ret : BitVec 32) : Except BitstreamErr Unit :=
  if ret &&& 0x7f = 0 then
    if (ret &&& 0xff00) >>> 8 = 0 then
      if ret = 0 then .ok () else .error (.status ret)
    else .error .fatalError
  else .error .fatalError

/-- `__fpga_config_region` from the `WRITE` to `finish`. -/
def configRegion (build : BuildOptions) (found : Bool) (region : FpgaRegion) (env : BitstreamEnv)
    (dev : ModulesInfo) : Except BitstreamErr Unit × ModulesInfo :=
  match region with
  | .max => (.error (.code .invalidOperation), dev)
  | .all =>
    match mcapRet env.mcap with
    | .error e => (.error e, dev)
    | .ok () =>
      match fpgaUpdateBitstreamInfo build found env.regs dev with
      | (.error e, dev) => (.error (.code e), dev)
      | (.ok (), dev) =>
        match env.setupBuffer with
        | some e => (.error (.code e), dev)
        | none =>
          match env.cmsUnrest with
          | some e => (.error (.code e), dev)
          | none => (.ok (), dev)

/-- `__fpga_config_region`. -/
def fpgaConfigRegion (build : BuildOptions) (found : Bool) (filePath : Option (List Char))
    (region : FpgaRegion) (env : BitstreamEnv) (dev : ModulesInfo) :
    Except BitstreamErr Unit × ModulesInfo :=
  match filePath with
  | none => (.error (.code .invalidArgument), dev)
  | some path =>
    if !found || fpgaGetXpcieRegion region = .max then (.error (.code .invalidArgument), dev)
    else if path.contains ';' then (.error (.code .invalidArgument), dev)
    else if !env.commandProcessor then (.error .fatalError, dev)
    else
      match fpgaRefControl build found region .write dev with
      | (.error e, dev) => (.error (.code e), dev)
      | (.ok (), dev) =>
        let (ret, dev) := configRegion build found region env dev
        (ret, (fpgaRefControl build found region .clear dev).2)

/-- `fpga_write_bitstream`; its `lane` is not used. -/
def fpgaWriteBitstream (build : BuildOptions) (found : Bool) (filePath : Option (List Char))
    (env : BitstreamEnv) (dev : ModulesInfo) : Except BitstreamErr Unit × ModulesInfo :=
  if !found || filePath.isNone then (.error (.code .invalidArgument), dev)
  else fpgaConfigRegion build found filePath .all env dev

/-! ### A call -/

variable {build : BuildOptions} {found : Bool} {filePath : Option (List Char)} {env : BitstreamEnv}
  {dev : ModulesInfo} {regs : BarRegs}

theorem fpgaRefControl_all (build : BuildOptions) (cmd : RefcountCmd) (dev : ModulesInfo)
    (hcmd : refcountCmdMax cmd = false) :
    (fpgaRefControl build true .all cmd dev).2 = (controlRefcountDev build cmd dev).2 ∧
      ((fpgaRefControl build true .all cmd dev).1 = .ok () ↔
        (controlRefcountDev build cmd dev).1 = .ok ()) := by
  unfold fpgaRefControl
  rw [hcmd]
  generalize hout : controlRefcountDev build cmd dev = out
  obtain ⟨ret, dev'⟩ := out
  simp only [fpgaGetXpcieRegion, xpcieFpgaControlRefcount, hout]
  cases ret with
  | ok u => exact ⟨rfl, iff_of_true rfl rfl⟩
  | error e => cases e <;> exact ⟨rfl, by simp⟩

/-- Before `finish` the driver changes by the update alone. -/
theorem configRegion_cases (build : BuildOptions) (env : BitstreamEnv) (dev : ModulesInfo) :
    (configRegion build true .all env dev).2 = dev ∨
      (configRegion build true .all env dev).2 = (ioctlSetFpgaUpdate build env.regs dev).2 := by
  unfold configRegion fpgaUpdateBitstreamInfo
  generalize ioctlSetFpgaUpdate build env.regs dev = out
  obtain ⟨ret, dev'⟩ := out
  cases mcapRet env.mcap with
  | error e => exact .inl rfl
  | ok u =>
    right
    cases ret with
    | error e => rfl
    | ok u =>
      cases env.setupBuffer with
      | some e => rfl
      | none => cases env.cmsUnrest <;> rfl

/-- **Where a call leaves the driver.** -/
theorem fpgaWriteBitstream_cases (build : BuildOptions) (found : Bool)
    (filePath : Option (List Char)) (env : BitstreamEnv)
    (hwrite : (controlRefcountDev build .write dev).1 = .ok ()) :
    (fpgaWriteBitstream build found filePath env dev).2 = dev ∨
      (fpgaWriteBitstream build found filePath env dev).2 =
        (controlRefcountDev build .clear (controlRefcountDev build .write dev).2).2 ∨
      (fpgaWriteBitstream build found filePath env dev).2 =
        (controlRefcountDev build .clear (rewritten build env.regs [] [] dev)).2 := by
  cases found with
  | false => exact .inl rfl
  | true =>
    cases filePath with
    | none => exact .inl rfl
    | some path =>
      obtain ⟨hdev, hok⟩ := fpgaRefControl_all build .write dev rfl
      have hret := hok.mpr hwrite
      have hrewritten : rewritten build env.regs [] [] dev =
          (ioctlSetFpgaUpdate build env.regs (controlRefcountDev build .write dev).2).2 := rfl
      rw [hrewritten]
      generalize (controlRefcountDev build .write dev).2 = writing at hdev ⊢
      unfold fpgaWriteBitstream fpgaConfigRegion
      simp only [fpgaGetXpcieRegion]
      generalize fpgaRefControl build true .all .write dev = out at hdev hret ⊢
      obtain ⟨ret, dev'⟩ := out
      cases hret
      cases hdev
      cases path.contains ';' with
      | true => exact .inl rfl
      | false =>
        cases env.commandProcessor with
        | false => exact .inl rfl
        | true =>
          right
          have hclear := (fpgaRefControl_all build .clear
            (configRegion build true .all env dev').2 rfl).1
          refine (configRegion_cases build env dev').imp (fun h => ?_) (fun h => ?_)
          · rw [h] at hclear
            exact (congrArg (fun d => (fpgaRefControl build true .all .clear d).2) h).trans hclear
          · rw [h] at hclear
            exact (congrArg (fun d => (fpgaRefControl build true .all .clear d).2) h).trans hclear

/-- The device can be used again after a `WRITE`, an update from `regs` and a `CLEAR`. -/
structure LeavesWriting (build : BuildOptions) (regs : BarRegs) (dev : ModulesInfo) : Prop where
  /-- Whatever others try meanwhile, the `CLEAR` succeeds. -/
  sequence : ∀ before after : List RefcountCmd,
    (∀ cmd ∈ before ++ after, cmd ≠ .clear ∧ cmd ≠ .rst) →
      (controlRefcountDev build .clear (rewritten build regs before after dev)).1 = .ok () ∧
        Usable build (controlRefcountDev build .clear (rewritten build regs before after dev)).2
  /-- A call of the library leaves the device usable, whatever it returns. -/
  library : ∀ (found : Bool) (filePath : Option (List Char)) (env : BitstreamEnv), env.regs = regs →
    Usable build (fpgaWriteBitstream build found filePath env dev).2

/-- A bitstream that was not written leaves the lanes as they were. -/
theorem usable_of_not_rewritten (hwrite : (controlRefcountDev build .write dev).1 = .ok ()) :
    Usable build (controlRefcountDev build .clear (controlRefcountDev build .write dev).2).2 := by
  obtain ⟨hne, -, hset⟩ := control_write_of_ok hwrite
  refine usable_of_clear_ok (control_clear_ok_iff.mpr ⟨hne, fun c hc => ?_⟩)
  have hcounters : (controlRefcountDev build .write dev).2.counters.refcount =
      setRefcountList (refcountListDev build dev.num) (-1) dev.counters.refcount :=
    congrArg Refcounts.refcount hset
  rw [hcounters, setRefcountList_apply]
  exact if_pos hc

/-- **The device can be used again exactly when every new lane was there before, or its counter
was `-1` all along.** -/
theorem leavesWriting_iff (build : BuildOptions) (regs : BarRegs) (dev : ModulesInfo)
    (hwrite : (controlRefcountDev build .write dev).1 = .ok ())
    (hlanes : ∀ m, build.enableModule m = true → newLanes build regs dev.num m ≠ 0) :
    LeavesWriting build regs dev ↔ NewLanesWritten build regs dev := by
  constructor
  · intro h
    exact (clear_ok_iff hwrite hlanes (by simp)).mp (h.sequence [] [] (by simp)).1
  · intro h
    refine ⟨fun before after hothers => ?_, fun found filePath env henv => ?_⟩
    · have hclear := (clear_ok_iff hwrite hlanes hothers).mpr h
      exact ⟨hclear, usable_of_clear_ok hclear⟩
    · subst henv
      obtain ⟨hne, hzero, -⟩ := control_write_of_ok hwrite
      obtain hdev | hdev | hdev := fpgaWriteBitstream_cases build found filePath env hwrite
      · rw [hdev]
        exact usable_of_zero hne hzero
      · rw [hdev]
        exact usable_of_not_rewritten hwrite
      · rw [hdev]
        exact usable_of_clear_ok ((clear_ok_iff hwrite hlanes (by simp)).mpr h)

/-! ### A second lane -/

/-- A driver that counts the users of the chain module. -/
def chainBuild : BuildOptions := ⟨fun _ => true, fun m => m = .global ∨ m = .chain⟩

/-- A bitstream with so many lanes of the chain module, and one of the others. -/
def chainLanes (n : ℕ) : BarRegs := fun offset =>
  if offset = 0x1010 ∨ (offset = 0x2010 ∧ 2 ≤ n) then 0xF0C0
  else if offset = 0x5010 then 0xF3C0
  else if offset = 0x24010 then 0xF1C1
  else if offset = 0x25010 then 0xF2C2
  else 0

/-- A device nobody uses, with one lane of each module. -/
def oneLane : ModulesInfo := ⟨fun _ => 1, ⟨fun _ => 0, 0⟩, .modulized⟩

/-- A file. -/
def bitFile : List Char := ['t', 'w', 'o', '.', 'b', 'i', 't']

/-- A bitstream is written without trouble. -/
def fineWrite (regs : BarRegs) : BitstreamEnv := ⟨true, 0, regs, none, none⟩

/-- Another bitstream with one lane. -/
theorem leavesWriting_oneLane :
    LeavesWriting chainBuild (chainLanes 1) oneLane ↔
      NewLanesWritten chainBuild (chainLanes 1) oneLane :=
  leavesWriting_iff chainBuild (chainLanes 1) oneLane (by decide)
    (by intro m; cases m <;> decide)

/-- With a second lane the call returns `0`, and from then on nobody can use the device. -/
theorem not_leavesWriting_twoLanes :
    (controlRefcountDev chainBuild .write oneLane).1 = .ok () ∧
      (fpgaWriteBitstream chainBuild true (some bitFile) (fineWrite (chainLanes 2)) oneLane).1 = .ok () ∧
      (controlRefcountDev chainBuild .inc
        (fpgaWriteBitstream chainBuild true (some bitFile) (fineWrite (chainLanes 2)) oneLane).2).1 =
          .error .writing ∧
      ¬ LeavesWriting chainBuild (chainLanes 2) oneLane := by
  refine ⟨by decide, by decide, by decide, fun h => ?_⟩
  have husable := (h.library true (some bitFile) (fineWrite (chainLanes 2)) rfl).2
  exact absurd husable (by decide)

end HardwareDrivers.Libfpga
