import HardwareDrivers.Driver.Chain
import HardwareDrivers.Driver.Refcount
import Mathlib.Data.List.FinRange
import Mathlib.Data.List.TakeWhile

/-!
# The reference count of a device

`libxpcie.c`: the list of counters of a device is made anew for each command, from the
number of lanes that each module has at that time. `XPCIE_DEV_DRIVER_SET_FPGA_UPDATE` counts
the lanes again, from the registers that a new bitstream shows.

## What is proved

* `refcountListDev_nodup` — the list has no counter twice.
* `getModuleInfo_of_lanes` — what the lanes are after an update.
* `clear_ok_iff` — when a writer can finish.
-/

namespace HardwareDrivers.Driver

/-! ### The modules -/

/-- The modules of `fpga_modules_info_t`. -/
inductive FpgaModule where
  /-- `global`. -/
  | global
  /-- `chain`. -/
  | chain
  /-- `direct`. -/
  | direct
  /-- `lldma`. -/
  | lldma
  /-- `ptu`. -/
  | ptu
  /-- `conv`. -/
  | conv
  /-- `func`. -/
  | func
  /-- `cms`. -/
  | cms
  deriving DecidableEq, Repr

/-- The modules in the order of the source. -/
def fpgaModules : List FpgaModule := [.global, .chain, .direct, .lldma, .ptu, .conv, .func, .cms]

/-- What the driver is built with. -/
structure BuildOptions where
  /-- `ENABLE_MODULE_*`. -/
  enableModule : FpgaModule → Bool
  /-- `ENABLE_REFCOUNT_*`. -/
  enableRefcount : FpgaModule → Bool

/-- The module takes part in the reference count of the device. -/
def BuildOptions.counts (build : BuildOptions) (m : FpgaModule) : Bool :=
  build.enableRefcount m && build.enableModule m

/-- `FPGA_CONTROL_TYPE`. -/
inductive FpgaControlType where
  /-- `FPGA_CONTROL_UNKNOWN`. -/
  | unknown
  /-- `FPGA_CONTROL_MODULE`. -/
  | modulized
  deriving DecidableEq, Repr

/-- A number of lanes. -/
abbrev LaneNum := Fin (xpcieKernelLaneMax + 1)

instance (priority := 2000) : NeZero (xpcieKernelLaneMax + 1) := ⟨by decide⟩

/-- `fpga_modules_info_t`: what the driver knows of the modules. -/
structure ModulesInfo where
  /-- `num` of each module. -/
  num : FpgaModule → LaneNum
  /-- `refcount` of each module. -/
  counters : Refcounts (FpgaModule × Lane)
  /-- `ctrl_type`. -/
  ctrlType : FpgaControlType

/-- `for (lane = 0; lane < num; lane++)`. -/
def laneRange (num : LaneNum) : List Lane := (List.finRange xpcieKernelLaneMax).take num

/-! ### The commands -/

/-- The list that `__control_refcount_dev` makes. -/
def refcountListDev (build : BuildOptions) (num : FpgaModule → LaneNum) : List (FpgaModule × Lane) :=
  fpgaModules.flatMap fun m =>
    if build.counts m then (laneRange (num m)).map fun lane => (m, lane) else []

/-- `__control_refcount_dev`. -/
def controlRefcountDev (build : BuildOptions) (cmd : RefcountCmd) (dev : ModulesInfo) :
    Except RefcountErrno Unit × ModulesInfo :=
  let (ret, counters) :=
    controlRefcountStatus (refcountListDev build dev.num) cmd dev.counters
  (ret, { dev with counters })

/-- `xpcie_region_t`. -/
inductive XpcieRegion where
  /-- `XPCIE_DEV_REGION_INV`. -/
  | inv
  /-- `XPCIE_DEV_REGION_ALL`. -/
  | all
  /-- `XPCIE_DEV_REGION_MAX`. -/
  | max
  deriving DecidableEq, Repr

/-- `xpcie_fpga_control_refcount`, which holds `lock_refcount`. -/
def xpcieFpgaControlRefcount (build : BuildOptions) (cmd : RefcountCmd) (region : XpcieRegion)
    (dev : ModulesInfo) : Except RefcountErrno Unit × ModulesInfo :=
  match region with
  | .all => controlRefcountDev build cmd dev
  | _ => (.error .einval, dev)

/-! ### The lanes of a bitstream -/

/-- What `reg_read32` reads at an offset. -/
abbrev BarRegs := BitVec 32 → BitVec 32

/-- `XPCIE_FPGA_*_OFFSET`. -/
def moduleOffset : FpgaModule → ℕ
  | .global => 0x0
  | .chain => 0x1000
  | .direct => 0x5000
  | .lldma => 0x10000
  | .ptu => 0x20000
  | .conv => 0x24000
  | .func => 0x25000
  | .cms => 0x40000

/-- `XPCIE_FPGA_*_SIZE`. -/
def moduleSize : FpgaModule → ℕ
  | .lldma => 0x10000
  | .conv => 0x400
  | .cms => 0x40000
  | _ => 0x1000

/-- `XPCIE_FPGA_*_MODULE_ID_*VALUE`; the other modules have no such register. -/
def moduleIdValues : FpgaModule → List (BitVec 32)
  | .chain => [0xF0C0]
  | .direct => [0xF3C0]
  | .conv => [0xF1C1, 0xF1C2, 0xF1C3]
  | .func => [0xF2C2]
  | _ => []

/-- The offset of `XPCIE_FPGA_*_MODULE_ID` in a lane. -/
def moduleIdOffset (m : FpgaModule) (lane : Lane) : BitVec 32 :=
  BitVec.ofNat 32 (moduleOffset m + lane * moduleSize m + 0x10)

/-- The lane has the module. -/
def hasModule (regs : BarRegs) (m : FpgaModule) (lane : Lane) : Bool :=
  (moduleIdValues m).contains (regs (moduleIdOffset m lane))

/-- The lanes before the first that has no such module. -/
def countLanes (regs : BarRegs) (m : FpgaModule) : LaneNum :=
  ⟨((List.finRange xpcieKernelLaneMax).takeWhile (hasModule regs m)).length, by
    have h := (List.takeWhile_sublist (hasModule regs m)
      (l := List.finRange xpcieKernelLaneMax)).length_le
    rw [List.length_finRange] at h
    exact Nat.lt_succ_of_le h⟩

/-- `dev->mods.m.num = num`. -/
def ModulesInfo.setNum (dev : ModulesInfo) (m : FpgaModule) (num : LaneNum) : ModulesInfo :=
  { dev with num := Function.update dev.num m num }

/-- The lanes of a module that has IDs. -/
def getCountedModuleInfo (m : FpgaModule) (regs : BarRegs) (dev : ModulesInfo) :
    Except RefcountErrno Unit × ModulesInfo :=
  let num := countLanes regs m
  (if num = 0 then .error .enodev else .ok (), dev.setNum m num)

/-- `xpcie_fpga_common_get_global_module_info`. -/
def xpcieFpgaCommonGetGlobalModuleInfo (dev : ModulesInfo) :
    Except RefcountErrno Unit × ModulesInfo := (.ok (), dev.setNum .global 1)

/-- `xpcie_fpga_common_get_chain_module_info`. -/
def xpcieFpgaCommonGetChainModuleInfo (regs : BarRegs) (dev : ModulesInfo) :
    Except RefcountErrno Unit × ModulesInfo := getCountedModuleInfo .chain regs dev

/-- `xpcie_fpga_common_get_direct_module_info`. -/
def xpcieFpgaCommonGetDirectModuleInfo (regs : BarRegs) (dev : ModulesInfo) :
    Except RefcountErrno Unit × ModulesInfo := getCountedModuleInfo .direct regs dev

/-- `xpcie_fpga_common_get_lldma_module_info`. The DMA channels that it counts are no matter
here. -/
def xpcieFpgaCommonGetLldmaModuleInfo (dev : ModulesInfo) :
    Except RefcountErrno Unit × ModulesInfo := (.ok (), dev.setNum .lldma 1)

/-- `xpcie_fpga_common_get_ptu_module_info`: as many lanes as the chain module has. -/
def xpcieFpgaCommonGetPtuModuleInfo (dev : ModulesInfo) :
    Except RefcountErrno Unit × ModulesInfo := (.ok (), dev.setNum .ptu (dev.num .chain))

/-- `xpcie_fpga_common_get_conv_module_info`. -/
def xpcieFpgaCommonGetConvModuleInfo (regs : BarRegs) (dev : ModulesInfo) :
    Except RefcountErrno Unit × ModulesInfo := getCountedModuleInfo .conv regs dev

/-- `xpcie_fpga_common_get_func_module_info`. -/
def xpcieFpgaCommonGetFuncModuleInfo (regs : BarRegs) (dev : ModulesInfo) :
    Except RefcountErrno Unit × ModulesInfo := getCountedModuleInfo .func regs dev

/-- `xpcie_fpga_common_get_cms_module_info`. -/
def xpcieFpgaCommonGetCmsModuleInfo (dev : ModulesInfo) :
    Except RefcountErrno Unit × ModulesInfo := (.ok (), dev.setNum .cms 1)

/-- The function of a module. -/
def moduleInfo (regs : BarRegs) (dev : ModulesInfo) :
    FpgaModule → Except RefcountErrno Unit × ModulesInfo
  | .global => xpcieFpgaCommonGetGlobalModuleInfo dev
  | .chain => xpcieFpgaCommonGetChainModuleInfo regs dev
  | .direct => xpcieFpgaCommonGetDirectModuleInfo regs dev
  | .lldma => xpcieFpgaCommonGetLldmaModuleInfo dev
  | .ptu => xpcieFpgaCommonGetPtuModuleInfo dev
  | .conv => xpcieFpgaCommonGetConvModuleInfo regs dev
  | .func => xpcieFpgaCommonGetFuncModuleInfo regs dev
  | .cms => xpcieFpgaCommonGetCmsModuleInfo dev

/-- One after another, up to the first that fails. -/
def getModuleInfos (build : BuildOptions) (regs : BarRegs) :
    List FpgaModule → ModulesInfo → Except RefcountErrno Unit × ModulesInfo
  | [], dev => (.ok (), dev)
  | m :: ms, dev =>
    if build.enableModule m then
      match moduleInfo regs dev m with
      | (.ok (), dev) => getModuleInfos build regs ms dev
      | (.error _, dev) => (.error .efault, dev)
    else getModuleInfos build regs ms dev

/-- `xpcie_fpga_common_get_module_info`. -/
def xpcieFpgaCommonGetModuleInfo (build : BuildOptions) (regs : BarRegs) (dev : ModulesInfo) :
    Except RefcountErrno Unit × ModulesInfo := getModuleInfos build regs fpgaModules dev

/-- `xpcie_fpga_get_control_type`. -/
def xpcieFpgaGetControlType (build : BuildOptions) (regs : BarRegs) (dev : ModulesInfo) :
    Except RefcountErrno Unit × ModulesInfo :=
  match xpcieFpgaCommonGetModuleInfo build regs { dev with ctrlType := .unknown } with
  | (.ok (), dev) => (.ok (), { dev with ctrlType := .modulized })
  | (.error e, dev) => (.error e, dev)

/-- `XPCIE_DEV_DRIVER_SET_FPGA_UPDATE`. -/
def ioctlSetFpgaUpdate (build : BuildOptions) (regs : BarRegs) (dev : ModulesInfo) :
    Except RefcountErrno Unit × ModulesInfo :=
  match xpcieFpgaGetControlType build regs dev with
  | (.ok (), dev) => (.ok (), dev)
  | (.error _, dev) => (.error .efault, dev)

/-! ### The list -/

theorem mem_laneRange {num : LaneNum} {lane : Lane} :
    lane ∈ laneRange num ↔ lane.val < num.val := by
  revert num lane
  decide

theorem mem_fpgaModules (m : FpgaModule) : m ∈ fpgaModules := by
  cases m <;> decide

variable {build : BuildOptions} {num : FpgaModule → LaneNum} {regs : BarRegs} {dev : ModulesInfo}

theorem mem_refcountListDev {m : FpgaModule} {lane : Lane} :
    (m, lane) ∈ refcountListDev build num ↔ build.counts m = true ∧ lane.val < (num m).val := by
  unfold refcountListDev
  rw [List.mem_flatMap]
  constructor
  · rintro ⟨m', -, hm⟩
    split at hm
    next hcounts =>
      obtain ⟨lane', hlane, heq⟩ := List.mem_map.mp hm
      cases heq
      exact ⟨hcounts, mem_laneRange.mp hlane⟩
    next => cases hm
  · rintro ⟨hcounts, hlane⟩
    refine ⟨m, mem_fpgaModules m, ?_⟩
    rw [if_pos hcounts]
    exact List.mem_map_of_mem (mem_laneRange.mpr hlane)

/-- **The list has no counter twice.** -/
theorem refcountListDev_nodup (build : BuildOptions) (num : FpgaModule → LaneNum) :
    (refcountListDev build num).Nodup := by
  unfold refcountListDev
  rw [List.nodup_flatMap]
  constructor
  · intro m _
    split
    · exact (((List.nodup_finRange _).sublist (List.take_sublist _ _)).map
        fun lane lane' h => (Prod.mk.inj h).2)
    · exact List.nodup_nil
  · have hmodules : fpgaModules.Nodup := by decide
    refine hmodules.imp fun {m m'} hne => ?_
    intro c hc hc'
    have hfst : ∀ {m : FpgaModule}, (c ∈ if build.counts m = true then
        (laneRange (num m)).map fun lane => (m, lane) else []) → c.1 = m := by
      intro m hm
      split at hm
      · obtain ⟨lane, -, rfl⟩ := List.mem_map.mp hm
        rfl
      · cases hm
    exact hne ((hfst hc).symm.trans (hfst hc'))

/-! ### An update -/

@[simp] theorem setNum_num (dev : ModulesInfo) (m : FpgaModule) (n : LaneNum) :
    (dev.setNum m n).num = Function.update dev.num m n := rfl

/-- The lanes that a module is given, where the chain module has `chainNum`. -/
def moduleLanes (regs : BarRegs) (chainNum : LaneNum) : FpgaModule → LaneNum
  | .ptu => chainNum
  | .global | .lldma | .cms => 1
  | m => countLanes regs m

/-- The lanes of a module after an update. -/
def newLanes (build : BuildOptions) (regs : BarRegs) (num : FpgaModule → LaneNum) (m : FpgaModule) :
    LaneNum :=
  if build.enableModule m then
    moduleLanes regs (if build.enableModule .chain then countLanes regs .chain else num .chain) m
  else num m

theorem moduleInfo_of_pos {m : FpgaModule} (h : moduleLanes regs (dev.num .chain) m ≠ 0) :
    moduleInfo regs dev m = (.ok (), dev.setNum m (moduleLanes regs (dev.num .chain) m)) := by
  cases m with
  | chain | direct | conv | func =>
    refine Prod.ext ?_ rfl
    exact if_neg h
  | global | lldma | ptu | cms => rfl

theorem getModuleInfos_cons {m : FpgaModule} {ms : List FpgaModule}
    (h : build.enableModule m = true → moduleLanes regs (dev.num .chain) m ≠ 0) :
    getModuleInfos build regs (m :: ms) dev = getModuleInfos build regs ms
      (dev.setNum m (if build.enableModule m then moduleLanes regs (dev.num .chain) m
        else dev.num m)) := by
  rw [getModuleInfos]
  split
  next hm => rw [moduleInfo_of_pos (h hm)]
  next hm => rw [ModulesInfo.setNum, Function.update_eq_self]

/-- **What the lanes are after an update.** -/
theorem getModuleInfo_of_lanes (dev : ModulesInfo)
    (h : ∀ m, build.enableModule m = true → newLanes build regs dev.num m ≠ 0) :
    xpcieFpgaCommonGetModuleInfo build regs dev =
      (.ok (), { dev with num := newLanes build regs dev.num }) := by
  have hpos : ∀ m, build.enableModule m = true → moduleLanes regs
      (if build.enableModule .chain then countLanes regs .chain else dev.num .chain) m ≠ 0 := by
    intro m hm
    have hnew := h m hm
    rwa [newLanes, if_pos hm] at hnew
  unfold xpcieFpgaCommonGetModuleInfo fpgaModules
  rw [getModuleInfos_cons, getModuleInfos_cons, getModuleInfos_cons, getModuleInfos_cons,
    getModuleInfos_cons, getModuleInfos_cons, getModuleInfos_cons, getModuleInfos_cons,
    getModuleInfos]
  · refine Prod.ext rfl ?_
    simp only [ModulesInfo.setNum]
    congr 1
    funext m
    cases m <;> simp [newLanes, moduleLanes]
  all_goals
    intro hm
    refine ne_of_eq_of_ne ?_ (hpos _ hm)
    simp [moduleLanes]

theorem ioctlSetFpgaUpdate_of_lanes
    (h : ∀ m, build.enableModule m = true → newLanes build regs dev.num m ≠ 0) :
    ioctlSetFpgaUpdate build regs dev =
      (.ok (), { dev with num := newLanes build regs dev.num, ctrlType := .modulized }) := by
  unfold ioctlSetFpgaUpdate xpcieFpgaGetControlType
  rw [getModuleInfo_of_lanes { dev with ctrlType := .unknown } h]

/-! ### Writing a bitstream -/

/-- The commands of whoever, one after another. -/
def runCommands (build : BuildOptions) (cmds : List RefcountCmd) (dev : ModulesInfo) : ModulesInfo :=
  cmds.foldl (fun dev cmd => (controlRefcountDev build cmd dev).2) dev

/-- A device of which a new bitstream was written, before the writer finishes. The other commands
come before and after the update. -/
def rewritten (build : BuildOptions) (regs : BarRegs) (before after : List RefcountCmd)
    (dev : ModulesInfo) : ModulesInfo :=
  let writing := runCommands build before (controlRefcountDev build .write dev).2
  runCommands build after (ioctlSetFpgaUpdate build regs writing).2

/-- Nobody uses the device, and anybody may. -/
def Usable (build : BuildOptions) (dev : ModulesInfo) : Prop :=
  (∀ c ∈ refcountListDev build dev.num, dev.counters.refcount c = 0) ∧
    (controlRefcountDev build .inc dev).1 = .ok ()

theorem usable_of_zero (hne : refcountListDev build dev.num ≠ [])
    (hzero : ∀ c ∈ refcountListDev build dev.num, dev.counters.refcount c = 0) :
    Usable build dev := by
  refine ⟨hzero, ?_⟩
  have hshown : (DeviceUse.used 0).Shown (refcountListDev build dev.num) dev.counters.refcount :=
    hzero
  have hrefines := control_refines hne (refcountListDev_nodup _ _) hshown (Nat.two_pow_pos 31) .inc
  obtain ⟨use', -, hok, -⟩ | ⟨hstep, -⟩ := hrefines
  · exact hok
  · cases hstep

theorem runCommands_of_neg_one (dev : ModulesInfo) {c : FpgaModule × Lane}
    (hc : c ∈ refcountListDev build dev.num)
    (hr : dev.counters.refcount c = -1) (cmds : List RefcountCmd)
    (hcmds : ∀ cmd ∈ cmds, cmd ≠ .clear ∧ cmd ≠ .rst) :
    (runCommands build cmds dev).num = dev.num ∧
      (runCommands build cmds dev).counters.refcount = dev.counters.refcount := by
  unfold runCommands
  induction cmds generalizing dev with
  | nil => exact ⟨rfl, rfl⟩
  | cons cmd cmds ih =>
    obtain ⟨⟨hclear, hrst⟩, hrest⟩ := List.forall_mem_cons.mp hcmds
    have hsame : (controlRefcountDev build cmd dev).2.counters.refcount = dev.counters.refcount :=
      control_of_neg_one hc hr hclear hrst
    obtain ⟨hnum, hcounters⟩ := ih (controlRefcountDev build cmd dev).2 hc
      ((congrFun hsame c).trans hr) hrest
    exact ⟨hnum, hcounters.trans hsame⟩

variable {before after : List RefcountCmd}

/-- A module that counts has its first lane before and after. -/
theorem exists_mem_both (hne : refcountListDev build dev.num ≠ [])
    (hlanes : ∀ m, build.enableModule m = true → newLanes build regs dev.num m ≠ 0) :
    ∃ c, c ∈ refcountListDev build dev.num ∧
      c ∈ refcountListDev build (newLanes build regs dev.num) := by
  obtain ⟨⟨m, lane⟩, hc⟩ := List.exists_mem_of_ne_nil _ hne
  obtain ⟨hcounts, hlane⟩ := mem_refcountListDev.mp hc
  have henabled : build.enableModule m = true := (Bool.and_eq_true_iff.mp hcounts).2
  exact ⟨(m, 0), mem_refcountListDev.mpr ⟨hcounts, Nat.zero_lt_of_lt hlane⟩,
    mem_refcountListDev.mpr ⟨hcounts, Fin.pos_of_ne_zero (hlanes m henabled)⟩⟩

/-- What the lanes and the counters are when the writer comes to finish. -/
theorem rewritten_of_lanes (hwrite : (controlRefcountDev build .write dev).1 = .ok ())
    (hlanes : ∀ m, build.enableModule m = true → newLanes build regs dev.num m ≠ 0)
    (hothers : ∀ cmd ∈ before ++ after, cmd ≠ .clear ∧ cmd ≠ .rst) :
    (rewritten build regs before after dev).num = newLanes build regs dev.num ∧
      (rewritten build regs before after dev).counters.refcount =
        setRefcountList (refcountListDev build dev.num) (-1) dev.counters.refcount := by
  obtain ⟨hne, -, hset⟩ := control_write_of_ok hwrite
  obtain ⟨c, hold, hnew⟩ := exists_mem_both hne hlanes
  have hwriting : (controlRefcountDev build .write dev).2.counters.refcount =
      setRefcountList (refcountListDev build dev.num) (-1) dev.counters.refcount :=
    congrArg Refcounts.refcount hset
  have hneg : setRefcountList (refcountListDev build dev.num) (-1) dev.counters.refcount c = -1 := by
    rw [setRefcountList_apply, if_pos hold]
  have hnegW := (congrFun hwriting c).trans hneg
  obtain ⟨hnum₁, hcounters₁⟩ := runCommands_of_neg_one (controlRefcountDev build .write dev).2 hold
    hnegW before fun cmd h => hothers cmd (List.mem_append_left _ h)
  unfold rewritten
  generalize runCommands build before (controlRefcountDev build .write dev).2 = dev₁
    at hnum₁ hcounters₁
  change dev₁.num = dev.num at hnum₁
  have hupdate : ioctlSetFpgaUpdate build regs dev₁ = (.ok (),
      { dev₁ with num := newLanes build regs dev.num, ctrlType := .modulized }) := by
    rw [← hnum₁]
    exact ioctlSetFpgaUpdate_of_lanes (by rwa [hnum₁])
  simp only [hupdate]
  obtain ⟨hnum₂, hcounters₂⟩ := runCommands_of_neg_one
    { dev₁ with num := newLanes build regs dev.num, ctrlType := .modulized } hnew
    ((congrFun hcounters₁ c).trans hnegW) after
    fun cmd h => hothers cmd (List.mem_append_right _ h)
  exact ⟨hnum₂, hcounters₂.trans (hcounters₁.trans hwriting)⟩

/-- The writer wrote every counter of the new lanes, or it was `-1` all along. -/
def NewLanesWritten (build : BuildOptions) (regs : BarRegs) (dev : ModulesInfo) : Prop :=
  ∀ m (lane : Lane), build.counts m = true → lane.val < (newLanes build regs dev.num m).val →
    lane.val < (dev.num m).val ∨ dev.counters.refcount (m, lane) = -1

/-- **When a writer can finish.** -/
theorem clear_ok_iff (hwrite : (controlRefcountDev build .write dev).1 = .ok ())
    (hlanes : ∀ m, build.enableModule m = true → newLanes build regs dev.num m ≠ 0)
    (hothers : ∀ cmd ∈ before ++ after, cmd ≠ .clear ∧ cmd ≠ .rst) :
    (controlRefcountDev build .clear (rewritten build regs before after dev)).1 = .ok () ↔
      NewLanesWritten build regs dev := by
  obtain ⟨hne, -, -⟩ := control_write_of_ok hwrite
  obtain ⟨c, -, hnew⟩ := exists_mem_both hne hlanes
  obtain ⟨hnum, hcounters⟩ := rewritten_of_lanes hwrite hlanes hothers
  unfold controlRefcountDev
  rw [control_clear_ok_iff, hnum, hcounters]
  constructor
  · rintro ⟨-, h⟩ m lane hcounts hlane
    have hneg := h (m, lane) (mem_refcountListDev.mpr ⟨hcounts, hlane⟩)
    rw [setRefcountList_apply] at hneg
    split at hneg
    next hold => exact .inl (mem_refcountListDev.mp hold).2
    next => exact .inr hneg
  · intro h
    refine ⟨List.ne_nil_of_mem hnew, fun ⟨m, lane⟩ hc => ?_⟩
    obtain ⟨hcounts, hlane⟩ := mem_refcountListDev.mp hc
    rw [setRefcountList_apply]
    split
    next => rfl
    next hold =>
      obtain hlt | hneg := h m lane hcounts hlane
      · exact absurd (mem_refcountListDev.mpr ⟨hcounts, hlt⟩) hold
      · exact hneg

/-- A writer that finished leaves the device to anybody. -/
theorem usable_of_clear_ok (h : (controlRefcountDev build .clear dev).1 = .ok ()) :
    Usable build (controlRefcountDev build .clear dev).2 := by
  obtain ⟨hne, -⟩ := control_clear_ok_iff.mp h
  refine usable_of_zero hne fun c hc => ?_
  have hset : (controlRefcountDev build .clear dev).2.counters =
      { dev.counters with
        refcount := setRefcountList (refcountListDev build dev.num) 0 dev.counters.refcount } :=
    control_clear_of_ok h
  rw [hset]
  exact (setRefcountList_apply 0 dev.counters.refcount c).trans (if_pos hc)

end HardwareDrivers.Driver
