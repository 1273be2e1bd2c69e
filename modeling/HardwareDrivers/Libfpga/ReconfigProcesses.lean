import HardwareDrivers.Libfpga.Bitstream

/-!
# Users and writers of a device

Any number of processes use a device and write bitstreams to it. Who uses it holds the reference
count, who writes sets it to `-1` first. A writer updates what the driver knows of the modules, one
module after another, and then sets the counters of the lanes to `0`, as many as there are then. A
process may end at any time; what it holds stays counted.

The counters of lanes that a bitstream does not have any more stay `-1`, and keep everybody out when
the lanes are there again. So a device may become useless, but it is never used while it is written.

## What is proved

* `ReconfigInv.step` — what holds of the counters in every state.
* `reconfig_excludes` — there is one writer at most, and nobody uses the device meanwhile.
* `reconfig_lost` — a process that ends while it uses the device keeps all writers out, and one that
  ends while it writes keeps everybody out.
-/

namespace HardwareDrivers.Libfpga

open Driver Theory

variable {ι : Type*} [DecidableEq ι]

/-! ### The processes -/

/-- Where a process is: in `__fpga_config_region`, or not. -/
inductive ConfigAt where
  /-- Not in it. -/
  | idle
  /-- `WRITE` succeeded; at `system`. -/
  | writing
  /-- In `fpga_update_bitstream_info`, before these modules. -/
  | updating (regs : BarRegs) (modules : List FpgaModule)
  /-- At `finish`. -/
  | clearing
  /-- The process ended. -/
  | ended

/-- It is between the `WRITE` and the `CLEAR`. -/
def ConfigAt.writes : ConfigAt → Bool
  | .writing | .updating _ _ | .clearing => true
  | _ => false

/-- A device and the processes. -/
structure ReconfigSystem (ι : Type*) where
  /-- What the driver knows. -/
  dev : ModulesInfo
  /-- The processes. -/
  procs : ι → ConfigAt
  /-- Who holds the reference count, once for each time. -/
  acquired : List ι

/-- A step of a process. -/
inductive ReconfigOp (ι : Type*) where
  /-- `fpga_refcount_acquire`. -/
  | acquire (i : ι)
  /-- `fpga_refcount_release`. -/
  | release (i : ι)
  /-- `__fpga_config_region`, up to the `WRITE`. -/
  | write (i : ι)
  /-- The command of mcap ends; the device shows these registers, if it succeeded. -/
  | mcap (i : ι) (regs : Option BarRegs)
  /-- `xpcie_fpga_common_get_*_module_info` of the next module. -/
  | update (i : ι)
  /-- The `CLEAR`; what it returns is ignored. -/
  | clear (i : ι)
  /-- The process ends. -/
  | kill (i : ι)

/-- The command of a process, and what it leaves. -/
def ReconfigSystem.control (build : BuildOptions) (cmd : RefcountCmd) (s : ReconfigSystem ι) :
    Bool × ReconfigSystem ι :=
  let (ret, dev) := fpgaRefControl build true .all cmd s.dev
  (ret.isOk, { s with dev })

/-- A process is somewhere else. -/
def ReconfigSystem.goto (i : ι) (pc : ConfigAt) (s : ReconfigSystem ι) : ReconfigSystem ι :=
  { s with procs := Function.update s.procs i pc }

/-- A round of `xpcie_fpga_common_get_module_info`. -/
def updateModule (build : BuildOptions) (regs : BarRegs) (m : FpgaModule) (dev : ModulesInfo) :
    Bool × ModulesInfo :=
  if build.enableModule m then
    let (ret, dev) := moduleInfo regs dev m
    (ret.isOk, dev)
  else (true, dev)

/-- What a step does. -/
def reconfigStep (build : BuildOptions) (s : ReconfigSystem ι) :
    ReconfigOp ι → Option (ReconfigSystem ι)
  | .acquire i =>
    match s.procs i with
    | .idle =>
      let (ok, t) := s.control build .inc
      some (if ok then { t with acquired := i :: t.acquired } else t)
    | _ => none
  | .release i =>
    match s.procs i with
    | .idle =>
      if i ∈ s.acquired then
        let (ok, t) := s.control build .dec
        some (if ok then { t with acquired := t.acquired.erase i } else t)
      else none
    | _ => none
  | .write i =>
    match s.procs i with
    | .idle =>
      let (ok, t) := s.control build .write
      some (if ok then t.goto i .writing else t)
    | _ => none
  | .mcap i regs =>
    match s.procs i, regs with
    | .writing, some regs => some (s.goto i (.updating regs fpgaModules))
    | .writing, none => some (s.goto i .clearing)
    | _, _ => none
  | .update i =>
    match s.procs i with
    | .updating regs (m :: modules) =>
      let (ok, dev) := updateModule build regs m s.dev
      some ({ s with dev }.goto i (if ok then .updating regs modules else .clearing))
    | .updating _ [] => some (s.goto i .clearing)
    | _ => none
  | .clear i =>
    match s.procs i with
    | .clearing => some ((s.control build .clear).2.goto i .idle)
    | _ => none
  | .kill i =>
    match s.procs i with
    | .ended => none
    | _ => some (s.goto i .ended)

/-- Nobody uses the device, and every module has a lane. -/
structure ReconfigSystem.Start (build : BuildOptions) (s : ReconfigSystem ι) : Prop where
  /-- The device was probed. -/
  lanes : ∀ m, build.counts m = true → s.dev.num m ≠ 0
  /-- Something is counted. -/
  counts : ∃ m, build.counts m = true
  /-- Nothing was counted. -/
  zero : ∀ c, s.dev.counters.refcount c = 0
  /-- The processes begin. -/
  procs : ∀ i, s.procs i = .idle
  /-- Nobody holds anything. -/
  acquired : s.acquired = []

variable {build : BuildOptions} {s t : ReconfigSystem ι}

/-! ### The counters -/

/-- The counters of the device. -/
def ReconfigSystem.counters (build : BuildOptions) (s : ReconfigSystem ι) : List (FpgaModule × Lane) :=
  refcountListDev build s.dev.num

/-- The counters let nobody use the device, nor write. -/
def Blocked (counters : List (FpgaModule × Lane)) (r : FpgaModule × Lane → BitVec 32) : Prop :=
  counters = [] ∨ ∃ c ∈ counters, r c = -1

/-- A command on blocked counters fails. -/
theorem Blocked.fails {counters : List (FpgaModule × Lane)} {r : Refcounts (FpgaModule × Lane)}
    (h : Blocked counters r.refcount) {cmd : RefcountCmd} (hcmd : cmd = .inc ∨ cmd = .dec ∨ cmd = .write) :
    ∃ e, controlRefcountStatus counters cmd r = (.error e, r) := by
  unfold controlRefcountStatus
  obtain rfl | ⟨c, hc, hr⟩ := h
  · exact ⟨.enodev, rfl⟩
  · have hempty : counters.isEmpty = false := by
      cases counters with
      | nil => cases hc
      | cons d ds => rfl
    have hsame : isRefcountAnySame counters (-1) r.refcount = true :=
      List.any_eq_true.mpr ⟨c, hc, by simp [clbIsSame, hr]⟩
    refine ⟨.writing, ?_⟩
    obtain rfl | rfl | rfl := hcmd <;> simp only [hempty, hsame, if_true, Bool.false_eq_true, if_false]

omit [DecidableEq ι] in
/-- What the library does with a command. -/
theorem control_eq (build : BuildOptions) (cmd : RefcountCmd) (hcmd : refcountCmdMax cmd = false)
    (s : ReconfigSystem ι) :
    (s.control build cmd).2 = { s with dev := (controlRefcountDev build cmd s.dev).2 } ∧
      ((s.control build cmd).1 = true ↔ (controlRefcountDev build cmd s.dev).1 = .ok ()) := by
  obtain ⟨hdev, hok⟩ := fpgaRefControl_all build cmd s.dev hcmd
  refine ⟨by rw [← hdev]; rfl, ?_⟩
  rw [← hok]
  change (fpgaRefControl build true .all cmd s.dev).1.isOk = true ↔ _
  cases (fpgaRefControl build true .all cmd s.dev).1 with
  | ok u => exact iff_of_true rfl rfl
  | error e => exact iff_of_false (by simp [Except.isOk, Except.toBool]) (by simp)

/-- A command changes the counters of the list alone. -/
theorem control_notMem {counters : List (FpgaModule × Lane)} (hnd : counters.Nodup) (cmd : RefcountCmd)
    (r : Refcounts (FpgaModule × Lane)) {c : FpgaModule × Lane} (hc : c ∉ counters) :
    (controlRefcountStatus counters cmd r).2.refcount c = r.refcount c := by
  unfold controlRefcountStatus
  split
  · rfl
  · cases cmd with
    | inc | dec | write | clear | rst =>
      dsimp only
      repeat' split
      all_goals first
        | rfl
        | exact (addRefcountList_apply hnd _ _ c).trans (if_neg hc)
        | exact (setRefcountList_apply _ _ c).trans (if_neg hc)
    | get | other => rfl

/-- The counters of the first lanes block the others. -/
theorem blocked_of_first {num : FpgaModule → LaneNum} {r : FpgaModule × Lane → BitVec 32}
    (h : ∀ m, build.counts m = true → r (m, 0) = -1) : Blocked (refcountListDev build num) r := by
  by_cases hnil : refcountListDev build num = []
  · exact .inl hnil
  · obtain ⟨⟨m, lane⟩, hc⟩ := List.exists_mem_of_ne_nil _ hnil
    obtain ⟨hcounts, hlt⟩ := mem_refcountListDev.mp hc
    exact .inr ⟨(m, 0), mem_refcountListDev.mpr ⟨hcounts, (Nat.zero_le _).trans_lt hlt⟩, h m hcounts⟩

theorem moduleInfo_counters (regs : BarRegs) (dev : ModulesInfo) (m : FpgaModule) :
    (moduleInfo regs dev m).2.counters = dev.counters := by
  cases m <;> rfl

theorem updateModule_counters (regs : BarRegs) (m : FpgaModule) (dev : ModulesInfo) :
    (updateModule build regs m dev).2.counters = dev.counters := by
  unfold updateModule
  split
  · exact moduleInfo_counters regs dev m
  · rfl

/-! ### What holds of them -/

/-- What the counters show of the processes. -/
structure ReconfigInv (build : BuildOptions) (s : ReconfigSystem ι) : Prop where
  /-- The first lane of a module is there, or was when a writer began that did not finish it. -/
  first : ∀ m, build.counts m = true →
    (m, 0) ∈ s.counters build ∨ s.dev.counters.refcount (m, 0) = -1
  /-- The counters show how many use the device; or they keep everybody out, and one process writes
  at most. -/
  mode : (s.counters build ≠ [] ∧ (∀ i, (s.procs i).writes = false) ∧
      (DeviceUse.used s.acquired.length).Shown (s.counters build) s.dev.counters.refcount) ∨
    (Blocked (s.counters build) s.dev.counters.refcount ∧ s.acquired = [] ∧
      ∀ i j, (s.procs i).writes = true → (s.procs j).writes = true → i = j)
  /-- While a process writes the first lanes are taken. -/
  taken : ∀ i, (s.procs i).writes = true →
    ∀ m, build.counts m = true → s.dev.counters.refcount (m, 0) = -1

/-- A counter has room for one more. -/
def ReconfigSystem.HasRoom (s : ReconfigSystem ι) : Prop := s.acquired.length < 2 ^ 31 - 1

instance (s : ReconfigSystem ι) : Decidable s.HasRoom := inferInstanceAs (Decidable (_ < _))

omit [DecidableEq ι] in
theorem ReconfigSystem.Start.inv (h : s.Start build) : ReconfigInv build s where
  first m hm := by
    refine .inl (mem_refcountListDev.mpr ⟨hm, ?_⟩)
    exact Nat.pos_of_ne_zero fun h0 => h.lanes m hm (Fin.ext h0)
  mode := by
    obtain ⟨m, hm⟩ := h.counts
    refine .inl ⟨List.ne_nil_of_mem (a := (m, 0)) ?_, fun i => by rw [h.procs]; rfl, fun c _ => ?_⟩
    · refine mem_refcountListDev.mpr ⟨hm, ?_⟩
      exact Nat.pos_of_ne_zero fun h0 => h.lanes m hm (Fin.ext h0)
    · rw [h.zero, h.acquired]
      rfl
  taken i hi := by
    rw [h.procs] at hi
    cases hi

/-- What a process does apart from the counters keeps what holds of them, if it does not begin to
write. -/
theorem ReconfigInv.goto (h : ReconfigInv build s) {i : ι} {pc : ConfigAt}
    (hpc : pc.writes = true → (s.procs i).writes = true) : ReconfigInv build (s.goto i pc) := by
  have hback : ∀ j, ((s.goto i pc).procs j).writes = true → (s.procs j).writes = true := by
    intro j hj
    obtain ⟨rfl, hw⟩ | ⟨-, hw⟩ := update_cases (fun pc : ConfigAt => pc.writes = true) hj
    · exact hpc hw
    · exact hw
  refine ⟨h.first, ?_, fun j hj => h.taken j (hback j hj)⟩
  obtain ⟨hne, hnone, hshown⟩ | ⟨hblocked, hacquired, hone⟩ := h.mode
  · refine .inl ⟨hne, fun j => ?_, hshown⟩
    by_contra hj
    rw [Bool.not_eq_false] at hj
    have := hback j hj
    rw [hnone j] at this
    cases this
  · exact .inr ⟨hblocked, hacquired, fun j k hj hk => hone j k (hback j hj) (hback k hk)⟩

omit [DecidableEq ι] in
/-- A command that fails leaves the system as it is. -/
theorem control_fails {cmd : RefcountCmd} (hcmd : refcountCmdMax cmd = false)
    (hfail : ∃ e, controlRefcountStatus (s.counters build) cmd s.dev.counters = (.error e, s.dev.counters)) :
    s.control build cmd = (false, s) := by
  obtain ⟨e, he⟩ := hfail
  have hdev : controlRefcountDev build cmd s.dev = (.error e, s.dev) := by
    unfold controlRefcountDev
    rw [show controlRefcountStatus (refcountListDev build s.dev.num) cmd s.dev.counters = _ from he]
  obtain ⟨h2, h1⟩ := control_eq build cmd hcmd s
  rw [hdev] at h1 h2
  refine Prod.ext ?_ h2
  cases hret : (s.control build cmd).1 with
  | false => rfl
  | true => cases h1.mp hret

omit [DecidableEq ι] in
/-- A command of a process that uses the device, or wants to. -/
theorem control_used (hne : s.counters build ≠ []) {n : ℕ} (hn : n < 2 ^ 31)
    (hshown : (DeviceUse.used n).Shown (s.counters build) s.dev.counters.refcount)
    (cmd : RefcountCmd) (hcmd : refcountCmdMax cmd = false) :
    (∃ use' r', (DeviceUse.used n).step cmd = some use' ∧
      s.control build cmd = (true, { s with dev := { s.dev with counters := r' } }) ∧
      use'.Shown (s.counters build) r'.refcount ∧
      ∀ c ∉ s.counters build, r'.refcount c = s.dev.counters.refcount c) ∨
    ((DeviceUse.used n).step cmd = none ∧ s.control build cmd = (false, s)) := by
  have hnd := refcountListDev_nodup build s.dev.num
  obtain ⟨h2, h1⟩ := control_eq build cmd hcmd s
  obtain ⟨use', hstep, hok, hshown'⟩ | ⟨hstep, e, he⟩ :=
    control_refines hne hnd hshown (show (DeviceUse.used n).Fits from hn) cmd
  · refine .inl ⟨use', (controlRefcountStatus (s.counters build) cmd s.dev.counters).2, hstep, ?_, hshown',
      fun c hc => control_notMem hnd cmd _ hc⟩
    exact Prod.ext (h1.mpr hok) h2
  · exact .inr ⟨hstep, control_fails hcmd ⟨e, Prod.ext he (control_of_error he)⟩⟩

/-! ### The steps -/

omit [DecidableEq ι] in
/-- Commands of users leave what holds, where they are counted. -/
theorem ReconfigInv.count (h : ReconfigInv build s) {r' : Refcounts (FpgaModule × Lane)}
    {acquired : List ι} (hnone : ∀ i, (s.procs i).writes = false) (hne : s.counters build ≠ [])
    (hshown : (DeviceUse.used acquired.length).Shown (s.counters build) r'.refcount)
    (hout : ∀ c ∉ s.counters build, r'.refcount c = s.dev.counters.refcount c) :
    ReconfigInv build { s with dev := { s.dev with counters := r' }, acquired } where
  first m hm := by
    by_cases hc : (m, 0) ∈ s.counters build
    · exact .inl hc
    · exact .inr ((hout _ hc).trans ((h.first m hm).resolve_left hc))
  mode := .inl ⟨hne, hnone, hshown⟩
  taken i hi := by
    rw [hnone i] at hi
    cases hi

theorem ReconfigInv.acquire (h : ReconfigInv build s) (hroom : s.HasRoom) {i : ι}
    (hstep : reconfigStep build s (.acquire i) = some t) : ReconfigInv build t := by
  unfold reconfigStep at hstep
  cases hpc : s.procs i with
  | idle =>
    simp only [hpc] at hstep
    obtain ⟨hne, hnone, hshown⟩ | ⟨hblocked, -⟩ := h.mode
    · have hlt : s.acquired.length < 2 ^ 31 := hroom.trans (by decide)
      obtain ⟨use', r', huse, hcontrol, hshown', hout⟩ | ⟨huse, -⟩ :=
        control_used hne hlt hshown .inc rfl
      · rw [hcontrol] at hstep
        cases hstep
        cases huse
        exact h.count hnone hne hshown' hout
      · cases huse
    · rw [control_fails rfl (hblocked.fails (.inl rfl))] at hstep
      cases hstep
      exact h
  | writing | updating | clearing | ended => simp [hpc] at hstep

theorem ReconfigInv.release (h : ReconfigInv build s) (hroom : s.HasRoom) {i : ι}
    (hstep : reconfigStep build s (.release i) = some t) : ReconfigInv build t := by
  unfold reconfigStep at hstep
  cases hpc : s.procs i with
  | idle =>
    simp only [hpc] at hstep
    split at hstep
    · rename_i hi
      obtain ⟨hne, hnone, hshown⟩ | ⟨-, hacquired, -⟩ := h.mode
      · have hlt : s.acquired.length < 2 ^ 31 := hroom.trans (by decide)
        have hpos := List.length_pos_of_mem hi
        obtain ⟨n, hn⟩ : ∃ n, s.acquired.length = n + 1 := ⟨_, (Nat.succ_pred_eq_of_pos hpos).symm⟩
        obtain ⟨use', r', huse, hcontrol, hshown', hout⟩ | ⟨huse, -⟩ :=
          control_used hne hlt hshown .dec rfl
        · rw [hcontrol] at hstep
          cases hstep
          rw [hn] at huse
          cases huse
          refine h.count hnone hne ?_ hout
          rw [List.length_erase_of_mem hi, hn]
          exact hshown'
        · rw [hn] at huse
          cases huse
      · rw [hacquired] at hi
        cases hi
    · cases hstep
  | writing | updating | clearing | ended => simp [hpc] at hstep

/-- A writer begins where nobody uses the device. -/
theorem ReconfigInv.write (h : ReconfigInv build s) (hroom : s.HasRoom) {i : ι}
    (hstep : reconfigStep build s (.write i) = some t) : ReconfigInv build t := by
  unfold reconfigStep at hstep
  cases hpc : s.procs i with
  | idle =>
    simp only [hpc] at hstep
    obtain ⟨hne, hnone, hshown⟩ | ⟨hblocked, -⟩ := h.mode
    · have hlt : s.acquired.length < 2 ^ 31 := hroom.trans (by decide)
      obtain ⟨use', r', huse, hcontrol, hshown', hout⟩ | ⟨-, hcontrol⟩ :=
        control_used hne hlt hshown .write rfl
      · rw [hcontrol] at hstep
        cases hstep
        -- the device was used by nobody
        obtain ⟨hacquired, rfl⟩ : s.acquired.length = 0 ∧ use' = .writing := by
          cases hn : s.acquired.length with
          | zero =>
            rw [hn] at huse
            cases huse
            exact ⟨rfl, rfl⟩
          | succ n =>
            rw [hn] at huse
            cases huse
        have hfirst : ∀ m, build.counts m = true → r'.refcount (m, 0) = -1 := by
          intro m hm
          by_cases hc : (m, 0) ∈ s.counters build
          · exact hshown' _ hc
          · exact (hout _ hc).trans ((h.first m hm).resolve_left hc)
        refine ⟨fun m hm => .inr (hfirst m hm), .inr ⟨blocked_of_first hfirst,
          List.eq_nil_of_length_eq_zero hacquired, fun j k hj hk => ?_⟩, fun _ _ => hfirst⟩
        have hself : ∀ j, (Function.update s.procs i .writing j).writes = true → j = i := by
          intro j hj
          obtain ⟨rfl, -⟩ | ⟨-, hw⟩ := update_cases (fun pc : ConfigAt => pc.writes = true) hj
          · rfl
          · rw [hnone j] at hw
            cases hw
        rw [hself j hj, hself k hk]
      · rw [hcontrol] at hstep
        cases hstep
        exact h
    · rw [control_fails rfl (hblocked.fails (.inr (.inr rfl)))] at hstep
      cases hstep
      exact h
  | writing | updating | clearing | ended => simp [hpc] at hstep

/-- While a writer updates the lanes, those that are there keep everybody out. -/
theorem ReconfigInv.update (h : ReconfigInv build s) {i : ι}
    (hstep : reconfigStep build s (.update i) = some t) : ReconfigInv build t := by
  unfold reconfigStep at hstep
  cases hpc : s.procs i with
  | updating regs modules =>
    have hwrites : (s.procs i).writes = true := by rw [hpc]; rfl
    cases modules with
    | nil =>
      simp only [hpc] at hstep
      cases hstep
      exact h.goto fun _ => hwrites
    | cons m modules =>
      simp only [hpc] at hstep
      cases hstep
      have htaken := h.taken i hwrites
      have hcounters : (updateModule build regs m s.dev).2.counters = s.dev.counters :=
        updateModule_counters regs m s.dev
      obtain ⟨hacquired, hone⟩ : s.acquired = [] ∧
          ∀ j k, (s.procs j).writes = true → (s.procs k).writes = true → j = k := by
        obtain ⟨-, hnone, -⟩ | ⟨-, hacquired, hone⟩ := h.mode
        · rw [hnone i] at hwrites
          cases hwrites
        · exact ⟨hacquired, hone⟩
      have hfirst : ∀ m', build.counts m' = true →
          (updateModule build regs m s.dev).2.counters.refcount (m', 0) = -1 := by
        rw [hcounters]
        exact htaken
      have hinv : ReconfigInv build { s with dev := (updateModule build regs m s.dev).2 } :=
        ⟨fun m' hm' => .inr (hfirst m' hm'), .inr ⟨blocked_of_first hfirst, hacquired, hone⟩,
          fun _ _ => hfirst⟩
      exact hinv.goto fun _ => hwrites
  | idle | writing | clearing | ended => simp [hpc] at hstep

/-- A writer that finishes makes the device free, or leaves it as it is. -/
theorem ReconfigInv.clear (h : ReconfigInv build s) {i : ι}
    (hstep : reconfigStep build s (.clear i) = some t) : ReconfigInv build t := by
  unfold reconfigStep at hstep
  cases hpc : s.procs i with
  | clearing =>
    have hwrites : (s.procs i).writes = true := by rw [hpc]; rfl
    simp only [hpc] at hstep
    cases hstep
    obtain ⟨hacquired, hone⟩ : s.acquired = [] ∧
        ∀ j k, (s.procs j).writes = true → (s.procs k).writes = true → j = k := by
      obtain ⟨-, hnone, -⟩ | ⟨-, hacquired, hone⟩ := h.mode
      · rw [hnone i] at hwrites
        cases hwrites
      · exact ⟨hacquired, hone⟩
    obtain ⟨hdev, -⟩ := control_eq build .clear rfl s
    cases hret : (controlRefcountStatus (s.counters build) .clear s.dev.counters).1 with
    | error e =>
      have hsame := control_fails rfl ⟨e, Prod.ext hret (control_of_error hret)⟩
      rw [hsame]
      exact h.goto fun hw => by cases hw
    | ok u =>
      obtain ⟨hne, hall⟩ := control_clear_ok_iff.mp hret
      have hset := control_clear_of_ok hret
      have hnew : ∀ c ∈ s.counters build,
          (controlRefcountDev build .clear s.dev).2.counters.refcount c = 0 := by
        intro c hc
        change (controlRefcountStatus (s.counters build) .clear s.dev.counters).2.refcount c = 0
        rw [hset]
        exact (setRefcountList_apply 0 _ c).trans (if_pos hc)
      rw [hdev]
      refine ⟨fun m hm => ?_, .inl ⟨hne, fun j => ?_, fun c hc => ?_⟩, fun j hj => ?_⟩
      · by_cases hc : (m, 0) ∈ s.counters build
        · exact .inl hc
        · refine .inr (.trans ?_ ((h.first m hm).resolve_left hc))
          exact control_notMem (refcountListDev_nodup build s.dev.num) .clear _ hc
      · by_contra hj
        rw [Bool.not_eq_false] at hj
        obtain ⟨-, hw⟩ | ⟨hji, hw⟩ := update_cases (fun pc : ConfigAt => pc.writes = true) hj
        · cases hw
        · exact hji (hone j i hw hwrites)
      · refine (hnew c hc).trans ?_
        change _ = (DeviceUse.used s.acquired.length).count
        rw [hacquired]
        rfl
      · obtain ⟨-, hw⟩ | ⟨hji, hw⟩ := update_cases (fun pc : ConfigAt => pc.writes = true) hj
        · cases hw
        · exact absurd (hone j i hw hwrites) hji
  | idle | writing | updating | ended => simp [hpc] at hstep

theorem ReconfigInv.step (h : ReconfigInv build s) (hroom : s.HasRoom) {o : ReconfigOp ι}
    (hstep : reconfigStep build s o = some t) : ReconfigInv build t := by
  cases o with
  | acquire i => exact h.acquire hroom hstep
  | release i => exact h.release hroom hstep
  | write i => exact h.write hroom hstep
  | mcap i regs =>
    unfold reconfigStep at hstep
    cases hpc : s.procs i with
    | writing =>
      simp only [hpc] at hstep
      cases regs <;> cases hstep <;> exact h.goto fun _ => by rw [hpc]; rfl
    | idle | updating | clearing | ended => simp [hpc] at hstep
  | update i => exact h.update hstep
  | clear i => exact h.clear hstep
  | kill i =>
    unfold reconfigStep at hstep
    cases hpc : s.procs i with
    | ended => simp [hpc] at hstep
    | idle | writing | updating | clearing =>
      simp only [hpc] at hstep
      cases hstep
      exact h.goto fun hw => by cases hw

/-! ### Who is kept out -/

/-- Users and writers keep each other out. -/
structure ReconfigExcludes (build : BuildOptions) (s : ReconfigSystem ι) : Prop where
  /-- One process writes at most. -/
  one : ∀ i j, (s.procs i).writes = true → (s.procs j).writes = true → i = j
  /-- Nobody uses the device meanwhile. -/
  unused : ∀ i, (s.procs i).writes = true → s.acquired = []
  /-- Nobody can begin or finish using it, or begin writing. -/
  refused : ∀ i, (s.procs i).writes = true → ∀ cmd, cmd = .inc ∨ cmd = .dec ∨ cmd = .write →
    s.control build cmd = (false, s)
  /-- A `WRITE` succeeds only where nobody uses the device or writes. -/
  granted : (s.control build .write).1 = true →
    s.acquired = [] ∧ ∀ i, (s.procs i).writes = false
  /-- Who uses it is counted, in every lane that there is. -/
  counted : s.acquired ≠ [] → s.counters build ≠ [] ∧ ∀ c ∈ s.counters build,
    (s.dev.counters.refcount c).toInt = s.acquired.length

omit [DecidableEq ι] in
theorem ReconfigInv.excludes (h : ReconfigInv build s) (hroom : s.HasRoom) :
    ReconfigExcludes build s := by
  have hlt : s.acquired.length < 2 ^ 31 := Nat.lt_trans hroom (by decide)
  obtain ⟨hne, hnone, hshown⟩ | ⟨hblocked, hacquired, hone⟩ := h.mode
  · have hwrites : ∀ {i} {P : Prop}, (s.procs i).writes = true → P := by
      intro i P hi
      rw [hnone i] at hi
      cases hi
    refine ⟨fun _ _ => hwrites, fun _ => hwrites, fun _ => hwrites, fun hok => ?_, fun _ => ⟨hne, ?_⟩⟩
    · refine ⟨?_, hnone⟩
      obtain ⟨use', r', huse, -⟩ | ⟨-, hcontrol⟩ := control_used hne hlt hshown .write rfl
      · cases hn : s.acquired.length with
        | zero => exact List.eq_nil_of_length_eq_zero hn
        | succ n =>
          rw [hn] at huse
          cases huse
      · rw [hcontrol] at hok
        cases hok
    · intro c hc
      rw [hshown c hc, DeviceUse.toInt_used hlt]
  · have hrefused : ∀ cmd, cmd = .inc ∨ cmd = .dec ∨ cmd = .write →
        s.control build cmd = (false, s) := by
      intro cmd hcmd
      refine control_fails ?_ (hblocked.fails hcmd)
      obtain rfl | rfl | rfl := hcmd <;> rfl
    refine ⟨hone, fun _ _ => hacquired, fun _ _ => hrefused, fun hok => ?_,
      fun hne => absurd hacquired hne⟩
    rw [hrefused .write (.inr (.inr rfl))] at hok
    cases hok

/-- **One process writes at most, and nobody uses the device meanwhile**, in every run with any number
of processes, wherever they end and whatever lanes the bitstreams have. -/
theorem reconfig_excludes {os : List (ReconfigOp ι)} (hstart : s.Start build)
    (hroom : Always (reconfigStep build) ReconfigSystem.HasRoom s os) :
    Always (reconfigStep build) (ReconfigExcludes build) s os :=
  (always_and_of_always (fun _ _ _ h hroom hstep => ReconfigInv.step h hroom hstep) hstart.inv
    hroom).mono fun _ h => h.1.excludes h.2

/-- A device with one lane of each module. -/
def reconfigStart : ReconfigSystem ℕ := ⟨oneLane, fun _ => .idle, []⟩

theorem reconfigStart_start : reconfigStart.Start chainBuild where
  lanes m _ := by
    change (1 : LaneNum) ≠ 0
    decide
  counts := ⟨.chain, by decide⟩
  zero _ := rfl
  procs _ := rfl
  acquired := rfl

/-- A second process tries to use the device while the first writes. -/
theorem reconfig_excludes_two :
    Always (reconfigStep chainBuild) (ReconfigExcludes chainBuild) reconfigStart
      [.acquire 1, .write 0, .release 1, .write 0, .acquire 1, .mcap 0 none, .clear 0, .acquire 1] :=
  reconfig_excludes reconfigStart_start (by decide)

/-- Nobody uses the device or writes, and nobody can. -/
structure Lost (build : BuildOptions) (s : ReconfigSystem ι) : Prop where
  /-- The counters keep everybody out. -/
  blocked : Blocked (s.counters build) s.dev.counters.refcount
  /-- Nobody uses the device. -/
  unused : s.acquired = []
  /-- Nobody writes. -/
  unwritten : ∀ i, (s.procs i).writes = false

theorem Lost.step (h : Lost build s) {o : ReconfigOp ι} (hstep : reconfigStep build s o = some t) :
    Lost build t := by
  have hfails : ∀ cmd, cmd = .inc ∨ cmd = .dec ∨ cmd = .write → s.control build cmd = (false, s) := by
    intro cmd hcmd
    refine control_fails ?_ (h.blocked.fails hcmd)
    obtain rfl | rfl | rfl := hcmd <;> rfl
  unfold reconfigStep at hstep
  cases o with
  | acquire i | write i =>
    cases hpc : s.procs i with
    | idle =>
      simp only [hpc, hfails .inc (.inl rfl), hfails .write (.inr (.inr rfl))] at hstep
      cases hstep
      exact h
    | writing | updating | clearing | ended => simp [hpc] at hstep
  | release i =>
    cases hpc : s.procs i with
    | idle => simp [hpc, h.unused] at hstep
    | writing | updating | clearing | ended => simp [hpc] at hstep
  | mcap i regs | update i | clear i =>
    have hwrites := h.unwritten i
    cases hpc : s.procs i with
    | idle | ended => simp [hpc] at hstep
    | writing | updating | clearing =>
      rw [hpc] at hwrites
      cases hwrites
  | kill i =>
    cases hpc : s.procs i with
    | ended => simp [hpc] at hstep
    | idle | writing | updating | clearing =>
      simp only [hpc] at hstep
      cases hstep
      refine ⟨h.blocked, h.unused, fun j => ?_⟩
      by_contra hj
      rw [Bool.not_eq_false] at hj
      obtain ⟨-, hw⟩ | ⟨-, hw⟩ := update_cases (fun pc : ConfigAt => pc.writes = true) hj
      · cases hw
      · rw [h.unwritten j] at hw
        cases hw

/-- What a process that ended holds it goes on holding. -/
theorem held_step {i : ι} (hi : i ∈ s.acquired ∧ s.procs i = .ended) {o : ReconfigOp ι}
    (hstep : reconfigStep build s o = some t) : i ∈ t.acquired ∧ t.procs i = .ended := by
  obtain ⟨hacquired, hended⟩ := hi
  have hgoto : ∀ (u : ReconfigSystem ι) (j : ι) (pc : ConfigAt), u.acquired = s.acquired →
      u.procs = s.procs → j ≠ i → i ∈ (u.goto j pc).acquired ∧ (u.goto j pc).procs i = .ended := by
    intro u j pc hu hp hj
    refine ⟨hu ▸ hacquired, ?_⟩
    change Function.update u.procs j pc i = _
    rw [Function.update_of_ne hj.symm, hp]
    exact hended
  have hne : ∀ j, s.procs j ≠ .ended → j ≠ i := by
    rintro j hj rfl
    exact hj hended
  unfold reconfigStep at hstep
  cases o with
  | acquire j =>
    cases hpc : s.procs j with
    | idle =>
      simp only [hpc] at hstep
      cases hret : (s.control build .inc).1 <;> simp only [hret] at hstep <;> cases hstep
      · exact ⟨hacquired, hended⟩
      · exact ⟨List.mem_cons_of_mem _ hacquired, hended⟩
    | writing | updating | clearing | ended => simp [hpc] at hstep
  | release j =>
    cases hpc : s.procs j with
    | idle =>
      simp only [hpc] at hstep
      split at hstep
      · cases hret : (s.control build .dec).1 <;> simp only [hret] at hstep <;> cases hstep
        · exact ⟨hacquired, hended⟩
        · refine ⟨(List.mem_erase_of_ne ?_).mpr hacquired, hended⟩
          exact (hne j (by simp [hpc])).symm
      · cases hstep
    | writing | updating | clearing | ended => simp [hpc] at hstep
  | write j =>
    cases hpc : s.procs j with
    | idle =>
      simp only [hpc] at hstep
      cases hret : (s.control build .write).1 <;> simp only [hret] at hstep <;> cases hstep
      · exact ⟨hacquired, hended⟩
      · exact hgoto _ j _ rfl rfl (hne j (by simp [hpc]))
    | writing | updating | clearing | ended => simp [hpc] at hstep
  | mcap j regs =>
    cases hpc : s.procs j with
    | writing =>
      simp only [hpc] at hstep
      cases regs <;> cases hstep <;> exact hgoto s j _ rfl rfl (hne j (by simp [hpc]))
    | idle | updating | clearing | ended => simp [hpc] at hstep
  | update j =>
    cases hpc : s.procs j with
    | updating regs modules =>
      cases modules <;> simp only [hpc] at hstep <;> cases hstep <;>
        exact hgoto _ j _ rfl rfl (hne j (by simp [hpc]))
    | idle | writing | clearing | ended => simp [hpc] at hstep
  | clear j =>
    cases hpc : s.procs j with
    | clearing =>
      simp only [hpc] at hstep
      cases hstep
      exact hgoto _ j _ rfl rfl (hne j (by simp [hpc]))
    | idle | writing | updating | ended => simp [hpc] at hstep
  | kill j =>
    cases hpc : s.procs j with
    | ended => simp [hpc] at hstep
    | idle | writing | updating | clearing =>
      simp only [hpc] at hstep
      cases hstep
      exact hgoto s j _ rfl rfl (hne j (by simp [hpc]))

/-- **A process that ends while it uses the device keeps all writers out for good, and one that ends
while it writes keeps everybody out.** -/
theorem reconfig_lost {s₀ : ReconfigSystem ι} {os₀ os : List (ReconfigOp ι)} (hstart : s₀.Start build)
    (hroom₀ : Always (reconfigStep build) ReconfigSystem.HasRoom s₀ os₀)
    (hrun₀ : run (reconfigStep build) s₀ os₀ = some s) :
    (∀ i ∈ s.acquired, s.procs i = .ended →
      Always (reconfigStep build) ReconfigSystem.HasRoom s os →
      Always (reconfigStep build) (fun t => i ∈ t.acquired ∧ ∀ j, (t.procs j).writes = false) s os) ∧
    ∀ i t, (s.procs i).writes = true → reconfigStep build s (.kill i) = some t →
      Always (reconfigStep build) (fun u => u.acquired = [] ∧ ∀ j, (u.procs j).writes = false) t os := by
  have hinv : ReconfigInv build s := (always_and_of_always
    (fun _ _ _ h hroom hstep => ReconfigInv.step h hroom hstep) hstart.inv hroom₀).last hrun₀ |>.1
  refine ⟨fun i hi hended hroom => ?_, fun i t hi hstep => ?_⟩
  · have hinvs := always_and_of_always
      (fun _ _ _ h hroom hstep => ReconfigInv.step h hroom hstep) hinv hroom
    have hheld := always_and_of_always (fun _ _ _ h _ hstep => held_step h hstep) ⟨hi, hended⟩ hinvs
    refine hheld.mono fun u hall => ?_
    obtain ⟨⟨hu, -⟩, hinv, hroom⟩ := hall
    refine ⟨hu, fun j => ?_⟩
    by_contra hj
    rw [Bool.not_eq_false] at hj
    rw [(hinv.excludes hroom).unused j hj] at hu
    cases hu
  · refine (always_of_step (I := Lost build) (fun _ _ _ h hstep => Lost.step h hstep) ?_ os).mono
      fun u hu => ⟨hu.unused, hu.unwritten⟩
    obtain ⟨-, hnone, -⟩ | ⟨hblocked, hacquired, hone⟩ := hinv.mode
    · rw [hnone i] at hi
      cases hi
    have ht : t = s.goto i .ended := by
      unfold reconfigStep at hstep
      cases hpc : s.procs i with
      | idle | ended =>
        rw [hpc] at hi
        cases hi
      | writing | updating | clearing =>
        simp only [hpc] at hstep
        exact (Option.some.inj hstep).symm
    subst ht
    refine ⟨hblocked, hacquired, fun j => ?_⟩
    by_contra hj
    rw [Bool.not_eq_false] at hj
    obtain ⟨-, hw⟩ | ⟨hji, hw⟩ := update_cases (fun pc : ConfigAt => pc.writes = true) hj
    · cases hw
    · exact hji (hone j i hw hi)

/-- A process is killed while it uses the device, and another tries to write. -/
theorem reconfig_lost_user :
    ∃ s, run (reconfigStep chainBuild) reconfigStart [.acquire 1, .kill 1] = some s ∧
      Always (reconfigStep chainBuild) (fun t => 1 ∈ t.acquired ∧ ∀ j, (t.procs j).writes = false) s
        [.write 0, .acquire 0, .release 0, .write 0] := by
  obtain ⟨s, hs⟩ : ∃ s, run (reconfigStep chainBuild) reconfigStart [.acquire 1, .kill 1] = some s ∧
      1 ∈ s.acquired ∧ s.procs 1 = .ended ∧
      Always (reconfigStep chainBuild) ReconfigSystem.HasRoom s
        [.write 0, .acquire 0, .release 0, .write 0] :=
    ⟨_, rfl, by decide, rfl, by decide⟩
  exact ⟨s, hs.1, (reconfig_lost reconfigStart_start (by decide) hs.1).1 1 hs.2.1 hs.2.2.1 hs.2.2.2⟩

end HardwareDrivers.Libfpga
