import HardwareDrivers.Driver.PciProbe
import HardwareDrivers.Theory.Balances

/-!
# Loading and unloading the driver

`XPCIe_init_module` takes a range of device numbers, makes a class and registers the driver, on which
the kernel probes each device that is there; without a device in its list it gives all back.
`XPCIe_exit_module` unregisters the driver, on which the kernel removes each device whose probe
succeeded. In between devices may come and go.

## What is proved

* `probe_accounted`, `remove_accounted` — probing and removing keep the accounts of what the devices
  hold, to wherever they come.
* `run_enabled` — `pci_enable_device` is the exception: nothing that the driver does undoes it.
* `module_clean` — in every run what else was acquired is held by a device in the list or was released,
  once; and when the driver is not loaded, nothing of it is held.
-/

namespace HardwareDrivers.Driver.Probe

open Theory

variable {π : Type} [DecidableEq π]

/-! ### The calls -/

/-- What `XPCIe_init_module` finds outside. -/
structure InitModuleEnv (π : Type) where
  /-- `alloc_chrdev_region`. -/
  allocChrdevRegion : ℤ
  /-- `class_create` makes a class. -/
  classCreate : Bool
  /-- `pci_register_driver`. -/
  pciRegisterDriver : ℤ
  /-- The devices that are there. -/
  devices : List (π × ProbeEnv)

/-- The driver in the kernel. -/
structure ModuleSystem (π : Type) where
  /-- Its devices. -/
  pci : PciSystem π
  /-- It has its device numbers. -/
  chrdevRegion : Bool
  /-- It has its class. -/
  cdevClass : Bool
  /-- It is registered. -/
  registered : Bool
  /-- It is loaded. -/
  loaded : Bool

/-- The kernel probes a device that no driver has. -/
def PciSystem.probe (s : PciSystem π) (x : π × ProbeEnv) : PciSystem π :=
  if x.1 ∈ s.bound then s else (pciStep s (.probe x.1 x.2)).getD s

/-- The kernel removes a device. -/
def PciSystem.remove (s : PciSystem π) (pdev : π) : PciSystem π :=
  ⟨xpciePciRemove pdev s.driver, s.bound.erase pdev⟩

/-- `pci_unregister_driver`. -/
def PciSystem.unregister (s : PciSystem π) : PciSystem π := s.bound.foldl PciSystem.remove s

/-- The variables of a driver that is loaded anew. -/
def PciSystem.fresh (s : PciSystem π) : PciSystem π :=
  { s with driver := { s.driver with fpgaNumDevs := 0, fpgaDevList := [] } }

/-- `XPCIe_init_module`. -/
def xpcieInitModule (env : InitModuleEnv π) (m : ModuleSystem π) : ℤ × ModuleSystem π :=
  let m := { m with pci := m.pci.fresh }
  if env.allocChrdevRegion ≠ 0 then (env.allocChrdevRegion, m)
  else
    let m := { m with chrdevRegion := true }
    if env.classCreate = false then (-enodev, { m with chrdevRegion := false })
    else
      let m := { m with cdevClass := true }
      if env.pciRegisterDriver ≠ 0 then
        (env.pciRegisterDriver, { m with cdevClass := false, chrdevRegion := false })
      else
        let m := { m with registered := true, pci := env.devices.foldl PciSystem.probe m.pci }
        if m.pci.driver.fpgaDevList = [] then
          (-enodev, { m with
            pci := m.pci.unregister
            registered := false
            cdevClass := false
            chrdevRegion := false })
        else (0, { m with loaded := true })

/-- `XPCIe_exit_module`. -/
def xpcieExitModule (m : ModuleSystem π) : ModuleSystem π :=
  ⟨m.pci.unregister, false, false, false, false⟩

/-- What happens in the kernel. -/
inductive ModuleOp (π : Type) where
  /-- The driver is loaded. -/
  | load (env : InitModuleEnv π)
  /-- A device comes. -/
  | probe (pdev : π) (env : ProbeEnv)
  /-- A device goes. -/
  | remove (pdev : π)
  /-- The driver is unloaded. -/
  | unload

/-- What it does. -/
def moduleStep (m : ModuleSystem π) : ModuleOp π → Option (ModuleSystem π)
  | .load env => if m.loaded then none else some (xpcieInitModule env m).2
  | .probe pdev env => if m.loaded then some { m with pci := m.pci.probe (pdev, env) } else none
  | .remove pdev =>
    if m.loaded ∧ pdev ∈ m.pci.bound then some { m with pci := m.pci.remove pdev } else none
  | .unload => if m.loaded then some (xpcieExitModule m) else none

/-- Before the driver is loaded; the memory has anything in it. -/
def ModuleSystem.start (infos : ℕ → FpgaDevInfo π) : ModuleSystem π :=
  ⟨.start infos, false, false, false, false⟩

/-! ### What the devices hold -/

/-- The mappings of the devices at some addresses. -/
def mappingsOf (infos : ℕ → FpgaDevInfo π) (ps : List ℕ) : List ℕ :=
  ps.filterMap fun p => (infos p).baseAddr

/-- Their queues. -/
def queuesOf (infos : ℕ → FpgaDevInfo π) (ps : List ℕ) : List ℕ :=
  ps.flatMap fun p => queuePlaces.filterMap (infos p).qpMemAddr

/-- Their character devices. -/
def cdevsOf (infos : ℕ → FpgaDevInfo π) (ps : List ℕ) : List ℕ :=
  ps.filterMap fun p => (infos p).cdev

/-- What was acquired is held by a device in the list or was released, once. That a device was enabled
is not among it: see `run_enabled`. -/
structure XpcieState.Accounted (s : XpcieState π) : Prop where
  /-- The records. -/
  vmallocs : s.res.vmallocs.Balanced s.fpgaDevList
  /-- The mappings. -/
  mappings : s.res.mappings.Balanced (mappingsOf s.infos s.fpgaDevList)
  /-- The queues. -/
  kzallocs : s.res.kzallocs.Balanced (queuesOf s.infos s.fpgaDevList)
  /-- The character devices. -/
  cdevs : s.res.cdevs.Balanced (cdevsOf s.infos s.fpgaDevList)
  /-- A device file is one of a device in the list. -/
  files : ∀ minor, s.res.files minor = true → minor ∈ s.minors

/-- The devices that the kernel has for the driver, and those in its list. -/
structure PciSystem.Accounted (s : PciSystem π) : Prop extends s.driver.Accounted where
  /-- The kernel has those in the list. -/
  bound : ∀ pdev ∈ s.driver.listed, pdev ∈ s.bound
  /-- None is there twice. -/
  nodup : s.driver.listed.Nodup
  /-- Nor is in the kernel. -/
  boundNodup : s.bound.Nodup

/-- Nothing is held, but that devices may be enabled. -/
structure Resources.Nothing (res : Resources π) : Prop where
  /-- No record. -/
  vmallocs : res.vmallocs.Balanced []
  /-- No mapping. -/
  mappings : res.mappings.Balanced []
  /-- No queue. -/
  kzallocs : res.kzallocs.Balanced []
  /-- No character device. -/
  cdevs : res.cdevs.Balanced []
  /-- No device file. -/
  files : ∀ minor, res.files minor = false

/-- The driver is as if it was never loaded. -/
structure ModuleSystem.Unloaded (m : ModuleSystem π) : Prop where
  /-- It holds nothing. -/
  res : m.pci.driver.res.Nothing
  /-- The kernel has no device for it. -/
  bound : m.pci.bound = []
  /-- It has no device numbers. -/
  chrdevRegion : m.chrdevRegion = false
  /-- It has no class. -/
  cdevClass : m.cdevClass = false
  /-- It is not registered. -/
  registered : m.registered = false

variable {s t : XpcieState π} {res : Resources π} {dev : FpgaDevInfo π} {env : ProbeEnv} {pdev : π}
  {p : ℕ} {ps ps' : List ℕ} {infos infos' : ℕ → FpgaDevInfo π}

/-! ### Lists of what is held -/

/-- The devices at some addresses differ in their counts only. -/
def SameBut (infos infos' : ℕ → FpgaDevInfo π) (ps : List ℕ) : Prop :=
  ∀ p ∈ ps, ∃ n, infos' p = { infos p with numDevs := n }

section Lists

omit [DecidableEq π]

theorem filterMap_congr_of_same {β : Type} {f : FpgaDevInfo π → Option β}
    (hf : ∀ dev n, f { dev with numDevs := n } = f dev) (h : SameBut infos infos' ps) :
    ps.filterMap (fun p => f (infos' p)) = ps.filterMap fun p => f (infos p) := by
  refine List.filterMap_congr fun p hp => ?_
  obtain ⟨n, hn⟩ := h p hp
  rw [hn, hf]

theorem SameBut.mappingsOf (h : SameBut infos infos' ps) : mappingsOf infos' ps = mappingsOf infos ps :=
  filterMap_congr_of_same (f := FpgaDevInfo.baseAddr) (fun _ _ => rfl) h

theorem SameBut.cdevsOf (h : SameBut infos infos' ps) : cdevsOf infos' ps = cdevsOf infos ps :=
  filterMap_congr_of_same (f := FpgaDevInfo.cdev) (fun _ _ => rfl) h

theorem SameBut.queuesOf (h : SameBut infos infos' ps) : queuesOf infos' ps = queuesOf infos ps := by
  refine List.flatMap_congr fun p hp => ?_
  obtain ⟨n, hn⟩ := h p hp
  rw [hn]

theorem SameBut.map_devId (h : SameBut infos infos' ps) :
    (ps.map fun p => (infos' p).devId) = ps.map fun p => (infos p).devId := by
  refine List.map_congr_left fun p hp => ?_
  obtain ⟨n, hn⟩ := h p hp
  rw [hn]

theorem SameBut.map_pciDev (h : SameBut infos infos' ps) :
    (ps.map fun p => (infos' p).pciDev) = ps.map fun p => (infos p).pciDev := by
  refine List.map_congr_left fun p hp => ?_
  obtain ⟨n, hn⟩ := h p hp
  rw [hn]

theorem filterMap_cons_toList {α β : Type} (f : α → Option β) (a : α) (l : List α) :
    (a :: l).filterMap f = (f a).toList ++ l.filterMap f := by
  cases h : f a with
  | none => rw [List.filterMap_cons_none h, Option.toList_none, List.nil_append]
  | some r => rw [List.filterMap_cons_some h, Option.toList_some, List.singleton_append]

theorem mappingsOf_cons (infos : ℕ → FpgaDevInfo π) (p : ℕ) (ps : List ℕ) :
    mappingsOf infos (p :: ps) = (infos p).baseAddr.toList ++ mappingsOf infos ps :=
  filterMap_cons_toList ..

theorem cdevsOf_cons (infos : ℕ → FpgaDevInfo π) (p : ℕ) (ps : List ℕ) :
    cdevsOf infos (p :: ps) = (infos p).cdev.toList ++ cdevsOf infos ps :=
  filterMap_cons_toList ..

theorem queuesOf_cons (infos : ℕ → FpgaDevInfo π) (p : ℕ) (ps : List ℕ) :
    queuesOf infos (p :: ps) = queuePlaces.filterMap (infos p).qpMemAddr ++ queuesOf infos ps :=
  List.flatMap_cons ..

theorem sameBut_count (hs : s.fpgaDevList.Nodup) (dev : FpgaDevInfo π) :
    SameBut s.infos (s.count dev).1 s.fpgaDevList := fun _ hp => ⟨_, s.count_fst hs hp dev⟩

theorem mappingsOf_perm (h : ps.Perm ps') : (mappingsOf infos ps).Perm (mappingsOf infos ps') :=
  h.filterMap _

theorem cdevsOf_perm (h : ps.Perm ps') : (cdevsOf infos ps).Perm (cdevsOf infos ps') := h.filterMap _

theorem queuesOf_perm (h : ps.Perm ps') : (queuesOf infos ps).Perm (queuesOf infos ps') :=
  h.flatMap_right _

theorem XpcieState.Accounted.live (h : s.Accounted) : s.Live :=
  ⟨(List.nodup_append'.mp h.vmallocs.nodup).2.1, fun _ hp => h.vmallocs.isOpen hp, fun _ hr =>
    List.mem_range.mp (h.vmallocs.mem_iff.mp (List.mem_append_left _ hr))⟩

end Lists

/-! ### Probing -/

/-- The accounts stay as they are where a probe fails. -/
theorem accounted_failed (h : s.Accounted) (hsame : SameBut s.infos infos' s.fpgaDevList)
    (hres : (s.res.enable pdev).Settled res) : ({ s with res, infos := infos' } : XpcieState π).Accounted := by
  refine ⟨h.vmallocs.settled hres.vmallocs, ?_, ?_, ?_, ?_⟩
  · exact hsame.mappingsOf ▸ h.mappings.settled hres.mappings
  · exact hsame.queuesOf ▸ h.kzallocs.settled hres.kzallocs
  · exact hsame.cdevsOf ▸ h.cdevs.settled hres.cdevs
  · intro minor hminor
    change minor ∈ s.fpgaDevList.map fun p => (infos' p).devId
    rw [hsame.map_devId]
    exact h.files minor ((congrFun hres.files minor).symm.trans hminor)

/-- A probe in which nothing fails. -/
theorem xpciePciProbe_succeeds (henv : env.Succeeds) (s : XpcieState π) (pdev : π) :
    ∃ dev res, Holds { s.res.enable pdev with vmallocs := s.res.vmallocs.acquire } res dev ∧
      dev.devId = s.fpgaNumDevs ∧ dev.pciDev = pdev ∧
      xpciePciProbe pdev env s = (0, s.withDevice dev res env.deviceCreate) := by
  have hdone := xpcieFpgaDevInit_done env s.fpgaNumDevs pdev
    { s.res.enable pdev with vmallocs := (s.res.enable pdev).vmallocs.acquire }
  unfold xpciePciProbe
  rw [if_neg (Int.not_lt.mpr henv.pciEnableDevice)]
  dsimp only
  rw [if_neg (by simp [henv.vmalloc])]
  generalize xpcieFpgaDevInit env _ _ = x at hdone ⊢
  obtain ⟨ret, dev, res⟩ := x
  obtain ⟨hholds, hret, hid, hpci⟩ := hdone
  obtain rfl : ret = 0 := by
    obtain ⟨-, hnot⟩ | ⟨hzero, -⟩ := hret
    · exact absurd henv.toInitializes hnot
    · exact hzero
  dsimp only at hholds hid hpci ⊢
  rw [if_neg (Int.lt_irrefl 0), if_neg (by simp [henv.upstream]), if_neg (Int.not_lt.mpr henv.cdevAdd)]
  exact ⟨dev, res, hholds, hid, hpci, rfl⟩

/-- A device that was added holds what was acquired for it. -/
theorem accounted_withDevice (h : s.Accounted)
    (hholds : Holds { s.res.enable pdev with vmallocs := s.res.vmallocs.acquire } res dev)
    (deviceCreate : Bool) : (s.withDevice dev res deviceCreate).Accounted := by
  have hlive := h.live
  have hself : (s.withDevice dev res deviceCreate).infos s.res.vmallocs.next =
      { (s.count dev).2 with cdev := some res.cdevs.next } := infos_withDevice_self deviceCreate
  rw [XpcieState.count_snd] at hself
  have hsame : SameBut s.infos (s.withDevice dev res deviceCreate).infos s.fpgaDevList :=
    fun _ hp => ⟨_, infos_withDevice deviceCreate hlive hp⟩
  obtain ⟨⟨k, hplaces, hkzallocs⟩, hmapping, hrest⟩ := hholds
  have hvmallocs : res.vmallocs = s.res.vmallocs.acquire := by rw [hrest]
  have hcdevs : res.cdevs = s.res.cdevs := by rw [hrest]; rfl
  have hfiles : res.files = s.res.files := by rw [hrest]; rfl
  refine ⟨?_, ?_, ?_, ?_, ?_⟩
  · change res.vmallocs.Balanced (s.res.vmallocs.next :: s.fpgaDevList)
    rw [hvmallocs]
    exact h.vmallocs.acquire
  · change res.mappings.Balanced (mappingsOf (s.withDevice dev res deviceCreate).infos
      (s.res.vmallocs.next :: s.fpgaDevList))
    rw [mappingsOf_cons, hsame.mappingsOf, hself]
    dsimp only
    obtain ⟨haddr, hmap⟩ | ⟨haddr, hmap⟩ := hmapping
    · rw [haddr, hmap]
      exact h.mappings
    · rw [haddr, hmap]
      exact h.mappings.acquire
  · change res.kzallocs.Balanced (queuesOf (s.withDevice dev res deviceCreate).infos
      (s.res.vmallocs.next :: s.fpgaDevList))
    rw [queuesOf_cons, hsame.queuesOf, hself, hplaces, hkzallocs]
    exact h.kzallocs.acquires k
  · change res.cdevs.acquire.Balanced (cdevsOf (s.withDevice dev res deviceCreate).infos
      (s.res.vmallocs.next :: s.fpgaDevList))
    rw [cdevsOf_cons, hsame.cdevsOf, hself, hcdevs]
    exact h.cdevs.acquire
  · intro minor hminor
    rw [minors_withDevice deviceCreate hlive]
    change (if deviceCreate then Function.update res.files (s.count dev).2.devId true else res.files)
      minor = true at hminor
    rw [XpcieState.count_snd, hfiles] at hminor
    by_cases hid : minor = dev.devId
    · exact List.mem_cons.mpr (.inl hid)
    · refine List.mem_cons_of_mem _ (h.files minor ?_)
      split at hminor
      · rwa [Function.update_of_ne hid] at hminor
      · exact hminor

/-- **A probe** keeps the accounts, to wherever it comes. -/
theorem probe_accounted (h : s.Accounted) (pdev : π) (env : ProbeEnv) :
    (xpciePciProbe pdev env s).2.Accounted := by
  by_cases henv : env.Succeeds
  · obtain ⟨dev, res, hholds, -, -, heq⟩ := xpciePciProbe_succeeds henv s pdev
    rw [heq]
    exact accounted_withDevice h hholds env.deviceCreate
  · have hcases := xpciePciProbe_cases pdev env s
    generalize xpciePciProbe pdev env s = x at hcases ⊢
    obtain ⟨ret, u⟩ := x
    dsimp only at hcases ⊢
    cases hcases with
    | notEnabled => exact h
    | early _ res _ _ _ hres => exact accounted_failed h (fun p _ => ⟨_, rfl⟩) hres
    | late _ res dev _ _ _ hres => exact accounted_failed h (sameBut_count h.live.nodup dev) hres
    | added _ _ hsucc => exact absurd hsucc henv

/-! ### Removing -/

theorem foldl_release_toList (x : Option ℕ) (l : Ledger) :
    x.elim l l.release = x.toList.foldl Ledger.release l := by
  cases x <;> rfl

/-- **A removal** keeps the accounts. -/
theorem remove_accounted (h : s.Accounted) (pdev : π) : (xpciePciRemove pdev s).Accounted := by
  unfold xpciePciRemove
  cases hfind : s.find pdev with
  | none => exact h
  | some p =>
    have hp : p ∈ s.fpgaDevList := List.mem_of_find?_eq_some hfind
    have hperm : s.fpgaDevList.Perm (p :: s.fpgaDevList.erase p) := List.perm_cons_erase hp
    refine ⟨?_, ?_, ?_, ?_, ?_⟩
    · exact (h.vmallocs.perm hperm).release
    · have hheld := h.mappings.perm (mappingsOf_perm hperm)
      rw [mappingsOf_cons] at hheld
      change ((s.infos p).baseAddr.elim s.res.mappings s.res.mappings.release).Balanced _
      rw [foldl_release_toList]
      exact hheld.releases
    · have hheld := h.kzallocs.perm (queuesOf_perm hperm)
      rw [queuesOf_cons] at hheld
      change (queuePlaces.foldl (queueQueFree (s.infos p)) s.res.kzallocs).Balanced _
      rw [foldl_queueQueFree]
      exact hheld.releases
    · have hheld := h.cdevs.perm (cdevsOf_perm hperm)
      rw [cdevsOf_cons] at hheld
      change ((s.infos p).cdev.elim s.res.cdevs s.res.cdevs.release).Balanced _
      rw [foldl_release_toList]
      exact hheld.releases
    · intro minor hminor
      change Function.update s.res.files (s.infos p).devId false minor = true at hminor
      by_cases hid : minor = (s.infos p).devId
      · rw [hid, Function.update_self] at hminor
        cases hminor
      · rw [Function.update_of_ne hid] at hminor
        obtain ⟨q, hq, hqid⟩ := List.mem_map.mp (h.files minor hminor)
        have hne : q ≠ p := fun heq => hid (heq ▸ hqid.symm)
        exact List.mem_map.mpr ⟨q, (List.mem_erase_of_ne hne).mpr hq, hqid⟩

/-! ### The devices of the kernel -/

namespace PciSystem.Accounted

variable {s : PciSystem π}

omit [DecidableEq π] in
/-- A probe that does not add its device. -/
theorem failed (h : s.Accounted) {driver : XpcieState π} (hacc : driver.Accounted)
    (hlisted : driver.listed = s.driver.listed) (hx : pdev ∉ s.bound) (ret : ℤ) :
    (⟨driver, if ret < 0 then s.bound else pdev :: s.bound⟩ : PciSystem π).Accounted := by
  refine ⟨hacc, fun q hq => ?_, hlisted ▸ h.nodup, ?_⟩
  · have hbound := h.bound q (hlisted ▸ hq)
    split_ifs
    · exact hbound
    · exact List.mem_cons_of_mem _ hbound
  · split_ifs
    · exact h.boundNodup
    · exact List.nodup_cons.mpr ⟨hx, h.boundNodup⟩

theorem probe (h : s.Accounted) (x : π × ProbeEnv) : (s.probe x).Accounted := by
  obtain ⟨pdev, env⟩ := x
  unfold PciSystem.probe
  split_ifs with hx
  · exact h
  change (⟨(xpciePciProbe pdev env s.driver).2,
    if (xpciePciProbe pdev env s.driver).1 < 0 then s.bound else pdev :: s.bound⟩ :
    PciSystem π).Accounted
  have hacc := probe_accounted h.toAccounted pdev env
  have hcases := xpciePciProbe_cases pdev env s.driver
  generalize xpciePciProbe pdev env s.driver = y at hacc hcases ⊢
  obtain ⟨ret, driver⟩ := y
  dsimp only at hacc hcases ⊢
  cases hcases with
  | notEnabled => exact h.failed hacc rfl hx _
  | early => exact h.failed hacc rfl hx _
  | late _ res dev =>
    exact h.failed hacc (sameBut_count h.live.nodup dev).map_pciDev hx _
  | added dev res _ _ hpci =>
    rw [if_neg (Int.lt_irrefl 0)]
    have hlisted : (s.driver.withDevice dev res env.deviceCreate).listed = pdev :: s.driver.listed := by
      rw [listed_withDevice env.deviceCreate h.live, hpci]
    refine ⟨hacc, fun q hq => ?_, ?_, List.nodup_cons.mpr ⟨hx, h.boundNodup⟩⟩
    · rw [hlisted] at hq
      obtain rfl | hq := List.mem_cons.mp hq
      · exact List.mem_cons_self
      · exact List.mem_cons_of_mem _ (h.bound q hq)
    · rw [hlisted]
      exact List.nodup_cons.mpr ⟨fun hmem => hx (h.bound pdev hmem), h.nodup⟩

/-- The list without a device. -/
theorem listed_remove (h : s.Accounted) (pdev : π) :
    pdev ∉ (xpciePciRemove pdev s.driver).listed ∧ (xpciePciRemove pdev s.driver).listed.Nodup ∧
      ∀ q ∈ (xpciePciRemove pdev s.driver).listed, q ∈ s.driver.listed := by
  unfold xpciePciRemove
  cases hfind : s.driver.find pdev with
  | none =>
    refine ⟨fun hmem => ?_, h.nodup, fun _ hq => hq⟩
    obtain ⟨p, hp, heq⟩ := List.mem_map.mp hmem
    exact absurd heq (by simpa using List.find?_eq_none.mp hfind p hp)
  | some p =>
    have hp : p ∈ s.driver.fpgaDevList := List.mem_of_find?_eq_some hfind
    have hpci : (s.driver.infos p).pciDev = pdev := by simpa using List.find?_some hfind
    have hperm : s.driver.listed.Perm
        (pdev :: (s.driver.fpgaDevList.erase p).map fun p => (s.driver.infos p).pciDev) := by
      have hmap := (List.perm_cons_erase hp).map fun p => (s.driver.infos p).pciDev
      rwa [List.map_cons, hpci] at hmap
    obtain ⟨hnot, hnodup⟩ := List.nodup_cons.mp (hperm.nodup_iff.mp h.nodup)
    exact ⟨hnot, hnodup, fun q hq => hperm.mem_iff.mpr (List.mem_cons_of_mem _ hq)⟩

theorem remove (h : s.Accounted) (pdev : π) : (s.remove pdev).Accounted := by
  obtain ⟨hnot, hnodup, hsub⟩ := h.listed_remove pdev
  refine ⟨remove_accounted h.toAccounted pdev, fun q hq => ?_, hnodup, h.boundNodup.erase pdev⟩
  have hne : q ≠ pdev := fun heq => hnot (heq ▸ hq)
  exact (List.mem_erase_of_ne hne).mpr (h.bound q (hsub q hq))

theorem foldl_probe (h : s.Accounted) (xs : List (π × ProbeEnv)) :
    (xs.foldl PciSystem.probe s).Accounted := by
  induction xs generalizing s with
  | nil => exact h
  | cons x xs ih => exact ih (h.probe x)

theorem foldl_remove (h : s.Accounted) (pdevs : List π) : (pdevs.foldl PciSystem.remove s).Accounted := by
  induction pdevs generalizing s with
  | nil => exact h
  | cons pdev pdevs ih => exact ih (h.remove pdev)

omit [DecidableEq π] in
/-- A list without entries. -/
theorem fpgaDevList_eq_nil (h : s.Accounted) (hbound : s.bound = []) : s.driver.fpgaDevList = [] := by
  have hlisted : s.driver.listed = [] := List.eq_nil_iff_forall_not_mem.mpr fun q hq => by
    have := h.bound q hq
    rw [hbound] at this
    cases this
  exact List.map_eq_nil_iff.mp hlisted

omit [DecidableEq π] in
theorem nothing (h : s.Accounted) (hbound : s.bound = []) : s.driver.res.Nothing := by
  have hnil := h.fpgaDevList_eq_nil hbound
  obtain ⟨hvmallocs, hmappings, hkzallocs, hcdevs, hfiles⟩ := h.toAccounted
  rw [XpcieState.minors] at hfiles
  rw [hnil] at hvmallocs hmappings hkzallocs hcdevs hfiles
  refine ⟨hvmallocs, hmappings, hkzallocs, hcdevs, fun minor => ?_⟩
  by_contra hminor
  cases hfiles minor (Bool.of_not_eq_false hminor)

omit [DecidableEq π] in
theorem fresh (h : s.Accounted) (hbound : s.bound = []) : s.fresh.Accounted := by
  have hnil := h.fpgaDevList_eq_nil hbound
  have hnothing := h.nothing hbound
  refine ⟨⟨hnothing.vmallocs, hnothing.mappings, hnothing.kzallocs, hnothing.cdevs, fun minor hminor => ?_⟩,
    fun q hq => ?_, List.nodup_nil, h.boundNodup⟩
  · exact absurd ((hnothing.files minor).symm.trans hminor) Bool.false_ne_true
  · cases hq

end PciSystem.Accounted

theorem bound_foldl_remove {pdevs : List π} {s : PciSystem π} (h : s.bound = pdevs) :
    (pdevs.foldl PciSystem.remove s).bound = [] := by
  induction pdevs generalizing s with
  | nil => exact h
  | cons pdev pdevs ih =>
    refine ih ?_
    change s.bound.erase pdev = pdevs
    rw [h, List.erase_cons_head]

theorem unregister_bound (s : PciSystem π) : s.unregister.bound = [] := bound_foldl_remove rfl

/-! ### Every run -/

/-- What holds of the driver in the kernel. -/
structure ModuleSystem.Accounted (m : ModuleSystem π) : Prop where
  /-- Of its devices. -/
  pci : m.pci.Accounted
  /-- Of what it leaves. -/
  unloaded : m.loaded = false → m.Unloaded

variable {m m' : ModuleSystem π}

omit [DecidableEq π] in
theorem accounted_unloaded {s : PciSystem π} (h : s.Accounted) (hbound : s.bound = []) :
    (⟨s, false, false, false, false⟩ : ModuleSystem π).Accounted :=
  ⟨h, fun _ => ⟨h.nothing hbound, hbound, rfl, rfl, rfl⟩⟩

theorem initModule_accounted (h : m.Accounted) (hm : m.loaded = false) (env : InitModuleEnv π) :
    (xpcieInitModule env m).2.Accounted := by
  obtain ⟨-, hbound, hregion, hclass, hregistered⟩ := h.unloaded hm
  have hfresh := h.pci.fresh hbound
  obtain ⟨pci, chrdevRegion, cdevClass, registered, loaded⟩ := m
  dsimp only at hm hregion hclass hregistered hbound hfresh
  subst hm hregion hclass hregistered
  unfold xpcieInitModule
  dsimp only
  split_ifs
  · exact accounted_unloaded hfresh hbound
  · exact accounted_unloaded hfresh hbound
  · exact accounted_unloaded hfresh hbound
  · exact accounted_unloaded ((hfresh.foldl_probe env.devices).foldl_remove _) (unregister_bound _)
  · exact ⟨hfresh.foldl_probe env.devices, fun hloaded => by cases hloaded⟩

theorem ModuleSystem.Accounted.step (h : m.Accounted) {op : ModuleOp π}
    (hstep : moduleStep m op = some m') : m'.Accounted := by
  cases op with
  | load env =>
    simp only [moduleStep] at hstep
    split_ifs at hstep with hm
    cases hstep
    exact initModule_accounted h (by simpa using hm) env
  | probe pdev env =>
    simp only [moduleStep] at hstep
    split_ifs at hstep with hm
    cases hstep
    exact ⟨h.pci.probe (pdev, env), fun hloaded => absurd hm (by simpa using hloaded)⟩
  | remove pdev =>
    simp only [moduleStep] at hstep
    split_ifs at hstep with hm
    cases hstep
    exact ⟨h.pci.remove pdev, fun hloaded => absurd hm.1 (by simpa using hloaded)⟩
  | unload =>
    simp only [moduleStep] at hstep
    split_ifs at hstep with hm
    cases hstep
    exact accounted_unloaded (h.pci.foldl_remove _) (unregister_bound _)

omit [DecidableEq π] in
theorem accounted_start (infos : ℕ → FpgaDevInfo π) : (ModuleSystem.start infos).Accounted := by
  refine accounted_unloaded ⟨⟨Ledger.balanced_empty, Ledger.balanced_empty, Ledger.balanced_empty,
    Ledger.balanced_empty, fun minor hminor => ?_⟩, fun q hq => ?_, List.nodup_nil, List.nodup_nil⟩ rfl
  · cases hminor
  · cases hq

/-! ### What stays enabled -/

/-- A probe enables its device and does not disable it, to wherever it comes. -/
theorem xpciePciProbe_enabled (pdev : π) (env : ProbeEnv) (s : XpcieState π) :
    (xpciePciProbe pdev env s).2.res.enabled =
      if env.pciEnableDevice < 0 then s.res.enabled else (s.res.enable pdev).enabled := by
  by_cases henv : env.Succeeds
  · obtain ⟨dev, res, hholds, -, -, heq⟩ := xpciePciProbe_succeeds henv s pdev
    rw [heq, if_neg (Int.not_lt.mpr henv.pciEnableDevice)]
    change res.enabled = _
    rw [hholds.rest]
  · have hcases := xpciePciProbe_cases pdev env s
    generalize xpciePciProbe pdev env s = x at hcases ⊢
    obtain ⟨ret, u⟩ := x
    dsimp only at hcases ⊢
    cases hcases with
    | notEnabled hoff => rw [if_pos hoff]
    | early _ res _ hon _ hres => rw [if_neg hon, ← hres.enabled]
    | late _ res dev _ hon _ hres => rw [if_neg hon, ← hres.enabled]
    | added _ _ hsucc => exact absurd hsucc henv

/-- Nor does a removal disable one. -/
theorem xpciePciRemove_enabled (pdev : π) (s : XpcieState π) :
    (xpciePciRemove pdev s).res.enabled = s.res.enabled := by
  unfold xpciePciRemove
  cases s.find pdev <;> rfl

/-- How often a device was enabled. -/
def PciSystem.enabled (s : PciSystem π) (pdev : π) : ℕ := s.driver.res.enabled pdev

theorem PciSystem.enabled_probe (s : PciSystem π) (x : π × ProbeEnv) (pdev : π) :
    s.enabled pdev ≤ (s.probe x).enabled pdev := by
  unfold PciSystem.probe
  split_ifs
  · exact le_rfl
  change _ ≤ (xpciePciProbe x.1 x.2 s.driver).2.res.enabled pdev
  rw [xpciePciProbe_enabled]
  split_ifs
  · exact le_rfl
  change _ ≤ Function.update s.driver.res.enabled x.1 (s.driver.res.enabled x.1 + 1) pdev
  by_cases heq : pdev = x.1
  · rw [heq, Function.update_self]
    exact Nat.le_succ _
  · rw [Function.update_of_ne heq]
    exact le_rfl

theorem PciSystem.enabled_remove (s : PciSystem π) (x pdev : π) :
    (s.remove x).enabled pdev = s.enabled pdev := congrFun (xpciePciRemove_enabled x s.driver) pdev

theorem PciSystem.enabled_foldl_probe (xs : List (π × ProbeEnv)) (s : PciSystem π) (pdev : π) :
    s.enabled pdev ≤ (xs.foldl PciSystem.probe s).enabled pdev := by
  induction xs generalizing s with
  | nil => exact le_rfl
  | cons x xs ih => exact (s.enabled_probe x pdev).trans (ih _)

theorem PciSystem.enabled_unregister (s : PciSystem π) (pdev : π) :
    s.unregister.enabled pdev = s.enabled pdev := by
  have hfoldl (xs : List π) (s : PciSystem π) : (xs.foldl PciSystem.remove s).enabled pdev =
      s.enabled pdev := by
    induction xs generalizing s with
    | nil => rfl
    | cons x xs ih => exact (ih _).trans (s.enabled_remove x pdev)
  exact hfoldl _ _

theorem initModule_enabled (env : InitModuleEnv π) (m : ModuleSystem π) (pdev : π) :
    m.pci.enabled pdev ≤ (xpcieInitModule env m).2.pci.enabled pdev := by
  have hprobes := m.pci.fresh.enabled_foldl_probe env.devices pdev
  unfold xpcieInitModule
  dsimp only
  split_ifs
  · exact le_rfl
  · exact le_rfl
  · exact le_rfl
  · exact hprobes.trans_eq (PciSystem.enabled_unregister _ _).symm
  · exact hprobes

theorem moduleStep_enabled {op : ModuleOp π} (hstep : moduleStep m op = some m') (pdev : π) :
    m.pci.enabled pdev ≤ m'.pci.enabled pdev := by
  cases op with
  | load env =>
    simp only [moduleStep] at hstep
    split_ifs at hstep
    cases hstep
    exact initModule_enabled env m pdev
  | probe x env =>
    simp only [moduleStep] at hstep
    split_ifs at hstep
    cases hstep
    exact m.pci.enabled_probe (x, env) pdev
  | remove x =>
    simp only [moduleStep] at hstep
    split_ifs at hstep
    cases hstep
    exact (m.pci.enabled_remove x pdev).ge
  | unload =>
    simp only [moduleStep] at hstep
    split_ifs at hstep
    cases hstep
    exact (m.pci.enabled_unregister pdev).ge

/-- **The exception**: the driver calls no `pci_disable_device`, so that a device stays enabled in every
later run, unloaded driver or not. -/
theorem run_enabled {ops : List (ModuleOp π)} (hrun : run moduleStep m ops = some m') (pdev : π) :
    m.pci.enabled pdev ≤ m'.pci.enabled pdev :=
  run_invariant (I := fun t => m.pci.enabled pdev ≤ t.pci.enabled pdev)
    (fun _ _ _ h hstep => h.trans (moduleStep_enabled hstep pdev)) le_rfl hrun

/-! ### The result -/

/-- **Nothing is lost and nothing is released twice.** In every run of loading, unloading, and devices
that come and go, wherever a call fails, what was acquired is held by a device in the list or was
released, once; a driver that is not loaded holds nothing of it and is registered nowhere. -/
theorem module_clean (infos : ℕ → FpgaDevInfo π) {ops : List (ModuleOp π)}
    (hrun : run moduleStep (.start infos) ops = some m) : m.Accounted :=
  run_invariant (I := ModuleSystem.Accounted) (fun _ _ _ h hstep => h.step hstep) (accounted_start infos)
    hrun

/-- A probe in which nothing fails. -/
def ProbeEnv.fine : ProbeEnv := ⟨0, true, true, 0, fun _ => true, 0, true, 0, true⟩

/-- The driver is loaded with a device that works and one without a bridge, gets another, loses the
first and is unloaded. -/
theorem module_clean_unload : ∃ m, run moduleStep (.start fun _ => FpgaDevInfo.new 0 (0 : ℕ))
      [.load ⟨0, true, 0, [(7, .fine), (8, .noBridge)]⟩, .probe 9 .fine, .remove 7, .unload] = some m ∧
    m.pci.driver.res.Nothing := by
  obtain ⟨m, hrun, hloaded⟩ : ∃ m, run moduleStep (.start fun _ => FpgaDevInfo.new 0 (0 : ℕ))
      [.load ⟨0, true, 0, [(7, .fine), (8, .noBridge)]⟩, .probe 9 .fine, .remove 7, .unload] = some m ∧
      m.loaded = false := ⟨_, rfl, rfl⟩
  exact ⟨m, hrun, ((module_clean _ hrun).unloaded hloaded).res⟩

end HardwareDrivers.Driver.Probe
