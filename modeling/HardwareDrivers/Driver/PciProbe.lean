import HardwareDrivers.Driver.Lldma
import HardwareDrivers.Theory.Ledger
import HardwareDrivers.Theory.Transition

/-!
# Probing and removing devices

`xpcie_device.c`: the driver keeps a list of the devices it was given. `xpcie_pci_probe` takes the
resources of a device one after another, counts it with the others and puts it into the list;
`xpcie_pci_remove` takes it out of the list and gives its resources back.

Resources of each kind are numbered as they are acquired. The record of a device is a value until it
is put into the list; from then on it is what its address refers to.

## What is proved

* `xpcieFpgaDevInit_done`, `settled_devClose` — what `xpcie_fpga_dev_init` acquired, to wherever it came,
  `xpcie_fpga_dev_close` releases.
* `xpciePciProbe_cases` — what a probe can come to.
* `listed_open` — in every run, what is in the list was not freed.
* `callsRight_iff` — when the list and the counts are right after each call.
-/

namespace HardwareDrivers.Driver.Probe

open Theory

/-! ### The state -/

/-- An entry of `enqueues[]` or `dequeues[]`. -/
abbrev QueuePlace := Chid × DmaSide

/-- The entries, in the order of the loops of `xpcie_fpga_dev_init` and `xpcie_fpga_dev_close`. -/
def queuePlaces : List QueuePlace :=
  (List.finRange xpcieMaxQueuePair).flatMap fun chid => [(chid, .rx), (chid, .tx)]

/-- `fpga_dev_info_t`, as far as it is about the list and the resources. -/
structure FpgaDevInfo (π : Type) where
  /-- `dev_id`, the minor number. -/
  devId : BitVec 32
  /-- `num_devs`. -/
  numDevs : BitVec 32
  /-- `pci_dev`. -/
  pciDev : π
  /-- `base_addr`. -/
  baseAddr : Option ℕ
  /-- `qp_mem_addr` of each entry. -/
  qpMemAddr : QueuePlace → Option ℕ
  /-- `cdev`, once it is added. -/
  cdev : Option ℕ

/-- What the kernel gives. -/
structure Resources (π : Type) where
  /-- How often a device was enabled. -/
  enabled : π → ℕ
  /-- `vmalloc`. -/
  vmallocs : Ledger
  /-- `ioremap`. -/
  mappings : Ledger
  /-- `kzalloc`. -/
  kzallocs : Ledger
  /-- `cdev_add`. -/
  cdevs : Ledger
  /-- The minor numbers that have a device file. -/
  files : BitVec 32 → Bool

/-- The variables of the driver, and what the kernel gave. -/
structure XpcieState (π : Type) where
  /-- `fpga_num_devs`. -/
  fpgaNumDevs : BitVec 32
  /-- The addresses in `fpga_dev_list`. -/
  fpgaDevList : List ℕ
  /-- What is at an address. -/
  infos : ℕ → FpgaDevInfo π
  /-- What the kernel gave. -/
  res : Resources π

/-- What a probe finds outside. -/
structure ProbeEnv where
  /-- `pci_enable_device`. -/
  pciEnableDevice : ℤ
  /-- There is memory for the record. -/
  vmalloc : Bool
  /-- The registers can be mapped. -/
  ioremap : Bool
  /-- `xpcie_fpga_get_control_type`. -/
  getControlType : ℤ
  /-- There is memory for the queues. -/
  kzalloc : QueuePlace → Bool
  /-- `xpcie_fpga_get_mailbox`. -/
  getMailbox : ℤ
  /-- The device has an upstream bridge. -/
  upstream : Bool
  /-- `cdev_add`. -/
  cdevAdd : ℤ
  /-- `device_create` makes a device file. -/
  deviceCreate : Bool

/-- `ENOMEM`. -/
def enomem : ℤ := 12

/-- `ENODEV`. -/
def enodev : ℤ := 19

variable {π : Type}

/-! ### The calls -/

/-- `queue_que_init`, where there is memory. -/
def queueQueInit (dev : FpgaDevInfo π) (res : Resources π) (place : QueuePlace) :
    FpgaDevInfo π × Resources π :=
  ({ dev with qpMemAddr := Function.update dev.qpMemAddr place (some res.kzallocs.next) },
    { res with kzallocs := res.kzallocs.acquire })

/-- The loop of `xpcie_fpga_dev_init`. -/
def initQueues (env : ProbeEnv) :
    List QueuePlace → FpgaDevInfo π → Resources π → ℤ × FpgaDevInfo π × Resources π
  | [], dev, res => (0, dev, res)
  | place :: places, dev, res =>
    if env.kzalloc place = false then (-enomem, dev, res)
    else initQueues env places (queueQueInit dev res place).1 (queueQueInit dev res place).2

/-- `xpcie_fpga_dev_init`. -/
def xpcieFpgaDevInit (env : ProbeEnv) (dev : FpgaDevInfo π) (res : Resources π) :
    ℤ × FpgaDevInfo π × Resources π :=
  if env.ioremap = false then (-enodev, dev, res)
  else
    let dev := { dev with baseAddr := some res.mappings.next }
    let res := { res with mappings := res.mappings.acquire }
    if env.getControlType ≠ 0 then (-enodev, dev, res)
    else
      let (ret, dev, res) := initQueues env queuePlaces dev res
      if ret < 0 then (ret, dev, res)
      else if env.getMailbox < 0 then (env.getMailbox, dev, res)
      else (0, dev, res)

/-- `queue_que_free`. -/
def queueQueFree (dev : FpgaDevInfo π) (kzallocs : Ledger) (place : QueuePlace) : Ledger :=
  (dev.qpMemAddr place).elim kzallocs kzallocs.release

/-- `xpcie_fpga_dev_close`. -/
def xpcieFpgaDevClose (dev : FpgaDevInfo π) (res : Resources π) : Resources π :=
  { res with
    kzallocs := queuePlaces.foldl (queueQueFree dev) res.kzallocs
    mappings := dev.baseAddr.elim res.mappings res.mappings.release }

/-- `vfree`. -/
def Resources.vfree (res : Resources π) (p : ℕ) : Resources π :=
  { res with vmallocs := res.vmallocs.release p }

/-- One round of the loop that counts the devices. -/
def countDevice (x : (ℕ → FpgaDevInfo π) × FpgaDevInfo π) (odev : ℕ) :
    (ℕ → FpgaDevInfo π) × FpgaDevInfo π :=
  (Function.update x.1 odev { x.1 odev with numDevs := (x.1 odev).numDevs + 1 },
    { x.2 with numDevs := x.2.numDevs + 1 })

/-- What is behind `error`. -/
def XpcieState.fail (s : XpcieState π) (p : ℕ) (dev : FpgaDevInfo π) (res : Resources π) :
    XpcieState π :=
  { s with res := (xpcieFpgaDevClose dev res).vfree p }

/-- The record that `vmalloc` and `memset` make, with its first fields. -/
def FpgaDevInfo.new (devId : BitVec 32) (pdev : π) : FpgaDevInfo π :=
  ⟨devId, 0, pdev, none, fun _ => none, none⟩

/-- The loop that counts the devices, with `num_devs` of the new one set to 0 before. -/
def XpcieState.count (s : XpcieState π) (dev : FpgaDevInfo π) :
    (ℕ → FpgaDevInfo π) × FpgaDevInfo π :=
  s.fpgaDevList.foldl countDevice (s.infos, { dev with numDevs := 0 })

section Calls

variable [DecidableEq π]

/-- `pci_enable_device`, if it succeeds. -/
def Resources.enable (res : Resources π) (pdev : π) : Resources π :=
  { res with enabled := Function.update res.enabled pdev (res.enabled pdev + 1) }

/-- `cdev_add`, `device_create` and `list_add`. -/
def XpcieState.add (s : XpcieState π) (p : ℕ) (dev : FpgaDevInfo π) (res : Resources π)
    (deviceCreate : Bool) : XpcieState π where
  fpgaNumDevs := s.fpgaNumDevs + 1
  fpgaDevList := p :: s.fpgaDevList
  infos := Function.update s.infos p { dev with cdev := some res.cdevs.next }
  res := { res with
    cdevs := res.cdevs.acquire
    files := if deviceCreate then Function.update res.files dev.devId true else res.files }

/-- `xpcie_pci_probe`. -/
def xpciePciProbe (pdev : π) (env : ProbeEnv) (s : XpcieState π) : ℤ × XpcieState π :=
  if env.pciEnableDevice < 0 then (env.pciEnableDevice, s)
  else
    let res := s.res.enable pdev
    if env.vmalloc = false then (-enomem, { s with res })
    else
      let p := res.vmallocs.next
      let (err, dev, res) := xpcieFpgaDevInit env (.new s.fpgaNumDevs pdev)
        { res with vmallocs := res.vmallocs.acquire }
      if err < 0 then (err, s.fail p dev res)
      else
        let (infos, dev) := s.count dev
        -- `err` is still that of `xpcie_fpga_dev_init`
        if env.upstream = false then (err, { s with infos }.fail p dev res)
        else if env.cdevAdd < 0 then (env.cdevAdd, { s with infos }.fail p dev res)
        else (0, { s with infos }.add p dev res env.deviceCreate)

/-- `device_destroy` and `cdev_del`. -/
def Resources.destroy (res : Resources π) (dev : FpgaDevInfo π) : Resources π :=
  { res with
    files := Function.update res.files dev.devId false
    cdevs := dev.cdev.elim res.cdevs res.cdevs.release }

/-- The loop of `xpcie_pci_remove`. -/
def XpcieState.find (s : XpcieState π) (pdev : π) : Option ℕ :=
  s.fpgaDevList.find? fun p => (s.infos p).pciDev = pdev

/-- `xpcie_pci_remove`. -/
def xpciePciRemove (pdev : π) (s : XpcieState π) : XpcieState π :=
  (s.find pdev).elim s fun p =>
    { s with
      fpgaDevList := s.fpgaDevList.erase p
      res := (xpcieFpgaDevClose (s.infos p) (s.res.destroy (s.infos p))).vfree p }

end Calls

/-! ### What a device holds -/

variable {s t : XpcieState π} {res res' : Resources π} {dev dev' : FpgaDevInfo π} {env : ProbeEnv}
  {pdev : π} {p : ℕ}

/-- Every kind is settled. -/
structure Resources.Settled (res res' : Resources π) : Prop where
  /-- No device is enabled more often. -/
  enabled : res'.enabled = res.enabled
  /-- The records. -/
  vmallocs : res.vmallocs.Settled res'.vmallocs
  /-- The mappings. -/
  mappings : res.mappings.Settled res'.mappings
  /-- The queues. -/
  kzallocs : res.kzallocs.Settled res'.kzallocs
  /-- The character devices. -/
  cdevs : res.cdevs.Settled res'.cdevs
  /-- The device files. -/
  files : res'.files = res.files

theorem Resources.Settled.refl (res : Resources π) : res.Settled res :=
  ⟨rfl, .refl _, .refl _, .refl _, .refl _, rfl⟩

/-- The device holds the queues that were acquired since. -/
def HoldsQueues (kzallocs kzallocs' : Ledger) (dev : FpgaDevInfo π) : Prop :=
  ∃ k, queuePlaces.filterMap dev.qpMemAddr = List.range' kzallocs.next k ∧
    kzallocs' = { kzallocs with next := kzallocs.next + k }

/-- The device holds the mapping that was acquired since. -/
def HoldsMapping (mappings mappings' : Ledger) (dev : FpgaDevInfo π) : Prop :=
  (dev.baseAddr = none ∧ mappings' = mappings) ∨
    (dev.baseAddr = some mappings.next ∧ mappings' = mappings.acquire)

/-- The device holds what was acquired since. -/
structure Holds (res res' : Resources π) (dev : FpgaDevInfo π) : Prop where
  /-- The queues. -/
  queues : HoldsQueues res.kzallocs res'.kzallocs dev
  /-- The mapping. -/
  mapping : HoldsMapping res.mappings res'.mappings dev
  /-- Nothing else was acquired. -/
  rest : res' = { res with kzallocs := res'.kzallocs, mappings := res'.mappings }

theorem nodup_queuePlaces : queuePlaces.Nodup := by decide

theorem foldl_queueQueFree (places : List QueuePlace) (l : Ledger) :
    places.foldl (queueQueFree dev) l = (places.filterMap dev.qpMemAddr).foldl Ledger.release l := by
  induction places generalizing l with
  | nil => rfl
  | cons place places ih =>
    rw [List.foldl_cons, ih, queueQueFree]
    cases h : dev.qpMemAddr place with
    | none => rw [List.filterMap_cons_none h]; rfl
    | some r => rw [List.filterMap_cons_some h]; rfl

/-- **What the device holds is released.** -/
theorem settled_devClose (h : Holds res res' dev) : res.Settled (xpcieFpgaDevClose dev res') := by
  obtain ⟨⟨k, hplaces, hkzallocs⟩, hmapping, hrest⟩ := h
  have hqueues : res.kzallocs.Settled (xpcieFpgaDevClose dev res').kzallocs := by
    change res.kzallocs.Settled (queuePlaces.foldl (queueQueFree dev) res'.kzallocs)
    rw [foldl_queueQueFree, hplaces, hkzallocs]
    exact Ledger.settled_range _ k
  have hmappings : res.mappings.Settled (xpcieFpgaDevClose dev res').mappings := by
    change res.mappings.Settled (dev.baseAddr.elim res'.mappings res'.mappings.release)
    rcases hmapping with ⟨haddr, hmap⟩ | ⟨haddr, hmap⟩
    · rw [haddr, hmap]
      exact .refl _
    · rw [haddr, hmap]
      exact Ledger.settled_temp _
  rw [hrest] at hqueues hmappings ⊢
  exact ⟨rfl, .refl _, hmappings, hqueues, .refl _, rfl⟩

theorem queueQueInit_self (place : QueuePlace) :
    (queueQueInit dev res place).1.qpMemAddr place = some res.kzallocs.next :=
  Function.update_self ..

theorem queueQueInit_of_ne {place q : QueuePlace} (h : q ≠ place) :
    (queueQueInit dev res place).1.qpMemAddr q = dev.qpMemAddr q :=
  Function.update_of_ne h ..

/-- After the loop the entries that it came to have the numbers that were next. -/
theorem holdsQueues_initQueues {done places : List QueuePlace} {l : Ledger} {k : ℕ}
    (hall : queuePlaces = done ++ places)
    (hdone : done.filterMap dev.qpMemAddr = List.range' l.next k)
    (hrest : ∀ place ∈ places, dev.qpMemAddr place = none)
    (hl : res.kzallocs = { l with next := l.next + k }) :
    HoldsQueues l (initQueues env places dev res).2.2.kzallocs (initQueues env places dev res).2.1 := by
  induction places generalizing done dev res k with
  | nil =>
    rw [List.append_nil] at hall
    exact ⟨k, hall ▸ hdone, hl⟩
  | cons place places ih =>
    unfold initQueues
    split_ifs with henv
    · refine ⟨k, ?_, hl⟩
      rw [hall, List.filterMap_append, hdone, List.filterMap_eq_nil_iff.mpr hrest, List.append_nil]
    · have hnodup : (done ++ place :: places).Nodup := hall ▸ nodup_queuePlaces
      obtain ⟨-, hnew, hdisjoint⟩ := List.nodup_append'.mp hnodup
      have hplace : place ∉ places := (List.nodup_cons.mp hnew).1
      refine ih (k := k + 1) (hall.trans (List.append_cons ..)) ?_ ?_ ?_
      · have hsame : done.filterMap (queueQueInit dev res place).1.qpMemAddr =
            done.filterMap dev.qpMemAddr :=
          List.filterMap_congr fun q hq =>
            queueQueInit_of_ne (ne_of_mem_of_not_mem hq fun hmem => hdisjoint hmem (List.mem_cons_self ..))
        rw [List.filterMap_append, hsame, hdone, List.filterMap_cons_some (queueQueInit_self place), hl,
          List.range'_concat, Nat.one_mul]
        rfl
      · intro q hq
        rw [queueQueInit_of_ne (ne_of_mem_of_not_mem hq hplace)]
        exact hrest q (List.mem_cons_of_mem _ hq)
      · change res.kzallocs.acquire = _
        rw [hl]
        rfl

/-- The loop changes nothing else. -/
theorem initQueues_eq (env : ProbeEnv) (places : List QueuePlace) (dev : FpgaDevInfo π) (res : Resources π) :
    (initQueues env places dev res).2.1 =
        { dev with qpMemAddr := (initQueues env places dev res).2.1.qpMemAddr } ∧
      (initQueues env places dev res).2.2 =
        { res with kzallocs := (initQueues env places dev res).2.2.kzallocs } := by
  induction places generalizing dev res with
  | nil => exact ⟨rfl, rfl⟩
  | cons place places ih =>
    unfold initQueues
    split_ifs
    · exact ⟨rfl, rfl⟩
    · obtain ⟨hdev, hres⟩ := ih (queueQueInit dev res place).1 (queueQueInit dev res place).2
      exact ⟨hdev, hres⟩

/-- The loop fails where there is no memory for a queue. -/
theorem initQueues_ret (env : ProbeEnv) (places : List QueuePlace) (dev : FpgaDevInfo π) (res : Resources π) :
    (initQueues env places dev res).1 = if ∀ place ∈ places, env.kzalloc place then 0 else -enomem := by
  induction places generalizing dev res with
  | nil => simp [initQueues]
  | cons place places ih =>
    unfold initQueues
    split_ifs with henv hall hall
    · rw [hall place (List.mem_cons_self ..)] at henv
      cases henv
    · rfl
    · rw [ih, if_pos fun q hq => hall q (List.mem_cons_of_mem _ hq)]
    · rw [ih, if_neg]
      intro hrest
      apply hall
      intro q hq
      rcases List.mem_cons.mp hq with rfl | hq
      · exact Bool.of_not_eq_false henv
      · exact hrest q hq

/-- `xpcie_fpga_dev_init` can do all it does. -/
structure ProbeEnv.Initializes (env : ProbeEnv) : Prop where
  /-- The registers are mapped. -/
  ioremap : env.ioremap = true
  /-- The modules are found. -/
  getControlType : env.getControlType = 0
  /-- There is memory for all queues. -/
  kzalloc : ∀ place ∈ queuePlaces, env.kzalloc place = true
  /-- The mailbox answers. -/
  getMailbox : 0 ≤ env.getMailbox

/-- **`xpcie_fpga_dev_init`**: it fails or not, the device holds what was acquired. -/
structure DevInitDone (env : ProbeEnv) (dev : FpgaDevInfo π) (res : Resources π)
    (done : ℤ × FpgaDevInfo π × Resources π) : Prop where
  /-- What was acquired is held. -/
  holds : Holds res done.2.2 done.2.1
  /-- An error is negative. -/
  ret : done.1 < 0 ∧ ¬ env.Initializes ∨ done.1 = 0 ∧ env.Initializes
  /-- The minor number. -/
  devId : done.2.1.devId = dev.devId
  /-- The device. -/
  pciDev : done.2.1.pciDev = dev.pciDev

theorem filterMap_new (devId : BitVec 32) (pdev : π) :
    queuePlaces.filterMap (FpgaDevInfo.new devId pdev).qpMemAddr = [] :=
  List.filterMap_eq_nil_iff.mpr fun _ _ => rfl

theorem xpcieFpgaDevInit_done (env : ProbeEnv) (devId : BitVec 32) (pdev : π) (res : Resources π) :
    DevInitDone env (.new devId pdev) res (xpcieFpgaDevInit env (.new devId pdev) res) := by
  have hnone : HoldsQueues res.kzallocs res.kzallocs (FpgaDevInfo.new devId pdev) :=
    ⟨0, filterMap_new devId pdev, rfl⟩
  unfold xpcieFpgaDevInit
  by_cases hmap : env.ioremap = false
  · rw [if_pos hmap]
    refine ⟨⟨hnone, .inl ⟨rfl, rfl⟩, rfl⟩, .inl ⟨by simp [enodev], fun h => ?_⟩, rfl, rfl⟩
    exact Bool.false_ne_true (hmap.symm.trans h.ioremap)
  rw [if_neg hmap]
  by_cases htype : env.getControlType ≠ 0
  · rw [if_pos htype]
    exact ⟨⟨hnone, .inr ⟨rfl, rfl⟩, rfl⟩,
      .inl ⟨by simp [enodev], fun h => htype h.getControlType⟩, rfl, rfl⟩
  rw [if_neg htype]
  dsimp only
  generalize hdev₁ : ({ FpgaDevInfo.new devId pdev with baseAddr := some res.mappings.next } :
    FpgaDevInfo π) = dev₁
  generalize hres₁ : ({ res with mappings := res.mappings.acquire } : Resources π) = res₁
  have hqueues : HoldsQueues res.kzallocs (initQueues env queuePlaces dev₁ res₁).2.2.kzallocs
      (initQueues env queuePlaces dev₁ res₁).2.1 := by
    subst hdev₁ hres₁
    have hall : queuePlaces = [] ++ queuePlaces := rfl
    exact holdsQueues_initQueues (k := 0) hall rfl (fun _ _ => rfl) rfl
  obtain ⟨hdev, hres⟩ := initQueues_eq env queuePlaces dev₁ res₁
  have hret := initQueues_ret env queuePlaces dev₁ res₁
  generalize initQueues env queuePlaces dev₁ res₁ = x at hqueues hdev hres hret ⊢
  obtain ⟨ret, dev, res'⟩ := x
  dsimp only at hqueues hdev hres hret ⊢
  have hholds : Holds res res' dev := by
    refine ⟨hqueues, .inr ⟨?_, ?_⟩, ?_⟩
    · rw [hdev, ← hdev₁]
    · rw [hres, ← hres₁]
    · rw [hres, ← hres₁]
  have hid : dev.devId = devId := by rw [hdev, ← hdev₁]; rfl
  have hpci : dev.pciDev = pdev := by rw [hdev, ← hdev₁]; rfl
  split_ifs with hneg hbox
  · refine ⟨hholds, .inl ⟨hneg, fun h => ?_⟩, hid, hpci⟩
    rw [if_pos h.kzalloc] at hret
    exact absurd hret (Int.ne_of_lt hneg)
  · exact ⟨hholds, .inl ⟨hbox, fun h => absurd h.getMailbox (Int.not_le.mpr hbox)⟩, hid, hpci⟩
  · refine ⟨hholds, .inr ⟨rfl, Bool.of_not_eq_false hmap, not_not.mp htype, ?_, Int.not_lt.mp hbox⟩,
      hid, hpci⟩
    by_contra hnot
    rw [if_neg hnot] at hret
    exact hneg (hret ▸ by simp [enomem])

/-- **What a failed probe held is released**, up to the record. -/
theorem settled_fail (h : Holds { res with vmallocs := res.vmallocs.acquire } res' dev) :
    res.Settled ((xpcieFpgaDevClose dev res').vfree res.vmallocs.next) := by
  have hvmallocs : (xpcieFpgaDevClose dev res').vmallocs = res.vmallocs.acquire := by
    change res'.vmallocs = _
    rw [h.rest]
  obtain ⟨henabled, -, hmappings, hkzallocs, hcdevs, hfiles⟩ := settled_devClose h
  refine ⟨henabled, ?_, hmappings, hkzallocs, hcdevs, hfiles⟩
  change res.vmallocs.Settled ((xpcieFpgaDevClose dev res').vmallocs.release res.vmallocs.next)
  rw [hvmallocs]
  exact Ledger.settled_temp _

/-! ### The counts -/

theorem foldl_countDevice_snd (l : List ℕ) (x : (ℕ → FpgaDevInfo π) × FpgaDevInfo π) :
    (l.foldl countDevice x).2 = { x.2 with numDevs := x.2.numDevs + BitVec.ofNat 32 l.length } := by
  induction l generalizing x with
  | nil => simp
  | cons odev l ih =>
    rw [List.foldl_cons, ih, countDevice, List.length_cons]
    dsimp only
    rw [BitVec.add_assoc, Nat.add_comm l.length, BitVec.ofNat_add]
    rfl

/-- The new device counts the others. -/
theorem XpcieState.count_snd (s : XpcieState π) (dev : FpgaDevInfo π) :
    (s.count dev).2 = { dev with numDevs := BitVec.ofNat 32 s.fpgaDevList.length } := by
  simp [count, foldl_countDevice_snd]

theorem foldl_countDevice_of_notMem {l : List ℕ} (hp : p ∉ l)
    (x : (ℕ → FpgaDevInfo π) × FpgaDevInfo π) : (l.foldl countDevice x).1 p = x.1 p := by
  induction l generalizing x with
  | nil => rfl
  | cons odev l ih =>
    obtain ⟨hne, hp⟩ := not_or.mp (mt List.mem_cons.mpr hp)
    rw [List.foldl_cons, ih hp]
    exact Function.update_of_ne hne ..

theorem foldl_countDevice_of_mem {l : List ℕ} (hl : l.Nodup) (hp : p ∈ l)
    (x : (ℕ → FpgaDevInfo π) × FpgaDevInfo π) :
    (l.foldl countDevice x).1 p = { x.1 p with numDevs := (x.1 p).numDevs + 1 } := by
  induction l generalizing x with
  | nil => cases hp
  | cons odev l ih =>
    obtain ⟨hnew, hl⟩ := List.nodup_cons.mp hl
    rw [List.foldl_cons]
    by_cases heq : p = odev
    · subst heq
      rw [foldl_countDevice_of_notMem hnew]
      exact Function.update_self ..
    · rw [ih hl ((List.mem_cons.mp hp).resolve_left heq)]
      dsimp only [countDevice]
      rw [Function.update_of_ne heq]

/-- Each of the others counts one more. -/
theorem XpcieState.count_fst (hl : s.fpgaDevList.Nodup) (hp : p ∈ s.fpgaDevList)
    (dev : FpgaDevInfo π) :
    (s.count dev).1 p = { s.infos p with numDevs := (s.infos p).numDevs + 1 } :=
  foldl_countDevice_of_mem hl hp _

/-! ### What a probe can come to -/

/-- Nothing in the probe fails. -/
structure ProbeEnv.Succeeds (env : ProbeEnv) : Prop extends env.Initializes where
  /-- The device is enabled. -/
  pciEnableDevice : 0 ≤ env.pciEnableDevice
  /-- There is memory for the record. -/
  vmalloc : env.vmalloc = true
  /-- There is a bridge. -/
  upstream : env.upstream = true
  /-- The character device is added. -/
  cdevAdd : 0 ≤ env.cdevAdd

variable [DecidableEq π]

/-- What a probe can come to. -/
inductive ProbeOutcome (pdev : π) (env : ProbeEnv) (s : XpcieState π) : ℤ → XpcieState π → Prop
  /-- The device is not enabled. -/
  | notEnabled (h : env.pciEnableDevice < 0) : ProbeOutcome pdev env s env.pciEnableDevice s
  /-- It fails before the devices are counted. -/
  | early (ret : ℤ) (res : Resources π) (hret : ret < 0) (hon : ¬ env.pciEnableDevice < 0)
      (henv : ¬ env.Succeeds) (hres : (s.res.enable pdev).Settled res) :
      ProbeOutcome pdev env s ret { s with res }
  /-- It fails behind that. -/
  | late (ret : ℤ) (res : Resources π) (dev : FpgaDevInfo π) (hret : ret < 0 ∨ env.upstream = false)
      (hon : ¬ env.pciEnableDevice < 0) (henv : ¬ env.Succeeds)
      (hres : (s.res.enable pdev).Settled res) :
      ProbeOutcome pdev env s ret { s with res, infos := (s.count dev).1 }
  /-- The device is put into the list. -/
  | added (dev : FpgaDevInfo π) (res : Resources π) (henv : env.Succeeds)
      (hid : dev.devId = s.fpgaNumDevs) (hpci : dev.pciDev = pdev)
      (hres : res.vmallocs = s.res.vmallocs.acquire) :
      ProbeOutcome pdev env s 0 ({ s with infos := (s.count dev).1 }.add s.res.vmallocs.next
        (s.count dev).2 res env.deviceCreate)

theorem xpciePciProbe_cases (pdev : π) (env : ProbeEnv) (s : XpcieState π) :
    ProbeOutcome pdev env s (xpciePciProbe pdev env s).1 (xpciePciProbe pdev env s).2 := by
  unfold xpciePciProbe
  by_cases hon : env.pciEnableDevice < 0
  · rw [if_pos hon]
    exact .notEnabled hon
  rw [if_neg hon]
  dsimp only
  by_cases hmem : env.vmalloc = false
  · rw [if_pos hmem]
    refine .early _ _ (by simp [enomem]) hon (fun h => ?_) (.refl _)
    exact Bool.false_ne_true (hmem.symm.trans h.vmalloc)
  rw [if_neg hmem]
  have hdone := xpcieFpgaDevInit_done env s.fpgaNumDevs pdev
    { s.res.enable pdev with vmallocs := (s.res.enable pdev).vmallocs.acquire }
  generalize xpcieFpgaDevInit env _ _ = x at hdone ⊢
  obtain ⟨ret, dev, res⟩ := x
  obtain ⟨hholds, hret, hid, hpci⟩ := hdone
  dsimp only at hholds hret hid hpci ⊢
  have hfail : (s.res.enable pdev).Settled
      ((xpcieFpgaDevClose dev res).vfree (s.res.enable pdev).vmallocs.next) := settled_fail hholds
  have hcounted : xpcieFpgaDevClose (s.count dev).2 res = xpcieFpgaDevClose dev res := by
    rw [XpcieState.count_snd]
    rfl
  rcases hret with ⟨hneg, hinit⟩ | ⟨rfl, hinit⟩
  · rw [if_pos hneg]
    exact .early _ _ hneg hon (fun h => hinit h.toInitializes) hfail
  rw [if_neg (Int.lt_irrefl 0)]
  by_cases hup : env.upstream = false
  · rw [if_pos hup]
    refine .late _ _ dev (.inr hup) hon (fun h => ?_) ?_
    · exact Bool.false_ne_true (hup.symm.trans h.upstream)
    · rwa [hcounted]
  rw [if_neg hup]
  by_cases hcdev : env.cdevAdd < 0
  · rw [if_pos hcdev]
    refine .late _ _ dev (.inl hcdev) hon (fun h => absurd h.cdevAdd (Int.not_le.mpr hcdev)) ?_
    rwa [hcounted]
  · rw [if_neg hcdev]
    refine .added dev res ⟨hinit, Int.not_lt.mp hon, Bool.of_not_eq_false hmem,
      Bool.of_not_eq_false hup, Int.not_lt.mp hcdev⟩ hid hpci ?_
    rw [hholds.rest]
    rfl

/-! ### Calls in any order -/

/-- The driver, and the devices whose probe succeeded and that were not removed since. -/
structure PciSystem (π : Type) where
  /-- The driver. -/
  driver : XpcieState π
  /-- The devices. -/
  bound : List π

/-- A call of the kernel. -/
inductive PciCall (π : Type) where
  /-- `xpcie_pci_probe`. -/
  | probe (pdev : π) (env : ProbeEnv)
  /-- `xpcie_pci_remove`. -/
  | remove (pdev : π)

/-- When the driver is loaded; the memory has anything in it. -/
def PciSystem.start (infos : ℕ → FpgaDevInfo π) : PciSystem π where
  driver := ⟨0, [], infos, ⟨fun _ => 0, .empty, .empty, .empty, .empty, fun _ => false⟩⟩
  bound := []

/-- A call. -/
def pciStep (s : PciSystem π) : PciCall π → Option (PciSystem π)
  | .probe pdev env =>
    let (ret, driver) := xpciePciProbe pdev env s.driver
    some ⟨driver, if ret < 0 then s.bound else pdev :: s.bound⟩
  | .remove pdev => some ⟨xpciePciRemove pdev s.driver, s.bound.erase pdev⟩

/-- The devices in the list. -/
def XpcieState.listed (s : XpcieState π) : List π := s.fpgaDevList.map fun p => (s.infos p).pciDev

/-- The minor numbers in the list. -/
def XpcieState.minors (s : XpcieState π) : List (BitVec 32) :=
  s.fpgaDevList.map fun p => (s.infos p).devId

/-- The list and the counts are right. -/
structure ListRight (t : PciSystem π) : Prop where
  /-- The list has exactly the devices. -/
  listed : t.driver.listed.Perm t.bound
  /-- Their minor numbers are different. -/
  minors : t.driver.minors.Nodup
  /-- Each counts the others. -/
  counts : ∀ p ∈ t.driver.fpgaDevList,
    (t.driver.infos p).numDevs.toNat + 1 = t.driver.fpgaDevList.length
  /-- None was freed. -/
  live : ∀ p ∈ t.driver.fpgaDevList, t.driver.res.vmallocs.Open p

/-- What is to hold after a call. -/
structure CallRight (s : PciSystem π) (call : PciCall π) (t : PciSystem π) : Prop
    extends ListRight t where
  /-- A probe that did not add its device fails, gives back what it took and leaves the others. -/
  failed : ∀ pdev env, call = .probe pdev env → t.driver.fpgaDevList = s.driver.fpgaDevList →
    (xpciePciProbe pdev env s.driver).1 < 0 ∧ s.driver.res.Settled t.driver.res ∧
      ∀ p ∈ s.driver.fpgaDevList, t.driver.infos p = s.driver.infos p

/-- The probe fails at once, or nothing in it fails and its number is free; the removal is of a device
that is not there, or of the only one. -/
def FairCall (s : PciSystem π) : PciCall π → Prop
  | .probe _ env => env.pciEnableDevice < 0 ∨
      env.Succeeds ∧ ∀ p ∈ s.driver.fpgaDevList, (s.driver.infos p).devId ≠ s.driver.fpgaNumDevs
  | .remove pdev => pdev ∉ s.driver.listed ∨ s.driver.fpgaDevList.length = 1

/-! ### No entry of the list was freed -/

/-- The addresses in the list are different, and none was freed. -/
structure XpcieState.Live (s : XpcieState π) : Prop where
  /-- They are different. -/
  nodup : s.fpgaDevList.Nodup
  /-- None was freed. -/
  isOpen : ∀ p ∈ s.fpgaDevList, s.res.vmallocs.Open p
  /-- What was freed was allocated. -/
  old : ∀ r ∈ s.res.vmallocs.released, r < s.res.vmallocs.next

namespace XpcieState.Live

omit [DecidableEq π] in
/-- A new address. -/
theorem next_notMem (hs : s.Live) : s.res.vmallocs.next ∉ s.fpgaDevList := fun hmem =>
  Nat.lt_irrefl _ (hs.isOpen _ hmem).1

/-- A failed probe. -/
theorem settled (hs : s.Live) {infos : ℕ → FpgaDevInfo π}
    (hres : (s.res.enable pdev).Settled res) : ({ s with res, infos } : XpcieState π).Live :=
  ⟨hs.nodup, fun p hp => hres.vmallocs.open (hs.isOpen p hp), hres.vmallocs.old hs.old⟩

theorem probe (hs : s.Live) {ret : ℤ} (h : ProbeOutcome pdev env s ret t) : t.Live := by
  cases h with
  | notEnabled => exact hs
  | early _ res _ _ _ hres => exact hs.settled hres
  | late _ res dev _ _ _ hres => exact hs.settled hres
  | added dev res _ _ _ hres =>
    refine ⟨List.nodup_cons.mpr ⟨hs.next_notMem, hs.nodup⟩, fun p hp => ?_, fun r hr => ?_⟩
    · change res.vmallocs.Open p
      rw [hres]
      rcases List.mem_cons.mp hp with rfl | hp
      · exact ⟨Nat.lt_succ_self _, fun hmem => Nat.lt_irrefl _ (hs.old _ hmem)⟩
      · exact (hs.isOpen p hp).acquire
    · change r ∈ res.vmallocs.released at hr
      change r < res.vmallocs.next
      rw [hres] at hr ⊢
      exact Nat.lt_succ_of_lt (hs.old r hr)

theorem remove (hs : s.Live) (pdev : π) : (xpciePciRemove pdev s).Live := by
  unfold xpciePciRemove
  cases hfind : s.find pdev with
  | none => exact hs
  | some p =>
    have hp : p ∈ s.fpgaDevList := List.mem_of_find?_eq_some hfind
    refine ⟨hs.nodup.erase p, fun q hq => ?_, fun r hr => ?_⟩
    · obtain ⟨hne, hq⟩ := (hs.nodup.mem_erase_iff).mp hq
      exact (hs.isOpen q hq).release hne
    · rcases List.mem_cons.mp hr with rfl | hr
      · exact (hs.isOpen _ hp).1
      · exact hs.old r hr

theorem step {s t : PciSystem π} {call : PciCall π} (hs : s.driver.Live)
    (h : pciStep s call = some t) : t.driver.Live := by
  cases call with
  | probe pdev env =>
    cases h
    exact hs.probe (xpciePciProbe_cases pdev env s.driver)
  | remove pdev =>
    cases h
    exact hs.remove pdev

omit [DecidableEq π] in
theorem start (infos : ℕ → FpgaDevInfo π) : (PciSystem.start infos).driver.Live :=
  ⟨List.nodup_nil, fun _ hp => absurd hp List.not_mem_nil, fun _ hr => absurd hr List.not_mem_nil⟩

end XpcieState.Live

/-- **In every run** what is in the list was not freed. -/
theorem listed_open (infos : ℕ → FpgaDevInfo π) {calls : List (PciCall π)} {t : PciSystem π}
    (h : run pciStep (.start infos) calls = some t) :
    ∀ p ∈ t.driver.fpgaDevList, t.driver.res.vmallocs.Open p :=
  (run_invariant (I := fun s : PciSystem π => s.driver.Live) (fun _ _ _ hs ht => hs.step ht)
    (.start infos) h).isOpen

/-! ### A device is added -/

section Added

omit [DecidableEq π]

variable (deviceCreate : Bool)

/-- The driver with the device in the list. -/
abbrev XpcieState.withDevice (s : XpcieState π) (dev : FpgaDevInfo π) (res : Resources π)
    (deviceCreate : Bool) : XpcieState π :=
  { s with infos := (s.count dev).1 }.add s.res.vmallocs.next (s.count dev).2 res deviceCreate

theorem infos_withDevice_self : (s.withDevice dev res deviceCreate).infos s.res.vmallocs.next =
    { (s.count dev).2 with cdev := some res.cdevs.next } :=
  Function.update_self ..

theorem infos_withDevice (hs : s.Live) (hp : p ∈ s.fpgaDevList) :
    (s.withDevice dev res deviceCreate).infos p =
      { s.infos p with numDevs := (s.infos p).numDevs + 1 } :=
  (Function.update_of_ne (ne_of_mem_of_not_mem hp hs.next_notMem) ..).trans
    (XpcieState.count_fst hs.nodup hp dev)

theorem listed_withDevice (hs : s.Live) :
    (s.withDevice dev res deviceCreate).listed = dev.pciDev :: s.listed := by
  refine List.cons_eq_cons.mpr ⟨?_, List.map_congr_left fun p hp => ?_⟩
  · dsimp only
    rw [infos_withDevice_self, XpcieState.count_snd]
  · rw [infos_withDevice deviceCreate hs hp]

theorem minors_withDevice (hs : s.Live) :
    (s.withDevice dev res deviceCreate).minors = dev.devId :: s.minors := by
  refine List.cons_eq_cons.mpr ⟨?_, List.map_congr_left fun p hp => ?_⟩
  · dsimp only
    rw [infos_withDevice_self, XpcieState.count_snd]
  · rw [infos_withDevice deviceCreate hs hp]

/-- Different words are at most as many as there are. -/
theorem length_le_of_nodup {w : ℕ} {l : List (BitVec w)} (h : l.Nodup) : l.length ≤ 2 ^ w := by
  have hnodup : (l.map BitVec.toNat).Nodup :=
    (List.nodup_map_iff fun _ _ => BitVec.eq_of_toNat_eq).mpr h
  have hsub : l.map BitVec.toNat ⊆ List.range (2 ^ w) := by
    intro n hn
    obtain ⟨x, -, rfl⟩ := List.mem_map.mp hn
    exact List.mem_range.mpr x.isLt
  have hle := (List.subperm_of_subset hnodup hsub).length_le
  rwa [List.length_map, List.length_range] at hle

/-- The counts after a device with a new number is added. -/
theorem ListRight.withDevice {s : PciSystem π} (hright : ListRight s) (hs : s.driver.Live)
    (hres : res.vmallocs = s.driver.res.vmallocs.acquire) (deviceCreate : Bool)
    (hnew : dev.devId ∉ s.driver.minors) :
    ListRight ⟨s.driver.withDevice dev res deviceCreate, dev.pciDev :: s.bound⟩ := by
  have hminors : (s.driver.withDevice dev res deviceCreate).minors.Nodup := by
    rw [minors_withDevice deviceCreate hs]
    exact List.nodup_cons.mpr ⟨hnew, hright.minors⟩
  have hlen : s.driver.fpgaDevList.length + 1 ≤ 2 ^ 32 := by
    have hle := length_le_of_nodup hminors
    rwa [XpcieState.minors, List.length_map] at hle
  refine ⟨?_, hminors, fun p hp => ?_, fun p hp => ?_⟩
  · change (s.driver.withDevice dev res deviceCreate).listed.Perm _
    rw [listed_withDevice deviceCreate hs]
    exact hright.listed.cons _
  · change ((s.driver.withDevice dev res deviceCreate).infos p).numDevs.toNat + 1 =
      s.driver.fpgaDevList.length + 1
    rcases List.mem_cons.mp hp with rfl | hp
    · rw [infos_withDevice_self, XpcieState.count_snd]
      dsimp only
      rw [BitVec.toNat_ofNat, Nat.mod_eq_of_lt (by omega)]
    · have hcount := hright.counts p hp
      rw [infos_withDevice deviceCreate hs hp]
      dsimp only
      have hone : (1 : BitVec 32).toNat = 1 := rfl
      rw [BitVec.toNat_add, hone]
      omega
  · change res.vmallocs.Open p
    rw [hres]
    rcases List.mem_cons.mp hp with rfl | hp
    · exact ⟨Nat.lt_succ_self _, fun hmem => Nat.lt_irrefl _ (hs.old _ hmem)⟩
    · exact (hright.live p hp).acquire

end Added

/-! ### When the calls are right -/

theorem enable_ne (res : Resources π) (pdev : π) : (res.enable pdev).enabled ≠ res.enabled := by
  intro h
  have hpdev := congrFun h pdev
  change Function.update res.enabled pdev (res.enabled pdev + 1) pdev = _ at hpdev
  rw [Function.update_self] at hpdev
  omega

/-- A probe that fails after the device was enabled leaves it enabled. -/
theorem not_failed {s t : PciSystem π} (hlist : t.driver.fpgaDevList = s.driver.fpgaDevList)
    (hres : (s.driver.res.enable pdev).Settled t.driver.res) :
    ¬ CallRight s (.probe pdev env) t := by
  intro h
  obtain ⟨-, hsettled, -⟩ := h.failed pdev env rfl hlist
  exact enable_ne s.driver.res pdev (hres.enabled.symm.trans hsettled.enabled)

theorem probe_right_iff {s t : PciSystem π} (hs : s.driver.Live) (hright : ListRight s)
    (h : pciStep s (.probe pdev env) = some t) :
    CallRight s (.probe pdev env) t ↔ FairCall s (.probe pdev env) := by
  obtain rfl : (⟨(xpciePciProbe pdev env s.driver).2,
      if (xpciePciProbe pdev env s.driver).1 < 0 then s.bound else pdev :: s.bound⟩ :
      PciSystem π) = t := Option.some.inj h
  have hcases := xpciePciProbe_cases pdev env s.driver
  generalize hret : xpciePciProbe pdev env s.driver = x at hcases ⊢
  obtain ⟨ret, u⟩ := x
  dsimp only at hcases ⊢
  cases hcases with
  | notEnabled hoff =>
    refine iff_of_true ?_ (.inl hoff)
    rw [if_pos hoff]
    refine ⟨hright, ?_⟩
    rintro _ _ ⟨⟩ -
    rw [hret]
    exact ⟨hoff, .refl _, fun _ _ => rfl⟩
  | early _ res _ hon henv hres =>
    refine iff_of_false (not_failed rfl hres) ?_
    rintro (hoff | ⟨hsucc, -⟩)
    · exact hon hoff
    · exact henv hsucc
  | late _ res dev _ hon henv hres =>
    refine iff_of_false (not_failed rfl hres) ?_
    rintro (hoff | ⟨hsucc, -⟩)
    · exact hon hoff
    · exact henv hsucc
  | added dev res henv hid hpci hres =>
    rw [if_neg (Int.lt_irrefl 0)]
    constructor
    · intro hc
      refine .inr ⟨henv, fun p hp heq => ?_⟩
      have hminors : (s.driver.withDevice dev res env.deviceCreate).minors.Nodup := hc.minors
      rw [minors_withDevice env.deviceCreate hs, hid] at hminors
      exact (List.nodup_cons.mp hminors).1 (List.mem_map.mpr ⟨p, hp, heq⟩)
    · rintro (hoff | ⟨-, hnew⟩)
      · exact absurd henv.pciEnableDevice (Int.not_le.mpr hoff)
      · have hfresh : dev.devId ∉ s.driver.minors := by
          rw [hid]
          intro hmem
          obtain ⟨p, hp, heq⟩ := List.mem_map.mp hmem
          exact hnew p hp heq
        have hlist := hright.withDevice hs hres env.deviceCreate hfresh
        rw [hpci] at hlist
        refine ⟨hlist, ?_⟩
        intro _ _ _ hsame
        exact absurd hsame (List.cons_ne_self _ _)

theorem remove_right_iff {s t : PciSystem π} (hs : s.driver.Live) (hright : ListRight s)
    (h : pciStep s (.remove pdev) = some t) :
    CallRight s (.remove pdev) t ↔ FairCall s (.remove pdev) := by
  obtain rfl : (⟨xpciePciRemove pdev s.driver, s.bound.erase pdev⟩ : PciSystem π) = t :=
    Option.some.inj h
  have hlive := hs.remove pdev
  unfold xpciePciRemove at hlive ⊢
  cases hfind : s.driver.find pdev with
  | none =>
    have hnot : pdev ∉ s.driver.listed := by
      intro hmem
      obtain ⟨p, hp, heq⟩ := List.mem_map.mp hmem
      exact absurd heq (by simpa using List.find?_eq_none.mp hfind p hp)
    refine iff_of_true ⟨?_, ?_⟩ (.inl hnot)
    · have hbound : pdev ∉ s.bound := fun hmem => hnot (hright.listed.mem_iff.mpr hmem)
      rw [List.erase_of_not_mem hbound]
      exact hright
    · intro _ _ hprobe
      cases hprobe
  | some p =>
    rw [hfind] at hlive
    have hp : p ∈ s.driver.fpgaDevList := List.mem_of_find?_eq_some hfind
    have hpci : (s.driver.infos p).pciDev = pdev := by simpa using List.find?_some hfind
    have hlen := List.length_erase_of_mem hp
    constructor
    · intro hc
      right
      by_contra hne
      have hpos := List.length_pos_of_mem hp
      obtain ⟨q, hq⟩ := List.exists_mem_of_length_pos (l := s.driver.fpgaDevList.erase p) (by omega)
      have hbefore := hright.counts q (List.mem_of_mem_erase hq)
      have hafter : (s.driver.infos q).numDevs.toNat + 1 = (s.driver.fpgaDevList.erase p).length :=
        hc.counts q hq
      omega
    · rintro (hnot | hone)
      · exact absurd (List.mem_map.mpr ⟨p, hp, hpci⟩) hnot
      obtain ⟨q, hq⟩ := List.length_eq_one_iff.mp hone
      have hnil : s.driver.fpgaDevList.erase p = [] := List.length_eq_zero_iff.mp (by omega)
      have hlisted : s.driver.listed = [pdev] := by
        rw [hq, List.mem_singleton] at hp
        rw [XpcieState.listed, hq, List.map_singleton, ← hp, hpci]
      have hbound : s.bound = [pdev] := by
        have hperm := hright.listed
        rw [hlisted] at hperm
        exact List.perm_singleton.mp hperm.symm
      refine ⟨⟨?_, ?_, ?_, hlive.isOpen⟩, ?_⟩
      · change List.Perm (List.map _ (s.driver.fpgaDevList.erase p)) (s.bound.erase pdev)
        rw [hnil, hbound, List.erase_cons_head]
        exact .refl _
      · change (List.map _ (s.driver.fpgaDevList.erase p)).Nodup
        rw [hnil]
        exact List.nodup_nil
      · change ∀ q ∈ s.driver.fpgaDevList.erase p, _
        rw [hnil]
        intro q hq
        cases hq
      · intro _ _ hprobe
        cases hprobe

/-- **Probing and removing** is right after every call of a run exactly if each probe fails at once or
does not fail and gets a number that is free, and no device is removed beside another. -/
theorem callsRight_iff (infos : ℕ → FpgaDevInfo π) (calls : List (PciCall π)) :
    Along pciStep (fun s call => ∀ t, pciStep s call = some t → CallRight s call t)
        (.start infos) calls ↔
      Along pciStep FairCall (.start infos) calls := by
  have hiff : ∀ (s : PciSystem π) call t, s.driver.Live ∧ ListRight s → pciStep s call = some t →
      (CallRight s call t ↔ FairCall s call) := by
    intro s call t hs ht
    cases call with
    | probe pdev env => exact probe_right_iff hs.1 hs.2 ht
    | remove pdev => exact remove_right_iff hs.1 hs.2 ht
  refine along_iff_along (I := fun s : PciSystem π => s.driver.Live ∧ ListRight s) (fun s call t hs hC ht => ?_)
    (fun s call t hs ht => ?_) ⟨.start infos, ?_⟩
  · exact ⟨hs.1.step ht, ((hiff s call t hs ht).mpr hC).toListRight⟩
  · rw [← hiff s call t hs ht]
    constructor
    · exact fun h => h t ht
    · intro h u hu
      cases ht.symm.trans hu
      exact h
  · exact ⟨.refl _, List.nodup_nil, fun _ hp => absurd hp List.not_mem_nil,
      fun _ hp => absurd hp List.not_mem_nil⟩

/-- A probe in which all succeeds, but there is no upstream bridge. -/
def ProbeEnv.noBridge : ProbeEnv := ⟨0, true, true, 0, fun _ => true, 0, false, 0, true⟩

/-- The first probe finds no upstream bridge, and returns 0. -/
theorem not_callsRight :
    ¬ ∀ (infos : ℕ → FpgaDevInfo ℕ) (calls : List (PciCall ℕ)),
      Along pciStep (fun s call => ∀ t, pciStep s call = some t → CallRight s call t)
        (.start infos) calls := by
  intro h
  have hright := (h (fun _ => .new 0 0) [.probe 7 .noBridge] _ rfl).1 _ rfl
  have hneg := (hright.failed 7 .noBridge rfl rfl).1
  have hret : (xpciePciProbe 7 .noBridge (PciSystem.start fun _ => FpgaDevInfo.new 0 0).driver).1 =
    0 := rfl
  rw [hret] at hneg
  exact Int.lt_irrefl 0 hneg

end HardwareDrivers.Driver.Probe
