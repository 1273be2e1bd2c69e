import HardwareDrivers.Theory.Transition
import Mathlib.Data.BitVec

/-!
# The reference count

`libxpcie.c`: a lane of a module has a counter, `-1` while a bitstream is written and the
number of users otherwise. A command goes through a list of counters: it asks whether any of
them has some value, and then changes all of them.

## What is proved

* `control_refines` — on counters that agree, a command does what it does to the one use of
  the device that they show.
* `control_of_error` — a command that fails changes nothing.
* `refcount_excludes` — in every run the counters agree, and show the users or the writer.
-/

namespace HardwareDrivers.Driver

open Theory

/-- `xpcie_refcount_cmd_t`. -/
inductive RefcountCmd where
  /-- `XPCIE_DEV_REFCOUNT_INC`: start using. -/
  | inc
  /-- `XPCIE_DEV_REFCOUNT_DEC`: finish using. -/
  | dec
  /-- `XPCIE_DEV_REFCOUNT_WRITE`: start writing. -/
  | write
  /-- `XPCIE_DEV_REFCOUNT_CLEAR`: finish writing. -/
  | clear
  /-- `XPCIE_DEV_REFCOUNT_GET`. -/
  | get
  /-- `XPCIE_DEV_REFCOUNT_RST`: forced set 0. -/
  | rst
  /-- Any other value. -/
  | other (value : ℕ)
  deriving DecidableEq, Repr

/-- How a command fails. -/
inductive RefcountErrno where
  /-- `XPCIE_DEV_REFCOUNT_WRITING`. -/
  | writing
  /-- `XPCIE_DEV_REFCOUNT_USING`. -/
  | inUse
  /-- `EFAULT`. -/
  | efault
  /-- `EBUSY`. -/
  | ebusy
  /-- `ENODEV`. -/
  | enodev
  /-- `EINVAL`. -/
  | einval
  deriving DecidableEq, Repr

/-- The counters, and what the last `XPCIE_DEV_REFCOUNT_GET` stored for its caller. -/
structure Refcounts (ι : Type*) where
  /-- Each counter. -/
  refcount : ι → BitVec 32
  /-- `refcount_get`. -/
  refcountGet : BitVec 32

variable {ι : Type*} [DecidableEq ι]

/-! ### The passes through a list -/

/-- `__add_refcount_list`. -/
def addRefcountList (refcountList : List ι) (refcountAdd : BitVec 32) (r : ι → BitVec 32) :
    ι → BitVec 32 :=
  refcountList.foldl (fun r c => Function.update r c (r c + refcountAdd)) r

/-- `__set_refcount_list`. -/
def setRefcountList (refcountList : List ι) (refcountSet : BitVec 32) (r : ι → BitVec 32) :
    ι → BitVec 32 :=
  refcountList.foldl (fun r c => Function.update r c refcountSet) r

/-- `__get_refcount_list`. -/
def getRefcountList (refcountList : List ι) (r : ι → BitVec 32) : BitVec 32 :=
  refcountList.foldl (fun sum c => sum + r c) 0

/-- `__is_refcount_any`. -/
def isRefcountAny (refcountList : List ι) (refcountCmp : BitVec 32)
    (clb : BitVec 32 → BitVec 32 → Bool) (r : ι → BitVec 32) : Bool :=
  refcountList.any fun c => clb (r c) refcountCmp

/-- `__clb_is_same`. -/
def clbIsSame (refcount refcountCmp : BitVec 32) : Bool := refcount == refcountCmp

/-- `__clb_is_differ`. -/
def clbIsDiffer (refcount refcountCmp : BitVec 32) : Bool := refcount != refcountCmp

/-- `__clb_is_less`. -/
def clbIsLess (refcount refcountCmp : BitVec 32) : Bool := refcount.slt refcountCmp

/-- `__is_refcount_any_same`. -/
def isRefcountAnySame (refcountList : List ι) (refcountCmp : BitVec 32) (r : ι → BitVec 32) : Bool :=
  isRefcountAny refcountList refcountCmp clbIsSame r

/-- `__is_refcount_any_less`. -/
def isRefcountAnyLess (refcountList : List ι) (refcountCmp : BitVec 32) (r : ι → BitVec 32) : Bool :=
  isRefcountAny refcountList refcountCmp clbIsLess r

/-- `__is_refcount_any_differ`. -/
def isRefcountAnyDiffer (refcountList : List ι) (refcountCmp : BitVec 32) (r : ι → BitVec 32) :
    Bool :=
  isRefcountAny refcountList refcountCmp clbIsDiffer r

/-- `__control_refcount_status`. -/
def controlRefcountStatus (refcountList : List ι) (cmd : RefcountCmd) (s : Refcounts ι) :
    Except RefcountErrno Unit × Refcounts ι :=
  if refcountList.isEmpty then (.error .enodev, s)
  else match cmd with
    | .inc =>
      if isRefcountAnySame refcountList (-1) s.refcount then (.error .writing, s)
      else if isRefcountAnyLess refcountList 0 s.refcount then (.error .efault, s)
      else (.ok (), { s with refcount := addRefcountList refcountList 1 s.refcount })
    | .dec =>
      if isRefcountAnySame refcountList (-1) s.refcount then (.error .writing, s)
      else if isRefcountAnyLess refcountList 0 s.refcount then (.error .efault, s)
      else if isRefcountAnySame refcountList 0 s.refcount then (.error .ebusy, s)
      else (.ok (), { s with refcount := addRefcountList refcountList (-1) s.refcount })
    | .write =>
      if isRefcountAnySame refcountList (-1) s.refcount then (.error .writing, s)
      else if isRefcountAnyLess refcountList 0 s.refcount then (.error .efault, s)
      else if isRefcountAnyDiffer refcountList 0 s.refcount then (.error .inUse, s)
      else (.ok (), { s with refcount := setRefcountList refcountList (-1) s.refcount })
    | .clear =>
      if isRefcountAnyDiffer refcountList (-1) s.refcount then (.error .inUse, s)
      else (.ok (), { s with refcount := setRefcountList refcountList 0 s.refcount })
    | .rst => (.ok (), { s with refcount := setRefcountList refcountList 0 s.refcount })
    | .get => (.ok (), { s with refcountGet := getRefcountList refcountList s.refcount })
    | .other _ => (.error .einval, s)

/-! ### What a pass does -/

variable {refcountList : List ι} {r : ι → BitVec 32} {s t : Refcounts ι}

theorem setRefcountList_apply (v : BitVec 32) (r : ι → BitVec 32) (c : ι) :
    setRefcountList refcountList v r c = if c ∈ refcountList then v else r c := by
  unfold setRefcountList
  induction refcountList generalizing r with
  | nil => simp
  | cons d ds ih =>
    rw [List.foldl_cons, ih]
    by_cases hc : c = d
    · subst hc
      simp
    · simp [hc]

theorem addRefcountList_apply (hnd : refcountList.Nodup) (v : BitVec 32) (r : ι → BitVec 32) (c : ι) :
    addRefcountList refcountList v r c = if c ∈ refcountList then r c + v else r c := by
  unfold addRefcountList
  induction refcountList generalizing r with
  | nil => simp
  | cons d ds ih =>
    obtain ⟨hd, hds⟩ := List.nodup_cons.mp hnd
    rw [List.foldl_cons, ih hds]
    by_cases hc : c = d
    · subst hc
      simp [hd]
    · simp [hc]

omit [DecidableEq ι] in
/-- A question about counters that agree is one about their value. -/
theorem isRefcountAny_of_const (hne : refcountList ≠ []) {v : BitVec 32}
    (h : ∀ c ∈ refcountList, r c = v) (cmp : BitVec 32) (clb : BitVec 32 → BitVec 32 → Bool) :
    isRefcountAny refcountList cmp clb r = clb v cmp := by
  unfold isRefcountAny
  obtain ⟨d, hd⟩ := List.exists_mem_of_ne_nil _ hne
  rw [Bool.eq_iff_iff, List.any_eq_true]
  constructor
  · rintro ⟨c, hc, hclb⟩
    rwa [h c hc] at hclb
  · intro hclb
    exact ⟨d, hd, by rwa [h d hd]⟩

/-- **A command that fails changes nothing.** -/
theorem control_of_error {cmd : RefcountCmd} {e : RefcountErrno}
    (h : (controlRefcountStatus refcountList cmd s).1 = .error e) :
    (controlRefcountStatus refcountList cmd s).2 = s := by
  unfold controlRefcountStatus at h ⊢
  cases cmd <;> grind

theorem refcount_of_ne_ok {cmd : RefcountCmd}
    (h : (controlRefcountStatus refcountList cmd s).1 ≠ .ok ()) :
    (controlRefcountStatus refcountList cmd s).2.refcount = s.refcount := by
  cases hout : (controlRefcountStatus refcountList cmd s).1 with
  | ok u => exact absurd hout h
  | error e => rw [control_of_error hout]

omit [DecidableEq ι] in
theorem isRefcountAnyDiffer_eq_false {v : BitVec 32} :
    isRefcountAnyDiffer refcountList v r = false ↔ ∀ c ∈ refcountList, r c = v := by
  unfold isRefcountAnyDiffer isRefcountAny clbIsDiffer
  simp

/-- Writing can only start where every counter is `0`. -/
theorem control_write_of_ok
    (h : (controlRefcountStatus refcountList .write s).1 = .ok ()) :
    refcountList ≠ [] ∧ (∀ c ∈ refcountList, s.refcount c = 0) ∧
      (controlRefcountStatus refcountList .write s).2 =
        { s with refcount := setRefcountList refcountList (-1) s.refcount } := by
  cases hempty : refcountList.isEmpty with
  | true => simp [controlRefcountStatus, hempty] at h
  | false =>
    simp only [controlRefcountStatus, hempty] at h ⊢
    cases hdiffer : isRefcountAnyDiffer refcountList 0 s.refcount with
    | true => grind
    | false =>
      refine ⟨by simpa using hempty, isRefcountAnyDiffer_eq_false.mp hdiffer, ?_⟩
      grind

/-- Writing can only finish where every counter is `-1`. -/
theorem control_clear_ok_iff :
    (controlRefcountStatus refcountList .clear s).1 = .ok () ↔
      refcountList ≠ [] ∧ ∀ c ∈ refcountList, s.refcount c = -1 := by
  rw [← isRefcountAnyDiffer_eq_false, ne_eq, ← List.isEmpty_iff]
  cases hempty : refcountList.isEmpty with
  | true => simp [controlRefcountStatus, hempty]
  | false =>
    simp only [controlRefcountStatus, hempty]
    cases hdiffer : isRefcountAnyDiffer refcountList (-1) s.refcount with
    | true => simp
    | false => simp

theorem control_clear_of_ok
    (h : (controlRefcountStatus refcountList .clear s).1 = .ok ()) :
    (controlRefcountStatus refcountList .clear s).2 =
      { s with refcount := setRefcountList refcountList 0 s.refcount } := by
  simp only [controlRefcountStatus] at h ⊢
  grind

/-- While a counter is `-1`, only `CLEAR` and `RST` change any. -/
theorem control_of_neg_one {c : ι} (hc : c ∈ refcountList) (hr : s.refcount c = -1)
    {cmd : RefcountCmd} (hclear : cmd ≠ .clear) (hrst : cmd ≠ .rst) :
    (controlRefcountStatus refcountList cmd s).2.refcount = s.refcount := by
  have hsame : isRefcountAnySame refcountList (-1) s.refcount = true :=
    List.any_eq_true.mpr ⟨c, hc, by simp [clbIsSame, hr]⟩
  unfold controlRefcountStatus
  simp only [hsame, if_true]
  split
  · rfl
  · cases cmd with
    | inc | dec | write | get | other => rfl
    | clear => exact absurd rfl hclear
    | rst => exact absurd rfl hrst

/-! ### The use of a device -/

/-- What the counters are for. -/
inductive DeviceUse where
  /-- So many users. -/
  | used (users : ℕ)
  /-- A bitstream is being written. -/
  | writing
  deriving DecidableEq, Repr

/-- What a command makes of it, if it may. -/
def DeviceUse.step : DeviceUse → RefcountCmd → Option DeviceUse
  | .used n, .inc => some (.used (n + 1))
  | .used (n + 1), .dec => some (.used n)
  | .used 0, .write => some .writing
  | .writing, .clear => some (.used 0)
  | _, .rst => some (.used 0)
  | use, .get => some use
  | _, _ => none

/-- How a counter shows it. -/
def DeviceUse.count : DeviceUse → BitVec 32
  | .used n => BitVec.ofNat 32 n
  | .writing => -1

/-- It fits in a counter. -/
def DeviceUse.Fits : DeviceUse → Prop
  | .used n => n < 2 ^ 31
  | .writing => True

theorem DeviceUse.toInt_used {n : ℕ} (h : (used n).Fits) : (used n).count.toInt = n := by
  have hn : n < 2 ^ 31 := h
  unfold count
  rw [BitVec.toInt_eq_toNat_of_lt] <;> simp only [BitVec.toNat_ofNat] <;> omega

theorem DeviceUse.count_eq_neg_one {use : DeviceUse} (h : use.Fits) :
    use.count = -1 ↔ use = .writing := by
  cases use with
  | used n =>
    refine iff_of_false ?_ (by simp)
    intro hc
    have hn := toInt_used h
    rw [hc] at hn
    have h1 : ((-1 : BitVec 32)).toInt = -1 := by decide
    omega
  | writing => exact iff_of_true rfl rfl

theorem DeviceUse.count_eq_zero {use : DeviceUse} (h : use.Fits) :
    use.count = 0 ↔ use = .used 0 := by
  cases use with
  | used n =>
    constructor
    · intro hc
      have hn := toInt_used h
      rw [hc] at hn
      have h0 : ((0 : BitVec 32)).toInt = 0 := by decide
      rw [show n = 0 by omega]
    · intro hc
      cases hc
      rfl
  | writing => exact iff_of_false (by decide) (by simp)

theorem DeviceUse.count_succ (n : ℕ) : (used (n + 1)).count + (-1) = (used n).count := by
  change BitVec.ofNat 32 (n + 1) + -1 = BitVec.ofNat 32 n
  have h1 : (1#32 + -1) = 0#32 := rfl
  rw [BitVec.ofNat_add, BitVec.add_assoc, h1, BitVec.add_zero]

theorem clbIsSame_neg_one {use : DeviceUse} (h : use.Fits) :
    clbIsSame use.count (-1) = decide (use = .writing) :=
  decide_eq_decide.mpr (DeviceUse.count_eq_neg_one h)

theorem clbIsSame_zero {use : DeviceUse} (h : use.Fits) :
    clbIsSame use.count 0 = decide (use = .used 0) :=
  decide_eq_decide.mpr (DeviceUse.count_eq_zero h)

theorem clbIsDiffer_eq (a b : BitVec 32) : clbIsDiffer a b = !clbIsSame a b := rfl

/-- Only a writer is shown by less than zero. -/
theorem clbIsLess_zero {use : DeviceUse} (h : use.Fits) :
    clbIsLess use.count 0 = decide (use = .writing) := by
  cases use with
  | used n =>
    have hn := DeviceUse.toInt_used h
    have h0 : ((0 : BitVec 32)).toInt = 0 := by decide
    rw [clbIsLess, BitVec.slt, hn, h0, decide_eq_decide]
    exact iff_of_false (by omega) (by simp)
  | writing => rfl

/-- Every counter shows the use. -/
def DeviceUse.Shown (use : DeviceUse) (refcountList : List ι) (r : ι → BitVec 32) : Prop :=
  ∀ c ∈ refcountList, r c = use.count

section
variable {use : DeviceUse}

theorem DeviceUse.shown_set (v : DeviceUse) (r : ι → BitVec 32) :
    v.Shown refcountList (setRefcountList refcountList v.count r) := by
  intro c hc
  rw [setRefcountList_apply, if_pos hc]

theorem DeviceUse.Shown.add (h : use.Shown refcountList r) (hnd : refcountList.Nodup)
    {v : BitVec 32} {use' : DeviceUse} (hv : use.count + v = use'.count) :
    use'.Shown refcountList (addRefcountList refcountList v r) := by
  intro c hc
  rw [addRefcountList_apply hnd, if_pos hc, h c hc, hv]

/-- **On counters that agree, a command does what it does to the use that they show.** -/
theorem control_refines (hne : refcountList ≠ []) (hnd : refcountList.Nodup)
    (h : use.Shown refcountList s.refcount) (hfits : use.Fits) (cmd : RefcountCmd) :
    (∃ use', use.step cmd = some use' ∧
        (controlRefcountStatus refcountList cmd s).1 = .ok () ∧
        use'.Shown refcountList (controlRefcountStatus refcountList cmd s).2.refcount) ∨
      (use.step cmd = none ∧ ∃ e, (controlRefcountStatus refcountList cmd s).1 = .error e) := by
  have hempty : refcountList.isEmpty = false := by simpa using hne
  have hany := isRefcountAny_of_const hne h
  simp only [controlRefcountStatus, hempty, isRefcountAnySame, isRefcountAnyLess,
    isRefcountAnyDiffer, hany, clbIsDiffer_eq, clbIsSame_neg_one hfits, clbIsSame_zero hfits,
    clbIsLess_zero hfits]
  cases use with
  | used n =>
    cases cmd with
    | inc => exact .inl ⟨.used (n + 1), rfl, rfl, h.add hnd (BitVec.ofNat_add n 1).symm⟩
    | dec =>
      cases n with
      | zero => exact .inr ⟨rfl, .ebusy, rfl⟩
      | succ n =>
        refine .inl ⟨.used n, rfl, by simp, ?_⟩
        simpa using h.add hnd (DeviceUse.count_succ n)
    | write =>
      cases n with
      | zero => exact .inl ⟨.writing, rfl, rfl, DeviceUse.shown_set .writing _⟩
      | succ n => exact .inr ⟨rfl, .inUse, by simp⟩
    | clear => exact .inr ⟨by cases n <;> rfl, .inUse, rfl⟩
    | get => exact .inl ⟨.used n, by cases n <;> rfl, rfl, h⟩
    | rst => exact .inl ⟨.used 0, by cases n <;> rfl, rfl, DeviceUse.shown_set (.used 0) _⟩
    | other v => exact .inr ⟨by cases n <;> rfl, .einval, rfl⟩
  | writing =>
    cases cmd with
    | inc => exact .inr ⟨rfl, .writing, rfl⟩
    | dec => exact .inr ⟨rfl, .writing, rfl⟩
    | write => exact .inr ⟨rfl, .writing, rfl⟩
    | clear => exact .inl ⟨.used 0, rfl, rfl, DeviceUse.shown_set (.used 0) _⟩
    | get => exact .inl ⟨.writing, rfl, rfl, h⟩
    | rst => exact .inl ⟨.used 0, rfl, rfl, DeviceUse.shown_set (.used 0) _⟩
    | other v => exact .inr ⟨rfl, .einval, rfl⟩

end

/-! ### Runs -/

/-- A device between two commands. -/
structure RefcountRun (ι : Type*) where
  /-- Its counters. -/
  counters : Refcounts ι
  /-- The commands that returned `0`, the last first. -/
  granted : List RefcountCmd

/-- A step of a run: a command. -/
def refcountStep (refcountList : List ι) (s : RefcountRun ι) (cmd : RefcountCmd) :
    Option (RefcountRun ι) :=
  match controlRefcountStatus refcountList cmd s.counters with
  | (.ok (), counters) => some ⟨counters, cmd :: s.granted⟩
  | (.error _, counters) => some ⟨counters, s.granted⟩

/-- Successful `INC`s less successful `DEC`s since the counters were last set to `0`. -/
def outstanding : List RefcountCmd → ℤ
  | [] => 0
  | .inc :: cmds => outstanding cmds + 1
  | .dec :: cmds => outstanding cmds - 1
  | .clear :: _ => 0
  | .rst :: _ => 0
  | _ :: cmds => outstanding cmds

/-- A `WRITE` succeeded, and no `CLEAR` or `RST` since. -/
def isWriting : List RefcountCmd → Bool
  | [] => false
  | .write :: _ => true
  | .clear :: _ => false
  | .rst :: _ => false
  | _ :: cmds => isWriting cmds

/-- The commands that succeeded led to this use. -/
def DeviceUse.Follows (granted : List RefcountCmd) : DeviceUse → Prop
  | .used n => isWriting granted = false ∧ outstanding granted = n
  | .writing => isWriting granted = true ∧ outstanding granted = 0

theorem DeviceUse.Follows.step {use use' : DeviceUse} {granted : List RefcountCmd} {cmd : RefcountCmd}
    (h : use.Follows granted) (hstep : use.step cmd = some use') : use'.Follows (cmd :: granted) := by
  cases use with
  | used n =>
    obtain ⟨hw, ho⟩ := h
    cases cmd with
    | inc => cases hstep; exact ⟨hw, by simp [outstanding, ho]⟩
    | dec =>
      cases n with
      | zero => cases hstep
      | succ n => cases hstep; exact ⟨hw, by simp [outstanding, ho]⟩
    | write =>
      cases n with
      | zero => cases hstep; exact ⟨rfl, ho⟩
      | succ n => cases hstep
    | clear => cases n <;> cases hstep
    | get => cases n <;> cases hstep <;> exact ⟨hw, ho⟩
    | rst => cases n <;> cases hstep <;> exact ⟨rfl, rfl⟩
    | other v => cases n <;> cases hstep
  | writing =>
    obtain ⟨hw, ho⟩ := h
    cases cmd with
    | clear => cases hstep; exact ⟨rfl, rfl⟩
    | get => cases hstep; exact ⟨hw, ho⟩
    | rst => cases hstep; exact ⟨rfl, rfl⟩
    | inc | dec | write | other => cases hstep

/-- Reading the counters, the commands that succeeded, and what the next command may do. -/
structure Excludes (refcountList : List ι) (s : RefcountRun ι) : Prop where
  /-- The counters are equal. -/
  agree : ∀ c ∈ refcountList, ∀ d ∈ refcountList, s.counters.refcount c = s.counters.refcount d
  /-- They are `-1` exactly while a bitstream is written. -/
  writing : (∀ c ∈ refcountList, s.counters.refcount c = -1) ↔ isWriting s.granted = true
  /-- Otherwise they are the number of users. -/
  users : isWriting s.granted = false →
    0 ≤ outstanding s.granted ∧
      ∀ c ∈ refcountList, (s.counters.refcount c).toInt = outstanding s.granted
  /-- Writing starts where there are no users. -/
  write_free : (controlRefcountStatus refcountList .write s.counters).1 = .ok () →
    ∀ c ∈ refcountList, s.counters.refcount c = 0
  /-- While a bitstream is written nobody starts or finishes using. -/
  busy : isWriting s.granted = true → ∀ cmd, cmd = .inc ∨ cmd = .dec →
    (controlRefcountStatus refcountList cmd s.counters).1 ≠ .ok ()
  /-- A command that fails leaves the counters as they are. -/
  fails : ∀ cmd, (controlRefcountStatus refcountList cmd s.counters).1 ≠ .ok () →
    (controlRefcountStatus refcountList cmd s.counters).2.refcount = s.counters.refcount

/-- Fewer outstanding `INC`s than a counter can count. -/
def HasRoom (s : RefcountRun ι) : Prop := outstanding s.granted < 2 ^ 31 - 1

instance (s : RefcountRun ι) : Decidable (HasRoom s) := inferInstanceAs (Decidable (_ < _))

/-- The counters show the use that the commands led to. -/
def ShowsUse (refcountList : List ι) (s : RefcountRun ι) : Prop :=
  ∃ use : DeviceUse, use.Shown refcountList s.counters.refcount ∧ use.Follows s.granted

omit [DecidableEq ι] in
theorem DeviceUse.Follows.fits {use : DeviceUse} {s : RefcountRun ι} (h : use.Follows s.granted)
    (hroom : HasRoom s) : use.Fits := by
  cases use with
  | used n =>
    have ho : outstanding s.granted = n := h.2
    have hlt : outstanding s.granted < 2 ^ 31 - 1 := hroom
    change n < 2 ^ 31
    omega
  | writing => trivial

theorem ShowsUse.step {s t : RefcountRun ι} (hne : refcountList ≠ []) (hnd : refcountList.Nodup)
    (hs : ShowsUse refcountList s) (hroom : HasRoom s) {cmd : RefcountCmd}
    (ht : refcountStep refcountList s cmd = some t) : ShowsUse refcountList t := by
  obtain ⟨use, hshown, hfollows⟩ := hs
  have hcases := control_refines hne hnd hshown (hfollows.fits hroom) cmd
  unfold refcountStep at ht
  generalize hout : controlRefcountStatus refcountList cmd s.counters = out at ht hcases
  obtain ⟨r, counters⟩ := out
  obtain ⟨use', hstep, hok, hshown'⟩ | ⟨-, e, he⟩ := hcases
  · cases hok
    cases ht
    exact ⟨use', hshown', hfollows.step hstep⟩
  · cases he
    cases ht
    have hsame := control_of_error (congrArg Prod.fst hout)
    rw [hout] at hsame
    cases hsame
    exact ⟨use, hshown, hfollows⟩

theorem ShowsUse.excludes {s : RefcountRun ι} (hne : refcountList ≠ []) (hnd : refcountList.Nodup)
    (hs : ShowsUse refcountList s) (hroom : HasRoom s) : Excludes refcountList s := by
  obtain ⟨use, hshown, hfollows⟩ := hs
  have hfits := hfollows.fits hroom
  have hrefines := control_refines hne hnd hshown hfits
  obtain ⟨c₀, hc₀⟩ := List.exists_mem_of_ne_nil _ hne
  cases use with
  | used n =>
    obtain ⟨hw, ho⟩ := hfollows
    refine ⟨fun c hc d hd => (hshown c hc).trans (hshown d hd).symm, ?_, ?_, ?_, ?_, ?_⟩
    · refine iff_of_false (fun h => ?_) (by simp [hw])
      have hneg := (DeviceUse.count_eq_neg_one hfits).mp ((hshown c₀ hc₀).symm.trans (h c₀ hc₀))
      cases hneg
    · exact fun _ => ⟨by omega, fun c hc => by rw [hshown c hc, DeviceUse.toInt_used hfits, ho]⟩
    · intro hok c hc
      obtain ⟨use', hstep, -, -⟩ | ⟨-, e, he⟩ := hrefines .write
      · cases n with
        | zero => exact hshown c hc
        | succ n => cases hstep
      · cases he.symm.trans hok
    · intro h
      cases h.symm.trans hw
    · exact fun cmd => refcount_of_ne_ok
  | writing =>
    obtain ⟨hw, -⟩ := hfollows
    refine ⟨fun c hc d hd => (hshown c hc).trans (hshown d hd).symm, ?_, ?_, ?_, ?_, ?_⟩
    · exact iff_of_true hshown hw
    · intro h
      cases h.symm.trans hw
    · intro hok
      obtain ⟨use', hstep, -, -⟩ | ⟨-, e, he⟩ := hrefines .write
      · cases hstep
      · cases he.symm.trans hok
    · intro _ cmd hcmd hok
      obtain ⟨use', hstep, -, -⟩ | ⟨-, e, he⟩ := hrefines cmd
      · obtain rfl | rfl := hcmd <;> cases hstep
      · cases he.symm.trans hok
    · exact fun cmd => refcount_of_ne_ok

/-- **The reference count excludes writing and using.** -/
theorem refcount_excludes {ι : Type*} [DecidableEq ι] (refcountList : List ι)
    (hne : refcountList ≠ []) (hnd : refcountList.Nodup) (s : Refcounts ι)
    (hzero : ∀ c ∈ refcountList, s.refcount c = 0) (cmds : List RefcountCmd)
    (hroom : Always (refcountStep refcountList) HasRoom ⟨s, []⟩ cmds) :
    Always (refcountStep refcountList) (Excludes refcountList) ⟨s, []⟩ cmds := by
  have hstart : ShowsUse refcountList ⟨s, []⟩ := ⟨.used 0, hzero, rfl, rfl⟩
  have hboth := always_and_of_always
    (fun s cmd t hs hroom ht => ShowsUse.step hne hnd hs hroom ht) hstart hroom
  exact hboth.mono fun s hs => hs.1.excludes hne hnd hs.2

/-- Two counters. -/
theorem refcount_excludes_two :
    Always (refcountStep [true, false]) (Excludes [true, false]) ⟨⟨fun _ => 0, 0⟩, []⟩
      [.inc, .write, .get, .dec, .write, .inc, .clear, .rst, .dec] :=
  refcount_excludes [true, false] (by simp) (by decide) ⟨fun _ => 0, 0⟩ (fun _ _ => rfl) _
    (by decide)

end HardwareDrivers.Driver
