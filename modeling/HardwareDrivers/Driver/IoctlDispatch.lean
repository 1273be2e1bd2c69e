import HardwareDrivers.Driver.RefcountDev

/-!
# The dispatch of ioctls

`xpcie_cdev_ioctl`: a command is offered to the modules of the driver in turn. Whether a
module knew it is left in `is_valid_command`, in the private data of the file, which all
calls on one descriptor share.

## What is proved

* `Progress.right_iff_of_some`, `Progress.right_iff_of_none` — what a call is to return, by
  what was executed of it.
* `sound_step`, `lost_of_not_meets`, `lost_step` — a test that meets the condition leaves its
  call on its way, one that does not loses its result, for good.
* `ioctl_dispatch_iff` — the calls all return, and come out right exactly if every test
  meets the condition.
-/

namespace HardwareDrivers.Driver

open Theory

/-! ### The modules -/

/-- The functions that a command is offered to. -/
inductive IoctlModule where
  /-- `xpcie_fpga_ioctl`. -/
  | driver
  /-- `xpcie_fpga_ioctl_lldma`. -/
  | lldma
  /-- `xpcie_fpga_ioctl_chain`. -/
  | chain
  /-- `xpcie_fpga_ioctl_direct`. -/
  | direct
  /-- `xpcie_fpga_ioctl_cms`. -/
  | cms
  /-- `xpcie_fpga_ioctl_global`. -/
  | global
  deriving DecidableEq, Repr

/-- The order of `xpcie_cdev_ioctl`. -/
def ioctlModules : List IoctlModule := [.driver, .lldma, .chain, .direct, .cms, .global]

/-- `#if defined(ENABLE_MODULE_*)`. -/
def IoctlModule.enabled (build : BuildOptions) : IoctlModule → Bool
  | .driver => true
  | .lldma => build.enableModule .lldma
  | .chain => build.enableModule .chain
  | .direct => build.enableModule .direct
  | .cms => build.enableModule .cms
  | .global => build.enableModule .global

/-- The modules that are built in. -/
def enabledModules (build : BuildOptions) : List IoctlModule :=
  ioctlModules.filter (·.enabled build)

/-- The `case` labels of a module, by the numbers of the commands in `xpcie_device.h`. Any number
that is not there stands for a command that no module knows. -/
def IoctlModule.knows : IoctlModule → ℕ → Bool
  | .driver, cmd => 0x01 ≤ cmd && cmd ≤ 0x09
  | .lldma, cmd => 0x10 ≤ cmd && cmd ≤ 0x1a
  | .chain, cmd => (0x60 ≤ cmd && cmd ≤ 0x69) || (0x70 ≤ cmd && cmd ≤ 0x9e)
  | .direct, cmd => 0xa0 ≤ cmd && cmd ≤ 0xb3
  | .cms, cmd => 0xd0 ≤ cmd && cmd ≤ 0xd3
  | .global, cmd => 0x40 ≤ cmd && cmd ≤ 0x51

/-- No command has labels in two modules. -/
theorem IoctlModule.knows_unique {m m' : IoctlModule} {cmd : ℕ} (h : m.knows cmd = true)
    (h' : m'.knows cmd = true) : m = m' := by
  cases m <;> cases m' <;> simp only [IoctlModule.knows, Bool.or_eq_true, Bool.and_eq_true,
    decide_eq_true_eq] at h h' <;> first | rfl | omega

theorem enabledModules_nodup (build : BuildOptions) : (enabledModules build).Nodup :=
  List.Nodup.filter _ (by decide)

/-! ### The calls -/

/-- A call of `ioctl`. -/
structure Ioctl (α : Type) where
  /-- `cmd`. -/
  cmd : ℕ
  /-- `arg`, and what it points to. -/
  arg : α

/-- `-EINVAL`. -/
def einval : ℤ := -22

/-- Where a call is in `xpcie_cdev_ioctl`, with the modules that come after this one. -/
inductive IoctlPoint where
  /-- At `private->is_valid_command = true`. -/
  | setValid (m : IoctlModule) (rest : List IoctlModule)
  /-- At the function of the module. -/
  | runModule (m : IoctlModule) (rest : List IoctlModule)
  /-- At `if (private->is_valid_command)`, with `ret` of this module. -/
  | testValid (m : IoctlModule) (rest : List IoctlModule) (ret : ℤ)
  /-- The call has returned. -/
  | finish (ret : ℤ)
  deriving DecidableEq

/-- On to the next module, or to `xpcie_cdev_ioctl_finish`. -/
def IoctlPoint.goOn : List IoctlModule → ℤ → IoctlPoint
  | [], ret => .finish ret
  | m :: rest, _ => .setValid m rest

/-- What a test makes of a call. -/
def IoctlPoint.tested (isValidCommand : Bool) (rest : List IoctlModule) (ret : ℤ) : IoctlPoint :=
  if isValidCommand then .finish ret else .goOn rest ret

/-- The start of a call. -/
def IoctlPoint.start (build : BuildOptions) : IoctlPoint := .goOn (enabledModules build) 0

/-- The calls on one descriptor. -/
structure Descriptor (ι σ : Type) where
  /-- `is_valid_command`. -/
  isValidCommand : Bool
  /-- The device, and the rest of the private data. -/
  dev : σ
  /-- Where the calls are. -/
  point : ι → IoctlPoint
  /-- Which call a module executed, and what that returned, the last first. -/
  executed : List (ι × IoctlModule × ℤ)

variable {ι σ α : Type} [DecidableEq ι]

/-- Before the calls. -/
def Descriptor.opened (build : BuildOptions) (isValidCommand : Bool) (dev : σ) : Descriptor ι σ :=
  ⟨isValidCommand, dev, fun _ => .start build, []⟩

/-- The next step of a call; `work` is what a module does for a command that it knows. -/
def Descriptor.step (work : IoctlModule → Ioctl α → σ → ℤ × σ) (calls : ι → Ioctl α)
    (s : Descriptor ι σ) (i : ι) : Option (Descriptor ι σ) :=
  match s.point i with
  | .setValid m rest =>
    some { s with
      isValidCommand := true, point := Function.update s.point i (.runModule m rest) }
  | .runModule m rest =>
    if m.knows (calls i).cmd then
      let (ret, dev) := work m (calls i) s.dev
      some { s with
        dev, point := Function.update s.point i (.testValid m rest ret)
        executed := (i, m, ret) :: s.executed }
    else
      some { s with
        isValidCommand := false, point := Function.update s.point i (.testValid m rest einval) }
  | .testValid _ rest ret =>
    some { s with
      point := Function.update s.point i (.tested s.isValidCommand rest ret) }
  | .finish _ => none

/-! ### What is asked of a call -/

/-- What the modules executed of a call. -/
def Descriptor.own (s : Descriptor ι σ) (i : ι) : List (IoctlModule × ℤ) :=
  (s.executed.filter (·.1 = i)).map (·.2)

/-- The command was executed once, by the module it belongs to, and the call returned what that
returned; one that belongs to no module was not executed, and the call returned `-EINVAL`. -/
def Right (build : BuildOptions) (cmd : ℕ) (own : List (IoctlModule × ℤ)) (ret : ℤ) : Prop :=
  (∀ m ∈ enabledModules build, m.knows cmd = true → own = [(m, ret)]) ∧
    ((∀ m ∈ enabledModules build, m.knows cmd = false) → own = [] ∧ ret = einval)

/-- All calls that have returned came out right. -/
def Descriptor.AllRight (build : BuildOptions) (calls : ι → Ioctl α) (s : Descriptor ι σ) : Prop :=
  ∀ i ret, s.point i = .finish ret → Right build (calls i).cmd (s.own i) ret

/-- The calls that have begun have returned. -/
def Descriptor.Quiet (build : BuildOptions) (s : Descriptor ι σ) : Prop :=
  ∀ i, s.point i = .start build ∨ ∃ ret, s.point i = .finish ret

/-- The condition on a test. It reads that the command was known only if this module knew it or no
later one does, and it reads that it was not known only if this module did not know it, or is the
last, or returned `-EINVAL`. -/
def TestMeets (cmd : ℕ) (isValidCommand : Bool) (m : IoctlModule) (rest : List IoctlModule)
    (ret : ℤ) : Prop :=
  if isValidCommand then m.knows cmd = true ∨ ∀ m' ∈ rest, m'.knows cmd = false
  else m.knows cmd = false ∨ rest = [] ∨ ret = einval

instance (cmd : ℕ) (isValidCommand : Bool) (m : IoctlModule) (rest : List IoctlModule) (ret : ℤ) :
    Decidable (TestMeets cmd isValidCommand m rest ret) :=
  inferInstanceAs (Decidable (if isValidCommand then _ else _))

/-- The condition on a step. -/
def Descriptor.Meets (calls : ι → Ioctl α) (s : Descriptor ι σ) (i : ι) : Prop :=
  match s.point i with
  | .testValid m rest ret => TestMeets (calls i).cmd s.isValidCommand m rest ret
  | _ => True

instance (calls : ι → Ioctl α) (s : Descriptor ι σ) (i : ι) : Decidable (s.Meets calls i) := by
  unfold Descriptor.Meets
  split <;> infer_instance

/-! ### How far a command has come -/

/-- Before the modules `rest`, the command was executed by none, and its module is one of them, or it
was executed by its module, with what that returned. -/
inductive Progress (build : BuildOptions) (cmd : ℕ) (own : List (IoctlModule × ℤ))
    (rest : List IoctlModule) : Option ℤ → Prop where
  /-- Not executed yet. -/
  | ahead (hown : own = [])
      (h : ∀ m ∈ enabledModules build, m.knows cmd = true → m ∈ rest) :
      Progress build cmd own rest none
  /-- Executed. -/
  | behind {m : IoctlModule} {r : ℤ} (hm : m ∈ enabledModules build) (hknows : m.knows cmd = true)
      (hown : own = [(m, r)]) (h : ∀ m' ∈ rest, m'.knows cmd = false) :
      Progress build cmd own rest (some r)

variable {build : BuildOptions} {cmd : ℕ} {own : List (IoctlModule × ℤ)} {m : IoctlModule}
  {rest : List IoctlModule} {r ret : ℤ} {o : Option ℤ}

/-- What a command that was executed is to return. -/
theorem Progress.right_iff_of_some (h : Progress build cmd own rest (some r)) :
    Right build cmd own ret ↔ ret = r := by
  cases h with
  | @behind m _ hm hknows hown _ =>
    constructor
    · intro hright
      have heq := hown.symm.trans (hright.1 m hm hknows)
      simp only [List.cons.injEq, Prod.mk.injEq, true_and, and_true] at heq
      exact heq.symm
    · rintro rfl
      refine ⟨fun m' _ hknows' => ?_, fun hno => ?_⟩
      · rw [hown, IoctlModule.knows_unique hknows hknows']
      · rw [hno m hm] at hknows
        cases hknows

/-- What a command that was not executed is to return. -/
theorem Progress.right_iff_of_none (h : Progress build cmd own rest none)
    (hrest : ∀ m ∈ rest, m ∈ enabledModules build) :
    Right build cmd own ret ↔ (∀ m ∈ rest, m.knows cmd = false) ∧ ret = einval := by
  cases h with
  | ahead hown hahead =>
    constructor
    · intro hright
      have hno : ∀ m ∈ enabledModules build, m.knows cmd = false := by
        intro m hm
        rw [← Bool.not_eq_true]
        intro hknows
        cases hown.symm.trans (hright.1 m hm hknows)
      exact ⟨fun m hm => hno m (hrest m hm), (hright.2 hno).2⟩
    · rintro ⟨hno, rfl⟩
      refine ⟨fun m hm hknows => ?_, fun _ => ⟨hown, rfl⟩⟩
      rw [hno m (hahead m hm hknows)] at hknows
      cases hknows

/-- A module that does not know the command is passed. -/
theorem Progress.pass (h : Progress build cmd own (m :: rest) o) (hm : m.knows cmd = false) :
    Progress build cmd own rest o := by
  cases h with
  | ahead hown hahead =>
    refine .ahead hown fun m' hm' hknows => ?_
    rcases List.mem_cons.mp (hahead m' hm' hknows) with rfl | hmem
    · rw [hm] at hknows
      cases hknows
    · exact hmem
  | behind hm' hknows hown hno =>
    exact .behind hm' hknows hown fun m'' hm'' => hno m'' (List.mem_cons_of_mem _ hm'')

/-- A module that knows the command executes it, for the first time. -/
theorem Progress.execute (h : Progress build cmd own (m :: rest) o)
    (hsuffix : m :: rest <:+ enabledModules build) (hm : m.knows cmd = true) (r : ℤ) :
    Progress build cmd ((m, r) :: own) rest (some r) := by
  cases h with
  | ahead hown _ =>
    have hnodup := (List.nodup_cons.mp ((enabledModules_nodup build).sublist hsuffix.sublist)).1
    refine .behind (hsuffix.subset List.mem_cons_self) hm (by rw [hown]) fun m' hm' => ?_
    rw [← Bool.not_eq_true]
    intro hknows
    obtain rfl := IoctlModule.knows_unique hm hknows
    exact hnodup hm'
  | behind _ _ _ hno =>
    rw [hno m List.mem_cons_self] at hm
    cases hm

/-- The call is on its way to come out right. -/
def Sound (build : BuildOptions) (cmd : ℕ) (own : List (IoctlModule × ℤ)) : IoctlPoint → Prop
  | .setValid m rest | .runModule m rest =>
    m :: rest <:+ enabledModules build ∧
      ∃ o, Progress build cmd own (m :: rest) o ∧ ∀ r ∈ o, r = einval
  | .testValid m rest ret =>
    m :: rest <:+ enabledModules build ∧ ∃ o, Progress build cmd own rest o ∧
      if m.knows cmd then o = some ret else ret = einval ∧ ∀ r ∈ o, r = einval
  | .finish ret => Right build cmd own ret

/-- The result of the module is lost. -/
def Lost (build : BuildOptions) (cmd : ℕ) (own : List (IoctlModule × ℤ)) : IoctlPoint → Prop
  | .setValid m rest | .runModule m rest =>
    ∃ r, r ≠ einval ∧ Progress build cmd own (m :: rest) (some r)
  | .testValid _ rest ret => ret = einval ∧ ∃ r, r ≠ einval ∧ Progress build cmd own rest (some r)
  | .finish ret => ¬ Right build cmd own ret

/-- A call whose result is not lost goes on to the next module, or returns it. -/
theorem sound_goOn (hsuffix : rest <:+ enabledModules build) (h : Progress build cmd own rest o)
    (hret : o = some ret ∨ ret = einval ∧ ∀ r ∈ o, r = einval)
    (hkeep : rest = [] ∨ ∀ r ∈ o, r = einval) : Sound build cmd own (.goOn rest ret) := by
  cases rest with
  | cons m rest =>
    refine ⟨hsuffix, o, h, ?_⟩
    rcases hkeep with hnil | hkeep
    · cases hnil
    · exact hkeep
  | nil =>
    cases o with
    | none =>
      rcases hret with hret | ⟨hret, -⟩
      · cases hret
      · exact (h.right_iff_of_none nofun).mpr ⟨nofun, hret⟩
    | some r =>
      refine h.right_iff_of_some.mpr ?_
      rcases hret with hret | ⟨hret, hr⟩
      · exact (Option.some.inj hret).symm
      · exact hret.trans (hr r rfl).symm

/-- A lost result stays lost. -/
theorem lost_goOn (h : Progress build cmd own rest (some r)) (hr : r ≠ einval)
    (hret : rest = [] → ret ≠ r) : Lost build cmd own (.goOn rest ret) := by
  cases rest with
  | cons m rest => exact ⟨r, hr, h⟩
  | nil => exact mt h.right_iff_of_some.mp (hret rfl)

/-! ### A test -/

variable {isValidCommand : Bool}

theorem sound_tested (hs : Sound build cmd own (.testValid m rest ret))
    (hC : TestMeets cmd isValidCommand m rest ret) :
    Sound build cmd own (.tested isValidCommand rest ret) := by
  obtain ⟨hsuffix, o, hprogress, ho⟩ := hs
  have hrest : rest <:+ enabledModules build := (List.suffix_cons m rest).trans hsuffix
  cases isValidCommand with
  | true =>
    rcases hC with hknows | hno
    · rw [if_pos hknows] at ho
      subst ho
      exact hprogress.right_iff_of_some.mpr rfl
    · cases o with
      | none =>
        have hret : ret = einval := by
          split_ifs at ho with hknows
          exact ho.1
        exact (hprogress.right_iff_of_none fun m' hm' => hrest.subset hm').mpr ⟨hno, hret⟩
      | some r =>
        refine hprogress.right_iff_of_some.mpr ?_
        split_ifs at ho with hknows
        · exact (Option.some.inj ho).symm
        · exact ho.1.trans (ho.2 r rfl).symm
  | false =>
    split_ifs at ho with hknows
    · subst ho
      refine sound_goOn hrest hprogress (.inl rfl) ?_
      rcases hC with hno | hC
      · rw [hno] at hknows
        cases hknows
      · refine hC.imp_right ?_
        rintro rfl _ ⟨⟩
        rfl
    · exact sound_goOn hrest hprogress (.inr ho) (.inr ho.2)

theorem lost_tested (hs : Sound build cmd own (.testValid m rest ret))
    (hC : ¬ TestMeets cmd isValidCommand m rest ret) :
    Lost build cmd own (.tested isValidCommand rest ret) := by
  obtain ⟨hsuffix, o, hprogress, ho⟩ := hs
  have hrest : rest <:+ enabledModules build := (List.suffix_cons m rest).trans hsuffix
  cases isValidCommand with
  | true =>
    obtain ⟨-, hlater⟩ := not_or.mp hC
    cases o with
    | none =>
      intro hright
      exact hlater ((hprogress.right_iff_of_none fun m' hm' => hrest.subset hm').mp hright).1
    | some r =>
      cases hprogress with
      | behind _ _ _ hno => exact absurd hno hlater
  | false =>
    obtain ⟨hknows, hC⟩ := not_or.mp hC
    obtain ⟨hne, hret⟩ := not_or.mp hC
    rw [Bool.not_eq_false] at hknows
    rw [if_pos hknows] at ho
    subst ho
    exact lost_goOn hprogress hret fun hnil => absurd hnil hne

/-! ### A step -/

section Step

variable {work : IoctlModule → Ioctl α → σ → ℤ × σ} {calls : ι → Ioctl α} {s t : Descriptor ι σ}
  {i : ι}

/-- The step of one call, and that the others stay where they are. -/
theorem step_cases (h : s.step work calls i = some t) :
    ((∃ m rest, s.point i = .setValid m rest ∧ t.point i = .runModule m rest ∧
          t.own i = s.own i) ∨
        (∃ m rest ret, s.point i = .runModule m rest ∧ m.knows (calls i).cmd = true ∧
          t.point i = .testValid m rest ret ∧ t.own i = (m, ret) :: s.own i) ∨
        (∃ m rest, s.point i = .runModule m rest ∧ m.knows (calls i).cmd = false ∧
          t.point i = .testValid m rest einval ∧ t.own i = s.own i) ∨
        ∃ m rest ret, s.point i = .testValid m rest ret ∧
          t.point i = .tested s.isValidCommand rest ret ∧ t.own i = s.own i) ∧
      ∀ j, j ≠ i → t.point j = s.point j ∧ t.own j = s.own j := by
  unfold Descriptor.step at h
  cases hpoint : s.point i with
  | setValid m rest =>
    simp only [hpoint, Option.some.injEq] at h
    subst h
    exact ⟨.inl ⟨m, rest, rfl, Function.update_self .., rfl⟩,
      fun j hj => ⟨Function.update_of_ne hj .., rfl⟩⟩
  | runModule m rest =>
    simp only [hpoint] at h
    split_ifs at h with hknows
    · simp only [Option.some.injEq] at h
      subst h
      refine ⟨.inr (.inl ⟨m, rest, _, rfl, hknows, Function.update_self .., ?_⟩),
        fun j hj => ⟨Function.update_of_ne hj .., ?_⟩⟩
      · simp [Descriptor.own]
      · simp [Descriptor.own, hj.symm]
    · simp only [Option.some.injEq] at h
      subst h
      rw [Bool.not_eq_true] at hknows
      exact ⟨.inr (.inr (.inl ⟨m, rest, rfl, hknows, Function.update_self .., rfl⟩)),
        fun j hj => ⟨Function.update_of_ne hj .., rfl⟩⟩
  | testValid m rest ret =>
    simp only [hpoint, Option.some.injEq] at h
    subst h
    exact ⟨.inr (.inr (.inr ⟨m, rest, ret, rfl, Function.update_self .., rfl⟩)),
      fun j hj => ⟨Function.update_of_ne hj .., rfl⟩⟩
  | finish ret =>
    simp only [hpoint] at h
    cases h

/-- **A step that meets the condition** leaves its call on its way. -/
theorem sound_step (hs : Sound build (calls i).cmd (s.own i) (s.point i)) (hC : s.Meets calls i)
    (h : s.step work calls i = some t) : Sound build (calls i).cmd (t.own i) (t.point i) := by
  unfold Descriptor.Meets at hC
  obtain ⟨⟨m, rest, hp, hp', hown⟩ | ⟨m, rest, ret, hp, hknows, hp', hown⟩ |
    ⟨m, rest, hp, hknows, hp', hown⟩ | ⟨m, rest, ret, hp, hp', hown⟩, -⟩ := step_cases h
  · rw [hp', hown]
    rw [hp] at hs
    exact hs
  · rw [hp', hown]
    rw [hp] at hs
    obtain ⟨hsuffix, o, hprogress, -⟩ := hs
    refine ⟨hsuffix, _, hprogress.execute hsuffix hknows ret, ?_⟩
    rw [if_pos hknows]
  · rw [hp', hown]
    rw [hp] at hs
    obtain ⟨hsuffix, o, hprogress, ho⟩ := hs
    refine ⟨hsuffix, o, hprogress.pass hknows, ?_⟩
    rw [hknows, if_neg Bool.false_ne_true]
    exact ⟨rfl, ho⟩
  · rw [hp', hown]
    rw [hp] at hs
    simp only [hp] at hC
    exact sound_tested hs hC

/-- **A step that does not meet the condition** loses the result of its call. -/
theorem lost_of_not_meets (hs : Sound build (calls i).cmd (s.own i) (s.point i))
    (hC : ¬ s.Meets calls i) (h : s.step work calls i = some t) :
    Lost build (calls i).cmd (t.own i) (t.point i) := by
  unfold Descriptor.Meets at hC
  obtain ⟨⟨m, rest, hp, -⟩ | ⟨m, rest, -, hp, -⟩ | ⟨m, rest, hp, -⟩ |
    ⟨m, rest, ret, hp, hp', hown⟩, -⟩ := step_cases h
  · simp [hp] at hC
  · simp [hp] at hC
  · simp [hp] at hC
  · rw [hp', hown]
    rw [hp] at hs
    simp only [hp] at hC
    exact lost_tested hs hC

/-- **A lost result** stays lost. -/
theorem lost_step (hs : Lost build (calls i).cmd (s.own i) (s.point i))
    (h : s.step work calls i = some t) : Lost build (calls i).cmd (t.own i) (t.point i) := by
  obtain ⟨⟨m, rest, hp, hp', hown⟩ | ⟨m, rest, ret, hp, hknows, -, -⟩ |
    ⟨m, rest, hp, hknows, hp', hown⟩ | ⟨m, rest, ret, hp, hp', hown⟩, -⟩ := step_cases h
  · rw [hp', hown]
    rw [hp] at hs
    exact hs
  · rw [hp] at hs
    obtain ⟨r, -, hprogress⟩ := hs
    cases hprogress with
    | behind _ _ _ hno =>
      rw [hno m List.mem_cons_self] at hknows
      cases hknows
  · rw [hp', hown]
    rw [hp] at hs
    obtain ⟨r, hr, hprogress⟩ := hs
    exact ⟨rfl, r, hr, hprogress.pass hknows⟩
  · rw [hp', hown]
    rw [hp] at hs
    obtain ⟨rfl, r, hr, hprogress⟩ := hs
    cases s.isValidCommand with
    | true => exact fun hright => hr (hprogress.right_iff_of_some.mp hright).symm
    | false => exact lost_goOn hprogress hr fun _ => hr.symm

end Step

/-! ### Runs -/

variable {work : IoctlModule → Ioctl α → σ → ℤ × σ} {calls : ι → Ioctl α} {s t : Descriptor ι σ}

/-- What holds of every call after a step of one of them. -/
theorem forall_step {P : ι → List (IoctlModule × ℤ) → IoctlPoint → Prop} {i : ι}
    (hs : ∀ j, P j (s.own j) (s.point j)) (h : s.step work calls i = some t)
    (hi : P i (t.own i) (t.point i)) (j : ι) : P j (t.own j) (t.point j) := by
  by_cases hj : j = i
  · subst hj
    exact hi
  · obtain ⟨hpoint, hown⟩ := (step_cases h).2 j hj
    rw [hpoint, hown]
    exact hs j

theorem sound_start (build : BuildOptions) (cmd : ℕ) : Sound build cmd [] (.start build) :=
  ⟨List.suffix_refl _, none, .ahead rfl fun _ hm _ => hm, nofun⟩

/-- No result is lost at the start. -/
theorem not_lost_start (build : BuildOptions) (cmd : ℕ) (own : List (IoctlModule × ℤ)) :
    ¬ Lost build cmd own (.start build) := by
  rintro ⟨r, -, hprogress⟩
  cases hprogress with
  | behind hm hknows _ hno =>
    rw [hno _ hm] at hknows
    cases hknows

/-- How many steps a call has left at most. -/
def IoctlPoint.left : IoctlPoint → ℕ
  | .setValid _ rest => 3 * rest.length + 3
  | .runModule _ rest => 3 * rest.length + 2
  | .testValid _ rest _ => 3 * rest.length + 1
  | .finish _ => 0

@[simp] theorem left_goOn (rest : List IoctlModule) (ret : ℤ) :
    (IoctlPoint.goOn rest ret).left = 3 * rest.length := by
  cases rest <;> rfl

theorem left_tested_le (isValidCommand : Bool) (rest : List IoctlModule) (ret : ℤ) :
    (IoctlPoint.tested isValidCommand rest ret).left ≤ 3 * rest.length := by
  cases isValidCommand with
  | true => exact Nat.zero_le _
  | false => exact (left_goOn rest ret).le

theorem left_step {i : ι} (h : s.step work calls i = some t) :
    (t.point i).left + 1 ≤ (s.point i).left := by
  obtain ⟨⟨m, rest, hp, hp', -⟩ | ⟨m, rest, ret, hp, -, hp', -⟩ | ⟨m, rest, hp, -, hp', -⟩ |
    ⟨m, rest, ret, hp, hp', -⟩, -⟩ := step_cases h
  · rw [hp, hp']
    exact le_rfl
  · rw [hp, hp']
    exact le_rfl
  · rw [hp, hp']
    exact le_rfl
  · rw [hp, hp']
    exact Nat.succ_le_succ (left_tested_le _ _ _)

/-- Whatever the others do, a call returns after so many steps of its own. -/
theorem count_add_left_le {turns : List ι} (i : ι)
    (ht : run (Descriptor.step work calls) s turns = some t) :
    turns.count i + (t.point i).left ≤ (s.point i).left := by
  induction turns generalizing s with
  | nil =>
    cases ht
    simp
  | cons j turns ih =>
    obtain ⟨u, hu, hrest⟩ := run_cons_eq_some.mp ht
    have hle := ih hrest
    by_cases hj : i = j
    · subst hj
      have hstep := left_step hu
      rw [List.count_cons_self]
      omega
    · rw [List.count_cons_of_ne (Ne.symm hj)]
      rwa [((step_cases hu).2 i hj).1] at hle

/-- A call that has not returned can go on. -/
theorem isSome_step {i : ι} (h : ∀ ret, s.point i ≠ .finish ret) :
    (s.step work calls i).isSome = true := by
  unfold Descriptor.step
  cases hpoint : s.point i with
  | setValid m rest => rfl
  | runModule m rest =>
    simp only
    split_ifs
    · rfl
    · rfl
  | testValid m rest ret => rfl
  | finish ret => exact absurd hpoint (h ret)

/-- **The calls on one descriptor** all return; they come out right in every run whose tests all meet
the condition, and a run that leaves no call in the middle comes out right only if they do. -/
theorem ioctl_dispatch_iff (build : BuildOptions) (work : IoctlModule → Ioctl α → σ → ℤ × σ)
    (calls : ι → Ioctl α) (isValidCommand : Bool) (dev : σ) (turns : List ι) :
    (Along (Descriptor.step work calls) (Descriptor.Meets calls)
          (.opened build isValidCommand dev) turns →
        Always (Descriptor.step work calls) (Descriptor.AllRight build calls)
          (.opened build isValidCommand dev) turns) ∧
      ∀ t, run (Descriptor.step work calls) (.opened build isValidCommand dev) turns = some t →
        (t.Quiet build → t.AllRight build calls →
          Along (Descriptor.step work calls) (Descriptor.Meets calls)
            (.opened build isValidCommand dev) turns) ∧
        ∀ i, (∃ ret, t.point i = .finish ret) ∨ (t.step work calls i).isSome = true ∧
          turns.count i < 3 * (enabledModules build).length := by
  have hopened : ∀ i, Sound build (calls i).cmd
      ((Descriptor.opened build isValidCommand dev : Descriptor ι σ).own i) (.start build) :=
    fun i => sound_start build _
  have hsound : ∀ (s : Descriptor ι σ) i t,
      (∀ j, Sound build (calls j).cmd (s.own j) (s.point j)) → s.Meets calls i →
      s.step work calls i = some t → ∀ j, Sound build (calls j).cmd (t.own j) (t.point j) :=
    fun s i t hs hC h => forall_step (P := fun j => Sound build (calls j).cmd) hs h
      (sound_step (hs i) hC h)
  refine ⟨fun h => ?_, fun t ht => ⟨fun hquiet hright => ?_, fun i => ?_⟩⟩
  · refine (always_of_along hsound hopened h).mono fun s hs i ret hret => ?_
    have hi := hs i
    rw [hret] at hi
    exact hi
  · refine along_of_not_marked (B := fun s => ∃ i, Lost build (calls i).cmd (s.own i) (s.point i))
      hsound ?_ ?_ hopened ht ?_
    · exact fun s i t hs hC h => ⟨i, lost_of_not_meets (hs i) hC h⟩
    · rintro s i t ⟨j, hj⟩ h
      by_cases hji : j = i
      · subst hji
        exact ⟨j, lost_step hj h⟩
      · obtain ⟨hpoint, hown⟩ := (step_cases h).2 j hji
        refine ⟨j, ?_⟩
        rwa [hpoint, hown]
    · rintro ⟨i, hi⟩
      rcases hquiet i with hstart | ⟨ret, hret⟩
      · rw [hstart] at hi
        exact not_lost_start build _ _ hi
      · rw [hret] at hi
        exact hi (hright i ret hret)
  · by_cases hfinish : ∃ ret, t.point i = .finish ret
    · exact .inl hfinish
    · have hleft : (t.point i).left ≠ 0 := by
        intro hzero
        cases hpoint : t.point i with
        | finish ret => exact hfinish ⟨ret, hpoint⟩
        | setValid | runModule | testValid =>
          rw [hpoint] at hzero
          simp [IoctlPoint.left] at hzero
      have hcount := count_add_left_le i ht
      rw [Descriptor.opened, IoctlPoint.start, left_goOn] at hcount
      exact .inr ⟨isSome_step fun ret hret => hfinish ⟨ret, hret⟩, by omega⟩

/-- All modules are built in. -/
def allModules : BuildOptions := ⟨fun _ => true, fun _ => true⟩

/-- `XPCIE_DEV_CHAIN_UPDATE_TABLE_INGR` in one thread, `XPCIE_DEV_MPOLL` in another. -/
def twoCalls : Bool → Ioctl Unit
  | false => ⟨0x60, ()⟩
  | true => ⟨0x00, ()⟩

/-- The first call runs the chain module, the second then the first module, which does not know its
command, and the first call returns `-EINVAL` for the entry that it set. -/
theorem not_ioctl_dispatch :
    ¬ ∀ turns : List Bool, Always (Descriptor.step (fun _ _ s => (0, s)) twoCalls)
      (Descriptor.AllRight allModules twoCalls) (.opened allModules false ()) turns := by
  intro h
  have hlast := (h (List.replicate 8 false ++ [true, true] ++ List.replicate 10 false)).last rfl
  have hown := (hlast false einval rfl).1 .chain (by decide) (by decide)
  revert hown
  decide

example :
    Along (Descriptor.step (fun _ _ s => (0, s)) twoCalls) (Descriptor.Meets twoCalls)
      (.opened allModules false ()) (List.replicate 9 false ++ List.replicate 18 true) := by
  decide +kernel

end HardwareDrivers.Driver
