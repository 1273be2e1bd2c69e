import HardwareDrivers.Libfpga.FilterResizeSetting
import HardwareDrivers.Theory.SetupPhases
import HardwareDrivers.Theory.Transition

/-!
# The lanes of filter_resize

Processes set up the lanes of a device at the same time: each call of `fpga_filter_resize_set` or
`fpga_filter_resize_finish` is a row of `pwrite`s, and those of the lanes come in any order. A `pwrite`
can fail, and a process can be killed between two of them. The runs here have one call of a lane at a
time, which the users see to and not the library.

## What is proved

* `exec_eq`, `exec_alone` — a call that nobody else meets is the call of `FilterResize`.
* `never_mixed` — a module that is started has the sizes of one call.
* `setting_read_back` — the text that is read behind a call that succeeded has its sizes.
-/

namespace HardwareDrivers.Libfpga

open Theory

/-! ### The calls -/

variable (P : Parson) (dev : Option FunctionDevice)

/-- What a call takes from its arguments before it writes, and whether the lane has a conversion
module; nothing if it is refused. -/
def ResizeCall.parse (lane : BitVec 32) :
    ResizeCall → Except JsonFault (Option (ResizeRequest × Bool))
  | .set jsonTxt =>
    match dev, jsonTxt with
    | some dev, some jsonTxt =>
      if dev.funcNum ≤ lane.toNat then return none
      else do
        let iWidth ← fpgaGetParameter P jsonTxt "i_width".toList
        let iHeight ← fpgaGetParameter P jsonTxt "i_height".toList
        let oWidth ← fpgaGetParameter P jsonTxt "o_width".toList
        let oHeight ← fpgaGetParameter P jsonTxt "o_height".toList
        if iWidth = -1 ∨ iHeight = -1 ∨ oWidth = -1 ∨ oHeight = -1 then return none
        else
          return some (⟨iWidth, iHeight, oWidth, oHeight, ddrFrameBufferL, ddrFrameBufferH lane⟩,
            decide (lane.toNat < dev.convNum))
    | _, _ => return none
  | .finish =>
    match dev with
    | some dev =>
      if dev.funcNum ≤ lane.toNat then return none
      else return some (⟨0, 0, 0, 0, 0, 0⟩, decide (lane.toNat < dev.convNum))
    | none => return none

/-- What a call does with what it took. -/
def afterParse (ok : ℕ → Bool) (lane : BitVec 32) (s : RegFile) :
    Option (ResizeRequest × Bool) → RegResult
  | none => (.error .invalidArgument, s)
  | some (r, conv) => setupBoth ok lane r conv s

variable {P dev} {lane : BitVec 32}

/-- The calls of the source, split at their first `pwrite`. -/
theorem exec_eq (ok : ℕ → Bool) (c : ResizeCall) (s : RegFile) :
    c.exec P ok dev lane s = (c.parse P dev lane).map (afterParse ok lane s) := by
  cases dev with
  | none => cases c <;> rfl
  | some d =>
    by_cases hlane : d.funcNum ≤ lane.toNat
    · cases c with
      | set jsonTxt =>
        cases jsonTxt with
        | none => rfl
        | some txt =>
          simp only [ResizeCall.exec, fpgaFilterResizeSet, ResizeCall.parse, if_pos hlane]
          rfl
      | finish =>
        simp only [ResizeCall.exec, fpgaFilterResizeFinish, ResizeCall.parse, if_pos hlane]
        rfl
    · have hlt := Nat.lt_of_not_le hlane
      cases c with
      | finish =>
        simp only [ResizeCall.exec, finish_eq hlt, ResizeCall.parse, if_neg hlane]
        rfl
      | set jsonTxt =>
        cases jsonTxt with
        | none => rfl
        | some txt =>
          cases h₁ : fpgaGetParameter P txt "i_width".toList with
          | error f =>
            simp only [ResizeCall.exec, fpgaFilterResizeSet, ResizeCall.parse, if_neg hlane, h₁]
            rfl
          | ok w₁ =>
          cases h₂ : fpgaGetParameter P txt "i_height".toList with
          | error f =>
            simp only [ResizeCall.exec, fpgaFilterResizeSet, ResizeCall.parse, if_neg hlane, h₁, h₂]
            rfl
          | ok w₂ =>
          cases h₃ : fpgaGetParameter P txt "o_width".toList with
          | error f =>
            simp only [ResizeCall.exec, fpgaFilterResizeSet, ResizeCall.parse, if_neg hlane, h₁, h₂, h₃]
            rfl
          | ok w₃ =>
          cases h₄ : fpgaGetParameter P txt "o_height".toList with
          | error f =>
            simp only [ResizeCall.exec, fpgaFilterResizeSet, ResizeCall.parse, if_neg hlane, h₁, h₂, h₃,
              h₄]
            rfl
          | ok w₄ =>
          by_cases hne : w₁ = -1 ∨ w₂ = -1 ∨ w₃ = -1 ∨ w₄ = -1
          · simp only [ResizeCall.exec, fpgaFilterResizeSet, ResizeCall.parse, if_neg hlane, h₁, h₂, h₃,
              h₄, ok_bind, if_pos hne]
            rfl
          · have hset := set_eq ok (r := ⟨w₁, w₂, w₃, w₄, ddrFrameBufferL, ddrFrameBufferH lane⟩) hlt
              rfl rfl h₁ h₂ h₃ h₄ (by simpa only [not_or] using hne) s
            simp only [ResizeCall.exec, hset, ResizeCall.parse, if_neg hlane, h₁, h₂, h₃, h₄, ok_bind,
              if_neg hne]
            rfl

/-! ### The lanes -/

/-- The two modules of a lane. -/
inductive ResizeModule where
  /-- The function module. -/
  | fr
  /-- The conversion module. -/
  | conv
  deriving DecidableEq

/-- How a module is set up. -/
def ResizeModule.setup : ResizeModule → BitVec 32 → ResizeRequest → Setup (BitVec 32) (BitVec 32)
  | .fr => frfuncSetup
  | .conv => convSetup

/-- A lane, as it is given to the calls. -/
def laneWord (i : Fin 4) : BitVec 32 := BitVec.ofNat 32 i

/-- The call of a lane, or what is left of its last one. -/
structure ResizeLane where
  /-- What it took from its arguments. -/
  request : ResizeRequest
  /-- The `pwrite`s that are left, for each module. -/
  todo : ResizeModule → List (BitVec 32 × BitVec 32)
  /-- The module could not be set up. -/
  broken : ResizeModule → Bool

/-- The call returned. -/
def ResizeLane.Returned (l : ResizeLane) : Prop := l.todo .fr = [] ∧ l.todo .conv = []

instance (l : ResizeLane) : Decidable l.Returned := inferInstanceAs (Decidable (_ ∧ _))

/-- It returned 0. -/
def ResizeLane.Succeeded (l : ResizeLane) : Prop :=
  l.Returned ∧ l.broken .fr = false ∧ l.broken .conv = false

/-- The `pwrite` that is next, and those of its module that are left then. -/
def ResizeLane.turn (l : ResizeLane) :
    Option (ResizeModule × (BitVec 32 × BitVec 32) × List (BitVec 32 × BitVec 32)) :=
  match l.todo .fr, l.todo .conv with
  | w :: ws, _ => some (.fr, w, ws)
  | [], w :: ws => some (.conv, w, ws)
  | [], [] => none

/-- A call at its first `pwrite`. -/
def ResizeLane.begun (lane : BitVec 32) (r : ResizeRequest) (conv : Bool) : ResizeLane where
  request := r
  todo
    | .fr => (frfuncSetup lane r).writes
    | .conv => if conv then (convSetup lane r).writes else []
  broken
    | .fr => false
    | .conv => !conv

/-- A module has no more `pwrite`s but these, and could not be set up. -/
def ResizeLane.put (m : ResizeModule) (ws : List (BitVec 32 × BitVec 32)) (broken : Bool)
    (l : ResizeLane) : ResizeLane :=
  { l with todo := Function.update l.todo m ws, broken := Function.update l.broken m broken }

/-- Nothing is left of the call, and it did not return. -/
def ResizeLane.killed (l : ResizeLane) : ResizeLane :=
  { l with todo := fun _ => [], broken := fun _ => true }

/-- A device and the calls of its lanes. -/
structure ResizeSystem where
  /-- The registers. -/
  regs : BitVec 32 → BitVec 32
  /-- The lanes. -/
  lanes : Fin 4 → ResizeLane

/-- A lane gets further. -/
def ResizeSystem.goto (i : Fin 4) (l : ResizeLane) (s : ResizeSystem) : ResizeSystem :=
  { s with lanes := Function.update s.lanes i l }

/-- The registers have other values. -/
def ResizeSystem.withRegs (regs : BitVec 32 → BitVec 32) (s : ResizeSystem) : ResizeSystem :=
  { s with regs }

/-- What happens. -/
inductive ResizeOp where
  /-- A call for a lane begins. -/
  | call (i : Fin 4) (c : ResizeCall)
  /-- The next `pwrite` of the call. -/
  | pwrite (i : Fin 4) (ok : Bool)
  /-- The process is killed that is in the call. -/
  | kill (i : Fin 4)

variable (P dev)

/-- A step, where a call for a lane begins behind the last one for it. -/
def resizeStep (s : ResizeSystem) : ResizeOp → Option ResizeSystem
  | .call i c =>
    if (s.lanes i).Returned then
      match c.parse P dev (laneWord i) with
      | .error _ => none
      | .ok none => some s
      | .ok (some (r, conv)) =>
        some (s.goto i (.begun (laneWord i) r conv))
    else none
  | .pwrite i ok =>
    match (s.lanes i).turn with
    | none => none
    | some (m, w, ws) =>
      some (if ok then
        (s.withRegs (Function.update s.regs w.1 w.2)).goto i
          ((s.lanes i).put m ws ((s.lanes i).broken m))
        else s.goto i ((s.lanes i).put m [] true))
  | .kill i => some (s.goto i (s.lanes i).killed)

variable {P dev} {s t : ResizeSystem} {i j : Fin 4} {m : ResizeModule} {os : List ResizeOp}

/-! ### A call by itself -/

theorem turn_eq_some {l : ResizeLane} {w : BitVec 32 × BitVec 32} {ws : List (BitVec 32 × BitVec 32)} :
    l.turn = some (m, w, ws) ↔ l.todo m = w :: ws ∧ (m = .conv → l.todo .fr = []) := by
  unfold ResizeLane.turn
  cases m <;> split <;> simp_all

@[simp] theorem put_todo (l : ResizeLane) (ws : List (BitVec 32 × BitVec 32)) (b : Bool) :
    (l.put m ws b).todo m = ws := Function.update_self ..

@[simp] theorem put_broken (l : ResizeLane) (ws : List (BitVec 32 × BitVec 32)) (b : Bool) :
    (l.put m ws b).broken m = b := Function.update_self ..

theorem put_todo_of_ne {m' : ResizeModule} (h : m' ≠ m) (l : ResizeLane)
    (ws : List (BitVec 32 × BitVec 32)) (b : Bool) : (l.put m ws b).todo m' = l.todo m' :=
  Function.update_of_ne h ..

theorem put_broken_of_ne {m' : ResizeModule} (h : m' ≠ m) (l : ResizeLane)
    (ws : List (BitVec 32 × BitVec 32)) (b : Bool) : (l.put m ws b).broken m' = l.broken m' :=
  Function.update_of_ne h ..

theorem put_put (l : ResizeLane) (ws vs : List (BitVec 32 × BitVec 32)) (b b' : Bool) :
    (l.put m ws b).put m vs b' = l.put m vs b' := by
  simp only [ResizeLane.put, Function.update_idem]

theorem put_self (l : ResizeLane) : l.put m (l.todo m) (l.broken m) = l := by
  simp only [ResizeLane.put, Function.update_eq_self]

@[simp] theorem goto_lanes_self (s : ResizeSystem) (l : ResizeLane) : (s.goto i l).lanes i = l :=
  Function.update_self ..

theorem goto_lanes_of_ne (h : j ≠ i) (s : ResizeSystem) (l : ResizeLane) :
    (s.goto i l).lanes j = s.lanes j := Function.update_of_ne h ..

@[simp] theorem goto_regs (s : ResizeSystem) (l : ResizeLane) : (s.goto i l).regs = s.regs := rfl

@[simp] theorem goto_goto (s : ResizeSystem) (l l' : ResizeLane) : (s.goto i l).goto i l' = s.goto i l' := by
  simp only [ResizeSystem.goto, Function.update_idem]

theorem goto_withRegs (s : ResizeSystem) (l : ResizeLane) (regs : BitVec 32 → BitVec 32) :
    (s.goto i l).withRegs regs = (s.withRegs regs).goto i l := rfl

@[simp] theorem withRegs_self (s : ResizeSystem) : s.withRegs s.regs = s := rfl

theorem goto_self (s : ResizeSystem) : s.goto i (s.lanes i) = s := by
  simp only [ResizeSystem.goto, Function.update_eq_self]

variable (P dev) in
/-- The `pwrite`s of one module. -/
theorem writes_alone (ok : ℕ → Bool) (ws : List (BitVec 32 × BitVec 32)) (hws : (s.lanes i).todo m = ws)
    (hturn : m = .conv → (s.lanes i).todo .fr = []) (log : List (BitVec 32 × BitVec 32)) (n : ℕ) :
    ∃ os, (∀ o ∈ os, ∃ b, o = .pwrite i b) ∧ run (resizeStep P dev) s os = some
      ((s.withRegs (writeAll ok ws ⟨s.regs, log, n⟩).2.mem).goto i ((s.lanes i).put m []
        (if (writeAll ok ws ⟨s.regs, log, n⟩).1 then (s.lanes i).broken m else true))) := by
  induction ws generalizing s log n with
  | nil =>
    refine ⟨[], by simp, ?_⟩
    simp only [writeAll, if_true, run_nil]
    rw [← hws, put_self]
    exact congrArg some (goto_self s).symm
  | cons w ws ih =>
    have hnext : (s.lanes i).turn = some (m, w, ws) := turn_eq_some.mpr ⟨hws, hturn⟩
    by_cases hok : ok n
    · generalize hu : (s.withRegs (Function.update s.regs w.1 w.2)).goto i
        ((s.lanes i).put m ws ((s.lanes i).broken m)) = u
      have hstep : resizeStep P dev s (.pwrite i true) = some u := by
        simp only [resizeStep, hnext, if_true, hu]
      subst hu
      obtain ⟨os, hos, hrun⟩ := ih (s := (s.withRegs (Function.update s.regs w.1 w.2)).goto i
        ((s.lanes i).put m ws ((s.lanes i).broken m))) (by simp) (fun hm => by
          subst hm
          rw [goto_lanes_self, put_todo_of_ne (by decide)]
          exact hturn rfl) (log ++ [w]) (n + 1)
      refine ⟨.pwrite i true :: os, ?_, ?_⟩
      · rintro o (_ | ⟨_, ho⟩)
        · exact ⟨true, rfl⟩
        · exact hos o ho
      · rw [run_cons, hstep, Option.bind_some, hrun]
        simp only [writeAll, tryWrite, hok, if_true, goto_lanes_self, put_put, put_broken, goto_withRegs,
          goto_goto]
        rfl
    · have hstep : resizeStep P dev s (.pwrite i false) =
          some (s.goto i ((s.lanes i).put m [] true)) := by
        simp only [resizeStep, hnext]
        rfl
      refine ⟨[.pwrite i false], ?_, ?_⟩
      · rintro o (_ | ⟨_, ho⟩)
        · exact ⟨false, rfl⟩
        · cases ho
      · rw [run_cons, hstep]
        simp [writeAll, tryWrite, hok]

variable (lane) in
/-- Whether both modules were set up. -/
theorem setupBoth_fst (ok : ℕ → Bool) (r : ResizeRequest) (conv : Bool) (s : RegFile) :
    (setupBoth ok lane r conv s).1 = .ok () ↔ (writeAll ok (frfuncSetup lane r).writes s).1 = true ∧
      conv = true ∧ (writeAll ok (convSetup lane r).writes
        (writeAll ok (frfuncSetup lane r).writes s).2).1 = true := by
  cases conv <;> simp only [setupBoth, pwriteAll] <;> split_ifs <;> simp_all [bothResults]

variable (lane) in
theorem setupBoth_mem (ok : ℕ → Bool) (r : ResizeRequest) (conv : Bool) (s : RegFile) :
    (setupBoth ok lane r conv s).2.mem = if conv then (writeAll ok (convSetup lane r).writes
        (writeAll ok (frfuncSetup lane r).writes s).2).2.mem
      else (writeAll ok (frfuncSetup lane r).writes s).2.mem := by
  cases conv <;> rfl

/-- A call that nobody else meets does what it does in `FilterResize`. -/
theorem exec_alone (ok : ℕ → Bool) {c : ResizeCall} {r : ResizeRequest} {conv : Bool}
    (hfree : (s.lanes i).Returned) (hparse : c.parse P dev (laneWord i) = .ok (some (r, conv)))
    (n : ℕ) : ∃ os result t, (∀ o ∈ os, ∃ b, o = .pwrite i b) ∧
      c.exec P ok dev (laneWord i) ⟨s.regs, [], n⟩ = .ok result ∧
      run (resizeStep P dev) s (.call i c :: os) = some t ∧ t.regs = result.2.mem ∧
      (t.lanes i).Returned ∧ ((t.lanes i).Succeeded ↔ result.1 = .ok ()) := by
  have hcall : resizeStep P dev s (.call i c) = some (s.goto i (.begun (laneWord i) r conv)) := by
    simp only [resizeStep, if_pos hfree, hparse]
  have hexec : c.exec P ok dev (laneWord i) ⟨s.regs, [], n⟩ =
      .ok (setupBoth ok (laneWord i) r conv ⟨s.regs, [], n⟩) := by
    rw [exec_eq, hparse]
    rfl
  obtain ⟨os, hos, hrun⟩ := writes_alone P dev
    (s := s.goto i (.begun (laneWord i) r conv)) (i := i) (m := .fr) ok _
    (by rw [goto_lanes_self]) (fun h => by cases h) [] n
  have hfst := setupBoth_fst (laneWord i) ok r conv ⟨s.regs, [], n⟩
  have hmem := setupBoth_mem (laneWord i) ok r conv ⟨s.regs, [], n⟩
  rw [goto_regs, goto_lanes_self, goto_withRegs, goto_goto] at hrun
  change run (resizeStep P dev) (s.goto i (.begun (laneWord i) r conv)) os = some _ at hrun
  have hwrites : (ResizeLane.begun (laneWord i) r conv).todo .fr = (frfuncSetup (laneWord i) r).writes := rfl
  rw [hwrites] at hrun
  generalize writeAll ok (frfuncSetup (laneWord i) r).writes ⟨s.regs, [], n⟩ = first at hrun hfst hmem
  have hne : ResizeModule.conv ≠ .fr := by decide
  cases conv with
  | false =>
    -- the lane has no conversion module
    refine ⟨os, _, _, hos, hexec, by rw [run_cons, hcall, Option.bind_some, hrun], ?_, ?_, ?_⟩
    · exact hmem.symm
    · rw [goto_lanes_self]
      exact ⟨put_todo .., put_todo_of_ne hne ..⟩
    · rw [goto_lanes_self]
      refine iff_of_false (fun h => ?_) fun h => ?_
      · have hbroken := h.2.2
        rw [put_broken_of_ne hne] at hbroken
        cases hbroken
      · cases (hfst.mp h).2.1
  | true =>
    generalize hu : ((s.withRegs first.2.mem).goto i ((ResizeLane.begun (laneWord i) r true).put .fr []
      (if first.1 = true then (ResizeLane.begun (laneWord i) r true).broken .fr else true))) = u at hrun
    obtain ⟨os', hos', hrun'⟩ := writes_alone P dev (s := u) (i := i) (m := .conv) ok
      (convSetup (laneWord i) r).writes
      (by rw [← hu, goto_lanes_self, put_todo_of_ne hne]; rfl)
      (fun _ => by rw [← hu, goto_lanes_self, put_todo]) first.2.log first.2.tries
    have hregs : u.regs = first.2.mem := by rw [← hu]; rfl
    have hfr : (u.lanes i).broken .fr = !first.1 := by
      rw [← hu, goto_lanes_self, put_broken]
      cases first.1 <;> rfl
    have hconv : (u.lanes i).broken .conv = false := by
      rw [← hu, goto_lanes_self, put_broken_of_ne hne]
      rfl
    rw [hregs, hconv] at hrun'
    change run (resizeStep P dev) u os' = some ((u.withRegs
      (writeAll ok (convSetup (laneWord i) r).writes first.2).2.mem).goto i ((u.lanes i).put .conv []
        (if (writeAll ok (convSetup (laneWord i) r).writes first.2).1 = true then false else true))) at hrun'
    generalize writeAll ok (convSetup (laneWord i) r).writes first.2 = second at hrun' hfst hmem
    have hreturned : ((u.lanes i).put .conv [] (if second.1 = true then false else true)).Returned := by
      refine ⟨?_, put_todo ..⟩
      rw [put_todo_of_ne hne.symm, ← hu, goto_lanes_self, put_todo]
    refine ⟨os ++ os', _, (u.withRegs second.2.mem).goto i ((u.lanes i).put .conv []
      (if second.1 = true then false else true)), ?_, hexec, ?_, hmem.symm, ?_, ?_⟩
    · intro o ho
      exact (List.mem_append.mp ho).elim (hos o) (hos' o)
    · rw [run_cons, hcall, Option.bind_some, run_trans hrun hrun']
    · rw [goto_lanes_self]
      exact hreturned
    · rw [hfst, goto_lanes_self]
      refine (and_iff_right hreturned).trans ?_
      rw [put_broken_of_ne hne.symm, hfr, put_broken]
      cases first.1 <;> cases second.1 <;> decide

/-! ### What holds in every state -/

/-- The control register of a module. -/
def ResizeModule.control : ResizeModule → BitVec 32 → BitVec 32
  | .fr => frfuncKrnlOffset
  | .conv => convControl

/-- The cells of the modules. -/
def ResizeModule.cells (m : ResizeModule) (lane : BitVec 32) : List (BitVec 32) :=
  (m.setup lane ⟨0, 0, 0, 0, 0, 0⟩).cells

theorem setup_cells (m : ResizeModule) (lane : BitVec 32) (r : ResizeRequest) :
    (m.setup lane r).cells = m.cells lane := by
  cases m <;> rfl

theorem setup_control (m : ResizeModule) (lane : BitVec 32) (r : ResizeRequest) :
    (m.setup lane r).control = m.control lane := by
  cases m <;> rfl

theorem setup_stop (m : ResizeModule) (lane : BitVec 32) (r : ResizeRequest) :
    (m.setup lane r).stop = stopModule := by
  cases m <;> rfl

theorem cells_nodup (m : ResizeModule) (i : Fin 4) : (m.cells (laneWord i)).Nodup := by
  have hlane : (laneWord i).toNat < 4 := by
    rw [laneWord, BitVec.toNat_ofNat]
    omega
  cases m
  · exact (cells_apart hlane _).1
  · exact (cells_apart hlane _).2.1

/-- Where the cells of a module begin, and how many bytes there are to those of the next lane. -/
def ResizeModule.base : ResizeModule → ℕ × ℕ
  | .fr => (0x25000, 0x1000)
  | .conv => (0x24000, 0x400)

theorem mem_cells_range (m : ResizeModule) (i : Fin 4) : ∀ a ∈ m.cells (laneWord i),
    m.base.1 + m.base.2 * i ≤ a.toNat ∧ a.toNat < m.base.1 + m.base.2 * i + 0x48 := by
  intro a ha
  have hi : (i : ℕ) < 4 := i.isLt
  cases m <;>
    simp only [ResizeModule.cells, ResizeModule.setup, frfuncSetup, convSetup, Setup.cells, List.map_cons,
      List.map_nil, List.mem_cons, List.not_mem_nil, or_false, ResizeModule.base] at ha ⊢ <;>
    rcases ha with rfl | rfl | rfl | rfl | rfl <;>
    simp only [frfuncKrnlOffset, frfuncColsInput, frfuncRowsInput, frfuncColsOutput, frfuncRowsOutput,
      convControl, convKrnlOffset, convColsInput, convRowsInput, convFrameBufferL, convFrameBufferH,
      laneWord, BitVec.toNat_add, BitVec.toNat_mul, BitVec.toNat_ofNat, BitVec.reduceToNat] <;>
    omega

/-- Two modules have no cell in common. -/
theorem cells_disjoint {m' : ResizeModule} (h : ¬ (m' = m ∧ j = i)) :
    ∀ a ∈ m.cells (laneWord i), a ∉ m'.cells (laneWord j) := by
  intro a ha ha'
  have hrange := mem_cells_range m i a ha
  have hrange' := mem_cells_range m' j a ha'
  rw [Fin.ext_iff] at h
  cases m <;> cases m' <;> simp only [ResizeModule.base, reduceCtorEq, true_and, false_and] at * <;> omega

/-- What was asked of a module. -/
def Asked (A : Fin 4 → ResizeRequest → Bool → Prop) (i : Fin 4) (m : ResizeModule)
    (q : Setup (BitVec 32) (BitVec 32)) : Prop :=
  ∃ r conv, A i r conv ∧ (m = .conv → conv = true) ∧ q = m.setup (laneWord i) r

/-- What holds of every module. -/
def ResizeInv (A : Fin 4 → ResizeRequest → Bool → Prop) (s : ResizeSystem) : Prop :=
  ∀ i m, Setup.Going (Asked A i m) startModule (m.setup (laneWord i) (s.lanes i).request)
    ((s.lanes i).broken m) ((s.lanes i).todo m) s.regs

/-- Only what is asked for in a run is asked for. -/
def AskedOp (P : Parson) (dev : Option FunctionDevice) (A : Fin 4 → ResizeRequest → Bool → Prop)
    (_ : ResizeSystem) (o : ResizeOp) : Prop :=
  ∀ i c r conv, o = .call i c → c.parse P dev (laneWord i) = .ok (some (r, conv)) → A i r conv

variable {A : Fin 4 → ResizeRequest → Bool → Prop}

theorem asked_cells {q : Setup (BitVec 32) (BitVec 32)} (h : Asked A i m q) (r : ResizeRequest) :
    q.cells = (m.setup (laneWord i) r).cells := by
  obtain ⟨r', -, -, -, rfl⟩ := h
  rw [setup_cells, setup_cells]

/-- A lane has a call that begins. -/
theorem ResizeInv.begin (hinv : ResizeInv A s) {r : ResizeRequest} {conv : Bool}
    (hfree : (s.lanes i).Returned) (hasked : A i r conv) :
    ResizeInv A (s.goto i (.begun (laneWord i) r conv)) := by
  intro j m
  by_cases hj : j = i
  · subst hj
    have hgoing := hinv j m
    have htodo : (s.lanes j).todo m = [] := by
      cases m
      · exact hfree.1
      · exact hfree.2
    rw [htodo] at hgoing
    rw [goto_lanes_self, goto_regs]
    have hbegin : (m = .conv → conv = true) → Setup.Going (Asked A j m) startModule
        (m.setup (laneWord j) r) false (m.setup (laneWord j) r).writes s.regs := by
      intro hconv
      refine hgoing.begin (by rw [setup_control, setup_control]) ?_ ⟨r, conv, hasked, hconv, rfl⟩
      rw [setup_cells]
      exact cells_nodup m j
    cases m with
    | fr => exact hbegin fun h => by cases h
    | conv =>
      cases conv with
      | true => exact hbegin fun _ => rfl
      | false => exact hgoing.refuse (by rw [setup_control, setup_control])
  · rw [goto_lanes_of_ne hj, goto_regs]
    exact hinv j m

/-- A `pwrite` is done. -/
theorem ResizeInv.write (hinv : ResizeInv A s) {w : BitVec 32 × BitVec 32}
    {ws : List (BitVec 32 × BitVec 32)} (hws : (s.lanes i).todo m = w :: ws) :
    ResizeInv A ((s.withRegs (Function.update s.regs w.1 w.2)).goto i
      ((s.lanes i).put m ws ((s.lanes i).broken m))) := by
  have hgoing := hinv i m
  rw [hws] at hgoing
  have hcell : w.1 ∈ m.cells (laneWord i) := by
    rw [← setup_cells m (laneWord i) (s.lanes i).request]
    exact hgoing.phase.mem_cells List.mem_cons_self
  have hother : ∀ j m', ¬ (m' = m ∧ j = i) → Setup.Going (Asked A j m') startModule
      (m'.setup (laneWord j) (s.lanes j).request) ((s.lanes j).broken m') ((s.lanes j).todo m')
      (Function.update s.regs w.1 w.2) := by
    intro j m' hne
    refine (hinv j m').other (fun q hq => asked_cells hq _) fun a ha => ?_
    rw [setup_cells] at ha
    refine Function.update_of_ne (fun heq => ?_) ..
    exact cells_disjoint hne w.1 hcell (heq ▸ ha)
  intro j m'
  by_cases hj : j = i
  · subst hj
    rw [goto_lanes_self]
    by_cases hm : m' = m
    · subst hm
      rw [put_todo, put_broken]
      refine hgoing.write ?_ ?_
      · rw [setup_cells]
        exact cells_nodup m' j
      · rw [setup_stop]
        decide
    · rw [put_todo_of_ne hm, put_broken_of_ne hm]
      exact hother j m' fun h => hm h.1
  · rw [goto_lanes_of_ne hj]
    exact hother j m' fun h => hj h.2

/-- A `pwrite` fails. -/
theorem ResizeInv.fail (hinv : ResizeInv A s) (m : ResizeModule) :
    ResizeInv A (s.goto i ((s.lanes i).put m [] true)) := by
  intro j m'
  by_cases hj : j = i
  · subst hj
    rw [goto_lanes_self]
    by_cases hm : m' = m
    · subst hm
      rw [put_todo, put_broken]
      exact (hinv j m').fail
    · rw [put_todo_of_ne hm, put_broken_of_ne hm]
      exact hinv j m'
  · rw [goto_lanes_of_ne hj]
    exact hinv j m'

theorem ResizeInv.kill (hinv : ResizeInv A s) : ResizeInv A (s.goto i (s.lanes i).killed) := by
  intro j m
  by_cases hj : j = i
  · subst hj
    rw [goto_lanes_self]
    exact (hinv j m).fail
  · rw [goto_lanes_of_ne hj]
    exact hinv j m

theorem ResizeInv.step {o : ResizeOp} (hinv : ResizeInv A s) (hasked : AskedOp P dev A s o)
    (h : resizeStep P dev s o = some t) : ResizeInv A t := by
  cases o with
  | call i c =>
    simp only [resizeStep] at h
    split at h
    · rename_i hfree
      split at h
      · cases h
      · cases h
        exact hinv
      · rename_i r conv hparse
        cases h
        exact hinv.begin hfree (hasked i c r conv rfl hparse)
    · cases h
  | pwrite i ok =>
    simp only [resizeStep] at h
    split at h
    · cases h
    · rename_i m w ws hturn
      cases h
      cases ok with
      | true => exact hinv.write (turn_eq_some.mp hturn).1
      | false => exact hinv.fail m
  | kill i =>
    cases h
    exact hinv.kill

/-! ### Whole runs -/

/-- At first nobody is in a call, and no module is started. -/
structure ResizeSystem.Start (s : ResizeSystem) : Prop where
  /-- No call. -/
  idle : ∀ i m, (s.lanes i).todo m = [] ∧ (s.lanes i).broken m = true
  /-- No module is started. -/
  stopped : ∀ i (m : ResizeModule), s.regs (m.control (laneWord i)) ≠ startModule

theorem ResizeInv.start (h : s.Start) : ResizeInv A s := by
  intro i m
  rw [(h.idle i m).1, (h.idle i m).2]
  refine ⟨.ended, fun hstart => ?_, ?_, ?_, fun _ => rfl⟩
  · rw [setup_control] at hstart
    exact absurd hstart (h.stopped i m)
  · intro hb
    cases hb
  · intro hb
    cases hb

/-- What is asked for in a run. -/
def AskedIn (P : Parson) (dev : Option FunctionDevice) (os : List ResizeOp) (i : Fin 4)
    (r : ResizeRequest) (conv : Bool) : Prop :=
  ∃ c, ResizeOp.call i c ∈ os ∧ c.parse P dev (laneWord i) = .ok (some (r, conv))

theorem along_asked (h : ∀ i c r conv, ResizeOp.call i c ∈ os →
    c.parse P dev (laneWord i) = .ok (some (r, conv)) → A i r conv) :
    Along (resizeStep P dev) (AskedOp P dev A) s os := by
  induction os generalizing s with
  | nil => exact trivial
  | cons o os ih =>
    intro t _
    refine ⟨?_, ih fun i c r conv hc => h i c r conv (List.mem_cons_of_mem _ hc)⟩
    rintro i c r conv rfl hparse
    exact h i c r conv List.mem_cons_self hparse

theorem ResizeInv.run (hstart : s.Start) (hA : Along (resizeStep P dev) (AskedOp P dev A) s os)
    (hrun : run (resizeStep P dev) s os = some t) : ResizeInv A t :=
  (always_of_along (I := ResizeInv A) (fun _ _ _ hi ha hs => hi.step ha hs) (.start hstart) hA).last hrun

theorem ResizeInv.askedIn (hstart : s.Start) (hrun : Theory.run (resizeStep P dev) s os = some t) :
    ResizeInv (AskedIn P dev os) t :=
  .run hstart (along_asked fun _ c _ _ hc hparse => ⟨c, hc, hparse⟩) hrun

/-- **A module that is started has the sizes of one call.** Whatever the other lanes do meanwhile,
whichever `pwrite`s fail and whoever is killed in a call, the registers of a module that is started are
all those that one call for the lane asked for. -/
theorem never_mixed (hstart : s.Start) (hrun : run (resizeStep P dev) s os = some t)
    (hon : t.regs (m.control (laneWord i)) = startModule) :
    ∃ c r conv, ResizeOp.call i c ∈ os ∧ c.parse P dev (laneWord i) = .ok (some (r, conv)) ∧
      (m.setup (laneWord i) r).Done t.regs := by
  rw [← setup_control m (laneWord i) (t.lanes i).request] at hon
  obtain ⟨q, ⟨r, conv, ⟨c, hc, hparse⟩, -, rfl⟩, hdone⟩ := (ResizeInv.askedIn hstart hrun i m).whole hon
  exact ⟨c, r, conv, hc, hparse, hdone⟩

/-- A text with the sizes 640, 480, 320 and 240. -/
def sizesText : CString :=
  "\x7b\"i_width\":640,\"i_height\":480,\"o_width\":320,\"o_height\":240\x7d".toList

/-- `parson` for this text. -/
def sizesParson : Parson where
  Value := Unit
  Obj := Unit
  initObject := ()
  setNumber _ _ _ := none
  serialize _ := none
  parse text := if text = sizesText then some () else none
  getObject := some
  getValue _ name :=
    if name = "i_width".toList then some (.number 640)
    else if name = "i_height".toList then some (.number 480)
    else if name = "o_width".toList then some (.number 320)
    else if name = "o_height".toList then some (.number 240)
    else none

/-- A device with two lanes. -/
def resizeLanes : FunctionDevice := ⟨2, 2, by decide⟩

/-- Nobody set up a lane. -/
def resizeSystem : ResizeSystem where
  regs _ := 0
  lanes _ := ⟨⟨0, 0, 0, 0, 0, 0⟩, fun _ => [], fun _ => true⟩

theorem resizeSystem_start : resizeSystem.Start :=
  ⟨fun _ _ => ⟨rfl, rfl⟩, fun _ _ h => absurd h (by decide : (0 : BitVec 32) ≠ startModule)⟩

/-- One lane is set up while the call of another fails, and its process is killed. -/
def sizesRun : List ResizeOp :=
  [.pwrite 0 true, .call 1 .finish, .pwrite 1 true, .pwrite 0 true, .pwrite 1 false, .pwrite 0 true,
    .pwrite 0 true, .pwrite 0 true, .kill 1, .pwrite 0 true]

/-- The function module runs with the sizes of the text. -/
theorem never_mixed_sizes : ∃ t, run (resizeStep sizesParson (some resizeLanes)) resizeSystem
    (.call 0 (.set (some sizesText)) :: sizesRun) = some t ∧
    ∃ c r conv, ResizeOp.call 0 c ∈ ResizeOp.call 0 (.set (some sizesText)) :: sizesRun ∧
      c.parse sizesParson (some resizeLanes) (laneWord 0) = .ok (some (r, conv)) ∧
      (frfuncSetup (laneWord 0) r).Done t.regs := by
  obtain ⟨t, ht, hon⟩ : ∃ t, run (resizeStep sizesParson (some resizeLanes)) resizeSystem
      (.call 0 (.set (some sizesText)) :: sizesRun) = some t ∧
      t.regs (frfuncKrnlOffset (laneWord 0)) = startModule := ⟨_, rfl, rfl⟩
  exact ⟨t, ht, never_mixed (m := .fr) resizeSystem_start ht hon⟩

/-! ### Reading back -/

/-- The setting that a call asks for. -/
def ResizeRequest.setting (r : ResizeRequest) : ResizeSetting where
  frInput := (r.iWidth, r.iHeight)
  frOutput := (r.oWidth, r.oHeight)
  convInput := (r.iWidth, r.iHeight)
  frameBuffer := (r.frameBufferL, r.frameBufferH)

/-- A call that is not refused is for a lane that there is. -/
theorem parse_some {c : ResizeCall} {r : ResizeRequest} {conv : Bool}
    (h : c.parse P dev lane = .ok (some (r, conv))) :
    ∃ d, dev = some d ∧ lane.toNat < d.funcNum ∧ conv = decide (lane.toNat < d.convNum) := by
  cases dev with
  | none => cases c <;> cases h
  | some d =>
    refine ⟨d, rfl, ?_⟩
    by_cases hlane : d.funcNum ≤ lane.toNat
    · cases c with
      | finish =>
        simp only [ResizeCall.parse, if_pos hlane] at h
        cases h
      | set jsonTxt =>
        cases jsonTxt with
        | none => cases h
        | some txt =>
          simp only [ResizeCall.parse, if_pos hlane] at h
          cases h
    · refine ⟨Nat.lt_of_not_le hlane, ?_⟩
      cases c with
      | finish =>
        simp only [ResizeCall.parse, if_neg hlane] at h
        cases h
        rfl
      | set jsonTxt =>
        cases jsonTxt with
        | none => cases h
        | some txt =>
          simp only [ResizeCall.parse, if_neg hlane] at h
          obtain ⟨w₁, -, h⟩ := bind_eq_ok.mp h
          obtain ⟨w₂, -, h⟩ := bind_eq_ok.mp h
          obtain ⟨w₃, -, h⟩ := bind_eq_ok.mp h
          obtain ⟨w₄, -, h⟩ := bind_eq_ok.mp h
          split_ifs at h
          · cases h
          · cases h
            rfl

/-- Without a new call for the lane. -/
theorem request_kept {o : ResizeOp} (hquiet : ∀ c, o ≠ .call i c) (h : resizeStep P dev s o = some t) :
    (t.lanes i).request = (s.lanes i).request := by
  cases o with
  | call j c =>
    have hj : i ≠ j := fun hij => hquiet c (hij ▸ rfl)
    simp only [resizeStep] at h
    split at h
    · split at h
      · cases h
      · cases h
        rfl
      · cases h
        rw [goto_lanes_of_ne hj]
    · cases h
  | pwrite j ok =>
    simp only [resizeStep] at h
    split at h
    · cases h
    · cases h
      by_cases hj : i = j
      · subst hj
        cases ok <;> simp [ResizeLane.put]
      · cases ok <;> simp [goto_lanes_of_ne hj, ResizeSystem.withRegs]
  | kill j =>
    cases h
    by_cases hj : i = j
    · subst hj
      rw [goto_lanes_self]
      rfl
    · rw [goto_lanes_of_ne hj]

/-- What stays of a lane whose call returned, without a new one. -/
theorem lane_kept {o : ResizeOp} (hinv : ResizeInv A s) (hquiet : ∀ c, o ≠ .call i c)
    (hret : (s.lanes i).Returned) (h : resizeStep P dev s o = some t) :
    (t.lanes i).Returned ∧ ∀ m, ∀ a ∈ ResizeModule.cells m (laneWord i), t.regs a = s.regs a := by
  cases o with
  | call j c =>
    have hj : i ≠ j := fun hij => hquiet c (hij ▸ rfl)
    simp only [resizeStep] at h
    split at h
    · split at h
      · cases h
      · cases h
        exact ⟨hret, fun _ _ _ => rfl⟩
      · cases h
        rw [goto_lanes_of_ne hj]
        exact ⟨hret, fun _ _ _ => rfl⟩
    · cases h
  | pwrite j ok =>
    simp only [resizeStep] at h
    split at h
    · cases h
    · rename_i m w ws hturn
      obtain ⟨hws, -⟩ := turn_eq_some.mp hturn
      have hj : i ≠ j := by
        rintro rfl
        cases m
        · rw [hret.1] at hws
          cases hws
        · rw [hret.2] at hws
          cases hws
      have hcell : w.1 ∈ m.cells (laneWord j) := by
        have hphase := (hinv j m).phase
        rw [hws] at hphase
        rw [← setup_cells m (laneWord j) (s.lanes j).request]
        exact hphase.mem_cells List.mem_cons_self
      cases h
      cases ok with
      | false =>
        refine ⟨?_, fun _ _ _ => rfl⟩
        rw [if_neg Bool.false_ne_true, goto_lanes_of_ne hj]
        exact hret
      | true =>
        refine ⟨?_, fun m' a ha => ?_⟩
        · rw [if_pos rfl, goto_lanes_of_ne hj]
          exact hret
        · refine Function.update_of_ne (fun heq => ?_) ..
          exact cells_disjoint (fun hne => hj hne.2) w.1 hcell (heq ▸ ha)
  | kill j =>
    cases h
    refine ⟨?_, fun _ _ _ => rfl⟩
    by_cases hj : i = j
    · subst hj
      rw [goto_lanes_self]
      exact ⟨rfl, rfl⟩
    · rw [goto_lanes_of_ne hj]
      exact hret

theorem requests_kept (hquiet : ∀ c, ResizeOp.call i c ∉ os) (hrun : run (resizeStep P dev) s os = some t) :
    (t.lanes i).request = (s.lanes i).request := by
  induction os generalizing s with
  | nil =>
    cases hrun
    rfl
  | cons o os ih =>
    obtain ⟨u, hstep, hrun⟩ := run_cons_eq_some.mp hrun
    rw [ih (fun c hc => hquiet c (List.mem_cons_of_mem _ hc)) hrun]
    exact request_kept (fun c hc => hquiet c (hc ▸ List.mem_cons_self)) hstep

theorem lanes_kept (hinv : ResizeInv A s) (hA : Along (resizeStep P dev) (AskedOp P dev A) s os)
    (hquiet : ∀ c, ResizeOp.call i c ∉ os) (hret : (s.lanes i).Returned)
    (hrun : run (resizeStep P dev) s os = some t) :
    ∀ m, ∀ a ∈ ResizeModule.cells m (laneWord i), t.regs a = s.regs a := by
  induction os generalizing s with
  | nil =>
    cases hrun
    exact fun _ _ _ => rfl
  | cons o os ih =>
    obtain ⟨u, hstep, hrun⟩ := run_cons_eq_some.mp hrun
    obtain ⟨hasked, hA⟩ := hA u hstep
    obtain ⟨hret', hsame⟩ := lane_kept hinv (fun c hc => hquiet c (hc ▸ List.mem_cons_self)) hret hstep
    intro m a ha
    rw [ih (hinv.step hasked hstep) hA (fun c hc => hquiet c (List.mem_cons_of_mem _ hc)) hret' hrun m a ha]
    exact hsame m a ha

/-- What a getter saw while others went on: each register at some moment. -/
def Seen (P : Parson) (dev : Option FunctionDevice) (s : ResizeSystem) (os : List ResizeOp)
    (regs : BitVec 32 → BitVec 32) : Prop :=
  ∀ a, ∃ k u, run (resizeStep P dev) s (os.take k) = some u ∧ regs a = u.regs a

/-- **What was set is read.** If the last call for a lane returned 0, the text that
`fpga_filter_resize_get_setting` gives has exactly the sizes of that call, whatever the calls for other
lanes did since and do while the registers are read one by one. -/
theorem setting_read_back {os₁ os₂ os₃ : List ResizeOp} {c : ResizeCall} {r : ResizeRequest} {conv : Bool}
    {env : SettingEnv} (hstart : s.Start)
    (hrun : run (resizeStep P dev) s (os₁ ++ .call i c :: os₂) = some t)
    (hparse : c.parse P dev (laneWord i) = .ok (some (r, conv))) (hlast : ∀ c', ResizeOp.call i c' ∉ os₂)
    (hret : (t.lanes i).Succeeded) (hquiet : ∀ c', ResizeOp.call i c' ∉ os₃)
    (hseen : Seen P dev t os₃ env.regs) (hread : ∀ k, env.pread k = true) (hconv : env.convMemory = true)
    (hmemory : env.memory = true) :
    ∃ txt, fpgaFilterResizeGetSetting env dev (laneWord i) true = .ok (.ok txt) ∧
      ∀ st : ResizeSetting, st.text = txt ↔ st = r.setting := by
  have hinv := ResizeInv.askedIn hstart hrun
  have hall : ResizeInv (fun _ _ _ => True) t :=
    .run hstart (along_asked fun _ _ _ _ _ _ => trivial) hrun
  -- the request of the lane is that of the call
  have hrequest : (t.lanes i).request = r := by
    rw [run_append] at hrun
    obtain ⟨u, -, hrun⟩ := Option.bind_eq_some_iff.mp hrun
    obtain ⟨v, hstep, hrun⟩ := run_cons_eq_some.mp hrun
    rw [requests_kept hlast hrun]
    simp only [resizeStep, hparse] at hstep
    split_ifs at hstep
    cases hstep
    rw [goto_lanes_self]
    rfl
  obtain ⟨⟨hfr, hcv⟩, hbrokenFr, hbrokenCv⟩ := hret
  have hdone : ∀ m : ResizeModule, (m.setup (laneWord i) r).Done t.regs := by
    intro m
    have hgoing := hinv i m
    rw [hrequest] at hgoing
    cases m with
    | fr =>
      have hdone := hgoing.done hbrokenFr
      rwa [hfr] at hdone
    | conv =>
      have hdone := hgoing.done hbrokenCv
      rwa [hcv] at hdone
  -- the lane has both modules
  obtain ⟨r', conv', ⟨c', -, hparse'⟩, hconv', -⟩ := (hinv i .conv).asked hbrokenCv
  obtain ⟨d, rfl, hfunc, hnum⟩ := parse_some hparse'
  rw [hconv' rfl] at hnum
  have hnum := of_decide_eq_true hnum.symm
  -- what was seen is what was set
  have hregs : ∀ m : ResizeModule, ∀ w ∈ (m.setup (laneWord i) r).fields, env.regs w.1 = w.2 := by
    intro m w hw
    obtain ⟨k, u, hu, hreg⟩ := hseen w.1
    have hcell : w.1 ∈ m.cells (laneWord i) := by
      rw [← setup_cells m (laneWord i) r]
      exact List.mem_cons_of_mem _ (List.mem_map_of_mem hw)
    have hkept := lanes_kept hall (along_asked fun _ _ _ _ _ _ => trivial)
      (fun c' hc' => hquiet c' (List.mem_of_mem_take hc')) ⟨hfr, hcv⟩ hu m w.1 hcell
    rw [hreg, hkept]
    exact (hdone m).2 w hw
  have hsetting : settingOf env (laneWord i) = r.setting := by
    have hfields := hregs .fr
    have hfields' := hregs .conv
    simp only [ResizeModule.setup, frfuncSetup, convSetup, List.forall_mem_cons, List.not_mem_nil,
      false_implies, implies_true, and_true] at hfields hfields'
    obtain ⟨h₁, h₂, h₃, h₄⟩ := hfields
    obtain ⟨h₅, h₆, h₇, h₈⟩ := hfields'
    rw [settingOf, h₁, h₂, h₃, h₄, h₅, h₆, h₇, h₈]
    rfl
  have hget : fpgaFilterResizeGetSetting env (some d) (laneWord i) true =
      if env.memory then .ok (.ok (settingOf env (laneWord i)).text)
      else .ok (.error .failureMemoryAlloc) := getSetting_of_readable
    ⟨rfl, ⟨d, rfl, hfunc⟩, fun k _ => hread k⟩ ⟨⟨d, rfl, hnum⟩, fun k _ _ => hread k, hconv⟩
  rw [if_pos hmemory, hsetting] at hget
  exact ⟨_, hget, fun st => ⟨fun h => text_inj h, fun h => by rw [h]⟩⟩

/-- Behind the rest of the call, while the other lane is set up again. -/
theorem setting_read_back_sizes : ∃ t, run (resizeStep sizesParson (some resizeLanes)) resizeSystem
    ([] ++ .call 0 (.set (some sizesText)) :: (sizesRun ++ List.replicate 6 (.pwrite 0 true))) = some t ∧
    ∃ txt, fpgaFilterResizeGetSetting ⟨t.regs, fun _ => true, true, true⟩ (some resizeLanes) (laneWord 0)
      true = .ok (.ok txt) ∧
      ∀ st : ResizeSetting, st.text = txt ↔ st = ⟨(640, 480), (320, 240), (640, 480), (0, 4)⟩ := by
  obtain ⟨t, ht, hret⟩ : ∃ t, run (resizeStep sizesParson (some resizeLanes)) resizeSystem
      ([] ++ .call 0 (.set (some sizesText)) :: (sizesRun ++ List.replicate 6 (.pwrite 0 true))) = some t ∧
      (t.lanes 0).Succeeded := ⟨_, rfl, ⟨rfl, rfl⟩, rfl, rfl⟩
  have hparse : (ResizeCall.set (some sizesText)).parse sizesParson (some resizeLanes) (laneWord 0) =
      .ok (some (⟨640, 480, 320, 240, 0, 4⟩, true)) := rfl
  have hquiet : ∀ c, ResizeOp.call 0 c ∉ [ResizeOp.call 1 .finish] := by
    intro c hc
    simp at hc
  refine ⟨t, ht, setting_read_back resizeSystem_start ht hparse ?_ hret hquiet
    (fun _ => ⟨0, t, rfl, rfl⟩) (fun _ => rfl) rfl rfl⟩
  intro c hc
  simp [sizesRun, List.replicate] at hc

end HardwareDrivers.Libfpga
