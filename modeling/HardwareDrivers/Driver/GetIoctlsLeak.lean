import HardwareDrivers.Driver.GetIoctls

/-!
# What the GET ioctls tell of the stack

Two runs of a command on the same user structure and the same registers, which find different
values in the variables that were not set: what the user gets and the registers that are read
are to be the same.

## What is proved

* `handle_eq_of_sets` — a command that sets what it uses does not look at the stack.
* `handle_ne_of_not_sets` — one that does not set its `value` tells a bit of it.
* `ioctlGet_same_iff` — the runs agree exactly if the command sets what it uses.
-/

namespace HardwareDrivers.Driver

open Theory

/-- The user gets the same from two programs, and they read the same registers. -/
structure SameToUser {S α : Type} (hw : (c : RegCmd) → S → c.Ans × S) (s : S) (p q : RegProg α) :
    Prop where
  /-- What is copied. -/
  result : (p.eval hw s).1 = (q.eval hw s).1
  /-- What is read. -/
  reads : (p.trace hw s).filterMap RegCmd.readOffset = (q.trace hw s).filterMap RegCmd.readOffset

/-- The user structure selects a register in all branches that lead to a use of `value` or `addr`. -/
def GetCmd.Sets : GetCmd → Prop
  | .chainGetErr arg | .chainGetErrMask arg | .chainGetErrForce arg =>
    cidKind arg.dir ≠ none ∧ extifNumber arg.extifId ≠ none
  | .chainErrGetIns arg => cidKind arg.dir ≠ none → extifNumber arg.extifId ≠ none
  | .chainGetErrTbl arg | .chainGetErrTblMask arg | .chainGetErrTblForce arg =>
    cidKind arg.dir ≠ none ∧ (cidKind arg.dir = some .ingress → extifNumber arg.extifId ≠ none)
  | .chainGetErrProt arg | .chainGetErrProtMask arg | .chainGetErrProtForce arg
  | .chainErrProtGetIns arg => cidKind arg.dir ≠ none
  | .chainGetErrEvt arg | .chainGetErrEvtMask arg | .chainGetErrEvtForce arg =>
    extifNumber arg.extifId ≠ none
  | .chainErrCmdfaultGetIns arg => extifNumber arg.extifId ≠ none
  | .chainGetConnection arg => extifNumber arg.extifId ≠ none
  | .directGetFrames arg => directKind arg.regId ≠ none
  | _ => True

/-! ### What is set -/

variable {m : FpgaModuleInfo} {view : FaultView}

theorem chainErrValue_of_some {e : FpgaIoctlChainErr} (hdir : cidKind e.dir ≠ none)
    (hextif : extifNumber e.extifId ≠ none) (v w : BitVec 32) :
    chainErrValue m view v e = chainErrValue m view w e := by
  obtain ⟨kind, hkind⟩ := Option.ne_none_iff_exists'.mp hdir
  obtain ⟨extif, hextif⟩ := Option.ne_none_iff_exists'.mp hextif
  simp only [chainErrValue, hkind, hextif]

theorem chainErrValue_of_none {e : FpgaIoctlChainErr}
    (h : ¬ (cidKind e.dir ≠ none ∧ extifNumber e.extifId ≠ none)) (v : BitVec 32) :
    chainErrValue m view v e = pure v := by
  unfold chainErrValue
  cases hkind : cidKind e.dir with
  | none => rfl
  | some kind =>
    cases hextif : extifNumber e.extifId with
    | none => rfl
    | some extif => exact absurd ⟨by simp [hkind], by simp [hextif]⟩ h

theorem chainErrTableValue_of_some {e : FpgaIoctlChainErrTable} (hdir : cidKind e.dir ≠ none)
    (hextif : cidKind e.dir = some .ingress → extifNumber e.extifId ≠ none) (v w : BitVec 32) :
    chainErrTableValue m view v e = chainErrTableValue m view w e := by
  unfold chainErrTableValue
  cases hkind : cidKind e.dir with
  | none => exact absurd hkind hdir
  | some kind =>
    cases kind with
    | ingress =>
      obtain ⟨extif, hextif⟩ := Option.ne_none_iff_exists'.mp (hextif hkind)
      rw [hextif]
    | egress => rfl

theorem chainErrTableValue_of_none {e : FpgaIoctlChainErrTable}
    (h : ¬ (cidKind e.dir ≠ none ∧
      (cidKind e.dir = some .ingress → extifNumber e.extifId ≠ none))) (v : BitVec 32) :
    chainErrTableValue m view v e = pure v := by
  unfold chainErrTableValue
  cases hkind : cidKind e.dir with
  | none => rfl
  | some kind =>
    cases kind with
    | ingress =>
      cases hextif : extifNumber e.extifId with
      | none => rfl
      | some extif => exact absurd ⟨by simp [hkind], fun _ => by simp [hextif]⟩ h
    | egress => exact absurd ⟨by simp [hkind], by simp [hkind]⟩ h

theorem getChainErrProt_of_some {e : FpgaIoctlErrProt} (hdir : cidKind e.dir ≠ none)
    (v w : BitVec 32) : getChainErrProt m view v e = getChainErrProt m view w e := by
  obtain ⟨kind, hkind⟩ := Option.ne_none_iff_exists'.mp hdir
  simp only [getChainErrProt, hkind]

theorem getChainErrEvt_of_some {e : FpgaIoctlChainErrEvt} (hextif : extifNumber e.extifId ≠ none)
    (v w : BitVec 32) : getChainErrEvt m view v e = getChainErrEvt m view w e := by
  obtain ⟨extif, hextif⟩ := Option.ne_none_iff_exists'.mp hextif
  simp only [getChainErrEvt, hextif]

/-! ### A command that sets what it uses -/

/-- A command that sets what it uses does not look at the stack. -/
theorem handle_eq_of_sets (dev : StatModules) {cmd : GetCmd} (h : cmd.Sets) (u v : UnsetLocals) :
    cmd.handle dev u = cmd.handle dev v := by
  cases cmd with
  | chainGetErr arg =>
    simp only [GetCmd.handle, xpcieFpgaDetectChainErr,
      chainErrValue_of_some h.1 h.2 u.value v.value]
  | chainGetErrMask arg =>
    simp only [GetCmd.handle, xpcieFpgaGetMaskChainErr,
      chainErrValue_of_some h.1 h.2 u.value v.value]
  | chainGetErrForce arg =>
    simp only [GetCmd.handle, xpcieFpgaGetForceChainErr,
      chainErrValue_of_some h.1 h.2 u.value v.value]
  | chainErrGetIns arg =>
    simp only [GetCmd.handle, xpcieFpgaGetInsChainErr]
    cases hkind : cidKind arg.dir with
    | none => rfl
    | some kind =>
      have hdir : cidKind arg.dir ≠ none := by simp [hkind]
      cases kind <;> simp only [chainErrValue_of_some hdir (h hdir) u.value v.value]
  | chainGetErrTbl arg =>
    simp only [GetCmd.handle, xpcieFpgaDetectChainErrTable,
      chainErrTableValue_of_some h.1 h.2 u.value v.value]
  | chainGetErrTblMask arg =>
    simp only [GetCmd.handle, xpcieFpgaGetMaskChainErrTable,
      chainErrTableValue_of_some h.1 h.2 u.value v.value]
  | chainGetErrTblForce arg =>
    simp only [GetCmd.handle, xpcieFpgaGetForceChainErrTable,
      chainErrTableValue_of_some h.1 h.2 u.value v.value]
  | chainGetErrProt arg =>
    exact congrArg (GetCmd.chainGetErrProt <$> ·) (getChainErrProt_of_some h _ _)
  | chainGetErrProtMask arg =>
    exact congrArg (GetCmd.chainGetErrProtMask <$> ·) (getChainErrProt_of_some h _ _)
  | chainGetErrProtForce arg =>
    exact congrArg (GetCmd.chainGetErrProtForce <$> ·) (getChainErrProt_of_some h _ _)
  | chainErrProtGetIns arg =>
    exact congrArg (GetCmd.chainErrProtGetIns <$> ·) (getChainErrProt_of_some h _ _)
  | chainGetErrEvt arg =>
    exact congrArg (GetCmd.chainGetErrEvt <$> ·) (getChainErrEvt_of_some h _ _)
  | chainGetErrEvtMask arg =>
    exact congrArg (GetCmd.chainGetErrEvtMask <$> ·) (getChainErrEvt_of_some h _ _)
  | chainGetErrEvtForce arg =>
    exact congrArg (GetCmd.chainGetErrEvtForce <$> ·) (getChainErrEvt_of_some h _ _)
  | chainErrCmdfaultGetIns arg =>
    obtain ⟨extif, hextif⟩ := Option.ne_none_iff_exists'.mp h
    simp only [GetCmd.handle, xpcieFpgaGetInsChainErrCmdfault, hextif]
  | chainGetConnection arg =>
    obtain ⟨extif, hextif⟩ := Option.ne_none_iff_exists'.mp h
    simp only [GetCmd.handle, xpcieFpgaGetChainConStatus, hextif]
  | directGetFrames arg =>
    obtain ⟨kind, hkind⟩ := Option.ne_none_iff_exists'.mp h
    simp only [GetCmd.handle, xpcieFpgaGetDirectFrames, hkind]
  | _ => rfl

/-! ### A command that does not -/

variable {S : Type} (hw : (c : RegCmd) → S → c.Ans × S) (s : S)

/-- The last bit of a register, as a field. -/
theorem regField_zero_ne_one : regField 0 0x00000001 0 ≠ regField 1 0x00000001 0 := by decide

theorem FpgaIoctlChainErr.decode_ne (e : FpgaIoctlChainErr) : e.decode 0 ≠ e.decode 1 :=
  fun h => regField_zero_ne_one (congrArg FpgaIoctlChainErr.headerMarker h)

theorem FpgaIoctlChainErrTable.decode_ne (e : FpgaIoctlChainErrTable) : e.decode 0 ≠ e.decode 1 :=
  fun h => regField_zero_ne_one (congrArg FpgaIoctlChainErrTable.conTableMiss h)

theorem FpgaIoctlErrProt.decode_ne (e : FpgaIoctlErrProt) : e.decode 0 ≠ e.decode 1 :=
  fun h => regField_zero_ne_one (congrArg FpgaIoctlErrProt.protCh h)

theorem FpgaIoctlChainErrEvt.decode_ne (e : FpgaIoctlChainErrEvt) : e.decode 0 ≠ e.decode 1 :=
  fun h => regField_zero_ne_one (congrArg FpgaIoctlChainErrEvt.established h)

theorem detectChainErr_ne {e : FpgaIoctlChainErr}
    (h : ¬ (cidKind e.dir ≠ none ∧ extifNumber e.extifId ≠ none)) :
    ((xpcieFpgaDetectChainErr m 0 e).eval hw s).1 ≠
      ((xpcieFpgaDetectChainErr m 1 e).eval hw s).1 := by
  have hdecode (v : BitVec 32) : ((xpcieFpgaDetectChainErr m v e).eval hw s).1 = e.decode v := by
    simp only [xpcieFpgaDetectChainErr, chainErrValue_of_none h]
    cases cidKind e.dir <;> rfl
  rw [hdecode, hdecode]
  exact e.decode_ne

theorem insChainErr_ne {e : FpgaIoctlChainErr} (hdir : cidKind e.dir ≠ none)
    (hextif : extifNumber e.extifId = none) :
    ((xpcieFpgaGetInsChainErr m 0 e).eval hw s).1 ≠
      ((xpcieFpgaGetInsChainErr m 1 e).eval hw s).1 := by
  have hnone (v : BitVec 32) : chainErrValue m .ins v e = pure v :=
    chainErrValue_of_none (fun h => h.2 hextif) v
  obtain ⟨kind, hkind⟩ := Option.ne_none_iff_exists'.mp hdir
  cases kind with
  | ingress =>
    simp only [xpcieFpgaGetInsChainErr, hkind, hnone]
    exact fun h => regField_zero_ne_one (congrArg FpgaIoctlChainErr.pointerTableInvalid h)
  | egress =>
    simp only [xpcieFpgaGetInsChainErr, hkind, hnone]
    exact fun h => regField_zero_ne_one (congrArg FpgaIoctlChainErr.headerMarker h)

theorem detectChainErrTable_ne {e : FpgaIoctlChainErrTable}
    (h : ¬ (cidKind e.dir ≠ none ∧
      (cidKind e.dir = some .ingress → extifNumber e.extifId ≠ none))) :
    ((xpcieFpgaDetectChainErrTable m 0 e).eval hw s).1 ≠
      ((xpcieFpgaDetectChainErrTable m 1 e).eval hw s).1 := by
  have hdecode (v : BitVec 32) :
      ((xpcieFpgaDetectChainErrTable m v e).eval hw s).1 = e.decode v := by
    simp only [xpcieFpgaDetectChainErrTable, chainErrTableValue_of_none h]
    cases hkind : cidKind e.dir with
    | none => rfl
    | some kind => cases kind <;> rfl
  rw [hdecode, hdecode]
  exact e.decode_ne

theorem getChainErrProt_ne {e : FpgaIoctlErrProt} (hdir : cidKind e.dir = none) :
    ((getChainErrProt m view 0 e).eval hw s).1 ≠ ((getChainErrProt m view 1 e).eval hw s).1 := by
  simp only [getChainErrProt, hdir, Prog.pure_bind, Prog.eval_pure]
  exact e.decode_ne

theorem getChainErrEvt_ne {e : FpgaIoctlChainErrEvt} (hextif : extifNumber e.extifId = none) :
    ((getChainErrEvt m view 0 e).eval hw s).1 ≠ ((getChainErrEvt m view 1 e).eval hw s).1 := by
  simp only [getChainErrEvt, hextif, Prog.pure_bind, Prog.eval_pure]
  exact e.decode_ne

/-- A command copies all of its structure. -/
theorem map_ne {β γ : Type} {c : β → γ} (hc : Function.Injective c) {p q : RegProg β}
    (h : (p.eval hw s).1 ≠ (q.eval hw s).1) :
    ((c <$> p).eval hw s).1 ≠ ((c <$> q).eval hw s).1 := by
  rw [Prog.eval_map, Prog.eval_map]
  exact hc.ne h

/-- A command that does not set its `value` tells the last bit of it. -/
theorem handle_ne_of_not_sets (dev : StatModules) (addr : BitVec 64) {cmd : GetCmd}
    (h : ¬ cmd.Sets) (hframes : ∀ arg, cmd ≠ .directGetFrames arg) :
    ((cmd.handle dev ⟨0, addr⟩).eval hw s).1 ≠ ((cmd.handle dev ⟨1, addr⟩).eval hw s).1 := by
  cases cmd with
  | chainGetErr arg =>
    exact map_ne hw s (fun _ _ => GetCmd.chainGetErr.inj) (detectChainErr_ne hw s h)
  | chainGetErrMask arg =>
    refine map_ne hw s (fun _ _ => GetCmd.chainGetErrMask.inj) ?_
    simp only [xpcieFpgaGetMaskChainErr, chainErrValue_of_none h]
    exact arg.decode_ne
  | chainGetErrForce arg =>
    refine map_ne hw s (fun _ _ => GetCmd.chainGetErrForce.inj) ?_
    simp only [xpcieFpgaGetForceChainErr, chainErrValue_of_none h]
    exact arg.decode_ne
  | chainErrGetIns arg =>
    obtain ⟨hdir, hextif⟩ := Classical.not_imp.mp h
    exact map_ne hw s (fun _ _ => GetCmd.chainErrGetIns.inj)
      (insChainErr_ne hw s hdir (not_not.mp hextif))
  | chainGetErrTbl arg =>
    exact map_ne hw s (fun _ _ => GetCmd.chainGetErrTbl.inj) (detectChainErrTable_ne hw s h)
  | chainGetErrTblMask arg =>
    refine map_ne hw s (fun _ _ => GetCmd.chainGetErrTblMask.inj) ?_
    simp only [xpcieFpgaGetMaskChainErrTable, chainErrTableValue_of_none h]
    exact arg.decode_ne
  | chainGetErrTblForce arg =>
    refine map_ne hw s (fun _ _ => GetCmd.chainGetErrTblForce.inj) ?_
    simp only [xpcieFpgaGetForceChainErrTable, chainErrTableValue_of_none h]
    exact arg.decode_ne
  | chainGetErrProt arg =>
    exact map_ne hw s (fun _ _ => GetCmd.chainGetErrProt.inj)
      (getChainErrProt_ne hw s (not_not.mp h))
  | chainGetErrProtMask arg =>
    exact map_ne hw s (fun _ _ => GetCmd.chainGetErrProtMask.inj)
      (getChainErrProt_ne hw s (not_not.mp h))
  | chainGetErrProtForce arg =>
    exact map_ne hw s (fun _ _ => GetCmd.chainGetErrProtForce.inj)
      (getChainErrProt_ne hw s (not_not.mp h))
  | chainErrProtGetIns arg =>
    exact map_ne hw s (fun _ _ => GetCmd.chainErrProtGetIns.inj)
      (getChainErrProt_ne hw s (not_not.mp h))
  | chainGetErrEvt arg =>
    exact map_ne hw s (fun _ _ => GetCmd.chainGetErrEvt.inj) (getChainErrEvt_ne hw s (not_not.mp h))
  | chainGetErrEvtMask arg =>
    exact map_ne hw s (fun _ _ => GetCmd.chainGetErrEvtMask.inj)
      (getChainErrEvt_ne hw s (not_not.mp h))
  | chainGetErrEvtForce arg =>
    exact map_ne hw s (fun _ _ => GetCmd.chainGetErrEvtForce.inj)
      (getChainErrEvt_ne hw s (not_not.mp h))
  | chainErrCmdfaultGetIns arg =>
    refine map_ne hw s (fun _ _ => GetCmd.chainErrCmdfaultGetIns.inj) ?_
    simp only [xpcieFpgaGetInsChainErrCmdfault, not_not.mp h]
    intro heq
    have henable : (0 : BitVec 16) = 1 := congrArg FpgaIoctlChainErrCmdfault.enable heq
    exact absurd henable (by decide)
  | chainGetConnection arg =>
    refine map_ne hw s (fun _ _ => GetCmd.chainGetConnection.inj) ?_
    simp only [xpcieFpgaGetChainConStatus, not_not.mp h]
    intro heq
    have hvalue : (0 : BitVec 32) = 1 := congrArg FpgaIoctlChainConStatus.value heq
    exact absurd hvalue (by decide)
  | directGetFrames arg => exact absurd rfl (hframes arg)
  | _ => exact absurd trivial h

/-- The register that `xpcie_fpga_get_direct_frames` reads is on its stack, if not selected. -/
theorem directGetFrames_reads (dev : StatModules) {arg : FpgaIoctlFramenum}
    (h : directKind arg.regId = none) (u : UnsetLocals) :
    (((GetCmd.directGetFrames arg).handle dev u).trace hw s).filterMap RegCmd.readOffset =
      [dev.direct.offset u.addr arg.lane] := by
  simp only [GetCmd.handle, xpcieFpgaGetDirectFrames, h, Prog.trace_map]
  rfl

/-- A GET ioctl gives the user something that depends on the stack exactly if the user structure
does not select what the command uses. -/
theorem ioctlGet_same_iff (dev : StatModules) (copyFromUser : Bool) (cmd : GetCmd) :
    (∀ u v, SameToUser hw s (xpcieFpgaIoctlGet dev copyFromUser u cmd)
      (xpcieFpgaIoctlGet dev copyFromUser v cmd)) ↔ (copyFromUser = true → cmd.Sets) := by
  constructor
  · rintro h rfl
    by_contra hsets
    by_cases hframes : ∀ arg, cmd ≠ .directGetFrames arg
    · have hresult := (h ⟨0, 0⟩ ⟨1, 0⟩).result
      have hne := handle_ne_of_not_sets hw s dev 0 hsets hframes
      exact map_ne hw s (Option.some_injective _) hne hresult
    · push Not at hframes
      obtain ⟨arg, rfl⟩ := hframes
      have hreads := (h ⟨0, 0⟩ ⟨0, 4⟩).reads
      simp only [xpcieFpgaIoctlGet, Bool.true_eq_false, if_false, Prog.trace_map,
        directGetFrames_reads hw s dev (not_not.mp hsets), List.cons.injEq, and_true,
        FpgaModuleInfo.offset_inj] at hreads
      exact absurd hreads (by decide)
  · intro h u v
    cases copyFromUser with
    | false => exact ⟨rfl, rfl⟩
    | true =>
      simp only [xpcieFpgaIoctlGet, handle_eq_of_sets dev (h rfl) u v]
      exact ⟨rfl, rfl⟩

/-- A process that asks for the masks of direction 2 gets bits of the stack. -/
theorem not_ioctlGet_same : ¬ ∀ (S : Type) (hw : (c : RegCmd) → S → c.Ans × S) (s : S)
    (dev : StatModules) (copyFromUser : Bool) (cmd : GetCmd) (u v : UnsetLocals),
    SameToUser hw s (xpcieFpgaIoctlGet dev copyFromUser u cmd)
      (xpcieFpgaIoctlGet dev copyFromUser v cmd) := by
  intro h
  let hw (c : RegCmd) (s : Unit) : c.Ans × Unit :=
    RegCmd.casesOn c (fun _ => (0, s)) (fun _ _ => ((), s))
  have := (h Unit hw () ⟨⟨0, 0⟩, ⟨0, 0⟩⟩ true
    (.chainGetErrMask ⟨0, 0, 2, 0, 0, 0, 0, 0, 0, 0, 0, 0, 0, 0, 0⟩) ⟨0, 0⟩ ⟨1, 0⟩).result
  exact absurd this (by decide)

end HardwareDrivers.Driver
