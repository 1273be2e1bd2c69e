import HardwareDrivers.Driver.ChainMirror

/-!
# Two ioctls on one table

The update, the delete and the read of an entry each take several accesses to the
registers of a lane and a direction, and nothing keeps two of them apart: the accesses
of two ioctls through different files come in any order.
-/

namespace HardwareDrivers.Driver

open Theory

/-! ### The ioctls -/

/-- An ioctl on an entry. -/
inductive ChainOp where
  /-- `XPCIE_DEV_CHAIN_UPDATE_TABLE_INGR`, `XPCIE_DEV_CHAIN_UPDATE_TABLE_EGR`. -/
  | update (id : FpgaId)
  /-- `XPCIE_DEV_CHAIN_DELETE_TABLE_INGR`, `XPCIE_DEV_CHAIN_DELETE_TABLE_EGR`. -/
  | delete (id : FpgaId)
  /-- `XPCIE_DEV_CHAIN_READ_TABLE_INGR`, `XPCIE_DEV_CHAIN_READ_TABLE_EGR`. -/
  | read (id : FpgaId)

namespace ChainOp

/-- What the caller hands over. -/
def id : ChainOp → FpgaId
  | update id | delete id | read id => id

/-- The accesses; the result is what the caller gets back. -/
def prog (kind : CidKind) : ChainOp → ChainProg (Except ChainErrno FpgaId)
  | update id => do
    let r ← xpcieFpgaUpdateFuncChainTable id kind
    pure (r.map fun _ => id)
  | delete id => do
    let r ← xpcieFpgaDeleteFuncChainTable id kind
    pure (r.map fun entry => { id with extifId := entry.extifId, cid := entry.cid })
  | read id => xpcieFpgaReadFuncChainTable id kind

/-- The ioctl returns an error before it accesses a register. -/
def Quiet (kind : CidKind) (t : ChainTables) : ChainOp → Prop
  | update id => ¬ id.entry.Valid
  | delete id => t.soft id.lane id.fchid kind = none
  | read id => ¬ t.Found id kind

/-- The module carried out `x` for the ioctl, and the ioctl gave `r` back. -/
def Own (kind : CidKind) (r : FpgaId) (x : Executed) : ChainOp → Prop
  | update id => x = ⟨1, entryKey id.entry id.fchid kind, id.word kind⟩
  | delete id => r.entry.Valid ∧ x = ⟨2, entryKey r.entry id.fchid kind, 0⟩
  | read id => x.code = 3 ∧ x.key = entryKey id.entry id.fchid kind ∧ r = id.readWord x.word kind

/-- Two ioctls that ask the module for the same. -/
def SameRequest (kind : CidKind) : ChainOp → ChainOp → Prop
  | update a, update b => a.entry = b.entry ∧ a.fchid = b.fchid ∧ a.word kind = b.word kind
  | read a, read b => entryKey a.entry a.fchid kind = entryKey b.entry b.fchid kind
  | _, _ => False

/-! ### The request of an ioctl -/

/-- The code. -/
def code : ChainOp → BitVec 32
  | update _ => 1
  | delete _ => 2
  | read _ => 3

/-- The registers that are written before the code. -/
def params (kind : CidKind) (t : ChainTables) : ChainOp → List (ForwardReg × BitVec 32)
  | update id => id.updateParams kind
  | delete id => keyParams (idsOf (t.soft id.lane id.fchid kind)) id.fchid kind
  | read id => keyParams id.entry id.fchid kind

/-- What is left when the module has answered, or has not. -/
def last (kind : CidKind) : ChainOp → Bool → ChainProg (Except ChainErrno FpgaId)
  | update id, true =>
    .cmd (.storeEntry id.lane id.fchid kind (some id.entry)) fun _ => .done (.ok id)
  | delete id, true =>
    .cmd (.loadEntry id.lane id.fchid kind) fun entry =>
      .cmd (.storeEntry id.lane id.fchid kind none) fun _ =>
        .done (.ok { id with extifId := (idsOf entry).extifId, cid := (idsOf entry).cid })
  | read id, true =>
    .cmd (.regRead id.lane kind (readAddr kind)) fun readVal =>
      .done (.ok (id.readWord readVal kind))
  | _, false => .done (.error .updateTimeout)

/-- The request and what is left then. -/
def body (kind : CidKind) (t : ChainTables) (op : ChainOp) :
    ChainProg (Except ChainErrno FpgaId) :=
  chainRequest op.id.lane kind (op.params kind t) op.code >>= op.last kind

end ChainOp

/-- `p` is `q`, or looks at the table of the driver first. -/
def Opens (soft : Lane → Fchid → CidKind → Option ExtifidCid) {α : Type} (p q : ChainProg α) : Prop :=
  p = q ∨ ∃ c next, p = .cmd c next ∧ ∀ s : ChainDev, s.fchDevTable = soft →
    (chainExec true c s).2 = s ∧ next (chainExec true c s).1 = q

variable {s : ChainDev} {kind : CidKind} {op : ChainOp}

/-- An ioctl that is not quiet comes to its request. -/
theorem ChainOp.opens (h : ¬ op.Quiet kind s.tables) :
    Opens s.fchDevTable (op.prog kind) (op.body kind s.tables) := by
  cases op with
  | update id =>
    left
    rw [ChainOp.prog, xpcieFpgaUpdateFuncChainTable, if_pos (not_not.mp h), Prog.bind_assoc]
    refine congrArg _ (funext fun done => ?_)
    cases done <;> rfl
  | delete id =>
    right
    refine ⟨.loadEntry id.lane id.fchid kind, _, rfl, fun u hu => ⟨rfl, ?_⟩⟩
    obtain ⟨entry, hentry⟩ := Option.ne_none_iff_exists'.mp h
    have hload : (chainExec true (.loadEntry id.lane id.fchid kind) u).1 = some entry := by
      rw [← hentry]
      exact congrFun (congrFun (congrFun hu _) _) _
    rw [hload, ChainOp.body, ChainOp.params, hentry]
    refine (Prog.bind_assoc _ _ _).trans (congrArg _ (funext fun done => ?_))
    cases done <;> rfl
  | read id =>
    right
    cases kind with
    | ingress =>
      refine ⟨.findEntry id.entry, _, rfl, fun u hu => ⟨rfl, ?_⟩⟩
      have hfind : u.findEntry id.entry = true := by
        rw [findEntry_eq_true, hu]
        exact not_not.mp h
      simp only [chainExec, hfind, if_true]
      refine congrArg _ (funext fun done => ?_)
      cases done <;> rfl
    | egress =>
      refine ⟨.loadEntry id.lane id.fchid .egress, _, rfl, fun u hu => ⟨rfl, ?_⟩⟩
      have hload : u.fchDevTable id.lane id.fchid .egress ≠ none := by
        rw [hu]
        exact not_not.mp h
      change (if (u.fchDevTable id.lane id.fchid .egress).isNone then _ else _) = _
      rw [if_neg (by simpa using hload)]
      refine congrArg _ (funext fun done => ?_)
      cases done <;> rfl

/-! ### The parts of a request -/

/-- The module after the registers of a request. -/
def ForwardPort.latch (kind : CidKind) (params : List (ForwardReg × BitVec 32)) (port : ForwardPort) :
    ForwardPort :=
  params.foldl (fun port param => port.write true kind param.1 param.2) (port.writeReq true kind 0)

/-- The accesses of a request before its code. -/
def setupRequest (lane : Lane) (kind : CidKind) (params : List (ForwardReg × BitVec 32)) :
    ChainProg Unit :=
  .cmd (.regWrite lane kind .updateReq 0) fun _ =>
    params.foldr (fun param rest => .cmd (.regWrite lane kind param.1 param.2) fun _ => rest)
      (.done ())

/-- The code and the monitoring. -/
def fireRequest (lane : Lane) (kind : CidKind) (code : BitVec 32) : ChainProg Bool :=
  .cmd (.regWrite lane kind .updateReq code) fun _ => monitorResp lane kind fpgaUpdatePollingMax

theorem chainRequest_eq (lane : Lane) (kind : CidKind) (params : List (ForwardReg × BitVec 32))
    (code : BitVec 32) : chainRequest lane kind params code =
      setupRequest lane kind params >>= fun _ => fireRequest lane kind code := by
  have hparams : (params.foldr (fun param rest => .cmd (.regWrite lane kind param.1 param.2)
      fun _ => rest) (fireRequest lane kind code) : ChainProg Bool) =
      (params.foldr (fun param rest => .cmd (.regWrite lane kind param.1 param.2) fun _ => rest)
        (.done ()) : ChainProg Unit) >>= fun _ => fireRequest lane kind code := by
    induction params with
    | nil => rfl
    | cons param params ih => exact congrArg (Prog.cmd _) (funext fun _ => ih)
  exact congrArg (Prog.cmd _) (funext fun _ => hparams)

theorem eval_setupRequest (lane : Lane) (kind : CidKind) (params : List (ForwardReg × BitVec 32))
    (s : ChainDev) : (setupRequest lane kind params).eval (chainExec true) s =
      ((), s.setPort lane kind ((s.port lane kind).latch kind params)) := by
  have hparams : ∀ port : ForwardPort,
      (params.foldr (fun param rest => .cmd (.regWrite lane kind param.1 param.2) fun _ => rest)
        (.done ()) : ChainProg Unit).eval (chainExec true) (s.setPort lane kind port) =
      ((), s.setPort lane kind
        (params.foldl (fun port param => port.write true kind param.1 param.2) port)) := by
    induction params with
    | nil => exact fun port => rfl
    | cons param params ih =>
      intro port
      simp only [List.foldr_cons, List.foldl_cons, Prog.eval_cmd, chainExec, port_setPort,
        setPort_setPort]
      exact ih _
  exact hparams _

theorem eval_fireRequest (lane : Lane) (kind : CidKind) (code : BitVec 32) (s : ChainDev) :
    (fireRequest lane kind code).eval (chainExec true) s =
      (decide (((s.port lane kind).writeReq true kind code).updateResp = 1),
        s.setPort lane kind ((s.port lane kind).writeReq true kind code)) := by
  rw [fireRequest, Prog.eval_cmd, show fpgaUpdatePollingMax = 99 + 1 from rfl, eval_monitorResp]
  simp only [chainExec, ForwardPort.write, port_setPort]

/-- The registers of a request carry nothing out. -/
theorem latch_spec (kind : CidKind) (params : List (ForwardReg × BitVec 32))
    (hparams : ∀ param ∈ params, param.1 = .session ∨ param.1 = .channel) (port : ForwardPort) :
    (port.latch kind params).updateResp = 0 ∧ (port.latch kind params).table = port.table ∧
      (port.latch kind params).executed = port.executed := by
  obtain ⟨hresp, htable, hexec⟩ := foldl_write true kind params hparams (port.writeReq true kind 0)
  exact ⟨hresp, htable, hexec⟩

theorem ChainOp.params_mem (t : ChainTables) (op : ChainOp) :
    ∀ param ∈ op.params kind t, param.1 = .session ∨ param.1 = .channel := by
  cases op with
  | update id => exact updateParams_mem id kind
  | delete id => exact keyParams_mem _ _ kind
  | read id => exact keyParams_mem _ _ kind

/-- The entry a request is for. -/
def ChainOp.key (kind : CidKind) (t : ChainTables) : ChainOp → BitVec 10
  | .update id => entryKey id.entry id.fchid kind
  | .delete id => entryKey (idsOf (t.soft id.lane id.fchid kind)) id.fchid kind
  | .read id => entryKey id.entry id.fchid kind

theorem key_latch (t : ChainTables) (op : ChainOp) (port : ForwardPort) :
    (port.latch kind (op.params kind t)).key kind = op.key kind t := by
  cases op with
  | update id => cases kind <;> simp [ForwardPort.latch, ChainOp.params, FpgaId.updateParams,
      ForwardPort.write, ForwardPort.key, ChainOp.key, entryKey]
  | delete id => cases kind <;> simp [ForwardPort.latch, ChainOp.params, keyParams,
      ForwardPort.write, ForwardPort.key, ChainOp.key, entryKey]
  | read id => cases kind <;> simp [ForwardPort.latch, ChainOp.params, keyParams,
      ForwardPort.write, ForwardPort.key, ChainOp.key, entryKey]

theorem ChainOp.code_cases (op : ChainOp) : op.code = 1 ∨ op.code = 2 ∨ op.code = 3 := by
  cases op with
  | update id => exact .inl rfl
  | delete id => exact .inr (.inl rfl)
  | read id => exact .inr (.inr rfl)

/-- A code that comes when there is no response is carried out. -/
theorem writeReq_fires (kind : CidKind) {port : ForwardPort} (hresp : port.updateResp = 0) (op : ChainOp) :
    (port.writeReq true kind op.code).updateResp = 1 ∧
      ∃ word, (port.writeReq true kind op.code).executed =
        ⟨op.code, port.key kind, word⟩ :: port.executed := by
  have hzero : op.code ≠ 0 := by
    obtain h | h | h := op.code_cases <;> rw [h] <;> decide
  rw [ForwardPort.writeReq, if_neg hzero, if_pos ⟨rfl, hresp⟩]
  refine ⟨rfl, ?_⟩
  cases op with
  | update id => exact ⟨port.word kind, rfl⟩
  | delete id => exact ⟨0, rfl⟩
  | read id =>
    refine ⟨(port.table (port.key kind)).getD 0, ?_⟩
    cases kind <;> rfl

/-- A code that comes when there is a response is not. -/
theorem writeReq_missed (kind : CidKind) {port : ForwardPort} (hresp : port.updateResp = 1) (op : ChainOp) :
    (port.writeReq true kind op.code).updateResp = 1 ∧
      (port.writeReq true kind op.code).executed = port.executed := by
  have hzero : op.code ≠ 0 := by
    obtain h | h | h := op.code_cases <;> rw [h] <;> decide
  rw [ForwardPort.writeReq, if_neg hzero, if_neg (by simp [hresp])]
  exact ⟨hresp, rfl⟩

/-- What is left when the module has answered succeeds, and accesses no register that counts. -/
theorem eval_last (kind : CidKind) (op : ChainOp) (s : ChainDev) :
    ∃ r t, (op.last kind true).eval (chainExec true) s = (.ok r, t) ∧ t.port = s.port ∧
      ∀ id, op = .delete id → r.entry = idsOf (s.fchDevTable id.lane id.fchid kind) ∧
        t.fchDevTable id.lane id.fchid kind = none := by
  cases op with
  | update id =>
    refine ⟨_, _, rfl, rfl, ?_⟩
    intro id' h
    cases h
  | delete id =>
    refine ⟨_, _, rfl, rfl, ?_⟩
    intro id' h
    cases h
    exact ⟨rfl, fchDevTable_setEntry ..⟩
  | read id =>
    refine ⟨_, _, rfl, rfl, ?_⟩
    intro id' h
    cases h

/-! ### Two ioctls -/

/-- Two ioctls on the same lane and direction. -/
structure ChainPair where
  /-- The lane. -/
  lane : Lane
  /-- The direction. -/
  kind : CidKind
  /-- The ioctls. -/
  op : Bool → ChainOp
  /-- They are on the lane. -/
  lane_op : ∀ i, (op i).id.lane = lane

/-- The accesses of the two. -/
abbrev ChainRace := Shared Bool ChainCmd ChainCmd.Ans (Except ChainErrno FpgaId) ChainDev

namespace ChainPair

/-- Both are about to start. -/
def start (P : ChainPair) (s : ChainDev) : ChainRace := ⟨s, fun i => (P.op i).prog P.kind⟩

/-- Every ioctl that succeeded had its own request carried out, and the driver and the module
agree. -/
structure Sound (P : ChainPair) (s : ChainDev) (t : ChainRace) : Prop where
  /-- The module carried out the request since the start. -/
  own : ∀ i r, t.progs i = .done (.ok r) → ∃ new,
    (t.state.port P.lane P.kind).executed = new ++ (s.port P.lane P.kind).executed ∧
      ∃ x ∈ new, (P.op i).Own P.kind r x
  /-- The tables. -/
  agrees : t.state.tables.Agrees (fun _ => True) P.lane P.kind

/-- The two do not disturb each other. -/
def Compatible (P : ChainPair) (t : ChainTables) : Prop :=
  ((∃ i, (P.op i).Quiet P.kind t) ∨ (P.op false).SameRequest P.kind (P.op true)) ∧
    ∀ i id, P.op i = .update id → id.entry.Valid → t.Fresh P.lane id.fchid id.entry P.kind

end ChainPair

/-! #### A request between the parts of another -/

theorem Opens.run {soft : Lane → Fchid → CidKind → Option ExtifidCid}
    {p q : ChainProg (Except ChainErrno FpgaId)} (h : Opens soft p q) {r : ChainRace} {i : Bool}
    (hp : r.progs i = p) (hsoft : r.state.fchDevTable = soft) :
    ∃ sched, run (Shared.step (chainExec true)) r sched =
      some ⟨r.state, Function.update r.progs i q⟩ := by
  obtain rfl | ⟨c, next, rfl, hc⟩ := h
  · refine ⟨[], ?_⟩
    rw [← hp, Function.update_eq_self]
    rfl
  · obtain ⟨hstate, hnext⟩ := hc r.state hsoft
    refine ⟨[i], ?_⟩
    rw [run_cons, Shared.step_eq_some.mpr ⟨c, next, hp, rfl⟩, hstate, hnext]
    rfl

theorem not_ne (i : Bool) : (!i) ≠ i := by simp

/-- An ioctl that is not quiet, up to its code. -/
theorem run_setup {r : ChainRace} {i : Bool} {op : ChainOp} {lane : Lane} (hlane : op.id.lane = lane)
    (hop : ¬ op.Quiet kind s.tables) (hp : r.progs i = op.prog kind)
    (hsoft : r.state.fchDevTable = s.fchDevTable) :
    ∃ sched t, run (Shared.step (chainExec true)) r sched = some t ∧
      t.state = r.state.setPort lane kind
        ((r.state.port lane kind).latch kind (op.params kind s.tables)) ∧
      t.progs i = fireRequest lane kind op.code >>= op.last kind ∧ t.progs (!i) = r.progs !i := by
  obtain ⟨sched, hopen⟩ := (ChainOp.opens hop).run hp hsoft
  have hbody : op.body kind s.tables = setupRequest lane kind (op.params kind s.tables) >>=
      fun _ => fireRequest lane kind op.code >>= op.last kind := by
    rw [ChainOp.body, hlane, chainRequest_eq, Prog.bind_assoc]
  obtain ⟨n, hsetup⟩ := Shared.run_prefix (chainExec true)
    (⟨r.state, Function.update r.progs i (op.body kind s.tables)⟩ : ChainRace) i
    ((Function.update_self ..).trans hbody)
  refine ⟨_, _, run_trans hopen hsetup, ?_, Function.update_self .., ?_⟩
  · rw [eval_setupRequest]
  · exact (Function.update_of_ne (not_ne i) ..).trans (Function.update_of_ne (not_ne i) ..)

/-- The rest of an ioctl whose request is answered. -/
theorem run_fire {r : ChainRace} {i : Bool} {op : ChainOp} {lane : Lane}
    (hp : r.progs i = fireRequest lane kind op.code >>= op.last kind)
    (hresp : ((r.state.port lane kind).writeReq true kind op.code).updateResp = 1) :
    ∃ sched res t, run (Shared.step (chainExec true)) r sched = some t ∧
      t.state.port lane kind = (r.state.port lane kind).writeReq true kind op.code ∧
      t.progs i = .done (.ok res) ∧ t.progs (!i) = r.progs (!i) ∧
      ∀ id, op = .delete id → res.entry = idsOf (r.state.fchDevTable id.lane id.fchid kind) ∧
        t.state.fchDevTable id.lane id.fchid kind = none := by
  obtain ⟨n, hrun⟩ := Shared.run_alone (chainExec true) r i
  obtain ⟨res, t, hlast, hport, hdelete⟩ := eval_last kind op
    (r.state.setPort lane kind ((r.state.port lane kind).writeReq true kind op.code))
  have heval : (r.progs i).eval (chainExec true) r.state = (.ok res, t) := by
    rw [hp, Prog.eval_bind, eval_fireRequest, decide_eq_true hresp, hlast]
  rw [heval] at hrun
  refine ⟨_, res, _, hrun, ?_, Function.update_self .., Function.update_of_ne (not_ne i) .., hdelete⟩
  rw [hport, port_setPort]

/-- Two requests of which the module carries out one: both set their registers, then both give
their codes. -/
theorem clash (P : ChainPair) (s : ChainDev) (hquiet : ∀ i, ¬ (P.op i).Quiet P.kind s.tables) :
    ∃ sched t resA resB x, run (Shared.step (chainExec true)) (P.start s) sched = some t ∧
      t.progs false = .done (.ok resA) ∧ t.progs true = .done (.ok resB) ∧
      (t.state.port P.lane P.kind).executed = x :: (s.port P.lane P.kind).executed ∧
      x.key = (P.op true).key P.kind s.tables ∧
      ∀ id id', P.op false = .delete id → P.op true = .delete id' →
        resA.entry = idsOf (s.fchDevTable P.lane id.fchid P.kind) ∧
          (id.fchid = id'.fchid → resB.entry = idsOf none) := by
  have hlane := P.lane_op
  obtain ⟨sched₁, t₁, h₁, hs₁, hp₁, hq₁⟩ := run_setup (r := P.start s) (i := false) (hlane false)
    (hquiet false) rfl rfl
  obtain ⟨sched₂, t₂, h₂, hs₂, hp₂, hq₂⟩ := run_setup (r := t₁) (i := true) (hlane true)
    (hquiet true) hq₁ (by rw [hs₁]; rfl)
  have hport₁ : t₁.state.port P.lane P.kind =
      (s.port P.lane P.kind).latch P.kind ((P.op false).params P.kind s.tables) := by
    rw [hs₁, port_setPort]
    rfl
  have hport₂ : t₂.state.port P.lane P.kind = (t₁.state.port P.lane P.kind).latch P.kind
      ((P.op true).params P.kind s.tables) := by
    rw [hs₂, port_setPort]
  have hsoft₂ : t₂.state.fchDevTable = s.fchDevTable := by
    rw [hs₂, hs₁]
    rfl
  obtain ⟨-, -, hexec₁⟩ := latch_spec P.kind _ ((P.op false).params_mem s.tables)
    (s.port P.lane P.kind)
  obtain ⟨hresp₂, -, hexec₂⟩ := latch_spec P.kind _ ((P.op true).params_mem s.tables)
    (t₁.state.port P.lane P.kind)
  rw [← hport₂] at hresp₂ hexec₂
  rw [← hport₁] at hexec₁
  obtain ⟨hfire, word, hlog⟩ := writeReq_fires P.kind hresp₂ (P.op false)
  obtain ⟨sched₃, resA, t₃, h₃, hs₃, hp₃, hq₃, hd₃⟩ := run_fire (i := false) (hq₂.trans hp₁) hfire
  rw [← hs₃] at hfire hlog
  obtain ⟨hmiss, hkeep⟩ := writeReq_missed P.kind hfire (P.op true)
  obtain ⟨sched₄, resB, t₄, h₄, hs₄, hp₄, hq₄, hd₄⟩ := run_fire (i := true) (hq₃.trans hp₂) hmiss
  refine ⟨_, t₄, resA, resB, ⟨(P.op false).code, (t₂.state.port P.lane P.kind).key P.kind, word⟩,
    run_trans (run_trans (run_trans h₁ h₂) h₃) h₄, hq₄.trans hp₃, hp₄, ?_, ?_, ?_⟩
  · rw [hs₄, hkeep, hlog, hexec₂, hexec₁]
  · rw [hport₂, key_latch]
  · intro id id' hA hB
    have hidA : id.lane = P.lane := by
      have h := hlane false
      rw [hA] at h
      exact h
    have hidB : id'.lane = P.lane := by
      have h := hlane true
      rw [hB] at h
      exact h
    obtain ⟨hresA, hnone⟩ := hd₃ id hA
    obtain ⟨hresB, -⟩ := hd₄ id' hB
    rw [hsoft₂, hidA] at hresA
    refine ⟨hresA, fun hf => ?_⟩
    rw [hresB, ← hf, hidB, ← hidA, hnone]

/-! #### What must hold -/

theorem not_valid_none : ¬ (idsOf none).Valid := by
  decide

/-- The request carried out has the code of the ioctl. -/
theorem ChainOp.Own.code_eq {op : ChainOp} {r : FpgaId} {x : Executed} (h : op.Own kind r x) :
    x.code = op.code := by
  cases op with
  | update id =>
    obtain rfl : x = _ := h
    rfl
  | delete id =>
    obtain rfl : x = _ := h.2
    rfl
  | read id => exact h.1

/-- Operations with one code are of one kind. -/
theorem ChainOp.cases_of_code_eq {a b : ChainOp} (h : a.code = b.code) :
    (∃ x y, a = .update x ∧ b = .update y) ∨ (∃ x y, a = .delete x ∧ b = .delete y) ∨
      ∃ x y, a = .read x ∧ b = .read y := by
  cases a with
  | update x =>
    cases b with
    | update y => exact .inl ⟨x, y, rfl, rfl⟩
    | delete y => exact absurd h (by decide : ¬ (1 : BitVec 32) = 2)
    | read y => exact absurd h (by decide : ¬ (1 : BitVec 32) = 3)
  | delete x =>
    cases b with
    | update y => exact absurd h (by decide : ¬ (2 : BitVec 32) = 1)
    | delete y => exact .inr (.inl ⟨x, y, rfl, rfl⟩)
    | read y => exact absurd h (by decide : ¬ (2 : BitVec 32) = 3)
  | read x =>
    cases b with
    | update y => exact absurd h (by decide : ¬ (3 : BitVec 32) = 1)
    | delete y => exact absurd h (by decide : ¬ (3 : BitVec 32) = 2)
    | read y => exact .inr (.inr ⟨x, y, rfl, rfl⟩)

/-- Two ioctls whose requests were both carried out, when only one was, ask for the same. -/
theorem sameRequest_of_own {P : ChainPair} (hagree : s.tables.Agrees (fun _ => True) P.lane P.kind)
    (hquiet : ∀ i, ¬ (P.op i).Quiet P.kind s.tables) {resA resB : FpgaId} {x : Executed}
    (hA : (P.op false).Own P.kind resA x) (hB : (P.op true).Own P.kind resB x)
    (hdelete : ∀ id id', P.op false = .delete id → P.op true = .delete id' →
      resA.entry = idsOf (s.fchDevTable P.lane id.fchid P.kind) ∧
        (id.fchid = id'.fchid → resB.entry = idsOf none))
    (hkey : x.key = (P.op true).key P.kind s.tables) :
    (P.op false).SameRequest P.kind (P.op true) := by
  have hcode : (P.op false).code = (P.op true).code := hA.code_eq.symm.trans hB.code_eq
  have hqA := hquiet false
  have hqB := hquiet true
  have hlA := P.lane_op false
  have hlB := P.lane_op true
  rcases ChainOp.cases_of_code_eq hcode with
    ⟨a, b, hopA, hopB⟩ | ⟨a, b, hopA, hopB⟩ | ⟨a, b, hopA, hopB⟩
  · -- both update
    rw [hopA] at hA hqA ⊢
    rw [hopB] at hB hqB ⊢
    obtain rfl : x = _ := hA
    obtain ⟨-, hkey, hword⟩ := Executed.mk.injEq .. ▸ (show _ = _ from hB)
    have hnames : Names (b.word P.kind) a.fchid a.entry P.kind := by
      rw [← hword]
      exact names_word (not_not.mp hqA)
    obtain ⟨hfchid, hentry⟩ := eq_of_names_word (not_not.mp hqB) (not_not.mp hqA) hkey hnames
    exact ⟨hentry, hfchid, hword⟩
  · -- both delete: the second finds no entry
    rw [hopA] at hA hqA hlA
    rw [hopB] at hB hqB hlB hkey
    obtain ⟨hresA, hresB⟩ := hdelete a b hopA hopB
    obtain ⟨eA, heA⟩ := Option.ne_none_iff_exists'.mp hqA
    obtain ⟨eB, heB⟩ := Option.ne_none_iff_exists'.mp hqB
    rw [show a.lane = P.lane from hlA] at heA
    have hsoftB : s.tables.soft P.lane b.fchid P.kind = some eB := by
      rw [← show b.lane = P.lane from hlB]
      exact heB
    obtain ⟨-, rfl⟩ := hA
    rw [hresA, show s.fchDevTable P.lane a.fchid P.kind = some eA from heA] at hkey
    rw [ChainOp.key, heB] at hkey
    have hfchid : a.fchid = b.fchid :=
      (hwEntry_unique ((hagree _ _).mpr heA) ((hagree _ _).mpr hsoftB) hkey).1
    rw [ChainOp.Own, hresB hfchid] at hB
    exact absurd hB.1 not_valid_none
  · -- both read
    rw [hopA] at hA ⊢
    rw [hopB] at hB ⊢
    exact hA.2.1.symm.trans hB.2.1

/-- If all interleavings are sound, the two ask for the same or one of them is quiet. -/
theorem sameRequest_of_sound {P : ChainPair}
    (hagree : s.tables.Agrees (fun _ => True) P.lane P.kind)
    (hquiet : ∀ i, ¬ (P.op i).Quiet P.kind s.tables)
    (h : ∀ sched t, run (Shared.step (chainExec true)) (P.start s) sched = some t → t.Finished →
      P.Sound s t) : (P.op false).SameRequest P.kind (P.op true) := by
  obtain ⟨sched, t, resA, resB, x, hrun, hA, hB, hlog, hkey, hdelete⟩ := clash P s hquiet
  have hsound := h sched t hrun fun i => by
    cases i with
    | false => exact ⟨_, hA⟩
    | true => exact ⟨_, hB⟩
  have hown : ∀ i r, t.progs i = .done (.ok r) → (P.op i).Own P.kind r x := by
    intro i r hi
    obtain ⟨new, hnew, y, hy, hown⟩ := hsound.own i r hi
    rw [hlog] at hnew
    obtain rfl : [x] = new := List.append_cancel_right (show [x] ++ _ = new ++ _ from hnew)
    rw [List.mem_singleton] at hy
    exact hy ▸ hown
  exact sameRequest_of_own hagree hquiet (hown false resA hA) (hown true resB hB) hdelete hkey

/-! #### An ioctl by itself -/

/-- A quiet ioctl comes to an error. -/
theorem ChainOp.opens_error (h : op.Quiet kind s.tables) :
    ∃ e, Opens s.fchDevTable (op.prog kind) (.done (.error e)) := by
  cases op with
  | update id =>
    refine ⟨.einval, .inl ?_⟩
    rw [ChainOp.prog, xpcieFpgaUpdateFuncChainTable, if_neg h]
    rfl
  | delete id =>
    refine ⟨.noChainFound, .inr ⟨.loadEntry id.lane id.fchid kind, _, rfl, fun u hu => ⟨rfl, ?_⟩⟩⟩
    have hload : (chainExec true (.loadEntry id.lane id.fchid kind) u).1 = none := by
      rw [← show s.fchDevTable id.lane id.fchid kind = none from h]
      exact congrFun (congrFun (congrFun hu _) _) _
    rw [hload]
    rfl
  | read id =>
    cases kind with
    | ingress =>
      refine ⟨.noChainFound, .inr ⟨.findEntry id.entry, _, rfl, fun u hu => ⟨rfl, ?_⟩⟩⟩
      have hfind : u.findEntry id.entry = false := by
        rw [← Bool.not_eq_true, findEntry_eq_true, hu]
        exact h
      simp only [chainExec, hfind]
      rfl
    | egress =>
      refine ⟨.noChainFound, .inr ⟨.loadEntry id.lane id.fchid .egress, _, rfl, fun u hu => ⟨rfl, ?_⟩⟩⟩
      have hload : u.fchDevTable id.lane id.fchid .egress = none := by
        rw [hu]
        exact not_not.mp h
      change (if (u.fchDevTable id.lane id.fchid .egress).isNone then _ else _) = _
      rw [hload]
      rfl

theorem Opens.eval {soft : Lane → Fchid → CidKind → Option ExtifidCid} {α : Type} {p q : ChainProg α}
    (h : Opens soft p q) (hs : s.fchDevTable = soft) :
    p.eval (chainExec true) s = q.eval (chainExec true) s := by
  obtain rfl | ⟨c, next, rfl, hc⟩ := h
  · rfl
  · obtain ⟨hstate, hnext⟩ := hc s hs
    rw [Prog.eval_cmd, hnext, hstate]

/-- The request of an ioctl. -/
theorem eval_body (op : ChainOp) (hresp : ((s.port op.id.lane kind).request true kind
    (op.params kind s.tables) op.code).updateResp = 1) :
    (op.body kind s.tables).eval (chainExec true) s = (op.last kind true).eval (chainExec true)
      (s.setPort op.id.lane kind ((s.port op.id.lane kind).request true kind
        (op.params kind s.tables) op.code)) := by
  rw [ChainOp.body, Prog.eval_bind, eval_chainRequest, decide_eq_true hresp]

/-- An ioctl that is not quiet, by itself, has its own request carried out, and keeps the driver
and the module in agreement unless it moves something. -/
theorem eval_prog (hop : ¬ op.Quiet kind s.tables) :
    ∃ res t x, (op.prog kind).eval (chainExec true) s = (.ok res, t) ∧
      (t.port op.id.lane kind).executed = x :: (s.port op.id.lane kind).executed ∧
      (s.tables.Agrees (fun _ => True) op.id.lane kind → op.Own kind res x ∧
        (t.tables.Agrees (fun _ => True) op.id.lane kind ↔ ∀ id, op = .update id →
          s.tables.Fresh id.lane id.fchid id.entry kind)) := by
  rw [(ChainOp.opens hop).eval rfl]
  cases op with
  | update id =>
    obtain ⟨hresp, htable, hexec⟩ := request_update (s.port id.lane kind) id kind
    rw [eval_body (.update id) hresp]
    refine ⟨_, _, _, rfl, ?_, fun hagree => ⟨rfl, ?_⟩⟩
    · exact (congrArg ForwardPort.executed (port_setPort _)).trans hexec
    · have hagree : s.tables.Agrees (fun _ => True) id.lane kind := hagree
      have hset := hagree.set_some_iff (not_not.mp hop) trivial
      rw [← tables_setPort_setEntry htable id.fchid (some id.entry)] at hset
      refine hset.trans ⟨fun h id' he => ?_, fun h => h id rfl⟩
      cases he
      exact h
  | delete id =>
    obtain ⟨entry, hentry⟩ := Option.ne_none_iff_exists'.mp hop
    have hids : idsOf (s.tables.soft id.lane id.fchid kind) = entry := by
      rw [hentry]
      rfl
    obtain ⟨hresp, htable, hexec⟩ := request_delete (s.port id.lane kind)
      (idsOf (s.tables.soft id.lane id.fchid kind)) id.fchid kind
    rw [eval_body (.delete id) hresp]
    refine ⟨_, _, _, rfl, ?_, fun hagree => ⟨⟨?_, rfl⟩, ?_⟩⟩
    · exact (congrArg ForwardPort.executed (port_setPort _)).trans hexec
    · exact hids ▸ ((hagree _ _).mpr hentry).1
    · have hset : (s.tables.set id.lane kind _ none id.fchid none).Agrees _ id.lane kind :=
        ChainTables.Agrees.set_none hagree hentry
      rw [← hids, ← tables_setPort_setEntry htable id.fchid none] at hset
      exact iff_of_true hset fun id' he => by cases he
  | read id =>
    obtain ⟨hresp, htable, hword, hexec⟩ := request_read (s.port id.lane kind) id.entry id.fchid kind
    rw [eval_body (.read id) hresp]
    refine ⟨_, _, ⟨3, entryKey id.entry id.fchid kind,
      ((s.port id.lane kind).table (entryKey id.entry id.fchid kind)).getD 0⟩, rfl, ?_,
      fun hagree => ⟨⟨rfl, rfl, ?_⟩, ?_⟩⟩
    · exact (congrArg ForwardPort.executed (port_setPort _)).trans hexec
    · refine congrArg (fun w => id.readWord w kind) ?_
      rw [← hword, ← read_readAddr]
      exact congrArg (fun p => ForwardPort.read p _) (port_setPort _)
    · refine iff_of_true ?_ fun id' he => by cases he
      rw [← tables_setPort htable] at hagree
      exact hagree

/-! #### What an update moves -/

theorem eval_update_tables {id : FpgaId} (hid : id.entry.Valid) (kind : CidKind) (s : ChainDev) :
    (((ChainOp.update id).prog kind).eval (chainExec true) s).2.tables =
      s.tables.set id.lane kind (entryKey id.entry id.fchid kind) (some (id.word kind)) id.fchid
        (some id.entry) := by
  rw [ChainOp.prog, Prog.eval_bind]
  obtain ⟨hbad, -⟩ | ⟨-, t, ⟨-, heval, htables⟩ | ⟨hans, -⟩⟩ := update_cases_tables true id kind s
  · exact absurd hid hbad
  · rw [heval]
    exact htables
  · cases hans

theorem ChainPair.update_of_sameRequest {P : ChainPair}
    (h : (P.op false).SameRequest P.kind (P.op true)) {i : Bool} {id : FpgaId}
    (hi : P.op i = .update id) : ∃ id', P.op (!i) = .update id' ∧ id'.entry = id.entry ∧
      id'.fchid = id.fchid ∧ id'.word P.kind = id.word P.kind := by
  cases i with
  | false =>
    rw [hi] at h
    cases hop : P.op true with
    | update id' =>
      rw [hop] at h
      exact ⟨id', hop, h.1.symm, h.2.1.symm, h.2.2.symm⟩
    | delete id' =>
      rw [hop] at h
      cases h
    | read id' =>
      rw [hop] at h
      cases h
  | true =>
    rw [hi] at h
    cases hop : P.op false with
    | update id' =>
      rw [hop] at h
      exact ⟨id', hop, h⟩
    | delete id' =>
      rw [hop] at h
      cases h
    | read id' =>
      rw [hop] at h
      cases h

/-- If all interleavings are sound, an update moves nothing. -/
theorem fresh_of_sound {P : ChainPair} (hagree : s.tables.Agrees (fun _ => True) P.lane P.kind)
    (hpair : (∃ i, (P.op i).Quiet P.kind s.tables) ∨ (P.op false).SameRequest P.kind (P.op true))
    (h : ∀ sched t, run (Shared.step (chainExec true)) (P.start s) sched = some t → t.Finished →
      P.Sound s t) {i : Bool} {id : FpgaId} (hi : P.op i = .update id) (hid : id.entry.Valid) :
    s.tables.Fresh P.lane id.fchid id.entry P.kind := by
  have hlane : id.lane = P.lane := by
    rw [← P.lane_op i, hi]
    rfl
  have hagree' : s.tables.Agrees (fun _ => True) id.lane P.kind := by
    rw [hlane]
    exact hagree
  have hset := hagree'.set_some_iff hid trivial
  rw [hlane] at hset
  apply hset.mp
  rw [← hlane]
  obtain ⟨j, hquiet⟩ | hsame := hpair
  · -- the quiet one first
    obtain rfl : i = !j := by
      apply Bool.eq_not_of_ne
      rintro rfl
      rw [hi] at hquiet
      exact hquiet hid
    obtain ⟨sched, hrun⟩ := Shared.run_both (chainExec true) (P.start s) j
    obtain ⟨e, hopens⟩ := ChainOp.opens_error hquiet
    have hagrees := (h _ _ hrun fun _ => ⟨_, rfl⟩).agrees
    rw [show ((P.start s).progs j).eval (chainExec true) (P.start s).state = _ from hopens.eval rfl,
      show (P.start s).progs (!j) = (ChainOp.update id).prog P.kind from
        congrArg (ChainOp.prog P.kind) hi] at hagrees
    rw [← eval_update_tables hid P.kind s, hlane]
    exact hagrees
  · -- one after the other
    obtain ⟨id', hi', hentry, hfchid, hword⟩ := ChainPair.update_of_sameRequest hsame hi
    have hlane' : id'.lane = id.lane := by
      rw [hlane, ← P.lane_op (!i), hi']
      rfl
    obtain ⟨sched, hrun⟩ := Shared.run_both (chainExec true) (P.start s) i
    have hagrees := (h _ _ hrun fun _ => ⟨_, rfl⟩).agrees
    rw [show (P.start s).progs i = (ChainOp.update id).prog P.kind from
        congrArg (ChainOp.prog P.kind) hi,
      show (P.start s).progs (!i) = (ChainOp.update id').prog P.kind from
        congrArg (ChainOp.prog P.kind) hi', eval_update_tables (hentry ▸ hid),
      eval_update_tables hid, hlane', hentry, hfchid, hword, set_set, hlane] at hagrees
    rw [hlane]
    exact hagrees

/-! #### One of them is quiet -/

/-- A store to the table of the driver is the end of the program. -/
def StoresLast {α : Type} : ChainProg α → Prop
  | .done _ => True
  | .cmd c next => (∀ x, StoresLast (next x)) ∧
    ∀ lane fchid kind entry, c = .storeEntry lane fchid kind entry → ∀ x, ∃ a, next x = .done a

theorem StoresLast.bind {α β : Type} {p : ChainProg α} {f : α → ChainProg β}
    (hp : p.All fun c => ∀ lane fchid kind entry, c ≠ .storeEntry lane fchid kind entry)
    (hf : ∀ a, StoresLast (f a)) : StoresLast (p >>= f) := by
  induction p with
  | done a => exact hf a
  | cmd c next ih =>
    exact ⟨fun x => ih x (hp.2 x), fun lane fchid kind entry h => absurd h (hp.1 lane fchid kind entry)⟩

theorem chainRequest_all (lane : Lane) (kind : CidKind) (params : List (ForwardReg × BitVec 32))
    (code : BitVec 32) : (chainRequest lane kind params code).All
      fun c => ∀ lane fchid kind entry, c ≠ .storeEntry lane fchid kind entry := by
  have hmonitor : ∀ n, (monitorResp lane kind n).All
      fun c => ∀ lane fchid kind entry, c ≠ .storeEntry lane fchid kind entry := by
    intro n
    induction n with
    | zero => trivial
    | succ n ih =>
      refine ⟨fun _ _ _ _ h => (by cases h), fun resp => ?_⟩
      change (if resp = 1 then pure true else monitorResp lane kind n : ChainProg Bool).All _
      split_ifs
      · trivial
      · exact ih
  refine ⟨fun _ _ _ _ h => (by cases h), fun _ => ?_⟩
  induction params with
  | nil => exact ⟨fun _ _ _ _ h => (by cases h), fun _ => hmonitor _⟩
  | cons param params ih => exact ⟨fun _ _ _ _ h => (by cases h), fun _ => ih⟩

theorem ChainOp.storesLast_last (op : ChainOp) (b : Bool) : StoresLast (op.last kind b) := by
  cases b with
  | false => cases op <;> trivial
  | true =>
    cases op with
    | update id => exact ⟨fun _ => trivial, fun _ _ _ _ _ _ => ⟨_, rfl⟩⟩
    | delete id =>
      exact ⟨fun _ => ⟨fun _ => trivial, fun _ _ _ _ _ _ => ⟨_, rfl⟩⟩, fun _ _ _ _ h => by cases h⟩
    | read id => exact ⟨fun _ => trivial, fun _ _ _ _ h => by cases h⟩

/-- The accesses of an ioctl end with what they store. -/
theorem ChainOp.storesLast (op : ChainOp) : StoresLast (op.prog kind) := by
  cases op with
  | update id =>
    rw [ChainOp.prog, xpcieFpgaUpdateFuncChainTable]
    split_ifs
    · rw [Prog.bind_assoc]
      refine StoresLast.bind (chainRequest_all ..) fun done => ?_
      cases done with
      | false => trivial
      | true => exact storesLast_last (.update id) true
    · trivial
  | delete id =>
    refine ⟨fun entry => ?_, fun _ _ _ _ h => by cases h⟩
    cases entry with
    | none => trivial
    | some entry =>
      change StoresLast (chainRequest _ _ _ _ >>= _ >>= _)
      rw [Prog.bind_assoc]
      refine StoresLast.bind (chainRequest_all ..) fun done => ?_
      cases done with
      | false => trivial
      | true => exact storesLast_last (.delete id) true
  | read id =>
    have hread : ∀ kind, StoresLast (readRequest id kind) := by
      intro kind
      refine StoresLast.bind (chainRequest_all ..) fun done => ?_
      cases done with
      | false => trivial
      | true => exact storesLast_last (.read id) true
    cases kind with
    | ingress =>
      refine ⟨fun (flag : Bool) => ?_, fun _ _ _ _ h => by cases h⟩
      cases flag with
      | false => trivial
      | true => exact hread .ingress
    | egress =>
      refine ⟨fun (entry : Option ExtifidCid) => ?_, fun _ _ _ _ h => by cases h⟩
      cases entry with
      | none => trivial
      | some entry => exact hread .egress

theorem fchDevTable_chainExec {c : ChainCmd}
    (hc : ∀ lane fchid kind entry, c ≠ .storeEntry lane fchid kind entry) (s : ChainDev) :
    (chainExec true c s).2.fchDevTable = s.fchDevTable := by
  cases c with
  | storeEntry lane fchid kind entry => exact absurd rfl (hc lane fchid kind entry)
  | regWrite lane kind reg value => rfl
  | regRead lane kind reg => rfl
  | loadEntry lane fchid kind => rfl
  | findEntry entry => rfl

/-- How far the two have come when ioctl `q` is quiet at the start: it has not looked yet, and the
other one stores nothing before its end; or it has looked in time; or it looked when the other one
was done. -/
inductive QuietRace (P : ChainPair) (s : ChainDev) (q : Bool) (r : ChainRace) : Prop where
  /-- It has not looked yet. -/
  | waits (hq : r.progs q = (P.op q).prog P.kind)
      (ho : (r.progs !q).eval (chainExec true) r.state = ((P.op !q).prog P.kind).eval (chainExec true) s)
      (hlast : StoresLast (r.progs !q))
      (hsoft : (∃ a, r.progs (!q) = .done a) ∨ r.state.fchDevTable = s.fchDevTable)
  /-- It has looked in time. -/
  | failed (hq : ∃ e, r.progs q = .done (.error e))
      (ho : (r.progs !q).eval (chainExec true) r.state = ((P.op !q).prog P.kind).eval (chainExec true) s)
  /-- It looked when the other one was done. -/
  | follows (ho : r.progs (!q) = .done (((P.op !q).prog P.kind).eval (chainExec true) s).1)
      (hq : (r.progs q).eval (chainExec true) r.state = ((P.op q).prog P.kind).eval (chainExec true)
        (((P.op !q).prog P.kind).eval (chainExec true) s).2)

theorem QuietRace.step {P : ChainPair} {q i : Bool} {r t : ChainRace}
    (hquiet : (P.op q).Quiet P.kind s.tables) (h : QuietRace P s q r)
    (ht : Shared.step (chainExec true) r i = some t) : QuietRace P s q t := by
  obtain ⟨c, next, hp, hst, hpi, hpj⟩ := Shared.step_cases ht
  have heval : (t.progs i).eval (chainExec true) t.state = (r.progs i).eval (chainExec true) r.state := by
    rw [hpi, hst, hp, Prog.eval_cmd]
  by_cases hi : i = q
  · -- the quiet one moves
    subst hi
    have hother : t.progs (!i) = r.progs !i := hpj _ (not_ne i)
    cases h with
    | waits hq ho hlast hsoft =>
      obtain ⟨a, ha⟩ | hsoft := hsoft
      · rw [ha, Prog.eval_done] at ho
        refine .follows ?_ ?_
        · rw [hother, ha, ← ho]
        · rw [heval, hq, ← ho]
      · obtain ⟨e, hopens⟩ := ChainOp.opens_error hquiet
        obtain hdone | ⟨c', next', hp', hc⟩ := hopens
        · rw [hq, hdone] at hp
          cases hp
        · rw [hq, hp'] at hp
          cases hp
          obtain ⟨hstate, hnext⟩ := hc r.state hsoft
          refine .failed ⟨e, hpi.trans hnext⟩ ?_
          rw [hother, hst, hstate]
          exact ho
    | failed hq ho =>
      obtain ⟨e, hq⟩ := hq
      rw [hq] at hp
      cases hp
    | follows ho hq => exact .follows (hother.trans ho) (heval.trans hq)
  · -- the other one moves
    obtain rfl : i = !q := Bool.eq_not_of_ne hi
    have hother : t.progs q = r.progs q := hpj _ (Ne.symm (not_ne q))
    cases h with
    | waits hq ho hlast hsoft =>
      rw [hp] at hlast
      refine .waits (hother.trans hq) (heval.trans ho) (hpi ▸ hlast.1 _) ?_
      by_cases hc : ∃ lane fchid kind entry, c = .storeEntry lane fchid kind entry
      · obtain ⟨lane, fchid, kind, entry, hc⟩ := hc
        obtain ⟨a, ha⟩ := hlast.2 lane fchid kind entry hc (chainExec true c r.state).1
        exact .inl ⟨a, hpi.trans ha⟩
      · obtain ⟨a, ha⟩ | hsoft := hsoft
        · rw [ha] at hp
          cases hp
        · right
          rw [hst, fchDevTable_chainExec fun l f k e h => hc ⟨l, f, k, e, h⟩, hsoft]
    | failed hq ho => exact .failed (hother ▸ hq) (heval.trans ho)
    | follows ho hq =>
      rw [ho] at hp
      cases hp

/-- Alone, an ioctl that moves nothing is sound. -/
theorem eval_sound (kind : CidKind) (op : ChainOp)
    (hagree : s.tables.Agrees (fun _ => True) op.id.lane kind)
    (hfresh : ∀ id, op = .update id → id.entry.Valid → s.tables.Fresh id.lane id.fchid id.entry kind) :
    ∃ new, (((op.prog kind).eval (chainExec true) s).2.port op.id.lane kind).executed =
        new ++ (s.port op.id.lane kind).executed ∧
      (∀ res, ((op.prog kind).eval (chainExec true) s).1 = .ok res → ∃ x ∈ new, op.Own kind res x) ∧
      ((op.prog kind).eval (chainExec true) s).2.tables.Agrees (fun _ => True) op.id.lane kind := by
  by_cases hop : op.Quiet kind s.tables
  · obtain ⟨e, hopens⟩ := ChainOp.opens_error hop
    rw [hopens.eval rfl]
    exact ⟨[], rfl, fun res h => (by cases h), hagree⟩
  · obtain ⟨res, t, x, heval, hexec, hown⟩ := eval_prog hop
    rw [heval]
    refine ⟨[x], hexec, fun res' h => ?_, ?_⟩
    · cases h
      exact ⟨x, List.mem_singleton_self x, (hown hagree).1⟩
    · refine (hown hagree).2.mpr fun id h => hfresh id h ?_
      rw [h] at hop
      exact not_not.mp hop

section Sound

variable {P : ChainPair} {q : Bool} {t : ChainRace}

theorem ChainPair.eval_sound (P : ChainPair) (i : Bool)
    (hagree : s.tables.Agrees (fun _ => True) P.lane P.kind)
    (hfresh : ∀ id, P.op i = .update id → id.entry.Valid →
      s.tables.Fresh P.lane id.fchid id.entry P.kind) :
    ∃ new, ((((P.op i).prog P.kind).eval (chainExec true) s).2.port P.lane P.kind).executed =
        new ++ (s.port P.lane P.kind).executed ∧
      (∀ res, (((P.op i).prog P.kind).eval (chainExec true) s).1 = .ok res →
        ∃ x ∈ new, (P.op i).Own P.kind res x) ∧
      (((P.op i).prog P.kind).eval (chainExec true) s).2.tables.Agrees (fun _ => True) P.lane
        P.kind := by
  have hsound := Driver.eval_sound (s := s) P.kind (P.op i)
  rw [P.lane_op i] at hsound
  refine hsound hagree fun id hi hid => ?_
  have hlane : id.lane = P.lane := by
    rw [← P.lane_op i, hi]
    rfl
  rw [hlane]
  exact hfresh id hi hid

/-- The quiet one failed, and the other one did what it does alone. -/
theorem sound_of_failed (hagree : s.tables.Agrees (fun _ => True) P.lane P.kind)
    (hfresh : ∀ i id, P.op i = .update id → id.entry.Valid →
      s.tables.Fresh P.lane id.fchid id.entry P.kind)
    (hq : ∃ e, t.progs q = .done (.error e))
    (ho : (t.progs !q).eval (chainExec true) t.state =
      ((P.op !q).prog P.kind).eval (chainExec true) s) (hfin : t.Finished) : P.Sound s t := by
  obtain ⟨e, hq⟩ := hq
  obtain ⟨b, hb⟩ := hfin !q
  obtain ⟨new, hexec, hown, hagrees⟩ := P.eval_sound (!q) hagree (hfresh !q)
  rw [hb, Prog.eval_done] at ho
  rw [← ho] at hexec hown hagrees
  refine ⟨fun i r hi => ⟨new, hexec, ?_⟩, hagrees⟩
  by_cases hiq : i = q
  · rw [hiq, hq] at hi
    cases hi
  · obtain rfl : i = !q := Bool.eq_not_of_ne hiq
    rw [hb] at hi
    cases hi
    exact hown r rfl

/-- The quiet one came after the other one. -/
theorem sound_of_follows (hagree : s.tables.Agrees (fun _ => True) P.lane P.kind)
    (hfresh : ∀ i id, P.op i = .update id → id.entry.Valid →
      s.tables.Fresh P.lane id.fchid id.entry P.kind)
    (hquiet : (P.op q).Quiet P.kind s.tables)
    (ho : t.progs (!q) = .done (((P.op !q).prog P.kind).eval (chainExec true) s).1)
    (hq : (t.progs q).eval (chainExec true) t.state = ((P.op q).prog P.kind).eval (chainExec true)
      (((P.op !q).prog P.kind).eval (chainExec true) s).2) (hfin : t.Finished) : P.Sound s t := by
  obtain ⟨a, ha⟩ := hfin q
  obtain ⟨new, hexec, hown, hagrees⟩ := P.eval_sound (!q) hagree (hfresh !q)
  obtain ⟨new', hexec', hown', hagrees'⟩ := P.eval_sound q hagrees fun id hi hid => by
    rw [hi] at hquiet
    exact absurd hid hquiet
  rw [ha, Prog.eval_done] at hq
  rw [← hq] at hexec' hown' hagrees'
  refine ⟨fun i r hi => ⟨new' ++ new, ?_, ?_⟩, hagrees'⟩
  · rw [hexec', hexec, List.append_assoc]
  · by_cases hiq : i = q
    · rw [hiq, ha] at hi
      cases hi
      obtain ⟨x, hx, hx'⟩ := hown' r rfl
      exact ⟨x, List.mem_append_left _ hx, hiq ▸ hx'⟩
    · obtain rfl : i = !q := Bool.eq_not_of_ne hiq
      rw [ho] at hi
      obtain ⟨x, hx, hx'⟩ := hown r (Prog.done.inj hi)
      exact ⟨x, List.mem_append_right _ hx, hx'⟩

end Sound

/-- With a quiet ioctl all interleavings are sound. -/
theorem QuietRace.sound {P : ChainPair} {q : Bool} {t : ChainRace}
    (hagree : s.tables.Agrees (fun _ => True) P.lane P.kind)
    (hfresh : ∀ i id, P.op i = .update id → id.entry.Valid →
      s.tables.Fresh P.lane id.fchid id.entry P.kind)
    (hquiet : (P.op q).Quiet P.kind s.tables) (h : QuietRace P s q t) (hfin : t.Finished) :
    P.Sound s t := by
  cases h with
  | waits hq ho hlast hsoft =>
    refine sound_of_failed hagree hfresh ?_ ho hfin
    obtain ⟨e, hdone | ⟨c, next, hp, -⟩⟩ := ChainOp.opens_error hquiet
    · exact ⟨e, hq.trans hdone⟩
    · obtain ⟨a, ha⟩ := hfin q
      rw [hq, hp] at ha
      cases ha
  | failed hq ho => exact sound_of_failed hagree hfresh hq ho hfin
  | follows ho hq => exact sound_of_follows hagree hfresh hquiet ho hq hfin

end HardwareDrivers.Driver
