import HardwareDrivers.Driver.ChainMirror
import HardwareDrivers.Driver.ChainRaw

/-!
# What the chain and refcount ioctls need

When a call with any arguments stays inside `fch_dev_table` and the registers of the lanes
that exist, asks the module only about entries that an update created and, if it is
rejected, leaves the tables and the counters as they were.

## What is proved

* `forwardRequest_of_asks` — what a request does to the tables of the module.
* `counters_eq_iff` — when a refcount command changes no counter.
* `safe_iff` — when a call is safe, where the table of the driver is what the calls before it
  made of it.
* `chain_refcount_safe_iff` — all calls of a run are safe exactly if they all meet the
  condition.
-/

namespace HardwareDrivers.Driver.RawChain

open Theory

/-! ### What a request does -/

/-- The index that the module takes from a word. -/
def requestKey (word : BitVec 32) : CidKind → BitVec 10
  | .ingress => word.setWidth 10
  | .egress => (word.setWidth 9).setWidth 10

/-- The request is about the entry with the index, and makes this of it. -/
structure Asks (kind : CidKind) (params : List (ForwardReg × BitVec 32)) (code : BitVec 32)
    (key : BitVec 10) (effect : Option (BitVec 32) → Option (BitVec 32)) : Prop where
  /-- The index is in the registers. -/
  key_eq : ∀ answers (port : ForwardPort), (port.request answers kind params code).key kind = key
  /-- A module that answers has done it. -/
  answered : ∀ port : ForwardPort, (port.request true kind params code).updateResp = 1 ∧
    (port.request true kind params code).table =
      Function.update port.table key (effect (port.table key))
  /-- One that does not has done nothing yet. -/
  unanswered : ∀ port : ForwardPort, (port.request false kind params code).updateResp = 0 ∧
    (port.request false kind params code).table = port.table ∧
    ((port.request false kind params code).execute kind code).table =
      Function.update port.table key (effect (port.table key))

theorem key_execute (kind : CidKind) (code : BitVec 32) (port : ForwardPort) :
    (port.execute kind code).key kind = port.key kind := by
  unfold ForwardPort.execute
  cases kind <;> split_ifs <;> rfl

theorem key_writeReq (answers : Bool) (kind : CidKind) (value : BitVec 32) (port : ForwardPort) :
    (port.writeReq answers kind value).key kind = port.key kind := by
  unfold ForwardPort.writeReq
  split_ifs
  · cases kind <;> rfl
  · rw [← key_execute kind value port]
    cases kind <;> rfl
  · cases kind <;> rfl

/-- The module looks at the registers of an entry only. -/
theorem table_execute_updateReq (kind : CidKind) (code value : BitVec 32) (port : ForwardPort) :
    (ForwardPort.execute kind code { port with updateReq := value }).table =
      (port.execute kind code).table := by
  unfold ForwardPort.execute
  cases kind <;> split_ifs <;> rfl

/-- What a request is about is in the registers when its code is written. -/
theorem asks_of_registers {kind : CidKind} {params : List (ForwardReg × BitVec 32)}
    {code : BitVec 32} {key : BitVec 10} {effect : Option (BitVec 32) → Option (BitVec 32)}
    (hcode : code ≠ 0) (hparams : ∀ param ∈ params, param.1 = .session ∨ param.1 = .channel)
    (hkey : ∀ answers (port : ForwardPort),
      (params.foldl (fun port param => port.write answers kind param.1 param.2) port).key kind = key)
    (heffect : ∀ answers (port : ForwardPort),
      ((params.foldl (fun port param => port.write answers kind param.1 param.2) port).execute kind
        code).table = Function.update port.table key (effect (port.table key))) :
    Asks kind params code key effect := by
  constructor
  · intro answers port
    unfold ForwardPort.request
    rw [key_writeReq]
    exact hkey answers _
  · intro port
    obtain ⟨hresp, -, -⟩ := foldl_write true kind params hparams (port.writeReq true kind 0)
    unfold ForwardPort.request
    rw [ForwardPort.writeReq, if_neg hcode, if_pos ⟨rfl, hresp⟩]
    exact ⟨rfl, heffect true _⟩
  · intro port
    obtain ⟨hresp, htable⟩ := request_unanswered port kind hparams hcode
    refine ⟨hresp, htable, ?_⟩
    unfold ForwardPort.request
    rw [ForwardPort.writeReq, if_neg hcode, if_neg (by simp), table_execute_updateReq]
    exact heffect false _

theorem asks_update (kind : CidKind) (key word : BitVec 32) :
    Asks kind [(keyReg kind, key), (readAddr kind, word)] 1 (requestKey key kind)
      (fun _ => some word) := by
  refine asks_of_registers (by decide) ?_ ?_ ?_
  · cases kind <;> simp [keyReg, readAddr]
  · intro answers port
    cases kind <;> rfl
  · intro answers port
    cases kind <;> rfl

theorem asks_delete (kind : CidKind) (key : BitVec 32) :
    Asks kind [(keyReg kind, key)] 2 (requestKey key kind) (fun _ => none) := by
  refine asks_of_registers (by decide) ?_ ?_ ?_
  · cases kind <;> simp [keyReg]
  · intro answers port
    cases kind <;> rfl
  · intro answers port
    cases kind <;> rfl

theorem asks_read (kind : CidKind) (key : BitVec 32) :
    Asks kind [(keyReg kind, key)] 3 (requestKey key kind) id := by
  refine asks_of_registers (by decide) ?_ ?_ ?_
  · cases kind <;> simp [keyReg]
  · intro answers port
    cases kind <;> rfl
  · -- a read leaves the entry as it was
    intro answers port
    rw [id, Function.update_eq_self]
    cases kind <;> rfl

variable {dev : FpgaDevInfo} {env : CallEnv} {lane : Lane} {kind : CidKind}

/-- The lane is one of the chain module. -/
def FpgaDevInfo.Has (dev : FpgaDevInfo) (lane : Lane) : Prop := lane.val < (dev.mods.num .chain).val

instance (dev : FpgaDevInfo) (lane : Lane) : Decidable (dev.Has lane) :=
  inferInstanceAs (Decidable (_ < _))

theorem laneRegs_eq_ok {l : BitVec 32} :
    laneRegs dev l = .ok lane ↔ l.toNat = lane ∧ dev.Has lane := by
  unfold laneRegs FpgaDevInfo.Has
  rw [map_eq_ok]
  constructor
  · rintro ⟨i, hi, rfl⟩
    rw [indexed_eq_ok] at hi
    exact ⟨hi, i.isLt⟩
  · rintro ⟨hl, hlt⟩
    exact ⟨⟨lane, hlt⟩, indexed_eq_ok.mpr hl, rfl⟩

theorem tableIndex_eq_ok {l f : BitVec 32} {fchid : Fchid} :
    tableIndex l f = .ok (lane, fchid) ↔ l.toNat = lane ∧ f.toNat = fchid.toNat := by
  unfold tableIndex
  simp only [bind_eq_ok, indexed_eq_ok]
  constructor
  · rintro ⟨i, hi, j, hj, h⟩
    cases h
    exact ⟨hi, hj⟩
  · rintro ⟨hl, hf⟩
    exact ⟨lane, hl, fchid.toFin, hf, rfl⟩

/-- Another state of one direction of one lane leaves the tables as they are if its entry is the one
that was there. -/
theorem tables_setPort_eq_iff {s : ChainDev} {port : ForwardPort} {key : BitVec 10}
    {word : Option (BitVec 32)}
    (h : port.table = Function.update (s.port lane kind).table key word) :
    (s.setPort lane kind port).tables = s.tables ↔ word = s.tables.entries lane kind key := by
  constructor
  · intro heq
    have hentry := congrArg (fun t => t.entries lane kind key) heq
    simp only [ChainDev.tables, port_setPort, h, Function.update_self] at hentry
    exact hentry
  · intro hword
    refine tables_setPort ?_
    rw [h, hword]
    exact Function.update_eq_self ..

/-- The module carries out a request, at once or later. -/
def CallEnv.CarriedOut (env : CallEnv) : Prop := env.answers = true ∨ env.late = true

/-- **A request** is answered or not; it leaves the tables as they are if it is not carried out, or
makes of the entry what it was. -/
theorem forwardRequest_of_asks (env : CallEnv) {params : List (ForwardReg × BitVec 32)}
    {code : BitVec 32} {key : BitVec 10} {effect : Option (BitVec 32) → Option (BitVec 32)}
    (hasks : Asks kind params code key effect) {l : BitVec 32} (hl : laneRegs dev l = .ok lane) :
    ∃ chain, forwardRequest dev env l kind params code =
        .ok (env.answers, ⟨lane, kind, code, key⟩, { dev with chain }) ∧
      chain.fchDevTable = dev.chain.fchDevTable ∧
      (chain.tables = dev.chain.tables ↔ (env.CarriedOut →
        effect (dev.chain.tables.entries lane kind key) =
          dev.chain.tables.entries lane kind key)) := by
  unfold forwardRequest CallEnv.CarriedOut
  simp only [hl, ok_bind, eval_chainRequest, port_setPort, hasks.key_eq]
  cases hanswers : env.answers with
  | true =>
    obtain ⟨hresp, htable⟩ := hasks.answered (dev.chain.port lane kind)
    simp only [hresp, decide_true]
    refine ⟨_, rfl, rfl, ?_⟩
    rw [tables_setPort_eq_iff htable]
    exact ⟨fun h _ => h, fun h => h (.inl trivial)⟩
  | false =>
    obtain ⟨hresp, htable, hlate⟩ := hasks.unanswered (dev.chain.port lane kind)
    have hzero : decide ((0 : BitVec 32) = 1) = false := by decide
    simp only [hresp, hzero, true_and]
    by_cases h : env.late = true
    · simp only [h, if_true, carryOutLate, port_setPort, setPort_setPort]
      refine ⟨_, rfl, rfl, Iff.trans (tables_setPort_eq_iff (by exact hlate)) ?_⟩
      exact ⟨fun h _ => h, fun h => h (.inr trivial)⟩
    · simp only [if_neg h]
      refine ⟨_, rfl, rfl, iff_of_true (tables_setPort htable) ?_⟩
      rintro (hno | hno)
      · cases hno
      · exact absurd hno h

/-! ### What a refcount command does -/

section Refcount

variable {ι : Type} [DecidableEq ι] {refcountList : List ι} {s t : Refcounts ι} {cmd : RefcountCmd}
  {refcountGet : Bool}

/-- A command that changes the counters: it is not rejected, and what it sets is not there yet. -/
def Changes (refcountList : List ι) (r : ι → BitVec 32) : RefcountCmd → Prop
  | .inc => isRefcountAnySame refcountList (-1) r = false ∧
      isRefcountAnyLess refcountList 0 r = false
  | .dec => isRefcountAnySame refcountList (-1) r = false ∧
      isRefcountAnyLess refcountList 0 r = false ∧ isRefcountAnySame refcountList 0 r = false
  | .write => isRefcountAnyDiffer refcountList 0 r = false
  | .clear => isRefcountAnyDiffer refcountList (-1) r = false
  | .rst => isRefcountAnyDiffer refcountList 0 r = true
  | .get | .other _ => False

instance (refcountList : List ι) (r : ι → BitVec 32) :
    ∀ cmd, Decidable (Changes refcountList r cmd)
  | .inc => inferInstanceAs (Decidable (_ ∧ _))
  | .dec => inferInstanceAs (Decidable (_ ∧ _))
  | .write => inferInstanceAs (Decidable (_ = false))
  | .clear => inferInstanceAs (Decidable (_ = false))
  | .rst => inferInstanceAs (Decidable (_ = true))
  | .get => isFalse nofun
  | .other _ => isFalse nofun

theorem addRefcountList_ne (hnd : refcountList.Nodup) (hne : refcountList ≠ []) {v : BitVec 32}
    (hv : v ≠ 0) (r : ι → BitVec 32) : addRefcountList refcountList v r ≠ r := by
  obtain ⟨c, hc⟩ := List.exists_mem_of_ne_nil _ hne
  intro h
  have happly := congrFun h c
  rw [addRefcountList_apply hnd, if_pos hc] at happly
  exact hv (by simpa using happly)

theorem setRefcountList_eq_self_iff {v : BitVec 32} {r : ι → BitVec 32} :
    setRefcountList refcountList v r = r ↔ isRefcountAnyDiffer refcountList v r = false := by
  rw [isRefcountAnyDiffer_eq_false]
  constructor
  · intro h c hc
    have happly := congrFun h c
    rw [setRefcountList_apply, if_pos hc] at happly
    exact happly.symm
  · intro h
    funext c
    rw [setRefcountList_apply]
    split_ifs with hc
    · exact (h c hc).symm
    · rfl

omit [DecidableEq ι] in
/-- Counters that are all `v` differ from another value. -/
theorem isRefcountAny_of_all (hne : refcountList ≠ []) {v : BitVec 32} {r : ι → BitVec 32}
    (h : isRefcountAnyDiffer refcountList v r = false) (cmp : BitVec 32)
    (clb : BitVec 32 → BitVec 32 → Bool) : isRefcountAny refcountList cmp clb r = clb v cmp :=
  isRefcountAny_of_const hne (isRefcountAnyDiffer_eq_false.mp h) cmp clb

theorem setRefcountList_ne_of_all (hne : refcountList ≠ []) {v w : BitVec 32} {r : ι → BitVec 32}
    (h : isRefcountAnyDiffer refcountList v r = false) (hvw : v ≠ w) :
    setRefcountList refcountList w r ≠ r := by
  rw [Ne, setRefcountList_eq_self_iff, isRefcountAnyDiffer, isRefcountAny_of_all hne h]
  simpa [clbIsDiffer] using hvw

/-- **A refcount command** leaves the counters as they are exactly if it is not one that changes
them. -/
theorem counters_eq_iff (hnd : refcountList.Nodup) (hne : refcountList ≠ []) :
    (Driver.controlRefcountStatus refcountList cmd s).2.refcount = s.refcount ↔
      ¬ Changes refcountList s.refcount cmd := by
  have hempty : refcountList.isEmpty = false := by simpa using hne
  cases cmd with
  | inc =>
    have hadd := addRefcountList_ne hnd hne (by decide : (1 : BitVec 32) ≠ 0) s.refcount
    simp only [Driver.controlRefcountStatus, hempty, Changes]
    grind
  | dec =>
    have hadd := addRefcountList_ne hnd hne (by decide : (-1 : BitVec 32) ≠ 0) s.refcount
    simp only [Driver.controlRefcountStatus, hempty, Changes]
    grind
  | write =>
    simp only [Driver.controlRefcountStatus, hempty, Changes]
    cases hdiffer : isRefcountAnyDiffer refcountList 0 s.refcount with
    | true => grind
    | false =>
      have hset := setRefcountList_ne_of_all hne hdiffer (by decide : (0 : BitVec 32) ≠ -1)
      have hsame : isRefcountAnySame refcountList (-1) s.refcount = false :=
        isRefcountAny_of_all hne hdiffer _ _
      have hless : isRefcountAnyLess refcountList 0 s.refcount = false :=
        isRefcountAny_of_all hne hdiffer _ _
      simp only [hsame, hless]
      grind
  | clear =>
    simp only [Driver.controlRefcountStatus, hempty, Changes]
    cases hdiffer : isRefcountAnyDiffer refcountList (-1) s.refcount with
    | true => grind
    | false =>
      have hset := setRefcountList_ne_of_all hne hdiffer (by decide : (-1 : BitVec 32) ≠ 0)
      grind
  | rst =>
    simp only [Driver.controlRefcountStatus, hempty, Changes]
    rw [if_neg Bool.false_ne_true, setRefcountList_eq_self_iff, Bool.not_eq_true]
  | get | other _ =>
    simp only [Driver.controlRefcountStatus, hempty, Changes]
    simp

theorem controlRefcountStatus_cases (refcountList : List ι) (cmd : RefcountCmd) (refcountGet : Bool)
    (s : Refcounts ι) :
    (refcountList ≠ [] ∧ cmd = .get ∧ refcountGet = false ∧
        controlRefcountStatus refcountList cmd refcountGet s = .error .null) ∨
      (¬ (refcountList ≠ [] ∧ cmd = .get ∧ refcountGet = false) ∧
        controlRefcountStatus refcountList cmd refcountGet s =
          .ok (Driver.controlRefcountStatus refcountList cmd s)) := by
  unfold controlRefcountStatus
  by_cases hne : refcountList = []
  · subst hne
    exact .inr ⟨fun h => h.1 rfl, rfl⟩
  · have hempty : refcountList.isEmpty = false := by simpa using hne
    rw [if_neg (by rw [hempty]; exact Bool.false_ne_true)]
    by_cases hget : cmd = .get ∧ refcountGet = false
    · rw [if_pos hget]
      exact .inl ⟨hne, hget.1, hget.2, rfl⟩
    · rw [if_neg hget]
      exact .inr ⟨fun h => hget h.2, rfl⟩

end Refcount

/-! ### Runs -/

/-- The place of an `fpga_id_t`. -/
def FpgaId.At (id : FpgaId) (lane : Lane) (fchid : Fchid) : Prop :=
  id.lane.toNat = lane ∧ id.fchid.toNat = fchid.toNat

instance (id : FpgaId) (lane : Lane) (fchid : Fchid) : Decidable (id.At lane fchid) :=
  inferInstanceAs (Decidable (_ ∧ _))

/-- Of the calls and what they returned, the last first: an update created the entry, and no delete
and no reset took it away. -/
def Created : List (Cmd × Except Errno Unit) → Lane → Fchid → CidKind → ExtifidCid → Prop
  | [], _, _, _, _ => False
  | (.updateTable k id, .ok _) :: past, lane, fchid, kind, entry =>
    if id.At lane fchid ∧ k = kind then id.entry = entry else Created past lane fchid kind entry
  | (.deleteTable k id, .ok _) :: past, lane, fchid, kind, entry =>
    ¬ (id.At lane fchid ∧ k = kind) ∧ Created past lane fchid kind entry
  | (.resetSoftTable, _) :: _, _, _, _, _ => False
  | _ :: past, lane, fchid, kind, entry => Created past lane fchid kind entry

/-- The device, and the calls with what they returned, the last first. -/
structure System where
  /-- The device. -/
  dev : FpgaDevInfo
  /-- The calls. -/
  past : List (Cmd × Except Errno Unit)

/-- After the driver is loaded: nothing is in `fch_dev_table`, and the module, its lanes and the
counters are as they are. -/
def loaded (port : Lane → CidKind → ForwardPort) (mods : ModulesInfo) : System :=
  ⟨⟨⟨port, fun _ _ _ => none⟩, mods⟩, []⟩

/-- What can happen to a device. -/
inductive Op where
  /-- An ioctl. -/
  | ioctl (env : CallEnv) (cmd : Cmd)
  /-- `XPCIE_DEV_DRIVER_SET_FPGA_UPDATE`. -/
  | setFpgaUpdate (regs : BarRegs)
  /-- The card gets a bitstream, with some state of the module. -/
  | bitstream (port : Lane → CidKind → ForwardPort)

/-- What happens. -/
def exec (build : BuildOptions) (s : System) : Op → Except Fault System
  | .ioctl env cmd =>
    (xpcieCdevIoctl build s.dev env cmd).map fun done => ⟨done.dev, (cmd, done.ret) :: s.past⟩
  | .setFpgaUpdate regs => .ok { s with dev.mods := (ioctlSetFpgaUpdate build regs s.dev.mods).2 }
  | .bitstream port => .ok { s with dev.chain.port := port }

/-- A step of a run. -/
def step (build : BuildOptions) : Except Fault System → Op → Option (Except Fault System) :=
  faultStep fun s op => some (exec build s op)

/-! ### What is asked of a call -/

/-- The request is an update, or it is about an entry that an update created. -/
def System.Asked (s : System) (r : ChainRequest) : Prop :=
  r.code = 1 ∨ ∃ fchid entry,
    Created s.past r.lane fchid r.kind entry ∧ r.key = entryKey entry fchid r.kind

/-- The call asks only about created entries, and if it is rejected the table of the driver, those
of the module and the counters are as they were. -/
structure SafeDone (s : System) (done : Done) : Prop where
  /-- The request. -/
  asked : ∀ r ∈ done.request, s.Asked r
  /-- The tables. -/
  tables : ∀ e, done.ret = .error e → done.dev.chain.tables = s.dev.chain.tables
  /-- The counters. -/
  counters : ∀ e, done.ret = .error e →
    done.dev.mods.counters.refcount = s.dev.mods.counters.refcount

/-- What is asked of a step. -/
def Safe (build : BuildOptions) (s : System) : Op → Prop
  | .ioctl env cmd => ∃ done, xpcieCdevIoctl build s.dev env cmd = .ok done ∧ SafeDone s done
  | .setFpgaUpdate _ | .bitstream _ => True

/-- The condition on a call. -/
def Cmd.Meets (build : BuildOptions) (dev : FpgaDevInfo) (env : CallEnv) : Cmd → Prop
  | .updateTable kind id =>
    env.copyFromUser = true → id.entry.Valid → ∃ lane : Lane, id.lane.toNat = lane ∧ dev.Has lane ∧
      (env.answers = true → id.fchid.toNat < 2 ^ 9) ∧
      (env.answers = false → env.late = true →
        dev.chain.tables.entries lane kind (requestKey (keyWord id.entry id.fchid kind) kind) =
          some (id.word kind))
  | .deleteTable kind id =>
    env.copyFromUser = true → ∃ lane fchid, id.At lane fchid ∧
      ∀ entry ∈ dev.chain.fchDevTable lane fchid kind, dev.Has lane ∧
        (env.answers = true → env.copyToUser = true) ∧
        (env.answers = false → env.late = true →
          dev.chain.tables.entries lane kind (entryKey entry fchid kind) = none)
  | .readTable .ingress id =>
    env.copyFromUser = true →
      (∃ lane fchid kind, dev.chain.fchDevTable lane fchid kind = some id.entry) →
      ∃ lane : Lane, id.lane.toNat = lane ∧ dev.Has lane ∧
        ∃ fchid, dev.chain.fchDevTable lane fchid .ingress = some id.entry
  | .readTable .egress id =>
    env.copyFromUser = true → ∃ lane fchid, id.At lane fchid ∧
      (dev.chain.fchDevTable lane fchid .egress ≠ none → dev.Has lane)
  | .readSoftTable ids =>
    env.copyFromUser = true → ids.lane.toNat < xpcieKernelLaneMax ∧ ids.fchid.toNat < 2 ^ 9
  | .resetSoftTable => True
  | .setRefcount data =>
    env.copyFromUser = true → data.region = 1 → refcountListDev build dev.mods.num ≠ [] →
      refcountCmd data.cmd ≠ .get
  | .getRefcount data =>
    env.copyFromUser = true → env.copyToUser = false → data.region = 1 →
      refcountListDev build dev.mods.num ≠ [] →
      ¬ Changes (refcountListDev build dev.mods.num) dev.mods.counters.refcount
        (refcountCmd data.cmd)

/-- The condition on a step. -/
def Meets (build : BuildOptions) (s : System) : Op → Prop
  | .ioctl env cmd => cmd.Meets build s.dev env
  | .setFpgaUpdate _ | .bitstream _ => True

instance (build : BuildOptions) (dev : FpgaDevInfo) (env : CallEnv) :
    ∀ cmd : Cmd, Decidable (cmd.Meets build dev env)
  | .updateTable .. => inferInstanceAs (Decidable (_ → _ → ∃ _ : Lane, _))
  | .deleteTable .. => inferInstanceAs (Decidable (_ → ∃ (_ : Lane) (_ : Fchid), _ ∧ ∀ _ ∈ _, _))
  | .readTable .ingress id =>
    have := decidable_of_iff (dev.chain.findEntry id.entry = true) findEntry_eq_true
    inferInstanceAs (Decidable (_ → _ → ∃ _ : Lane, _ ∧ _ ∧ ∃ _ : Fchid, _))
  | .readTable .egress _ => inferInstanceAs (Decidable (_ → ∃ (_ : Lane) (_ : Fchid), _))
  | .readSoftTable _ => inferInstanceAs (Decidable (_ → _))
  | .resetSoftTable => isTrue trivial
  | .setRefcount _ => inferInstanceAs (Decidable (_ → _))
  | .getRefcount _ => inferInstanceAs (Decidable (_ → _))

instance (build : BuildOptions) (s : System) : ∀ op : Op, Decidable (Meets build s op)
  | .ioctl env cmd => inferInstanceAs (Decidable (cmd.Meets build s.dev env))
  | .setFpgaUpdate _ => isTrue trivial
  | .bitstream _ => isTrue trivial

/-- `fch_dev_table` has what the updates created, in connections that an update takes. -/
structure System.Remembers (s : System) : Prop where
  /-- The entries. -/
  created_iff : ∀ lane fchid kind entry,
    s.dev.chain.fchDevTable lane fchid kind = some entry ↔ Created s.past lane fchid kind entry
  /-- The connections. -/
  valid : ∀ lane fchid kind entry,
    s.dev.chain.fchDevTable lane fchid kind = some entry → entry.Valid

/-! ### A call -/

variable {build : BuildOptions} {s t : System} {cmd : Cmd} {done : Done} {id : FpgaId}

/-- A call is safe exactly if it meets the condition, and then the table of the driver is what the
calls made of it. -/
structure Exact (s : System) (cmd : Cmd) (x : Except Fault Done) (C : Prop) : Prop where
  /-- Without the condition it is not safe. -/
  of_safe : (∃ done, x = .ok done ∧ SafeDone s done) → C
  /-- With the condition it is. -/
  safe_of : C → ∃ done, x = .ok done ∧ SafeDone s done ∧
    System.Remembers ⟨done.dev, (cmd, done.ret) :: s.past⟩

theorem exact_error {fault : Fault} {C : Prop} (h : ¬ C) : Exact s cmd (.error fault) C := by
  constructor
  · rintro ⟨_, ⟨⟩, -⟩
  · exact fun hC => absurd hC h

theorem exact_ok {C : Prop} (h : SafeDone s done ↔ C)
    (hr : C → System.Remembers ⟨done.dev, (cmd, done.ret) :: s.past⟩) :
    Exact s cmd (.ok done) C := by
  constructor
  · rintro ⟨_, ⟨⟩, hsafe⟩
    exact h.mp hsafe
  · exact fun hC => ⟨done, rfl, h.mpr hC, hr hC⟩

/-- A call that took or set no entry. -/
theorem System.Remembers.of_soft (hs : s.Remembers) {dev : FpgaDevInfo} {ret : Except Errno Unit}
    (hsoft : dev.chain.fchDevTable = s.dev.chain.fchDevTable)
    (hpast : ∀ lane fchid kind entry, Created ((cmd, ret) :: s.past) lane fchid kind entry ↔
      Created s.past lane fchid kind entry) : System.Remembers ⟨dev, (cmd, ret) :: s.past⟩ := by
  constructor
  · intro lane fchid kind entry
    rw [hpast, ← hs.created_iff]
    simp only [hsoft]
  · intro lane fchid kind entry h
    simp only [hsoft] at h
    exact hs.valid lane fchid kind entry h

/-- A rejected call leaves the history of the entries as it was. -/
theorem created_error_iff {e : Errno} (hcmd : cmd ≠ .resetSoftTable) (lane : Lane) (fchid : Fchid)
    (kind : CidKind) (entry : ExtifidCid) :
    Created ((cmd, .error e) :: s.past) lane fchid kind entry ↔
      Created s.past lane fchid kind entry := by
  cases cmd with
  | resetSoftTable => exact absurd rfl hcmd
  | updateTable | deleteTable | readTable | readSoftTable | setRefcount | getRefcount => exact Iff.rfl

/-- A call that does nothing but return an error. -/
theorem exact_only (hs : s.Remembers) (hcmd : cmd ≠ .resetSoftTable) (e : Errno) {C : Prop}
    (hC : C) : Exact s cmd (.ok (.only (.error e) s.dev)) C :=
  exact_ok (iff_of_true ⟨nofun, fun _ _ => rfl, fun _ _ => rfl⟩ hC)
    fun _ => hs.of_soft rfl (created_error_iff hcmd)

/-- A request that was not answered. -/
theorem exact_timeout (hs : s.Remembers) (hcmd : cmd ≠ .resetSoftTable) {chain : ChainDev}
    {request : ChainRequest} {C : Prop} (hasked : s.Asked request)
    (hsoft : chain.fchDevTable = s.dev.chain.fchDevTable)
    (htables : chain.tables = s.dev.chain.tables ↔ C) :
    Exact s cmd
      (.ok ⟨.error (.chain .updateTimeout), none, { s.dev with chain }, some request⟩) C := by
  refine exact_ok ⟨fun h => htables.mp (h.tables _ rfl), fun hC => ⟨?_, ?_, fun _ _ => rfl⟩⟩
    fun _ => hs.of_soft hsoft (created_error_iff hcmd)
  · rintro _ ⟨⟩
    exact hasked
  · exact fun _ _ => htables.mpr hC

theorem FpgaId.At.and_iff {lane : Lane} {fchid : Fchid} (hat : id.At lane fchid) (l : Lane)
    (f : Fchid) (k : CidKind) : (id.At l f ∧ kind = k) ↔ (l = lane ∧ f = fchid ∧ k = kind) := by
  constructor
  · rintro ⟨hat', rfl⟩
    exact ⟨Fin.ext (hat'.1.symm.trans hat.1), BitVec.eq_of_toNat_eq (hat'.2.symm.trans hat.2), rfl⟩
  · rintro ⟨rfl, rfl, rfl⟩
    exact ⟨hat, rfl⟩

/-- An update that was answered. -/
theorem System.Remembers.update (hs : s.Remembers) {lane : Lane} {fchid : Fchid}
    (hat : id.At lane fchid) (hvalid : id.entry.Valid) {dev : FpgaDevInfo}
    (hsoft : ∀ l f k, dev.chain.fchDevTable l f k =
      if l = lane ∧ f = fchid ∧ k = kind then some id.entry else s.dev.chain.fchDevTable l f k) :
    System.Remembers ⟨dev, (.updateTable kind id, .ok ()) :: s.past⟩ := by
  constructor
  · intro l f k entry
    simp only [hsoft, Created, hat.and_iff]
    split_ifs
    · exact Option.some_inj
    · exact hs.created_iff l f k entry
  · intro l f k entry h
    simp only [hsoft] at h
    split_ifs at h
    · cases h
      exact hvalid
    · exact hs.valid l f k entry h

/-- A delete that was answered. -/
theorem System.Remembers.delete (hs : s.Remembers) {lane : Lane} {fchid : Fchid}
    (hat : id.At lane fchid) {dev : FpgaDevInfo}
    (hsoft : ∀ l f k, dev.chain.fchDevTable l f k =
      if l = lane ∧ f = fchid ∧ k = kind then none else s.dev.chain.fchDevTable l f k) :
    System.Remembers ⟨dev, (.deleteTable kind id, .ok ()) :: s.past⟩ := by
  constructor
  · intro l f k entry
    simp only [hsoft, Created, hat.and_iff]
    split_ifs with h
    · simp [h]
    · simp [h, hs.created_iff l f k entry]
  · intro l f k entry h
    simp only [hsoft] at h
    split_ifs at h
    exact hs.valid l f k entry h

/-! ### The commands -/

theorem toNat_fchid (id : FpgaId) : (id.fchid.setWidth 32).toNat = id.fchid.toNat := by
  rw [BitVec.toNat_setWidth]
  exact Nat.mod_eq_of_lt (id.fchid.isLt.trans (by decide))

theorem tableIndex_id_eq_ok {fchid : Fchid} :
    tableIndex id.lane (id.fchid.setWidth 32) = .ok (lane, fchid) ↔ id.At lane fchid := by
  rw [tableIndex_eq_ok, toNat_fchid]
  rfl

theorem requestKey_keyWord (entry : ExtifidCid) {fchid : Fchid} (hat : id.At lane fchid)
    (kind : CidKind) : requestKey (keyWord entry id.fchid kind) kind = entryKey entry fchid kind := by
  cases kind with
  | ingress => rfl
  | egress =>
    have hfchid : (id.fchid.setWidth 32).setWidth 9 = fchid := by
      apply BitVec.eq_of_toNat_eq
      rw [BitVec.toNat_setWidth, toNat_fchid, hat.2]
      exact Nat.mod_eq_of_lt fchid.isLt
    simp only [requestKey, keyWord, entryKey, hfchid]

/-- The user structure is copied, or the call does nothing. -/
theorem exact_copyFromUser (hs : s.Remembers) (hcmd : cmd ≠ .resetSoftTable) (e : Errno)
    {x : Except Fault Done} {C : Prop} (h : Exact s cmd x C) :
    Exact s cmd (if env.copyFromUser = false then .ok (.only (.error e) s.dev) else x)
      (env.copyFromUser = true → C) := by
  cases hfrom : env.copyFromUser with
  | false =>
    rw [if_pos rfl]
    exact exact_only hs hcmd e nofun
  | true =>
    rw [if_neg (by decide)]
    simpa only [true_implies] using h

theorem Exact.congr {x : Except Fault Done} {C C' : Prop} (h : Exact s cmd x C) (hC : C ↔ C') :
    Exact s cmd x C' :=
  ⟨fun hx => hC.mp (h.of_safe hx), fun hx => h.safe_of (hC.mpr hx)⟩

/-- A call goes on after the access to an entry if the entry is in the table. -/
theorem exact_tableIndex {f : Lane × Fchid → Except Fault Done} {P : Lane → Fchid → Prop}
    (h : ∀ lane fchid, id.At lane fchid → Exact s cmd (f (lane, fchid)) (P lane fchid)) :
    Exact s cmd (tableIndex id.lane (id.fchid.setWidth 32) >>= f)
      (∃ lane fchid, id.At lane fchid ∧ P lane fchid) := by
  cases hindex : tableIndex id.lane (id.fchid.setWidth 32) with
  | error fault =>
    refine exact_error ?_
    rintro ⟨lane, fchid, hat, -⟩
    cases (tableIndex_id_eq_ok.mpr hat).symm.trans hindex
  | ok place =>
    obtain ⟨lane, fchid⟩ := place
    have hat := tableIndex_id_eq_ok.mp hindex
    refine (h lane fchid hat).congr ⟨fun hP => ⟨lane, fchid, hat, hP⟩, ?_⟩
    rintro ⟨lane', fchid', hat', hP⟩
    obtain rfl : lane' = lane := Fin.ext (hat'.1.symm.trans hat.1)
    obtain rfl : fchid' = fchid := BitVec.eq_of_toNat_eq (hat'.2.symm.trans hat.2)
    exact hP

/-- A call goes on after a request if the lane exists. -/
theorem exact_forwardRequest {params : List (ForwardReg × BitVec 32)} {code : BitVec 32}
    {key : BitVec 10} {effect : Option (BitVec 32) → Option (BitVec 32)}
    (hasks : Asks kind params code key effect) {l : BitVec 32}
    {f : Bool × ChainRequest × FpgaDevInfo → Except Fault Done} {P : Lane → Prop}
    (h : ∀ (lane : Lane) chain, l.toNat = lane → chain.fchDevTable = s.dev.chain.fchDevTable →
      (chain.tables = s.dev.chain.tables ↔ (env.CarriedOut →
        effect (s.dev.chain.tables.entries lane kind key) =
          s.dev.chain.tables.entries lane kind key)) →
      Exact s cmd (f (env.answers, ⟨lane, kind, code, key⟩, { s.dev with chain })) (P lane)) :
    Exact s cmd (forwardRequest s.dev env l kind params code >>= f)
      (∃ lane : Lane, l.toNat = lane ∧ s.dev.Has lane ∧ P lane) := by
  cases hl : laneRegs s.dev l with
  | error fault =>
    simp only [forwardRequest, hl]
    refine exact_error ?_
    rintro ⟨lane, hlane, hhas, -⟩
    cases (laneRegs_eq_ok.mpr ⟨hlane, hhas⟩).symm.trans hl
  | ok lane =>
    obtain ⟨hlane, hhas⟩ := laneRegs_eq_ok.mp hl
    obtain ⟨chain, hfwd, hsoft, htables⟩ := forwardRequest_of_asks env hasks hl
    simp only [hfwd, ok_bind]
    refine (h lane chain hlane hsoft htables).congr ⟨fun hP => ⟨lane, hlane, hhas, hP⟩, ?_⟩
    rintro ⟨lane', hlane', -, hP⟩
    obtain rfl : lane' = lane := Fin.ext (hlane'.symm.trans hlane)
    exact hP

theorem exact_updateTable (hs : s.Remembers) (kind : CidKind) (id : FpgaId) :
    Exact s (.updateTable kind id) (xpcieCdevIoctl build s.dev env (.updateTable kind id))
      ((Cmd.updateTable kind id).Meets build s.dev env) := by
  simp only [xpcieCdevIoctl, Cmd.Meets]
  refine exact_copyFromUser hs (by simp) _ ?_
  unfold xpcieFpgaUpdateFuncChainTable
  by_cases hvalid : id.entry.Valid
  · simp only [hvalid, if_true, true_implies]
    refine exact_forwardRequest
      (asks_update kind (keyWord id.entry id.fchid kind) (id.word kind)) ?_
    intro lane chain hlane hsoft htables
    cases hanswers : env.answers with
    | false =>
      simp only [Bool.false_eq_true, if_false, false_implies, true_implies, true_and]
      refine exact_timeout hs (by simp) (.inl rfl) hsoft (htables.trans ?_)
      simp only [CallEnv.CarriedOut, hanswers, Bool.false_eq_true, false_or]
      exact forall_congr' fun _ => eq_comm
    | true =>
      simp only [if_true, true_implies, Bool.true_eq_false, false_implies, and_true]
      refine (exact_tableIndex (P := fun _ _ => True) fun lane' fchid hat => ?_).congr ?_
      · refine exact_ok (iff_of_true ⟨?_, nofun, nofun⟩ trivial) fun _ => ?_
        · rintro _ ⟨⟩
          exact .inl rfl
        · refine hs.update hat hvalid fun l f k => ?_
          rw [← hsoft]
          rfl
      · constructor
        · rintro ⟨_, fchid, hat, -⟩
          exact hat.2 ▸ fchid.isLt
        · exact fun hlt => ⟨lane, BitVec.ofNatLT _ hlt, ⟨hlane, rfl⟩, trivial⟩
  · simp only [if_neg hvalid]
    exact exact_only hs (by simp) _ fun h => absurd h hvalid

theorem exact_deleteTable (hs : s.Remembers) (kind : CidKind) (id : FpgaId) :
    Exact s (.deleteTable kind id) (xpcieCdevIoctl build s.dev env (.deleteTable kind id))
      ((Cmd.deleteTable kind id).Meets build s.dev env) := by
  simp only [xpcieCdevIoctl, Cmd.Meets]
  refine exact_copyFromUser hs (by simp) _ ?_
  unfold ioctlTable xpcieFpgaDeleteFuncChainTable
  rw [bind_assoc]
  refine exact_tableIndex fun lane fchid hat => ?_
  simp only
  cases hentry : s.dev.chain.fchDevTable lane fchid kind with
  | none => exact exact_only hs (by simp) _ nofun
  | some entry =>
    simp only [Option.mem_some_iff, forall_eq', bind_assoc]
    refine Exact.congr (exact_forwardRequest (P := fun lane => (env.answers = true →
      env.copyToUser = true) ∧ (env.answers = false → env.late = true →
        s.dev.chain.tables.entries lane kind (entryKey entry fchid kind) = none))
      (asks_delete kind (keyWord entry id.fchid kind)) ?_) ?_
    · intro lane' chain hlane hsoft htables
      obtain rfl : lane' = lane := Fin.ext (hlane.symm.trans hat.1)
      rw [requestKey_keyWord entry hat] at htables ⊢
      have hasked : s.Asked ⟨lane', kind, 2, entryKey entry fchid kind⟩ :=
        .inr ⟨fchid, entry, (hs.created_iff ..).mp hentry, rfl⟩
      cases hanswers : env.answers with
      | false =>
        simp only [Bool.false_eq_true, if_false, false_implies, true_implies, true_and, ok_bind]
        refine exact_timeout hs (by simp) hasked hsoft (htables.trans ?_)
        simp only [CallEnv.CarriedOut, hanswers, Bool.false_eq_true, false_or]
        exact forall_congr' fun _ => eq_comm
      | true =>
        simp only [if_true, true_implies, Bool.true_eq_false, false_implies, and_true, ok_bind,
          Done.copyToUser]
        have hsoft' : ∀ l f k, (FpgaDevInfo.setEntry { s.dev with chain } lane' fchid kind
            none).chain.fchDevTable l f k =
            if l = lane' ∧ f = fchid ∧ k = kind then none else s.dev.chain.fchDevTable l f k := by
          intro l f k
          rw [← hsoft]
          rfl
        cases hto : env.copyToUser with
        | false =>
          -- the entry is gone, and the call returns an error
          rw [if_pos rfl]
          refine exact_ok (iff_of_false ?_ nofun) nofun
          intro hsafe
          have hsame := congrArg (fun t => t.soft lane' fchid kind) (hsafe.tables _ rfl)
          simp only [ChainDev.tables, hentry, hsoft', and_self, if_true] at hsame
          cases hsame
        | true =>
          rw [if_neg (by decide)]
          refine exact_ok (iff_of_true ⟨?_, nofun, nofun⟩ rfl) fun _ => hs.delete hat hsoft'
          rintro _ ⟨⟩
          exact hasked
    · constructor
      · rintro ⟨lane', hlane, hhas, h⟩
        obtain rfl : lane' = lane := Fin.ext (hlane.symm.trans hat.1)
        exact ⟨hhas, h⟩
      · rintro ⟨hhas, h⟩
        exact ⟨lane, hat.1, hhas, h⟩

/-- A read request is safe exactly if what it asks about is an entry that an update created. -/
theorem exact_readRequest (hs : s.Remembers) {P : Lane → Prop}
    (hP : ∀ lane : Lane, id.lane.toNat = lane →
      (s.Asked ⟨lane, kind, 3, requestKey (keyWord id.entry id.fchid kind) kind⟩ ↔ P lane)) :
    Exact s (.readTable kind id) (ioctlTable env (readRequest s.dev env id kind))
      (∃ lane : Lane, id.lane.toNat = lane ∧ s.dev.Has lane ∧ P lane) := by
  unfold ioctlTable readRequest
  rw [bind_assoc]
  refine exact_forwardRequest (asks_read kind (keyWord id.entry id.fchid kind)) ?_
  intro lane chain hlane hsoft htables
  have hsame : chain.tables = s.dev.chain.tables := htables.mpr fun _ => rfl
  have hdone : ∀ ret copied, Exact s (.readTable kind id) (.ok ⟨ret, copied, { s.dev with chain },
      some ⟨lane, kind, 3, requestKey (keyWord id.entry id.fchid kind) kind⟩⟩) (P lane) := by
    intro ret copied
    rw [← hP lane hlane]
    refine exact_ok ⟨fun h => h.asked _ rfl, fun h => ⟨?_, fun _ _ => hsame, fun _ _ => rfl⟩⟩
      fun _ => hs.of_soft hsoft fun _ _ _ _ => Iff.rfl
    rintro _ ⟨⟩
    exact h
  cases hanswers : env.answers with
  | false => exact hdone _ _
  | true =>
    simp only [if_true, ok_bind, Done.copyToUser]
    split_ifs
    · exact hdone _ _
    · exact hdone _ _

/-- The connection that is asked about was created for the lane. -/
theorem asked_ingress_iff (hs : s.Remembers) {entry : ExtifidCid} (hvalid : entry.Valid)
    (fchid : BitVec 16) (lane : Lane) :
    s.Asked ⟨lane, .ingress, 3, requestKey (keyWord entry fchid .ingress) .ingress⟩ ↔
      ∃ fchid, s.dev.chain.fchDevTable lane fchid .ingress = some entry := by
  constructor
  · rintro (hcode | ⟨f, entry', hcreated, hkey⟩)
    · exact absurd hcode (by decide : (3 : BitVec 32) ≠ 1)
    · have hentry' := (hs.created_iff ..).mpr hcreated
      have hkey' : entryKey entry f .ingress = entryKey entry' f .ingress := hkey
      obtain rfl : entry = entry' := entryKey_inj hvalid (hs.valid _ _ _ _ hentry') hkey'
      exact ⟨f, hentry'⟩
  · rintro ⟨f, hentry⟩
    exact .inr ⟨f, entry, (hs.created_iff ..).mp hentry, rfl⟩

theorem exact_readTable (hs : s.Remembers) (kind : CidKind) (id : FpgaId) :
    Exact s (.readTable kind id) (xpcieCdevIoctl build s.dev env (.readTable kind id))
      ((Cmd.readTable kind id).Meets build s.dev env) := by
  cases kind with
  | ingress =>
    simp only [xpcieCdevIoctl, Cmd.Meets, xpcieFpgaReadFuncChainTable]
    refine exact_copyFromUser hs (by simp) _ ?_
    by_cases hfound : s.dev.chain.findEntry id.entry = true
    · obtain ⟨l, f, k, hentry⟩ := findEntry_eq_true.mp hfound
      rw [if_pos hfound]
      refine (exact_readRequest hs fun lane _ =>
        asked_ingress_iff hs (hs.valid _ _ _ _ hentry) id.fchid lane).congr ?_
      exact ⟨fun h _ => h, fun h => h ⟨l, f, k, hentry⟩⟩
    · rw [if_neg hfound]
      exact exact_only hs (by simp) _ fun h => absurd (findEntry_eq_true.mpr h) hfound
  | egress =>
    simp only [xpcieCdevIoctl, Cmd.Meets, xpcieFpgaReadFuncChainTable]
    refine exact_copyFromUser hs (by simp) _ ?_
    unfold ioctlTable
    rw [bind_assoc]
    refine exact_tableIndex fun lane fchid hat => ?_
    cases hentry : s.dev.chain.fchDevTable lane fchid .egress with
    | none => exact exact_only hs (by simp) _ fun h => absurd rfl h
    | some entry =>
      refine (exact_readRequest (P := fun _ => True) hs fun lane' hlane => ?_).congr ?_
      · obtain rfl : lane' = lane := Fin.ext (hlane.symm.trans hat.1)
        refine iff_of_true (.inr ⟨fchid, entry, (hs.created_iff ..).mp hentry, ?_⟩) trivial
        exact requestKey_keyWord id.entry hat .egress
      · constructor
        · rintro ⟨lane', hlane, hhas, -⟩ _
          obtain rfl : lane' = lane := Fin.ext (hlane.symm.trans hat.1)
          exact hhas
        · exact fun h => ⟨lane, hat.1, h nofun, trivial⟩

theorem exact_readSoftTable (hs : s.Remembers) (ids : FpgaIoctlChainIds) :
    Exact s (.readSoftTable ids) (xpcieCdevIoctl build s.dev env (.readSoftTable ids))
      ((Cmd.readSoftTable ids).Meets build s.dev env) := by
  simp only [xpcieCdevIoctl, Cmd.Meets]
  refine exact_copyFromUser hs (by simp) _ ?_
  unfold xpcieFpgaReadChainSoftTable
  rw [bind_assoc]
  cases hindex : tableIndex ids.lane ids.fchid with
  | error fault =>
    refine exact_error fun ⟨hlane, hfchid⟩ => ?_
    have hok : tableIndex ids.lane ids.fchid =
        .ok ((⟨ids.lane.toNat, hlane⟩ : Lane), BitVec.ofNatLT ids.fchid.toNat hfchid) :=
      tableIndex_eq_ok.mpr ⟨rfl, rfl⟩
    cases hok.symm.trans hindex
  | ok place =>
    obtain ⟨hlane, hfchid⟩ := tableIndex_eq_ok.mp hindex
    have hbounds : ids.lane.toNat < xpcieKernelLaneMax ∧ ids.fchid.toNat < 2 ^ 9 :=
      ⟨hlane ▸ place.1.isLt, hfchid ▸ place.2.isLt⟩
    simp only [ok_bind, Done.copyToUser]
    split_ifs
    · exact exact_only hs (by simp) _ hbounds
    · exact exact_ok (iff_of_true ⟨nofun, nofun, nofun⟩ hbounds)
        fun _ => hs.of_soft rfl fun _ _ _ _ => Iff.rfl

theorem exact_resetSoftTable :
    Exact s .resetSoftTable (xpcieCdevIoctl build s.dev env .resetSoftTable)
      (Cmd.resetSoftTable.Meets build s.dev env) :=
  exact_ok (iff_of_true ⟨nofun, nofun, nofun⟩ trivial) fun _ =>
    ⟨fun _ _ _ _ => iff_of_false nofun id, nofun⟩

/-- `xpcie_fpga_control_refcount` writes through a null pointer, or it does nothing but change the
counters as far as it succeeds. -/
theorem controlRefcount_cases (build : BuildOptions) (dev : FpgaDevInfo) (cmd region : BitVec 32)
    (refcountGet : Bool) :
    (region = 1 ∧ refcountListDev build dev.mods.num ≠ [] ∧ refcountCmd cmd = .get ∧
        refcountGet = false ∧
        xpcieFpgaControlRefcount build dev cmd region refcountGet = .error .null) ∨
      (¬ (region = 1 ∧ refcountListDev build dev.mods.num ≠ [] ∧ refcountCmd cmd = .get ∧
          refcountGet = false) ∧
        ∃ ret mods, xpcieFpgaControlRefcount build dev cmd region refcountGet =
            .ok (ret, { dev with mods }) ∧
          (∀ e, ret = .error e → mods.counters.refcount = dev.mods.counters.refcount) ∧
          (mods.counters.refcount = dev.mods.counters.refcount ↔ (region = 1 →
            refcountListDev build dev.mods.num ≠ [] → ¬ Changes (refcountListDev build dev.mods.num)
              dev.mods.counters.refcount (refcountCmd cmd)))) := by
  unfold xpcieFpgaControlRefcount controlRefcountDev
  by_cases hregion : region = 1
  · simp only [hregion, if_true, true_and, true_implies]
    rcases controlRefcountStatus_cases (refcountListDev build dev.mods.num) (refcountCmd cmd)
      refcountGet dev.mods.counters with ⟨hne, hget, hnull, h⟩ | ⟨hno, h⟩
    · simp only [h]
      exact .inl ⟨hne, hget, hnull, rfl⟩
    · refine .inr ⟨hno, ?_⟩
      simp only [h, ok_bind]
      refine ⟨_, _, rfl, fun e he => ?_, ?_⟩
      · refine refcount_of_ne_ok fun hok => ?_
        rw [hok] at he
        cases he
      · by_cases hne : refcountListDev build dev.mods.num = []
        · refine iff_of_true ?_ fun hno => absurd hne hno
          simp only [hne]
          rfl
        · rw [counters_eq_iff (refcountListDev_nodup build dev.mods.num) hne]
          exact ⟨fun h _ => h, fun h => h hne⟩
  · simp only [if_neg hregion]
    refine .inr ⟨fun h => hregion h.1, _, _, rfl, fun _ _ => rfl, ?_⟩
    exact iff_of_true rfl fun h => absurd h hregion

theorem exact_setRefcount (hs : s.Remembers) (data : FpgaIoctlRefcount) :
    Exact s (.setRefcount data) (xpcieCdevIoctl build s.dev env (.setRefcount data))
      ((Cmd.setRefcount data).Meets build s.dev env) := by
  simp only [xpcieCdevIoctl, Cmd.Meets]
  refine exact_copyFromUser hs (by simp) _ ?_
  rcases controlRefcount_cases build s.dev data.cmd data.region false with
    ⟨hregion, hne, hget, -, h⟩ | ⟨hno, ret, mods, h, hcounters, -⟩
  · rw [h]
    exact exact_error fun hC => hC hregion hne hget
  · rw [h]
    refine exact_ok (iff_of_true ⟨nofun, fun _ _ => rfl, hcounters⟩ ?_)
      fun _ => hs.of_soft rfl fun _ _ _ _ => Iff.rfl
    exact fun hregion hne hget => hno ⟨hregion, hne, hget, rfl⟩

theorem exact_getRefcount (hs : s.Remembers) (data : FpgaIoctlRefcount) :
    Exact s (.getRefcount data) (xpcieCdevIoctl build s.dev env (.getRefcount data))
      ((Cmd.getRefcount data).Meets build s.dev env) := by
  simp only [xpcieCdevIoctl, Cmd.Meets]
  refine exact_copyFromUser hs (by simp) _ ?_
  rcases controlRefcount_cases build (s.dev.setRefcountGet data.refcount) data.cmd data.region true
    with ⟨-, -, -, hno, -⟩ | ⟨-, ret, mods, h, hcounters, hsame⟩
  · cases hno
  · rw [h]
    simp only [ok_bind, Done.copyToUser]
    cases hto : env.copyToUser with
    | false =>
      simp only [if_true, true_implies]
      refine exact_ok ⟨fun h => hsame.mp (h.counters _ rfl), fun h => ?_⟩
        fun _ => hs.of_soft rfl fun _ _ _ _ => Iff.rfl
      exact ⟨nofun, fun _ _ => rfl, fun _ _ => hsame.mpr h⟩
    | true =>
      rw [if_neg (by decide)]
      exact exact_ok (iff_of_true ⟨nofun, fun _ _ => rfl, hcounters⟩ nofun)
        fun _ => hs.of_soft rfl fun _ _ _ _ => Iff.rfl

/-- **A call** is safe exactly if it meets the condition, where the table of the driver is what the
calls before it made of it, and then the table is what this one made of it. -/
theorem exact_ioctl (hs : s.Remembers) (cmd : Cmd) :
    Exact s cmd (xpcieCdevIoctl build s.dev env cmd) (cmd.Meets build s.dev env) := by
  cases cmd with
  | updateTable kind id => exact exact_updateTable hs kind id
  | deleteTable kind id => exact exact_deleteTable hs kind id
  | readTable kind id => exact exact_readTable hs kind id
  | readSoftTable ids => exact exact_readSoftTable hs ids
  | resetSoftTable => exact exact_resetSoftTable
  | setRefcount data => exact exact_setRefcount hs data
  | getRefcount data => exact exact_getRefcount hs data

theorem safe_iff (hs : s.Remembers) (op : Op) : Safe build s op ↔ Meets build s op := by
  cases op with
  | ioctl env cmd => exact ⟨(exact_ioctl hs cmd).of_safe, fun h =>
      let ⟨done, hdone, hsafe, _⟩ := (exact_ioctl hs cmd).safe_of h
      ⟨done, hdone, hsafe⟩⟩
  | setFpgaUpdate | bitstream => exact Iff.rfl

/-- The table of the driver stays what the calls made of it. -/
theorem remembers_exec (hs : s.Remembers) {op : Op} (hop : Meets build s op)
    (h : exec build s op = .ok t) : t.Remembers := by
  cases op with
  | ioctl env cmd =>
    obtain ⟨done, hdone, -, hr⟩ := (exact_ioctl hs cmd).safe_of hop
    simp only [exec, hdone] at h
    cases h
    exact hr
  | setFpgaUpdate regs =>
    cases h
    exact ⟨hs.created_iff, hs.valid⟩
  | bitstream port =>
    cases h
    exact ⟨hs.created_iff, hs.valid⟩

/-- A device whose modules have two lanes, with counters that are zero. -/
def twoLanes : ModulesInfo := ⟨fun _ => 2, ⟨fun _ => 0, 0⟩, .modulized⟩

/-- All modules are built, and the global module counts. -/
def defaultBuild : BuildOptions := ⟨fun _ => true, fun m => m = .global⟩

example :
    Along (step defaultBuild) (BeforeFault (Meets defaultBuild))
      (.ok (loaded ChainDev.reset.port twoLanes))
      [.ioctl .fine (.updateTable .ingress ⟨1, 0, 5, 7, 1, 1, 0, 0, 0⟩),
        .ioctl .fine (.readTable .ingress ⟨1, 0, 5, 0, 0, 0, 0, 0, 0⟩),
        .ioctl .fine (.deleteTable .ingress ⟨1, 0, 0, 7, 0, 0, 0, 0, 0⟩),
        .ioctl .fine (.setRefcount ⟨0, 1, 0⟩)] := by
  decide +kernel

end HardwareDrivers.Driver.RawChain
