import HardwareDrivers.Driver.ChainInterleave

/-!
# Two ioctls that ask for the same

Two updates of the same entry with the same word, or two reads of the same entry, write
the same values into the same registers. Whichever request is carried out, it is that of
both; and the one that takes the response back last gets one.

## What is proved

* `SameRace.step` — what the accesses of the two keep.
* `interleavings_sound_iff` — for which pairs of ioctls all interleavings are sound.
-/

namespace HardwareDrivers.Driver

open Theory

/-- How far one of the two has come. -/
inductive RaceStage where
  /-- It has not looked at the table of the driver. -/
  | before
  /-- It has not taken the response back. -/
  | start
  /-- Registers are left to be written, and the code. -/
  | writing (rest : List (ForwardReg × BitVec 32))
  /-- It polls for the response, `n` times more. -/
  | polling (n : ℕ)
  /-- It has seen the response. -/
  | answered
  /-- It has succeeded. -/
  | ok (res : FpgaId)

namespace RaceStage

/-- It has taken the response back. -/
def Cleared : RaceStage → Prop
  | before | start => False
  | _ => True

/-- It has given its code. -/
def Fired : RaceStage → Prop
  | before | start | writing _ => False
  | _ => True

/-- It has seen the response. -/
def Seen : RaceStage → Prop
  | answered | ok _ => True
  | _ => False

/-- It is going to see the response, or has seen it. -/
def Alive (port : ForwardPort) : RaceStage → Prop
  | before | start => False
  | polling n => n ≠ 0 ∧ port.updateResp = 1
  | _ => True

/-- What is left of the accesses. -/
def prog (P : ChainPair) (params : List (ForwardReg × BitVec 32)) (code : BitVec 32) (i : Bool) :
    RaceStage → ChainProg (Except ChainErrno FpgaId)
  | before => (P.op i).prog P.kind
  | start => chainRequest P.lane P.kind params code >>= (P.op i).last P.kind
  | writing rest =>
    rest.foldr (fun param rest => .cmd (.regWrite P.lane P.kind param.1 param.2) fun _ => rest)
      (fireRequest P.lane P.kind code) >>= (P.op i).last P.kind
  | polling n => monitorResp P.lane P.kind n >>= (P.op i).last P.kind
  | answered => (P.op i).last P.kind true
  | ok res => .done (.ok res)

end RaceStage

/-- The request of both: the registers, the code, what the module carries out, and the tables
then. -/
structure RaceRequest where
  /-- The registers. -/
  params : List (ForwardReg × BitVec 32)
  /-- The code. -/
  code : BitVec 32
  /-- What is carried out. -/
  request : Executed
  /-- The entries of the module. -/
  table : BitVec 10 → Option (BitVec 32)
  /-- The table of the driver. -/
  soft : Lane → Fchid → CidKind → Option ExtifidCid

/-- The registers hold the request. -/
def Loaded (params : List (ForwardReg × BitVec 32)) (port : ForwardPort) : Prop :=
  ∀ q ∈ params, port.read q.1 = q.2

/-- The request has been carried out since `port₀`, and its word can be read. -/
structure Applied (kind : CidKind) (R : RaceRequest) (port₀ port : ForwardPort) : Prop where
  /-- The entries. -/
  table : port.table = R.table
  /-- The request. -/
  executed : ∃ new, port.executed = new ++ port₀.executed ∧ R.request ∈ new
  /-- The word. -/
  word : R.code = 3 → port.word kind = R.request.word

/-- `R` is the request of both ioctls of the pair. -/
structure RaceRequest.For (R : RaceRequest) (P : ChainPair) (s : ChainDev) : Prop where
  /-- A code. -/
  code : R.code ≠ 0
  /-- The registers of a request. -/
  regs : ∀ q ∈ R.params, q.1 = .session ∨ q.1 = .channel
  /-- Each is written once. -/
  once : ∀ q ∈ R.params, ∀ q' ∈ R.params, q.1 = q'.1 → q = q'
  /-- A read does not write the register with the word. -/
  keeps : R.code = 3 → ∀ q ∈ R.params, ∀ port : ForwardPort,
    (port.write true P.kind q.1 q.2).word P.kind = port.word P.kind
  /-- What the module does when the registers hold the request. -/
  execute : ∀ port : ForwardPort, Loaded R.params port →
    port.table = (s.port P.lane P.kind).table ∨ port.table = R.table →
    (port.execute P.kind R.code).table = R.table ∧
      (port.execute P.kind R.code).executed = R.request :: port.executed ∧
      (R.code = 3 → (port.execute P.kind R.code).word P.kind = R.request.word) ∧
      Loaded R.params (port.execute P.kind R.code)
  /-- Before the request, the table of the driver may be looked at if it does not change. -/
  opens : ∀ i, (P.op i).prog P.kind =
      chainRequest P.lane P.kind R.params R.code >>= (P.op i).last P.kind ∨
    (R.soft = s.fchDevTable ∧ Opens s.fchDevTable ((P.op i).prog P.kind)
      (chainRequest P.lane P.kind R.params R.code >>= (P.op i).last P.kind))
  /-- After it there is one more access. -/
  last : ∀ i (u : ChainDev), u.fchDevTable = s.fchDevTable ∨ u.fchDevTable = R.soft →
    Applied P.kind R (s.port P.lane P.kind) (u.port P.lane P.kind) →
    ∃ c next res, (P.op i).last P.kind true = .cmd c next ∧
      next (chainExec true c u).1 = .done (.ok res) ∧
      (chainExec true c u).2.port P.lane P.kind = u.port P.lane P.kind ∧
      (chainExec true c u).2.fchDevTable = R.soft ∧ (P.op i).Own P.kind res R.request

/-- What holds while the two take turns. -/
structure SameRace (R : RaceRequest) (P : ChainPair) (s : ChainDev) (r : ChainRace)
    (g : Bool → RaceStage) : Prop where
  /-- The accesses that are left. -/
  progs : ∀ i, r.progs i = (g i).prog P R.params R.code i
  /-- What has been written. -/
  written : ∀ i rest, g i = .writing rest → ∃ pre, R.params = pre ++ rest ∧
    Loaded pre (r.state.port P.lane P.kind)
  /-- All has been written before the code. -/
  loaded : ∀ i, (g i).Fired → Loaded R.params (r.state.port P.lane P.kind)
  /-- The request has been carried out, or none has. -/
  base : ((r.state.port P.lane P.kind).table = (s.port P.lane P.kind).table ∧
      (r.state.port P.lane P.kind).executed = (s.port P.lane P.kind).executed) ∨
    Applied P.kind R (s.port P.lane P.kind) (r.state.port P.lane P.kind)
  /-- A response to one of the two is to the request. -/
  resp : ∀ i, (g i).Cleared → (r.state.port P.lane P.kind).updateResp = 0 ∨
    (r.state.port P.lane P.kind).updateResp = 1 ∧
      Applied P.kind R (s.port P.lane P.kind) (r.state.port P.lane P.kind)
  /-- So is a response that was seen. -/
  seen : ∀ i, (g i).Seen → Applied P.kind R (s.port P.lane P.kind) (r.state.port P.lane P.kind)
  /-- The table of the driver. -/
  soft : r.state.fchDevTable = s.fchDevTable ∨ r.state.fchDevTable = R.soft
  /-- Who succeeded has stored. -/
  ok : ∀ i res, g i = .ok res → r.state.fchDevTable = R.soft ∧ (P.op i).Own P.kind res R.request
  /-- One of the two gets a response. -/
  alive : (∀ i, (g i).Cleared) → ∃ i, (g i).Alive (r.state.port P.lane P.kind)

variable {R : RaceRequest} {P : ChainPair} {s : ChainDev} {r t : ChainRace} {g : Bool → RaceStage}
  {i : Bool}

/-! ### The effect of an access -/

/-- A register of the request, written again. -/
theorem Loaded.write {params : List (ForwardReg × BitVec 32)} {kind : CidKind} {port : ForwardPort}
    (honce : ∀ q ∈ R.params, ∀ q' ∈ R.params, q.1 = q'.1 → q = q') (hsub : params ⊆ R.params)
    (h : Loaded params port) {reg : ForwardReg} {value : BitVec 32} (hmem : (reg, value) ∈ R.params)
    (hreg : reg = .session ∨ reg = .channel) : Loaded params (port.write true kind reg value) := by
  intro q hq
  by_cases hsame : q.1 = reg
  · obtain rfl : q = (reg, value) := honce q (hsub hq) _ hmem hsame
    obtain rfl | rfl := hreg <;> rfl
  · rw [← h q hq]
    obtain ⟨qreg, qvalue⟩ := q
    obtain rfl | rfl := hreg <;> cases qreg <;> first | rfl | exact absurd rfl hsame

theorem read_write_self {kind : CidKind} {port : ForwardPort} {reg : ForwardReg} {value : BitVec 32}
    (hreg : reg = .session ∨ reg = .channel) : (port.write true kind reg value).read reg = value := by
  obtain rfl | rfl := hreg <;> rfl

/-- Registers that differ in `UPDATE_REQ` and `UPDATE_RESP` only. -/
theorem Loaded.congr {params : List (ForwardReg × BitVec 32)} {port port' : ForwardPort}
    (hregs : ∀ q ∈ params, q.1 = .session ∨ q.1 = .channel) (hsession : port'.session = port.session)
    (hchannel : port'.channel = port.channel) (h : Loaded params port) : Loaded params port' := by
  intro q hq
  rw [← h q hq]
  obtain hreg | hreg := hregs q hq <;> rw [hreg]
  · exact hsession
  · exact hchannel

theorem Applied.congr {kind : CidKind} {port₀ port port' : ForwardPort}
    (htable : port'.table = port.table) (hexec : port'.executed = port.executed)
    (hword : R.code = 3 → port'.word kind = port.word kind) (h : Applied kind R port₀ port) :
    Applied kind R port₀ port' :=
  ⟨htable.trans h.table, hexec ▸ h.executed, fun h3 => (hword h3).trans (h.word h3)⟩

/-- What one access does to the registers of the two. -/
structure RaceEffect (R : RaceRequest) (P : ChainPair) (s : ChainDev) (port port' : ForwardPort) :
    Prop where
  /-- What was written stays. -/
  loaded : ∀ params, params ⊆ R.params → Loaded params port → Loaded params port'
  /-- Nothing but the request is carried out. -/
  base : (port.table = (s.port P.lane P.kind).table ∧
      port.executed = (s.port P.lane P.kind).executed) ∨
      Applied P.kind R (s.port P.lane P.kind) port →
    (port'.table = (s.port P.lane P.kind).table ∧
      port'.executed = (s.port P.lane P.kind).executed) ∨
      Applied P.kind R (s.port P.lane P.kind) port'
  /-- What was carried out stays. -/
  applied : Applied P.kind R (s.port P.lane P.kind) port → Applied P.kind R (s.port P.lane P.kind) port'

theorem RaceEffect.refl (port : ForwardPort) : RaceEffect R P s port port :=
  ⟨fun _ _ h => h, fun h => h, fun h => h⟩

/-- An access that changes no entry and, for a read, not the word. -/
theorem RaceEffect.of_eq {port port' : ForwardPort} (htable : port'.table = port.table)
    (hexec : port'.executed = port.executed) (hword : R.code = 3 → port'.word P.kind = port.word P.kind)
    (hloaded : ∀ params, params ⊆ R.params → Loaded params port → Loaded params port') :
    RaceEffect R P s port port' := by
  refine ⟨hloaded, fun h => ?_, fun h => h.congr htable hexec hword⟩
  obtain ⟨ht, he⟩ | h := h
  · exact .inl ⟨htable.trans ht, hexec.trans he⟩
  · exact .inr (h.congr htable hexec hword)

theorem word_congr {kind : CidKind} {port port' : ForwardPort} (hsession : port'.session = port.session)
    (hchannel : port'.channel = port.channel) : port'.word kind = port.word kind := by
  cases kind with
  | ingress => exact hchannel
  | egress => exact hsession

theorem RaceRequest.For.effect_clear (hR : R.For P s) (port : ForwardPort) :
    RaceEffect R P s port (port.writeReq true P.kind 0) :=
  .of_eq rfl rfl (fun _ => word_congr rfl rfl) fun _ hsub h => by
    apply Loaded.congr (fun q hq => hR.regs q (hsub hq)) _ _ h <;> rfl

theorem RaceRequest.For.effect_write (hR : R.For P s) (port : ForwardPort) {q : ForwardReg × BitVec 32}
    (hq : q ∈ R.params) : RaceEffect R P s port (port.write true P.kind q.1 q.2) := by
  have hreg := hR.regs q hq
  have hsame : (port.write true P.kind q.1 q.2).table = port.table ∧
      (port.write true P.kind q.1 q.2).executed = port.executed := by
    obtain h | h := hreg <;> rw [h] <;> exact ⟨rfl, rfl⟩
  exact .of_eq hsame.1 hsame.2 (fun h3 => hR.keeps h3 q hq port)
    fun _ hsub h => h.write hR.once hsub hq hreg

/-- The code, when all is written. -/
theorem RaceRequest.For.effect_fire (hR : R.For P s) (port : ForwardPort) (hloaded : Loaded R.params port)
    (hbase : (port.table = (s.port P.lane P.kind).table ∧
      port.executed = (s.port P.lane P.kind).executed) ∨
      Applied P.kind R (s.port P.lane P.kind) port) :
    (RaceEffect R P s port (port.writeReq true P.kind R.code)) ∧
      (port.updateResp = 0 →
        Applied P.kind R (s.port P.lane P.kind) (port.writeReq true P.kind R.code)) ∧
      (port.updateResp = 0 ∨ port.updateResp = 1 →
        (port.writeReq true P.kind R.code).updateResp = 1) := by
  rw [ForwardPort.writeReq, if_neg hR.code]
  by_cases hresp : port.updateResp = 0
  · rw [if_pos ⟨rfl, hresp⟩]
    obtain ⟨htable, hexec, hword, hload⟩ := hR.execute port hloaded
      (hbase.elim (fun h => .inl h.1) fun h => .inr h.table)
    have happlied : Applied P.kind R (s.port P.lane P.kind)
        { port.execute P.kind R.code with updateReq := R.code, updateResp := 1 } := by
      refine ⟨htable, ?_, fun h3 => (word_congr rfl rfl).trans (hword h3)⟩
      obtain ⟨-, he⟩ | h := hbase
      · exact ⟨[R.request], hexec.trans (by rw [he]; rfl), List.mem_singleton_self _⟩
      · obtain ⟨new, hnew, -⟩ := h.executed
        exact ⟨R.request :: new, hexec.trans (by rw [hnew]; rfl), List.mem_cons_self⟩
    refine ⟨⟨fun params hsub _ => ?_, fun _ => .inr happlied, fun _ => happlied⟩, fun _ => happlied,
      fun _ => rfl⟩
    have hparams : Loaded params (port.execute P.kind R.code) := fun q hq => hload q (hsub hq)
    apply Loaded.congr (fun q hq => hR.regs q (hsub hq)) _ _ hparams <;> rfl
  · rw [if_neg (fun h => hresp h.2)]
    refine ⟨.of_eq rfl rfl (fun _ => word_congr rfl rfl) fun _ hsub h => ?_,
      fun h => absurd h hresp, fun h => h.resolve_left hresp⟩
    apply Loaded.congr (fun q hq => hR.regs q (hsub hq)) _ _ h <;> rfl

/-! ### The steps -/

/-- A step of one of the two, to stage `stage`: it has the effect `heff` on the registers, and the
other fields hold where the step changed something. -/
theorem SameRace.move (h : SameRace R P s r g) (stage : RaceStage)
    (heff : RaceEffect R P s (r.state.port P.lane P.kind) (t.state.port P.lane P.kind))
    (hself : t.progs i = stage.prog P R.params R.code i) (hother : ∀ j, j ≠ i → t.progs j = r.progs j)
    (hwritten : ∀ rest, stage = .writing rest → ∃ pre, R.params = pre ++ rest ∧
      Loaded pre (t.state.port P.lane P.kind))
    (hloaded : stage.Fired → Loaded R.params (t.state.port P.lane P.kind))
    (hresp : ∀ j, (Function.update g i stage j).Cleared →
      (t.state.port P.lane P.kind).updateResp = 0 ∨ (t.state.port P.lane P.kind).updateResp = 1 ∧
        Applied P.kind R (s.port P.lane P.kind) (t.state.port P.lane P.kind))
    (hseen : stage.Seen → Applied P.kind R (s.port P.lane P.kind) (t.state.port P.lane P.kind))
    (hsoft : t.state.fchDevTable = r.state.fchDevTable ∨ t.state.fchDevTable = R.soft)
    (hok : ∀ res, stage = .ok res → t.state.fchDevTable = R.soft ∧
      (P.op i).Own P.kind res R.request)
    (halive : (∀ j, (Function.update g i stage j).Cleared) →
      ∃ j, (Function.update g i stage j).Alive (t.state.port P.lane P.kind)) :
    SameRace R P s t (Function.update g i stage) where
  progs := by
    intro j
    by_cases hj : j = i
    · subst hj
      rw [Function.update_self, hself]
    · rw [Function.update_of_ne hj, hother j hj, h.progs j]
  written := by
    intro j rest hstage
    by_cases hj : j = i
    · subst hj
      rw [Function.update_self] at hstage
      exact hwritten rest hstage
    · rw [Function.update_of_ne hj] at hstage
      obtain ⟨pre, hpre, hload⟩ := h.written j rest hstage
      exact ⟨pre, hpre, heff.loaded pre (hpre ▸ List.subset_append_left _ _) hload⟩
  loaded := by
    intro j hstage
    by_cases hj : j = i
    · subst hj
      rw [Function.update_self] at hstage
      exact hloaded hstage
    · rw [Function.update_of_ne hj] at hstage
      exact heff.loaded _ (List.Subset.refl _) (h.loaded j hstage)
  base := heff.base h.base
  resp := hresp
  seen := by
    intro j hstage
    by_cases hj : j = i
    · subst hj
      rw [Function.update_self] at hstage
      exact hseen hstage
    · rw [Function.update_of_ne hj] at hstage
      exact heff.applied (h.seen j hstage)
  soft := by
    obtain hsame | hstored := hsoft
    · rw [hsame]
      exact h.soft
    · exact .inr hstored
  ok := by
    intro j res hstage
    by_cases hj : j = i
    · subst hj
      rw [Function.update_self] at hstage
      exact hok res hstage
    · rw [Function.update_of_ne hj] at hstage
      obtain ⟨hstored, hown⟩ := h.ok j res hstage
      exact ⟨hsoft.elim (fun hsame => hsame.trans hstored) fun h => h, hown⟩
  alive := halive

/-- A stage of the other one is as it was. -/
theorem cleared_update {stage : RaceStage} (hstage : stage.Cleared → (g i).Cleared) {j : Bool}
    (h : (Function.update g i stage j).Cleared) : (g j).Cleared := by
  obtain ⟨rfl, hnew⟩ | ⟨-, hold⟩ := update_cases RaceStage.Cleared h
  · exact hstage hnew
  · exact hold

/-- A step that takes no response back leaves one of the two with a response to come. -/
theorem SameRace.alive_move (h : SameRace R P s r g) {stage : RaceStage} {port' : ForwardPort}
    (hstage : stage.Cleared → (g i).Cleared)
    (hkeep : (r.state.port P.lane P.kind).updateResp = 1 → port'.updateResp = 1)
    (halive : (g i).Alive (r.state.port P.lane P.kind) → stage.Alive port')
    (hall : ∀ j, (Function.update g i stage j).Cleared) :
    ∃ j, (Function.update g i stage j).Alive port' := by
  obtain ⟨j, hj⟩ := h.alive fun j => cleared_update hstage (hall j)
  refine ⟨j, ?_⟩
  by_cases hji : j = i
  · subst hji
    rw [Function.update_self]
    exact halive hj
  · rw [Function.update_of_ne hji]
    revert hj
    cases g j with
    | polling n => exact fun hn => ⟨hn.1, hkeep hn.2⟩
    | before => exact fun hn => hn
    | start => exact fun hn => hn
    | writing rest => exact fun _ => trivial
    | answered => exact fun _ => trivial
    | ok res => exact fun _ => trivial

/-- A step that leaves the registers as they are. -/
theorem SameRace.move_same (h : SameRace R P s r g) (stage : RaceStage)
    (hport : t.state.port P.lane P.kind = r.state.port P.lane P.kind)
    (hself : t.progs i = stage.prog P R.params R.code i) (hother : ∀ j, j ≠ i → t.progs j = r.progs j)
    (hwritten : ∀ rest, stage ≠ .writing rest) (hfired : stage.Fired → (g i).Fired)
    (hcleared : stage.Cleared → (g i).Cleared)
    (hseen : stage.Seen → Applied P.kind R (s.port P.lane P.kind) (r.state.port P.lane P.kind))
    (hsoft : t.state.fchDevTable = r.state.fchDevTable ∨ t.state.fchDevTable = R.soft)
    (hok : ∀ res, stage = .ok res → t.state.fchDevTable = R.soft ∧
      (P.op i).Own P.kind res R.request)
    (halive : (g i).Alive (r.state.port P.lane P.kind) → stage.Alive (r.state.port P.lane P.kind)) :
    SameRace R P s t (Function.update g i stage) := by
  apply h.move stage _ hself hother (fun rest hstage => absurd hstage (hwritten rest)) _ _ _ hsoft hok
  · rw [hport]
    exact fun hall => h.alive_move hcleared (fun h => h) halive hall
  · rw [hport]
    exact .refl _
  · rw [hport]
    exact fun hstage => h.loaded i (hfired hstage)
  · rw [hport]
    exact fun j hj => h.resp j (cleared_update hcleared hj)
  · rw [hport]
    exact hseen

theorem last_false (op : ChainOp) (kind : CidKind) :
    op.last kind false = .done (.error .updateTimeout) := by
  cases op <;> rfl

section Steps

variable {c : ChainCmd} {next : c.Ans → ChainProg (Except ChainErrno FpgaId)}

/-- It takes the response back. -/
theorem SameRace.step_start (hR : R.For P s) (h : SameRace R P s r g) (hg : g i = .start)
    (hp : r.progs i = .cmd c next) (hst : t.state = (chainExec true c r.state).2)
    (hpi : t.progs i = next (chainExec true c r.state).1) (hpj : ∀ j, j ≠ i → t.progs j = r.progs j) :
    SameRace R P s t (Function.update g i (.writing R.params)) := by
  have hprog := (h.progs i).symm.trans hp
  rw [hg] at hprog
  cases hprog
  have hport : t.state.port P.lane P.kind = (r.state.port P.lane P.kind).writeReq true P.kind 0 := by
    rw [hst]
    exact port_setPort _
  have hresp : (t.state.port P.lane P.kind).updateResp = 0 := by
    rw [hport]
    rfl
  apply h.move (.writing R.params) _ hpi hpj _ (fun h => h.elim) (fun _ _ => .inl hresp)
    (fun h => h.elim)
  · exact .inl (by rw [hst]; rfl)
  · intro res h
    cases h
  · exact fun _ => ⟨i, by rw [Function.update_self]; trivial⟩
  · rw [hport]
    exact hR.effect_clear _
  · intro rest h
    cases h
    exact ⟨[], rfl, fun q hq => by cases hq⟩

/-- It looks at the table of the driver. -/
theorem SameRace.step_before (hR : R.For P s) (h : SameRace R P s r g) (hg : g i = .before)
    (hp : r.progs i = .cmd c next) (hst : t.state = (chainExec true c r.state).2)
    (hpi : t.progs i = next (chainExec true c r.state).1) (hpj : ∀ j, j ≠ i → t.progs j = r.progs j) :
    ∃ g', SameRace R P s t g' := by
  have hprog := (h.progs i).symm.trans hp
  rw [hg] at hprog
  by_cases hbody : (P.op i).prog P.kind =
      chainRequest P.lane P.kind R.params R.code >>= (P.op i).last P.kind
  · -- there is nothing to look at
    have hstart : SameRace R P s r (Function.update g i .start) := by
      apply h.move_same .start rfl _ (fun _ _ => rfl) (fun _ => by simp) (fun h => h.elim) (fun h => h.elim)
        (fun h => h.elim) (.inl rfl) (fun _ h => by cases h)
      · rw [hg]
        exact fun h => h.elim
      · exact (h.progs i).trans ((congrArg (RaceStage.prog P R.params R.code i) hg).trans hbody)
    exact ⟨_, hstart.step_start hR (Function.update_self ..) hp hst hpi hpj⟩
  · obtain ⟨hsoft, hopens⟩ := (hR.opens i).resolve_left hbody
    obtain ⟨c', next', hp', hc⟩ := hopens.resolve_left hbody
    cases hprog.symm.trans hp'
    obtain ⟨hstate, hnext⟩ := hc r.state (h.soft.elim (fun h => h) fun h => h.trans hsoft)
    rw [hstate] at hst
    refine ⟨_, h.move_same .start (by rw [hst]) (hpi.trans hnext) hpj (fun _ => by simp)
      (fun h => h.elim) (fun h => h.elim) (fun h => h.elim) (.inl (by rw [hst]))
      (fun _ h => by cases h) ?_⟩
    rw [hg]
    exact fun h => h.elim

/-- It writes a register. -/
theorem SameRace.step_write (hR : R.For P s) (h : SameRace R P s r g) {q : ForwardReg × BitVec 32}
    {rest : List (ForwardReg × BitVec 32)} (hg : g i = .writing (q :: rest))
    (hp : r.progs i = .cmd c next) (hst : t.state = (chainExec true c r.state).2)
    (hpi : t.progs i = next (chainExec true c r.state).1) (hpj : ∀ j, j ≠ i → t.progs j = r.progs j) :
    SameRace R P s t (Function.update g i (.writing rest)) := by
  have hprog := (h.progs i).symm.trans hp
  rw [hg] at hprog
  cases hprog
  obtain ⟨pre, hpre, hload⟩ := h.written i _ hg
  have hq : q ∈ R.params := by
    rw [hpre]
    exact List.mem_append_right _ List.mem_cons_self
  have hreg := hR.regs q hq
  have hport : t.state.port P.lane P.kind =
      (r.state.port P.lane P.kind).write true P.kind q.1 q.2 := by
    rw [hst]
    exact port_setPort _
  have heff := hR.effect_write (r.state.port P.lane P.kind) hq
  have hresp : ((r.state.port P.lane P.kind).write true P.kind q.1 q.2).updateResp =
      (r.state.port P.lane P.kind).updateResp := by
    obtain h | h := hreg <;> rw [h] <;> rfl
  have hcleared : (RaceStage.writing rest).Cleared → (g i).Cleared := fun _ => by
    rw [hg]
    trivial
  rw [← hport] at heff hresp
  apply h.move (.writing rest) heff hpi hpj _ (fun h => h.elim) _ (fun h => h.elim)
  · exact .inl (by rw [hst]; rfl)
  · intro res h
    cases h
  · apply h.alive_move hcleared
    · exact fun h => hresp.trans h
    · exact fun _ => trivial
  · intro rest' h'
    cases h'
    refine ⟨pre ++ [q], by rw [hpre, List.append_assoc]; rfl, fun q' hq' => ?_⟩
    obtain hq' | hq' := List.mem_append.mp hq'
    · exact heff.loaded pre (hpre ▸ List.subset_append_left _ _) hload q' hq'
    · rw [List.mem_singleton] at hq'
      rw [hq', hport]
      exact read_write_self hreg
  · intro j hj
    rw [hresp]
    exact (h.resp j (cleared_update hcleared hj)).imp_right fun h => ⟨h.1, heff.applied h.2⟩

/-- It gives the code. -/
theorem SameRace.step_fire (hR : R.For P s) (h : SameRace R P s r g) (hg : g i = .writing [])
    (hp : r.progs i = .cmd c next) (hst : t.state = (chainExec true c r.state).2)
    (hpi : t.progs i = next (chainExec true c r.state).1) (hpj : ∀ j, j ≠ i → t.progs j = r.progs j) :
    SameRace R P s t (Function.update g i (.polling fpgaUpdatePollingMax)) := by
  have hprog := (h.progs i).symm.trans hp
  rw [hg] at hprog
  cases hprog
  obtain ⟨pre, hpre, hload⟩ := h.written i _ hg
  rw [List.append_nil] at hpre
  rw [← hpre] at hload
  have hport : t.state.port P.lane P.kind =
      (r.state.port P.lane P.kind).writeReq true P.kind R.code := by
    rw [hst]
    exact port_setPort _
  obtain ⟨heff, happlied, hresp⟩ := hR.effect_fire _ hload h.base
  rw [← hport] at heff happlied hresp
  have hcleared : (g i).Cleared := by
    rw [hg]
    trivial
  have hresp' := h.resp i hcleared
  have hone : (t.state.port P.lane P.kind).updateResp = 1 := hresp (hresp'.imp_right And.left)
  have hdone : Applied P.kind R (s.port P.lane P.kind) (t.state.port P.lane P.kind) :=
    hresp'.elim happlied fun h => heff.applied h.2
  apply h.move (.polling fpgaUpdatePollingMax) heff hpi hpj _ (fun _ => heff.loaded _ (List.Subset.refl _) hload)
    (fun _ _ => .inr ⟨hone, hdone⟩) (fun h => h.elim)
  · exact .inl (by rw [hst]; rfl)
  · intro res h
    cases h
  · exact fun _ => ⟨i, by rw [Function.update_self]; exact ⟨by decide, hone⟩⟩
  · intro rest h
    cases h

/-- It polls. -/
theorem SameRace.step_poll (h : SameRace R P s r g) {n : ℕ} (hg : g i = .polling (n + 1))
    (hp : r.progs i = .cmd c next) (hst : t.state = (chainExec true c r.state).2)
    (hpi : t.progs i = next (chainExec true c r.state).1) (hpj : ∀ j, j ≠ i → t.progs j = r.progs j) :
    ∃ g', SameRace R P s t g' := by
  have hprog := (h.progs i).symm.trans hp
  rw [hg] at hprog
  cases hprog
  have hsame : t.state = r.state := hst
  have hnext : t.progs i = (if (r.state.port P.lane P.kind).updateResp = 1 then pure true
      else monitorResp P.lane P.kind n : ChainProg Bool) >>= (P.op i).last P.kind := hpi
  have hcleared : (g i).Cleared := by
    rw [hg]
    trivial
  have hfired : (g i).Fired := by
    rw [hg]
    trivial
  by_cases hresp : (r.state.port P.lane P.kind).updateResp = 1
  · rw [if_pos hresp] at hnext
    refine ⟨_, h.move_same .answered (by rw [hsame]) hnext hpj (fun _ => by simp)
      (fun _ => hfired) (fun _ => hcleared) (fun _ => ?_) (.inl (by rw [hsame]))
      (fun _ h => by cases h) (fun _ => trivial)⟩
    obtain hzero | hone := h.resp i hcleared
    · rw [hresp] at hzero
      exact absurd hzero (by decide)
    · exact hone.2
  · rw [if_neg hresp] at hnext
    refine ⟨_, h.move_same (.polling n) (by rw [hsame]) hnext hpj (fun _ => by simp)
      (fun _ => hfired) (fun _ => hcleared) (fun h => h.elim) (.inl (by rw [hsame]))
      (fun _ h => by cases h) ?_⟩
    rw [hg]
    exact fun h => absurd h.2 hresp

/-- It does what is left after the response. -/
theorem SameRace.step_answered (hR : R.For P s) (h : SameRace R P s r g) (hg : g i = .answered)
    (hp : r.progs i = .cmd c next) (hst : t.state = (chainExec true c r.state).2)
    (hpi : t.progs i = next (chainExec true c r.state).1) (hpj : ∀ j, j ≠ i → t.progs j = r.progs j) :
    ∃ g', SameRace R P s t g' := by
  have hprog := (h.progs i).symm.trans hp
  rw [hg] at hprog
  have hseen := h.seen i (by rw [hg]; trivial)
  obtain ⟨c', next', res, hlast, hnext, hport, hsoft, hown⟩ := hR.last i r.state h.soft hseen
  cases hprog.symm.trans hlast
  refine ⟨_, h.move_same (.ok res) (by rw [hst, hport]) (hpi.trans hnext) hpj
    (fun _ => by simp) (fun _ => ?_) (fun _ => ?_) (fun _ => hseen) (.inr (hst ▸ hsoft)) ?_
    (fun _ => trivial)⟩
  · rw [hg]
    trivial
  · rw [hg]
    trivial
  · intro res' h
    cases h
    exact ⟨hst ▸ hsoft, hown⟩

end Steps

/-- **The turns.** What an access of one of the two keeps. -/
theorem SameRace.step (hR : R.For P s) (h : SameRace R P s r g)
    (ht : Shared.step (chainExec true) r i = some t) : ∃ g', SameRace R P s t g' := by
  obtain ⟨c, next, hp, hst, hpi, hpj⟩ := Shared.step_cases ht
  have hprog := (h.progs i).symm.trans hp
  cases hg : g i with
  | before => exact h.step_before hR hg hp hst hpi hpj
  | start => exact ⟨_, h.step_start hR hg hp hst hpi hpj⟩
  | writing rest =>
    cases rest with
    | nil => exact ⟨_, h.step_fire hR hg hp hst hpi hpj⟩
    | cons q rest => exact ⟨_, h.step_write hR hg hp hst hpi hpj⟩
  | polling n =>
    cases n with
    | zero =>
      rw [hg] at hprog
      cases (last_false (P.op i) P.kind).symm.trans hprog
    | succ n => exact h.step_poll hg hp hst hpi hpj
  | answered => exact h.step_answered hR hg hp hst hpi hpj
  | ok res =>
    rw [hg] at hprog
    cases hprog

/-! ### The start and the end -/

theorem SameRace.start (R : RaceRequest) (P : ChainPair) (s : ChainDev) :
    SameRace R P s (P.start s) fun _ => .before where
  progs _ := rfl
  written _ _ h := by cases h
  loaded _ h := h.elim
  base := .inl ⟨rfl, rfl⟩
  resp _ h := h.elim
  seen _ h := h.elim
  soft := .inl rfl
  ok _ _ h := by cases h
  alive h := (h false).elim

/-- Where it is done. -/
theorem SameRace.stage_of_done (hR : R.For P s) (h : SameRace R P s r g)
    {a : Except ChainErrno FpgaId} (ha : r.progs i = .done a) :
    (∃ res, g i = .ok res) ∨ g i = .polling 0 := by
  have hprog := (h.progs i).symm.trans ha
  cases hg : g i with
  | before =>
    rw [hg] at hprog
    obtain hbody | ⟨-, hbody | ⟨c, next, hp, -⟩⟩ := hR.opens i
    · cases hbody.symm.trans hprog
    · cases hbody.symm.trans hprog
    · cases hp.symm.trans hprog
  | start =>
    rw [hg] at hprog
    cases hprog
  | writing rest =>
    rw [hg] at hprog
    cases rest <;> cases hprog
  | polling n =>
    rw [hg] at hprog
    cases n with
    | zero => exact .inr rfl
    | succ n => cases hprog
  | answered =>
    rw [hg] at hprog
    obtain ⟨c, next, -, hlast, -⟩ := hR.last i r.state h.soft (h.seen i (by rw [hg]; trivial))
    cases hlast.symm.trans hprog
  | ok res => exact .inl ⟨res, rfl⟩

/-- If the two ask for the same, and what they ask for leaves the driver and the module in
agreement, all interleavings are sound. -/
theorem SameRace.sound (hR : R.For P s)
    (hagrees : ∀ u : ChainDev, (u.port P.lane P.kind).table = R.table → u.fchDevTable = R.soft →
      u.tables.Agrees (fun _ => True) P.lane P.kind)
    (h : SameRace R P s r g) (hfin : r.Finished) : P.Sound s r := by
  have hstage : ∀ i, (∃ res, g i = .ok res) ∨ g i = .polling 0 := by
    intro i
    obtain ⟨a, ha⟩ := hfin i
    exact h.stage_of_done hR ha
  have hcleared : ∀ i, (g i).Cleared := by
    intro i
    obtain ⟨res, hi⟩ | hi := hstage i <;> rw [hi] <;> trivial
  -- one of the two got its response
  obtain ⟨i, halive⟩ := h.alive hcleared
  obtain ⟨res, hi⟩ := (hstage i).resolve_right fun hi => by
    rw [hi] at halive
    exact halive.1 rfl
  have happlied := h.seen i (by rw [hi]; trivial)
  refine ⟨fun j res' hj => ?_, hagrees _ happlied.table (h.ok i res hi).1⟩
  obtain ⟨new, hnew, hmem⟩ := happlied.executed
  refine ⟨new, hnew, _, hmem, ?_⟩
  obtain ⟨res'', hj'⟩ | hj' := hstage j
  · have hprog := (h.progs j).symm.trans hj
    rw [hj'] at hprog
    cases hprog
    exact (h.ok j _ hj').2
  · have hprog := (h.progs j).symm.trans hj
    rw [hj'] at hprog
    cases (last_false (P.op j) P.kind).symm.trans hprog

/-! ### Two updates -/

theorem updateParams_congr {a b : FpgaId} {kind : CidKind} (hentry : a.entry = b.entry)
    (hfchid : a.fchid = b.fchid) (hword : a.word kind = b.word kind) :
    a.updateParams kind = b.updateParams kind := by
  cases kind with
  | ingress =>
    rw [FpgaId.updateParams, FpgaId.updateParams, hentry, show a.ingressChannel = _ from hword]
    rfl
  | egress =>
    rw [FpgaId.updateParams, FpgaId.updateParams, hfchid, show a.egressSession = _ from hword]
    rfl

theorem updateParams_once (id : FpgaId) (kind : CidKind) :
    ∀ q ∈ id.updateParams kind, ∀ q' ∈ id.updateParams kind, q.1 = q'.1 → q = q' := by
  cases kind <;> simp [FpgaId.updateParams]

/-- The request of an update. -/
def updateRequest (P : ChainPair) (s : ChainDev) (id : FpgaId) : RaceRequest where
  params := id.updateParams P.kind
  code := 1
  request := ⟨1, entryKey id.entry id.fchid P.kind, id.word P.kind⟩
  table := Function.update (s.port P.lane P.kind).table (entryKey id.entry id.fchid P.kind)
    (some (id.word P.kind))
  soft := (s.setEntry P.lane id.fchid P.kind (some id.entry)).fchDevTable

theorem key_of_loaded_update {id : FpgaId} {kind : CidKind} {port : ForwardPort}
    (h : Loaded (id.updateParams kind) port) :
    port.key kind = entryKey id.entry id.fchid kind ∧ port.word kind = id.word kind := by
  cases kind with
  | ingress =>
    have hsession : port.session = id.entry.session := h (.session, _) List.mem_cons_self
    have hchannel : port.channel = id.ingressChannel :=
      h (.channel, _) (List.mem_cons_of_mem _ List.mem_cons_self)
    exact ⟨congrArg (BitVec.setWidth 10) hsession, hchannel⟩
  | egress =>
    have hchannel : port.channel = id.fchid.setWidth 32 := h (.channel, _) List.mem_cons_self
    have hsession : port.session = id.egressSession :=
      h (.session, _) (List.mem_cons_of_mem _ List.mem_cons_self)
    refine ⟨?_, hsession⟩
    rw [ForwardPort.key, hchannel]
    simp [entryKey]

theorem updateRequest_for {a : FpgaId} (hupdate : ∀ i, ∃ id, P.op i = .update id ∧
    id.entry.Valid ∧ id.entry = a.entry ∧ id.fchid = a.fchid ∧ id.word P.kind = a.word P.kind) :
    (updateRequest P s a).For P s where
  code := by
    change (1 : BitVec 32) ≠ 0
    decide
  regs := updateParams_mem a P.kind
  once := updateParams_once a P.kind
  keeps h := absurd h (by decide : ¬ (1 : BitVec 32) = 3)
  execute port hloaded htable := by
    obtain ⟨hkey, hword⟩ := key_of_loaded_update hloaded
    refine ⟨?_, ?_, fun h => absurd h (by decide : ¬ (1 : BitVec 32) = 3), hloaded⟩
    · change Function.update port.table (port.key P.kind) (some (port.word P.kind)) = _
      rw [hkey, hword]
      obtain h | h := htable
      · rw [h]
        rfl
      · rw [h]
        exact Function.update_idem ..
    · change ⟨1, port.key P.kind, port.word P.kind⟩ :: port.executed = _
      rw [hkey, hword]
      rfl
  opens i := by
    left
    obtain ⟨id, hid, hvalid, hentry, hfchid, hword⟩ := hupdate i
    have hlane : id.lane = P.lane := by
      rw [← P.lane_op i, hid]
      rfl
    rw [hid, ChainOp.prog, xpcieFpgaUpdateFuncChainTable, if_pos hvalid, Prog.bind_assoc, hlane,
      updateParams_congr hentry hfchid hword]
    refine congrArg _ (funext fun done => ?_)
    cases done <;> rw [← hlane] <;> rfl
  last i u hsoft happlied := by
    obtain ⟨id, hid, hvalid, hentry, hfchid, hword⟩ := hupdate i
    have hlane : id.lane = P.lane := by
      rw [← P.lane_op i, hid]
      rfl
    rw [hid]
    refine ⟨_, _, id, rfl, rfl, rfl, ?_, ?_⟩
    · funext l f k
      change (if l = id.lane ∧ f = id.fchid ∧ k = P.kind then some id.entry else u.fchDevTable l f k) =
        if l = P.lane ∧ f = a.fchid ∧ k = P.kind then some a.entry else s.fchDevTable l f k
      rw [hlane, hfchid, hentry]
      split_ifs with hplace
      · rfl
      · obtain h | h := hsoft
        · rw [h]
        · rw [h]
          exact if_neg hplace
    · rw [ChainOp.Own, hentry, hfchid, hword]
      rfl

/-! ### Two reads -/

theorem keyParams_once (entry : ExtifidCid) (fchid : Fchid) (kind : CidKind) :
    ∀ q ∈ keyParams entry fchid kind, ∀ q' ∈ keyParams entry fchid kind, q.1 = q'.1 → q = q' := by
  cases kind <;> simp [keyParams]

/-- The request of a read. -/
def readRaceRequest (P : ChainPair) (s : ChainDev) (id : FpgaId) : RaceRequest where
  params := keyParams id.entry id.fchid P.kind
  code := 3
  request := ⟨3, entryKey id.entry id.fchid P.kind,
    ((s.port P.lane P.kind).table (entryKey id.entry id.fchid P.kind)).getD 0⟩
  table := (s.port P.lane P.kind).table
  soft := s.fchDevTable

theorem key_of_loaded_read {entry : ExtifidCid} {fchid : Fchid} {kind : CidKind} {port : ForwardPort}
    (h : Loaded (keyParams entry fchid kind) port) : port.key kind = entryKey entry fchid kind := by
  cases kind with
  | ingress =>
    have hsession : port.session = entry.session := h (.session, _) List.mem_cons_self
    exact congrArg (BitVec.setWidth 10) hsession
  | egress =>
    have hchannel : port.channel = fchid.setWidth 32 := h (.channel, _) List.mem_cons_self
    rw [ForwardPort.key, hchannel]
    simp [entryKey]

/-- The word a read loads goes into the other register. -/
theorem execute_read (kind : CidKind) (port : ForwardPort) :
    (port.execute kind 3).table = port.table ∧
      (port.execute kind 3).executed =
        ⟨3, port.key kind, (port.table (port.key kind)).getD 0⟩ :: port.executed ∧
      (port.execute kind 3).word kind = (port.table (port.key kind)).getD 0 ∧
      ∀ entry fchid, Loaded (keyParams entry fchid kind) port →
        Loaded (keyParams entry fchid kind) (port.execute kind 3) := by
  cases kind with
  | ingress =>
    refine ⟨rfl, rfl, rfl, fun entry fchid h q hq => ?_⟩
    rw [List.mem_singleton.mp hq]
    exact h (.session, _) List.mem_cons_self
  | egress =>
    refine ⟨rfl, rfl, rfl, fun entry fchid h q hq => ?_⟩
    rw [List.mem_singleton.mp hq]
    exact h (.channel, _) List.mem_cons_self

theorem readRaceRequest_for {a : FpgaId} (hread : ∀ i, ∃ id, P.op i = .read id ∧
    ¬ (P.op i).Quiet P.kind s.tables ∧
    keyParams id.entry id.fchid P.kind = keyParams a.entry a.fchid P.kind ∧
    entryKey id.entry id.fchid P.kind = entryKey a.entry a.fchid P.kind) :
    (readRaceRequest P s a).For P s where
  code := by
    change (3 : BitVec 32) ≠ 0
    decide
  regs := keyParams_mem a.entry a.fchid P.kind
  once := keyParams_once a.entry a.fchid P.kind
  keeps _ q hq port := by
    cases hkind : P.kind with
    | ingress =>
      rw [show (readRaceRequest P s a).params = keyParams a.entry a.fchid P.kind from rfl, hkind] at hq
      rw [List.mem_singleton.mp hq]
      rfl
    | egress =>
      rw [show (readRaceRequest P s a).params = keyParams a.entry a.fchid P.kind from rfl, hkind] at hq
      rw [List.mem_singleton.mp hq]
      rfl
  execute port hloaded htable := by
    have htable : port.table = (s.port P.lane P.kind).table := htable.elim (fun h => h) fun h => h
    obtain ⟨hentries, hexec, hword, hkeep⟩ := execute_read P.kind port
    rw [key_of_loaded_read hloaded, htable] at hexec hword
    exact ⟨hentries.trans htable, hexec, fun _ => hword, hkeep _ _ hloaded⟩
  opens i := by
    right
    obtain ⟨id, hid, hquiet, hparams, -⟩ := hread i
    have hopens := ChainOp.opens hquiet
    rw [ChainOp.body, P.lane_op i, hid] at hopens
    rw [hid]
    refine ⟨rfl, ?_⟩
    rw [show (readRaceRequest P s a).params = _ from hparams.symm]
    exact hopens
  last i u hsoft happlied := by
    obtain ⟨id, hid, -, -, hkey⟩ := hread i
    have hlane : id.lane = P.lane := by
      rw [← P.lane_op i, hid]
      rfl
    rw [hid]
    refine ⟨_, _, _, rfl, rfl, rfl, ?_, rfl, ?_, ?_⟩
    · exact hsoft.elim (fun h => h) fun h => h
    · exact hkey.symm
    · have hword : (u.port id.lane P.kind).read (readAddr P.kind) =
          (readRaceRequest P s a).request.word := by
        rw [read_readAddr, hlane]
        exact happlied.word rfl
      exact congrArg (fun w => id.readWord w P.kind) hword

/-! ### The pairs that are sound -/

theorem SameRace.always (hR : R.For P s) {sched : List Bool}
    (ht : run (Shared.step (chainExec true)) (P.start s) sched = some t) :
    ∃ g, SameRace R P s t g := by
  apply run_invariant (I := fun r => ∃ g, SameRace R P s r g) _ ⟨_, SameRace.start R P s⟩ ht
  intro r i t ⟨g, h⟩ hstep
  exact h.step hR hstep

/-- Two updates of the same entry. -/
theorem sound_of_updates {a b : FpgaId} (hagree : s.tables.Agrees (fun _ => True) P.lane P.kind)
    (ha : P.op false = .update a) (hb : P.op true = .update b)
    (hsame : (P.op false).SameRequest P.kind (P.op true)) (hvalid : a.entry.Valid)
    (hfresh : s.tables.Fresh P.lane a.fchid a.entry P.kind) {sched : List Bool}
    (ht : run (Shared.step (chainExec true)) (P.start s) sched = some t) (hfin : t.Finished) :
    P.Sound s t := by
  rw [ha, hb] at hsame
  obtain ⟨hentry, hfchid, hword⟩ := hsame
  have hlane : a.lane = P.lane := by
    rw [← P.lane_op false, ha]
    rfl
  have hR : (updateRequest P s a).For P s := by
    apply updateRequest_for
    intro i
    cases i with
    | false => exact ⟨a, ha, hvalid, rfl, rfl, rfl⟩
    | true => exact ⟨b, hb, hentry ▸ hvalid, hentry.symm, hfchid.symm, hword.symm⟩
  obtain ⟨g, hrace⟩ := SameRace.always hR ht
  refine hrace.sound hR (fun u htable hsoft => ?_) hfin
  rw [← hlane] at hagree hfresh ⊢
  have hset := hagree.set_some hvalid trivial hfresh
  unfold ChainTables.Agrees ChainTables.HwEntry at hset ⊢
  rw [entries_set] at hset
  intro f e
  have hentries : u.tables.entries a.lane P.kind = Function.update (s.tables.entries a.lane P.kind)
      (entryKey a.entry a.fchid P.kind) (some (a.word P.kind)) := by
    rw [hlane]
    exact htable
  rw [hentries]
  refine (hset f e).trans (iff_of_eq (congrArg (· = some e) ?_))
  rw [show u.tables.soft = _ from hsoft, hlane]
  rfl

/-- Two reads of the same entry. -/
theorem sound_of_reads {a b : FpgaId} (hagree : ∀ lane kind, s.tables.Agrees (fun _ => True) lane kind)
    (hquiet : ∀ i, ¬ (P.op i).Quiet P.kind s.tables)
    (ha : P.op false = .read a) (hb : P.op true = .read b)
    (hsame : (P.op false).SameRequest P.kind (P.op true)) {sched : List Bool}
    (ht : run (Shared.step (chainExec true)) (P.start s) sched = some t) (hfin : t.Finished) :
    P.Sound s t := by
  have hqa := hquiet false
  have hqb := hquiet true
  rw [ha] at hqa
  rw [hb] at hqb
  rw [ha, hb] at hsame
  have hparams : keyParams b.entry b.fchid P.kind = keyParams a.entry a.fchid P.kind := by
    have hkey : entryKey a.entry a.fchid P.kind = entryKey b.entry b.fchid P.kind := hsame
    cases hkind : P.kind with
    | ingress =>
      rw [hkind] at hkey hqa hqb
      obtain ⟨l, f, k, hfound⟩ := not_not.mp hqa
      obtain ⟨l', f', k', hfound'⟩ := not_not.mp hqb
      have hentry := entryKey_inj ((hagree _ _ _ _).mpr hfound).1 ((hagree _ _ _ _).mpr hfound').1 hkey
      rw [keyParams, keyParams, hentry]
    | egress =>
      rw [hkind] at hkey
      rw [keyParams, keyParams, entryKey_egress_inj hkey]
  have hR : (readRaceRequest P s a).For P s := by
    apply readRaceRequest_for
    intro i
    cases i with
    | false => exact ⟨a, ha, hquiet false, rfl, rfl⟩
    | true => exact ⟨b, hb, hquiet true, hparams, hsame.symm⟩
  obtain ⟨g, hrace⟩ := SameRace.always hR ht
  refine hrace.sound hR (fun u htable hsoft => ?_) hfin
  have hbefore := hagree P.lane P.kind
  unfold ChainTables.Agrees ChainTables.HwEntry at hbefore ⊢
  rw [show u.tables.entries P.lane P.kind = s.tables.entries P.lane P.kind from htable,
    show u.tables.soft = s.tables.soft from hsoft]
  exact hbefore

/-- **Two ioctls at once.** On a driver and a module that agree, all interleavings of two ioctls on
the same lane and direction are sound, exactly if one of them returns an error without an access to
the module, or the two ask the module for the same, and no update moves an ingress connection. -/
theorem interleavings_sound_iff (P : ChainPair) (s : ChainDev)
    (hagree : ∀ lane kind, s.tables.Agrees (fun _ => True) lane kind) :
    (∀ sched t, run (Shared.step (chainExec true)) (P.start s) sched = some t → t.Finished →
      P.Sound s t) ↔ P.Compatible s.tables := by
  constructor
  · intro h
    have hpair : (∃ i, (P.op i).Quiet P.kind s.tables) ∨
        (P.op false).SameRequest P.kind (P.op true) := by
      by_cases hquiet : ∃ i, (P.op i).Quiet P.kind s.tables
      · exact .inl hquiet
      · exact .inr (sameRequest_of_sound (hagree _ _) (not_exists.mp hquiet) h)
    exact ⟨hpair, fun i id hi hid => fresh_of_sound (hagree _ _) hpair h hi hid⟩
  · intro ⟨hpair, hfresh⟩ sched t ht hfin
    by_cases hquiet : ∃ i, (P.op i).Quiet P.kind s.tables
    · obtain ⟨q, hq⟩ := hquiet
      have hrace : QuietRace P s q t := by
        apply run_invariant (fun _ _ _ h hstep => QuietRace.step hq h hstep) _ ht
        exact .waits rfl rfl (P.op !q).storesLast (.inr rfl)
      exact hrace.sound (hagree _ _) hfresh hq hfin
    · have hsame := hpair.resolve_left hquiet
      cases ha : P.op false with
      | update a =>
        obtain ⟨b, hb, -⟩ := ChainPair.update_of_sameRequest hsame ha
        have hvalid : a.entry.Valid := by
          have hqa := not_exists.mp hquiet false
          rw [ha] at hqa
          exact not_not.mp hqa
        exact sound_of_updates (hagree _ _) ha hb hsame hvalid (hfresh false a ha hvalid) ht hfin
      | delete a =>
        rw [ha] at hsame
        exact hsame.elim
      | read a =>
        cases hb : P.op true with
        | update b =>
          rw [ha, hb] at hsame
          exact hsame.elim
        | delete b =>
          rw [ha, hb] at hsame
          exact hsame.elim
        | read b => exact sound_of_reads hagree (not_exists.mp hquiet) ha hb hsame ht hfin

/-- Function chain `fchid` of lane 0 gets data from connection `cid` of interface 0. -/
def connection (fchid : Fchid) (cid : BitVec 16) : FpgaId := ⟨0, 0, cid, fchid, 1, 1, 0, 0, 0⟩

/-- Two updates for ingress of lane 0. -/
def twoUpdates (a b : FpgaId) (ha : a.lane = 0) (hb : b.lane = 0) : ChainPair where
  lane := 0
  kind := .ingress
  op i := .update (if i then b else a)
  lane_op i := by cases i <;> assumption

theorem agrees_reset (lane : Lane) (kind : CidKind) :
    ChainDev.reset.tables.Agrees (fun _ => True) lane kind := by
  intro f e
  refine iff_of_false ?_ ?_
  · rintro ⟨-, w, hw, -⟩
    cases hw
  · intro h
    cases h

/-- The same update twice. -/
theorem interleavings_sound_twice :
    (twoUpdates (connection 3 5) (connection 3 5) rfl rfl).Compatible ChainDev.reset.tables ∧
      ∀ sched t, run (Shared.step (chainExec true))
          ((twoUpdates (connection 3 5) (connection 3 5) rfl rfl).start .reset) sched = some t →
        t.Finished → (twoUpdates (connection 3 5) (connection 3 5) rfl rfl).Sound .reset t := by
  have hcompatible :
      (twoUpdates (connection 3 5) (connection 3 5) rfl rfl).Compatible ChainDev.reset.tables := by
    refine ⟨.inr ⟨rfl, rfl, rfl⟩, fun i id hi hid => ⟨fun e he => ?_, fun f hf => ?_⟩⟩
    · cases he
    · cases hf
  exact ⟨hcompatible, (interleavings_sound_iff _ .reset agrees_reset).mpr hcompatible⟩

/-- Function chain 3 is connected to connection 5 while function chain 4 is connected to
connection 6: both succeed, and the first is not in the module. -/
theorem not_sound_twoUpdates :
    ¬ ∀ sched t, run (Shared.step (chainExec true))
        ((twoUpdates (connection 3 5) (connection 4 6) rfl rfl).start .reset) sched = some t →
      t.Finished → (twoUpdates (connection 3 5) (connection 4 6) rfl rfl).Sound .reset t := by
  intro h
  have hsound := h [false, false, false, true, true, true, false, false, false, true, true, true] _ rfl
    fun i => by cases i <;> exact ⟨_, rfl⟩
  obtain ⟨new, hnew, x, hx, hown⟩ := hsound.own false _ rfl
  obtain rfl : [⟨1, 6, 0x30004⟩] = new := hnew.trans (List.append_nil new)
  rw [List.mem_singleton.mp hx] at hown
  have hother : (⟨1, 6, 0x30004⟩ : Executed) =
      ⟨1, entryKey ⟨0, 5⟩ 3 .ingress, (connection 3 5).ingressChannel⟩ := hown
  revert hother
  decide

end HardwareDrivers.Driver
