import HardwareDrivers.Libfpga.Chain
import HardwareDrivers.Theory.Transition

/-!
# Function chains over a run

Connections and disconnections come in any order. The driver remembers one connection
for a function chain and takes what it remembers out of the module at a disconnection.

## What is proved

* `mirrors_iff` — along a run, the table of the driver says what the tables of the module hold
  exactly as long as no ingress connection moves.
-/

namespace HardwareDrivers.Libfpga

open Theory Driver

/-! ### The runs -/

/-- A call. -/
inductive ChainCall where
  /-- `fpga_chain_connect_ingress`. -/
  | connectIngress (lane fchid ingressExtifId ingressCid : BitVec 32) (activeFlag directFlag : BitVec 8)
      (env : ChainEnv)
  /-- `fpga_chain_connect_egress`. -/
  | connectEgress (lane fchid egressExtifId egressCid : BitVec 32)
      (activeFlag virtualFlag blockingFlag : BitVec 8) (env : ChainEnv)
  /-- `fpga_chain_disconnect_ingress`. -/
  | disconnectIngress (lane fchid : BitVec 32) (env : ChainEnv)
  /-- `fpga_chain_disconnect_egress`. -/
  | disconnectEgress (lane fchid : BitVec 32) (env : ChainEnv)

/-- What a call does. -/
def ChainCall.exec (dev : Option FpgaDevice) (s : ChainDev) :
    ChainCall → Except LibfpgaErr Unit × ChainDev
  | .connectIngress lane fchid extifId cid activeFlag directFlag env =>
    fpgaChainConnectIngress dev lane fchid extifId cid activeFlag directFlag env s
  | .connectEgress lane fchid extifId cid activeFlag virtualFlag blockingFlag env =>
    fpgaChainConnectEgress dev lane fchid extifId cid activeFlag virtualFlag blockingFlag env s
  | .disconnectIngress lane fchid env => fpgaChainDisconnectIngress dev lane fchid env s
  | .disconnectEgress lane fchid env => fpgaChainDisconnectEgress dev lane fchid env s

/-- A step of a run. -/
def chainStep (dev : Option FpgaDevice) (s : ChainDev) (call : ChainCall) : Option ChainDev :=
  some (call.exec dev s).2

/-- No entries. -/
def emptyTables : ChainTables := ⟨fun _ _ _ => none, fun _ _ _ => none⟩

/-- In each lane and both directions, the enabled entries of the module are those that the driver
remembers. -/
def Mirrors (s : ChainDev) : Prop := ∀ lane kind, s.tables.Agrees Enabled lane kind

/-- An ingress connection that gets through to the module moves neither the function chain nor the
connection. -/
def MovesNothing (dev : Option FpgaDevice) (s : ChainDev) : ChainCall → Prop
  | .connectIngress lane fchid extifId cid activeFlag directFlag env =>
    ∀ id, ConnectGranted dev ⟨lane, fchid, extifId, cid, activeFlag, directFlag, 0, 0⟩ env id →
      s.tables.Fresh id.lane id.fchid id.entry .ingress
  | _ => True

variable {dev : Option FpgaDevice} {s t : ChainDev}

theorem mirrors_of_empty (h : s.tables = emptyTables) : Mirrors s := by
  intro lane kind f e
  rw [h]
  refine iff_of_false ?_ ?_
  · rintro ⟨-, w, hw, -⟩
    cases hw
  · intro hs
    cases hs

theorem mirrors_congr (h : t.tables = s.tables) : Mirrors t ↔ Mirrors s := by
  unfold Mirrors
  rw [h]

/-- A connection that gets through. -/
theorem mirrors_connect (hs : Mirrors s) {args : ConnectArgs} {dir : CidKind} {env : ChainEnv} :
    Mirrors (chainConnect dev args dir env s).2 ↔
      ∀ id, ConnectGranted dev args env id → s.tables.Fresh id.lane id.fchid id.entry dir := by
  obtain ⟨id, hid, -, htables⟩ | ⟨hno, -, htables⟩ := chainConnect_cases dev args dir env s
  · have hvalid := connectId_entry hid.1
    have hcounts : Enabled (id.word dir) := by
      apply enabled_word hvalid
      rw [connectId_enableFlag hid.1]
      rfl
    have hset := (hs id.lane dir).set_some_iff hvalid hcounts
    rw [← htables] at hset
    constructor
    · intro h id' hid'
      obtain rfl : id' = id := Option.some.inj (hid'.1.symm.trans hid.1)
      exact hset.mp (h _ dir)
    · intro h lane kind
      by_cases hl : lane = id.lane ∧ kind = dir
      · obtain ⟨rfl, rfl⟩ := hl
        exact hset.mpr (h id hid)
      · rw [htables, agrees_set_of_ne hl]
        exact hs lane kind
  · refine iff_of_true ((mirrors_congr htables).mpr hs) fun id hid => absurd hid (hno id)

/-- A disconnection. -/
theorem Mirrors.disconnect (hs : Mirrors s) {lane fchid : BitVec 32} {dir : CidKind} {env : ChainEnv} :
    Mirrors (chainDisconnect dev lane fchid dir env s).2 := by
  obtain ⟨id, entry, -, hentry, htables⟩ | ⟨-, htables⟩ :=
    chainDisconnect_cases dev lane fchid dir env s
  · intro lane' kind
    rw [htables]
    by_cases hl : lane' = id.lane ∧ kind = dir
    · obtain ⟨rfl, rfl⟩ := hl
      exact (hs _ _).set_none hentry
    · rw [agrees_set_of_ne hl]
      exact hs lane' kind
  · exact (mirrors_congr htables).mpr hs

theorem mirrors_step (hs : Mirrors s) {call : ChainCall} (ht : chainStep dev s call = some t) :
    Mirrors t ↔ MovesNothing dev s call := by
  cases ht
  cases call with
  | connectIngress lane fchid extifId cid activeFlag directFlag env => exact mirrors_connect hs
  | connectEgress lane fchid extifId cid activeFlag virtualFlag blockingFlag env =>
    exact iff_of_true ((mirrors_connect hs).mpr fun _ _ => trivial) trivial
  | disconnectIngress lane fchid env => exact iff_of_true hs.disconnect trivial
  | disconnectEgress lane fchid env => exact iff_of_true hs.disconnect trivial

/-- **The table of the driver.** From empty tables, after every call of a run the enabled entries of
the module are those that the driver remembers, exactly if no call of the run moves an ingress
connection. -/
theorem mirrors_iff (dev : Option FpgaDevice) (calls : List ChainCall) (s : ChainDev)
    (hs : s.tables = emptyTables) :
    Always (chainStep dev) Mirrors s calls ↔ Along (chainStep dev) (MovesNothing dev) s calls := by
  apply always_iff_along (I := Mirrors) _ (fun _ h => h) _ (mirrors_of_empty hs)
  · intro s call t h hmoves ht
    exact (mirrors_step h ht).mpr hmoves
  · intro s call t h ht hmirrors
    exact (mirrors_step h ht).mp hmirrors

/-- Connect, and disconnect again. -/
theorem mirrors_connect_disconnect :
    Always (chainStep (some twoLanes)) Mirrors .reset
      [.connectIngress 0 0 0 5 1 0 .fine, .disconnectIngress 0 0 .fine] := by
  apply (mirrors_iff _ _ _ rfl).mpr
  intro t ht
  refine ⟨fun id _ => ⟨fun e he => ?_, fun f hf => ?_⟩, fun u hu => ⟨trivial, trivial⟩⟩
  · cases he
  · cases hf

/-- Function chain 0 is connected to connection 5 and then to connection 6: the entry of connection
5 stays in the module, and the driver does not know of it any more. -/
theorem not_mirrors_reconnect :
    ¬ Always (chainStep (some twoLanes)) Mirrors .reset
      [.connectIngress 0 0 0 5 1 0 .fine, .connectIngress 0 0 0 6 1 0 .fine] := by
  intro h
  have hmirrors := h.last rfl 0 .ingress 0 ⟨0, 5⟩
  have hsoft := hmirrors.mp ⟨by decide, 0x30000, by decide, by decide,
    (by decide : wordFchid 0x30000 = 0)⟩
  revert hsoft
  decide

end HardwareDrivers.Libfpga
