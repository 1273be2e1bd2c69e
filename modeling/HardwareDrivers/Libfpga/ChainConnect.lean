import HardwareDrivers.Libfpga.Chain

/-!
# Both directions or none

`fpga_chain_connect` sets a function chain for ingress, then for egress; if the second
fails it disconnects the first again. The disconnection does not bring back what was
there before the call, and may itself fail.

## What is proved

* `fpgaChainConnect_allOrNothing_iff` — exactly which calls set both directions or change nothing.
-/

namespace HardwareDrivers.Libfpga

open Driver

/-! ### The call -/

/-- The arguments of the half for ingress. -/
def ChainConnectArgs.ingress (args : ChainConnectArgs) : ConnectArgs :=
  ⟨args.lane, args.fchid, args.ingressExtifId, args.ingressCid, args.ingressActiveFlag,
    args.directFlag, 0, 0⟩

/-- The arguments of the half for egress. -/
def ChainConnectArgs.egress (args : ChainConnectArgs) : ConnectArgs :=
  ⟨args.lane, args.fchid, args.egressExtifId, args.egressCid, args.egressActiveFlag, 0,
    args.egressVirtualFlag, args.egressBlockingFlag⟩

/-- The connection is set, in the module and in the driver. -/
def Established (t : ChainTables) (id : FpgaId) (dir : CidKind) : Prop :=
  t.entries id.lane dir (entryKey id.entry id.fchid dir) = some (id.word dir) ∧
    t.soft id.lane id.fchid dir = some id.entry

/-- The call sets both directions and returns 0, or fails and leaves all tables as they were. -/
def AllOrNothing (dev : Option FpgaDevice) (args : ChainConnectArgs) (env : ChainConnectEnv)
    (s : ChainDev) : Prop :=
  match fpgaChainConnect dev args env s with
  | (.error _, t) => t.tables = s.tables
  | (.ok _, t) =>
    ∃ idIn idOut, connectId dev args.ingress = some idIn ∧ connectId dev args.egress = some idOut ∧
      Established t.tables idIn .ingress ∧ Established t.tables idOut .egress

/-- If the call comes to the point where ingress is set and egress is not, then either its
disconnection goes through and there was nothing where ingress was set, or it does not and there
was already the very same entry. -/
def RollsBack (dev : Option FpgaDevice) (args : ChainConnectArgs) (env : ChainConnectEnv)
    (t : ChainTables) : Prop :=
  ∀ id, ConnectGranted dev args.ingress env.ingress id →
    (∀ id', ¬ ConnectGranted dev args.egress env.egress id') → args.egressCid.toNat ≤ 511 →
      if env.disconnect.copyFromUser = true ∧ env.disconnect.answers = true then
        t.entries id.lane .ingress (entryKey id.entry id.fchid .ingress) = none ∧
          t.soft id.lane id.fchid .ingress = none
      else Established t id .ingress

variable {dev : Option FpgaDevice} {args : ChainConnectArgs} {env : ChainConnectEnv} {s : ChainDev}

/-- What was connected can be disconnected. -/
theorem disconnectId_of_connectId {args : ConnectArgs} {id : FpgaId}
    (h : connectId dev args = some id) :
    ∃ id', disconnectId dev args.lane args.fchid = some id' ∧ id'.lane = id.lane ∧
      id'.fchid = id.fchid := by
  obtain ⟨hvalid, lane, hlane, rfl⟩ := connectId_eq_some h
  refine ⟨⟨lane, 0, 0, args.fchid.setWidth 9, 0, 0, 0, 0, 0⟩, ?_, rfl, rfl⟩
  rw [disconnectId, if_pos hvalid.2.2.1, hlane]
  rfl

/-- A call with bad arguments for ingress, or for egress at the start, changes nothing. -/
theorem fpgaChainConnect_early
    (h : (∀ id, ¬ ConnectGranted dev args.ingress env.ingress id) ∨ 511 < args.egressCid.toNat) :
    ∃ e t, fpgaChainConnect dev args env s = (.error e, t) ∧ t.tables = s.tables := by
  unfold fpgaChainConnect
  split_ifs with hdev hin hout
  · exact ⟨_, _, rfl, rfl⟩
  · exact ⟨_, _, rfl, rfl⟩
  · exact ⟨_, _, rfl, rfl⟩
  · obtain ⟨⟨e, he⟩, htables⟩ := chainConnect_refused .ingress s (h.resolve_right hout)
    unfold fpgaChainConnectIngress
    rw [ChainConnectArgs.ingress] at he htables
    generalize chainConnect dev _ .ingress env.ingress s = out at he htables ⊢
    obtain ⟨r, t⟩ := out
    cases he
    exact ⟨e, t, rfl, htables⟩

/-- A call that sets ingress goes on with egress. -/
theorem fpgaChainConnect_granted {id : FpgaId}
    (hin : ConnectGranted dev args.ingress env.ingress id) (hout : args.egressCid.toNat ≤ 511) :
    ∃ t, t.tables = s.tables.set id.lane .ingress (entryKey id.entry id.fchid .ingress)
        (some (id.word .ingress)) id.fchid (some id.entry) ∧
      fpgaChainConnect dev args env s =
        match chainConnect dev args.egress .egress env.egress t with
        | (.error e, t) =>
          (.error e, (chainDisconnect dev args.lane args.fchid .ingress env.disconnect t).2)
        | (.ok _, t) => (.ok (), t) := by
  obtain ⟨hok, htables⟩ := chainConnect_granted .ingress s hin
  obtain ⟨hvalid, lane, hlane, -⟩ := connectId_eq_some hin.1
  have hdev : ¬ dev.isNone = true := by
    rintro hnone
    rw [Option.isNone_iff_eq_none.mp hnone] at hlane
    cases hlane
  have hcid : ¬ 511 < args.ingressCid.toNat := not_lt.mpr hvalid.2.1
  refine ⟨_, htables, ?_⟩
  unfold fpgaChainConnect fpgaChainConnectIngress
  rw [if_neg hdev, if_neg hcid, if_neg (not_lt.mpr hout)]
  rw [ChainConnectArgs.ingress] at hok ⊢
  generalize chainConnect dev _ .ingress env.ingress s = out at hok ⊢
  obtain ⟨r, t⟩ := out
  cases hok
  rfl

/-- The disconnection of what was set. -/
theorem chainDisconnect_established {id : FpgaId} {t : ChainDev} (env : ChainEnv)
    (hid : connectId dev args.ingress = some id) (ht : t.tables = s.tables.set id.lane .ingress
      (entryKey id.entry id.fchid .ingress) (some (id.word .ingress)) id.fchid (some id.entry)) :
    (chainDisconnect dev args.lane args.fchid .ingress env t).2.tables =
      if env.copyFromUser = true ∧ env.answers = true then
        s.tables.set id.lane .ingress (entryKey id.entry id.fchid .ingress) none id.fchid none
      else t.tables := by
  obtain ⟨id', hid', hlane, hfchid⟩ := disconnectId_of_connectId hid
  split_ifs with henv
  · have hsoft : t.tables.soft id'.lane id'.fchid .ingress = some id.entry := by
      rw [ht, hlane, hfchid]
      exact soft_set
    refine (chainDisconnect_granted ⟨hid', henv.1, henv.2⟩ hsoft).trans ?_
    rw [ht, hlane, hfchid, set_set]
  · exact (chainDisconnect_refused fun id hid => absurd hid.2 henv).2

/-- **`fpga_chain_connect`** sets both directions or changes nothing exactly if it rolls back. -/
theorem fpgaChainConnect_allOrNothing_iff (dev : Option FpgaDevice) (args : ChainConnectArgs)
    (env : ChainConnectEnv) (s : ChainDev) :
    AllOrNothing dev args env s ↔ RollsBack dev args env s.tables := by
  unfold AllOrNothing RollsBack
  by_cases hearly : (∃ id, ConnectGranted dev args.ingress env.ingress id) ∧
      args.egressCid.toNat ≤ 511
  · obtain ⟨⟨id, hin⟩, hcid⟩ := hearly
    have hunique : ∀ id', ConnectGranted dev args.ingress env.ingress id' → id' = id :=
      fun id' h => Option.some.inj (h.1.symm.trans hin.1)
    obtain ⟨t, ht, hcall⟩ := fpgaChainConnect_granted (s := s) hin hcid
    rw [hcall]
    obtain ⟨idOut, hout, hok, htables⟩ | ⟨hout, ⟨e, herr⟩, htables⟩ :=
      chainConnect_cases dev args.egress .egress env.egress t
    · -- both are set
      generalize chainConnect dev args.egress .egress env.egress t = out at hok htables ⊢
      obtain ⟨r, u⟩ := out
      cases hok
      refine iff_of_true ⟨id, idOut, hin.1, hout.1, ?_, ?_⟩ fun _ _ hno => absurd hout (hno idOut)
      · rw [htables, ht]
        refine ⟨?_, ?_⟩
        · rw [entries_set_of_ne (by simp), entries_set, Function.update_self]
        · rw [soft_set_of_ne (by simp), soft_set]
      · rw [htables]
        exact ⟨by rw [entries_set, Function.update_self], soft_set⟩
    · -- egress is not set
      generalize chainConnect dev args.egress .egress env.egress t = out at herr htables ⊢
      obtain ⟨r, u⟩ := out
      cases herr
      have hdis := chainDisconnect_established env.disconnect hin.1 (htables.trans ht)
      change (chainDisconnect dev args.lane args.fchid .ingress env.disconnect u).2.tables = _ ↔ _
      rw [hdis]
      constructor
      · intro h id' hid' _ _
        obtain rfl := hunique id' hid'
        split_ifs at h ⊢ with henv
        · exact set_eq_self_iff.mp h
        · exact set_eq_self_iff.mp (ht.symm.trans (htables.symm.trans h))
      · intro h
        have h := h id hin hout hcid
        split_ifs at h ⊢ with henv
        · exact set_eq_self_iff.mpr h
        · exact htables.trans (ht.trans (set_eq_self_iff.mpr h))
  · refine iff_of_true ?_ fun id hid _ hcid => absurd ⟨⟨id, hid⟩, hcid⟩ hearly
    have h : (∀ id, ¬ ConnectGranted dev args.ingress env.ingress id) ∨ 511 < args.egressCid.toNat := by
      rw [not_and_or, not_exists, not_le] at hearly
      exact hearly
    obtain ⟨e, t, hcall, htables⟩ := fpgaChainConnect_early (s := s) h
    rw [hcall]
    exact htables

/-- Function chain 0 of lane 0 gets data from connection 5. -/
def connectedOnce : ChainDev :=
  (fpgaChainConnectIngress (some twoLanes) 0 0 0 5 1 0 .fine .reset).2

/-- It is to get data from connection 6, and to give data to an interface that does not exist. -/
def badEgress : ChainConnectArgs := ⟨0, 0, 0, 6, 2, 7, 1, 1, 0, 0, 0⟩

/-- The call fails, and the function chain is not connected any more. -/
theorem not_allOrNothing_badEgress :
    ¬ AllOrNothing (some twoLanes) badEgress ⟨.fine, .fine, .fine⟩ connectedOnce := by
  intro h
  have hsoft := congrArg (fun t => t.soft 0 0 .ingress) (show
    (fpgaChainConnect (some twoLanes) badEgress ⟨.fine, .fine, .fine⟩ connectedOnce).2.tables =
      connectedOnce.tables from h)
  revert hsoft
  decide

end HardwareDrivers.Libfpga
