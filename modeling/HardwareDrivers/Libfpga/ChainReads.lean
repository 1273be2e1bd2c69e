import HardwareDrivers.Libfpga.ChainRuns

/-!
# Reading the tables of the module

`fpga_chain_read_table_ingress` and `fpga_chain_read_table_egress` unpack the word that
the module keeps. Before it asks the module for ingress, the driver searches the whole of
its own table, every lane and both directions, for the connection.

## What is proved

* `readTable_connectIngress`, `readTable_connectEgress` — what was connected is read.
* `reports_iff_registered` — the read for ingress says that there is a chain if the connection is
  registered anywhere.
* `readTable_iff` — along which runs it says so exactly if the lane has the chain.
-/

namespace HardwareDrivers.Libfpga

open Theory Driver

/-! ### What is read -/

/-- What a word of ingress says. -/
def ingressInfo (word : BitVec 32) : IngressInfo :=
  ⟨readFlag word 0x10000 16, readFlag word 0x20000 17, readFlag word 0x40000 18,
    (wordFchid word).setWidth 32⟩

theorem ingressInfo_ingressChannel {id : FpgaId} (henable : id.enableFlag ≤ 1)
    (hactive : id.activeFlag ≤ 1) (hdirect : id.directFlag ≤ 1) :
    ingressInfo id.ingressChannel =
      ⟨id.enableFlag, id.activeFlag, id.directFlag, id.fchid.setWidth 32⟩ := by
  have hread := readIngress_ingressChannel id id hactive henable hdirect
  have hinfo := congrArg (fun r : FpgaId =>
    IngressInfo.mk r.enableFlag r.activeFlag r.directFlag (r.fchid.setWidth 32)) hread
  exact hinfo

/-- The connection is registered with the driver, in some lane, for ingress or for egress. -/
def Registered (t : ChainTables) (entry : ExtifidCid) : Prop :=
  ∃ lane fchid kind, t.soft lane fchid kind = some entry

/-- The lane has a chain for ingress with the connection. -/
def HasIngress (t : ChainTables) (lane : Lane) (entry : ExtifidCid) : Prop :=
  ∃ fchid, t.HwEntry Enabled lane .ingress fchid entry

/-- The read for ingress says that there is a chain. -/
def Reports (dev : Option FpgaDevice) (lane extifId cid : BitVec 32) (stack : FpgaId) (s : ChainDev) :
    Prop :=
  ∃ info, (fpgaChainReadTableIngress dev lane extifId cid true stack .fine s).1 = .ok info

variable {dev : Option FpgaDevice} {s : ChainDev} {lane : Lane}

theorem readTableIngress_cases {lane' extifId cid : BitVec 32}
    (hlane : dev.bind (·.lane lane') = some lane) (hcid : cid.toNat ≤ 511) (hextif : extifId.toNat ≤ 1)
    (stack : FpgaId) (s : ChainDev) :
    (¬ Registered s.tables ⟨extifId, cid.setWidth 16⟩ ∧
      (fpgaChainReadTableIngress dev lane' extifId cid true stack .fine s).1 =
        .error .funcChainIdMismatch) ∨
      Registered s.tables ⟨extifId, cid.setWidth 16⟩ ∧
        (fpgaChainReadTableIngress dev lane' extifId cid true stack .fine s).1 =
          .ok (ingressInfo ((s.tables.entries lane .ingress
            (entryKey ⟨extifId, cid.setWidth 16⟩ stack.fchid .ingress)).getD 0)) := by
  unfold fpgaChainReadTableIngress ioctlReadTable ChainEnv.fine
  rw [hlane]
  simp only [not_lt.mpr hcid, not_lt.mpr hextif, or_self, if_false, reduceCtorEq]
  obtain ⟨hno, heval⟩ | ⟨hfound, t, -, heval⟩ := read_cases_tables true
    { stack with lane := lane, extifId := extifId, cid := cid.setWidth 16 } .ingress s
  · rw [heval]
    exact .inl ⟨hno, rfl⟩
  · rw [heval]
    exact .inr ⟨hfound, rfl⟩

/-- **The search.** The read for ingress says that there is a chain exactly if the connection is
registered, wherever that is. -/
theorem reports_iff_registered {lane' extifId cid : BitVec 32}
    (hlane : dev.bind (·.lane lane') = some lane) (hcid : cid.toNat ≤ 511) (hextif : extifId.toNat ≤ 1)
    (stack : FpgaId) :
    Reports dev lane' extifId cid stack s ↔ Registered s.tables ⟨extifId, cid.setWidth 16⟩ := by
  unfold Reports
  obtain ⟨hno, hread⟩ | ⟨hyes, hread⟩ := readTableIngress_cases hlane hcid hextif stack s
  · rw [hread]
    exact iff_of_false (fun ⟨_, h⟩ => by cases h) hno
  · rw [hread]
    exact iff_of_true ⟨_, rfl⟩ hyes

/-! ### What was connected -/

theorem toNat_setWidth_of_le {n m : ℕ} {x : BitVec n} (hx : x.toNat ≤ 511) (hm : 9 ≤ m) :
    (x.setWidth m).toNat = x.toNat := by
  rw [BitVec.toNat_setWidth]
  exact Nat.mod_eq_of_lt (lt_of_le_of_lt hx
    (lt_of_lt_of_le (by decide : 511 < 2 ^ 9) (Nat.pow_le_pow_right (by decide) hm)))

theorem setWidth_setWidth_of_le {m : ℕ} {x : BitVec 32} (hx : x.toNat ≤ 511) (hm : 9 ≤ m) :
    (x.setWidth m).setWidth 32 = x := by
  apply BitVec.eq_of_toNat_eq
  have hm' : (x.setWidth m).toNat = x.toNat := toNat_setWidth_of_le hx hm
  rw [toNat_setWidth_of_le (by rw [hm']; exact hx) (by decide), hm']

/-- After the update of an ingress entry, its word is read. -/
theorem readTableIngress_of_set {t : ChainDev} {id : FpgaId} {lane extifId cid : BitVec 32}
    (hlane : dev.bind (·.lane lane) = some id.lane) (hcid : cid.toNat ≤ 511)
    (hextif : extifId.toNat ≤ 1) (hentry : id.entry = ⟨extifId, cid.setWidth 16⟩)
    (ht : t.tables = s.tables.set id.lane .ingress (entryKey id.entry id.fchid .ingress)
      (some (id.word .ingress)) id.fchid (some id.entry)) (stack : FpgaId) :
    (fpgaChainReadTableIngress dev lane extifId cid true stack .fine t).1 =
      .ok (ingressInfo id.ingressChannel) := by
  obtain ⟨hno, -⟩ | ⟨-, hread⟩ := readTableIngress_cases hlane hcid hextif stack t
  · refine absurd ⟨id.lane, id.fchid, .ingress, ?_⟩ hno
    rw [ht, ← hentry]
    exact soft_set
  · have hword : t.tables.entries id.lane .ingress (entryKey id.entry stack.fchid .ingress) =
        some id.ingressChannel := by
      rw [ht, entries_set]
      exact Function.update_self ..
    rw [hread, ← hentry, hword]
    rfl

/-- What is connected for ingress is read. -/
theorem readTable_connectIngress {lane fchid extifId cid : BitVec 32} {activeFlag directFlag : BitVec 8}
    {env : ChainEnv} (stack : FpgaId) (h : (fpgaChainConnectIngress dev lane fchid extifId cid activeFlag
      directFlag env s).1 = .ok ()) :
    (fpgaChainReadTableIngress dev lane extifId cid true stack .fine
      (fpgaChainConnectIngress dev lane fchid extifId cid activeFlag directFlag env s).2).1 =
        .ok ⟨1, activeFlag, directFlag, fchid⟩ := by
  unfold fpgaChainConnectIngress at h ⊢
  obtain ⟨id, hid, -, htables⟩ | ⟨-, ⟨e, herr⟩, -⟩ := chainConnect_cases dev
    ⟨lane, fchid, extifId, cid, activeFlag, directFlag, 0, 0⟩ .ingress env s
  · obtain ⟨⟨hextif, hcid, hfchid, hactive, hdirect, -⟩, l, hlane, rfl⟩ := connectId_eq_some hid.1
    have hextif' : extifId.toNat ≤ 1 := by
      obtain rfl | rfl := hextif <;> decide
    have henable : (1 : BitVec 8) ≤ 1 := by decide
    rw [readTableIngress_of_set hlane hcid hextif' rfl htables stack, ingressInfo_ingressChannel]
    · exact congrArg (fun f => Except.ok (IngressInfo.mk 1 activeFlag directFlag f))
        (setWidth_setWidth_of_le hfchid le_rfl)
    · exact henable
    · exact hactive
    · exact hdirect
  · rw [herr] at h
    cases h

/-- What a word of egress says. -/
def egressInfo (word : BitVec 32) : EgressInfo :=
  ⟨readFlag word 0x10000 16, readFlag word 0x20000 17, readFlag word 0x80000 19,
    readFlag word 0x100000 20, (wordEntry word).extifId &&& 0x0000FFFF,
    (wordEntry word).cid.setWidth 32⟩

theorem egressInfo_egressSession {id : FpgaId} (hid : id.entry.Valid) (henable : id.enableFlag ≤ 1)
    (hactive : id.activeFlag ≤ 1) (hvirtual : id.virtualFlag ≤ 1) (hblocking : id.blockingFlag ≤ 1) :
    egressInfo id.egressSession = ⟨id.enableFlag, id.activeFlag, id.virtualFlag, id.blockingFlag,
      id.extifId, id.cid.setWidth 32⟩ := by
  have hread := readEgress_egressSession id id hid henable hactive hvirtual hblocking
  have hinfo := congrArg (fun r : FpgaId =>
    EgressInfo.mk r.enableFlag r.activeFlag r.virtualFlag r.blockingFlag (r.extifId &&& 0x0000FFFF)
      (r.cid.setWidth 32)) hread
  have hextif : id.extifId &&& 0x0000FFFF = id.extifId := by
    obtain h | h := hid.2 <;> rw [show id.extifId = _ from h] <;> rfl
  rw [show egressInfo id.egressSession = _ from hinfo]
  exact congrArg (fun x => EgressInfo.mk _ _ _ _ x _) hextif

/-- After the update of an egress entry, its word is read. -/
theorem readTableEgress_of_set {t : ChainDev} {id : FpgaId} {lane fchid : BitVec 32}
    (hlane : dev.bind (·.lane lane) = some id.lane) (hfchid : fchid.toNat ≤ 511)
    (hid : id.fchid = fchid.setWidth 9)
    (ht : t.tables = s.tables.set id.lane .egress (entryKey id.entry id.fchid .egress)
      (some (id.word .egress)) id.fchid (some id.entry)) (stack : FpgaId) :
    (fpgaChainReadTableEgress dev lane fchid true stack .fine t).1 =
      .ok (egressInfo id.egressSession) := by
  have hsoft : t.tables.soft id.lane id.fchid .egress = some id.entry := by
    rw [ht]
    exact soft_set
  have hword : t.tables.entries id.lane .egress (entryKey id.entry id.fchid .egress) =
      some id.egressSession := by
    rw [ht, entries_set]
    exact Function.update_self ..
  unfold fpgaChainReadTableEgress ioctlReadTable ChainEnv.fine
  rw [hlane]
  simp only [not_lt.mpr hfchid, or_false, if_false, reduceCtorEq, ← hid]
  obtain ⟨hno, -⟩ | ⟨-, u, -, heval⟩ := read_cases_tables true
    { stack with lane := id.lane, fchid := id.fchid } .egress t
  · exact absurd (fun hnone => by cases hsoft.symm.trans hnone) hno
  · rw [heval]
    dsimp only [FpgaId.entry] at hword ⊢
    rw [show entryKey ⟨stack.extifId, stack.cid⟩ id.fchid .egress =
      entryKey ⟨id.extifId, id.cid⟩ id.fchid .egress from rfl, hword]
    rfl

/-- What is connected for egress is read. -/
theorem readTable_connectEgress {lane fchid extifId cid : BitVec 32}
    {activeFlag virtualFlag blockingFlag : BitVec 8} {env : ChainEnv} (stack : FpgaId)
    (h : (fpgaChainConnectEgress dev lane fchid extifId cid activeFlag virtualFlag blockingFlag env
      s).1 = .ok ()) :
    (fpgaChainReadTableEgress dev lane fchid true stack .fine (fpgaChainConnectEgress dev lane fchid
      extifId cid activeFlag virtualFlag blockingFlag env s).2).1 =
        .ok ⟨1, activeFlag, virtualFlag, blockingFlag, extifId, cid⟩ := by
  unfold fpgaChainConnectEgress at h ⊢
  obtain ⟨id, hid, -, htables⟩ | ⟨-, ⟨e, herr⟩, -⟩ := chainConnect_cases dev
    ⟨lane, fchid, extifId, cid, activeFlag, 0, virtualFlag, blockingFlag⟩ .egress env s
  · have hvalid := connectId_entry hid.1
    obtain ⟨⟨-, hcid, hfchid, hactive, -, hvirtual, hblocking⟩, l, hlane, rfl⟩ :=
      connectId_eq_some hid.1
    have henable : (1 : BitVec 8) ≤ 1 := by decide
    rw [readTableEgress_of_set hlane hfchid rfl htables stack, egressInfo_egressSession hvalid]
    · exact congrArg (fun c => Except.ok (EgressInfo.mk 1 activeFlag virtualFlag blockingFlag extifId c))
        (setWidth_setWidth_of_le hcid (by decide))
    · exact henable
    · exact hactive
    · exact hvirtual
    · exact hblocking
  · rw [herr] at h
    cases h

/-! ### When the read says that there is a chain -/

/-- The connection is registered in another place. -/
def Elsewhere (t : ChainTables) (lane : Lane) (fchid : Fchid) (kind : CidKind) (entry : ExtifidCid) :
    Prop :=
  ∃ l f k, ¬ (l = lane ∧ f = fchid ∧ k = kind) ∧ t.soft l f k = some entry

/-- `id` can be connected without harm to the read of `entry` in `lane`: if it is for that
connection, the lane has or gets a chain for ingress with it; if it takes the place of that
connection, the connection is registered in another place. -/
def ConnectKeeps (t : ChainTables) (lane : Lane) (entry : ExtifidCid) (id : FpgaId) (kind : CidKind) :
    Prop :=
  (id.entry = entry → (id.lane = lane ∧ kind = .ingress) ∨ HasIngress t lane entry) ∧
    (id.entry ≠ entry → t.soft id.lane id.fchid kind = some entry →
      Elsewhere t id.lane id.fchid kind entry)

/-- `id` can be disconnected without harm to the read of `entry` in `lane`: if it has that
connection, this is the ingress chain of the lane exactly if it is the only place. -/
def DisconnectKeeps (t : ChainTables) (lane : Lane) (entry : ExtifidCid) (id : FpgaId)
    (kind : CidKind) : Prop :=
  t.soft id.lane id.fchid kind = some entry →
    ((id.lane = lane ∧ kind = .ingress) ↔ ¬ Elsewhere t id.lane id.fchid kind entry)

/-- The call, if it gets through to the module, does no harm to the read of `entry` in `lane`. -/
def KeepsReport (dev : Option FpgaDevice) (lane : Lane) (entry : ExtifidCid) (s : ChainDev) :
    ChainCall → Prop
  | .connectIngress l fchid extifId cid activeFlag directFlag env =>
    ∀ id, ConnectGranted dev ⟨l, fchid, extifId, cid, activeFlag, directFlag, 0, 0⟩ env id →
      ConnectKeeps s.tables lane entry id .ingress
  | .connectEgress l fchid extifId cid activeFlag virtualFlag blockingFlag env =>
    ∀ id, ConnectGranted dev ⟨l, fchid, extifId, cid, activeFlag, 0, virtualFlag, blockingFlag⟩ env id →
      ConnectKeeps s.tables lane entry id .egress
  | .disconnectIngress l fchid env =>
    ∀ id, DisconnectGranted dev l fchid env id → DisconnectKeeps s.tables lane entry id .ingress
  | .disconnectEgress l fchid env =>
    ∀ id, DisconnectGranted dev l fchid env id → DisconnectKeeps s.tables lane entry id .egress

section Set

variable {t : ChainTables} {entry : ExtifidCid}

theorem registered_iff (lane : Lane) (fchid : Fchid) (kind : CidKind) :
    Registered t entry ↔ t.soft lane fchid kind = some entry ∨ Elsewhere t lane fchid kind entry := by
  constructor
  · rintro ⟨l, f, k, h⟩
    by_cases hplace : l = lane ∧ f = fchid ∧ k = kind
    · obtain ⟨rfl, rfl, rfl⟩ := hplace
      exact .inl h
    · exact .inr ⟨l, f, k, hplace, h⟩
  · rintro (h | ⟨l, f, k, -, h⟩)
    · exact ⟨_, _, _, h⟩
    · exact ⟨l, f, k, h⟩

theorem registered_set {key : BitVec 10} {word : Option (BitVec 32)} {fchid : Fchid} {kind : CidKind}
    {lane : Lane} {new : Option ExtifidCid} :
    Registered (t.set lane kind key word fchid new) entry ↔
      new = some entry ∨ Elsewhere t lane fchid kind entry := by
  rw [registered_iff lane fchid kind, soft_set]
  refine or_congr_right (exists_congr fun l => exists_congr fun f => exists_congr fun k => ?_)
  refine and_congr_right fun h => ?_
  rw [soft_set_of_ne h]

theorem hasIngress_set_of_ne {key : BitVec 10} {word : Option (BitVec 32)} {fchid : Fchid}
    {kind : CidKind} {lane lane' : Lane} {new : Option ExtifidCid}
    (h : ¬ (lane' = lane ∧ kind = .ingress)) :
    HasIngress (t.set lane kind key word fchid new) lane' entry ↔ HasIngress t lane' entry := by
  have hne : ¬ (lane' = lane ∧ CidKind.ingress = kind) := fun hl => h ⟨hl.1, hl.2.symm⟩
  unfold HasIngress ChainTables.HwEntry
  rw [entries_set_of_ne hne]

/-- The chains of the lane after a connection. -/
theorem hasIngress_set_some {id : FpgaId} {kind : CidKind} (hid : id.entry.Valid)
    (hcounts : Enabled (id.word kind)) (hentry : entry.Valid) :
    HasIngress (t.set id.lane kind (entryKey id.entry id.fchid kind) (some (id.word kind)) id.fchid
        (some id.entry)) lane entry ↔
      (id.entry = entry ∧ id.lane = lane ∧ kind = .ingress) ∨ HasIngress t lane entry := by
  by_cases hl : lane = id.lane ∧ kind = .ingress
  · obtain ⟨rfl, rfl⟩ := hl
    unfold HasIngress
    simp only [hwEntry_set_some hid hcounts, and_true]
    constructor
    · rintro ⟨f, ⟨-, rfl⟩ | ⟨-, h⟩⟩
      · exact .inl rfl
      · exact .inr ⟨f, h⟩
    · rintro (rfl | ⟨f, h⟩)
      · exact ⟨_, .inl ⟨rfl, rfl⟩⟩
      · by_cases he : entry = id.entry
        · exact ⟨_, .inl ⟨rfl, he⟩⟩
        · exact ⟨f, .inr ⟨fun hkey => he (entryKey_inj hentry hid hkey), h⟩⟩
  · rw [hasIngress_set_of_ne hl]
    refine (or_iff_right fun h => hl ⟨h.2.1.symm, h.2.2⟩).symm

/-- The chains of the lane after a disconnection. -/
theorem hasIngress_set_none {old : ExtifidCid} (hold : old.Valid) (hentry : entry.Valid)
    (fchid : Fchid) :
    HasIngress (t.set lane .ingress (entryKey old fchid .ingress) none fchid none) lane entry ↔
      old ≠ entry ∧ HasIngress t lane entry := by
  unfold HasIngress
  simp only [hwEntry_set_none]
  constructor
  · rintro ⟨f, hkey, h⟩
    exact ⟨fun he => hkey (by rw [he]; rfl), f, h⟩
  · rintro ⟨hne, f, h⟩
    exact ⟨f, fun hkey => hne (entryKey_inj hold hentry hkey.symm), h⟩

end Set

/-- What the read says is right, and the driver remembers real connections only. -/
structure ReadsRight (lane : Lane) (entry : ExtifidCid) (s : ChainDev) : Prop where
  /-- The connection is registered exactly if the lane has a chain with it. -/
  right : Registered s.tables entry ↔ HasIngress s.tables lane entry
  /-- The connections that are remembered. -/
  valid : ∀ l f k e, s.tables.soft l f k = some e → e.Valid

theorem soft_valid_set {t t' : ChainTables} {lane : Lane} {kind : CidKind} {key : BitVec 10}
    {word : Option (BitVec 32)} {fchid : Fchid} {new : Option ExtifidCid}
    (h : ∀ l f k e, t.soft l f k = some e → e.Valid) (hnew : ∀ e, new = some e → e.Valid)
    (ht : t' = t.set lane kind key word fchid new) :
    ∀ l f k e, t'.soft l f k = some e → e.Valid := by
  intro l f k e he
  rw [ht] at he
  by_cases hplace : l = lane ∧ f = fchid ∧ k = kind
  · obtain ⟨rfl, rfl, rfl⟩ := hplace
    rw [soft_set] at he
    exact hnew e he
  · rw [soft_set_of_ne hplace] at he
    exact h l f k e he

variable {entry : ExtifidCid}

/-- A connection keeps the read right exactly if it does it no harm. -/
theorem readsRight_connect (hs : ReadsRight lane entry s) (hentry : entry.Valid) {args : ConnectArgs}
    {dir : CidKind} {env : ChainEnv} :
    ReadsRight lane entry (chainConnect dev args dir env s).2 ↔
      ∀ id, ConnectGranted dev args env id → ConnectKeeps s.tables lane entry id dir := by
  obtain ⟨id, hid, -, htables⟩ | ⟨hno, -, htables⟩ := chainConnect_cases dev args dir env s
  · have hvalid := connectId_entry hid.1
    have hcounts : Enabled (id.word dir) := by
      apply enabled_word hvalid
      rw [connectId_enableFlag hid.1]
      rfl
    have hsoft := soft_valid_set hs.valid
      (fun e he => (Option.some.inj he ▸ hvalid : e.Valid)) htables
    have hkeeps : (Registered (chainConnect dev args dir env s).2.tables entry ↔
        HasIngress (chainConnect dev args dir env s).2.tables lane entry) ↔
        ConnectKeeps s.tables lane entry id dir := by
      rw [htables, registered_set, hasIngress_set_some hvalid hcounts hentry, Option.some.injEq,
        ← hs.right, registered_iff id.lane id.fchid dir]
      unfold ConnectKeeps
      rw [← hs.right, registered_iff id.lane id.fchid dir]
      by_cases he : id.entry = entry
      · simp only [he, true_or, true_iff, true_and, ne_eq, not_true_eq_false, false_imp_iff, and_true,
          true_imp_iff]
      · simp only [he, false_or, false_and, false_imp_iff, true_and, ne_eq, not_false_eq_true,
          true_imp_iff]
        constructor
        · exact fun h hold => h.mpr (.inl hold)
        · exact fun h => ⟨.inr, fun hor => hor.elim h fun h => h⟩
    constructor
    · intro h id' hid'
      obtain rfl : id' = id := Option.some.inj (hid'.1.symm.trans hid.1)
      exact hkeeps.mp h.right
    · exact fun h => ⟨hkeeps.mpr (h id hid), hsoft⟩
  · refine iff_of_true ⟨?_, ?_⟩ fun id hid => absurd hid (hno id)
    · rw [htables]
      exact hs.right
    · rw [htables]
      exact hs.valid

/-- A disconnection keeps the read right exactly if it does it no harm. -/
theorem readsRight_disconnect (hs : ReadsRight lane entry s) (hentry : entry.Valid)
    {lane' fchid : BitVec 32} {dir : CidKind} {env : ChainEnv} :
    ReadsRight lane entry (chainDisconnect dev lane' fchid dir env s).2 ↔
      ∀ id, DisconnectGranted dev lane' fchid env id →
        DisconnectKeeps s.tables lane entry id dir := by
  obtain ⟨id, old, hid, hold, htables⟩ | ⟨hnone, htables⟩ :=
    chainDisconnect_cases dev lane' fchid dir env s
  · have hsoft := soft_valid_set hs.valid (fun e he => by cases he) htables
    have hkeeps : (Registered (chainDisconnect dev lane' fchid dir env s).2.tables entry ↔
        HasIngress (chainDisconnect dev lane' fchid dir env s).2.tables lane entry) ↔
        DisconnectKeeps s.tables lane entry id dir := by
      have hbefore := hs.right
      rw [registered_iff id.lane id.fchid dir, hold, Option.some.injEq] at hbefore
      rw [htables, registered_set]
      unfold DisconnectKeeps
      rw [hold, Option.some.injEq]
      by_cases hl : id.lane = lane ∧ dir = .ingress
      · obtain ⟨rfl, rfl⟩ := hl
        rw [hasIngress_set_none (hs.valid _ _ _ _ hold) hentry, ← hbefore]
        by_cases he : old = entry <;> simp [he]
      · have hl' : ¬ (lane = id.lane ∧ dir = .ingress) := fun h => hl ⟨h.1.symm, h.2⟩
        rw [hasIngress_set_of_ne hl', ← hbefore]
        by_cases he : old = entry <;> simp [he, hl]
    constructor
    · intro h id' hid'
      obtain rfl : id' = id := Option.some.inj (hid'.1.symm.trans hid.1)
      exact hkeeps.mp h.right
    · exact fun h => ⟨hkeeps.mpr (h id hid), hsoft⟩
  · refine iff_of_true ⟨?_, ?_⟩ fun id hid h => ?_
    · rw [htables]
      exact hs.right
    · rw [htables]
      exact hs.valid
    · cases (hnone id hid).symm.trans h

theorem readsRight_step (hs : ReadsRight lane entry s) (hentry : entry.Valid) {call : ChainCall}
    {t : ChainDev} (ht : chainStep dev s call = some t) :
    ReadsRight lane entry t ↔ KeepsReport dev lane entry s call := by
  cases ht
  cases call with
  | connectIngress l fchid extifId cid activeFlag directFlag env => exact readsRight_connect hs hentry
  | connectEgress l fchid extifId cid activeFlag virtualFlag blockingFlag env =>
    exact readsRight_connect hs hentry
  | disconnectIngress l fchid env => exact readsRight_disconnect hs hentry
  | disconnectEgress l fchid env => exact readsRight_disconnect hs hentry

theorem soft_valid_connect (hs : ∀ l f k e, s.tables.soft l f k = some e → e.Valid)
    {args : ConnectArgs} {dir : CidKind} {env : ChainEnv} :
    ∀ l f k e, (chainConnect dev args dir env s).2.tables.soft l f k = some e → e.Valid := by
  obtain ⟨id, hid, -, htables⟩ | ⟨-, -, htables⟩ := chainConnect_cases dev args dir env s
  · exact soft_valid_set hs (fun e he => (Option.some.inj he ▸ connectId_entry hid.1 : e.Valid)) htables
  · rw [htables]
    exact hs

theorem soft_valid_disconnect (hs : ∀ l f k e, s.tables.soft l f k = some e → e.Valid)
    {lane fchid : BitVec 32} {dir : CidKind} {env : ChainEnv} :
    ∀ l f k e, (chainDisconnect dev lane fchid dir env s).2.tables.soft l f k = some e → e.Valid := by
  obtain ⟨id, old, -, -, htables⟩ | ⟨-, htables⟩ := chainDisconnect_cases dev lane fchid dir env s
  · exact soft_valid_set hs (fun e he => by cases he) htables
  · rw [htables]
    exact hs

theorem soft_valid_step (hs : ∀ l f k e, s.tables.soft l f k = some e → e.Valid) {call : ChainCall}
    {t : ChainDev} (ht : chainStep dev s call = some t) :
    ∀ l f k e, t.tables.soft l f k = some e → e.Valid := by
  cases ht
  cases call with
  | connectIngress l fchid extifId cid activeFlag directFlag env => exact soft_valid_connect hs
  | connectEgress l fchid extifId cid activeFlag virtualFlag blockingFlag env =>
    exact soft_valid_connect hs
  | disconnectIngress l fchid env => exact soft_valid_disconnect hs
  | disconnectEgress l fchid env => exact soft_valid_disconnect hs

/-- Along a run the read is right exactly if no call does it harm. -/
theorem always_reports_iff {lane' extifId cid : BitVec 32}
    (hlane : dev.bind (·.lane lane') = some lane) (hcid : cid.toNat ≤ 511) (hextif : extifId.toNat ≤ 1)
    (stack : FpgaId) (calls : List ChainCall) (hs : s.tables = emptyTables) :
    Always (chainStep dev) (fun s => Reports dev lane' extifId cid stack s ↔
        HasIngress s.tables lane ⟨extifId, cid.setWidth 16⟩) s calls ↔
      Along (chainStep dev) (KeepsReport dev lane ⟨extifId, cid.setWidth 16⟩) s calls := by
  have hentry : (⟨extifId, cid.setWidth 16⟩ : ExtifidCid).Valid := by
    refine ⟨by rw [toNat_setWidth_of_le hcid (by decide)]; exact hcid, ?_⟩
    have hextif' : extifId.toNat = 0 ∨ extifId.toNat = 1 := by omega
    exact hextif'.imp BitVec.eq_of_toNat_eq BitVec.eq_of_toNat_eq
  have hstart : ReadsRight lane ⟨extifId, cid.setWidth 16⟩ s := by
    constructor
    · rw [hs]
      refine iff_of_false ?_ ?_
      · rintro ⟨l, f, k, h⟩
        cases h
      · rintro ⟨f, -, w, h, -⟩
        cases h
    · intro l f k e h
      rw [hs] at h
      cases h
  simp only [reports_iff_registered hlane hcid hextif]
  apply always_iff_along (I := ReadsRight lane ⟨extifId, cid.setWidth 16⟩) _ (fun _ h => h.right) _ hstart
  · intro s call t h hkeeps ht
    exact (readsRight_step h hentry ht).mpr hkeeps
  · intro s call t h ht hright
    exact (readsRight_step h hentry ht).mp ⟨hright, soft_valid_step h.valid ht⟩

/-- **Connect and read.** What is connected is read, and along a run from empty tables the read for
ingress says that there is a chain exactly if the lane has one, exactly as long as no call puts the
connection elsewhere while the lane does not have it, or takes it away in one place only. -/
theorem readTable_iff (dev : Option FpgaDevice) :
    (∀ s stack lane fchid extifId cid activeFlag directFlag env,
      (fpgaChainConnectIngress dev lane fchid extifId cid activeFlag directFlag env s).1 = .ok () →
        (fpgaChainReadTableIngress dev lane extifId cid true stack .fine
          (fpgaChainConnectIngress dev lane fchid extifId cid activeFlag directFlag env s).2).1 =
            .ok ⟨1, activeFlag, directFlag, fchid⟩) ∧
    (∀ s stack lane fchid extifId cid activeFlag virtualFlag blockingFlag env,
      (fpgaChainConnectEgress dev lane fchid extifId cid activeFlag virtualFlag blockingFlag env s).1 =
          .ok () →
        (fpgaChainReadTableEgress dev lane fchid true stack .fine (fpgaChainConnectEgress dev lane
          fchid extifId cid activeFlag virtualFlag blockingFlag env s).2).1 =
            .ok ⟨1, activeFlag, virtualFlag, blockingFlag, extifId, cid⟩) ∧
    ∀ lane' lane extifId cid stack calls s, dev.bind (·.lane lane') = some lane → cid.toNat ≤ 511 →
      extifId.toNat ≤ 1 → s.tables = emptyTables →
      (Always (chainStep dev) (fun s => Reports dev lane' extifId cid stack s ↔
          HasIngress s.tables lane ⟨extifId, cid.setWidth 16⟩) s calls ↔
        Along (chainStep dev) (KeepsReport dev lane ⟨extifId, cid.setWidth 16⟩) s calls) := by
  refine ⟨?_, ?_, ?_⟩
  · intro s stack lane fchid extifId cid activeFlag directFlag env h
    exact readTable_connectIngress stack h
  · intro s stack lane fchid extifId cid activeFlag virtualFlag blockingFlag env h
    exact readTable_connectEgress stack h
  · intro lane' lane extifId cid stack calls s hlane hcid hextif hs
    exact always_reports_iff hlane hcid hextif stack calls hs

/-- What is on the stack. -/
def zeroId : FpgaId := ⟨0, 0, 0, 0, 0, 0, 0, 0, 0⟩

/-- Function chain 3 of lane 0 is connected to connection 5, and lane 0 is asked for it. -/
theorem readTable_iff_connect :
    (fpgaChainReadTableIngress (some twoLanes) 0 0 5 true zeroId .fine
      (fpgaChainConnectIngress (some twoLanes) 0 3 0 5 1 0 .fine .reset).2).1 = .ok ⟨1, 1, 0, 3⟩ ∧
    Always (chainStep (some twoLanes)) (fun s => Reports (some twoLanes) 0 0 5 zeroId s ↔
      HasIngress s.tables 0 ⟨0, 5⟩) .reset [.connectIngress 0 3 0 5 1 0 .fine] := by
  obtain ⟨hingress, -, hreports⟩ := readTable_iff (some twoLanes)
  refine ⟨hingress .reset zeroId 0 3 0 5 1 0 .fine rfl,
    (hreports 0 0 0 5 zeroId _ .reset rfl (by decide) (by decide) rfl).mpr ?_⟩
  intro t ht
  refine ⟨fun id hid => ⟨fun _ => .inl ⟨?_, rfl⟩, fun hne _ => ?_⟩, trivial⟩
  · obtain ⟨-, l, hl, rfl⟩ := connectId_eq_some hid.1
    exact (Option.some.inj hl).symm
  · obtain ⟨-, l, -, rfl⟩ := connectId_eq_some hid.1
    exact absurd rfl hne

/-- Lane 0 is connected to connection 5, and lane 1 is asked for it. -/
theorem not_reports_right :
    ¬ Always (chainStep (some twoLanes)) (fun s => Reports (some twoLanes) 1 0 5 zeroId s ↔
      HasIngress s.tables 1 ⟨0, 5⟩) .reset [.connectIngress 0 3 0 5 1 0 .fine] := by
  intro h
  obtain ⟨f, -, w, hw, -⟩ := (h.last rfl).mp <|
    (reports_iff_registered (show (some twoLanes).bind (·.lane 1) = some 1 from rfl) (by decide)
      (by decide) zeroId).mpr
      ⟨0, 3, .ingress, by decide⟩
  cases hw

end HardwareDrivers.Libfpga
