import HardwareDrivers.Driver.ChainWords

/-!
# The table of the driver and the tables of the module

The driver remembers by function chain what it set; the module has its ingress entries by
connection. When does the one say what the other holds?

## What is proved

* `Agrees.set_some_iff` — an update leaves the two in agreement exactly if it does not move a
  function chain to another connection, nor a connection to another function chain.
* `Agrees.set_none` — a delete leaves them in agreement.
-/

namespace HardwareDrivers.Driver

/-- The word belongs to the function chain and the connection. -/
def Names (word : BitVec 32) (fchid : Fchid) (entry : ExtifidCid) : CidKind → Prop
  | .ingress => wordFchid word = fchid
  | .egress => wordEntry word = entry

/-- The module has an entry for the connection and the function chain, and the entry counts. -/
def ChainTables.HwEntry (counts : BitVec 32 → Prop) (t : ChainTables) (lane : Lane) (kind : CidKind)
    (fchid : Fchid) (entry : ExtifidCid) : Prop :=
  entry.Valid ∧ ∃ word, t.entries lane kind (entryKey entry fchid kind) = some word ∧ counts word ∧
    Names word fchid entry kind

/-- The module has the entries of a lane and a kind that the driver remembers, and no others. -/
def ChainTables.Agrees (counts : BitVec 32 → Prop) (t : ChainTables) (lane : Lane) (kind : CidKind) :
    Prop :=
  ∀ fchid entry, t.HwEntry counts lane kind fchid entry ↔ t.soft lane fchid kind = some entry

/-- No function chain is moved to another connection, and no connection to another function
chain. -/
def ChainTables.Fresh (t : ChainTables) (lane : Lane) (fchid : Fchid) (entry : ExtifidCid) :
    CidKind → Prop
  | .ingress =>
    (∀ entry', t.soft lane fchid .ingress = some entry' → entry' = entry) ∧
      ∀ fchid', t.soft lane fchid' .ingress = some entry → fchid' = fchid
  | .egress => True

/-! ### The words of an update -/

variable {counts : BitVec 32 → Prop} {t : ChainTables} {lane lane' : Lane} {kind kind' : CidKind}

theorem names_word {id : FpgaId} (hid : id.entry.Valid) :
    Names (id.word kind) id.fchid id.entry kind := by
  cases kind with
  | ingress => exact wordFchid_ingressChannel id
  | egress => exact wordEntry_egressSession hid

/-- At the place of an update there is its entry, and no other. -/
theorem eq_of_names_word {id : FpgaId} (hid : id.entry.Valid) {fchid : Fchid} {entry : ExtifidCid}
    (hentry : entry.Valid) (hkey : entryKey entry fchid kind = entryKey id.entry id.fchid kind)
    (hnames : Names (id.word kind) fchid entry kind) : fchid = id.fchid ∧ entry = id.entry := by
  cases kind with
  | ingress => exact ⟨hnames.symm.trans (wordFchid_ingressChannel id), entryKey_inj hentry hid hkey⟩
  | egress => exact ⟨entryKey_egress_inj hkey, hnames.symm.trans (wordEntry_egressSession hid)⟩

/-- Two entries that the module has in one place are the same. -/
theorem hwEntry_unique {fchid fchid' : Fchid} {entry entry' : ExtifidCid}
    (h : t.HwEntry counts lane kind fchid entry) (h' : t.HwEntry counts lane kind fchid' entry')
    (hkey : entryKey entry fchid kind = entryKey entry' fchid' kind) :
    fchid = fchid' ∧ entry = entry' := by
  obtain ⟨hvalid, word, hword, -, hnames⟩ := h
  obtain ⟨hvalid', word', hword', -, hnames'⟩ := h'
  rw [hkey] at hword
  obtain rfl : word = word' := Option.some.inj (hword.symm.trans hword')
  cases kind with
  | ingress => exact ⟨hnames.symm.trans hnames', entryKey_inj hvalid hvalid' hkey⟩
  | egress => exact ⟨entryKey_egress_inj hkey, hnames.symm.trans hnames'⟩

/-! ### The tables with another entry -/

section Set

variable {key : BitVec 10} {word : Option (BitVec 32)} {fchid fchid' : Fchid}
  {entry : Option ExtifidCid}

theorem entries_set : (t.set lane kind key word fchid entry).entries lane kind =
    Function.update (t.entries lane kind) key word :=
  if_pos ⟨rfl, rfl⟩

theorem entries_set_of_ne (h : ¬ (lane' = lane ∧ kind' = kind)) :
    (t.set lane kind key word fchid entry).entries lane' kind' = t.entries lane' kind' :=
  if_neg h

theorem soft_set : (t.set lane kind key word fchid entry).soft lane fchid kind = entry :=
  if_pos ⟨rfl, rfl, rfl⟩

theorem soft_set_of_ne (h : ¬ (lane' = lane ∧ fchid' = fchid ∧ kind' = kind)) :
    (t.set lane kind key word fchid entry).soft lane' fchid' kind' = t.soft lane' fchid' kind' :=
  if_neg h

/-- The tables with one more entry are the tables as they were if the entry was there. -/
theorem set_eq_self_iff :
    t.set lane kind key word fchid entry = t ↔
      t.entries lane kind key = word ∧ t.soft lane fchid kind = entry := by
  constructor
  · intro h
    have hentries := congrArg (fun t => t.entries lane kind key) h
    have hsoft := congrArg (fun t => t.soft lane fchid kind) h
    simp only [ChainTables.set, and_self, if_true, Function.update_self] at hentries hsoft
    exact ⟨hentries.symm, hsoft.symm⟩
  · rintro ⟨rfl, rfl⟩
    refine ChainTables.ext (funext fun l => funext fun k => ?_)
      (funext fun l => funext fun f => funext fun k => ?_)
    · by_cases h : l = lane ∧ k = kind
      · obtain ⟨rfl, rfl⟩ := h
        rw [entries_set, Function.update_eq_self]
      · rw [entries_set_of_ne h]
    · by_cases h : l = lane ∧ f = fchid ∧ k = kind
      · obtain ⟨rfl, rfl, rfl⟩ := h
        rw [soft_set]
      · rw [soft_set_of_ne h]

/-- An entry set twice. -/
theorem set_set (word' : Option (BitVec 32)) (entry' : Option ExtifidCid) :
    (t.set lane kind key word fchid entry).set lane kind key word' fchid entry' =
      t.set lane kind key word' fchid entry' := by
  refine ChainTables.ext (funext fun l => funext fun k => ?_)
    (funext fun l => funext fun f => funext fun k => ?_)
  · by_cases h : l = lane ∧ k = kind
    · obtain ⟨rfl, rfl⟩ := h
      rw [entries_set, entries_set, entries_set, Function.update_idem]
    · rw [entries_set_of_ne h, entries_set_of_ne h, entries_set_of_ne h]
  · by_cases h : l = lane ∧ f = fchid ∧ k = kind
    · obtain ⟨rfl, rfl, rfl⟩ := h
      rw [soft_set, soft_set]
    · rw [soft_set_of_ne h, soft_set_of_ne h, soft_set_of_ne h]

/-- Other lanes and the other kind are as they were. -/
theorem agrees_set_of_ne (h : ¬ (lane' = lane ∧ kind' = kind)) :
    (t.set lane kind key word fchid entry).Agrees counts lane' kind' ↔
      t.Agrees counts lane' kind' := by
  unfold ChainTables.Agrees ChainTables.HwEntry
  refine forall_congr' fun f => forall_congr' fun e => ?_
  rw [entries_set_of_ne h, soft_set_of_ne fun hl => h ⟨hl.1, hl.2.2⟩]

end Set

/-- What the module has after an update. -/
theorem hwEntry_set_some {id : FpgaId} (hid : id.entry.Valid) (hcounts : counts (id.word kind))
    (fchid : Fchid) (entry : ExtifidCid) :
    (t.set id.lane kind (entryKey id.entry id.fchid kind) (some (id.word kind)) id.fchid
        (some id.entry)).HwEntry counts id.lane kind fchid entry ↔
      (fchid = id.fchid ∧ entry = id.entry) ∨
        entryKey entry fchid kind ≠ entryKey id.entry id.fchid kind ∧
          t.HwEntry counts id.lane kind fchid entry := by
  unfold ChainTables.HwEntry
  rw [entries_set]
  by_cases hkey : entryKey entry fchid kind = entryKey id.entry id.fchid kind
  · rw [hkey, Function.update_self]
    constructor
    · rintro ⟨hvalid, w, hw, -, hnames⟩
      cases hw
      exact .inl (eq_of_names_word hid hvalid hkey hnames)
    · rintro (⟨rfl, rfl⟩ | ⟨hne, -⟩)
      · exact ⟨hid, _, rfl, hcounts, names_word hid⟩
      · exact absurd rfl hne
  · rw [Function.update_of_ne hkey]
    constructor
    · exact fun h => .inr ⟨hkey, h⟩
    · rintro (⟨rfl, rfl⟩ | ⟨-, h⟩)
      · exact absurd rfl hkey
      · exact h

/-- What the module has after a delete. -/
theorem hwEntry_set_none {key : BitVec 10} (fchid' : Fchid) (fchid : Fchid) (entry : ExtifidCid) :
    (t.set lane kind key none fchid' none).HwEntry counts lane kind fchid entry ↔
      entryKey entry fchid kind ≠ key ∧ t.HwEntry counts lane kind fchid entry := by
  unfold ChainTables.HwEntry
  rw [entries_set]
  by_cases hkey : entryKey entry fchid kind = key
  · rw [hkey, Function.update_self]
    constructor
    · rintro ⟨-, w, hw, -⟩
      cases hw
    · exact fun h => absurd rfl h.1
  · rw [Function.update_of_ne hkey]
    exact ⟨fun h => ⟨hkey, h⟩, fun h => h.2⟩

/-- A delete takes the entry out of both. -/
theorem ChainTables.Agrees.set_none (h : t.Agrees counts lane kind) {fchid : Fchid}
    {entry : ExtifidCid} (hentry : t.soft lane fchid kind = some entry) :
    (t.set lane kind (entryKey entry fchid kind) none fchid none).Agrees counts lane kind := by
  have hhw : t.HwEntry counts lane kind fchid entry := (h fchid entry).mpr hentry
  intro f e
  rw [hwEntry_set_none]
  by_cases hf : f = fchid
  · subst hf
    rw [soft_set, h f e, hentry]
    constructor
    · rintro ⟨hne, he⟩
      cases he
      exact absurd rfl hne
    · intro hnone
      cases hnone
  · rw [soft_set_of_ne fun hl => hf hl.2.1, ← h f e]
    refine ⟨And.right, fun he => ⟨fun hkey => ?_, he⟩⟩
    exact hf (hwEntry_unique he hhw hkey).1

/-- An update that moves nothing puts the entry into both. -/
theorem ChainTables.Agrees.set_some {id : FpgaId} (h : t.Agrees counts id.lane kind)
    (hid : id.entry.Valid) (hcounts : counts (id.word kind))
    (hfresh : t.Fresh id.lane id.fchid id.entry kind) :
    (t.set id.lane kind (entryKey id.entry id.fchid kind) (some (id.word kind)) id.fchid
      (some id.entry)).Agrees counts id.lane kind := by
  intro f e
  rw [hwEntry_set_some hid hcounts]
  by_cases hf : f = id.fchid
  · subst hf
    rw [soft_set, Option.some.injEq]
    constructor
    · rintro (⟨-, rfl⟩ | ⟨hne, he⟩)
      · rfl
      · cases kind with
        | ingress => exact (hfresh.1 e ((h _ e).mp he)).symm
        | egress => exact absurd rfl hne
    · rintro rfl
      exact .inl ⟨rfl, rfl⟩
  · rw [soft_set_of_ne fun hl => hf hl.2.1, ← h f e]
    constructor
    · rintro (⟨hf', -⟩ | ⟨-, he⟩)
      · exact absurd hf' hf
      · exact he
    · intro he
      refine .inr ⟨fun hkey => ?_, he⟩
      cases kind with
      | ingress =>
        obtain rfl := entryKey_inj he.1 hid hkey
        exact hf (hfresh.2 f ((h f _).mp he))
      | egress => exact hf (entryKey_egress_inj hkey)

/-- An update that leaves the two in agreement moves nothing. -/
theorem ChainTables.Agrees.fresh {id : FpgaId} (h : t.Agrees counts id.lane kind)
    (hid : id.entry.Valid) (hcounts : counts (id.word kind))
    (h' : (t.set id.lane kind (entryKey id.entry id.fchid kind) (some (id.word kind)) id.fchid
      (some id.entry)).Agrees counts id.lane kind) : t.Fresh id.lane id.fchid id.entry kind := by
  cases kind with
  | egress => trivial
  | ingress =>
    constructor
    · intro e he
      by_contra hne
      -- the old entry of the function chain is still there
      have hhw := (h id.fchid e).mpr he
      have hold := (h' id.fchid e).mp <| (hwEntry_set_some hid hcounts _ _).mpr <|
        .inr ⟨fun hkey => hne (entryKey_inj hhw.1 hid hkey), hhw⟩
      rw [soft_set] at hold
      exact hne (Option.some.inj hold).symm
    · intro f hf
      by_contra hne
      -- the other function chain still counts on the entry
      have hold := (h' f id.entry).mpr ((soft_set_of_ne fun hl => hne hl.2.1).trans hf)
      obtain ⟨hf', -⟩ | ⟨hkey, -⟩ := (hwEntry_set_some hid hcounts f id.entry).mp hold
      · exact hne hf'
      · exact hkey rfl

/-- **An update** leaves the table of the driver and that of the module in agreement exactly if it
moves nothing. -/
theorem ChainTables.Agrees.set_some_iff {id : FpgaId} (h : t.Agrees counts id.lane kind)
    (hid : id.entry.Valid) (hcounts : counts (id.word kind)) :
    (t.set id.lane kind (entryKey id.entry id.fchid kind) (some (id.word kind)) id.fchid
        (some id.entry)).Agrees counts id.lane kind ↔
      t.Fresh id.lane id.fchid id.entry kind :=
  ⟨h.fresh hid hcounts, h.set_some hid hcounts⟩

end HardwareDrivers.Driver
