import HardwareDrivers.Driver.LldmaIoctl

/-!
# Binding by name

`BIND_QUEUE` looks for a name in the records of the channels below the count, first the
`RX` side by number, then the `TX` side, and looks at nothing but the name. Free channels
have the empty name, set-ups of every direction write names, and nothing keeps a name
from being used twice. What each channel was taken for is followed beside the run.

## What is proved

* `HeldInv.step` — a record that is taken has the name that its channel was taken under,
  a free one has the empty name.
* `bindsHolder_iff` — in such a state a name is bound rightly exactly if at most one
  channel is held for it, one that the scan gets to, and no other channel with the name
  comes before it.
* `always_bindsHolder_iff` — a run binds a name rightly throughout exactly if the name is
  not empty and every set-up and tear-down under the name keeps to one holder, with the
  other channels of the name behind it.
-/

namespace HardwareDrivers.Driver

open Theory

/-! ### What the channels are held for -/

/-- The system, with what each channel was taken for. -/
structure HeldSystem where
  /-- The system. -/
  sys : LldmaSystem
  /-- The direction and the name of the set-up that took the channel. -/
  held : DmaSide → Chid → Option (DmaDir × ConnectorId)

/-- All channels free. -/
def HeldSystem.init (devId : ℕ) (regs : LldmaRegs) (ringPhys : DmaSide → Chid → BitVec 64) :
    HeldSystem := ⟨.init devId regs ringPhys, fun _ _ => none⟩

/-- What a set-up asks for. -/
def FileOp.taking : FileOp → Option (DmaDir × ConnectorId)
  | .cdevIoctl _ _ (.allocQueue q) => some (q.dir, q.connectorId)
  | .cdevIoctl _ _ (.allocConnection c) => some (c.dir, c.connectorId)
  | _ => none

/-- One call: a channel that it takes is held from now on for what it asked, one that it puts back
is not held any more. -/
def heldStep (s : HeldSystem) (op : FileOp) : Option HeldSystem :=
  (fileStep s.sys op).map fun t => ⟨t, fun side chid =>
    if (t.dev.queues side chid).status = .free then none
    else if (s.sys.dev.queues side chid).status = .free then op.taking
    else s.held side chid⟩

/-- An `ALLOC_QUEUE` between host and device holds the channel under the name. -/
def HeldSystem.Holds (s : HeldSystem) (id : ConnectorId) (side : DmaSide) (chid : Chid) : Prop :=
  s.held side chid = some (side.hostDir, id)

/-- `BIND_QUEUE` with the name succeeds exactly if such a channel is held, and returns it. -/
def BindsHolder (id : ConnectorId) (s : HeldSystem) : Prop :=
  ∀ priv env q q', env.copyFromUser = true → env.copyToUser = true → q.connectorId = id →
    ((xpcieFpgaIoctlLldma s.sys.dev priv env (.bindQueue q)).1 = .ok (some q') ↔
      ∃ side chid, s.Holds id side chid ∧ q' = { q with
        dir := side.hostDir, mapSize := (s.sys.dev.queues side chid).qpMemSize, chid := chid })

/-- What a call may do under the name. -/
structure Orderly (id : ConnectorId) (s : HeldSystem) (op : FileOp) : Prop where
  /-- An `ALLOC_QUEUE` between host and device takes a channel below the count, while none is held
  so under the name. -/
  fresh : ∀ (side : DmaSide) (chid : Chid), op.obtains s.sys = some (side.hostDir, chid, id) →
    chid < s.sys.dev.availableDmaChannelNum ∧ ∀ side' chid', ¬ s.Holds id side' chid'
  /-- Any other set-up takes a channel that the scan does not get to, or gets to behind the one
  held. -/
  behind : ∀ dir chid, op.obtains s.sys = some (dir, chid, id) → dir ≠ dir.side.hostDir →
    chid < s.sys.dev.availableDmaChannelNum →
    ∃ side' chid', s.Holds id side' chid' ∧ ScanBefore side' chid' dir.side chid
  /-- The channel held is put back when no other has the name any more. -/
  last : ∀ side chid, op.releases s.sys = some (side, chid) → s.Holds id side chid →
    ∀ side' chid', s.sys.dev.Carries id side' chid' → side' = side ∧ chid' = chid

/-! ### The names in the records -/

/-- The record of a channel and what the channel is held for. -/
def HeldSystem.Agrees (s : HeldSystem) (side : DmaSide) (chid : Chid) : Prop :=
  match (s.sys.dev.queues side chid).status with
  | .free => s.held side chid = none ∧ (s.sys.dev.queues side chid).connectorId = .empty
  | .used => ∃ dir, s.held side chid = some (dir, (s.sys.dev.queues side chid).connectorId)

/-- What every call keeps. -/
structure HeldInv (s : HeldSystem) : Prop where
  /-- The files. -/
  known : s.sys.Known
  /-- A free channel has no name, a channel that is taken has the name it was taken under. -/
  agrees : ∀ side chid, s.Agrees side chid

variable {s t : HeldSystem} {op : FileOp} {id : ConnectorId} {side side' : DmaSide}
  {chid chid' : Chid}

theorem heldInv_init (devId : ℕ) (regs : LldmaRegs) (ringPhys : DmaSide → Chid → BitVec 64) :
    HeldInv (.init devId regs ringPhys) where
  known _ _ h := by cases h
  agrees _ _ := ⟨rfl, rfl⟩

theorem agrees_of_free (hst : (s.sys.dev.queues side chid).status = .free) :
    s.Agrees side chid ↔
      s.held side chid = none ∧ (s.sys.dev.queues side chid).connectorId = .empty := by
  rw [HeldSystem.Agrees, hst]

theorem agrees_of_used (hst : (s.sys.dev.queues side chid).status = .used) :
    s.Agrees side chid ↔
      ∃ dir, s.held side chid = some (dir, (s.sys.dev.queues side chid).connectorId) := by
  rw [HeldSystem.Agrees, hst]

/-- A free channel is not held and has no name. -/
theorem HeldInv.free (H : HeldInv s) (hst : (s.sys.dev.queues side chid).status = .free) :
    s.held side chid = none ∧ (s.sys.dev.queues side chid).connectorId = .empty :=
  (agrees_of_free hst).mp (H.agrees side chid)

/-- What is held carries the name. -/
theorem HeldInv.name (H : HeldInv s) (h : s.Holds id side chid) :
    (s.sys.dev.queues side chid).status = .used ∧
      (s.sys.dev.queues side chid).connectorId = id := by
  cases hst : (s.sys.dev.queues side chid).status with
  | free =>
    have hnone := (H.free hst).1
    rw [h] at hnone
    cases hnone
  | used =>
    obtain ⟨dir, hdir⟩ := (agrees_of_used hst).mp (H.agrees side chid)
    rw [h] at hdir
    cases hdir
    exact ⟨rfl, rfl⟩

/-- The two parts of a step. -/
theorem heldStep_eq_some (ht : heldStep s op = some t) :
    fileStep s.sys op = some t.sys ∧ ∀ side chid, t.held side chid =
      if (t.sys.dev.queues side chid).status = .free then none
      else if (s.sys.dev.queues side chid).status = .free then op.taking
      else s.held side chid := by
  obtain ⟨u, hu, rfl⟩ := Option.map_eq_some_iff.mp ht
  exact ⟨hu, fun _ _ => rfl⟩

/-- What a call does to a channel. -/
inductive ChannelEffect (s t : HeldSystem) (op : FileOp) (side : DmaSide) (chid : Chid) : Prop where
  /-- It stays as it is. -/
  | same (hobtains : ∀ dir id, dir.side = side → op.obtains s.sys ≠ some (dir, chid, id))
    (hreleases : op.releases s.sys ≠ some (side, chid))
    (hqueue : t.sys.dev.queues side chid = s.sys.dev.queues side chid)
    (hheld : t.held side chid = s.held side chid)
  /-- It is taken. -/
  | taken (dir : DmaDir) (id : ConnectorId) (hside : dir.side = side)
    (hobtains : op.obtains s.sys = some (dir, chid, id)) (hreleases : op.releases s.sys = none)
    (hfree : (s.sys.dev.queues side chid).status = .free)
    (hused : (t.sys.dev.queues side chid).status = .used)
    (hname : (t.sys.dev.queues side chid).connectorId = id)
    (hheld : t.held side chid = some (dir, id))
  /-- It is put back. -/
  | putBack (hobtains : op.obtains s.sys = none)
    (hreleases : op.releases s.sys = some (side, chid) ∨
      op.releases s.sys = none ∧ (s.sys.dev.queues side chid).status = .free)
    (hfree : (t.sys.dev.queues side chid).status = .free)
    (hname : (t.sys.dev.queues side chid).connectorId = .empty)
    (hheld : t.held side chid = none)

/-- What a call takes is what it asks for. -/
theorem taking_of_obtains {dir : DmaDir} (h : op.obtains s.sys = some (dir, chid, id)) :
    op.taking = some (dir, id) := by
  cases op with
  | cdevOpen fd => cases h
  | cdevRelease fd monitor => cases h
  | cdevIoctl fd env cmd =>
    cases cmd with
    | bindQueue q => cases h
    | freeQueue q => cases h
    | freeConnection => cases h
    | allocQueue q =>
      obtain ⟨-, he⟩ := Option.ite_none_right_eq_some.mp h
      cases he
      rfl
    | allocConnection c =>
      obtain ⟨-, he⟩ := Option.ite_none_right_eq_some.mp h
      cases he
      rfl

/-- **What every call does to every channel.** -/
theorem HeldInv.channelEffect (H : HeldInv s) (ht : heldStep s op = some t) (side : DmaSide)
    (chid : Chid) : ChannelEffect s t op side chid := by
  obtain ⟨hstep, hheld⟩ := heldStep_eq_some ht
  have hsame : t.sys.dev.queues side chid = s.sys.dev.queues side chid →
      t.held side chid = s.held side chid := by
    intro h
    rw [hheld, h]
    cases hst : (s.sys.dev.queues side chid).status with
    | free => rw [if_pos rfl, (H.free hst).1]
    | used => rw [if_neg nofun, if_neg nofun]
  cases (fileStep_effect H.known hstep).1 with
  | same hobtains hreleases h =>
    have hq := congrFun (congrFun h side) chid
    exact .same (fun _ _ _ => by rw [hobtains]; nofun) (by rw [hreleases]; nofun) hq (hsame hq)
  | takes dir c id hobtains hreleases hfree h =>
    by_cases he : side = dir.side ∧ chid = c
    · obtain ⟨rfl, rfl⟩ := he
      refine .taken dir id rfl hobtains hreleases hfree h.status h.name ?_
      rw [hheld, h.status, if_neg nofun, if_pos hfree]
      exact taking_of_obtains hobtains
    · have hq := h.leaves.queues side chid he
      refine .same (fun dir' id' hside heq => he ?_) (by rw [hreleases]; nofun) hq (hsame hq)
      rw [hobtains] at heq
      cases heq
      exact ⟨hside.symm, rfl⟩
  | frees side' c hobtains hreleases h =>
    by_cases he : side = side' ∧ chid = c
    · obtain ⟨rfl, rfl⟩ := he
      exact .putBack hobtains (.inl hreleases) h.status h.name (by rw [hheld, if_pos h.status])
    · have hq := h.leaves.queues side chid he
      refine .same (fun _ _ _ => by rw [hobtains]; nofun) (fun heq => he ?_) hq (hsame hq)
      rw [hreleases] at heq
      cases heq
      exact ⟨rfl, rfl⟩
  | putsBack side' c hobtains hreleases hfree h =>
    by_cases he : side = side' ∧ chid = c
    · obtain ⟨rfl, rfl⟩ := he
      exact .putBack hobtains (.inr ⟨hreleases, hfree⟩) h.status h.name
        (by rw [hheld, if_pos h.status])
    · have hq := h.leaves.queues side chid he
      exact .same (fun _ _ _ => by rw [hobtains]; nofun) (by rw [hreleases]; nofun) hq (hsame hq)

/-- **Every call keeps the names of the channels.** -/
theorem HeldInv.step (H : HeldInv s) (ht : heldStep s op = some t) : HeldInv t := by
  obtain ⟨-, -, -, hknown⟩ := fileStep_effect H.known (heldStep_eq_some ht).1
  refine ⟨hknown, fun side chid => ?_⟩
  cases H.channelEffect ht side chid with
  | same _ _ hqueue hheld =>
    rw [HeldSystem.Agrees, hqueue, hheld]
    exact H.agrees side chid
  | taken dir id _ _ _ _ hused hname hheld =>
    exact (agrees_of_used hused).mpr ⟨dir, by rw [hheld, hname]⟩
  | putBack _ _ hfree hname hheld => exact (agrees_of_free hfree).mpr ⟨hheld, hname⟩

/-! ### One state -/

/-- What `BIND_QUEUE` finds is what is held. -/
theorem bindsHolder_iff_first : BindsHolder id s ↔
    ∀ side chid, s.sys.dev.First id side chid ↔ s.Holds id side chid := by
  constructor
  · intro h side chid
    have hbind := h none .quiet ⟨.hostToDev, 0, 0, id⟩
      ⟨side.hostDir, chid, (s.sys.dev.queues side chid).qpMemSize, id⟩ rfl rfl rfl
    rw [ioctl_bindQueue_eq_ok _ _ _ rfl rfl, xpcieFpgaRefQueue_eq_ok] at hbind
    -- the channel can be read off what is returned
    have hinj : ∀ {side' : DmaSide} {chid' : Chid} {n n' : ℕ},
        (⟨side.hostDir, chid, n, id⟩ : FpgaIoctlQueue) = ⟨side'.hostDir, chid', n', id⟩ →
          side = side' ∧ chid = chid' := by
      intro side' chid' n n' he
      obtain ⟨hdir, hchid, -⟩ := FpgaIoctlQueue.mk.inj he
      refine ⟨?_, hchid⟩
      rw [← DmaSide.side_hostDir side, hdir, DmaSide.side_hostDir]
    constructor
    · intro hf
      obtain ⟨side', chid', hh, he⟩ := hbind.mp ⟨side, chid, hf, rfl⟩
      obtain ⟨rfl, rfl⟩ := hinj he
      exact hh
    · intro hh
      obtain ⟨side', chid', hf, he⟩ := hbind.mpr ⟨side, chid, hh, rfl⟩
      obtain ⟨rfl, rfl⟩ := hinj he
      exact hf
  · intro h priv env q q' hfrom hto hid
    rw [ioctl_bindQueue_eq_ok _ _ _ hfrom hto, xpcieFpgaRefQueue_eq_ok, hid]
    simp only [h]

/-- A channel that has the name and is not held so comes after one that is. -/
def Unshadowed (id : ConnectorId) (s : HeldSystem) : Prop :=
  ∀ side chid, s.sys.dev.Carries id side chid → ¬ s.Holds id side chid →
    ∃ side' chid', s.Holds id side' chid' ∧ ScanBefore side' chid' side chid

/-- At most one channel is held under the name, one that the scan gets to. -/
structure OneHolder (id : ConnectorId) (s : HeldSystem) : Prop where
  /-- At most one. -/
  unique : ∀ side chid side' chid', s.Holds id side chid → s.Holds id side' chid' →
    side = side' ∧ chid = chid'
  /-- Below the count. -/
  lt : ∀ side chid, s.Holds id side chid → chid < s.sys.dev.availableDmaChannelNum

/-- **A name is bound rightly** exactly if at most one channel is held under it, one that the scan
gets to, and no other channel with the name comes before it. -/
theorem bindsHolder_iff (H : HeldInv s) :
    BindsHolder id s ↔ OneHolder id s ∧ Unshadowed id s := by
  rw [bindsHolder_iff_first]
  constructor
  · intro h
    refine ⟨⟨fun side chid side' chid' hh hh' => ?_, fun side chid hh => ?_⟩, ?_⟩
    · exact ((h side chid).mpr hh).unique ((h side' chid').mpr hh')
    · exact ((h side chid).mpr hh).1.1
    · intro side chid hc hno
      -- some channel has the name, so the scan finds one
      rcases xpcieFpgaRefQueue_cases s.sys.dev ⟨.hostToDev, 0, 0, id⟩ with
        ⟨side', chid', hf, -⟩ | ⟨-, hnone⟩
      · have hh := (h side' chid').mp hf
        refine ⟨side', chid', hh, ?_⟩
        rcases scanBefore_trichotomy side' side chid' chid with hb | ⟨rfl, rfl⟩ | hb
        · exact hb
        · exact absurd hh hno
        · exact absurd hc (hf.2 side chid hb)
      · exact absurd hc (hnone side chid)
  · rintro ⟨hone, hclear⟩ side chid
    have hcarries : ∀ {side chid}, s.Holds id side chid → s.sys.dev.Carries id side chid :=
      fun hh => ⟨hone.lt _ _ hh, (H.name hh).2⟩
    constructor
    · intro hf
      by_contra hno
      obtain ⟨side', chid', hh, hb⟩ := hclear side chid hf.1 hno
      exact hf.2 side' chid' hb (hcarries hh)
    · intro hh
      refine ⟨hcarries hh, fun side' chid' hb hc => ?_⟩
      by_cases hh' : s.Holds id side' chid'
      · obtain ⟨rfl, rfl⟩ := hone.unique _ _ _ _ hh hh'
        exact hb.asymm hb
      · obtain ⟨side'', chid'', hh'', hb'⟩ := hclear side' chid' hc hh'
        obtain ⟨rfl, rfl⟩ := hone.unique _ _ _ _ hh hh''
        exact hb.asymm hb'

/-! ### One call -/

/-- A channel that comes to be held under the name is taken for it. -/
theorem HeldInv.holds_cases (H : HeldInv s) (ht : heldStep s op = some t)
    (h : t.Holds id side chid) : s.Holds id side chid ∨
      op.obtains s.sys = some (side.hostDir, chid, id) ∧ op.releases s.sys = none := by
  cases H.channelEffect ht side chid with
  | same _ _ _ hheld => exact .inl (hheld.symm.trans h)
  | taken dir id' _ hobtains hreleases _ _ _ hheld =>
    cases hheld.symm.trans h
    exact .inr ⟨hobtains, hreleases⟩
  | putBack _ _ _ _ hheld => cases hheld.symm.trans h

/-- A channel that is held stays held, or is put back. -/
theorem HeldInv.holds_keep (H : HeldInv s) (ht : heldStep s op = some t)
    (h : s.Holds id side chid) : t.Holds id side chid ∨
      op.obtains s.sys = none ∧ op.releases s.sys = some (side, chid) := by
  have hused := (H.name h).1
  cases H.channelEffect ht side chid with
  | same _ _ _ hheld => exact .inl (hheld.trans h)
  | taken _ _ _ _ _ hfree =>
    rw [hfree] at hused
    cases hused
  | putBack hobtains hreleases =>
    rcases hreleases with hreleases | ⟨-, hfree⟩
    · exact .inr ⟨hobtains, hreleases⟩
    · rw [hfree] at hused
      cases hused

theorem HeldInv.count (H : HeldInv s) (ht : heldStep s op = some t) :
    t.sys.dev.availableDmaChannelNum = s.sys.dev.availableDmaChannelNum :=
  (fileStep_effect H.known (heldStep_eq_some ht).1).2.1

/-- A name that is taken afresh stays with one holder. -/
theorem OneHolder.step (h : OneHolder id s) (H : HeldInv s) (hn : Orderly id s op)
    (ht : heldStep s op = some t) : OneHolder id t := by
  constructor
  · intro side chid side' chid' hh hh'
    rcases H.holds_cases ht hh with hs | ⟨hob, -⟩
    · rcases H.holds_cases ht hh' with hs' | ⟨hob', -⟩
      · exact h.unique _ _ _ _ hs hs'
      · exact absurd hs ((hn.fresh _ _ hob').2 side chid)
    · rcases H.holds_cases ht hh' with hs' | ⟨hob', -⟩
      · exact absurd hs' ((hn.fresh _ _ hob).2 side' chid')
      · obtain ⟨hdir, hrest⟩ := Prod.mk.inj (Option.some.inj (hob.symm.trans hob'))
        refine ⟨?_, (Prod.mk.inj hrest).1⟩
        rw [← DmaSide.side_hostDir side, hdir, DmaSide.side_hostDir]
  · intro side chid hh
    rw [H.count ht]
    rcases H.holds_cases ht hh with hs | ⟨hob, -⟩
    · exact h.lt side chid hs
    · exact (hn.fresh _ _ hob).1

/-- The other channels of the name stay behind its holder. -/
theorem Unshadowed.step (h : Unshadowed id s) (H : HeldInv s)
    (hid : id ≠ .empty ∨ s.sys.dev.availableDmaChannelNum = 0) (hn : Orderly id s op)
    (ht : heldStep s op = some t) : Unshadowed id t := by
  intro side chid ⟨hlt, hname⟩ hno
  rw [H.count ht] at hlt
  cases H.channelEffect ht side chid with
  | same hobtains _ hqueue hheld =>
    have hcarries : s.sys.dev.Carries id side chid := ⟨hlt, by rw [← hqueue]; exact hname⟩
    obtain ⟨side', chid', hh, hb⟩ := h side chid hcarries fun hs => hno (hheld.trans hs)
    refine ⟨side', chid', ?_, hb⟩
    rcases H.holds_keep ht hh with hh' | ⟨-, hrel⟩
    · exact hh'
    · obtain ⟨rfl, rfl⟩ := hn.last _ _ hrel hh side chid hcarries
      exact absurd hb hb.asymm
  | taken dir id' hside hobtains hreleases _ _ hname' hheld =>
    subst hside
    cases hname'.symm.trans hname
    have hdir : dir ≠ dir.side.hostDir := by
      intro hdir
      exact hno (hheld.trans (by rw [← hdir]))
    obtain ⟨side', chid', hh, hb⟩ := hn.behind dir chid hobtains hdir hlt
    refine ⟨side', chid', ?_, hb⟩
    rcases H.holds_keep ht hh with hh' | ⟨-, hrel⟩
    · exact hh'
    · rw [hreleases] at hrel
      cases hrel
  | putBack _ _ _ hname' =>
    rcases hid with hid | hzero
    · exact absurd (hname.symm.trans hname') hid
    · omega

/-- A call after which the name is bound rightly was orderly. -/
theorem orderly_of_step (H : HeldInv s) (hone : OneHolder id s) (hone' : OneHolder id t)
    (hclear : Unshadowed id t) (ht : heldStep s op = some t) : Orderly id s op where
  fresh side chid hob := by
    have hh : t.Holds id side chid ∧ (s.sys.dev.queues side chid).status = .free := by
      cases H.channelEffect ht side chid with
      | same hobtains => exact absurd hob (hobtains _ _ (DmaSide.side_hostDir side))
      | taken dir id' _ hobtains _ hfree _ _ hheld =>
        cases hobtains.symm.trans hob
        exact ⟨hheld, hfree⟩
      | putBack hobtains => cases hobtains.symm.trans hob
    refine ⟨by rw [← H.count ht]; exact hone'.lt side chid hh.1, fun side' chid' hs => ?_⟩
    rcases H.holds_keep ht hs with hs' | ⟨hobtains, -⟩
    · obtain ⟨rfl, rfl⟩ := hone'.unique _ _ _ _ hh.1 hs'
      have hused := (H.name hs).1
      rw [hh.2] at hused
      cases hused
    · cases hobtains.symm.trans hob
  behind dir chid hob hdir hlt := by
    have hh : t.sys.dev.Carries id dir.side chid ∧ t.held dir.side chid = some (dir, id) := by
      cases H.channelEffect ht dir.side chid with
      | same hobtains => exact absurd hob (hobtains _ _ rfl)
      | taken dir' id' _ hobtains _ _ _ hname hheld =>
        cases hobtains.symm.trans hob
        exact ⟨⟨by rw [H.count ht]; exact hlt, hname⟩, hheld⟩
      | putBack hobtains => cases hobtains.symm.trans hob
    have hno : ¬ t.Holds id dir.side chid := by
      intro hholds
      exact hdir (Prod.mk.inj (Option.some.inj (hh.2.symm.trans hholds))).1
    obtain ⟨side', chid', hh', hb⟩ := hclear dir.side chid hh.1 hno
    rcases H.holds_cases ht hh' with hs | ⟨hob', -⟩
    · exact ⟨side', chid', hs, hb⟩
    · cases hob.symm.trans hob'
      rw [DmaSide.side_hostDir] at hdir
      exact absurd rfl hdir
  last side chid hrel hholds side' chid' hc := by
    by_contra hne
    cases H.channelEffect ht side' chid' with
    | same _ _ hqueue hheld =>
      have hcarries : t.sys.dev.Carries id side' chid' :=
        ⟨by rw [H.count ht]; exact hc.1, by rw [hqueue]; exact hc.2⟩
      by_cases hh : t.Holds id side' chid'
      · exact hne (hone.unique _ _ _ _ (hheld.symm.trans hh) hholds)
      · obtain ⟨side'', chid'', hh', -⟩ := hclear side' chid' hcarries hh
        rcases H.holds_cases ht hh' with hs | ⟨-, hreleases⟩
        · obtain ⟨rfl, rfl⟩ := hone.unique _ _ _ _ hs hholds
          cases H.channelEffect ht side'' chid'' with
          | same _ hreleases => exact hreleases hrel
          | taken _ _ _ _ hreleases => cases hreleases.symm.trans hrel
          | putBack _ _ _ _ hheld' => cases hheld'.symm.trans hh'
        · cases hreleases.symm.trans hrel
    | taken _ _ _ _ hreleases => cases hreleases.symm.trans hrel
    | putBack _ hreleases =>
      rcases hreleases with hreleases | ⟨hreleases, -⟩
      · cases hreleases.symm.trans hrel
        exact hne ⟨rfl, rfl⟩
      · cases hreleases.symm.trans hrel

/-! ### Runs -/

/-- **A run binds a name rightly throughout** exactly if the name is not empty, every `ALLOC_QUEUE`
between host and device under the name takes a channel below the count while none is held so under
it, every other set-up under the name takes a channel behind that one, and that one is put back
last. -/
theorem always_bindsHolder_iff (devId : ℕ) (regs : LldmaRegs)
    (ringPhys : DmaSide → Chid → BitVec 64) (id : ConnectorId) (ops : List FileOp) :
    Always heldStep (BindsHolder id) (.init devId regs ringPhys) ops ↔
      (id ≠ .empty ∨ countAvailable regs = 0) ∧
      Along heldStep (Orderly id) (.init devId regs ringPhys) ops := by
  have hinit := heldInv_init devId regs ringPhys
  have hiff (hid : id ≠ .empty ∨ countAvailable regs = 0) :
      Always heldStep (BindsHolder id) (.init devId regs ringPhys) ops ↔
        Along heldStep (Orderly id) (.init devId regs ringPhys) ops := by
    apply always_iff_along (I := fun s => HeldInv s ∧
      s.sys.dev.availableDmaChannelNum = countAvailable regs ∧ OneHolder id s ∧ Unshadowed id s)
    · intro s op t ⟨H, hcount, hone, hclear⟩ hn ht
      exact ⟨H.step ht, (H.count ht).trans hcount, hone.step H hn ht,
        hclear.step H (by rw [hcount]; exact hid) hn ht⟩
    · intro s ⟨H, _, h⟩
      exact (bindsHolder_iff H).mpr h
    · intro s op t ⟨H, _, hone, _⟩ ht h
      obtain ⟨hone', hclear⟩ := (bindsHolder_iff (H.step ht)).mp h
      exact orderly_of_step H hone hone' hclear ht
    · refine ⟨hinit, rfl, ⟨fun _ _ _ _ h => (by cases h), fun _ _ h => by cases h⟩, ?_⟩
      intro side chid ⟨hlt, hname⟩ _
      rcases hid with hid | hzero
      · exact absurd hname.symm hid
      · exact absurd (hlt.trans_eq hzero) (Nat.not_lt_zero _)
  constructor
  · intro h
    have hid : id ≠ .empty ∨ countAvailable regs = 0 := by
      by_contra hno
      obtain ⟨hempty, hpos⟩ := not_or.mp hno
      have hclear := ((bindsHolder_iff hinit).mp h.head).2
      obtain ⟨side, chid, hh, -⟩ := hclear .rx 0
        ⟨Nat.pos_of_ne_zero hpos, (not_not.mp hempty).symm⟩ nofun
      cases hh
    exact ⟨hid, (hiff hid).mp h⟩
  · exact fun ⟨hid, h⟩ => (hiff hid).mpr h

/-- A name given to a connection between devices is bound. -/
theorem not_always_bindsHolder :
    ¬ ∀ id ops, Always heldStep (BindsHolder id) (.init 0 (.reset 1 1) fun _ _ => 0) ops := by
  intro h
  let id : ConnectorId := ⟨[97], by decide, by decide⟩
  let ops : List FileOp := [.cdevOpen 0, .cdevIoctl 0 { CallEnv.quiet with baseaddr := fun _ => 0x1000 }
    (.allocConnection ⟨.rx, 0, 0, 1, 0, 0, id⟩)]
  have hrun : ((run heldStep (.init 0 (.reset 1 1) fun _ _ => 0) ops).map fun t =>
      (decide (t.sys.dev.Carries id .rx 0), t.held .rx 0)) =
        some (true, some (.d2dDRx, id)) := by decide
  obtain ⟨t, ht, he⟩ := Option.map_eq_some_iff.mp hrun
  obtain ⟨hc, hheld⟩ := Prod.mk.inj he
  have hfirst : t.sys.dev.First id .rx 0 := by
    refine ⟨of_decide_eq_true hc, fun s c hb => ?_⟩
    rcases hb with ⟨-, hb⟩ | ⟨-, hb⟩
    · cases hb
    · exact absurd hb (Nat.not_lt_zero _)
  have hholds := (bindsHolder_iff_first.mp ((h id ops).last ht) .rx 0).mp hfirst
  rw [HeldSystem.Holds, hheld] at hholds
  cases hholds

end HardwareDrivers.Driver
