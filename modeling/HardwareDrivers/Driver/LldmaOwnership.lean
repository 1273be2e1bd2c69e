import HardwareDrivers.Driver.LldmaIoctl
import HardwareDrivers.Theory.Leases

/-!
# Who has a channel

A channel that is taken is marked in its record, and the file that took it notes it in
its private data. `FREE_QUEUE` takes the channel from the caller and compares only the
direction, `BIND_QUEUE` and a second set-up overwrite what the file has noted, and a
set-up whose result cannot be copied out may leave the channel marked. A run of calls
none of which does this is followed in the leases of channels to files.

## What is proved

* `RefinesLeases.step_cases` — every such call is a step of the leases, or none, and leaves
  the channels of the other files alone.
* `always_owned` — in every run of such calls a channel is marked exactly if exactly
  one open file has it, no call stops or frees a channel of another file, and all
  channels are free when all files are closed.
-/

namespace HardwareDrivers.Driver

open Theory

/-! ### What must hold -/

/-- The two records of who has a channel agree. -/
structure Owned (s : LldmaSystem) : Prop where
  /-- A channel is marked exactly if exactly one open file got it. -/
  used_iff : ∀ side chid,
    (s.dev.queues side chid).status = .used ↔ ∃! fd, s.owner fd = some (side, chid)
  /-- No file got a channel that is free. -/
  used_of_owner : ∀ fd side chid, s.owner fd = some (side, chid) →
    (s.dev.queues side chid).status = .used
  /-- When all files are closed, all channels are free. -/
  free_of_closed : (∀ fd, s.files fd = none) → ∀ side chid,
    (s.dev.queues side chid).status = .free

/-- The call changes neither the record nor the running of a channel that another file got. -/
def Undisturbed (s : LldmaSystem) (op : FileOp) : Prop :=
  ∀ t, fileStep s op = some t → ∀ fd side chid, fd ≠ op.fd → s.owner fd = some (side, chid) →
    t.dev.queues side chid = s.dev.queues side chid ∧
    (t.dev.regs.bank side chid).ctrl0 = (s.dev.regs.bank side chid).ctrl0

/-- A set-up that finds the channel free is on a file that has none, and its result can be copied
out or the channel stops again; a file that got a channel is only bound to that one; and a
`FREE_QUEUE` that passes the check of the direction is for the channel that the file got, or for a
free one, if the file got none or the call times out. -/
def Proper (s : LldmaSystem) : FileOp → Prop
  | .cdevIoctl fd env cmd => ∀ priv, s.files fd = some priv →
    match cmd with
    | .allocQueue q => env.copyFromUser = true → ∀ side, q.dir.queueSide = some side →
      (s.dev.queues side q.chid).status = .free →
        (env.copyToUser = true → priv.isGetQueue = false) ∧
        (env.copyToUser = false → ¬ TimesOut env.monitor)
    | .bindQueue q => env.copyFromUser = true → env.copyToUser = true → priv.isGetQueue = true →
      ∀ side chid, s.dev.First q.connectorId side chid → priv.owned = some (side, chid)
    | .freeQueue q => env.copyFromUser = true → ∀ b, priv = some b → b.queKind = q.dir →
      if b.isGetQueue = true then
        q.chid = b.chid ∨
          ((s.dev.queues q.dir.side q.chid).status = .free ∧ TimesOut env.monitor)
      else (s.dev.queues q.dir.side q.chid).status = .free
    | .allocConnection c => env.copyFromUser = true → s.dev.devId ≠ c.peerMinor →
      env.baseaddr c.peerMinor ≠ 0 → (s.dev.queues c.selfSide c.selfChid).status = .free →
        priv.isGetQueue = false
    | .freeConnection => True
  | _ => True

/-! ### The leases behind it -/

/-- The state is that of the leases. -/
structure RefinesLeases (s : LldmaSystem) (L : Leases (DmaSide × Chid) ℕ) : Prop where
  /-- The marks. -/
  used : ∀ side chid, (s.dev.queues side chid).status = .used ↔ (side, chid) ∈ L.used
  /-- The notes. -/
  owner : ∀ fd, s.owner fd = L.owner fd
  /-- Files are bound in the known directions only. -/
  known : s.Known

variable {s t : LldmaSystem} {L : Leases (DmaSide × Chid) ℕ} {fd : ℕ} {side : DmaSide} {chid : Chid}
  {dev : FpgaDevInfo} {priv : XpcieFilePrivate}

theorem status_eq_free_iff {q : QueueStatus} : q = .free ↔ ¬ q = .used := by
  cases q <;> simp

theorem RefinesLeases.owned (H : RefinesLeases s L) : Owned s where
  used_iff side chid := by
    rw [H.used, L.mem_used_iff]
    simp only [H.owner]
  used_of_owner fd side chid h := by
    rw [H.owner] at h
    exact (H.used side chid).mpr (L.mem_used h)
  free_of_closed h side chid := by
    rw [status_eq_free_iff, H.used]
    intro hu
    obtain ⟨fd, hfd⟩ := L.exists_owner hu
    rw [← H.owner, LldmaSystem.owner, h fd] at hfd
    cases hfd

theorem refines_init (devId : ℕ) (regs : LldmaRegs) (ringPhys : DmaSide → Chid → BitVec 64) :
    RefinesLeases (.init devId regs ringPhys) .empty where
  used side chid := ⟨nofun, False.elim⟩
  owner _ := rfl
  known _ _ h := by cases h

/-- What files have after a call on one of them. -/
theorem owner_update (dev : FpgaDevInfo) (x : Option XpcieFilePrivate) :
    LldmaSystem.owner ⟨dev, Function.update s.files fd x⟩ =
      Function.update s.owner fd (x.bind XpcieFilePrivate.owned) := by
  funext g
  by_cases hg : g = fd
  · subst hg
    simp [LldmaSystem.owner]
  · simp [LldmaSystem.owner, hg]

/-- A call that changes neither a status nor what the file has. -/
theorem RefinesLeases.idle (H : RefinesLeases s L) {x : Option XpcieFilePrivate}
    (hst : ∀ side chid, (dev.queues side chid).status = (s.dev.queues side chid).status)
    (hx : x.bind XpcieFilePrivate.owned = s.owner fd) (hk : ∀ priv, x = some priv → priv.Known) :
    RefinesLeases ⟨dev, Function.update s.files fd x⟩ L where
  used side chid := by
    rw [← H.used, ← hst]
  owner g := by
    rw [owner_update, hx, Function.update_eq_self, H.owner]
  known := H.known.update dev fd hk

/-- A call that takes a channel for a file that has none. -/
theorem RefinesLeases.take (H : RefinesLeases s L) {id : ConnectorId} {x : Option XpcieFilePrivate}
    (htake : Takes side chid id s.dev dev) (hfree : (s.dev.queues side chid).status = .free)
    (hnone : s.owner fd = none) (hx : x.bind XpcieFilePrivate.owned = some (side, chid))
    (hk : ∀ priv, x = some priv → priv.Known) :
    ∃ hr ho, RefinesLeases ⟨dev, Function.update s.files fd x⟩ (L.take fd (side, chid) hr ho) := by
  have hr : (side, chid) ∉ L.used := by
    rw [← H.used, ← status_eq_free_iff]
    exact hfree
  refine ⟨hr, by rw [← H.owner, hnone], ?_, ?_, H.known.update dev fd hk⟩
  · intro side' chid'
    show _ ↔ _ = _ ∨ _
    by_cases he : side' = side ∧ chid' = chid
    · obtain ⟨rfl, rfl⟩ := he
      exact ⟨fun _ => .inl rfl, fun _ => htake.status⟩
    · rw [show (dev.queues side' chid').status = _ from
        congrArg FpgaQueueEnqdeq.status (htake.leaves.queues side' chid' he), H.used]
      exact ⟨.inr, fun h => h.resolve_left fun heq => he (Prod.mk.inj heq)⟩
  · intro g
    rw [owner_update, hx]
    exact congrFun (congrArg (Function.update · fd _) (funext H.owner)) g

/-- A call that puts back the channel that the file has. -/
theorem RefinesLeases.put (H : RefinesLeases s L) {x : Option XpcieFilePrivate}
    (hfrees : Frees side chid s.dev dev) (hown : s.owner fd = some (side, chid))
    (hx : x.bind XpcieFilePrivate.owned = none) (hk : ∀ priv, x = some priv → priv.Known) :
    ∃ ho, RefinesLeases ⟨dev, Function.update s.files fd x⟩ (L.put fd (side, chid) ho) := by
  refine ⟨by rw [← H.owner, hown], ?_, ?_, H.known.update dev fd hk⟩
  · intro side' chid'
    show _ ↔ _ ∧ _
    by_cases he : side' = side ∧ chid' = chid
    · obtain ⟨rfl, rfl⟩ := he
      constructor
      · intro hu
        rw [hfrees.status] at hu
        cases hu
      · intro hne
        exact absurd rfl hne.2
    · rw [show (dev.queues side' chid').status = _ from
        congrArg FpgaQueueEnqdeq.status (hfrees.leaves.queues side' chid' he), H.used]
      exact ⟨fun hu => ⟨hu, fun heq => he (Prod.mk.inj heq)⟩, And.left⟩
  · intro g
    rw [owner_update, hx]
    exact congrFun (congrArg (Function.update · fd _) (funext H.owner)) g

/-! ### The channels of the other files -/

/-- The channels of the other files stay as they are. -/
def Others (s : LldmaSystem) (fd : ℕ) (dev : FpgaDevInfo) : Prop :=
  ∀ g side chid, g ≠ fd → s.owner g = some (side, chid) →
    dev.queues side chid = s.dev.queues side chid ∧
    (dev.regs.bank side chid).ctrl0 = (s.dev.regs.bank side chid).ctrl0

theorem others_self : Others s fd s.dev := fun _ _ _ _ _ => ⟨rfl, rfl⟩

theorem others_of_leaves (hl : Leaves side chid s.dev dev)
    (hne : ∀ g, g ≠ fd → s.owner g ≠ some (side, chid)) : Others s fd dev := by
  intro g side' chid' hg hown
  have hdiff : ¬ (side' = side ∧ chid' = chid) := by
    rintro ⟨rfl, rfl⟩
    exact hne g hg hown
  exact ⟨hl.queues side' chid' hdiff, hl.ctrl0 side' chid' hdiff⟩

/-- Nobody else has the channel of a file. -/
theorem RefinesLeases.owner_ne (H : RefinesLeases s L) (hown : s.owner fd = some (side, chid)) (g : ℕ)
    (hg : g ≠ fd) : s.owner g ≠ some (side, chid) := by
  intro he
  rw [H.owner] at he hown
  exact hg (L.owner_inj he hown)

/-- Nobody has a free channel. -/
theorem RefinesLeases.owner_ne_of_free (H : RefinesLeases s L) (hfree : (s.dev.queues side chid).status = .free)
    (g : ℕ) : s.owner g ≠ some (side, chid) := by
  intro he
  have hused := H.owned.used_of_owner g side chid he
  rw [hfree] at hused
  cases hused

/-- Putting back a free channel changes no status. -/
theorem Frees.status_same {dev' : FpgaDevInfo} (h : Frees side chid dev dev')
    (hfree : (dev.queues side chid).status = .free) (side' : DmaSide) (chid' : Chid) :
    (dev'.queues side' chid').status = (dev.queues side' chid').status := by
  by_cases he : side' = side ∧ chid' = chid
  · obtain ⟨rfl, rfl⟩ := he
    rw [h.status, hfree]
  · rw [h.leaves.queues side' chid' he]

/-! ### The calls -/

/-- `ALLOC_QUEUE`. -/
theorem RefinesLeases.allocQueue (H : RefinesLeases s L) (hf : s.files fd = some priv) {env : CallEnv}
    {q : FpgaIoctlQueue} (hn : Proper s (.cdevIoctl fd env (.allocQueue q)))
    (ht : fileStep s (.cdevIoctl fd env (.allocQueue q)) = some t) :
    (∃ L', RefinesLeases t L') ∧ Others s fd t.dev := by
  have hpriv := H.known fd priv hf
  have hprop := hn priv hf
  simp only [fileStep, hf] at ht
  rcases ioctl_allocQueue_cases s.dev priv env q with
    ⟨e, hr, -⟩ | ⟨side, dev, hfrom, hside, hfree, ⟨hto, htake, hr⟩ | ⟨hto, hput, hr⟩⟩
  · rw [hr] at ht
    cases ht
    refine ⟨⟨L, H.idle (fun _ _ => rfl) (owner_of_file hf).symm ?_⟩, others_self⟩
    rintro _ ⟨⟩
    exact hpriv
  · rw [hr] at ht
    cases ht
    have hnone := XpcieFilePrivate.owned_of_not_get ((hprop hfrom side hside hfree).1 hto)
    obtain ⟨hr', ho, H'⟩ := H.take htake hfree ((owner_of_file hf).trans hnone)
      (x := some (some ⟨q.dir, q.chid, true⟩))
      (by rw [← DmaDir.side_of_queueSide hside]; rfl) (by
        rintro _ ⟨⟩ b ⟨⟩
        rw [DmaDir.anySide_of_queueSide hside, DmaDir.side_of_queueSide hside])
    exact ⟨⟨_, H'⟩, others_of_leaves htake.leaves fun g _ => H.owner_ne_of_free hfree g⟩
  · rw [hr] at ht
    cases ht
    have hfrees : Frees side q.chid s.dev dev := by
      rcases hput with ⟨hto', -⟩ | ⟨-, hfrees⟩
      · exact absurd hto' ((hprop hfrom side hside hfree).2 hto)
      · exact hfrees
    refine ⟨⟨L, H.idle (hfrees.status_same hfree) (owner_of_file hf).symm ?_⟩,
      others_of_leaves hfrees.leaves fun g _ => H.owner_ne_of_free hfree g⟩
    rintro _ ⟨⟩
    exact hpriv

/-- `BIND_QUEUE`. -/
theorem RefinesLeases.bindQueue (H : RefinesLeases s L) (hf : s.files fd = some priv) {env : CallEnv}
    {q : FpgaIoctlQueue} (hn : Proper s (.cdevIoctl fd env (.bindQueue q)))
    (ht : fileStep s (.cdevIoctl fd env (.bindQueue q)) = some t) :
    (∃ L', RefinesLeases t L') ∧ Others s fd t.dev := by
  have hpriv := H.known fd priv hf
  have hprop := hn priv hf
  simp only [fileStep, hf] at ht
  rcases ioctl_bindQueue_cases s.dev priv env q with ⟨e, hr⟩ | ⟨side, chid, hfrom, hto, hfirst, hr⟩
  · rw [hr] at ht
    cases ht
    refine ⟨⟨L, H.idle (fun _ _ => rfl) (owner_of_file hf).symm ?_⟩, others_self⟩
    rintro _ ⟨⟩
    exact hpriv
  · rw [hr] at ht
    cases ht
    refine ⟨⟨L, H.idle (fun _ _ => rfl) ?_ ?_⟩, others_self⟩
    · rw [owner_of_file hf]
      cases hget : priv.isGetQueue with
      | true =>
        rw [hprop hfrom hto hget side chid hfirst]
        simp [XpcieFilePrivate.owned]
      | false => exact (XpcieFilePrivate.owned_of_not_get hget).symm
    · rintro _ ⟨⟩ b ⟨⟩
      cases side <;> rfl

/-- `FREE_QUEUE`. -/
theorem RefinesLeases.freeQueue (H : RefinesLeases s L) (hf : s.files fd = some priv) {env : CallEnv}
    {q : FpgaIoctlQueue} (hn : Proper s (.cdevIoctl fd env (.freeQueue q)))
    (ht : fileStep s (.cdevIoctl fd env (.freeQueue q)) = some t) :
    (∃ L', RefinesLeases t L') ∧ Others s fd t.dev := by
  have hpriv := H.known fd priv hf
  have hprop := hn priv hf
  simp only [fileStep, hf] at ht
  rcases ioctl_freeQueue_cases s.dev priv env hpriv q with
    ⟨e, hr, -⟩ | ⟨b, dev, hfrom, rfl, hb, hcase⟩
  · rw [hr] at ht
    cases ht
    refine ⟨⟨L, H.idle (fun _ _ => rfl) (owner_of_file hf).symm ?_⟩, others_self⟩
    rintro _ ⟨⟩
    exact hpriv
  · have htarget := hprop hfrom b rfl hb
    -- the channel is the file's own, or free
    have hown : s.owner fd = some (q.dir.side, q.chid) ∨
        ((s.dev.queues q.dir.side q.chid).status = .free ∧
          (b.isGetQueue = true → TimesOut env.monitor)) := by
      cases hget : b.isGetQueue with
      | true =>
        rw [if_pos hget] at htarget
        rcases htarget with hchid | ⟨hfree, ht⟩
        · exact .inl (by rw [owner_of_file hf, XpcieFilePrivate.owned_of_get hget, hb, hchid])
        · exact .inr ⟨hfree, fun _ => ht⟩
      | false =>
        rw [if_neg (by rw [hget]; exact Bool.false_ne_true)] at htarget
        exact .inr ⟨htarget, fun h => absurd h Bool.false_ne_true⟩
    have hne : ∀ g, g ≠ fd → s.owner g ≠ some (q.dir.side, q.chid) := by
      rcases hown with hown | ⟨hfree, -⟩
      · exact H.owner_ne hown
      · exact fun g _ => H.owner_ne_of_free hfree g
    rcases hcase with ⟨-, hregs, hr⟩ | ⟨hdrained, hfrees, hr⟩
    · rw [hr] at ht
      cases ht
      refine ⟨⟨L, H.idle (fun _ _ => by rw [hregs.queues]) (owner_of_file hf).symm ?_⟩,
        others_of_leaves hregs.leaves hne⟩
      rintro _ ⟨⟩
      exact hpriv
    · rw [hr] at ht
      cases ht
      have hk : ∀ priv, (some none : Option XpcieFilePrivate) = some priv → priv.Known := by
        rintro _ ⟨⟩ b ⟨⟩
      rcases hown with hown | ⟨hfree, hget⟩
      · obtain ⟨ho, H'⟩ := H.put hfrees hown rfl hk
        exact ⟨⟨_, H'⟩, others_of_leaves hfrees.leaves hne⟩
      · have hnone : s.owner fd = none := by
          rw [owner_of_file hf]
          exact XpcieFilePrivate.owned_of_not_get (Bool.not_eq_true _ ▸ mt hget hdrained)
        exact ⟨⟨L, H.idle (hfrees.status_same hfree) hnone.symm hk⟩,
          others_of_leaves hfrees.leaves hne⟩

/-- `ALLOC_CONNECTION`. -/
theorem RefinesLeases.allocConnection (H : RefinesLeases s L) (hf : s.files fd = some priv) {env : CallEnv}
    {c : FpgaIoctlConnect} (hn : Proper s (.cdevIoctl fd env (.allocConnection c)))
    (ht : fileStep s (.cdevIoctl fd env (.allocConnection c)) = some t) :
    (∃ L', RefinesLeases t L') ∧ Others s fd t.dev := by
  have hpriv := H.known fd priv hf
  have hprop := hn priv hf
  simp only [fileStep, hf] at ht
  rcases ioctl_allocConnection_cases s.dev priv env c with
    ⟨e, hr, -⟩ | ⟨dev, hfrom, hid, haddr, hfree, htake, hr⟩
  · rw [hr] at ht
    cases ht
    refine ⟨⟨L, H.idle (fun _ _ => rfl) (owner_of_file hf).symm ?_⟩, others_self⟩
    rintro _ ⟨⟩
    exact hpriv
  · rw [hr] at ht
    cases ht
    have hnone := XpcieFilePrivate.owned_of_not_get (hprop hfrom hid haddr hfree)
    have hside := c.connectSide_dir
    obtain ⟨hr', ho, H'⟩ := H.take htake hfree ((owner_of_file hf).trans hnone)
      (x := some (some ⟨c.dir, c.selfChid, true⟩))
      (by rw [← DmaDir.side_of_connectSide hside]; rfl) (by
        rintro _ ⟨⟩ b ⟨⟩
        rw [DmaDir.anySide_of_connectSide hside, DmaDir.side_of_connectSide hside])
    exact ⟨⟨_, H'⟩, others_of_leaves htake.leaves fun g _ => H.owner_ne_of_free hfree g⟩

/-- `FREE_CONNECTION`. -/
theorem RefinesLeases.freeConnection (H : RefinesLeases s L) (hf : s.files fd = some priv) {env : CallEnv}
    (ht : fileStep s (.cdevIoctl fd env .freeConnection) = some t) :
    (∃ L', RefinesLeases t L') ∧ Others s fd t.dev := by
  have hpriv := H.known fd priv hf
  simp only [fileStep, hf] at ht
  rcases ioctl_freeConnection_cases s.dev priv env hpriv with ⟨e, -, hr⟩ | ⟨b, dev, rfl, hget, hcase⟩
  · rw [hr] at ht
    cases ht
    refine ⟨⟨L, H.idle (fun _ _ => rfl) (owner_of_file hf).symm ?_⟩, others_self⟩
    rintro _ ⟨⟩
    exact hpriv
  · have hown : s.owner fd = some (b.queKind.side, b.chid) :=
      (owner_of_file hf).trans (XpcieFilePrivate.owned_of_get hget)
    rcases hcase with ⟨-, hregs, hr⟩ | ⟨-, hfrees, hr⟩
    · rw [hr] at ht
      cases ht
      refine ⟨⟨L, H.idle (fun _ _ => by rw [hregs.queues]) (owner_of_file hf).symm ?_⟩,
        others_of_leaves hregs.leaves (H.owner_ne hown)⟩
      rintro _ ⟨⟩
      exact hpriv
    · rw [hr] at ht
      cases ht
      obtain ⟨ho, H'⟩ := H.put hfrees hown (x := some none) rfl (by rintro _ ⟨⟩ b ⟨⟩)
      exact ⟨⟨_, H'⟩, others_of_leaves hfrees.leaves (H.owner_ne hown)⟩

/-- `close`. -/
theorem RefinesLeases.release (H : RefinesLeases s L) (hf : s.files fd = some priv) {monitor : ℕ → BitVec 32}
    (ht : fileStep s (.cdevRelease fd monitor) = some t) :
    (∃ L', RefinesLeases t L') ∧ Others s fd t.dev := by
  have hpriv := H.known fd priv hf
  have hclosed : ∀ b, (none : Option XpcieFilePrivate) = some b → b.Known := by
    rintro _ ⟨⟩
  simp only [fileStep, hf] at ht
  cases ht
  rcases xpcieCdevRelease_cases s.dev priv hpriv monitor with ⟨hget, hr⟩ | ⟨b, rfl, hget, hfrees⟩
  · rw [hr]
    have hnone : s.owner fd = none :=
      (owner_of_file hf).trans (XpcieFilePrivate.owned_of_not_get hget)
    exact ⟨⟨L, H.idle (fun _ _ => rfl) hnone.symm hclosed⟩, others_self⟩
  · have hown : s.owner fd = some (b.queKind.side, b.chid) :=
      (owner_of_file hf).trans (XpcieFilePrivate.owned_of_get hget)
    obtain ⟨ho, H'⟩ := H.put hfrees hown rfl hclosed
    exact ⟨⟨_, H'⟩, others_of_leaves hfrees.leaves (H.owner_ne hown)⟩

/-- **Every proper call keeps the records in agreement** and leaves the channels of the other files
alone. -/
theorem RefinesLeases.step (H : RefinesLeases s L) {op : FileOp} (hn : Proper s op)
    (ht : fileStep s op = some t) : (∃ L', RefinesLeases t L') ∧ Others s op.fd t.dev := by
  cases op with
  | cdevOpen fd =>
    cases hf : s.files fd with
    | some priv => simp [fileStep, hf] at ht
    | none =>
      simp only [fileStep, hf] at ht
      cases ht
      refine ⟨⟨L, H.idle (fun _ _ => rfl) ?_ ?_⟩, others_self⟩
      · rw [LldmaSystem.owner, hf]
        rfl
      · rintro _ ⟨⟩ b ⟨⟩
  | cdevIoctl fd env cmd =>
    cases hf : s.files fd with
    | none => simp [fileStep, hf] at ht
    | some priv =>
      cases cmd with
      | allocQueue q => exact H.allocQueue hf hn ht
      | bindQueue q => exact H.bindQueue hf hn ht
      | freeQueue q => exact H.freeQueue hf hn ht
      | allocConnection c => exact H.allocConnection hf hn ht
      | freeConnection => exact H.freeConnection hf ht
  | cdevRelease fd monitor =>
    cases hf : s.files fd with
    | none => simp [fileStep, hf] at ht
    | some priv => exact H.release hf ht

/-- **Channels have one owner.** In every run of proper calls a channel is marked exactly if
exactly one open file got it, no call changes the record or the running of a channel of another
file, and all channels are free when all files are closed. -/
theorem always_owned (devId : ℕ) (regs : LldmaRegs) (ringPhys : DmaSide → Chid → BitVec 64)
    (ops : List FileOp) (h : Along fileStep Proper (.init devId regs ringPhys) ops) :
    Always fileStep Owned (.init devId regs ringPhys) ops ∧
    Along fileStep Undisturbed (.init devId regs ringPhys) ops := by
  have hstep : ∀ s op t, (∃ L, RefinesLeases s L) → Proper s op → fileStep s op = some t →
      ∃ L, RefinesLeases t L := fun s op t ⟨L, H⟩ hn ht => (H.step hn ht).1
  have hinit : ∃ L, RefinesLeases (.init devId regs ringPhys) L := ⟨_, refines_init devId regs ringPhys⟩
  constructor
  · exact (always_of_along hstep hinit h).mono fun s ⟨L, H⟩ => H.owned
  · refine along_of_along hstep (fun s op t ⟨L, H⟩ hn ht t' ht' fd side chid hfd hown => ?_) hinit h
    exact (H.step hn ht').2 fd side chid hfd hown

/-- A file takes or binds a channel while it got none, and frees the one that it got. -/
def oneEach (s : LldmaSystem) : FileOp → Bool
  | .cdevIoctl fd env (.allocQueue _) => env.copyToUser && (s.owner fd).isNone
  | .cdevIoctl fd _ (.bindQueue _) => (s.owner fd).isNone
  | .cdevIoctl fd _ (.freeQueue q) => (s.owner fd).any fun c => c.2 = q.chid
  | .cdevIoctl _ _ (.allocConnection _) => false
  | _ => true

theorem isGetQueue_of_owned {priv : XpcieFilePrivate} (h : priv.owned.isNone = true) :
    priv.isGetQueue = false := by
  obtain _ | ⟨queKind, chid, isGetQueue⟩ := priv
  · rfl
  · cases isGetQueue
    · rfl
    · cases h

theorem proper_of_oneEach {s : LldmaSystem} {op : FileOp} (h : oneEach s op = true) : Proper s op := by
  cases op with
  | cdevOpen => trivial
  | cdevRelease => trivial
  | cdevIoctl fd env cmd =>
    intro priv hpriv
    have howner : s.owner fd = priv.owned := by rw [LldmaSystem.owner, hpriv]; rfl
    cases cmd with
    | allocQueue q =>
      obtain ⟨hto, hnone⟩ := Bool.and_eq_true_iff.mp h
      rw [howner] at hnone
      exact fun _ _ _ _ => ⟨fun _ => isGetQueue_of_owned hnone, fun hnot => by rw [hto] at hnot; cases hnot⟩
    | bindQueue q =>
      intro _ _ hget
      have hnone : priv.owned.isNone = true := howner ▸ h
      rw [isGetQueue_of_owned hnone] at hget
      cases hget
    | freeQueue q =>
      rintro - b rfl -
      have hany : (XpcieFilePrivate.owned (some b)).any (fun c => c.2 = q.chid) = true := howner ▸ h
      obtain ⟨queKind, chid, isGetQueue⟩ := b
      cases isGetQueue with
      | false => cases hany
      | true => exact .inl (of_decide_eq_true hany).symm
    | allocConnection c => cases h
    | freeConnection => trivial

/-- Two files take a channel each, in one direction. The first frees its channel, on which a third takes
it, and the second is closed. -/
def threeFiles (first second : Chid) : List FileOp :=
  [.cdevOpen 0, .cdevOpen 1, .cdevIoctl 0 .quiet (.allocQueue ⟨.hostToDev, first, 0, .empty⟩),
    .cdevIoctl 1 .quiet (.allocQueue ⟨.hostToDev, second, 0, .empty⟩),
    .cdevIoctl 0 .quiet (.freeQueue ⟨.hostToDev, first, 0, .empty⟩), .cdevOpen 2,
    .cdevIoctl 2 .quiet (.allocQueue ⟨.hostToDev, first, 0, .empty⟩), .cdevRelease 1 fun _ => 0]

/-- At the end the third file has the channel of the first, and that of the second is free. -/
theorem always_owned_three :
    Along fileStep Proper (.init 0 (.reset 3 3) fun _ _ => 0) (threeFiles 0 1) ∧
    (Always fileStep Owned (.init 0 (.reset 3 3) fun _ _ => 0) (threeFiles 0 1) ∧
      Along fileStep Undisturbed (.init 0 (.reset 3 3) fun _ _ => 0) (threeFiles 0 1)) ∧
    (run fileStep (.init 0 (.reset 3 3) fun _ _ => 0) (threeFiles 0 1)).map (fun t =>
        (t.owner 0, t.owner 1, t.owner 2, (t.dev.queues .rx 0).status, (t.dev.queues .rx 1).status)) =
      some (none, none, some (.rx, 0), .used, .free) := by
  have heach : Along fileStep (fun s op => oneEach s op = true) (.init 0 (.reset 3 3) fun _ _ => 0)
      (threeFiles 0 1) := by decide +kernel
  have h : Along fileStep Proper (.init 0 (.reset 3 3) fun _ _ => 0) (threeFiles 0 1) :=
    along_of_along (I := fun _ => True) (fun _ _ _ _ _ _ => trivial)
      (fun _ _ _ _ hone _ => proper_of_oneEach hone) trivial heach
  exact ⟨h, always_owned _ _ _ _ h, by decide +kernel⟩

/-- A file that got channel `0` frees channel `1`, which another file got: only the direction is
compared. -/
theorem not_always_owned :
    ¬ ∀ ops, Always fileStep Owned (.init 0 (.reset 3 3) fun _ _ => 0) ops := by
  intro h
  let ops : List FileOp := [.cdevOpen 0, .cdevOpen 1,
    .cdevIoctl 0 .quiet (.allocQueue ⟨.hostToDev, 0, 0, .empty⟩),
    .cdevIoctl 1 .quiet (.allocQueue ⟨.hostToDev, 1, 0, .empty⟩),
    .cdevIoctl 0 .quiet (.freeQueue ⟨.hostToDev, 1, 0, .empty⟩)]
  have hrun : ((run fileStep (.init 0 (.reset 3 3) fun _ _ => 0) ops).map fun t =>
      (t.owner 1, (t.dev.queues .rx 1).status)) = some (some (.rx, 1), .free) := by decide
  obtain ⟨t, ht, he⟩ := Option.map_eq_some_iff.mp hrun
  obtain ⟨hown, hst⟩ := Prod.mk.inj he
  have hused := ((h ops).last ht).used_of_owner 1 .rx 1 hown
  rw [hst] at hused
  cases hused

end HardwareDrivers.Driver
