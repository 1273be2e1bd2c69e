import HardwareDrivers.Libptu.PtuDev
import Mathlib.Data.Fintype.Basic

/-!
# What the socket table keeps

The hardware gives a new connection a cid that no connection has, and a connection has
its cid until it is released. The event thread acts on the entry of the four-tuple of
an event without looking at the cid of the entry, releases the cid once for each
closing factor, and `abort` takes the cid of any entry, that of a requested connection
included, and gives its command after it has dropped the lock.

## What is proved

* `Inv.step` — what every orderly step keeps.
* `socketTable_sound` — in every run whose steps are orderly the established entries
  have cids of their own, which were not released; an event releases its cid at most
  once, and removes no entry of a newer connection; and the cid of an `ABORT` is that
  of an established connection that was not released.
* `not_socketTable_sound` — events that merge, a four-tuple that is used again, and a
  `disconnect` of a connection that is requested or closed meanwhile break that.
-/

namespace HardwareDrivers.Libptu

open Theory

variable {ι : Type}

/-! ### What is promised -/

/-- How often the event thread has released the cid of its event. -/
def EvtPoint.releases : EvtPoint → ℕ
  | .idle => 0
  | .handling _ _ _ n | .releasing _ _ _ n => n

/-- The table as it is promised. -/
structure TableOk (s : PtuState ι) : Prop where
  /-- No event released its cid twice. -/
  once : s.evt.releases ≤ 1
  /-- No two established entries have one cid. -/
  distinct : ∀ info info' conn conn', s.socks.lookup info = some conn →
    s.socks.lookup info' = some conn' → conn.state = .established →
    conn'.state = .established → conn.cid = conn'.cid → info = info'
  /-- The connection of an established entry has the cid still. -/
  unreleased : ∀ info conn, s.socks.lookup info = some conn → conn.state = .established →
    s.inUse conn.cid = some (s.owner info)

/-- The connection whose event is handled. -/
def EvtPoint.conn : EvtPoint → Option ℕ
  | .idle => none
  | .handling k .. | .releasing k .. => some k

/-! ### What is assumed -/

/-- The hardware gives a new connection a cid that is not in use. -/
def CidFree (s : PtuState ι) : PtuAct ι → Prop
  | .newConn conn => s.inUse conn.cid = none
  | _ => True

/-- The closing factors of a list. -/
def closers (es : List TcpEve) : ℕ := es.countP (·.effect = .close)

/-- The cid that the thread is about to abort. -/
def Point.aborts : Point → Option (BitVec 16)
  | .aborting cid => some (cid.setWidth 16)
  | _ => none

/-- The entry of the four-tuple of the event, if there is one, is not of a newer connection. -/
def PtuState.NotNewer (s : PtuState ι) (k : ℕ) (evt : PtuTcpEvt) : Prop :=
  evt.info ∈ s.socks → s.owner evt.info ≤ k

/-- There is an established entry with the cid. -/
def hasEstablished (socks : Socks) (cid : BitVec 32) : Bool :=
  socks.entries.any fun sock => sock.2.cid.setWidth 32 = cid && sock.2.state = .established

/-- What a factor does is right. -/
def FactorOrderly (s : PtuState ι) (k : ℕ) (evt : PtuTcpEvt) : TcpEve.Effect → Prop
  | .log => True
  | .establish => s.inUse evt.cid = some k ∧ s.NotNewer k evt
  | .close => s.NotNewer k evt

/-- What the event thread does next is right. -/
def EvtOrderly (s : PtuState ι) : EvtPoint → Prop
  | .idle | .handling _ _ [] _ => True
  | .handling k evt (e :: _) _ => FactorOrderly s k evt e.effect
  | .releasing k evt _ _ =>
    (∀ k' ∈ s.inUse evt.cid, k' = k) ∧ ∀ i, (s.callers i).aborts ≠ some evt.cid

/-- The step is right: an event has at most one closing factor; what is established was not
released, and the entry that is replaced or erased is not of a newer connection; the cid that is
released was not given to another connection, and no thread is about to abort it; and the cid that
`abort` finds is that of an established entry. -/
def Orderly (s : PtuState ι) : PtuAct ι → Prop
  | .event _ factor => closers (TcpEve.factors factor) ≤ 1
  | .evt => EvtOrderly s s.evt
  | .next i =>
    match s.callers i with
    | .abort cid => hasCid s.socks cid → hasEstablished s.socks cid
    | _ => True
  | _ => True

/-! ### What every orderly step keeps -/

/-- A connection that is established and has its cid. -/
structure Current (conns : List Conn) (inUse : BitVec 16 → Option ℕ) (established : List ℕ) (k : ℕ)
    (conn : Conn) : Prop where
  /-- The hardware knows the connection. -/
  known : conns[k]? = some conn
  /-- It has the cid. -/
  inUse : inUse conn.cid = some k
  /-- Its establishment was handled. -/
  established : k ∈ established

/-- The event is one of a connection, and is not released twice. -/
def EvtSound (s : PtuState ι) : EvtPoint → Prop
  | .idle => True
  | .handling k evt rest n => s.conns[k]? = some ⟨evt.cid, evt.info⟩ ∧ n + closers rest ≤ 1
  | .releasing k evt rest n =>
    s.conns[k]? = some ⟨evt.cid, evt.info⟩ ∧ n + 1 + closers rest ≤ 1 ∧ evt.info ∉ s.socks

/-- What every orderly step keeps. -/
structure Inv (s : PtuState ι) : Prop where
  /-- At most one thread holds the mutex of the table. -/
  locked : Locked s
  /-- The established entries are of connections that have their cids. -/
  entries : ∀ info conn, s.socks.lookup info = some conn → conn.state = .established →
    Current s.conns s.inUse s.established (s.owner info) ⟨conn.cid, info⟩
  /-- The event that is handled. -/
  evt : EvtSound s s.evt
  /-- What is about to be aborted is established and has its cid. -/
  aborting : ∀ i, ∀ cid ∈ (s.callers i).aborts, ∃ k ∈ s.inUse cid, k ∈ s.established

variable {s t : PtuState ι}

/-- The invariant gives what is promised of the table. -/
theorem Inv.tableOk (hs : Inv s) : TableOk s := by
  refine ⟨?_, fun info info' conn conn' hinfo hinfo' hest hest' hcid => ?_, fun info conn h hest =>
    (hs.entries info conn h hest).inUse⟩
  · have hevt := hs.evt
    unfold EvtSound at hevt
    unfold EvtPoint.releases
    split at hevt <;> omega
  · have h := hs.entries info conn hinfo hest
    have h' := hs.entries info' conn' hinfo' hest'
    have howner : s.owner info = s.owner info' :=
      Option.some.inj (h.inUse.symm.trans (hcid ▸ h'.inUse))
    have hconn := h.known.symm.trans (howner ▸ h'.known)
    exact (Conn.mk.inj (Option.some.inj hconn)).2

theorem closers_cons_close {e : TcpEve} (he : e.effect = .close) (es : List TcpEve) :
    closers (e :: es) = closers es + 1 :=
  List.countP_cons_of_pos (by simpa using he)

theorem closers_cons_of_ne {e : TcpEve} (he : e.effect ≠ .close) (es : List TcpEve) :
    closers (e :: es) = closers es :=
  List.countP_cons_of_neg (by simpa using he)

theorem Point.aborts_see (p : Point) (info : SockInfo) : (p.see info).aborts = p.aborts := by
  cases p <;> rfl

theorem Point.aborts_of_isPlain {p : Point} (h : p.isPlain) : p.aborts = none := by
  cases p <;> first | rfl | cases h

/-- A step of the event thread. -/
theorem Inv.evtStep (hs : Inv s) (hcond : EvtOrderly s s.evt) (h : EvtOutcome s t) : Inv t := by
  have hlocked := hs.locked.evt h
  have hevt := hs.evt
  cases h with
  | ended k evt n hpoint => exact ⟨hlocked, hs.entries, trivial, hs.aborting⟩
  | logged k evt e rest n hpoint he =>
    rw [hpoint] at hevt
    obtain ⟨hconn, hle⟩ := hevt
    rw [closers_cons_of_ne (by rw [he]; decide)] at hle
    exact ⟨hlocked, hs.entries, ⟨hconn, hle⟩, hs.aborting⟩
  | established k evt e rest n hpoint he hlock =>
    rw [hpoint] at hevt hcond
    obtain ⟨hconn, hle⟩ := hevt
    rw [closers_cons_of_ne (by rw [he]; decide)] at hle
    simp only [EvtOrderly, FactorOrderly, he] at hcond
    refine ⟨hlocked, fun info conn hinfo hest => ?_, ⟨hconn, hle⟩, fun i cid hcid => ?_⟩
    · change (s.establish k evt).socks.lookup info = some conn at hinfo
      change Current s.conns s.inUse (k :: s.established) (Function.update s.owner evt.info k info) _
      rw [lookup_establish] at hinfo
      split at hinfo
      · next heq =>
        subst heq
        cases hinfo
        rw [Function.update_self]
        exact ⟨hconn, hcond.1, List.mem_cons_self ..⟩
      · next hne =>
        rw [Function.update_of_ne hne]
        have hold := hs.entries info conn hinfo hest
        exact ⟨hold.known, hold.inUse, List.mem_cons_of_mem _ hold.established⟩
    · obtain ⟨k', hk', hmem⟩ := hs.aborting i cid (Point.aborts_see .. ▸ hcid)
      exact ⟨k', hk', List.mem_cons_of_mem _ hmem⟩
  | closed k evt e rest n hpoint he hlock =>
    rw [hpoint] at hevt
    obtain ⟨hconn, hle⟩ := hevt
    rw [closers_cons_close he] at hle
    refine ⟨hlocked, fun info conn hinfo hest => ?_, ⟨hconn, by omega, ?_⟩, hs.aborting⟩
    · change (s.close k evt).socks.lookup info = some conn at hinfo
      rw [lookup_close] at hinfo
      split at hinfo
      · cases hinfo
      · exact hs.entries info conn hinfo hest
    · have hnone := lookup_close s k evt evt.info
      rw [if_pos rfl] at hnone
      exact AList.lookup_eq_none.mp hnone
  | released k evt rest n hpoint =>
    rw [hpoint] at hevt hcond
    obtain ⟨hconn, hle, hgone⟩ := hevt
    obtain ⟨hcid, hnobody⟩ := hcond
    refine ⟨hlocked, fun info conn hinfo hest => ?_, ⟨hconn, hle⟩, fun i cid hi => ?_⟩
    · replace hinfo : s.socks.lookup info = some conn := hinfo
      have hold := hs.entries info conn hinfo hest
      refine ⟨hold.known, ?_, hold.established⟩
      have hne : conn.cid ≠ evt.cid := by
        -- an entry with the cid is of the connection of the event, whose entry is erased
        intro heq
        have howner := hcid _ (heq ▸ hold.inUse)
        have hsame := hold.known.symm.trans ((congrArg (s.conns[·]?) howner).trans hconn)
        rw [(Conn.mk.inj (Option.some.inj hsame)).2] at hinfo
        exact hgone (AList.lookup_isSome.mp (by rw [hinfo]; rfl))
      exact (Function.update_of_ne hne ..).trans hold.inUse
    · obtain ⟨k', hk', hmem⟩ := hs.aborting i cid hi
      have hne : cid ≠ evt.cid := fun heq => hnobody i (heq ▸ hi)
      exact ⟨k', (Function.update_of_ne hne ..).trans hk', hmem⟩

/-! ### All steps -/

variable [DecidableEq ι]

/-- A step as it is promised. -/
structure StepOk (s : PtuState ι) (a : PtuAct ι) : Prop where
  /-- An event removes no entry of a newer connection. -/
  older : a = .evt → ∀ t, ptuStep s a = some t → ∀ k ∈ s.evt.conn, ∀ info conn,
    s.socks.lookup info = some conn → t.socks.lookup info ≠ some conn → s.owner info ≤ k
  /-- `ABORT` is for an established connection that was not released. -/
  aborts : ∀ t, ptuStep s a = some t → ∀ cid, t.commands = .abort cid :: s.commands →
    ∃ k ∈ s.inUse cid, k ∈ s.established

theorem aborts_goto {i j : ι} {p : Point} (hp : p.isPlain) {cid : BitVec 16}
    (h : cid ∈ (Function.update s.callers i p j).aborts) : cid ∈ (s.callers j).aborts := by
  rcases update_cases (fun p : Point => cid ∈ p.aborts) h with ⟨-, h⟩ | ⟨-, h⟩
  · rw [Point.aborts_of_isPlain hp] at h
    cases h
  · exact h

omit [DecidableEq ι] in
/-- The cid of an established entry is that of an established connection. -/
theorem Inv.hasEstablished (hs : Inv s) {cid : BitVec 32} (h : hasEstablished s.socks cid) :
    ∃ k ∈ s.inUse (cid.setWidth 16), k ∈ s.established := by
  obtain ⟨⟨info, conn⟩, hmem, hconn⟩ := List.any_eq_true.mp h
  simp only [Bool.and_eq_true, decide_eq_true_eq] at hconn
  obtain ⟨hcid, hest⟩ := hconn
  have hcur := hs.entries info conn (AList.mem_lookup_iff.mpr hmem) hest
  have hwidth : cid.setWidth 16 = conn.cid := by
    rw [← hcid, BitVec.setWidth_setWidth_of_le _ (by decide), BitVec.setWidth_eq]
  exact ⟨_, hwidth ▸ hcur.inUse, hcur.established⟩

/-- A step of a call. -/
theorem Inv.next {i : ι} (hs : Inv s) (hcond : Orderly s (.next i)) (h : NextOutcome s i t) :
    Inv t := by
  have hlocked := hs.locked.next h
  have hevt := hs.evt
  cases h with
  | accepts t h =>
    obtain ⟨p, accepted, hp, rfl⟩ := h.eq
    exact ⟨hlocked, hs.entries, hevt, fun j cid hcid => hs.aborting j cid (aborts_goto hp hcid)⟩
  | moved p hi hp hnone =>
    exact ⟨hlocked, hs.entries, hevt, fun j cid hcid => hs.aborting j cid (aborts_goto hp hcid)⟩
  | requested w hi hlock hnew =>
    refine ⟨hlocked, fun info conn hinfo hest => ?_, ?_, fun j cid hcid =>
      hs.aborting j cid ?_⟩
    · change (s.request w.info).socks.lookup info = some conn at hinfo
      change Current s.conns s.inUse s.established
        (Function.update s.owner w.info s.conns.length info) _
      rw [lookup_request] at hinfo
      split at hinfo
      · cases hinfo
        cases hest
      · next hne =>
        rw [Function.update_of_ne hne]
        exact hs.entries info conn hinfo hest
    · change EvtSound _ s.evt
      cases hpoint : s.evt with
      | idle => trivial
      | handling k evt rest n => rw [hpoint] at hevt; exact hevt
      | releasing k evt rest n =>
        -- the event thread would hold the mutex
        have hheld := hs.locked.held none (by rw [PtuState.Holds, hpoint]; rfl)
        rw [hlock] at hheld
        cases hheld
    · rcases update_cases (fun p : Point => cid ∈ p.aborts) hcid with ⟨-, h⟩ | ⟨-, h⟩
      · cases h
      · exact h
  | opened w p hi hp hnone =>
    exact ⟨hlocked, hs.entries, hevt, fun j cid hcid => hs.aborting j cid (aborts_goto hp hcid)⟩
  | found cid hi hfound =>
    refine ⟨hlocked, hs.entries, hevt, fun j cid' hcid => ?_⟩
    rcases update_cases (fun p : Point => cid' ∈ p.aborts) hcid with ⟨-, h⟩ | ⟨-, h⟩
    · cases h
      simp only [Orderly, hi] at hcond
      exact hs.hasEstablished (hcond hfound)
    · exact hs.aborting j cid' h
  | aborted cid hi =>
    exact ⟨hlocked, hs.entries, hevt, fun j cid' hcid => hs.aborting j cid' (aborts_goto rfl hcid)⟩

/-- What every orderly step keeps. -/
theorem Inv.step {a : PtuAct ι} (hs : Inv s) (hfree : CidFree s a) (hcond : Orderly s a)
    (h : ptuStep s a = some t) : Inv t := by
  have hlocked := hs.locked.step h
  cases ptuStep_cases h with
  | newConn conn =>
    have hconns : ∀ {k c}, s.conns[k]? = some c → (s.conns ++ [conn])[k]? = some c := fun hk => by
      rw [List.getElem?_append_left (List.getElem?_eq_some_iff.mp hk).1, hk]
    have hinUse : ∀ {cid k}, s.inUse cid = some k →
        Function.update s.inUse conn.cid (some s.conns.length) cid = some k := fun hk => by
      rw [Function.update_of_ne, hk]
      rintro rfl
      cases hfree.symm.trans hk
    refine ⟨hlocked, fun info c hinfo hest => ?_, ?_, fun i cid hcid => ?_⟩
    · have hold := hs.entries info c hinfo hest
      exact ⟨hconns hold.known, hinUse hold.inUse, hold.established⟩
    · have hevt := hs.evt
      change EvtSound _ s.evt
      cases hpoint : s.evt with
      | idle => trivial
      | handling k evt rest n => rw [hpoint] at hevt; exact ⟨hconns hevt.1, hevt.2⟩
      | releasing k evt rest n => rw [hpoint] at hevt; exact ⟨hconns hevt.1, hevt.2⟩
    · obtain ⟨k, hk, hmem⟩ := hs.aborting i cid hcid
      exact ⟨k, hinUse hk, hmem⟩
  | event k factor conn evt hevt hconn hcid hinfo =>
    refine ⟨hlocked, hs.entries, ⟨?_, ?_⟩, hs.aborting⟩
    · rw [hcid, hinfo]
      exact hconn
    · rw [Nat.zero_add]
      exact hcond
  | evt t h => exact hs.evtStep hcond h
  | called _ i p listenSocks commands hfree' hp hcommands =>
    exact ⟨hlocked, hs.entries, hs.evt, fun j cid hcid =>
      hs.aborting j cid (aborts_goto hp.isPlain hcid)⟩
  | next i t h => exact hs.next hcond h
  | tick => exact ⟨hlocked, hs.entries, hs.evt, hs.aborting⟩

omit [DecidableEq ι] in
theorem Inv.init (ipAddr : BitVec 32) : Inv (PtuState.init ι ipAddr) :=
  ⟨Locked.init ipAddr, fun _ _ h => (by cases h), trivial, fun _ _ h => (by cases h)⟩

omit [DecidableEq ι] in
/-- The event thread removes no entry of a newer connection. -/
theorem older_of_evtOrderly (hcond : EvtOrderly s s.evt) (h : EvtOutcome s t) {k : ℕ}
    (hk : k ∈ s.evt.conn) {info : SockInfo} {conn : PtuTcpConn}
    (hs : s.socks.lookup info = some conn) (ht : t.socks.lookup info ≠ some conn) :
    s.owner info ≤ k := by
  cases h with
  | ended k evt n hpoint => exact absurd hs ht
  | logged k evt e rest n hpoint he => exact absurd hs ht
  | established k evt e rest n hpoint he hlock =>
    rw [hpoint] at hcond hk
    cases hk
    simp only [EvtOrderly, FactorOrderly, he] at hcond
    change (s.establish k evt).socks.lookup info ≠ some conn at ht
    rw [lookup_establish] at ht
    split at ht
    · next heq =>
      subst heq
      exact hcond.2 (AList.lookup_isSome.mp (by rw [hs]; rfl))
    · exact absurd hs ht
  | closed k evt e rest n hpoint he hlock =>
    rw [hpoint] at hcond hk
    cases hk
    simp only [EvtOrderly, FactorOrderly, he] at hcond
    change (s.close k evt).socks.lookup info ≠ some conn at ht
    rw [lookup_close] at ht
    split at ht
    · next heq =>
      subst heq
      exact hcond (AList.lookup_isSome.mp (by rw [hs]; rfl))
    · exact absurd hs ht
  | released k evt rest n hpoint => exact absurd hs ht

/-- An orderly step does as promised. -/
theorem Inv.stepOk {a : PtuAct ι} (hs : Inv s) (hcond : Orderly s a) : StepOk s a := by
  refine ⟨?_, fun t h cid hcommands => ?_⟩
  · rintro rfl t h k hk info conn hinfo hne
    exact older_of_evtOrderly hcond (evtStep_cases h) hk hinfo hne
  · have hself : s.commands ≠ .abort cid :: s.commands := (List.cons_ne_self _ _).symm
    cases ptuStep_cases h with
    | newConn conn => exact absurd hcommands hself
    | event k factor conn evt hevt hconn hcid hinfo => exact absurd hcommands hself
    | evt t h =>
      cases h with
      | released k evt rest n hpoint => cases hcommands
      | _ => exact absurd hcommands hself
    | called _ i p listenSocks commands hfree hp hne => exact absurd hcommands (hne cid)
    | next i t h =>
      cases h with
      | accepts t h =>
        obtain ⟨p, accepted, hp, rfl⟩ := h.eq
        exact absurd hcommands hself
      | moved p hi hp hnone => exact absurd hcommands hself
      | requested w hi hlock hnew => exact absurd hcommands hself
      | opened w p hi hp hnone => cases hcommands
      | found cid' hi hfound => exact absurd hcommands hself
      | aborted cid' hi =>
        cases hcommands
        exact hs.aborting i _ (by rw [hi]; rfl)
    | tick => exact absurd hcommands hself

/-- In every run of the hardware, the event thread and any number of callers whose steps are
orderly, the table and the commands are as promised. -/
theorem socketTable_sound (ipAddr : BitVec 32) (acts : List (PtuAct ι))
    (hfree : Along ptuStep CidFree (PtuState.init ι ipAddr) acts)
    (horderly : Along ptuStep Orderly (PtuState.init ι ipAddr) acts) :
    Always ptuStep TableOk (PtuState.init ι ipAddr) acts ∧
      Along ptuStep StepOk (PtuState.init ι ipAddr) acts := by
  have hboth : Along ptuStep (fun s a => CidFree s a ∧ Orderly s a) (PtuState.init ι ipAddr) acts :=
    along_and.mpr ⟨hfree, horderly⟩
  have hstep : ∀ (s : PtuState ι) a t, Inv s → CidFree s a ∧ Orderly s a → ptuStep s a = some t →
      Inv t := fun s a t hs hcond h => hs.step hcond.1 hcond.2 h
  exact ⟨(always_of_along hstep (Inv.init ipAddr) hboth).mono fun s hs => hs.tableOk,
    along_of_along hstep (fun s a t hs hcond _ => hs.stepOk hcond.2) (Inv.init ipAddr) hboth⟩

/-! ### Where the code is wrong -/

instance [Fintype ι] (s : PtuState ι) : ∀ e, Decidable (EvtOrderly s e)
  | .idle | .handling _ _ [] _ => isTrue trivial
  | .handling k evt (e :: _) _ =>
    match h : e.effect with
    | .log => decidable_of_iff True (by simp only [EvtOrderly, FactorOrderly, h])
    | .establish => decidable_of_iff (s.inUse evt.cid = some k ∧
        (evt.info ∈ s.socks → s.owner evt.info ≤ k))
        (by simp only [EvtOrderly, FactorOrderly, PtuState.NotNewer, h])
    | .close => decidable_of_iff (evt.info ∈ s.socks → s.owner evt.info ≤ k)
        (by simp only [EvtOrderly, FactorOrderly, PtuState.NotNewer, h])
  | .releasing k evt _ _ => inferInstanceAs (Decidable
      ((∀ k' ∈ s.inUse evt.cid, k' = k) ∧ ∀ i, (s.callers i).aborts ≠ some evt.cid))

instance [Fintype ι] (s : PtuState ι) : ∀ a, Decidable (Orderly s a)
  | .event _ factor => inferInstanceAs (Decidable (closers (TcpEve.factors factor) ≤ 1))
  | .evt => inferInstanceAs (Decidable (EvtOrderly s s.evt))
  | .next i =>
    match h : s.callers i with
    | .abort cid => decidable_of_iff (hasCid s.socks cid → hasEstablished s.socks cid)
        (by simp only [Orderly, h])
    | .idle | .returned .. | .accept _ | .acceptListen _ | .acceptWait _ | .acceptWaiting .. |
      .connect _ | .connectOpen _ | .connectWaiting .. | .aborting _ =>
      isTrue (by simp only [Orderly, h])
  | .newConn _ | .listen .. | .listenClose .. | .accept .. | .connect .. | .disconnect .. | .tick _ =>
    isTrue trivial

omit [DecidableEq ι] in
instance (s : PtuState ι) : ∀ a, Decidable (CidFree s a)
  | .newConn conn => inferInstanceAs (Decidable (s.inUse conn.cid = none))
  | .event .. | .evt | .listen .. | .listenClose .. | .accept .. | .connect .. | .disconnect .. |
    .next _ | .tick _ => isTrue trivial

/-- A peer and its four-tuple. -/
def somePeer : SockInfo := ⟨0, 80, 0x0a000001, 4000⟩

/-- A connection of the peer is made and established. -/
def establishRun (k : ℕ) (cid : BitVec 16) : List (PtuAct Bool) :=
  [.newConn ⟨cid, somePeer⟩, .event k TcpEve.established.bit, .evt, .evt]

/-- The peer sends `RST` while it disconnects. -/
def mergedRun : List (PtuAct Bool) :=
  establishRun 0 1 ++
    [.event 0 (TcpEve.disconnect.bit ||| TcpEve.recvRst.bit), .evt, .evt, .evt, .evt]

/-- The peer connects anew, and then the end of its first connection is reported. -/
def reconnectedRun : List (PtuAct Bool) :=
  establishRun 0 1 ++ establishRun 1 2 ++ [.event 0 TcpEve.disconnect.bit]

/-- `disconnect` of cid 0 while a connection is requested. -/
def pendingRun : List (PtuAct Bool) :=
  [.connect false 80 0x0a000001 4000 none, .next false, .next false, .disconnect true 0, .next true]

/-- The connection is released after `disconnect` has found its cid. -/
def lateRun : List (PtuAct Bool) :=
  establishRun 0 1 ++ [.disconnect true 1, .next true] ++
    [.event 0 TcpEve.disconnect.bit, .evt, .evt, .evt]

/-- The states before and after the step that follows a run. -/
def lastStep (acts : List (PtuAct Bool)) (a : PtuAct Bool) :
    Option (PtuState Bool × PtuState Bool) :=
  (run ptuStep (PtuState.init Bool 0) acts).bind fun s => (ptuStep s a).map fun t => (s, t)

/-- A step that does not do as promised. -/
theorem not_along_stepOk {acts : List (PtuAct Bool)} {a : PtuAct Bool}
    (p : PtuState Bool × PtuState Bool → Bool) (hp : (lastStep acts a).any p)
    (hbad : ∀ s t, ptuStep s a = some t → p (s, t) → ¬ StepOk s a) :
    ¬ Along ptuStep StepOk (PtuState.init Bool 0) (acts ++ [a]) := by
  intro h
  obtain ⟨⟨s, t⟩, hlast, hpst⟩ := Option.any_eq_true _ _ |>.mp hp
  obtain ⟨u, hrun, hu⟩ := Option.bind_eq_some_iff.mp hlast
  obtain ⟨v, hstep, heq⟩ := Option.map_eq_some_iff.mp hu
  cases heq
  exact hbad _ _ hstep hpst (h.of_run hrun hstep)

/-- A cid is aborted that no connection has. -/
def abortsUnused (cid : BitVec 16) (st : PtuState Bool × PtuState Bool) : Bool :=
  st.2.commands = .abort cid :: st.1.commands ∧ st.1.inUse cid = none

theorem not_stepOk_of_abortsUnused {cid : BitVec 16} {s t : PtuState Bool} {a : PtuAct Bool}
    (h : ptuStep s a = some t) (hst : abortsUnused cid (s, t)) : ¬ StepOk s a := by
  intro hok
  obtain ⟨hcommands, hnone⟩ := of_decide_eq_true hst
  obtain ⟨k, hk, -⟩ := hok.aborts t h cid hcommands
  cases hnone.symm.trans hk

/-- Events that merge, a four-tuple that is used again, and a `disconnect` of a connection that is
requested or that is closed meanwhile each break what is promised. -/
theorem not_socketTable_sound :
    (Along ptuStep CidFree (PtuState.init Bool 0) mergedRun ∧
      ¬ Always ptuStep TableOk (PtuState.init Bool 0) mergedRun) ∧
    (Along ptuStep CidFree (PtuState.init Bool 0) (reconnectedRun ++ [.evt]) ∧
      ¬ Along ptuStep StepOk (PtuState.init Bool 0) (reconnectedRun ++ [.evt])) ∧
    (Along ptuStep CidFree (PtuState.init Bool 0) (pendingRun ++ [.next true]) ∧
      ¬ Along ptuStep StepOk (PtuState.init Bool 0) (pendingRun ++ [.next true])) ∧
    (Along ptuStep CidFree (PtuState.init Bool 0) (lateRun ++ [.next true]) ∧
      ¬ Along ptuStep StepOk (PtuState.init Bool 0) (lateRun ++ [.next true])) := by
  refine ⟨⟨by decide +kernel, fun h => ?_⟩, ⟨by decide +kernel, ?_⟩, ⟨by decide +kernel, ?_⟩,
    ⟨by decide +kernel, ?_⟩⟩
  · have htwice : (run ptuStep (PtuState.init Bool 0) mergedRun).any (1 < ·.evt.releases) = true := by
      decide +kernel
    obtain ⟨s, hs, hlt⟩ := Option.any_eq_true _ _ |>.mp htwice
    exact absurd (h.last hs).once (Nat.not_le.mpr (of_decide_eq_true hlt))
  · refine not_along_stepOk (fun st => st.1.evt.conn = some 0 ∧ st.1.owner somePeer = 1 ∧
      (st.1.socks.lookup somePeer).isSome ∧ st.2.socks.lookup somePeer = none) (by decide +kernel)
      fun s t h hst hok => ?_
    obtain ⟨hconn, howner, hsome, hnone⟩ := of_decide_eq_true hst
    obtain ⟨conn, hlookup⟩ := Option.isSome_iff_exists.mp hsome
    have hle := hok.older rfl t h 0 hconn somePeer conn hlookup (by rw [hnone]; simp)
    rw [howner] at hle
    cases hle
  · exact not_along_stepOk (abortsUnused 0) (by decide +kernel) fun _ _ =>
      not_stepOk_of_abortsUnused
  · exact not_along_stepOk (abortsUnused 1) (by decide +kernel) fun _ _ =>
      not_stepOk_of_abortsUnused

/-- A connection is made, established and closed; the cid is used again, and the new connection is
disconnected. -/
def orderlyRun : List (PtuAct Bool) :=
  establishRun 0 1 ++ [.event 0 TcpEve.disconnect.bit, .evt, .evt, .evt] ++ establishRun 1 1 ++
    [.disconnect false 1, .next false, .next false]

theorem socketTable_sound_orderlyRun :
    (run ptuStep (PtuState.init Bool 0) orderlyRun).any
        (fun s => s.commands = [.abort 1, .release 1]) = true ∧
      Always ptuStep TableOk (PtuState.init Bool 0) orderlyRun ∧
      Along ptuStep StepOk (PtuState.init Bool 0) orderlyRun :=
  ⟨by decide +kernel, socketTable_sound 0 orderlyRun (by decide +kernel) (by decide +kernel)⟩

end HardwareDrivers.Libptu
