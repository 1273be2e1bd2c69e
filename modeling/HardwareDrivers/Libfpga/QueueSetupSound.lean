import HardwareDrivers.Libfpga.QueueSetup
import HardwareDrivers.Theory.Transition

/-!
# Every descriptor is closed and every mapping unmapped

`queueSetup_sound`: in every run of calls each setup ends and returns 0 only with a mapping of the
queue that it has bound, and after each call the descriptors and mappings that are open are those of
the variables in use, with nothing closed or unmapped twice, exactly as long as

* a setup with interval 0 and another timeout than 0 comes to a device that answers,
* the device where the search stops maps the queue and there is memory for the name, or neither,
* a variable in use is not written by a setup, and
* a variable is finished before the same channel is set up with another one.

The code tests for `NULL` where `mmap` returns `MAP_FAILED`, leaves the queue mapped where there is no
memory, and has one descriptor for each channel.
-/

namespace HardwareDrivers.Libfpga

open Theory

universe u

variable {ι : Type u}

/-! ### Descriptors and mappings accounted for -/

namespace RefQueueState

/-- The descriptor that a variable in use has opened. -/
def fdOf (s : RefQueueState ι) (i : ι) : Option ℕ := (s.infos i).map DmaInfo.fd

/-- The mapping of a variable in use. -/
def mapOf (s : RefQueueState ι) (i : ι) : Option ℕ := (s.infos i).bind DmaInfo.queueAddr

/-- Descriptors and mappings are accounted for. -/
structure Accounted (s : RefQueueState ι) : Prop where
  /-- No descriptor is closed twice. -/
  closedOnce : s.fds.released.Nodup
  /-- A descriptor that is not closed is that of a variable in use. -/
  closed : s.fds.Kept s.fdOf
  /-- No mapping is unmapped twice. -/
  unmappedOnce : s.maps.released.Nodup
  /-- A mapping that is not unmapped is that of a variable in use. -/
  unmapped : s.maps.Kept s.mapOf
  /-- A mapping is unmapped with its length. -/
  lengths : ∀ x ∈ s.unmapped, x.2 = s.mapLength x.1

/-- The variable has a valid mapping of a queue that a device has bound. -/
def MapsBound (s : RefQueueState ι) (i : ι) (answers : Answers) : Prop :=
  ∃ info m round bound, s.infos i = some info ∧ info.queueAddr = some m ∧ s.maps.Open m ∧
    (answers round info.index.1).bind = some bound ∧ info.index.2 = (bound.dir, bound.chid) ∧
    s.mapLength m = bound.mapSize ∧ queueBytes + queueBytes * info.queueSize = bound.mapSize

end RefQueueState

variable [DecidableEq ι]

/-- What is asked of a call. -/
structure QueueCallOk (s : RefQueueState ι) (call : QueueCall ι) : Prop where
  /-- It ends. -/
  ends : ∃ fuel, (call.exec fuel s).isSome
  /-- Descriptors and mappings are accounted for afterwards. -/
  accounted : ∀ fuel r t, call.exec fuel s = some (r, t) → t.Accounted
  /-- A setup returns 0 only with a valid mapping of the queue it has bound. -/
  maps : ∀ connectorId i answers, call = .setup connectorId (some i) answers →
    ∀ fuel t, call.exec fuel s = some (.ok (), t) → t.MapsBound i answers

/-- The search ends at a device with this answer: its file cannot be opened, or it has the
connector. -/
def DeviceAnswer.stops (answer : DeviceAnswer) : Bool :=
  answer.present && (!answer.opens || answer.bind.isSome)

/-- The search ends at a device in a round: there is time for the round, and no device before it has
ended the search. -/
structure SearchEnds (timeout interval : ℕ) (answers : Answers) (round : ℕ) (devId : DevIndex) :
    Prop where
  /-- There is time. -/
  time : round * interval < timeout
  /-- It has not ended in a round before. -/
  rounds : ∀ earlier < round, ∀ devId, (answers earlier devId).stops = false
  /-- It has not ended at a device before. -/
  devices : ∀ other < devId, (answers round other).stops = false
  /-- It ends here. -/
  stops : (answers round devId).stops = true

/-- The device maps the queue and there is memory for the name, or neither, for a variable that is not
in use. -/
def DeviceAnswer.Fair (answer : DeviceAnswer) (info : Option DmaInfo) : Prop :=
  answer.opens = true → (answer.mmap = .mapped → info = none ∧ answer.strdup = true) ∧
    (answer.mmap = .failed → info = none ∧ answer.strdup = false)

/-- The condition for a call. -/
def QueueCallFair (s : RefQueueState ι) : QueueCall ι → Prop
  | .setup connectorId (some i) answers => connectorOk connectorId = true →
      (s.interval = 0 → s.timeout = 0 ∨ ∃ round devId, (answers round devId).stops = true) ∧
      ∀ round devId, SearchEnds s.timeout s.interval answers round devId →
        (answers round devId).Fair (s.infos i)
  | .finish (some i) => ∀ info ∈ s.infos i, s.fdRefQueue info.index = some info.fd
  | _ => True

/-! ### The search -/

/-- Some descriptors were opened and closed. -/
def Idle (s t : RefQueueState ι) : Prop := ∃ n, t = { s with fds := Ledger.temp^[n] s.fds }

omit [DecidableEq ι] in
theorem Idle.refl (s : RefQueueState ι) : Idle s s := ⟨0, rfl⟩

omit [DecidableEq ι] in
theorem Idle.temp (s : RefQueueState ι) : Idle s { s with fds := s.fds.temp } := ⟨1, rfl⟩

omit [DecidableEq ι] in
theorem Idle.trans {s t u : RefQueueState ι} (h : Idle s t) (h' : Idle t u) : Idle s u := by
  obtain ⟨n, rfl⟩ := h
  obtain ⟨n', rfl⟩ := h'
  exact ⟨n' + n, by rw [Function.iterate_add_apply]⟩

omit [DecidableEq ι] in
theorem Idle.infos {s t : RefQueueState ι} (h : Idle s t) : t.infos = s.infos := by
  obtain ⟨n, rfl⟩ := h
  rfl

variable {s t : RefQueueState ι} {i : ι} {devId : DevIndex} {answer : DeviceAnswer}

/-- A device where the search does not end. -/
theorem pollDevice_of_not_stops (i : ι) (devId : DevIndex) (hstop : answer.stops = false)
    (s : RefQueueState ι) :
    ∃ t, Idle s t ∧ pollDevice i devId answer s = (none, t) := by
  unfold DeviceAnswer.stops at hstop
  unfold pollDevice
  cases hpresent : answer.present with
  | false => exact ⟨s, .refl s, if_pos rfl⟩
  | true =>
    rw [hpresent, Bool.true_and, Bool.or_eq_false_iff, Bool.not_eq_false'] at hstop
    obtain ⟨hopens, hbind⟩ := hstop
    rw [if_neg Bool.noConfusion, hopens, if_neg Bool.noConfusion]
    dsimp only
    have hnone : answer.bind = none :=
      Option.isNone_iff_eq_none.mp (Option.isSome_eq_false_iff.mp hbind)
    rw [hnone]
    exact ⟨_, .temp s, rfl⟩

/-- A device where the search ends. -/
theorem pollDevice_of_stops (i : ι) (devId : DevIndex) (hstop : answer.stops = true)
    (s : RefQueueState ι) :
    ∃ r t, pollDevice i devId answer s = (some r, t) := by
  unfold DeviceAnswer.stops at hstop
  obtain ⟨hpresent, hstop⟩ := Bool.and_eq_true _ _ |>.mp hstop
  unfold pollDevice
  rw [hpresent, if_neg Bool.noConfusion]
  split
  · exact ⟨_, _, rfl⟩
  · next hopens =>
    dsimp only
    split
    · next hbind =>
      rw [Bool.eq_true_of_not_eq_false hopens, hbind] at hstop
      exact Bool.noConfusion hstop
    · split <;> exact ⟨_, _, rfl⟩

/-- A round in which the search does not end. -/
theorem pollRound_of_not_stops {answers : DevIndex → DeviceAnswer} (devIds : List DevIndex)
    (hstop : ∀ devId ∈ devIds, (answers devId).stops = false) (s : RefQueueState ι) :
    ∃ t, Idle s t ∧ pollRound i answers devIds s = (none, t) := by
  induction devIds generalizing s with
  | nil => exact ⟨s, .refl s, rfl⟩
  | cons devId devIds ih =>
    obtain ⟨hhead, hrest⟩ := List.forall_mem_cons.mp hstop
    obtain ⟨t, hst, ht⟩ := pollDevice_of_not_stops i devId hhead s
    obtain ⟨u, htu, hu⟩ := ih hrest t
    refine ⟨u, hst.trans htu, ?_⟩
    unfold pollRound
    rw [ht]
    exact hu

/-- A round goes as far as to the first device where the search ends. -/
theorem pollRound_of_stops {answers : DevIndex → DeviceAnswer} {before : List DevIndex}
    (after : List DevIndex) (hbefore : ∀ devId ∈ before, (answers devId).stops = false)
    (hstop : (answers devId).stops = true) (s : RefQueueState ι) :
    ∃ t, Idle s t ∧ pollRound i answers (before ++ devId :: after) s =
      pollDevice i devId (answers devId) t := by
  induction before generalizing s with
  | nil =>
    obtain ⟨r, t, ht⟩ := pollDevice_of_stops i devId hstop s
    refine ⟨s, .refl s, ?_⟩
    rw [List.nil_append, pollRound, ht]
  | cons other before ih =>
    obtain ⟨hhead, hrest⟩ := List.forall_mem_cons.mp hbefore
    obtain ⟨t, hst, ht⟩ := pollDevice_of_not_stops i other hhead s
    obtain ⟨u, htu, hu⟩ := ih hrest t
    refine ⟨u, hst.trans htu, ?_⟩
    rw [List.cons_append, pollRound, ht]
    exact hu

/-- In a round the search ends at the first device that stops it, or not at all. -/
theorem round_cases (answers : DevIndex → DeviceAnswer) :
    (∀ devId, (answers devId).stops = false) ∨
      ∃ devId, (answers devId).stops = true ∧ ∀ other < devId, (answers other).stops = false := by
  by_cases hall : ∀ devId, (answers devId).stops = false
  · exact .inl hall
  · obtain ⟨devId, hstop⟩ := not_forall.mp hall
    obtain ⟨first, hfirst, hmin⟩ := wellFounded_lt.has_min
      {devId | (answers devId).stops = true} ⟨devId, Bool.eq_true_of_not_eq_false hstop⟩
    exact .inr ⟨first, hfirst, fun other hlt => Bool.eq_false_of_not_eq_true fun h => hmin other h hlt⟩

/-- The devices before one, and those behind it. -/
theorem finRange_split (devId : DevIndex) : ∃ before after,
    List.finRange fpgaMaxDevices = before ++ devId :: after ∧ ∀ other ∈ before, other < devId := by
  obtain ⟨before, after, heq⟩ := List.append_of_mem (List.mem_finRange devId)
  have hsorted := List.pairwise_lt_finRange fpgaMaxDevices
  rw [heq] at hsorted
  exact ⟨before, after, heq, fun other hmem =>
    (List.pairwise_append.mp hsorted).2.2 other hmem devId List.mem_cons_self⟩

/-- A round, whole: the search goes on, or it ends at its first device that stops it. -/
theorem pollRound_cases (i : ι) (answers : DevIndex → DeviceAnswer) (s : RefQueueState ι) :
    (∃ t, (∀ devId, (answers devId).stops = false) ∧ Idle s t ∧
        pollRound i answers (List.finRange fpgaMaxDevices) s = (none, t)) ∨
      ∃ devId t u r, (answers devId).stops = true ∧
        (∀ other < devId, (answers other).stops = false) ∧ Idle s t ∧
        pollDevice i devId (answers devId) t = (some r, u) ∧
        pollRound i answers (List.finRange fpgaMaxDevices) s = (some r, u) := by
  rcases round_cases answers with hall | ⟨devId, hstop, hfirst⟩
  · obtain ⟨t, hst, ht⟩ := pollRound_of_not_stops (i := i)
      (List.finRange fpgaMaxDevices) (fun devId _ => hall devId) s
    exact .inl ⟨t, hall, hst, ht⟩
  · obtain ⟨before, after, heq, hbefore⟩ := finRange_split devId
    obtain ⟨t, hst, ht⟩ := pollRound_of_stops (i := i) after
      (fun other hmem => hfirst other (hbefore other hmem)) hstop s
    obtain ⟨r, u, hu⟩ := pollDevice_of_stops i devId hstop t
    exact .inr ⟨devId, t, u, r, hstop, hfirst, hst, hu, by rw [heq, ht, hu]⟩

/-- Where the loop ends: at the timeout, or at a device. -/
theorem setupLoop_cases {answers : Answers} {fuel round : ℕ} {r : Except LibfpgaErr Unit}
    (hrounds : ∀ earlier < round, ∀ devId, (answers earlier devId).stops = false)
    (h : setupLoop i answers fuel (round * s.interval) round s = some (r, t)) :
    (Idle s t ∧ r = .error .connectorIdMismatch ∧
        ∀ round devId, ¬ SearchEnds s.timeout s.interval answers round devId) ∨
      ∃ round devId u, SearchEnds s.timeout s.interval answers round devId ∧ Idle s u ∧
        pollDevice i devId (answers round devId) u = (some r, t) := by
  induction fuel generalizing round s with
  | zero => cases h
  | succ fuel ih =>
    unfold setupLoop at h
    split_ifs at h with htime
    · rcases pollRound_cases i (answers round) s with
        ⟨u, hall, hsu, heq⟩ | ⟨devId, u, v, r', hstop, hfirst, hsu, hdev, heq⟩
      · rw [heq] at h
        obtain ⟨n, rfl⟩ := hsu
        dsimp only at h
        rw [← Nat.succ_mul] at h
        have hrounds' : ∀ earlier < round + 1, ∀ devId, (answers earlier devId).stops = false := by
          intro earlier hlt
          rcases Nat.lt_succ_iff_lt_or_eq.mp hlt with hlt | rfl
          · exact hrounds earlier hlt
          · exact hall
        rcases ih (s := { s with fds := Ledger.temp^[n] s.fds }) hrounds' h with
          ⟨hidle, hr, hnot⟩ | ⟨round', devId, u, hends, hidle, hdev⟩
        · exact .inl ⟨.trans ⟨n, rfl⟩ hidle, hr, hnot⟩
        · exact .inr ⟨round', devId, u, hends, .trans ⟨n, rfl⟩ hidle, hdev⟩
      · rw [heq] at h
        cases h
        exact .inr ⟨round, devId, u, ⟨htime, hrounds, hfirst, hstop⟩, hsu, hdev⟩
    · cases h
      refine .inl ⟨.refl _, rfl, fun round' devId hends => ?_⟩
      have hlt : round' < round := by
        by_contra hge
        exact htime (Nat.lt_of_le_of_lt (Nat.mul_le_mul_right _ (Nat.not_lt.mp hge)) hends.time)
      exact Bool.noConfusion ((hrounds round' hlt devId).symm.trans hends.stops)

/-! ### Whether the search ends -/

/-- With an interval, the time passes. -/
theorem setupLoop_isSome_of_interval {answers : Answers} {fuel passed round : ℕ}
    (hinterval : 0 < s.interval) (hfuel : s.timeout - passed < fuel) :
    (setupLoop i answers fuel passed round s).isSome := by
  induction fuel generalizing passed round s with
  | zero => exact absurd hfuel (Nat.not_lt_zero _)
  | succ fuel ih =>
    unfold setupLoop
    split_ifs with htime
    · rcases pollRound_cases i (answers round) s with
        ⟨u, -, ⟨n, rfl⟩, heq⟩ | ⟨_, _, _, _, -, -, -, -, heq⟩
      · rw [heq]
        refine ih hinterval ?_
        change s.timeout - (passed + s.interval) < fuel
        omega
      · rw [heq]
        rfl
    · rfl

/-- A device that stops the search is come to. -/
theorem setupLoop_isSome_of_stops {answers : Answers} {fuel round last : ℕ} (i : ι) (passed : ℕ)
    (hstop : (answers last devId).stops = true) (hround : round ≤ last) (hfuel : last < round + fuel)
    (s : RefQueueState ι) :
    (setupLoop i answers fuel passed round s).isSome := by
  induction fuel generalizing passed round s with
  | zero => omega
  | succ fuel ih =>
    unfold setupLoop
    split_ifs with htime
    · rcases pollRound_cases i (answers round) s with
        ⟨u, hall, -, heq⟩ | ⟨_, _, _, _, -, -, -, -, heq⟩
      · rw [heq]
        have hne : round ≠ last := by
          rintro rfl
          exact Bool.noConfusion ((hall devId).symm.trans hstop)
        exact ih _ (by omega) (by omega) _
      · rw [heq]
        rfl
    · rfl

/-- With interval 0 and no answer the search goes on for ever. -/
theorem setupLoop_eq_none {answers : Answers} {passed : ℕ} (i : ι) (hinterval : s.interval = 0)
    (htime : passed < s.timeout) (hstop : ∀ round devId, (answers round devId).stops = false)
    (fuel round : ℕ) : setupLoop i answers fuel passed round s = none := by
  induction fuel generalizing round s with
  | zero => rfl
  | succ fuel ih =>
    unfold setupLoop
    rw [if_pos htime]
    rcases pollRound_cases i (answers round) s with
      ⟨u, -, ⟨n, rfl⟩, heq⟩ | ⟨devId, _, _, _, hstops, -, -, -, -⟩
    · rw [heq]
      have hpassed : passed + s.interval = passed := by rw [hinterval, Nat.add_zero]
      change setupLoop i answers fuel (passed + s.interval) (round + 1) _ = none
      rw [hpassed]
      exact ih (s := { s with fds := Ledger.temp^[n] s.fds }) hinterval htime _
    · exact Bool.noConfusion ((hstop round devId).symm.trans hstops)

/-- The search ends at one device only. -/
theorem SearchEnds.unique {timeout interval round round' : ℕ} {answers : Answers}
    {devId' : DevIndex} (h : SearchEnds timeout interval answers round devId)
    (h' : SearchEnds timeout interval answers round' devId') : round = round' ∧ devId = devId' := by
  rcases Nat.lt_trichotomy round round' with hlt | rfl | hlt
  · exact Bool.noConfusion ((h'.rounds round hlt devId).symm.trans h.stops)
  · refine ⟨rfl, ?_⟩
    rcases lt_trichotomy devId devId' with hlt | heq | hlt
    · exact Bool.noConfusion ((h'.devices devId hlt).symm.trans h.stops)
    · exact heq
    · exact Bool.noConfusion ((h.devices devId' hlt).symm.trans h'.stops)
  · exact Bool.noConfusion ((h.rounds round' hlt devId').symm.trans h'.stops)

/-- The search comes to the device where it ends. -/
theorem SearchEnds.reached {answers : Answers} {round : ℕ}
    (h : SearchEnds s.timeout s.interval answers round devId) :
    ∃ fuel r t u, setupLoop i answers fuel 0 0 s = some (r, t) ∧ Idle s u ∧
      pollDevice i devId (answers round devId) u = (some r, t) := by
  have hfuel : round < 0 + (round + 1) := by omega
  obtain ⟨⟨r, t⟩, hrt⟩ := Option.isSome_iff_exists.mp
    (setupLoop_isSome_of_stops i 0 h.stops (Nat.zero_le _) hfuel s)
  have hloop : setupLoop i answers (round + 1) (0 * s.interval) 0 s = some (r, t) := by
    rwa [Nat.zero_mul]
  refine ⟨round + 1, r, t, ?_⟩
  rcases setupLoop_cases (fun _ hlt => absurd hlt (Nat.not_lt_zero _)) hloop with
    ⟨-, -, hnot⟩ | ⟨round', devId', u, hends, hidle, hdev⟩
  · exact absurd h (hnot round devId)
  · obtain ⟨rfl, rfl⟩ := h.unique hends
    exact ⟨u, hrt, hidle, hdev⟩

/-- When the search ends. -/
theorem setupLoop_ends_iff {answers : Answers} :
    (∃ fuel, (setupLoop i answers fuel 0 0 s).isSome) ↔
      (s.interval = 0 → s.timeout = 0 ∨ ∃ round devId, (answers round devId).stops = true) := by
  constructor
  · rintro ⟨fuel, hsome⟩ hinterval
    by_contra hnot
    obtain ⟨htime, hstops⟩ := not_or.mp hnot
    have hnone := setupLoop_eq_none i hinterval (Nat.pos_of_ne_zero htime)
      (fun round devId => Bool.eq_false_of_not_eq_true fun h => hstops ⟨round, devId, h⟩) fuel 0
    rw [hnone] at hsome
    cases hsome
  · intro h
    by_cases hinterval : s.interval = 0
    · rcases h hinterval with htime | ⟨round, devId, hstop⟩
      · refine ⟨1, ?_⟩
        unfold setupLoop
        rw [htime, if_neg (Nat.lt_irrefl 0)]
        rfl
      · exact ⟨round + 1, setupLoop_isSome_of_stops i 0 hstop (Nat.zero_le _) (by omega) s⟩
    · exact ⟨s.timeout + 1, setupLoop_isSome_of_interval (Nat.pos_of_ne_zero hinterval) (by omega)⟩

/-! ### What the calls keep -/

namespace RefQueueState

/-- Between the calls. -/
structure Inv (s : RefQueueState ι) : Prop where
  /-- The open descriptors are those of the variables in use. -/
  fds : s.fds.Exact s.fdOf
  /-- So are the mappings. -/
  maps : s.maps.Exact s.mapOf
  /-- `unmapped` has the mappings that were released. -/
  unmapped : ∀ x ∈ s.unmapped, x.1 < s.maps.next
  /-- They were unmapped with their lengths. -/
  lengths : ∀ x ∈ s.unmapped, x.2 = s.mapLength x.1
  /-- A variable in use has a mapping of its size. -/
  sizes : ∀ i info, s.infos i = some info →
    ∃ m, info.queueAddr = some m ∧ s.mapLength m = queueBytes + queueBytes * info.queueSize

omit [DecidableEq ι] in
theorem inv_init : (init ι).Inv where
  fds := Ledger.exact_empty fun _ => rfl
  maps := Ledger.exact_empty fun _ => rfl
  unmapped := by
    intro x hx
    cases hx
  lengths := by
    intro x hx
    cases hx
  sizes := by
    intro i info hi
    cases hi

omit [DecidableEq ι] in
theorem Inv.accounted (h : s.Inv) : s.Accounted :=
  ⟨h.fds.nodup, h.fds.kept, h.maps.nodup, h.maps.kept, h.lengths⟩

omit [DecidableEq ι] in
theorem Inv.idle (h : s.Inv) (hidle : Idle s t) : t.Inv := by
  obtain ⟨n, rfl⟩ := hidle
  exact ⟨h.fds.temps n, h.maps, h.unmapped, h.lengths, h.sizes⟩

theorem fdOf_update (f : ι → Option DmaInfo) (i : ι) (info : Option DmaInfo) :
    (fun j => (Function.update f i info j).map DmaInfo.fd) =
      Function.update (fun j => (f j).map DmaInfo.fd) i (info.map DmaInfo.fd) :=
  Function.comp_update (Option.map DmaInfo.fd) f i info

theorem mapOf_update (f : ι → Option DmaInfo) (i : ι) (info : Option DmaInfo) :
    (fun j => (Function.update f i info j).bind DmaInfo.queueAddr) =
      Function.update (fun j => (f j).bind DmaInfo.queueAddr) i (info.bind DmaInfo.queueAddr) :=
  Function.comp_update (fun info => Option.bind info DmaInfo.queueAddr) f i info

/-- A queue is mapped for a variable that was not in use. -/
theorem Inv.set_up (h : s.Inv) (hfree : s.infos i = none) (index : QueueIndex) {length size : ℕ}
    (hlength : length = queueBytes + queueBytes * size) (refs : QueueIndex → Option ℕ) :
    Inv { s with
      infos := Function.update s.infos i (some ⟨index, some s.maps.next, size, s.fds.next⟩)
      fdRefQueue := refs
      fds := s.fds.acquire
      maps := s.maps.acquire
      mapLength := Function.update s.mapLength s.maps.next length } := by
  have hold {m : ℕ} (hm : m < s.maps.next) :
      Function.update s.mapLength s.maps.next length m = s.mapLength m :=
    Function.update_of_ne (Nat.ne_of_lt hm) ..
  constructor
  case fds =>
    change Ledger.Exact _ fun j => (Function.update s.infos i _ j).map DmaInfo.fd
    rw [fdOf_update]
    exact h.fds.put (by rw [fdOf, hfree, Option.map_none])
  case maps =>
    change Ledger.Exact _ fun j => (Function.update s.infos i _ j).bind DmaInfo.queueAddr
    rw [mapOf_update]
    exact h.maps.put (by rw [mapOf, hfree, Option.bind_none])
  case unmapped => exact fun x hx => Nat.lt_succ_of_lt (h.unmapped x hx)
  case lengths => exact fun x hx => (h.lengths x hx).trans (hold (h.unmapped x hx)).symm
  case sizes =>
    intro j info hj
    by_cases heq : j = i
    · cases (Function.update_self ..).symm.trans (heq ▸ hj)
      exact ⟨s.maps.next, rfl, (Function.update_self ..).trans hlength⟩
    · have hinfo : s.infos j = some info := (Function.update_of_ne heq ..).symm.trans hj
      obtain ⟨m, hm, hsize⟩ := h.sizes j info hinfo
      have hmap : s.mapOf j = some m := by rw [mapOf, hinfo, Option.bind_some, hm]
      exact ⟨m, hm, (hold (h.maps.isOpen j m hmap).1).trans hsize⟩

/-- A variable in use is finished. -/
theorem Inv.finish (h : s.Inv) {info : DmaInfo} {m : ℕ} (hi : s.infos i = some info)
    (hm : info.queueAddr = some m) :
    Inv { s with
      infos := Function.update s.infos i none
      fds := s.fds.release info.fd
      maps := s.maps.release m
      unmapped := (m, queueBytes + queueBytes * info.queueSize) :: s.unmapped } := by
  have hmap : s.mapOf i = some m := by rw [mapOf, hi, Option.bind_some, hm]
  constructor
  case fds =>
    change Ledger.Exact _ fun j => (Function.update s.infos i _ j).map DmaInfo.fd
    rw [fdOf_update]
    exact h.fds.take (by rw [fdOf, hi, Option.map_some])
  case maps =>
    change Ledger.Exact _ fun j => (Function.update s.infos i _ j).bind DmaInfo.queueAddr
    rw [mapOf_update]
    exact h.maps.take hmap
  case unmapped =>
    exact List.forall_mem_cons.mpr ⟨(h.maps.isOpen i m hmap).1, h.unmapped⟩
  case lengths =>
    obtain ⟨m', hm', hsize⟩ := h.sizes i info hi
    cases hm.symm.trans hm'
    exact List.forall_mem_cons.mpr ⟨hsize.symm, h.lengths⟩
  case sizes =>
    intro j info' hj
    by_cases heq : j = i
    · cases (Function.update_self ..).symm.trans (heq ▸ hj)
    · exact h.sizes j info' ((Function.update_of_ne heq ..).symm.trans hj)

end RefQueueState

/-! ### The calls -/

/-- `queue_size` has what was mapped. -/
theorem BoundQueue.mapSize_eq (bound : BoundQueue) :
    bound.mapSize = queueBytes + queueBytes * ((bound.mapSize - queueBytes) / queueBytes) := by
  obtain ⟨size, -, hsize⟩ := bound.size_eq
  have hpos : 0 < queueBytes := Nat.zero_lt_succ 63
  rw [hsize, Nat.add_sub_cancel_left, Nat.mul_div_cancel_left _ hpos]

/-- What is asked of the end of a setup. -/
def SetupOk (i : ι) (answers : Answers) (r : Except LibfpgaErr Unit) (t : RefQueueState ι) : Prop :=
  t.Accounted ∧ (r = .ok () → t.MapsBound i answers)

/-- At a device that meets the condition, the setup is right. -/
theorem pollDevice_sound {answers : Answers} {round : ℕ} {r : Except LibfpgaErr Unit}
    (h : s.Inv) (hstop : (answers round devId).stops = true)
    (hfair : (answers round devId).Fair (s.infos i))
    (hr : pollDevice i devId (answers round devId) s = (some r, t)) :
    t.Inv ∧ (r = .ok () → t.MapsBound i answers) := by
  obtain ⟨hpresent, hstop⟩ := Bool.and_eq_true _ _ |>.mp hstop
  unfold pollDevice at hr
  rw [hpresent, if_neg Bool.noConfusion] at hr
  cases hopens : (answers round devId).opens with
  | false =>
    rw [hopens, if_pos rfl] at hr
    cases hr
    exact ⟨h, nofun⟩
  | true =>
    obtain ⟨bound, hbind⟩ : ∃ bound, (answers round devId).bind = some bound := by
      rw [hopens, Bool.not_true, Bool.false_or] at hstop
      exact Option.isSome_iff_exists.mp hstop
    obtain ⟨hmapped, hfailed⟩ := hfair hopens
    rw [hopens, if_neg Bool.noConfusion, hbind] at hr
    dsimp only at hr
    cases hmmap : (answers round devId).mmap with
    | null =>
      rw [hmmap] at hr
      cases hr
      exact ⟨h.idle (.temp s), nofun⟩
    | failed =>
      obtain ⟨hfree, hstrdup⟩ := hfailed hmmap
      rw [hmmap, hstrdup] at hr
      dsimp only [setupBound, RefQueueState.overwrite, RefQueueState.openFd] at hr
      rw [if_pos rfl, hfree] at hr
      cases hr
      exact ⟨h.idle (.temp s), nofun⟩
    | mapped =>
      obtain ⟨hfree, hstrdup⟩ := hmapped hmmap
      rw [hmmap, hstrdup] at hr
      cases hr
      have hinv := h.set_up hfree (devId, bound.dir, bound.chid) bound.mapSize_eq
        (Function.update s.fdRefQueue (devId, bound.dir, bound.chid) (some s.fds.next))
      refine ⟨hinv, fun _ => ⟨_, s.maps.next, round, bound, Function.update_self .., rfl, ?_, hbind,
        rfl, Function.update_self .., bound.mapSize_eq.symm⟩⟩
      exact h.maps.open_next

/-- What goes wrong at a device. -/
theorem DeviceAnswer.not_fair {info : Option DmaInfo} (h : ¬ answer.Fair info) :
    answer.opens = true ∧ answer.mmap ≠ .null ∧
      (info = none → answer.mmap = .mapped ∧ answer.strdup = false ∨
        answer.mmap = .failed ∧ answer.strdup = true) := by
  obtain ⟨hopens, h⟩ := Classical.not_imp.mp h
  refine ⟨hopens, ?_, ?_⟩
  · intro hnull
    refine h ⟨fun hm => ?_, fun hm => ?_⟩ <;> cases hnull.symm.trans hm
  · rintro rfl
    rw [not_and_or, Classical.not_imp, Classical.not_imp, not_and, not_and] at h
    refine h.imp (fun hm => ⟨hm.1, ?_⟩) fun hm => ⟨hm.1, ?_⟩
    · exact Bool.eq_false_of_not_eq_true (hm.2 rfl)
    · exact Bool.eq_true_of_not_eq_false (hm.2 rfl)

/-- The mapping of a variable that is written is lost. -/
theorem RefQueueState.Inv.lost {info new : DmaInfo} (h : s.Inv) (hi : s.infos i = some info)
    (hinfos : t.infos = Function.update s.infos i (some new))
    (hmaps : ∀ m, s.maps.Open m → t.maps.Open m) (hnew : ∀ m < s.maps.next, new.queueAddr ≠ some m) :
    ¬ t.Accounted := by
  obtain ⟨m, hm, -⟩ := h.sizes i info hi
  have hmap : s.mapOf i = some m := by rw [mapOf, hi, Option.bind_some, hm]
  have hopen : s.maps.Open m := h.maps.isOpen i m hmap
  intro haccounted
  have hkept := haccounted.unmapped
  unfold mapOf at hkept
  rw [hinfos, mapOf_update] at hkept
  exact h.maps.not_kept_update hmap (hmaps m hopen) (hnew m hopen.1) hkept

/-- At a device that does not, it is not. -/
theorem pollDevice_not_sound {r : Except LibfpgaErr Unit} (answers : Answers)
    (h : s.Inv) (hstop : answer.stops = true) (hunfair : ¬ answer.Fair (s.infos i))
    (hr : pollDevice i devId answer s = (some r, t)) : ¬ SetupOk i answers r t := by
  obtain ⟨hpresent, hstop⟩ := Bool.and_eq_true _ _ |>.mp hstop
  obtain ⟨hopens, hnull, hcase⟩ := DeviceAnswer.not_fair hunfair
  obtain ⟨bound, hbind⟩ : ∃ bound, answer.bind = some bound := by
    rw [hopens, Bool.not_true, Bool.false_or] at hstop
    exact Option.isSome_iff_exists.mp hstop
  unfold pollDevice at hr
  rw [hpresent, if_neg Bool.noConfusion, hopens, if_neg Bool.noConfusion, hbind] at hr
  dsimp only [setupBound, RefQueueState.overwrite, RefQueueState.openFd, RefQueueState.mmap] at hr
  rintro ⟨haccounted, hmaps⟩
  cases hi : s.infos i with
  | none =>
    rcases hcase hi with ⟨hmmap, hstrdup⟩ | ⟨hmmap, hstrdup⟩
    · -- The mapping stays, and no variable has it.
      rw [hmmap, hstrdup, hi] at hr
      cases hr
      exact h.maps.not_kept_acquire haccounted.unmapped
    · -- The failure is not seen: the setup returns 0.
      rw [hmmap, hstrdup] at hr
      cases hr
      obtain ⟨info, m, round, bound', hinfo, hm, -⟩ := hmaps rfl
      cases (Function.update_self ..).symm.trans hinfo
      cases hm
  | some info =>
    -- The variable has another address or none.
    rw [hi] at hr
    cases hmmap : answer.mmap with
    | null => exact hnull hmmap
    | failed =>
      cases hstrdup : answer.strdup with
      | false | true =>
        rw [hmmap, hstrdup] at hr
        cases hr
        exact absurd haccounted (h.lost hi rfl (fun _ hm => hm) fun _ _ => (Option.some_ne_none _).symm)
    | mapped =>
      have hnew : ∀ m < s.maps.next, some s.maps.next ≠ some m := fun m hlt heq =>
        Nat.ne_of_gt hlt (Option.some.inj heq)
      cases hstrdup : answer.strdup with
      | false | true =>
        rw [hmmap, hstrdup] at hr
        cases hr
        exact absurd haccounted (h.lost hi rfl (fun _ hm => hm.acquire) hnew)

/-- A setup where the search ends, if at all, at a device that meets the condition. -/
theorem setupLoop_sound {answers : Answers} {fuel : ℕ} {r : Except LibfpgaErr Unit} (h : s.Inv)
    (hfair : ∀ round devId, SearchEnds s.timeout s.interval answers round devId →
      (answers round devId).Fair (s.infos i))
    (hr : setupLoop i answers fuel 0 0 s = some (r, t)) :
    t.Inv ∧ (r = .ok () → t.MapsBound i answers) := by
  have hloop : setupLoop i answers fuel (0 * s.interval) 0 s = some (r, t) := by
    rwa [Nat.zero_mul]
  rcases setupLoop_cases (fun _ hlt => absurd hlt (Nat.not_lt_zero _)) hloop with
    ⟨hidle, rfl, -⟩ | ⟨round, devId, u, hends, hidle, hdev⟩
  · exact ⟨h.idle hidle, fun hr => by cases hr⟩
  · refine pollDevice_sound (h.idle hidle) hends.stops ?_ hdev
    rw [hidle.infos]
    exact hfair round devId hends

/-- A variable is finished whose descriptor is in `fd_ref_queue`. -/
theorem finish_sound (h : s.Inv) (hfair : ∀ info ∈ s.infos i, s.fdRefQueue info.index = some info.fd) :
    (fpgaLldmaQueueFinish (some i) s).2.Inv := by
  unfold fpgaLldmaQueueFinish
  dsimp only
  cases hi : s.infos i with
  | none => exact h
  | some info =>
    obtain ⟨m, hm, -⟩ := h.sizes i info hi
    have hfd : s.fdRefQueue info.index = some info.fd := hfair info hi
    dsimp only
    rw [hm]
    dsimp only [RefQueueState.munmap]
    rw [hfd]
    exact h.finish hi hm

/-- The information is gone, and the descriptor of the queue is closed. -/
theorem finish_closes {info : DmaInfo} (hi : s.infos i = some info) :
    (fpgaLldmaQueueFinish (some i) s).2.infos = Function.update s.infos i none ∧
      (fpgaLldmaQueueFinish (some i) s).2.fds = (s.closeFd (s.fdRefQueue info.index)).fds := by
  unfold fpgaLldmaQueueFinish
  dsimp only
  rw [hi]
  cases hm : info.queueAddr <;> cases hfd : s.fdRefQueue info.index <;>
    simp only [RefQueueState.munmap, RefQueueState.closeFd, hm, hfd, and_self]

/-- With another descriptor there, its own is lost. -/
theorem finish_not_sound {info : DmaInfo} (h : s.Inv) (hi : s.infos i = some info)
    (hunfair : s.fdRefQueue info.index ≠ some info.fd) :
    ¬ (fpgaLldmaQueueFinish (some i) s).2.Accounted := by
  have hfd : s.fdOf i = some info.fd := by rw [RefQueueState.fdOf, hi, Option.map_some]
  have hopen : s.fds.Open info.fd := h.fds.isOpen i _ hfd
  have hstays : (s.closeFd (s.fdRefQueue info.index)).fds.Open info.fd := by
    cases href : s.fdRefQueue info.index with
    | none => exact hopen
    | some fd =>
      refine hopen.release ?_
      rintro rfl
      exact hunfair href
  intro haccounted
  have hclosed := haccounted.closed
  obtain ⟨hinfos, hfds⟩ := finish_closes hi
  unfold RefQueueState.fdOf at hclosed
  rw [hfds, hinfos, RefQueueState.fdOf_update] at hclosed
  exact h.fds.not_kept_update hfd hstays (Option.some_ne_none _).symm hclosed

/-- What a call that meets the condition keeps, and what a setup gives. -/
theorem QueueCall.exec_sound {call : QueueCall ι} {fuel : ℕ} {r : Except LibfpgaErr Unit} (h : s.Inv)
    (hvalid : call.Valid s) (hfair : QueueCallFair s call) (hr : call.exec fuel s = some (r, t)) :
    t.Inv ∧ ∀ connectorId i answers, call = .setup connectorId (some i) answers → r = .ok () →
      t.MapsBound i answers := by
  cases call with
  | setup connectorId info answers =>
    cases info with
    | none =>
      cases hr
      exact ⟨h, fun _ _ _ heq => by cases heq⟩
    | some i =>
      unfold QueueCall.exec fpgaLldmaQueueSetup at hr
      dsimp only at hr
      split_ifs at hr with hconnector
      · cases hr
        exact ⟨h, fun _ _ _ _ hok => by cases hok⟩
      · obtain ⟨-, hfair⟩ := hfair (Bool.eq_true_of_not_eq_false hconnector)
        obtain ⟨hinv, hmaps⟩ := setupLoop_sound h hfair hr
        refine ⟨hinv, fun _ _ _ heq hok => ?_⟩
        cases heq
        exact hmaps hok
  | finish info =>
    have ht : (fpgaLldmaQueueFinish info s).2 = t := congrArg Prod.snd (Option.some.inj hr)
    refine ⟨?_, fun _ _ _ heq => by cases heq⟩
    rw [← ht]
    cases info with
    | none => exact h
    | some i => exact finish_sound h hfair
  | setTimeout timeout =>
    cases hr
    refine ⟨?_, fun _ _ _ heq => by cases heq⟩
    unfold fpgaSetRefqueuePollingTimeout
    split_ifs
    · exact h
    · exact ⟨h.fds, h.maps, h.unmapped, h.lengths, h.sizes⟩
  | setInterval interval =>
    cases hr
    refine ⟨?_, fun _ _ _ heq => by cases heq⟩
    unfold fpgaSetRefqueuePollingInterval
    split_ifs
    · exact h
    · exact ⟨h.fds, h.maps, h.unmapped, h.lengths, h.sizes⟩

/-- A setup whose arguments are not refused is the search. -/
theorem setup_exec (connectorId : Option CString) {answers : Answers} (fuel : ℕ)
    (hconnector : connectorOk connectorId = true) :
    (QueueCall.setup connectorId (some i) answers).exec fuel s = setupLoop i answers fuel 0 0 s := by
  unfold QueueCall.exec fpgaLldmaQueueSetup
  dsimp only
  rw [if_neg (ne_of_eq_of_ne hconnector Bool.noConfusion)]

/-- A call that meets the condition ends. -/
theorem QueueCall.exec_ends {call : QueueCall ι} (hfair : QueueCallFair s call) :
    ∃ fuel, (call.exec fuel s).isSome := by
  cases call with
  | setup connectorId info answers =>
    cases info with
    | none => exact ⟨0, rfl⟩
    | some i =>
      by_cases hconnector : connectorOk connectorId = true
      · obtain ⟨fuel, hfuel⟩ := (setupLoop_ends_iff (i := i)).mpr (hfair hconnector).1
        exact ⟨fuel, by rwa [setup_exec connectorId fuel hconnector]⟩
      · refine ⟨0, ?_⟩
        unfold QueueCall.exec fpgaLldmaQueueSetup
        dsimp only
        rw [if_pos (Bool.eq_false_of_not_eq_true hconnector)]
        rfl
  | finish | setTimeout | setInterval => exact ⟨0, rfl⟩

/-- What is asked of a call follows from the condition, and the condition from it. -/
theorem queueCallOk_iff {call : QueueCall ι} (h : s.Inv) (hvalid : call.Valid s) :
    QueueCallOk s call ↔ QueueCallFair s call := by
  constructor
  · intro hok
    cases call with
    | setup connectorId info answers =>
      cases info with
      | none => trivial
      | some i =>
        intro hconnector
        constructor
        · obtain ⟨fuel, hfuel⟩ := hok.ends
          rw [setup_exec connectorId fuel hconnector] at hfuel
          exact setupLoop_ends_iff.mp ⟨fuel, hfuel⟩
        · intro round devId hends
          obtain ⟨fuel, r, t, u, hloop, hidle, hdev⟩ := hends.reached (i := i)
          rw [← setup_exec connectorId fuel hconnector] at hloop
          rw [← hidle.infos]
          by_contra hunfair
          refine pollDevice_not_sound answers (h.idle hidle) hends.stops hunfair hdev
            ⟨hok.accounted fuel r t hloop, fun hr => ?_⟩
          subst hr
          exact hok.maps connectorId i answers rfl fuel t hloop
    | finish info =>
      cases info with
      | none => trivial
      | some i =>
        intro info hi
        by_contra hunfair
        exact finish_not_sound h hi hunfair (hok.accounted 0 _ _ rfl)
    | setTimeout timeout => trivial
    | setInterval interval => trivial
  · intro hfair
    refine ⟨QueueCall.exec_ends hfair, ?_, ?_⟩
    · intro fuel r t hr
      exact (QueueCall.exec_sound h hvalid hfair hr).1.accounted
    · intro connectorId i answers heq fuel t hr
      exact (QueueCall.exec_sound h hvalid hfair hr).2 connectorId i answers heq rfl

/-- A call that meets the condition keeps the invariant. -/
theorem refQueueStep_inv {call : QueueCall ι × ℕ} (h : s.Inv)
    (hfair : call.1.Valid s → QueueCallFair s call.1) (ht : refQueueStep s call = some t) : t.Inv := by
  unfold refQueueStep at ht
  split_ifs at ht with hvalid
  obtain ⟨⟨r, u⟩, hr, rfl⟩ := Option.map_eq_some_iff.mp ht
  exact (QueueCall.exec_sound h hvalid (hfair hvalid) hr).1

/-- **Every setup ends with the queue mapped or an error, and nothing is lost or released twice,**
exactly as long as all calls meet the condition. -/
theorem queueSetup_sound (calls : List (QueueCall ι × ℕ)) :
    AtEvery refQueueStep (fun s a => a.1.Valid s → QueueCallOk s a.1) (.init ι) calls ↔
      AtEvery refQueueStep (fun s a => a.1.Valid s → QueueCallFair s a.1) (.init ι) calls :=
  atEvery_iff_atEvery (I := RefQueueState.Inv)
    (fun _ _ _ h hfair ht => refQueueStep_inv h hfair ht)
    (fun _ _ h => forall_congr' fun hvalid => queueCallOk_iff h hvalid) RefQueueState.inv_init

theorem lldmaDirMax_pos : 0 < lldmaDirMax := Nat.zero_lt_succ 3

theorem lldmaChMax_pos : 0 < lldmaChMax := Nat.zero_lt_succ 31

theorem two_queueBytes : ∃ size < 2 ^ 16, 2 * queueBytes = queueBytes + queueBytes * size :=
  ⟨1, Nat.one_lt_two_pow (Nat.succ_ne_zero 15), rfl⟩

/-- A queue with one descriptor. -/
def firstQueue : BoundQueue where
  dir := ⟨0, lldmaDirMax_pos⟩
  chid := ⟨0, lldmaChMax_pos⟩
  mapSize := 2 * queueBytes
  size_eq := two_queueBytes

/-- A setup of it, which the first device answers. -/
def setupFirst (i : Fin 2) (mmap : MmapResult) (strdup : Bool) : QueueCall (Fin 2) :=
  .setup (some ['q']) (some i) fun _ _ => ⟨true, true, some firstQueue, mmap, strdup⟩

/-- A setup that no device answers. -/
def setupNone : QueueCall (Fin 2) :=
  .setup (some ['q']) (some 0) fun _ _ => ⟨false, false, none, .null, false⟩

/-- With interval 0 a setup does not end; a failed `mmap` is taken for a mapping; without memory for
the name the queue stays mapped; and finishing a queue closes the descriptor of another setup of it,
its own stays open. -/
theorem not_queueSetup_sound :
    (¬ AtEvery refQueueStep (fun s a => a.1.Valid s → QueueCallOk s a.1) (.init (Fin 2))
      [(.setInterval 0, 0), (setupNone, 0)]) ∧
    (¬ AtEvery refQueueStep (fun s a => a.1.Valid s → QueueCallOk s a.1) (.init (Fin 2))
      [(setupFirst 0 .failed true, 1)]) ∧
    (¬ AtEvery refQueueStep (fun s a => a.1.Valid s → QueueCallOk s a.1) (.init (Fin 2))
      [(setupFirst 0 .mapped false, 1)]) ∧
    ¬ AtEvery refQueueStep (fun s a => a.1.Valid s → QueueCallOk s a.1) (.init (Fin 2))
      [(setupFirst 0 .mapped true, 1), (setupFirst 1 .mapped true, 1), (.finish (some 0), 0)] := by
  refine ⟨fun h => ?_, fun h => ?_, fun h => ?_, fun h => ?_⟩
  · obtain ⟨fuel, hfuel⟩ := ((h.2 _ rfl).1 trivial).ends
    rw [setupNone, setup_exec _ fuel rfl, setupLoop_eq_none 0 rfl (by decide) (fun _ _ => rfl)] at hfuel
    cases hfuel
  · have hmaps := (h.1 trivial).maps _ _ _ rfl 1 _ rfl
    obtain ⟨info, m, -, -, hinfo, hm, -⟩ := hmaps
    cases hinfo
    cases hm
  · have hkept := ((h.1 trivial).accounted 1 _ _ rfl).unmapped
    obtain ⟨i, hi⟩ := hkept 0 (by decide)
    cases hi
  · have hkept := (((h.2 _ rfl).2 _ rfl).1 rfl |>.accounted 0 _ _ rfl).closed
    rcases Fin.exists_fin_two.mp (hkept 0 (by decide)) with hi | hi <;> cases hi

end HardwareDrivers.Libfpga
