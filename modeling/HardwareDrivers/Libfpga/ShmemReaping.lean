import HardwareDrivers.Libfpga.ShmemAccounting

/-!
# The managers that ended

Every call looks which of the children ended, and clears their entries. Only a child that
exited is told from one that runs: one that a signal killed is waited for, and its entry stays.

## What is proved

* `Tended.sweep` — what the loop over the children does, as far as it went.
* `reaps_of_tended` — where children exit, looking after them leaves the entries of those that run.
* `reapsDead_of_exits` — so does it throughout a run that keeps the table, in which children exit.
-/

namespace HardwareDrivers.Libfpga

open Theory

/-- These children exit. -/
def ExitsOnly (deaths : List (ℤ × ChildEnd)) : Prop := ∀ d ∈ deaths, ∃ code, d.2 = .exited code

/-- A child runs, or exited. -/
def Child.Sound (child : Child) : Prop := child = .alive ∨ ∃ code, child = .ended (.exited code)

/-- Each entry has a child of its own, which runs or exited. -/
structure Tended (s : ShmemManager) : Prop where
  /-- The loops end where the table does, or before. -/
  limit_le : s.limit ≤ shmemMaxHugepages
  /-- The child runs, or exited and was not waited for. -/
  child : ∀ i < shmemMaxHugepages, s.Active i → (s.children (s.managerInfos i).pid).Sound
  /-- No two entries have the same child. -/
  pids : ∀ i < shmemMaxHugepages, ∀ j < shmemMaxHugepages, s.Active i → s.Active j →
    (s.managerInfos i).pid = (s.managerInfos j).pid → i = j

variable {s t u : ShmemManager}

/-! ### The ends of children -/

theorem endChild_cases {d : ℤ × ChildEnd} {code : BitVec 8} (hd : d.2 = .exited code)
    (children : ℤ → Child) (pid : ℤ) :
    endChild children d pid = children pid ∨
      (children pid = .alive ∧ endChild children d pid = .ended (.exited code)) := by
  unfold endChild
  split
  next halive =>
    by_cases hp : pid = d.1
    · subst hp
      rw [Function.update_self, hd]
      exact .inr ⟨halive, rfl⟩
    · exact .inl (Function.update_of_ne hp ..)
  next => exact .inl rfl

/-- A child that exits has done so afterwards, and the others are as they were. -/
theorem endChildren_cases {deaths : List (ℤ × ChildEnd)} (h : ExitsOnly deaths)
    (children : ℤ → Child) (pid : ℤ) :
    endChildren deaths children pid = children pid ∨
      (children pid = .alive ∧ ∃ code, endChildren deaths children pid = .ended (.exited code)) := by
  induction deaths generalizing children with
  | nil => exact .inl rfl
  | cons d deaths ih =>
    obtain ⟨⟨code, hd⟩, hrest⟩ := List.forall_mem_cons.mp h
    change endChildren deaths (endChild children d) pid = _ ∨
      (_ ∧ ∃ code, endChildren deaths (endChild children d) pid = _)
    obtain heq | ⟨halive, hcode⟩ := ih hrest (endChild children d)
    · rw [heq]
      exact (endChild_cases hd children pid).imp_right fun h => ⟨h.1, code, h.2⟩
    · obtain heq | ⟨-, hended⟩ := endChild_cases hd children pid
      · exact .inr ⟨heq ▸ halive, hcode⟩
      · cases hended.symm.trans halive

theorem Child.Sound.ended {deaths : List (ℤ × ChildEnd)} (h : ExitsOnly deaths)
    {children : ℤ → Child} {pid : ℤ} (hs : (children pid).Sound) :
    (endChildren deaths children pid).Sound := by
  obtain heq | ⟨-, hcode⟩ := endChildren_cases h children pid
  · rwa [heq]
  · exact .inr hcode

theorem Tended.ended (h : Tended s) {deaths : List (ℤ × ChildEnd)} (hd : ExitsOnly deaths) :
    Tended { s with children := endChildren deaths s.children } :=
  ⟨h.limit_le, fun i hi ha => (h.child i hi ha).ended hd, h.pids⟩

/-! ### The loop -/

theorem wifexited_exited (code : BitVec 8) : wifexited (ChildEnd.exited code).waitStatus = true := by
  revert code
  decide

/-- What the loop did when it came to `n`. -/
structure Swept (n : ℕ) (s t : ShmemManager) : Prop where
  /-- The entry of a child that ended is cleared. -/
  gone : ∀ i < n, s.Active i → s.children (s.managerInfos i).pid ≠ .alive →
    t.managerInfos i = .zero
  /-- Any other entry is as it was. -/
  kept : ∀ i, (i < n → s.Active i → s.children (s.managerInfos i).pid = .alive) →
    t.managerInfos i = s.managerInfos i
  /-- A child that was not waited for is as it was. -/
  child : ∀ pid, (∀ i < n, s.Active i → (s.managerInfos i).pid = pid → s.children pid = .alive) →
    t.children pid = s.children pid

/-- **The loop clears the entries of the children that exited.** -/
theorem Tended.sweep (h : Tended s) (status : BitVec 32) {n : ℕ} (hn : n ≤ shmemMaxHugepages) :
    Swept n s ((List.range n).foldl checkEntry (status, s)).2 := by
  induction n with
  | zero =>
    exact ⟨fun i hi => absurd hi (Nat.not_lt_zero i), fun _ _ => rfl, fun _ _ => rfl⟩
  | succ n ih =>
    have ih := ih (Nat.le_of_succ_le hn)
    rw [List.range_succ, List.foldl_append, List.foldl_cons, List.foldl_nil]
    generalize (List.range n).foldl checkEntry (status, s) = x at ih ⊢
    obtain ⟨status, t⟩ := x
    have hentry : t.managerInfos n = s.managerInfos n :=
      ih.kept n fun hlt => absurd hlt (lt_irrefl n)
    unfold checkEntry
    dsimp only at ih ⊢
    rw [hentry]
    split
    next hpid =>
      have hn : ¬ s.Active n := not_lt.mpr hpid
      refine ⟨fun i hi ha => ?_, fun i hi => ih.kept i fun hlt => hi (Nat.lt_succ_of_lt hlt),
        fun pid hp => ih.child pid fun i hlt => hp i (Nat.lt_succ_of_lt hlt)⟩
      obtain hlt | rfl := Nat.lt_succ_iff_lt_or_eq.mp hi
      · exact ih.gone i hlt ha
      · exact absurd ha hn
    next hpid =>
      have ha : s.Active n := not_le.mp hpid
      have hlt : n < shmemMaxHugepages := hn
      have hchild : t.children (s.managerInfos n).pid = s.children (s.managerInfos n).pid :=
        ih.child _ fun i hi hai heq => absurd (h.pids i (hi.trans hlt) n hlt hai ha heq) hi.ne
      unfold waitpid
      rw [hchild]
      obtain halive | ⟨code, hended⟩ := h.child n hlt ha
      · rw [halive]
        refine ⟨fun i hi hai hne => ?_, fun i hi => ih.kept i fun hlt => hi (Nat.lt_succ_of_lt hlt),
          fun pid hp => ih.child pid fun i hlt => hp i (Nat.lt_succ_of_lt hlt)⟩
        obtain hlt | rfl := Nat.lt_succ_iff_lt_or_eq.mp hi
        · exact ih.gone i hlt hai hne
        · exact absurd halive hne
      · rw [hended]
        dsimp only
        rw [if_neg (not_le.mp hpid).ne', if_pos (wifexited_exited code)]
        refine ⟨fun i hi hai hne => ?_, fun i hi => ?_, fun pid hp => ?_⟩
        · obtain hlt | rfl := Nat.lt_succ_iff_lt_or_eq.mp hi
          · exact (Function.update_of_ne hlt.ne ..).trans (ih.gone i hlt hai hne)
          · exact Function.update_self ..
        · have hin : i ≠ n := by
            rintro rfl
            cases hended.symm.trans (hi (Nat.lt_succ_self i) ha)
          exact (Function.update_of_ne hin ..).trans
            (ih.kept i fun hlt => hi (Nat.lt_succ_of_lt hlt))
        · have hpn : pid ≠ (s.managerInfos n).pid := by
            rintro rfl
            cases hended.symm.trans (hp n (Nat.lt_succ_self n) ha rfl)
          exact (Function.update_of_ne hpn ..).trans
            (ih.child pid fun i hlt => hp i (Nat.lt_succ_of_lt hlt))

/-- What a health check does. -/
theorem Tended.swept (h : Tended s) {env : HealthEnv} (henv : ExitsOnly env.deaths) :
    Swept s.limit { s with children := endChildren env.deaths s.children } (checkHealth env s) :=
  (h.ended henv).sweep env.status h.limit_le

/-- A child whose entry is left was not waited for. -/
theorem Tended.child_of_active (h : Tended s) {env : HealthEnv} (henv : ExitsOnly env.deaths) {i : ℕ}
    (hi : i < shmemMaxHugepages) (ha : (checkHealth env s).Active i) :
    (checkHealth env s).children (s.managerInfos i).pid =
      endChildren env.deaths s.children (s.managerInfos i).pid := by
  have hswept := h.swept henv
  refine hswept.child _ fun j hj haj heq => ?_
  obtain rfl := h.pids j (lt_of_lt_of_le hj h.limit_le) i hi haj
    ((checkHealth_reaps env s).active ha).1 heq
  by_contra hne
  have hgone := hswept.gone j hj haj hne
  unfold ShmemManager.Active at ha
  rw [hgone] at ha
  exact absurd ha (lt_irrefl 0)

theorem Tended.checked (h : Tended s) {env : HealthEnv} (henv : ExitsOnly env.deaths) :
    Tended (checkHealth env s) := by
  have hr := checkHealth_reaps env s
  refine ⟨hr.limit ▸ h.limit_le, fun i hi ha => ?_, fun i hi j hj hai haj heq => ?_⟩
  · obtain ⟨hsa, hse⟩ := hr.active ha
    rw [hse, h.child_of_active henv hi ha]
    exact (h.ended henv).child i hi hsa
  · obtain ⟨hsi, hei⟩ := hr.active hai
    obtain ⟨hsj, hej⟩ := hr.active haj
    rw [hei, hej] at heq
    exact h.pids i hi j hj hsi hsj heq

/-- The entries that are left below the limit are of children that run. -/
theorem Tended.running (h : Tended s) {env : HealthEnv} (henv : ExitsOnly env.deaths) {i : ℕ}
    (hi : i < s.limit) (ha : (checkHealth env s).Active i) :
    (checkHealth env s).children ((checkHealth env s).managerInfos i).pid = .alive := by
  obtain ⟨hsa, hse⟩ := (checkHealth_reaps env s).active ha
  rw [hse, h.child_of_active henv (lt_of_lt_of_le hi h.limit_le) ha]
  by_contra hne
  have hgone := (h.swept henv).gone i hi hsa hne
  unfold ShmemManager.Active at ha
  rw [hgone] at ha
  exact absurd ha (lt_irrefl 0)

/-- Where all children run, a health check leaves the table below the limit. -/
theorem checkHealth_of_running (h : Tended s)
    (hrun : ∀ i < s.limit, s.Active i → s.children (s.managerInfos i).pid = .alive)
    (status : BitVec 32) (i : ℕ) : (checkHealth ⟨[], status⟩ s).managerInfos i = s.managerInfos i := by
  have hswept : Swept s.limit _ (checkHealth ⟨[], status⟩ s) :=
    h.swept fun _ hd => absurd hd List.not_mem_nil
  exact hswept.kept i (hrun i)

/-! ### A health check -/

/-- What a health check is to do: `children` are as they are when it comes. -/
structure Reaps (env : HealthEnv) (s : ShmemManager) : Prop where
  /-- No entry below the limit is that of a child that ended. -/
  running : ∀ i < s.limit, (checkHealth env s).Active i →
    (checkHealth env s).children ((checkHealth env s).managerInfos i).pid = .alive
  /-- The pages of those are available again. -/
  pages : ∀ status, (fpgaShmemGetAvailablePages ⟨[], status⟩ (checkHealth env s)).1 =
    s.hugepageLimit - (List.range s.limit).foldl (fun pages i =>
      if s.Active i ∧ endChildren env.deaths s.children (s.managerInfos i).pid = .alive then
        pages + (s.managerInfos i).hpLimit
      else pages) 0
  /-- Their prefixes can be used for new managers, and are those of none. -/
  prefixes : ∀ i < s.limit, s.Active i →
    endChildren env.deaths s.children (s.managerInfos i).pid ≠ .alive →
      ∀ p : CStr, p.bytes = (s.managerInfos i).filePrefix → ∀ later,
        (checkFilePrefix later (some p) (checkHealth env s)).1 = true ∧
          (fpgaShmemGetPidFromPrefix later p (checkHealth env s)).1 = 0
  /-- The entry of a child that runs is kept. -/
  kept : ∀ i, s.Active i → endChildren env.deaths s.children (s.managerInfos i).pid = .alive →
    (checkHealth env s).managerInfos i = s.managerInfos i

/-- The prefix of an entry that was cleared is in no other. -/
theorem Listed.prefixString_ne (h : Listed s) (hr : Reaped s t) {i j : ℕ}
    (hi : i < shmemMaxHugepages) (hj : j < shmemMaxHugepages) (ha : s.Active i) (hgone : ¬ t.Active i) :
    prefixString t.managerInfos j ≠ (s.managerInfos i).filePrefix := by
  have ht := h.reaped hr
  by_cases hta : t.Active j
  · obtain ⟨hsj, hej⟩ := hr.active hta
    rw [ht.prefixString_eq hj hta, hej]
    intro heq
    obtain rfl := h.prefixes j hj i hi hsj ha heq
    exact hgone hta
  · obtain ⟨value, hempty⟩ := ht.free j hj hta
    unfold prefixString
    rw [hempty]
    exact fun heq => (h.named i hi ha).1 heq.symm

/-- **Where children exit, a health check does what it is to do.** -/
theorem reaps_of_tended (ho : Listed s) (h : Tended s) {env : HealthEnv}
    (henv : ExitsOnly env.deaths) : Reaps env s := by
  have hr := checkHealth_reaps env s
  have hswept := h.swept henv
  refine ⟨fun i hi ha => h.running henv hi ha, fun status => ?_, fun i hi ha hne p hp later => ?_,
    fun i _ halive => hswept.kept i fun _ _ => halive⟩
  · have hsame := checkHealth_of_running (h.checked henv)
      (fun i hi ha => h.running henv (hr.limit ▸ hi) ha) status
    have hagain := checkHealth_reaps ⟨[], status⟩ (checkHealth env s)
    unfold fpgaShmemGetAvailablePages usedPages
    dsimp only
    rw [hagain.hugepageLimit, hagain.limit, hr.hugepageLimit, hr.limit]
    congr 1
    refine List.foldl_ext _ _ _ fun pages i hi => ?_
    have hlt := List.mem_range.mp hi
    rw [hsame]
    by_cases ha : s.Active i
    · by_cases halive : endChildren env.deaths s.children (s.managerInfos i).pid = .alive
      · rw [hswept.kept i fun _ _ => halive, if_neg (not_lt.mpr (le_of_lt ha)), if_pos ⟨ha, halive⟩]
      · rw [hswept.gone i hlt ha halive, if_neg (c := _ ∧ _) fun hand => halive hand.2]
        exact add_zero pages
    · obtain ⟨value, hfree⟩ := ho.free i (lt_of_lt_of_le hlt h.limit_le) ha
      rw [hswept.kept i fun _ hai => absurd hai ha, hfree, if_neg (c := _ ∧ _) fun hand => ha hand.1]
      exact add_zero pages
  · have hbelow := lt_of_lt_of_le hi h.limit_le
    have hgone : ¬ (checkHealth env s).Active i := by
      unfold ShmemManager.Active
      rw [hswept.gone i hi ha hne]
      exact lt_irrefl 0
    have hlater := checkHealth_reaps later (checkHealth env s)
    have hnone : ∀ j < (checkHealth env s).limit,
        p.bytes ≠ prefixString (checkHealth later (checkHealth env s)).managerInfos j := by
      intro j hj
      rw [hp]
      exact (ho.prefixString_ne (hr.trans hlater) hbelow
        (lt_of_lt_of_le (hr.limit ▸ hj) h.limit_le) ha fun hla => hgone (hlater.active hla).1).symm
    constructor
    · refine (checkFilePrefix_cases later (some p) _).2.mpr ⟨p, rfl, ?_, fun j hj => .inr (hnone j hj)⟩
      rw [hp]
      exact (ho.named i hbelow ha).2.le
    · have hfind : (List.range (checkHealth later (checkHealth env s)).limit).find? (fun j =>
          prefixString (checkHealth later (checkHealth env s)).managerInfos j = p.bytes) = none := by
        rw [List.find?_eq_none]
        intro j hj
        rw [List.mem_range, hlater.limit] at hj
        simpa using (hnone j hj).symm
      unfold fpgaShmemGetPidFromPrefix
      dsimp only
      rw [hfind]

/-! ### A child of no entry -/

/-- A child that is in no entry: it was made, and is to be entered. -/
structure Unentered (pid : ℤ) (s : ShmemManager) : Prop where
  /-- It runs, or exited. -/
  child : (s.children pid).Sound
  /-- No entry has it. -/
  fresh : ∀ i < shmemMaxHugepages, s.Active i → (s.managerInfos i).pid ≠ pid

theorem Unentered.checked {pid : ℤ} (hp : Unentered pid s) (h : Tended s) {env : HealthEnv}
    (henv : ExitsOnly env.deaths) : Unentered pid (checkHealth env s) := by
  have hr := checkHealth_reaps env s
  refine ⟨?_, fun i hi ha => ?_⟩
  · rw [(h.swept henv).child pid fun i hi ha heq =>
      absurd heq (hp.fresh i (lt_of_lt_of_le hi h.limit_le) ha)]
    exact hp.child.ended henv
  · obtain ⟨hsa, hse⟩ := hr.active ha
    rw [hse]
    exact hp.fresh i hi hsa

theorem Unentered.mark {pid : ℤ} (hp : Unentered pid s) {index : ℕ} {value : BitVec 32}
    (hempty : s.managerInfos index = .marked value) (value' : BitVec 32) :
    Unentered pid (setInitialized index value' s) := by
  refine ⟨hp.child, fun i hi ha => ?_⟩
  obtain ⟨hsa, hse⟩ := active_setInitialized hempty ha
  rw [hse]
  exact hp.fresh i hi hsa

theorem Tended.mark (h : Tended s) {index : ℕ} {value : BitVec 32}
    (hempty : s.managerInfos index = .marked value) (value' : BitVec 32) :
    Tended (setInitialized index value' s) := by
  refine ⟨h.limit_le, fun i hi ha => ?_, fun i hi j hj hai haj heq => ?_⟩
  · obtain ⟨hsa, hse⟩ := active_setInitialized hempty ha
    rw [hse]
    exact h.child i hi hsa
  · obtain ⟨hsi, hei⟩ := active_setInitialized hempty hai
    obtain ⟨hsj, hej⟩ := active_setInitialized hempty haj
    rw [hei, hej] at heq
    exact h.pids i hi j hj hsi hsj heq

/-- A pid that `fork` returns is that of no entry. -/
theorem Tended.fresh_of_none (h : Tended s) {pid : ℤ} (hnone : s.children pid = .none) {i : ℕ}
    (hi : i < shmemMaxHugepages) (ha : s.Active i) : (s.managerInfos i).pid ≠ pid := by
  rintro rfl
  obtain halive | ⟨code, hended⟩ := h.child i hi ha
  · cases hnone.symm.trans halive
  · cases hnone.symm.trans hended

theorem Tended.forked (h : Tended s) {pid : ℤ} (hnone : s.children pid = .none) :
    Tended { s with children := Function.update s.children pid .alive } := by
  refine ⟨h.limit_le, fun i hi ha => ?_, h.pids⟩
  change (Function.update s.children pid .alive (s.managerInfos i).pid).Sound
  rw [Function.update_of_ne (h.fresh_of_none hnone hi ha)]
  exact h.child i hi ha

theorem Tended.unentered_of_forked (h : Tended s) {pid : ℤ} (hnone : s.children pid = .none) :
    Unentered pid { s with children := Function.update s.children pid .alive } :=
  ⟨.inl (Function.update_self ..), fun _ hi ha => h.fresh_of_none hnone hi ha⟩

/-- A child that is entered is the only one in its entry. -/
theorem Tended.enter (h : Tended s) {index : ℕ} {info : ManagerInfo} (hp : Unentered info.pid s) :
    Tended (s.setInfo index info) := by
  refine ⟨h.limit_le, fun i hi ha => ?_, fun i hi j hj hai haj heq => ?_⟩
  · change (s.children ((s.setInfo index info).managerInfos i).pid).Sound
    by_cases hii : i = index
    · rw [hii, setInfo_self]
      exact hp.child
    · rw [setInfo_of_ne hii]
      exact h.child i hi ((active_setInfo_of_ne hii info s).mp ha)
  · by_cases hii : i = index
    · by_cases hjj : j = index
      · exact hii.trans hjj.symm
      · rw [hii, setInfo_self, setInfo_of_ne hjj] at heq
        exact absurd heq.symm (hp.fresh j hj ((active_setInfo_of_ne hjj info s).mp haj))
    · have hsi := (active_setInfo_of_ne hii info s).mp hai
      by_cases hjj : j = index
      · rw [hjj, setInfo_self, setInfo_of_ne hii] at heq
        exact absurd heq (hp.fresh i hi hsi)
      · rw [setInfo_of_ne hii, setInfo_of_ne hjj] at heq
        exact h.pids i hi j hj hsi ((active_setInfo_of_ne hjj info s).mp haj) heq

/-! ### Inside a call -/

/-- The states in which a call makes a health check are among these: some checks came before, a
child may have been made, and an entry without a prefix marked. -/
inductive Within (Q : HealthEnv → Prop) (s : ShmemManager) : ShmemManager → Prop where
  /-- It begins. -/
  | refl : Within Q s s
  /-- A health check. -/
  | check {t : ShmemManager} (env : HealthEnv) (h : Within Q s t) (hq : Q env) :
      Within Q s (checkHealth env t)
  /-- `fork`. -/
  | fork {t : ShmemManager} (pid : ℤ) (h : Within Q s t) (hpos : 0 < pid)
      (hnone : t.children pid = .none) :
      Within Q s { t with children := Function.update t.children pid .alive }
  /-- `is_initialized` is written. -/
  | mark {t : ShmemManager} (index : ℕ) (value : BitVec 32) (h : Within Q s t)
      (hindex : index < t.limit) (hempty : (t.managerInfos index).filePrefix = []) :
      Within Q s (setInitialized index value t)

/-- In every health check that a call makes, the children that ended lose their entries, and no
other. -/
def ReapsDead (Q : HealthEnv → Prop) (s : ShmemManager) : Prop :=
  ∀ t, Within Q s t → ∀ env, Q env → Reaps env t

/-- Meanwhile children exit. -/
def EndsByExit (env : HealthEnv) : Prop := ExitsOnly env.deaths

theorem Within.listed {Q : HealthEnv → Prop} (h : Within Q s t) (hs : Listed s) : Listed t := by
  induction h with
  | refl => exact hs
  | check env _ _ ih => exact ih.reaped (checkHealth_reaps env _)
  | fork pid _ _ _ ih => exact ih.reaped (reaped_of_children _)
  | mark index value _ hindex hempty ih =>
    obtain ⟨v, hmarked⟩ := ih.marked_of_prefix (lt_of_lt_of_le hindex ih.limit_le) hempty
    exact ih.mark hmarked value

theorem Within.entered {Q : HealthEnv → Prop} (h : Within Q s t) (hs : Entered s) : Entered t := by
  induction h with
  | refl => exact hs
  | check env _ _ ih => exact ih.reaped (checkHealth_reaps env _)
  | fork pid _ _ _ ih => exact ih.reaped (reaped_of_children _)
  | mark index value _ hindex hempty ih =>
    obtain ⟨v, hmarked⟩ := ih.marked_of_prefix hindex hempty
    exact ih.mark hmarked value

theorem Within.tended (h : Within EndsByExit s t) (ho : Entered s) (hs : Tended s) : Tended t := by
  induction h with
  | refl => exact hs
  | check env _ hq ih => exact ih.checked hq
  | fork pid _ _ hnone ih => exact ih.forked hnone
  | mark index value hw hindex hempty ih =>
    have hu := hw.entered ho
    obtain ⟨v, hmarked⟩ := hu.marked_of_prefix hindex hempty
    exact ih.mark hmarked value

theorem within_of_checked {Q : HealthEnv → Prop} (h : Checked Q s t) : Within Q s t := by
  induction h with
  | refl => exact .refl
  | check env _ hq ih => exact .check env ih hq

/-- **Where children exit, all health checks of a call do what they are to do.** -/
theorem reapsDead_of_tended (ho : Listed s) (hs : Tended s) : ReapsDead EndsByExit s :=
  fun _ hw _ hq => reaps_of_tended (hw.listed ho) (hw.tended ho.entered hs) hq

/-! ### Calls -/

theorem Tended.parentProcess (ho : Entered s) (h : Tended s) {p : CStr} {pid : ℤ}
    (hp : Unentered pid s) {env : ManagerInitEnv} (henv : env.All EndsByExit)
    (hlen : p.bytes.length < shmemMaxHugepagePrefix) (socketLimit : Option (ℕ → BitVec 32)) :
    Tended (parentProcess env pid p socketLimit s).2 := by
  have hr := checkHealth_reaps env.index s
  have hu := ho.reaped hr
  have ht := h.checked henv.index
  obtain heq | ⟨index, hindex, hname', hentry⟩ := parentProcess_cases env pid p socketLimit s
  · rw [heq]
    exact ht
  · obtain ⟨value, hempty⟩ := hu.marked_of_prefix (hr.limit ▸ hindex) hname'
    obtain heq | ⟨value', heq⟩ := hentry
    · rw [heq]
      exact ht.mark hempty 0
    · have hmark := ht.mark hempty value'
      have hpid := ((hp.checked h henv.index).mark hempty value').checked hmark henv.set
      obtain ⟨info, hset, hipid, -, -⟩ := setManagerInfo_eq hlen env.set index pid socketLimit
        (setInitialized index value' (checkHealth env.index s))
      rw [heq, hset]
      exact (hmark.checked henv.set).enter (hipid ▸ hpid)

/-- A new manager is the only one with its child. -/
theorem Tended.init (ho : Entered s) (h : Tended s) {filePrefix : Option CStr}
    {env : ManagerInitEnv} (henv : env.All EndsByExit)
    (hname : ∀ p, filePrefix = some p → p.bytes ≠ [] ∧ p.bytes.length < shmemMaxHugepagePrefix)
    (socketLimit : Option (ℕ → BitVec 32)) :
    Tended (fpgaShmemManagerInit filePrefix socketLimit env s).2 := by
  obtain hchecked | ⟨p, u, pid, rfl, -, hmemory, -, hnone, heq⟩ :=
    managerInit_cases henv filePrefix socketLimit s
  · exact (within_of_checked hchecked).tended ho h
  · have hfirst : Checked EndsByExit s (checkHealth env.filePrefix s) := .one henv.filePrefix
    have hsecond := checkMemory_checked henv socketLimit (checkHealth env.filePrefix s)
    rw [hmemory] at hsecond
    have hwithin := within_of_checked (hfirst.trans hsecond)
    have hu := hwithin.tended ho h
    rw [heq]
    exact Tended.parentProcess ((hwithin.entered ho).reaped (reaped_of_children _))
      (hu.forked hnone) (hu.unentered_of_forked hnone) henv (hname p rfl).2 socketLimit

/-! ### Runs -/

/-- The children that end around an operation exit. -/
def ManagerOp.Exits : ManagerOp → Prop
  | .init _ _ env => env.All EndsByExit
  | .childrenEnd deaths => ExitsOnly deaths
  | .finish _ _ => True
  | .setAvailableLimit _ env => EndsByExit env
  | .getAvailablePages env => EndsByExit env
  | .getPidFromPrefix _ env => EndsByExit env

theorem Tended.step (ho : Listed s) (h : Tended s) {op : ManagerOp} (hop : KeepsListed s op)
    (hexits : op.Exits) (ht : managerStep s op = some t) : Tended t := by
  cases ht
  cases op with
  | init filePrefix socketLimit env => exact h.init ho.entered hexits hop socketLimit
  | childrenEnd deaths => exact h.ended hexits
  | finish filePrefix killed => exact h
  | setAvailableLimit socketLimit env =>
    change Tended (fpgaShmemSetAvailableLimit socketLimit env s).2
    obtain heq | ⟨hused, heq⟩ := setAvailableLimit_cases socketLimit env s
    · rw [heq]
      exact h.checked hexits
    · have hchecked := h.checked hexits
      have hset := (ho.reaped (checkHealth_reaps env s)).setLimits (hop hused)
      rw [heq]
      exact ⟨hset.limit_le, hchecked.child, hchecked.pids⟩
  | getAvailablePages env => exact h.checked hexits
  | getPidFromPrefix filePrefix env =>
    change Tended (fpgaShmemGetPidFromPrefix env filePrefix s).2
    rw [getPidFromPrefix_state]
    exact h.checked hexits

theorem ShmemManager.Start.tended (h : s.Start) : Tended s :=
  ⟨h.listed.limit_le, fun _ hi ha => absurd ha (h.not_active hi),
    fun _ hi _ _ ha => absurd ha (h.not_active hi)⟩

/-- **In a run that keeps the table, and in which children exit, every health check clears the
entries of those that ended, and no other.** -/
theorem reapsDead_of_exits (s : ShmemManager) (hstart : s.Start) (ops : List ManagerOp)
    (hops : Along managerStep (fun s op => KeepsListed s op ∧ op.Exits) s ops) :
    Always managerStep (ReapsDead EndsByExit) s ops := by
  have htended : Always managerStep (fun s => Listed s ∧ Tended s) s ops :=
    always_of_along (fun s op t hs hop ht =>
      ⟨hs.1.step hop.1 ht, hs.2.step hs.1 hop.1 hop.2 ht⟩) ⟨hstart.listed, hstart.tended⟩ hops
  exact htended.mono fun s hs => reapsDead_of_tended hs.1 hs.2

/-- A manager that takes two pages exits. -/
theorem reapsDead_exited :
    Always managerStep (ReapsDead EndsByExit) eightEach
      [.init (some prefixA) (some (pagesOf 2 0)) (childMade 5), .childrenEnd [(5, .exited 1)],
        .getAvailablePages quiet] :=
  reapsDead_of_exits eightEach eightEach_start _ (by
    have hquiet : EndsByExit quiet := fun _ hd => absurd hd List.not_mem_nil
    rintro _ ⟨⟩
    refine ⟨⟨by rintro p ⟨⟩; decide, hquiet, hquiet, fun _ => hquiet, hquiet, hquiet⟩, ?_⟩
    rintro _ ⟨⟩
    refine ⟨⟨trivial, fun d hd => ⟨1, by rw [List.mem_singleton.mp hd]⟩⟩, ?_⟩
    rintro _ ⟨⟩
    exact ⟨⟨trivial, hquiet⟩, trivial⟩)

/-- A signal kills the manager: it was waited for, and its entry stays. -/
theorem not_reapsDead_signaled :
    ¬ Always managerStep (ReapsDead fun _ => True) eightEach
      [.init (some prefixA) (some (pagesOf 2 0)) (childMade 5)] := by
  intro h
  have hreaps := (h.2 _ rfl) _ .refl ⟨[(5, .signaled 8 false)], 0⟩ trivial
  exact absurd (hreaps.running 0 (by decide) (by decide)) (by decide)

end HardwareDrivers.Libfpga
