import HardwareDrivers.Libfpga.ShmemFinishAll
import HardwareDrivers.Libfpga.ShmemReaping
import Mathlib.Algebra.BigOperators.Group.Finset.Basic
import Mathlib.Order.Lattice.Nat

/-!
# What is finished after all managers were

`fpga_shmem_manager_finish_all` tells from the pages whether all managers ended: those of default
size have none. It signals the managers below the limit, and stops at the first that `kill` fails
for.

## What is proved

* `finishLoop_cases` — which managers the loop signals.
* `Polled.poll` — what looking for the pages leaves, however the managers end.
* `finishesAll_iff` — where one call finishes all.
* `finishAll_finishes_iff` — where all calls of a run do.
-/

namespace HardwareDrivers.Libfpga

open Theory

variable {s t u : ShmemManager} {killed : ℤ → Bool}

/-! ### The property -/

/-- A manager that was in the table has terminated, and its entry is free. -/
structure Finished (s t : ShmemManager) (i : ℕ) : Prop where
  /-- The child does not run. -/
  terminated : t.children (s.managerInfos i).pid ≠ .alive
  /-- No child has the entry. -/
  gone : ¬ t.Active i
  /-- The entry is as good as a new one. -/
  free : (t.managerInfos i).filePrefix = []

/-- What a call is to do. -/
structure FinishesAll (env : FinishAllEnv) (s : ShmemManager) : Prop where
  /-- When it returns `0`. -/
  done : (fpgaShmemManagerFinishAll env s).1 = .ok () →
    ∀ i < shmemMaxHugepages, s.Active i → Finished s (fpgaShmemManagerFinishAll env s).2 i
  /-- When it fails for one manager, the others have the signal. -/
  others : ∀ err, (fpgaShmemManagerFinishAll env s).1 = .error err → ∃ i,
    ∀ j < shmemMaxHugepages, s.Active j → j ≠ i →
      (s.managerInfos j).pid ∈ (finishLoop env.killed s (List.range s.limit)).1

/-- Where it does: each manager is below the limit, only the last may be one that `kill` fails for,
and no managers that run take no pages together. -/
structure FinishFair (killed : ℤ → Bool) (s : ShmemManager) : Prop where
  /-- The loop comes to each manager. -/
  below : ∀ i < shmemMaxHugepages, s.Active i → i < s.limit
  /-- After one that `kill` fails for there is none. -/
  last : ∀ i < shmemMaxHugepages, s.Active i → killed (s.managerInfos i).pid = false →
    ∀ j < shmemMaxHugepages, s.Active j → j ≤ i
  /-- The pages tell that a manager runs. -/
  pages : (∀ i < shmemMaxHugepages, s.Active i → killed (s.managerInfos i).pid = true) →
    ∀ running : Finset ℕ, running.Nonempty →
      (∀ i ∈ running, i < shmemMaxHugepages ∧ s.Active i ∧
        s.children (s.managerInfos i).pid = .alive) →
      ∑ i ∈ running, (s.managerInfos i).hpLimit ≠ 0

/-! ### The signals -/

/-- The manager of an entry is found by its prefix. -/
theorem Entered.finishPid_eq (h : Entered s) {i : ℕ} (hi : i < s.limit) (ha : s.Active i) :
    finishPid (prefixString s.managerInfos i) s = .ok (s.managerInfos i).pid := by
  have hbelow := lt_of_lt_of_le hi h.limit_le
  unfold finishPid
  cases hfind : (List.range s.limit).find? fun j =>
      !(s.managerInfos j).filePrefix.isEmpty &&
        prefixString s.managerInfos j = prefixString s.managerInfos i with
  | none =>
    have hnot := List.find?_eq_none.mp hfind i (List.mem_range.mpr hi)
    have hname := (h.named hbelow ha).1
    exact absurd (by simpa using hname) hnot
  | some j =>
    have hj := lt_of_lt_of_le (List.mem_range.mp (List.mem_of_find?_eq_some hfind)) h.limit_le
    obtain ⟨hne, heq⟩ : (s.managerInfos j).filePrefix ≠ [] ∧
        prefixString s.managerInfos j = prefixString s.managerInfos i := by
      simpa using List.find?_some hfind
    have haj : s.Active j := by
      by_contra hnot
      obtain ⟨value, hfree⟩ := h.free hj hnot
      rw [hfree] at hne
      exact hne rfl
    rw [h.prefixString_eq hj haj, h.prefixString_eq hbelow ha] at heq
    obtain rfl := h.table.prefixes j hj i hbelow haj ha heq
    exact if_neg (not_le.mpr ha)

/-- **The loop signals all managers, or those before the first that `kill` fails for.** -/
theorem finishLoop_cases (h : Entered s) (killed : ℤ → Bool) {k n : ℕ} (hn : k + n ≤ s.limit) :
    ((finishLoop killed s (List.range' k n)).2 = none ∧ ∀ i, k ≤ i → i < k + n → s.Active i →
        killed (s.managerInfos i).pid = true ∧
        (s.managerInfos i).pid ∈ (finishLoop killed s (List.range' k n)).1) ∨
      ∃ m, k ≤ m ∧ m < k + n ∧ s.Active m ∧ killed (s.managerInfos m).pid = false ∧
        (∃ err, (finishLoop killed s (List.range' k n)).2 = some err) ∧
        (∀ i, k ≤ i → i < m → s.Active i → killed (s.managerInfos i).pid = true) ∧
        ∀ pid, pid ∈ (finishLoop killed s (List.range' k n)).1 ↔
          ∃ i, k ≤ i ∧ i < m ∧ s.Active i ∧ (s.managerInfos i).pid = pid := by
  induction n generalizing k with
  | zero => exact .inl ⟨rfl, fun i hk hlt => absurd hk (not_le.mpr hlt)⟩
  | succ n ih =>
    have hk : k < s.limit := by omega
    have hbelow := lt_of_lt_of_le hk h.limit_le
    have ih := ih (k := k + 1) (by omega)
    rw [List.range'_succ]
    unfold finishLoop
    by_cases ha : s.Active k
    · have hname : (s.managerInfos k).filePrefix.isEmpty = false := by
        simpa using (h.named hbelow ha).1
      rw [hname, if_neg Bool.false_ne_true, h.finishPid_eq hk ha]
      dsimp only
      cases hkill : killed (s.managerInfos k).pid with
      | false =>
        refine .inr ⟨k, le_rfl, by omega, ha, hkill, ⟨_, rfl⟩, fun i _ _ => by omega, fun pid => ?_⟩
        refine iff_of_false List.not_mem_nil ?_
        rintro ⟨i, hki, hik, -⟩
        omega
      | true =>
        obtain ⟨hnone, hall⟩ | ⟨m, hkm, hmn, hm, hfail, herr, hfirst, hsent⟩ := ih
        · refine .inl ⟨hnone, fun i hki hin hai => ?_⟩
          by_cases hi : i = k
          · subst hi
            exact ⟨hkill, List.mem_cons_self ..⟩
          · obtain ⟨hki', hmem⟩ := hall i (by omega) (by omega) hai
            exact ⟨hki', List.mem_cons_of_mem _ hmem⟩
        · refine .inr ⟨m, by omega, by omega, hm, hfail, herr, fun i hki him hai => ?_, fun pid => ?_⟩
          · by_cases hi : i = k
            · exact hi ▸ hkill
            · exact hfirst i (by omega) him hai
          change pid ∈ (s.managerInfos k).pid :: _ ↔ _
          rw [List.mem_cons, hsent]
          constructor
          · rintro (rfl | ⟨i, hki, him, hai, hpid⟩)
            · exact ⟨k, le_rfl, by omega, ha, rfl⟩
            · exact ⟨i, by omega, him, hai, hpid⟩
          · rintro ⟨i, hki, him, hai, hpid⟩
            by_cases hi : i = k
            · subst hi
              exact .inl hpid.symm
            · exact .inr ⟨i, by omega, him, hai, hpid⟩
    · obtain ⟨value, hfree⟩ := h.free hbelow ha
      have hname : (s.managerInfos k).filePrefix.isEmpty = true := by
        rw [hfree]
        rfl
      rw [if_pos hname]
      obtain ⟨hnone, hall⟩ | ⟨m, hkm, hmn, hm, hfail, herr, hfirst, hsent⟩ := ih
      · refine .inl ⟨hnone, fun i hki hin hai => hall i ?_ (by omega) hai⟩
        have hi : i ≠ k := fun hi => ha (hi ▸ hai)
        omega
      · refine .inr ⟨m, by omega, by omega, hm, hfail, herr, fun i hki him hai => ?_,
          fun pid => (hsent pid).trans ?_⟩
        · have hi : i ≠ k := fun hi => ha (hi ▸ hai)
          exact hfirst i (by omega) him hai
        constructor
        · rintro ⟨i, hki, hrest⟩
          exact ⟨i, by omega, hrest⟩
        · rintro ⟨i, hki, him, hai, hpid⟩
          have hi : i ≠ k := fun hi => ha (hi ▸ hai)
          exact ⟨i, by omega, him, hai, hpid⟩

/-! ### The pages -/

/-- The entries of managers below the limit. -/
def ShmemManager.entries (s : ShmemManager) : Finset ℕ := {i ∈ Finset.range s.limit | s.Active i}

/-- The pages in use are those of the managers. -/
theorem Entered.usedPages_eq (h : Entered s) :
    usedPages s = ∑ i ∈ s.entries, (s.managerInfos i).hpLimit := by
  have hsum : ∀ n ≤ s.limit, (List.range n).foldl (fun pages i =>
      if (s.managerInfos i).pid < 0 then pages else pages + (s.managerInfos i).hpLimit) 0 =
        ∑ i ∈ Finset.range n, if s.Active i then (s.managerInfos i).hpLimit else 0 := by
    intro n
    induction n with
    | zero => exact fun _ => rfl
    | succ n ih =>
      intro hn
      have hlt : n < shmemMaxHugepages := lt_of_lt_of_le hn h.limit_le
      rw [List.range_succ, List.foldl_append, List.foldl_cons, List.foldl_nil, ih (by omega),
        Finset.sum_range_succ]
      by_cases ha : s.Active n
      · rw [if_pos ha, if_neg (not_lt.mpr (le_of_lt ha))]
      · obtain ⟨value, hfree⟩ := h.free hlt ha
        rw [if_neg ha, hfree]
        rfl
  exact (hsum s.limit le_rfl).trans (Finset.sum_filter ..).symm

/-! ### The managers that end meanwhile -/

theorem alive_of_endChild {d : ℤ × ChildEnd} {children : ℤ → Child} {pid : ℤ}
    (h : endChild children d pid = .alive) : children pid = .alive := by
  unfold endChild at h
  split at h
  next halive =>
    by_cases hp : pid = d.1
    · exact hp ▸ halive
    · rwa [Function.update_of_ne hp] at h
  next => exact h

theorem alive_of_endChildren {deaths : List (ℤ × ChildEnd)} {children : ℤ → Child} {pid : ℤ}
    (h : endChildren deaths children pid = .alive) : children pid = .alive := by
  induction deaths generalizing children with
  | nil => exact h
  | cons d deaths ih => exact alive_of_endChild (ih h)

theorem alive_of_waitpid {child pid : ℤ} {status : BitVec 32} {children : ℤ → Child}
    (h : (waitpid child status children).2.2 pid = .alive) : children pid = .alive := by
  unfold waitpid at h
  cases hc : children child with
  | none => rwa [hc] at h
  | alive => rwa [hc] at h
  | ended how =>
    rw [hc] at h
    dsimp only at h
    by_cases hp : pid = child
    · subst hp
      rw [Function.update_self] at h
      cases h
    · rwa [Function.update_of_ne hp] at h

theorem alive_of_checkEntry {x : BitVec 32 × ShmemManager} {i : ℕ} {pid : ℤ}
    (h : (checkEntry x i).2.children pid = .alive) : x.2.children pid = .alive := by
  obtain ⟨status, s⟩ := x
  unfold checkEntry at h
  dsimp only at h
  split_ifs at h
  · exact h
  · exact alive_of_waitpid h
  · exact alive_of_waitpid h
  · exact alive_of_waitpid h

/-- A child that runs afterwards ran when the check came. -/
theorem alive_of_checkHealth {env : HealthEnv} {pid : ℤ}
    (h : (checkHealth env s).children pid = .alive) :
    endChildren env.deaths s.children pid = .alive := by
  have hloop : ∀ (is : List ℕ) (x : BitVec 32 × ShmemManager),
      (is.foldl checkEntry x).2.children pid = .alive → x.2.children pid = .alive := by
    intro is
    induction is with
    | nil => exact fun x hx => hx
    | cons i is ih => exact fun x hx => alive_of_checkEntry (ih _ hx)
  exact hloop (List.range s.limit) (env.status, _) h

/-- What some looks at the children leave. -/
structure Polled (s t : ShmemManager) : Prop where
  /-- They only clear entries. -/
  reaped : Reaped s t
  /-- The entries that are left are of children of their own. -/
  tended : Tended t
  /-- A child that runs did so before. -/
  alive : ∀ pid, t.children pid = .alive → s.children pid = .alive
  /-- The entry of a child that runs is kept. -/
  kept : ∀ i, s.Active i → t.children (s.managerInfos i).pid = .alive →
    t.managerInfos i = s.managerInfos i

theorem Tended.polled (h : Tended s) : Polled s s := ⟨.refl s, h, fun _ ha => ha, fun _ _ _ => rfl⟩

theorem Polled.poll (h : Polled s t) {env : HealthEnv} (henv : EndsByExit env) :
    Polled s (checkHealth env t) where
  reaped := h.reaped.trans (checkHealth_reaps env t)
  tended := h.tended.checked henv
  alive pid ha := h.alive pid (alive_of_endChildren (alive_of_checkHealth ha))
  kept i hi ha := by
    have hbefore := alive_of_checkHealth ha
    have hsame := h.kept i hi (alive_of_endChildren hbefore)
    rw [← hsame] at hbefore ⊢
    exact (h.tended.swept henv).kept i fun _ _ => hbefore

/-- When all pages came to be available, some look found none in use. -/
theorem waitAll_done {polls : ℕ → HealthEnv} (hpolls : ∀ k, EndsByExit (polls k)) {tries : ℕ}
    (h : Polled s t) (hdone : (waitAll polls tries t).1 = true) :
    ∃ u env, Polled s u ∧ EndsByExit env ∧ (waitAll polls tries t).2 = checkHealth env u ∧
      usedPages (checkHealth env u) = 0 := by
  induction tries generalizing t with
  | zero => cases hdone
  | succ tries ih =>
    unfold waitAll fpgaShmemGetAvailablePages at hdone ⊢
    dsimp only at hdone ⊢
    split at hdone
    next hpages =>
      rw [if_pos hpages]
      exact ⟨t, polls tries, h, hpolls tries, rfl, sub_eq_self.mp hpages⟩
    next hpages =>
      rw [if_neg hpages]
      exact ih (h.poll (hpolls tries)) hdone

/-! ### One call -/

theorem finishAll_of_failed {env : FinishAllEnv} {err : ManagerErr}
    (hloop : (finishLoop env.killed s (List.range s.limit)).2 = some err) :
    fpgaShmemManagerFinishAll env s = (.error err, s) := by
  unfold fpgaShmemManagerFinishAll
  rw [hloop]

theorem finishAll_of_signalled {env : FinishAllEnv}
    (hloop : (finishLoop env.killed s (List.range s.limit)).2 = none) :
    fpgaShmemManagerFinishAll env s =
      (if (waitAll env.polls maxCnt s).1 then .ok () else .error .fatalError,
        (waitAll env.polls maxCnt s).2) := by
  unfold fpgaShmemManagerFinishAll
  rw [hloop]
  dsimp only
  generalize waitAll env.polls maxCnt s = out
  obtain ⟨done, t⟩ := out
  cases done <;> rfl

/-- The loop as `fpga_shmem_manager_finish_all` runs it. -/
theorem finishLoop_all (h : Entered s) (killed : ℤ → Bool) :
    ((finishLoop killed s (List.range s.limit)).2 = none ∧ ∀ i < s.limit, s.Active i →
        killed (s.managerInfos i).pid = true ∧
        (s.managerInfos i).pid ∈ (finishLoop killed s (List.range s.limit)).1) ∨
      ∃ m < s.limit, s.Active m ∧ killed (s.managerInfos m).pid = false ∧
        (∃ err, (finishLoop killed s (List.range s.limit)).2 = some err) ∧
        (∀ i < m, s.Active i → killed (s.managerInfos i).pid = true) ∧
        ∀ pid, pid ∈ (finishLoop killed s (List.range s.limit)).1 ↔
          ∃ i < m, s.Active i ∧ (s.managerInfos i).pid = pid := by
  rw [List.range_eq_range']
  obtain ⟨hnone, hall⟩ | ⟨m, -, hm, ha, hfail, herr, hfirst, hsent⟩ :=
    finishLoop_cases h killed (k := 0) (n := s.limit) (Nat.zero_add _).le
  · exact .inl ⟨hnone, fun i hi => hall i (Nat.zero_le i) (by omega)⟩
  · refine .inr ⟨m, by omega, ha, hfail, herr, fun i => hfirst i (Nat.zero_le i), fun pid => ?_⟩
    refine (hsent pid).trans (exists_congr fun i => ?_)
    exact and_iff_right (Nat.zero_le i)

theorem mem_entries {i : ℕ} : i ∈ s.entries ↔ i < s.limit ∧ s.Active i := by
  unfold ShmemManager.entries
  rw [Finset.mem_filter, Finset.mem_range]

/-- Where no managers that run take no pages together, none is left when no pages are in use. -/
theorem Polled.none_left (h : Polled s t) (ho : Entered s) {env : HealthEnv}
    (henv : EndsByExit env)
    (hpages : ∀ running : Finset ℕ, running.Nonempty →
      (∀ i ∈ running, i < shmemMaxHugepages ∧ s.Active i ∧
        s.children (s.managerInfos i).pid = .alive) →
      ∑ i ∈ running, (s.managerInfos i).hpLimit ≠ 0)
    (hused : usedPages (checkHealth env t) = 0) {i : ℕ} (hi : i < s.limit) :
    ¬ (checkHealth env t).Active i := by
  intro ha
  have hlast := h.poll henv
  have hlimit := hlast.reaped.limit
  rw [(ho.reaped hlast.reaped).usedPages_eq] at hused
  refine hpages (checkHealth env t).entries ⟨i, mem_entries.mpr ⟨hlimit ▸ hi, ha⟩⟩ (fun j hj => ?_) ?_
  · obtain ⟨hlt, haj⟩ := mem_entries.mp hj
    obtain ⟨hsj, hse⟩ := hlast.reaped.active haj
    have hrun := h.tended.running henv ((checkHealth_reaps env t).limit ▸ hlt) haj
    rw [hse] at hrun
    exact ⟨lt_of_lt_of_le (hlimit ▸ hlt) ho.limit_le, hsj, hlast.alive _ hrun⟩
  · rw [← hused]
    refine Finset.sum_congr rfl fun j hj => ?_
    rw [(hlast.reaped.active (mem_entries.mp hj).2).2]

/-- **Where the condition holds, the call finishes all.** -/
theorem finishesAll_of_fair (ho : Entered s) (h : Tended s) {env : FinishAllEnv}
    (hpolls : ∀ k, EndsByExit (env.polls k)) (hfair : FinishFair env.killed s) :
    FinishesAll env s := by
  obtain ⟨hnone, hall⟩ | ⟨m, hm, ha, hfail, ⟨err, herr⟩, -, hsent⟩ := finishLoop_all ho env.killed
  · have heq := finishAll_of_signalled hnone
    refine ⟨fun hret i hi hai => ?_, fun err _ => ⟨0, fun j hj haj _ =>
      (hall j (hfair.below j hj haj) haj).2⟩⟩
    rw [heq] at hret ⊢
    dsimp only at hret ⊢
    have hdone : (waitAll env.polls maxCnt s).1 = true := by
      by_contra hnot
      rw [if_neg hnot] at hret
      cases hret
    obtain ⟨u, e, hu, he, hstate, hused⟩ := waitAll_done hpolls h.polled hdone
    rw [hstate]
    have hpages := hfair.pages fun j hj haj => (hall j (hfair.below j hj haj) haj).1
    have hgone := hu.none_left ho he hpages hused (hfair.below i hi hai)
    have hlast := hu.poll he
    refine ⟨fun halive => hgone ?_, hgone, ?_⟩
    · unfold ShmemManager.Active
      rw [hlast.kept i hai halive]
      exact hai
    · obtain hsame | ⟨-, hzero⟩ := hlast.reaped.entry i
      · refine absurd ?_ hgone
        unfold ShmemManager.Active
        rw [hsame]
        exact hai
      · rw [hzero]
        rfl
  · have heq := finishAll_of_failed herr
    refine ⟨fun hret => ?_, fun _ _ => ⟨m, fun j hj haj hjm => (hsent _).mpr ⟨j, ?_, haj, rfl⟩⟩⟩
    · rw [heq] at hret
      cases hret
    · exact lt_of_le_of_ne
        (hfair.last m (lt_of_lt_of_le hm ho.limit_le) ha hfail j hj haj) hjm

/-! ### What it takes -/

theorem not_alive_of_mem {deaths : List (ℤ × ChildEnd)} {d : ℤ × ChildEnd} (hd : d ∈ deaths)
    (children : ℤ → Child) : endChildren deaths children d.1 ≠ .alive := by
  induction deaths generalizing children with
  | nil => cases hd
  | cons d' deaths ih =>
    change endChildren deaths (endChild children d') d.1 ≠ .alive
    rcases List.mem_cons.mp hd with rfl | hd
    · intro halive
      have hnow := alive_of_endChildren halive
      unfold endChild at hnow
      split at hnow
      next =>
        rw [Function.update_self] at hnow
        cases hnow
      next hnot => exact hnot hnow
    · exact ih hd _

theorem endChildren_of_not_mem {deaths : List (ℤ × ChildEnd)} {pid : ℤ}
    (h : ∀ d ∈ deaths, d.1 ≠ pid) (children : ℤ → Child) :
    endChildren deaths children pid = children pid := by
  induction deaths generalizing children with
  | nil => rfl
  | cons d deaths ih =>
    obtain ⟨hd, hrest⟩ := List.forall_mem_cons.mp h
    refine (ih hrest (endChild children d)).trans ?_
    unfold endChild
    split
    · exact Function.update_of_ne hd.symm ..
    · rfl

/-- The managers that are to end. -/
def exitOthers (s : ShmemManager) (running : Finset ℕ) : HealthEnv where
  deaths := ((List.range s.limit).filter fun i => s.Active i ∧ i ∉ running).map fun i =>
    ((s.managerInfos i).pid, .exited 0)
  status := 0

theorem exitOthers_exits (s : ShmemManager) (running : Finset ℕ) :
    EndsByExit (exitOthers s running) := by
  intro d hd
  obtain ⟨i, -, rfl⟩ := List.mem_map.mp hd
  exact ⟨0, rfl⟩

/-- All managers end but some that run and take no pages together. -/
theorem finishAll_leaves (ho : Entered s) (h : Tended s)
    (hnone : (finishLoop killed s (List.range s.limit)).2 = none) {running : Finset ℕ}
    (hrunning : ∀ i ∈ running, i < s.limit ∧ s.Active i ∧
      s.children (s.managerInfos i).pid = .alive)
    (hsum : ∑ i ∈ running, (s.managerInfos i).hpLimit = 0) :
    ∃ polls, (∀ k, EndsByExit (polls k)) ∧
      (fpgaShmemManagerFinishAll ⟨killed, polls⟩ s).1 = .ok () ∧
      ∀ i, i ∈ running ∨ s.limit ≤ i →
        (fpgaShmemManagerFinishAll ⟨killed, polls⟩ s).2.managerInfos i = s.managerInfos i := by
  have hexits := exitOthers_exits s running
  have hr := checkHealth_reaps (exitOthers s running) s
  have hswept := h.swept hexits
  have hkept : ∀ i, i ∈ running ∨ s.limit ≤ i →
      (checkHealth (exitOthers s running) s).managerInfos i = s.managerInfos i := by
    intro i hi
    refine hswept.kept i fun hlt ha => ?_
    have hin : i ∈ running := hi.resolve_right (not_le.mpr hlt)
    refine (endChildren_of_not_mem (fun d hd heq => ?_) s.children).trans (hrunning i hin).2.2
    obtain ⟨j, hj, rfl⟩ := List.mem_map.mp hd
    obtain ⟨hj, hjp⟩ := List.mem_filter.mp hj
    obtain ⟨haj, hnot⟩ := of_decide_eq_true hjp
    have hlt' := lt_of_lt_of_le (List.mem_range.mp hj) ho.limit_le
    obtain rfl := h.pids j hlt' i (lt_of_lt_of_le hlt ho.limit_le) haj ha heq
    exact hnot hin
  have hentries : (checkHealth (exitOthers s running) s).entries = running := by
    ext i
    rw [mem_entries, hr.limit]
    constructor
    · rintro ⟨hlt, ha⟩
      by_contra hnot
      obtain ⟨hsa, -⟩ := hr.active ha
      have hmem : ((s.managerInfos i).pid, ChildEnd.exited 0) ∈ (exitOthers s running).deaths :=
        List.mem_map.mpr ⟨i, List.mem_filter.mpr
          ⟨List.mem_range.mpr hlt, decide_eq_true ⟨hsa, hnot⟩⟩, rfl⟩
      have hgone := hswept.gone i hlt hsa (not_alive_of_mem hmem s.children)
      unfold ShmemManager.Active at ha
      rw [hgone] at ha
      exact absurd ha (lt_irrefl 0)
    · intro hin
      obtain ⟨hlt, ha, -⟩ := hrunning i hin
      refine ⟨hlt, ?_⟩
      unfold ShmemManager.Active
      rw [hkept i (.inl hin)]
      exact ha
  have hused : usedPages (checkHealth (exitOthers s running) s) = 0 := by
    rw [(ho.reaped hr).usedPages_eq, hentries, ← hsum]
    exact Finset.sum_congr rfl fun i hi => by rw [hkept i (.inl hi)]
  have hwait : waitAll (fun _ => exitOthers s running) maxCnt s =
      (true, checkHealth (exitOthers s running) s) := by
    unfold waitAll fpgaShmemGetAvailablePages
    dsimp only
    rw [hused, sub_zero, if_pos rfl]
  refine ⟨fun _ => exitOthers s running, fun _ => hexits, ?_⟩
  have heq : fpgaShmemManagerFinishAll ⟨killed, fun _ => exitOthers s running⟩ s =
      (.ok (), checkHealth (exitOthers s running) s) := by
    rw [finishAll_of_signalled hnone, hwait]
    rfl
  rw [heq]
  exact ⟨rfl, hkept⟩

/-- **A call that finishes all however the managers end meets the condition.** -/
theorem fair_of_finishesAll (ho : Entered s) (h : Tended s)
    (hall : ∀ polls, (∀ k, EndsByExit (polls k)) → FinishesAll ⟨killed, polls⟩ s) :
    FinishFair killed s := by
  -- Only one manager may be left without the signal.
  have hstopped : ∀ m < s.limit, s.Active m →
      (∃ err, (finishLoop killed s (List.range s.limit)).2 = some err) →
      (∀ pid, pid ∈ (finishLoop killed s (List.range s.limit)).1 ↔
        ∃ i < m, s.Active i ∧ (s.managerInfos i).pid = pid) →
      ∀ j < shmemMaxHugepages, s.Active j → m ≤ j → j = m := by
    rintro m hm ha ⟨err, herr⟩ hsent j hj haj hmj
    have hquiet : ∀ k : ℕ, EndsByExit ((fun _ => exitOthers s s.entries) k) :=
      fun _ => exitOthers_exits s s.entries
    have hret : (fpgaShmemManagerFinishAll ⟨killed, fun _ => exitOthers s s.entries⟩ s).1 =
        .error err := by
      rw [finishAll_of_failed herr]
    obtain ⟨i, hothers⟩ := (hall _ hquiet).others err hret
    have hleft : ∀ l < shmemMaxHugepages, s.Active l → m ≤ l → l = i := by
      intro l hl hal hml
      by_contra hne
      obtain ⟨l', hlt, hal', hpid⟩ := (hsent _).mp (hothers l hl hal hne)
      obtain rfl := h.pids l' (by omega) l hl hal' hal hpid
      omega
    exact (hleft j hj haj hmj).trans
      (hleft m (lt_of_lt_of_le hm ho.limit_le) ha le_rfl).symm
  have hbelow : ∀ i < shmemMaxHugepages, s.Active i → i < s.limit := by
    intro k hk hak
    by_contra hge
    obtain ⟨hnone, -⟩ | ⟨m, hm, ha, -, herr, -, hsent⟩ := finishLoop_all ho killed
    · obtain ⟨polls, hpolls, hret, hkept⟩ := finishAll_leaves ho h hnone
        (fun i hi => absurd hi (Finset.notMem_empty i)) Finset.sum_empty
      have hgone := ((hall polls hpolls).done hret k hk hak).gone
      unfold ShmemManager.Active at hgone
      rw [hkept k (.inr (not_lt.mp hge))] at hgone
      exact hgone hak
    · have heq := hstopped m hm ha herr hsent k hk hak (by omega)
      omega
  refine ⟨hbelow, fun i hi ha hfail j hj haj => ?_, fun hkill running hne hrunning hsum => ?_⟩
  · obtain ⟨-, hsignalled⟩ | ⟨m, hm, ham, -, herr, hfirst, hsent⟩ := finishLoop_all ho killed
    · rw [(hsignalled i (hbelow i hi ha) ha).1] at hfail
      cases hfail
    · have hmi : m ≤ i := by
        by_contra hlt
        rw [hfirst i (not_le.mp hlt) ha] at hfail
        cases hfail
      by_contra hji
      have heq := hstopped m hm ham herr hsent j hj haj (by omega)
      omega
  · obtain ⟨hnone, -⟩ | ⟨m, hm, ham, hfail, -⟩ := finishLoop_all ho killed
    · obtain ⟨polls, hpolls, hret, hkept⟩ := finishAll_leaves ho h hnone
        (fun i hi => ⟨hbelow i (hrunning i hi).1 (hrunning i hi).2.1, (hrunning i hi).2⟩) hsum
      obtain ⟨i, hi⟩ := hne
      obtain ⟨hlt, ha, -⟩ := hrunning i hi
      have hgone := ((hall polls hpolls).done hret i hlt ha).gone
      unfold ShmemManager.Active at hgone
      rw [hkept i (.inl hi)] at hgone
      exact hgone ha
    · rw [hkill m (lt_of_lt_of_le hm ho.limit_le) ham] at hfail
      cases hfail

/-- **One call finishes all, however the managers end, exactly where the condition holds.** -/
theorem finishesAll_iff (ho : Entered s) (h : Tended s) (killed : ℤ → Bool) :
    (∀ polls, (∀ k, EndsByExit (polls k)) → FinishesAll ⟨killed, polls⟩ s) ↔
      FinishFair killed s := by
  constructor
  · exact fair_of_finishesAll ho h
  · intro hfair polls hpolls
    exact finishesAll_of_fair ho h hpolls hfair

/-! ### Runs -/

/-- A new manager has a prefix with room in its entry, which is not that of a manager at the limit or
beyond; and a limit that is set is not beyond the table. -/
def KeepsEntered (s : ShmemManager) : ManagerCall → Prop
  | .op (.init filePrefix _ _) => ∀ p, filePrefix = some p →
      (p.bytes ≠ [] ∧ p.bytes.length < shmemMaxHugepagePrefix) ∧
        ∀ i < shmemMaxHugepages, s.limit ≤ i → s.Active i → p.bytes ≠ (s.managerInfos i).filePrefix
  | .op (.setAvailableLimit socketLimit env) =>
      (usedPages (checkHealth env s)).toInt ≤ (hugepageNum s.socketNum socketLimit).toInt →
        (hugepageNum s.socketNum socketLimit).toInt ≤ shmemMaxHugepages
  | _ => True

/-- The children that end around a call exit. -/
def ManagerCall.Exits : ManagerCall → Prop
  | .op o => o.Exits
  | .finishAll env => ∀ k, EndsByExit (env.polls k)

theorem Entered.call (h : Entered s) {call : ManagerCall} (hcall : KeepsEntered s call) :
    Entered (call.exec s) := by
  cases call with
  | finishAll env => exact h.reaped (finishAll_reaps env s)
  | op o =>
    cases o with
    | init filePrefix socketLimit env =>
      exact h.init env (fun p hp => (hcall p hp).1) (fun p hp => (hcall p hp).2) socketLimit
    | childrenEnd deaths => exact h.reaped (reaped_of_children _)
    | finish filePrefix killed => exact h
    | setAvailableLimit socketLimit env =>
      have hchecked := h.reaped (checkHealth_reaps env s)
      change Entered (fpgaShmemSetAvailableLimit socketLimit env s).2
      obtain heq | ⟨hused, heq⟩ := setAvailableLimit_cases socketLimit env s
      · rw [heq]
        exact hchecked
      · have hle := hcall hused
        rw [← (checkHealth_reaps env s).socketNum] at hle
        rw [heq]
        exact hchecked.setLimits hle
    | getAvailablePages env => exact h.reaped (checkHealth_reaps env s)
    | getPidFromPrefix filePrefix env =>
      change Entered (fpgaShmemGetPidFromPrefix env filePrefix s).2
      rw [getPidFromPrefix_state]
      exact h.reaped (checkHealth_reaps env s)

theorem waitAll_tended {polls : ℕ → HealthEnv} (hpolls : ∀ k, EndsByExit (polls k)) (tries : ℕ)
    (h : Tended s) : Tended (waitAll polls tries s).2 := by
  induction tries generalizing s with
  | zero => exact h
  | succ tries ih =>
    have hchecked := h.checked (hpolls tries)
    unfold waitAll fpgaShmemGetAvailablePages
    dsimp only
    split
    · exact hchecked
    · exact ih hchecked

theorem Tended.finishAll (h : Tended s) {env : FinishAllEnv} (henv : ∀ k, EndsByExit (env.polls k)) :
    Tended (fpgaShmemManagerFinishAll env s).2 := by
  cases hloop : (finishLoop env.killed s (List.range s.limit)).2 with
  | some err =>
    rw [finishAll_of_failed hloop]
    exact h
  | none =>
    rw [finishAll_of_signalled hloop]
    exact waitAll_tended henv maxCnt h

theorem Tended.call (ho : Entered s) (h : Tended s) {call : ManagerCall}
    (hcall : KeepsEntered s call) (hexits : call.Exits) : Tended (call.exec s) := by
  have hafter := ho.call hcall
  cases call with
  | finishAll env => exact h.finishAll hexits
  | op o =>
    cases o with
    | init filePrefix socketLimit env =>
      exact h.init ho hexits (fun p hp => (hcall p hp).1) socketLimit
    | childrenEnd deaths => exact h.ended hexits
    | finish filePrefix killed => exact h
    | setAvailableLimit socketLimit env =>
      have hchecked := h.checked hexits
      change Entered (fpgaShmemSetAvailableLimit socketLimit env s).2 at hafter
      change Tended (fpgaShmemSetAvailableLimit socketLimit env s).2
      obtain heq | ⟨-, heq⟩ := setAvailableLimit_cases socketLimit env s
      · rw [heq]
        exact hchecked
      · rw [heq] at hafter ⊢
        exact ⟨hafter.limit_le, hchecked.child, hchecked.pids⟩
    | getAvailablePages env => exact h.checked hexits
    | getPidFromPrefix filePrefix env =>
      change Tended (fpgaShmemGetPidFromPrefix env filePrefix s).2
      rw [getPidFromPrefix_state]
      exact h.checked hexits

/-- The calls before keep the table, and children exit. -/
def OrderlyCall (s : ShmemManager) (call : ManagerCall) : Prop := KeepsEntered s call ∧ call.Exits

/-- `fpga_shmem_manager_finish_all` finishes all, however the managers end. -/
def FinishesStep (s : ShmemManager) : ManagerCall → Prop
  | .op _ => True
  | .finishAll env => ∀ polls, (∀ k, EndsByExit (polls k)) → FinishesAll ⟨env.killed, polls⟩ s

/-- Where `fpga_shmem_manager_finish_all` is called, its condition holds. -/
def FairStep (s : ShmemManager) : ManagerCall → Prop
  | .op _ => True
  | .finishAll env => FinishFair env.killed s

/-- **In every orderly run the calls finish all exactly where their condition holds.** -/
theorem finishAll_finishes_iff {s : ShmemManager} (hstart : s.Start) (calls : List ManagerCall)
    (horderly : Along callStep OrderlyCall s calls) :
    Along callStep FinishesStep s calls ↔ Along callStep FairStep s calls := by
  have hboth : Along callStep (fun s call => OrderlyCall s call ∧ FinishesStep s call) s calls ↔
      Along callStep (fun s call => OrderlyCall s call ∧ FairStep s call) s calls := by
    refine along_iff_along (I := fun s => Entered s ∧ Tended s) ?_ ?_
      ⟨hstart.listed.entered, hstart.tended⟩
    · rintro s call _ ⟨ho, h⟩ ⟨⟨hcall, hexits⟩, -⟩ ⟨⟩
      exact ⟨ho.call hcall, h.call ho hcall hexits⟩
    · rintro s call t ⟨ho, h⟩ -
      refine and_congr_right fun _ => ?_
      cases call with
      | op o => exact Iff.rfl
      | finishAll env => exact finishesAll_iff ho h env.killed
  rw [along_and, along_and, and_iff_right horderly, and_iff_right horderly] at hboth
  exact hboth

/-- A manager takes two pages and another one. Both get the signal; the second has ended at the first
look and the first at the next one. -/
def finishTwo : List ManagerCall :=
  [.op (.init (some prefixA) (some (pagesOf 2 0)) (childMade 5)),
    .op (.init (some (shortPrefix 98 (by decide))) (some (pagesOf 0 1)) (childMade 6)),
    .finishAll ⟨fun _ => true, fun k => ⟨if k + 1 = maxCnt then [(6, .exited 0)] else [(5, .exited 0)], 0⟩⟩]

theorem orderly_finishTwo : Along callStep OrderlyCall eightEach finishTwo := by
  have hquiet : EndsByExit quiet := fun _ hd => absurd hd List.not_mem_nil
  have hexited (pid : ℤ) : EndsByExit ⟨[(pid, .exited 0)], 0⟩ := by
    rintro d hd
    obtain rfl := List.mem_singleton.mp hd
    exact ⟨0, rfl⟩
  rintro _ ⟨⟩
  refine ⟨⟨?_, hquiet, hquiet, fun _ => hquiet, hquiet, hquiet⟩, ?_⟩
  · rintro p ⟨⟩
    exact ⟨by decide, fun i _ _ ha => absurd ha (lt_irrefl 0)⟩
  rintro _ ⟨⟩
  refine ⟨⟨?_, hquiet, hquiet, fun _ => hquiet, hquiet, hquiet⟩, ?_⟩
  · rintro p ⟨⟩
    exact ⟨by decide, by decide +kernel⟩
  rintro _ ⟨⟩
  refine ⟨⟨trivial, fun k => ?_⟩, trivial⟩
  dsimp only
  split_ifs
  · exact hexited 6
  · exact hexited 5

/-- Each of the managers takes pages, and so do both together. -/
theorem finishAll_finishes_two : Along callStep FinishesStep eightEach finishTwo := by
  refine (finishAll_finishes_iff eightEach_start _ orderly_finishTwo).mpr ?_
  rintro _ ⟨⟩
  refine ⟨trivial, ?_⟩
  rintro _ ⟨⟩
  refine ⟨trivial, ?_⟩
  rintro _ ⟨⟩
  refine ⟨⟨by decide +kernel, fun i _ _ => nofun, fun _ running hne hrunning => ?_⟩, trivial⟩
  have honly : running ∈ ({0, 1} : Finset ℕ).powerset := by
    refine Finset.mem_powerset.mpr fun i hi => ?_
    obtain ⟨hlt, ha, -⟩ := hrunning i hi
    clear hi
    revert i
    decide +kernel
  clear hrunning
  revert hne
  revert running
  decide +kernel

/-- A manager of default size takes no pages: the call returns `0` while it runs. -/
theorem not_finishAll_finishes : ¬ ∀ (s : ShmemManager) (calls : List ManagerCall), s.Start →
    Along callStep OrderlyCall s calls → Along callStep FinishesStep s calls := by
  intro h
  have hquiet : EndsByExit quiet := fun _ hd => absurd hd List.not_mem_nil
  have hrun := h eightEach [.op (.init (some prefixA) none (childMade 5)),
    .finishAll ⟨fun _ => true, fun _ => quiet⟩] eightEach_start (by
      rintro _ ⟨⟩
      refine ⟨⟨?_, hquiet, hquiet, fun _ => hquiet, hquiet, hquiet⟩, ?_⟩
      · rintro p ⟨⟩
        exact ⟨by decide, fun i _ _ ha => absurd ha (lt_irrefl 0)⟩
      · rintro _ ⟨⟩
        exact ⟨⟨trivial, fun _ => hquiet⟩, trivial⟩)
  have hlast := ((hrun _ rfl).2 _ rfl).1 (fun _ => quiet) fun _ => hquiet
  exact (hlast.done (by decide) 0 (by decide) (by decide)).gone (by decide)

end HardwareDrivers.Libfpga
