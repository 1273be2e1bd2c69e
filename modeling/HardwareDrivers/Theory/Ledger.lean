import Mathlib.Data.List.Nodup
import Mathlib.Logic.Function.Iterate

/-!
# Ledgers of resources

Resources are numbered as they are acquired, so that one which is acquired again is
another one. A ledger has the number of the next resource and the list of those that
were released. Places of a program hold resources; the accounting is right as long as no
two places hold one resource and none holds a resource that was released.

## What is proved

* `Ledger.Sound.put`, `Ledger.Sound.take`, `Ledger.Sound.temp` — acquiring into a place,
  releasing from a place, and acquiring and releasing without a place keep it right.
* `Ledger.Exact.put`, `Ledger.Exact.take`, `Ledger.Exact.temp` — they lose nothing, either.
* `Ledger.not_nodup_release` — what is released again is in the list twice.
* `Ledger.settled_temp`, `Ledger.settled_range`, `Ledger.settled_release` — what is acquired in a row
  and released again settles the ledger.
-/

namespace HardwareDrivers.Theory

universe u

/-- The number of the next resource, and what was released. -/
structure Ledger where
  /-- The number of the next resource. -/
  next : ℕ
  /-- The resources that were released, the last one first. -/
  released : List ℕ
  deriving DecidableEq

namespace Ledger

/-- Nothing was acquired. -/
def empty : Ledger := ⟨0, []⟩

/-- The next resource is acquired. -/
def acquire (l : Ledger) : Ledger := { l with next := l.next + 1 }

/-- A resource is released. -/
def release (l : Ledger) (r : ℕ) : Ledger := { l with released := r :: l.released }

/-- A resource is acquired and released. -/
def temp (l : Ledger) : Ledger := l.acquire.release l.next

/-- The resource was acquired, and not released. -/
def Open (l : Ledger) (r : ℕ) : Prop := r < l.next ∧ r ∉ l.released

instance (l : Ledger) (r : ℕ) : Decidable (l.Open r) := inferInstanceAs (Decidable (_ ∧ _))

variable {ι : Type u} {l : Ledger} {held : ι → Option ℕ} {i : ι} {r : ℕ}

/-- The accounting is right. -/
structure Sound (l : Ledger) (held : ι → Option ℕ) : Prop where
  /-- What is held is open. -/
  isOpen : ∀ i r, held i = some r → l.Open r
  /-- No two places hold one resource. -/
  inj : ∀ i j r, held i = some r → held j = some r → i = j
  /-- Nothing is released twice. -/
  nodup : l.released.Nodup
  /-- What was released was acquired. -/
  old : ∀ r ∈ l.released, r < l.next

theorem sound_empty (h : ∀ i, held i = none) : empty.Sound held := by
  refine ⟨fun i r hi => ?_, fun i j r hi => ?_, List.nodup_nil, fun r hr => by cases hr⟩
  · rw [h i] at hi
    cases hi
  · rw [h i] at hi
    cases hi

theorem Open.acquire (h : l.Open r) : l.acquire.Open r := ⟨Nat.lt_succ_of_lt h.1, h.2⟩

theorem Open.release {r' : ℕ} (h : l.Open r) (hne : r ≠ r') : (l.release r').Open r :=
  ⟨h.1, fun hmem => (List.mem_cons.mp hmem).elim hne h.2⟩

theorem open_of_release {r' : ℕ} (h : (l.release r').Open r) : r ≠ r' ∧ l.Open r :=
  ⟨fun heq => h.2 (List.mem_cons.mpr (.inl heq)), h.1, fun hmem => h.2 (List.mem_cons_of_mem _ hmem)⟩

namespace Sound

/-- The next resource is open once it is acquired. -/
theorem open_next (h : l.Sound held) : l.acquire.Open l.next :=
  ⟨Nat.lt_succ_self _, fun hmem => Nat.lt_irrefl _ (h.old _ hmem)⟩

/-- A resource that no place holds is lost, and stays open. -/
theorem acquire (h : l.Sound held) : l.acquire.Sound held :=
  ⟨fun i r hi => (h.isOpen i r hi).acquire, h.inj, h.nodup, fun r hr => Nat.lt_succ_of_lt (h.old r hr)⟩

/-- What no place holds may be released. -/
theorem release (h : l.Sound held) (hr : l.Open r) (hfree : ∀ i, held i ≠ some r) :
    (l.release r).Sound held := by
  refine ⟨fun i r' hi => (h.isOpen i r' hi).release fun heq => hfree i (heq ▸ hi), h.inj,
    List.nodup_cons.mpr ⟨hr.2, h.nodup⟩, fun r' hr' => ?_⟩
  rcases List.mem_cons.mp hr' with rfl | hr'
  · exact hr.1
  · exact h.old r' hr'

theorem ne_next (h : l.Sound held) (i : ι) : held i ≠ some l.next := fun hi =>
  Nat.lt_irrefl _ (h.isOpen i _ hi).1

/-- A resource is acquired and released. -/
theorem temp (h : l.Sound held) : l.temp.Sound held :=
  h.acquire.release h.open_next h.ne_next

variable [DecidableEq ι]

/-- A place forgets what it holds. -/
theorem forget (h : l.Sound held) (i : ι) : l.Sound (Function.update held i none) := by
  have hsome : ∀ {j r}, Function.update held i none j = some r → held j = some r := by
    intro j r hj
    by_cases heq : j = i
    · rw [heq, Function.update_self] at hj
      cases hj
    · rwa [Function.update_of_ne heq] at hj
  exact ⟨fun j r hj => h.isOpen j r (hsome hj), fun j k r hj hk => h.inj j k r (hsome hj) (hsome hk),
    h.nodup, h.old⟩

/-- A place gets a resource that no place holds. -/
theorem hold (h : l.Sound held) (hr : l.Open r) (hfree : ∀ i, held i ≠ some r) (i : ι) :
    l.Sound (Function.update held i (some r)) := by
  refine ⟨fun j r' hj => ?_, fun j k r' hj hk => ?_, h.nodup, h.old⟩
  · by_cases heq : j = i
    · rw [heq, Function.update_self] at hj
      cases hj
      exact hr
    · rw [Function.update_of_ne heq] at hj
      exact h.isOpen j r' hj
  · by_cases hji : j = i <;> by_cases hki : k = i
    · rw [hji, hki]
    · rw [hji, Function.update_self] at hj
      rw [Function.update_of_ne hki] at hk
      cases hj
      exact absurd hk (hfree k)
    · rw [Function.update_of_ne hji] at hj
      rw [hki, Function.update_self] at hk
      cases hk
      exact absurd hj (hfree j)
    · rw [Function.update_of_ne hji] at hj
      rw [Function.update_of_ne hki] at hk
      exact h.inj j k r' hj hk

/-- **A place acquires** a resource. -/
theorem put (h : l.Sound held) (i : ι) :
    l.acquire.Sound (Function.update held i (some l.next)) :=
  h.acquire.hold h.open_next h.ne_next i

/-- **A place releases** its resource. -/
theorem take (h : l.Sound held) (hi : held i = some r) :
    (l.release r).Sound (Function.update held i none) := by
  refine (h.forget i).release (h.isOpen i r hi) fun j hj => ?_
  by_cases heq : j = i
  · rw [heq, Function.update_self] at hj
    cases hj
  · rw [Function.update_of_ne heq] at hj
    exact heq (h.inj j i r hj hi)

end Sound

/-! ### Nothing is lost -/

/-- Every resource that was acquired and not released is held. -/
def Kept (l : Ledger) (held : ι → Option ℕ) : Prop := ∀ r, l.Open r → ∃ i, held i = some r

/-- The accounting is right, and nothing is lost. -/
structure Exact (l : Ledger) (held : ι → Option ℕ) : Prop extends Sound l held where
  /-- What is open is held. -/
  kept : l.Kept held

theorem exact_empty (h : ∀ i, held i = none) : empty.Exact held :=
  ⟨sound_empty h, fun _ hr => absurd hr.1 (Nat.not_lt_zero _)⟩

theorem open_of_acquire (h : l.acquire.Open r) : r = l.next ∨ l.Open r := by
  rcases Nat.lt_succ_iff_lt_or_eq.mp h.1 with hlt | heq
  · exact .inr ⟨hlt, h.2⟩
  · exact .inl heq

/-- What is acquired without a place is lost. -/
theorem Sound.not_kept_acquire (h : l.Sound held) : ¬ l.acquire.Kept held := by
  intro hk
  obtain ⟨i, hi⟩ := hk l.next h.open_next
  exact h.ne_next i hi

/-- What stays open when its place holds it no longer is lost. -/
theorem Sound.not_kept_update [DecidableEq ι] {l' : Ledger} {x : Option ℕ} (h : l.Sound held)
    (hi : held i = some r) (hr : l'.Open r) (hx : x ≠ some r) :
    ¬ l'.Kept (Function.update held i x) := by
  intro hk
  obtain ⟨j, hj⟩ := hk r hr
  by_cases heq : j = i
  · rw [heq, Function.update_self] at hj
    exact hx hj
  · rw [Function.update_of_ne heq] at hj
    exact heq (h.inj j i r hj hi)

namespace Exact

theorem temp (h : l.Exact held) : l.temp.Exact held := by
  refine ⟨h.toSound.temp, fun r hr => ?_⟩
  obtain ⟨hne, hr⟩ := open_of_release hr
  exact h.kept r ((open_of_acquire hr).resolve_left hne)

/-- However often. -/
theorem temps (h : l.Exact held) (n : ℕ) : (Ledger.temp^[n] l).Exact held := by
  induction n with
  | zero => exact h
  | succ n ih =>
    rw [Function.iterate_succ_apply']
    exact ih.temp

variable [DecidableEq ι]

/-- A place that holds nothing acquires. -/
theorem put (h : l.Exact held) (hi : held i = none) :
    l.acquire.Exact (Function.update held i (some l.next)) := by
  refine ⟨h.toSound.put i, fun r hr => ?_⟩
  rcases open_of_acquire hr with rfl | hr
  · exact ⟨i, Function.update_self ..⟩
  · obtain ⟨j, hj⟩ := h.kept r hr
    refine ⟨j, (Function.update_of_ne ?_ ..).trans hj⟩
    rintro rfl
    cases hi.symm.trans hj

theorem take (h : l.Exact held) (hi : held i = some r) :
    (l.release r).Exact (Function.update held i none) := by
  refine ⟨h.toSound.take hi, fun r' hr' => ?_⟩
  obtain ⟨hne, hr'⟩ := open_of_release hr'
  obtain ⟨j, hj⟩ := h.kept r' hr'
  refine ⟨j, (Function.update_of_ne ?_ ..).trans hj⟩
  rintro rfl
  exact hne (Option.some.inj (hj.symm.trans hi))

end Exact

/-- What is released again is in the list twice. -/
theorem not_nodup_release (h : r ∈ l.released) : ¬ (l.release r).released.Nodup := fun hn =>
  (List.nodup_cons.mp hn).1 h

/-! ### All is given back -/

/-- What was acquired since then was released, each resource once, and nothing else was. -/
def Settled (l l' : Ledger) : Prop :=
  l.next ≤ l'.next ∧ l'.released.Perm (List.range' l.next (l'.next - l.next) ++ l.released)

theorem Settled.refl (l : Ledger) : l.Settled l := by
  refine ⟨Nat.le_refl _, ?_⟩
  rw [Nat.sub_self]
  exact List.Perm.refl _

/-- What was open stays so. -/
theorem Settled.open {l' : Ledger} {r : ℕ} (h : l.Settled l') (hr : l.Open r) : l'.Open r := by
  refine ⟨Nat.lt_of_lt_of_le hr.1 h.1, fun hmem => ?_⟩
  rcases List.mem_append.mp (h.2.mem_iff.mp hmem) with hnew | hold
  · exact absurd hr.1 (Nat.not_lt.mpr (List.mem_range'_1.mp hnew).1)
  · exact hr.2 hold

/-- What was released was acquired. -/
theorem Settled.old {l' : Ledger} (h : l.Settled l') (hl : ∀ r ∈ l.released, r < l.next) :
    ∀ r ∈ l'.released, r < l'.next := by
  intro r hmem
  rcases List.mem_append.mp (h.2.mem_iff.mp hmem) with hnew | hold
  · have hlt := (List.mem_range'_1.mp hnew).2
    rwa [Nat.add_sub_cancel' h.1] at hlt
  · exact Nat.lt_of_lt_of_le (hl r hold) h.1

theorem foldl_release (rs : List ℕ) :
    rs.foldl release l = { l with released := rs.reverse ++ l.released } := by
  induction rs generalizing l with
  | nil => rfl
  | cons r rs ih =>
    rw [List.foldl_cons, ih, List.reverse_cons, List.append_assoc]
    rfl

theorem settled_temp (l : Ledger) : l.Settled l.temp := by
  refine ⟨Nat.le_succ _, ?_⟩
  change (l.next :: l.released).Perm (List.range' l.next (l.next + 1 - l.next) ++ l.released)
  rw [Nat.add_sub_cancel_left]
  exact List.Perm.refl _

/-- What was acquired in a row is released. -/
theorem settled_range (l : Ledger) (k : ℕ) :
    l.Settled ((List.range' l.next k).foldl release { l with next := l.next + k }) := by
  rw [foldl_release]
  refine ⟨Nat.le_add_right .., ?_⟩
  change ((List.range' l.next k).reverse ++ l.released).Perm
    (List.range' l.next (l.next + k - l.next) ++ l.released)
  rw [Nat.add_sub_cancel_left]
  exact (List.reverse_perm _).append_right _

/-- The first resource is released behind those that were acquired after it. -/
theorem settled_release (l : Ledger) (k : ℕ) :
    l.Settled (((List.range' (l.next + 1) k).foldl release
      { l with next := l.next + 1 + k }).release l.next) := by
  rw [foldl_release, Settled]
  change _ ∧ (l.next :: ((List.range' (l.next + 1) k).reverse ++ l.released)).Perm
    (List.range' l.next (l.next + 1 + k - l.next) ++ l.released)
  have hlen : l.next + 1 + k - l.next = k + 1 := by omega
  rw [hlen, List.range'_succ, List.cons_append]
  refine ⟨?_, ((List.reverse_perm _).append_right _).cons _⟩
  change l.next ≤ l.next + 1 + k
  omega

end Ledger

end HardwareDrivers.Theory
