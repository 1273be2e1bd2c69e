import Mathlib.Data.List.Nodup
import Mathlib.Logic.Function.Basic

/-!
# Writes that can break off

A list of writes is carried out until one of them fails. A module with a control cell is set up by
such a list: it is stopped, its fields are written, and its control cell gets its last value. Wherever
the list breaks off, the module is as it was, or stopped, or set up (`Setup.sound_take`).

Two modules are set up one after the other, the second also when the list of the first broke off
(`Setup.both`).
-/

namespace HardwareDrivers.Theory

universe u v

variable {α : Type u} {β : Type v} [DecidableEq α]

/-! ### Writes -/

/-- A memory, what was written to it, and how many writes were tried. -/
structure WriteState (α : Type u) (β : Type v) where
  /-- The memory. -/
  mem : α → β
  /-- The writes that were done, in their order. -/
  log : List (α × β)
  /-- The writes that were tried. -/
  tries : ℕ

/-- One write; `ok` says which of them are done. -/
def tryWrite (ok : ℕ → Bool) (w : α × β) (s : WriteState α β) : Bool × WriteState α β :=
  if ok s.tries then (true, ⟨Function.update s.mem w.1 w.2, s.log ++ [w], s.tries + 1⟩)
  else (false, { s with tries := s.tries + 1 })

/-- Writes until one fails. -/
def writeAll (ok : ℕ → Bool) : List (α × β) → WriteState α β → Bool × WriteState α β
  | [], s => (true, s)
  | w :: ws, s =>
    match tryWrite ok w s with
    | (true, s) => writeAll ok ws s
    | (false, s) => (false, s)

/-- What writes leave in a memory. -/
def store (mem : α → β) (ws : List (α × β)) : α → β :=
  ws.foldl (fun mem w => Function.update mem w.1 w.2) mem

@[simp] theorem store_nil (mem : α → β) : store mem [] = mem := rfl

@[simp] theorem store_cons (mem : α → β) (w : α × β) (ws : List (α × β)) :
    store mem (w :: ws) = store (Function.update mem w.1 w.2) ws := rfl

@[simp] theorem store_append (mem : α → β) (ws vs : List (α × β)) :
    store mem (ws ++ vs) = store (store mem ws) vs := by
  simp [store]

/-- What no write is for stays. -/
theorem store_of_notMem {mem : α → β} {ws : List (α × β)} {a : α} (h : a ∉ ws.map Prod.fst) :
    store mem ws a = mem a := by
  induction ws generalizing mem with
  | nil => rfl
  | cons w ws ih =>
    rw [List.map_cons, List.mem_cons, not_or] at h
    rw [store_cons, ih h.2, Function.update_of_ne h.1]

/-- What a write is for has its value, if it is the only one. -/
theorem store_of_mem {mem : α → β} {ws : List (α × β)} (hnodup : (ws.map Prod.fst).Nodup)
    {w : α × β} (hw : w ∈ ws) : store mem ws w.1 = w.2 := by
  induction ws generalizing mem with
  | nil => cases hw
  | cons v ws ih =>
    rw [List.map_cons, List.nodup_cons] at hnodup
    rcases List.mem_cons.1 hw with rfl | hw
    · rw [store_cons, store_of_notMem hnodup.1, Function.update_self]
    · exact ih hnodup.2 hw

/-- Where the writes break off. -/
theorem writeAll_cases (ok : ℕ → Bool) (ws : List (α × β)) (s : WriteState α β) :
    ∃ k ≤ ws.length, (writeAll ok ws s).2.mem = store s.mem (ws.take k) ∧
      (writeAll ok ws s).2.log = s.log ++ ws.take k ∧
      ((writeAll ok ws s).1 = true ↔ k = ws.length) := by
  induction ws generalizing s with
  | nil => exact ⟨0, by simp, by simp [writeAll], by simp [writeAll], by simp [writeAll]⟩
  | cons w ws ih =>
    by_cases hok : ok s.tries
    · obtain ⟨k, hk, hmem, hlog, hall⟩ :=
        ih ⟨Function.update s.mem w.1 w.2, s.log ++ [w], s.tries + 1⟩
      have hrun : writeAll ok (w :: ws) s =
          writeAll ok ws ⟨Function.update s.mem w.1 w.2, s.log ++ [w], s.tries + 1⟩ := by
        simp [writeAll, tryWrite, hok]
      rw [hrun]
      refine ⟨k + 1, by simpa using hk, by simpa using hmem, by simpa using hlog, ?_⟩
      simpa using hall
    · refine ⟨0, by simp, ?_, ?_, ?_⟩ <;> simp [writeAll, tryWrite, hok]

/-- Without a failure all writes are done. -/
theorem writeAll_ok (ws : List (α × β)) (s : WriteState α β) :
    (writeAll (fun _ => true) ws s).1 = true ∧
      (writeAll (fun _ => true) ws s).2.log = s.log ++ ws := by
  induction ws generalizing s with
  | nil => simp [writeAll]
  | cons w ws ih =>
    obtain ⟨hall, hlog⟩ := ih ⟨Function.update s.mem w.1 w.2, s.log ++ [w], s.tries + 1⟩
    exact ⟨by simpa [writeAll, tryWrite] using hall, by simpa [writeAll, tryWrite] using hlog⟩

/-! ### The setup of a module -/

/-- How a module is set up. -/
structure Setup (α : Type u) (β : Type v) where
  /-- The control cell. -/
  control : α
  /-- What the control cell has while the module is stopped. -/
  stop : β
  /-- The fields with their values. -/
  fields : List (α × β)
  /-- What the control cell has at the end. -/
  last : β

namespace Setup

variable (p q : Setup α β)

/-- Stop, set, start. -/
def writes : List (α × β) := (p.control, p.stop) :: (p.fields ++ [(p.control, p.last)])

/-- The cells of the module. -/
def cells : List α := p.control :: p.fields.map Prod.fst

/-- The module is set up. -/
def Done (mem : α → β) : Prop := mem p.control = p.last ∧ ∀ w ∈ p.fields, mem w.1 = w.2

/-- The module is as it was, or stopped, or set up. -/
def Sound (mem mem' : α → β) : Prop :=
  (∀ a ∈ p.cells, mem' a = mem a) ∨ mem' p.control = p.stop ∨ p.Done mem'

/-- The writes to the module are all that there are. -/
def Complete (log : List (α × β)) : Prop := log.filter (fun w => w.1 ∈ p.cells) = p.writes

variable {p q}

omit [DecidableEq α] in
theorem mem_cells_of_writes {w : α × β} (h : w ∈ p.writes) : w.1 ∈ p.cells := by
  simp only [writes, cells, List.mem_cons, List.mem_append, List.not_mem_nil, or_false] at h ⊢
  rcases h with rfl | h | rfl
  · exact .inl rfl
  · exact .inr (List.mem_map_of_mem h)
  · exact .inl rfl

/-- All writes. -/
theorem done_writes (hp : p.cells.Nodup) (mem : α → β) : p.Done (store mem p.writes) := by
  obtain ⟨hcontrol, hfields⟩ := List.nodup_cons.1 hp
  constructor
  · simp [writes]
  · intro w hw
    have hne : w.1 ≠ p.control := fun heq => hcontrol (heq ▸ List.mem_map_of_mem hw)
    simp [writes, Function.update_of_ne hne, store_of_mem hfields hw]

/-- Wherever the writes break off. -/
theorem sound_take (hp : p.cells.Nodup) (mem : α → β) (k : ℕ) :
    p.Sound mem (store mem (p.writes.take k)) := by
  obtain ⟨hcontrol, -⟩ := List.nodup_cons.1 hp
  rcases k with _ | k
  · exact .inl fun a _ => rfl
  rcases Nat.lt_or_ge p.fields.length k with hk | hk
  · -- to the end
    have hall : p.writes.take (k + 1) = p.writes := List.take_of_length_le (by simp [writes]; omega)
    rw [hall]
    exact .inr (.inr (done_writes hp mem))
  · -- before the last write: nothing but the first was for the control cell
    have hpart : p.writes.take (k + 1) = (p.control, p.stop) :: p.fields.take k := by
      simp [writes, List.take_append_of_le_length hk]
    have hnot : p.control ∉ (p.fields.take k).map Prod.fst := fun hmem =>
      hcontrol (List.map_subset _ (List.take_subset k _) hmem)
    refine .inr (.inl ?_)
    rw [hpart, store_cons, store_of_notMem hnot, Function.update_self]

omit [DecidableEq α] in
/-- What is said of a module depends on its own cells. -/
theorem Done.congr {mem mem' : α → β} (h : p.Done mem) (hmem : ∀ a ∈ p.cells, mem' a = mem a) :
    p.Done mem' := by
  refine ⟨(hmem _ List.mem_cons_self).trans h.1, fun w hw => ?_⟩
  rw [hmem _ (List.mem_cons_of_mem _ (List.mem_map_of_mem hw)), h.2 w hw]

omit [DecidableEq α] in
theorem Sound.congr {mem mem₁ mem' mem₁' : α → β} (h : p.Sound mem mem')
    (hmem : ∀ a ∈ p.cells, mem₁ a = mem a) (hmem' : ∀ a ∈ p.cells, mem₁' a = mem' a) :
    p.Sound mem₁ mem₁' := by
  rcases h with h | h | h
  · exact .inl fun a ha => by rw [hmem' a ha, h a ha, hmem a ha]
  · exact .inr (.inl ((hmem' _ List.mem_cons_self).trans h))
  · exact .inr (.inr (h.congr hmem'))

theorem filter_self {k : ℕ} :
    (p.writes.take k).filter (fun w => w.1 ∈ p.cells) = p.writes.take k :=
  List.filter_eq_self.2 fun w hw => by simpa using mem_cells_of_writes (List.mem_of_mem_take hw)

theorem filter_other (hpq : p.cells.Disjoint q.cells) {k : ℕ} :
    (q.writes.take k).filter (fun w => w.1 ∈ p.cells) = [] :=
  List.filter_eq_nil_iff.2 fun w hw => by
    simpa using fun hp => hpq hp (mem_cells_of_writes (List.mem_of_mem_take hw))

omit [DecidableEq α] in
theorem complete_take {k : ℕ} (hk : k ≤ p.writes.length) :
    p.writes.take k = p.writes ↔ k = p.writes.length := by
  constructor
  · intro h
    have hlength := congrArg List.length h
    simp only [List.length_take] at hlength
    omega
  · rintro rfl
    exact List.take_length

/-- The cells of another module stay. -/
theorem store_other (hpq : p.cells.Disjoint q.cells) (mem : α → β) (k : ℕ) {a : α}
    (ha : a ∈ p.cells) : store mem (q.writes.take k) a = mem a := by
  apply store_of_notMem
  intro hmem
  obtain ⟨w, hw, rfl⟩ := List.mem_map.1 hmem
  exact hpq ha (mem_cells_of_writes (List.mem_of_mem_take hw))

/-- Two modules, the second also after a failure of the first. -/
theorem both (hp : p.cells.Nodup) (hq : q.cells.Nodup) (hpq : p.cells.Disjoint q.cells)
    (ok : ℕ → Bool) (mem : α → β) {first second : Bool × WriteState α β}
    (hfirst : writeAll ok p.writes ⟨mem, [], 0⟩ = first)
    (hsecond : writeAll ok q.writes first.2 = second) :
    (p.Sound mem second.2.mem ∧ q.Sound mem second.2.mem) ∧
      (p.Complete second.2.log ↔ first.1 = true) ∧ (q.Complete second.2.log ↔ second.1 = true) ∧
      (first.1 = true → p.Done second.2.mem) ∧ (second.1 = true → q.Done second.2.mem) := by
  obtain ⟨k, hk, hmem₁, hlog₁, hall₁⟩ := writeAll_cases ok p.writes ⟨mem, [], 0⟩
  obtain ⟨j, hj, hmem₂, hlog₂, hall₂⟩ := writeAll_cases ok q.writes first.2
  rw [hfirst] at hmem₁ hlog₁ hall₁
  rw [hsecond, hmem₁] at hmem₂
  rw [hsecond, hlog₁, List.nil_append] at hlog₂
  rw [hsecond] at hall₂
  -- the cells of one module do not see the writes to the other
  have hkeep : ∀ a ∈ p.cells, second.2.mem a = store mem (p.writes.take k) a := fun a ha => by
    rw [hmem₂, store_other hpq _ j ha]
  refine ⟨⟨?_, ?_⟩, ?_, ?_, ?_, ?_⟩
  · exact (sound_take hp mem k).congr (fun _ _ => rfl) hkeep
  · rw [hmem₂]
    exact (sound_take hq _ j).congr
      (fun a ha => (store_other (List.disjoint_symm hpq) mem k ha).symm) fun _ _ => rfl
  · rw [Complete, hlog₂, List.filter_append, filter_self, filter_other hpq, List.append_nil,
      complete_take hk, hall₁]
  · rw [Complete, hlog₂, List.filter_append, filter_self, filter_other (List.disjoint_symm hpq),
      List.nil_append, complete_take hj, hall₂]
  · intro h
    rw [(complete_take hk).2 (hall₁.1 h)] at hkeep
    exact (done_writes hp mem).congr hkeep
  · intro h
    rw [hmem₂, (complete_take hj).2 (hall₂.1 h)]
    exact done_writes hq _

end Setup

end HardwareDrivers.Theory
