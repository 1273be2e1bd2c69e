import Mathlib.Data.Finset.Card
import Mathlib.Logic.Function.Basic

/-!
# A directory

A name denotes a file, or none. Who opens a name to append gets the file that it denotes, or a new
and empty one. A name can be removed; who has its file open goes on with it.

## What is proved

* `Sound.create`, `Sound.remove` — two names never denote one file.
* `card_taken_le`, `Sound.card_taken_succ_lt` — a search through names meets fewer and fewer files.
* `succ_files_le_create` — who opens a name that was free makes a file.
-/

namespace HardwareDrivers.Theory

universe u v

/-- The names in a directory and the files that there were. -/
structure Directory (κ : Type u) (β : Type v) where
  /-- The file that a name denotes. -/
  entry : κ → Option ℕ
  /-- What is in the files. -/
  content : ℕ → List β
  /-- So many files were made. -/
  files : ℕ

namespace Directory

variable {κ : Type u} {β : Type v}

/-- No file was made. -/
def empty : Directory κ β := ⟨fun _ => none, fun _ => [], 0⟩

/-- The file that a name gives when it is opened. -/
def fileOf (d : Directory κ β) (name : κ) : ℕ := (d.entry name).getD d.files

/-- The directory after a name was opened. -/
def create [DecidableEq κ] (d : Directory κ β) (name : κ) : Directory κ β :=
  match d.entry name with
  | some _ => d
  | none => ⟨Function.update d.entry name (some d.files), Function.update d.content d.files [], d.files + 1⟩

/-- What is written at the end of a file. -/
def append (d : Directory κ β) (file : ℕ) (text : List β) : Directory κ β :=
  { d with content := Function.update d.content file (d.content file ++ text) }

/-- A file loses what is in it. -/
def truncate (d : Directory κ β) (file : ℕ) : Directory κ β :=
  { d with content := Function.update d.content file [] }

/-- The directory after a name was removed. -/
def remove [DecidableEq κ] (d : Directory κ β) (name : κ) : Directory κ β :=
  { d with entry := Function.update d.entry name none }

/-- A file is denoted by one name at most, and was made. -/
structure Sound (d : Directory κ β) : Prop where
  /-- It was made. -/
  lt : ∀ name file, d.entry name = some file → file < d.files
  /-- One name denotes it. -/
  inj : ∀ name name' file, d.entry name = some file → d.entry name' = some file → name = name'

variable {d : Directory κ β} {name : κ} {file : ℕ} {text : List β}

/-! ### What the operations do -/

@[simp] theorem append_entry : (d.append file text).entry = d.entry := rfl

@[simp] theorem append_files : (d.append file text).files = d.files := rfl

@[simp] theorem append_content_self : (d.append file text).content file = d.content file ++ text :=
  Function.update_self ..

theorem append_content_of_ne {other : ℕ} (h : other ≠ file) :
    (d.append file text).content other = d.content other := Function.update_of_ne h ..

@[simp] theorem truncate_entry : (d.truncate file).entry = d.entry := rfl

@[simp] theorem truncate_content_self : (d.truncate file).content file = [] := Function.update_self ..

theorem fileOf_free (h : d.entry name = none) : d.fileOf name = d.files := by
  rw [fileOf, h, Option.getD_none]

variable [DecidableEq κ]

@[simp] theorem remove_content : (d.remove name).content = d.content := rfl

@[simp] theorem remove_files : (d.remove name).files = d.files := rfl

theorem remove_entry {other : κ} (h : (d.remove name).entry other = some file) :
    d.entry other = some file := by
  change Function.update d.entry name none other = some file at h
  by_cases hn : other = name
  · rw [hn, Function.update_self] at h
    cases h
  · rwa [Function.update_of_ne hn] at h

/-- A name that is there is opened. -/
theorem create_of_some (h : d.entry name = some file) : d.create name = d := by
  rw [create, h]

/-- A name that is free gets a file. -/
theorem create_of_none (h : d.entry name = none) : d.create name =
    ⟨Function.update d.entry name (some d.files), Function.update d.content d.files [], d.files + 1⟩ := by
  rw [create, h]

theorem create_entry_self : (d.create name).entry name = some (d.fileOf name) := by
  cases h : d.entry name with
  | some f => rw [create_of_some h, fileOf, h, Option.getD_some]
  | none =>
    rw [create_of_none h, fileOf_free h]
    exact Function.update_self ..

theorem create_entry_of_ne {other : κ} (h : other ≠ name) :
    (d.create name).entry other = d.entry other := by
  cases hname : d.entry name with
  | some f => rw [create_of_some hname]
  | none =>
    rw [create_of_none hname]
    exact Function.update_of_ne h ..

theorem create_content_of_lt (h : file < d.files) : (d.create name).content file = d.content file := by
  cases hname : d.entry name with
  | some f => rw [create_of_some hname]
  | none =>
    rw [create_of_none hname]
    exact Function.update_of_ne h.ne ..

theorem create_content_free (h : d.entry name = none) : (d.create name).content d.files = [] := by
  rw [create_of_none h]
  exact Function.update_self ..

theorem create_files_free (h : d.entry name = none) : (d.create name).files = d.files + 1 := by
  rw [create_of_none h]

theorem files_le_create : d.files ≤ (d.create name).files := by
  cases h : d.entry name with
  | some f => rw [create_of_some h]
  | none =>
    rw [create_files_free h]
    exact Nat.le_succ _

/-! ### Two names never denote one file -/

omit [DecidableEq κ] in
theorem sound_empty : (empty : Directory κ β).Sound := ⟨by simp [empty], by simp [empty]⟩

omit [DecidableEq κ] in
theorem Sound.append (h : d.Sound) : (d.append file text).Sound := ⟨h.lt, h.inj⟩

theorem Sound.remove (h : d.Sound) : (d.remove name).Sound :=
  ⟨fun n f hf => h.lt n f (remove_entry hf), fun n n' f hf hf' =>
    h.inj n n' f (remove_entry hf) (remove_entry hf')⟩

theorem Sound.create (h : d.Sound) : (d.create name).Sound := by
  cases hname : d.entry name with
  | some f =>
    rwa [create_of_some hname]
  | none =>
    have hself : (d.create name).entry name = some d.files := by
      rw [create_entry_self, fileOf_free hname]
    refine ⟨fun n f hf => ?_, fun n n' f hf hf' => ?_⟩
    · rw [create_files_free hname]
      by_cases hn : n = name
      · rw [hn, hself] at hf
        cases hf
        exact Nat.lt_succ_self _
      · rw [create_entry_of_ne hn] at hf
        exact (h.lt n f hf).trans (Nat.lt_succ_self _)
    · by_cases hn : n = name <;> by_cases hn' : n' = name
      · rw [hn, hn']
      · rw [hn, hself] at hf
        rw [create_entry_of_ne hn'] at hf'
        cases hf
        exact absurd (h.lt n' _ hf') (lt_irrefl _)
      · rw [hn', hself] at hf'
        rw [create_entry_of_ne hn] at hf
        cases hf'
        exact absurd (h.lt n _ hf) (lt_irrefl _)
      · rw [create_entry_of_ne hn] at hf
        rw [create_entry_of_ne hn'] at hf'
        exact h.inj n n' f hf hf'

/-! ### A free name -/

/-- The files among those made that the names from `k` on denote. -/
noncomputable def taken (d : Directory κ β) (name : ℕ → κ) (k : ℕ) : Finset ℕ := by
  classical exact (Finset.range d.files).filter fun f => ∃ j, k ≤ j ∧ d.entry (name j) = some f

omit [DecidableEq κ] in
theorem mem_taken {name : ℕ → κ} {k f : ℕ} :
    f ∈ d.taken name k ↔ f < d.files ∧ ∃ j, k ≤ j ∧ d.entry (name j) = some f := by
  unfold taken
  simp only [Finset.mem_filter, Finset.mem_range]

omit [DecidableEq κ] in
theorem card_taken_le (name : ℕ → κ) (k : ℕ) : (d.taken name k).card ≤ d.files := by
  have hsub : d.taken name k ⊆ Finset.range d.files := fun f hf => Finset.mem_range.mpr (mem_taken.mp hf).1
  exact (Finset.card_le_card hsub).trans_eq (Finset.card_range _)

theorem taken_remove_subset (names : ℕ → κ) (k : ℕ) : (d.remove name).taken names k ⊆ d.taken names k := by
  intro f hf
  obtain ⟨hlt, j, hj, hentry⟩ := mem_taken.mp hf
  exact mem_taken.mpr ⟨hlt, j, hj, remove_entry hentry⟩

theorem card_taken_create_le (names : ℕ → κ) (k : ℕ) :
    ((d.create name).taken names k).card + d.files ≤ (d.taken names k).card + (d.create name).files := by
  cases hname : d.entry name with
  | some f =>
    rw [create_of_some hname]
  | none =>
    rw [create_files_free hname]
    have hsub : (d.create name).taken names k ⊆ insert d.files (d.taken names k) := by
      intro f hf
      obtain ⟨hlt, j, hj, hentry⟩ := mem_taken.mp hf
      rw [create_files_free hname] at hlt
      refine Finset.mem_insert.mpr ((Nat.lt_succ_iff_lt_or_eq.mp hlt).symm.imp id fun hlt => ?_)
      refine mem_taken.mpr ⟨hlt, j, hj, ?_⟩
      by_cases hn : names j = name
      · rw [hn, create_entry_self, fileOf_free hname] at hentry
        cases hentry
        exact absurd hlt (lt_irrefl _)
      · rwa [create_entry_of_ne hn] at hentry
    have hcard := (Finset.card_le_card hsub).trans (Finset.card_insert_le ..)
    omega

omit [DecidableEq κ] in
/-- A name that is not free is one name less. -/
theorem Sound.card_taken_succ_lt (h : d.Sound) {names : ℕ → κ} (hinj : Function.Injective names) {k f : ℕ}
    (hf : d.entry (names k) = some f) : (d.taken names (k + 1)).card < (d.taken names k).card := by
  refine Finset.card_lt_card (Finset.ssubset_iff_of_subset ?_ |>.mpr ⟨f, ?_, ?_⟩)
  · intro g hg
    obtain ⟨hlt, j, hj, hentry⟩ := mem_taken.mp hg
    exact mem_taken.mpr ⟨hlt, j, (Nat.le_succ k).trans hj, hentry⟩
  · exact mem_taken.mpr ⟨h.lt _ f hf, k, le_rfl, hf⟩
  · intro hg
    obtain ⟨-, j, hj, hentry⟩ := mem_taken.mp hg
    have hkj : k = j := hinj (h.inj _ _ f hf hentry)
    omega

/-- Whether a name denotes a file, as a number. -/
def present (d : Directory κ β) (name : κ) : ℕ := if (d.entry name).isSome then 1 else 0

omit [DecidableEq κ] in
theorem present_le_one (d : Directory κ β) (name : κ) : d.present name ≤ 1 := by
  unfold present
  split_ifs
  · exact le_rfl
  · exact Nat.zero_le 1

omit [DecidableEq κ] in
theorem Sound.present_le_card_taken (h : d.Sound) (names : ℕ → κ) (k : ℕ) :
    d.present (names k) ≤ (d.taken names k).card := by
  unfold present
  split_ifs with hsome
  · obtain ⟨f, hf⟩ := Option.isSome_iff_exists.mp hsome
    exact Finset.card_pos.mpr ⟨f, mem_taken.mpr ⟨h.lt _ f hf, k, le_rfl, hf⟩⟩
  · exact Nat.zero_le _

/-- A name that is opened was there, or there is a file more. -/
theorem succ_files_le_create (d : Directory κ β) (name : κ) :
    1 + d.files ≤ d.present name + (d.create name).files := by
  unfold present
  cases hname : d.entry name with
  | some f =>
    have hle : d.files ≤ (d.create name).files := files_le_create
    rw [Option.isSome_some, if_pos rfl]
    omega
  | none =>
    rw [create_files_free hname]
    omega

theorem present_create_le {other : κ} :
    (d.create other).present name + d.files ≤ d.present name + (d.create other).files := by
  by_cases hname : name = other
  · rw [hname]
    have hle := present_le_one (d.create other) other
    have hsucc := succ_files_le_create d other
    omega
  · have hsame : (d.create other).present name = d.present name := by
      rw [present, create_entry_of_ne hname, present]
    rw [hsame]
    exact Nat.add_le_add_left files_le_create _

theorem present_remove_le {other : κ} : (d.remove other).present name ≤ d.present name := by
  unfold present
  split_ifs with hremoved hname
  · exact le_rfl
  · obtain ⟨f, hf⟩ := Option.isSome_iff_exists.mp hremoved
    rw [remove_entry hf, Option.isSome_some] at hname
    exact absurd rfl hname
  · exact Nat.zero_le 1
  · exact le_rfl

end Directory

end HardwareDrivers.Theory
