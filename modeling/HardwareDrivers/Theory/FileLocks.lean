import Mathlib.Data.Option.Basic
import Mathlib.Logic.Function.Basic
import Mathlib.Data.BitVec

/-!
# Locks of files

A process opens a file and gets a description of it, which has an offset and may hold the lock of
the file: many share it, or one has it alone. The lock goes with the last step that closes the
description, also when its process ends. A name denotes a file until it is removed; who has it
open goes on with it, and who opens the name then gets another.

## What is proved

* `lock_cases` — who gets the lock alone is the only one who has it.
* `Sound.lock`, `Sound.write`, `Sound.closeAll` and the like — what holds of the locks of all files
  holds after every operation.
-/

namespace HardwareDrivers.Theory

universe u

/-- How the lock of a file is held. -/
inductive FileLock where
  /-- Together with others. -/
  | shared
  /-- Alone. -/
  | exclusive
  deriving DecidableEq, Repr

/-- An open file description. -/
structure Description (ι : Type u) where
  /-- The process that opened it. -/
  owner : ι
  /-- The file. -/
  file : ℕ
  /-- Where the next byte is read or written. -/
  offset : ℕ
  /-- Whether it holds the lock. -/
  lock : Option FileLock

/-- A name, the files that it denoted, and the descriptions of them. -/
structure LockedFile (ι : Type u) where
  /-- The file that the name denotes. -/
  entry : Option ℕ
  /-- What is in the files. -/
  content : ℕ → List (BitVec 8)
  /-- So many files were made. -/
  files : ℕ
  /-- The descriptions that are open. -/
  opened : ℕ → Option (Description ι)
  /-- So many were made. -/
  opens : ℕ

/-- A lock can be had besides what another description holds. -/
def FileLock.admits : FileLock → Option FileLock → Bool
  | _, none => true
  | .shared, some .shared => true
  | _, _ => false

namespace LockedFile

variable {ι : Type u}

/-- Nothing was made. -/
def empty : LockedFile ι := ⟨none, fun _ => [], 0, fun _ => none, 0⟩

/-- A description of the file is made. -/
def describe (owner : ι) (file : ℕ) (s : LockedFile ι) : LockedFile ι :=
  { s with
    opened := Function.update s.opened s.opens (some ⟨owner, file, 0, none⟩)
    opens := s.opens + 1 }

/-- `open` with `O_CREAT`; its description is the next one. -/
def openCreate (owner : ι) (s : LockedFile ι) : LockedFile ι :=
  match s.entry with
  | some file => s.describe owner file
  | none => { s with entry := some s.files, files := s.files + 1 }.describe owner s.files

/-- `open` of a file that is there. -/
def openExisting (owner : ι) (s : LockedFile ι) : Option (LockedFile ι) :=
  s.entry.map fun file => s.describe owner file

/-- No description but `d` keeps it from the lock. -/
def admits (d : ℕ) (lock : FileLock) (s : LockedFile ι) : Bool :=
  (List.range s.opens).all fun e => e = d ||
    match s.opened d, s.opened e with
    | some x, some y => x.file ≠ y.file || lock.admits y.lock
    | _, _ => true

/-- A description is changed. -/
def change (d : ℕ) (f : Description ι → Description ι) (s : LockedFile ι) : LockedFile ι :=
  { s with opened := Function.update s.opened d ((s.opened d).map f) }

/-- `flock`, where it can be had. -/
def lock (d : ℕ) (lock : FileLock) (s : LockedFile ι) : Option (LockedFile ι) :=
  if s.admits d lock then some (s.change d fun x => { x with lock := some lock }) else none

/-- `flock` with `LOCK_UN`. -/
def unlock (d : ℕ) (s : LockedFile ι) : LockedFile ι := s.change d fun x => { x with lock := none }

/-- Bytes replace those from an offset on; up to it there are zeros. -/
def overwrite (offset : ℕ) (bytes old : List (BitVec 8)) : List (BitVec 8) :=
  if bytes = [] then old
  else old.take offset ++ List.replicate (offset - old.length) 0 ++ bytes ++
    old.drop (offset + bytes.length)

/-- `write`. -/
def write (d : ℕ) (bytes : List (BitVec 8)) (s : LockedFile ι) : LockedFile ι :=
  match s.opened d with
  | none => s
  | some x =>
    { s with content := Function.update s.content x.file (overwrite x.offset bytes (s.content x.file)) }.change
      d fun x => { x with offset := x.offset + bytes.length }

/-- How many of `count` bytes `read` returns. -/
def readable (d : ℕ) (count : ℕ) (s : LockedFile ι) : ℕ :=
  (s.opened d).elim 0 fun x => min count ((s.content x.file).length - x.offset)

/-- `close`. -/
def close (d : ℕ) (s : LockedFile ι) : LockedFile ι :=
  { s with opened := Function.update s.opened d none }

/-- A process ends, and what it opened is closed. -/
def closeAll [DecidableEq ι] (owner : ι) (s : LockedFile ι) : LockedFile ι :=
  { s with opened := fun d => (s.opened d).filter fun x => x.owner ≠ owner }

/-- `unlink`. -/
def unlink (s : LockedFile ι) : LockedFile ι := { s with entry := none }

/-! ### What the operations leave -/

variable {s t : LockedFile ι} {o : ι} {d e f : ℕ} {x y : Description ι} {k : FileLock}
  {bytes : List (BitVec 8)}

theorem opened_describe (o : ι) (f : ℕ) (s : LockedFile ι) (e : ℕ) :
    (s.describe o f).opened e = if e = s.opens then some ⟨o, f, 0, none⟩ else s.opened e :=
  Function.update_apply ..

theorem opened_change (d : ℕ) (g : Description ι → Description ι) (s : LockedFile ι) (e : ℕ) :
    (s.change d g).opened e = if e = d then (s.opened d).map g else s.opened e :=
  Function.update_apply ..

theorem opened_close (d : ℕ) (s : LockedFile ι) (e : ℕ) :
    (s.close d).opened e = if e = d then none else s.opened e :=
  Function.update_apply ..

theorem opened_write (d : ℕ) (bytes : List (BitVec 8)) (s : LockedFile ι) (e : ℕ) :
    (s.write d bytes).opened e = if e = d then
      (s.opened d).map fun x => { x with offset := x.offset + bytes.length } else s.opened e := by
  unfold write
  cases hd : s.opened d with
  | none =>
    split_ifs with he
    · rw [he, hd]
      rfl
    · rfl
  | some x =>
    rw [opened_change, ← hd]

theorem openCreate_eq (o : ι) (s : LockedFile ι) :
    ∃ u : LockedFile ι, ∃ file, s.openCreate o = u.describe o file ∧ u.entry = some file ∧
      u.content = s.content ∧ u.opened = s.opened ∧ u.opens = s.opens ∧
      ((s.entry = some file ∧ u.files = s.files) ∨
        (s.entry = none ∧ file = s.files ∧ u.files = s.files + 1)) := by
  unfold openCreate
  cases hentry : s.entry with
  | none =>
    exact ⟨{ s with entry := some s.files, files := s.files + 1 }, s.files, rfl, rfl, rfl, rfl, rfl,
      .inr ⟨rfl, rfl, rfl⟩⟩
  | some file => exact ⟨s, file, rfl, hentry, rfl, rfl, rfl, .inl ⟨rfl, rfl⟩⟩

theorem overwrite_ne_nil_iff {offset : ℕ} {old : List (BitVec 8)} :
    overwrite offset bytes old ≠ [] ↔ bytes ≠ [] ∨ old ≠ [] := by
  unfold overwrite
  split_ifs with hbytes
  · simp [hbytes]
  · simp [hbytes]

/-! ### What holds of the locks -/

/-- Descriptions and files are those that were made, and who has a lock alone is the only one. -/
structure Sound (s : LockedFile ι) : Prop where
  /-- The name denotes a file. -/
  entry : ∀ file, s.entry = some file → file < s.files
  /-- A description is of a file. -/
  file : ∀ d x, s.opened d = some x → x.file < s.files
  /-- The next description is not open. -/
  fresh : ∀ d x, s.opened d = some x → d < s.opens
  /-- No other description of the file has the lock. -/
  alone : ∀ d e x y, d ≠ e → s.opened d = some x → s.opened e = some y → x.file = y.file →
    x.lock = some .exclusive → y.lock = none
  /-- The offset lies in the file. -/
  offset : ∀ d x, s.opened d = some x → x.offset ≤ (s.content x.file).length
  /-- Nothing is in a file that was not made. -/
  unmade : ∀ file, s.files ≤ file → s.content file = []

theorem sound_empty : (empty : LockedFile ι).Sound := by
  constructor <;> simp [empty]

/-- Where each description was there before, and holds no lock that it did not hold, what held of
the locks holds. -/
theorem Sound.weaken (h : s.Sound) (hentry : ∀ file, t.entry = some file → file < t.files)
    (hfiles : s.files ≤ t.files) (hopens : s.opens ≤ t.opens)
    (hcontent : ∀ file, (s.content file).length ≤ (t.content file).length)
    (hunmade : ∀ file, t.files ≤ file → t.content file = s.content file)
    (hopened : ∀ d y, t.opened d = some y →
      (y.lock = none ∧ d < t.opens ∧ y.file < t.files ∧ y.offset ≤ (t.content y.file).length) ∨
      ∃ x, s.opened d = some x ∧ x.file = y.file ∧ (y.lock = none ∨ y.lock = x.lock) ∧
        (y.offset ≤ x.offset ∨ y.offset ≤ (t.content y.file).length)) : t.Sound := by
  refine ⟨hentry, fun d y hy => ?_, fun d y hy => ?_, fun d e y z hne hy hz hfile hlock => ?_,
    fun d y hy => ?_, fun f hf => (hunmade f hf).trans (h.unmade f (hfiles.trans hf))⟩
  · obtain ⟨-, -, hlt, -⟩ | ⟨x, hx, hxy, -⟩ := hopened d y hy
    · exact hlt
    · exact hxy ▸ (h.file d x hx).trans_le hfiles
  · obtain ⟨-, hlt, -⟩ | ⟨x, hx, -⟩ := hopened d y hy
    · exact hlt
    · exact (h.fresh d x hx).trans_le hopens
  · obtain ⟨hnone, -⟩ | ⟨x, hx, hxy, hxl, -⟩ := hopened d y hy
    · rw [hnone] at hlock
      cases hlock
    obtain ⟨hnone, -⟩ | ⟨w, hw, hwz, hwl, -⟩ := hopened e z hz
    · exact hnone
    have hlx : x.lock = some .exclusive := by
      obtain hxl | hxl := hxl
      · rw [hxl] at hlock
        cases hlock
      · rw [← hxl, hlock]
    have hlw := h.alone d e x w hne hx hw (by rw [hxy, hfile, hwz]) hlx
    obtain hwl | hwl := hwl
    · exact hwl
    · rw [hwl, hlw]
  · obtain ⟨-, -, -, hle⟩ | ⟨x, hx, hxy, -, hle | hle⟩ := hopened d y hy
    · exact hle
    · exact hle.trans ((h.offset d x hx).trans (hxy ▸ hcontent x.file))
    · exact hle

theorem Sound.describe (h : s.Sound) (o : ι) (hf : f < s.files) : (s.describe o f).Sound := by
  refine h.weaken h.entry le_rfl (Nat.le_succ _) (fun _ => le_rfl) (fun _ _ => rfl) fun d y hy => ?_
  rw [opened_describe] at hy
  split_ifs at hy with hd
  · cases hy
    exact .inl ⟨rfl, hd ▸ Nat.lt_succ_self _, hf, Nat.zero_le _⟩
  · exact .inr ⟨y, hy, rfl, .inr rfl, .inl le_rfl⟩

theorem Sound.openCreate (h : s.Sound) (o : ι) : (s.openCreate o).Sound := by
  obtain ⟨u, file, heq, hentry, hcontent, hopened, hopens, hfiles⟩ := openCreate_eq o s
  have hfile : file < u.files := by
    obtain ⟨hs, hu⟩ | ⟨-, rfl, hu⟩ := hfiles
    · exact hu ▸ h.entry file hs
    · exact hu ▸ Nat.lt_succ_self _
  rw [heq]
  refine Sound.describe (h.weaken (fun g hg => ?_) ?_ hopens.ge (fun g => ?_)
    (fun g _ => congrFun hcontent g) fun d y hy => ?_) o hfile
  · rw [hentry] at hg
    cases hg
    exact hfile
  · omega
  · rw [hcontent]
  · rw [hopened] at hy
    exact .inr ⟨y, hy, rfl, .inr rfl, .inl le_rfl⟩

theorem Sound.openExisting (h : s.Sound) (o : ι) (ht : s.openExisting o = some t) : t.Sound := by
  obtain ⟨file, hfile, rfl⟩ := Option.map_eq_some_iff.mp ht
  exact h.describe o (h.entry file hfile)

theorem Sound.unlock (h : s.Sound) (d : ℕ) : (s.unlock d).Sound := by
  refine h.weaken h.entry le_rfl le_rfl (fun _ => le_rfl) (fun _ _ => rfl) fun e y hy => ?_
  rw [LockedFile.unlock, opened_change] at hy
  split_ifs at hy with he
  · obtain ⟨x, hx, rfl⟩ := Option.map_eq_some_iff.mp hy
    exact .inr ⟨x, he ▸ hx, rfl, .inl rfl, .inl le_rfl⟩
  · exact .inr ⟨y, hy, rfl, .inr rfl, .inl le_rfl⟩

theorem Sound.close (h : s.Sound) (d : ℕ) : (s.close d).Sound := by
  refine h.weaken h.entry le_rfl le_rfl (fun _ => le_rfl) (fun _ _ => rfl) fun e y hy => ?_
  rw [opened_close] at hy
  split_ifs at hy
  exact .inr ⟨y, hy, rfl, .inr rfl, .inl le_rfl⟩

theorem Sound.closeAll [DecidableEq ι] (h : s.Sound) (o : ι) : (s.closeAll o).Sound := by
  refine h.weaken h.entry le_rfl le_rfl (fun _ => le_rfl) (fun _ _ => rfl) fun e y hy => ?_
  exact .inr ⟨y, (Option.filter_eq_some_iff.mp hy).1, rfl, .inr rfl, .inl le_rfl⟩

theorem Sound.unlink (h : s.Sound) : s.unlink.Sound where
  entry := by simp [LockedFile.unlink]
  file := h.file
  fresh := h.fresh
  alone := h.alone
  offset := h.offset
  unmade := h.unmade

theorem length_overwrite {offset : ℕ} {old : List (BitVec 8)} :
    old.length ≤ (overwrite offset bytes old).length ∧
      (offset ≤ old.length → offset + bytes.length ≤ (overwrite offset bytes old).length) := by
  unfold overwrite
  split_ifs with hbytes
  · simp [hbytes]
  · simp only [List.length_append, List.length_take, List.length_replicate, List.length_drop]
    omega

theorem Sound.write (h : s.Sound) (d : ℕ) (bytes : List (BitVec 8)) : (s.write d bytes).Sound := by
  unfold LockedFile.write
  cases hx : s.opened d with
  | none => exact h
  | some x =>
    have hcontent : ∀ file, (s.content file).length ≤ (Function.update s.content x.file
        (overwrite x.offset bytes (s.content x.file)) file).length := by
      intro file
      rw [Function.update_apply]
      split_ifs with hfile
      · exact hfile ▸ length_overwrite.1
      · exact le_rfl
    have hunmade : ∀ file, s.files ≤ file → Function.update s.content x.file
        (overwrite x.offset bytes (s.content x.file)) file = s.content file := fun file hfile =>
      Function.update_of_ne ((h.file d x hx).trans_le hfile).ne' _ _
    refine h.weaken h.entry le_rfl le_rfl hcontent hunmade fun e y hy => ?_
    rw [opened_change] at hy
    split_ifs at hy with he
    · obtain ⟨w, hw, rfl⟩ := Option.map_eq_some_iff.mp hy
      cases hx.symm.trans hw
      refine .inr ⟨x, he ▸ hx, rfl, .inr rfl, .inr ?_⟩
      change x.offset + bytes.length ≤ (Function.update s.content x.file _ x.file).length
      rw [Function.update_self]
      exact length_overwrite.2 (h.offset d x hx)
    · exact .inr ⟨y, hy, rfl, .inr rfl, .inl le_rfl⟩

/-- Nothing but what others hold keeps a description from the lock. -/
theorem Sound.admits_iff (h : s.Sound) (hx : s.opened d = some x) :
    s.admits d k = true ↔
      ∀ e y, e ≠ d → s.opened e = some y → y.file = x.file → k.admits y.lock = true := by
  unfold LockedFile.admits
  rw [List.all_eq_true]
  constructor
  · intro hall e y hne hy hfile
    have he := hall e (List.mem_range.mpr (h.fresh e y hy))
    simpa [hx, hy, hne, hfile] using he
  · intro hall e _
    cases hy : s.opened e with
    | none => simp [hx]
    | some y =>
      by_cases hne : e = d
      · simp [hne]
      · by_cases hfile : y.file = x.file
        · simp [hx, hall e y hne hy hfile]
        · simp [hx, Ne.symm hfile]

theorem FileLock.admits_exclusive {l : Option FileLock} :
    FileLock.exclusive.admits l = true ↔ l = none := by
  cases l with
  | none => simp [FileLock.admits]
  | some l => cases l <;> simp [FileLock.admits]

theorem FileLock.admits_iff {l : Option FileLock} :
    k.admits l = true → (k = .exclusive → l = none) ∧ l ≠ some .exclusive := by
  cases k <;> cases l with
  | none => simp
  | some l => cases l <;> simp [FileLock.admits]

/-- **Who gets the lock of a file alone is the only one who has it**, and who shares it shares it with
nobody who has it alone. -/
theorem lock_cases (h : s.Sound) (ht : s.lock d k = some t) (hx : s.opened d = some x) :
    t = s.change d (fun x => { x with lock := some k }) ∧
      ∀ e y, e ≠ d → s.opened e = some y → y.file = x.file →
        (k = .exclusive → y.lock = none) ∧ y.lock ≠ some .exclusive := by
  unfold LockedFile.lock at ht
  split_ifs at ht with hadmits
  cases ht
  exact ⟨rfl, fun e y hne hy hfile =>
    FileLock.admits_iff ((h.admits_iff hx).mp hadmits e y hne hy hfile)⟩

theorem Sound.lock (h : s.Sound) (ht : s.lock d k = some t) : t.Sound := by
  cases hx : s.opened d with
  | none =>
    unfold LockedFile.lock at ht
    split_ifs at ht
    cases ht
    refine h.weaken h.entry le_rfl le_rfl (fun _ => le_rfl) (fun _ _ => rfl) fun e y hy => ?_
    rw [opened_change] at hy
    split_ifs at hy
    · rw [hx] at hy
      cases hy
    · exact .inr ⟨y, hy, rfl, .inr rfl, .inl le_rfl⟩
  | some x =>
    obtain ⟨rfl, hothers⟩ := lock_cases h ht hx
    -- a description other than `d` is as before, and `d` is of the file that it was of
    have hopened : ∀ e y, (s.change d fun x => { x with lock := some k }).opened e = some y →
        (e ≠ d ∧ s.opened e = some y) ∨ (e = d ∧ y = { x with lock := some k }) := by
      intro e y hy
      rw [opened_change] at hy
      split_ifs at hy with he
      · rw [hx] at hy
        cases hy
        exact .inr ⟨he, rfl⟩
      · exact .inl ⟨he, hy⟩
    refine ⟨h.entry, fun e y hy => ?_, fun e y hy => ?_, fun e g y z hne hy hz hfile hlock => ?_,
      fun e y hy => ?_, h.unmade⟩
    · obtain ⟨-, hs⟩ | ⟨rfl, rfl⟩ := hopened e y hy
      · exact h.file e y hs
      · exact h.file e x hx
    · obtain ⟨-, hs⟩ | ⟨rfl, rfl⟩ := hopened e y hy
      · exact h.fresh e y hs
      · exact h.fresh e x hx
    · obtain ⟨he, hsy⟩ | ⟨rfl, rfl⟩ := hopened e y hy
      · obtain ⟨hg, hsz⟩ | ⟨rfl, rfl⟩ := hopened g z hz
        · exact h.alone e g y z hne hsy hsz hfile hlock
        · exact absurd hlock (hothers e y he hsy hfile).2
      · obtain ⟨hg, hsz⟩ | ⟨rfl, rfl⟩ := hopened g z hz
        · cases hlock
          exact (hothers g z hg hsz hfile.symm).1 rfl
        · exact absurd rfl hne
    · obtain ⟨-, hs⟩ | ⟨rfl, rfl⟩ := hopened e y hy
      · exact h.offset e y hs
      · exact h.offset e x hx

/-! ### What a process leaves to the others -/

/-- The descriptions of the other processes are as they were. -/
def SameBut (o : ι) (s t : LockedFile ι) : Prop :=
  ∀ d x, x.owner ≠ o → (t.opened d = some x ↔ s.opened d = some x)

theorem SameBut.refl (o : ι) (s : LockedFile ι) : SameBut o s s := fun _ _ _ => Iff.rfl

theorem Sound.sameBut_describe (h : s.Sound) (o : ι) (f : ℕ) : SameBut o s (s.describe o f) := by
  intro d y hy
  rw [opened_describe]
  split_ifs with hd
  · refine iff_of_false ?_ fun hs => absurd (h.fresh d y hs) (hd ▸ lt_irrefl _)
    rintro ⟨⟩
    exact hy rfl
  · exact Iff.rfl

theorem Sound.sameBut_openCreate (h : s.Sound) (o : ι) : SameBut o s (s.openCreate o) := by
  obtain ⟨u, file, heq, -, -, hopened, hopens, -⟩ := openCreate_eq o s
  intro d y hy
  rw [heq, opened_describe, hopens, hopened]
  have hdescribe := h.sameBut_describe o file d y hy
  rwa [opened_describe] at hdescribe

theorem sameBut_update {g : Option (Description ι)} (hx : s.opened d = some x) (ho : x.owner = o)
    (hg : ∀ y, g = some y → y.owner = o) (ht : ∀ e, t.opened e = if e = d then g else s.opened e) :
    SameBut o s t := by
  intro e y hy
  rw [ht]
  split_ifs with he
  · refine iff_of_false (fun hgy => hy (hg y hgy)) fun hs => ?_
    subst he
    cases hx.symm.trans hs
    exact hy ho
  · exact Iff.rfl

theorem sameBut_change {g : Description ι → Description ι} (hx : s.opened d = some x)
    (ho : x.owner = o) (hg : ∀ y, (g y).owner = y.owner) : SameBut o s (s.change d g) := by
  refine sameBut_update hx ho (fun y hy => ?_) (opened_change d g s)
  obtain ⟨w, hw, rfl⟩ := Option.map_eq_some_iff.mp hy
  cases hx.symm.trans hw
  exact (hg x).trans ho

theorem sameBut_write (hx : s.opened d = some x) (ho : x.owner = o) (bytes : List (BitVec 8)) :
    SameBut o s (s.write d bytes) := by
  refine sameBut_update hx ho (fun y hy => ?_) (opened_write d bytes s)
  obtain ⟨w, hw, rfl⟩ := Option.map_eq_some_iff.mp hy
  cases hx.symm.trans hw
  exact ho

theorem sameBut_close (hx : s.opened d = some x) (ho : x.owner = o) : SameBut o s (s.close d) :=
  sameBut_update hx ho (fun _ hy => by cases hy) (opened_close d s)

theorem sameBut_closeAll [DecidableEq ι] (o : ι) (s : LockedFile ι) : SameBut o s (s.closeAll o) := by
  intro d y hy
  unfold closeAll
  rw [Option.filter_eq_some_iff]
  exact and_iff_left (by simpa using hy)

end LockedFile

end HardwareDrivers.Theory
