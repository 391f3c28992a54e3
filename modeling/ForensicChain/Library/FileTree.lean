import Mathlib.Data.Finmap

/-!
Directories with files in them, and the calls that make and remove both. A directory is removed
only when it is empty.
-/

/-- The files of every directory. -/
abbrev FileTree (δ ν β : Type*) := Finmap fun _ : δ => Finmap fun _ : ν => β

namespace FileTree

variable {δ ν β : Type*} [DecidableEq δ] [DecidableEq ν] {t u : FileTree δ ν β}
  {d e : δ} {n m : ν} {b : β}

/-- The content of a file. -/
def read (t : FileTree δ ν β) (d : δ) (n : ν) : Option β := (t.lookup d).bind (Finmap.lookup n)

/-- `os.makedirs` with `exist_ok`. -/
def makedirs (t : FileTree δ ν β) (d : δ) : FileTree δ ν β := if d ∈ t then t else t.insert d ∅

/-- A file gets a content and is made if need be; `none` is a missing directory. -/
def write (t : FileTree δ ν β) (d : δ) (n : ν) (b : β) : Option (FileTree δ ν β) :=
  (t.lookup d).map fun files => t.insert d (files.insert n b)

/-- The content of a file is changed, if the file is there. -/
def modify (t : FileTree δ ν β) (d : δ) (n : ν) (f : β → β) : FileTree δ ν β :=
  ((t.read d n).bind fun b => t.write d n (f b)).getD t

/-- `os.remove`; `none` is a missing file. -/
def remove (t : FileTree δ ν β) (d : δ) (n : ν) : Option (FileTree δ ν β) :=
  (t.lookup d).bind fun files => if n ∈ files then some (t.insert d (files.erase n)) else none

/-- A file is removed if it exists. -/
def discard (t : FileTree δ ν β) (d : δ) (n : ν) : FileTree δ ν β := (t.remove d n).getD t

/-- `os.rmdir`; `none` is a missing directory or one with files in it. -/
def rmdir (t : FileTree δ ν β) (d : δ) : Option (FileTree δ ν β) :=
  (t.lookup d).bind fun files => if files.keys = ∅ then some (t.erase d) else none

/-- A file is removed if it exists, and then its directory if that goes. -/
def prune (t : FileTree δ ν β) (d : δ) (n : ν) : FileTree δ ν β :=
  ((t.discard d n).rmdir d).getD (t.discard d n)

/-- No directory is empty. -/
def Occupied (t : FileTree δ ν β) : Prop := ∀ d ∈ t, ∃ n, (t.read d n).isSome

theorem mem_of_read (h : t.read d n = some b) : d ∈ t := by
  obtain ⟨files, hfiles, _⟩ := Option.bind_eq_some_iff.mp h
  exact Finmap.mem_of_lookup_eq_some hfiles

omit [DecidableEq ν] in
theorem mem_makedirs : e ∈ t.makedirs d ↔ e = d ∨ e ∈ t := by
  unfold makedirs
  split_ifs with hd
  · exact ⟨.inr, fun h => h.elim (fun he => he ▸ hd) id⟩
  · exact Finmap.mem_insert

@[simp]
theorem read_makedirs : (t.makedirs d).read e n = t.read e n := by
  unfold makedirs
  split_ifs with hd
  · rfl
  · by_cases he : e = d
    · subst he
      simp [read, Finmap.lookup_eq_none.mpr hd]
    · simp [read, Finmap.lookup_insert_of_ne _ he]

/-- In a directory that is there a file can be made. -/
theorem write_of_mem (h : d ∈ t) : ∃ u, t.write d n b = some u := by
  obtain ⟨files, hfiles⟩ := Finmap.mem_iff.mp h
  exact ⟨_, by rw [write, hfiles, Option.map_some]⟩

theorem mem_write (h : t.write d n b = some u) : e ∈ u ↔ e ∈ t := by
  obtain ⟨files, hfiles, rfl⟩ := Option.map_eq_some_iff.mp h
  rw [Finmap.mem_insert]
  exact or_iff_right_of_imp fun he => he ▸ Finmap.mem_of_lookup_eq_some hfiles

theorem read_write_self (h : t.write d n b = some u) : u.read d n = some b := by
  obtain ⟨files, hfiles, rfl⟩ := Option.map_eq_some_iff.mp h
  simp [read]

theorem read_write_of_ne (h : t.write d n b = some u) (hne : ¬ (e = d ∧ m = n)) :
    u.read e m = t.read e m := by
  obtain ⟨files, hfiles, rfl⟩ := Option.map_eq_some_iff.mp h
  by_cases he : e = d
  · subst he
    have hm : m ≠ n := fun hm => hne ⟨rfl, hm⟩
    simp [read, hfiles, Finmap.lookup_insert_of_ne _ hm]
  · simp [read, Finmap.lookup_insert_of_ne _ he]

theorem modify_eq (h : t.read d n = some b) (f : β → β) :
    t.write d n (f b) = some (t.modify d n f) := by
  obtain ⟨u, hu⟩ := write_of_mem (n := n) (b := f b) (mem_of_read h)
  rw [modify, h, Option.bind_some, hu, Option.getD_some]

theorem modify_of_none (h : t.read d n = none) (f : β → β) : t.modify d n f = t := by
  rw [modify, h, Option.bind_none, Option.getD_none]

theorem read_modify_self (f : β → β) : (t.modify d n f).read d n = (t.read d n).map f := by
  cases h : t.read d n with
  | none => rw [modify_of_none h, h, Option.map_none]
  | some b => exact read_write_self (modify_eq h f)

theorem read_modify_of_ne (f : β → β) (hne : ¬ (e = d ∧ m = n)) :
    (t.modify d n f).read e m = t.read e m := by
  cases h : t.read d n with
  | none => rw [modify_of_none h]
  | some b => exact read_write_of_ne (modify_eq h f) hne

theorem mem_modify (f : β → β) : e ∈ t.modify d n f ↔ e ∈ t := by
  cases h : t.read d n with
  | none => rw [modify_of_none h]
  | some b => exact mem_write (modify_eq h f)

theorem Occupied.modify (h : t.Occupied) (f : β → β) : (t.modify d n f).Occupied := by
  intro e he
  obtain ⟨m, hm⟩ := h e ((mem_modify f).mp he)
  refine ⟨m, ?_⟩
  by_cases heq : e = d ∧ m = n
  · obtain ⟨rfl, rfl⟩ := heq
    rwa [read_modify_self, Option.isSome_map]
  · rwa [read_modify_of_ne f heq]

/-- A file is made in a new or an old directory. -/
theorem Occupied.write (h : t.Occupied) (hw : (t.makedirs d).write d n b = some u) :
    u.Occupied := by
  intro e he
  by_cases hed : e = d
  · subst hed
    exact ⟨n, by rw [read_write_self hw]; rfl⟩
  · have hmem : e ∈ t := (mem_makedirs.mp ((mem_write hw).mp he)).resolve_left hed
    obtain ⟨m, hm⟩ := h e hmem
    exact ⟨m, by rwa [read_write_of_ne hw fun hne => hed hne.1, read_makedirs]⟩

theorem mem_remove (h : t.remove d n = some u) : e ∈ u ↔ e ∈ t := by
  obtain ⟨files, hfiles, h⟩ := Option.bind_eq_some_iff.mp h
  split_ifs at h
  obtain rfl := Option.some.inj h
  rw [Finmap.mem_insert]
  exact or_iff_right_of_imp fun he => he ▸ Finmap.mem_of_lookup_eq_some hfiles

theorem read_remove_self (h : t.remove d n = some u) : u.read d n = none := by
  obtain ⟨files, hfiles, h⟩ := Option.bind_eq_some_iff.mp h
  split_ifs at h
  obtain rfl := Option.some.inj h
  simp [read]

theorem read_remove_of_ne (h : t.remove d n = some u) (hne : ¬ (e = d ∧ m = n)) :
    u.read e m = t.read e m := by
  obtain ⟨files, hfiles, h⟩ := Option.bind_eq_some_iff.mp h
  split_ifs at h
  obtain rfl := Option.some.inj h
  by_cases he : e = d
  · subst he
    have hm : m ≠ n := fun hm => hne ⟨rfl, hm⟩
    simp [read, hfiles, Finmap.lookup_erase_ne hm]
  · simp [read, Finmap.lookup_insert_of_ne _ he]

theorem read_of_remove (h : t.remove d n = none) : t.read d n = none := by
  cases hd : t.lookup d with
  | none => simp [read, hd]
  | some files =>
    have hn : n ∉ files := by
      intro hn
      simp [remove, hd, hn] at h
    rw [read, hd, Option.bind_some, Finmap.lookup_eq_none.mpr hn]

theorem mem_rmdir (h : t.rmdir d = some u) : e ∈ u ↔ e ≠ d ∧ e ∈ t := by
  obtain ⟨files, hfiles, h⟩ := Option.bind_eq_some_iff.mp h
  split_ifs at h
  obtain rfl := Option.some.inj h
  exact Finmap.mem_erase

/-- Only a directory without files is removed. -/
theorem read_rmdir (h : t.rmdir d = some u) : u.read e m = t.read e m := by
  obtain ⟨files, hfiles, h⟩ := Option.bind_eq_some_iff.mp h
  split_ifs at h with hempty
  obtain rfl := Option.some.inj h
  by_cases he : e = d
  · subst he
    have hm : files.lookup m = none := by
      rw [Finmap.lookup_eq_none, ← Finmap.mem_keys, hempty]
      exact Finset.notMem_empty m
    simp [read, hfiles, hm]
  · simp [read, Finmap.lookup_erase_ne he]

/-- A directory that stays has a file in it. -/
theorem exists_read_of_rmdir (h : t.rmdir d = none) (hd : d ∈ t) : ∃ n, (t.read d n).isSome := by
  obtain ⟨files, hfiles⟩ := Finmap.mem_iff.mp hd
  have hne : files.keys ≠ ∅ := by
    intro hempty
    simp [rmdir, hfiles, hempty] at h
  obtain ⟨n, hn⟩ := Finset.nonempty_iff_ne_empty.mpr hne
  refine ⟨n, ?_⟩
  rw [read, hfiles, Option.bind_some]
  exact Finmap.lookup_isSome.mpr (Finmap.mem_keys.mp hn)

theorem mem_discard : e ∈ t.discard d n ↔ e ∈ t := by
  unfold discard
  cases h : t.remove d n with
  | none => rfl
  | some u => exact mem_remove h

theorem read_discard_self : (t.discard d n).read d n = none := by
  unfold discard
  cases h : t.remove d n with
  | none => exact read_of_remove h
  | some u => exact read_remove_self h

theorem read_discard_of_ne (hne : ¬ (e = d ∧ m = n)) :
    (t.discard d n).read e m = t.read e m := by
  unfold discard
  cases h : t.remove d n with
  | none => rfl
  | some u => exact read_remove_of_ne h hne

theorem read_prune : (t.prune d n).read e m = (t.discard d n).read e m := by
  unfold prune
  cases h : (t.discard d n).rmdir d with
  | none => rfl
  | some u => exact read_rmdir h

theorem read_prune_self : (t.prune d n).read d n = none := read_prune.trans read_discard_self

theorem read_prune_of_ne (hne : ¬ (e = d ∧ m = n)) : (t.prune d n).read e m = t.read e m :=
  read_prune.trans (read_discard_of_ne hne)

/-- The directory of the file stays only with another file in it. -/
theorem occupied_prune (h : ∀ e ∈ t, e ≠ d → ∃ m, (t.read e m).isSome) :
    (t.prune d n).Occupied := by
  intro e he
  unfold prune at he
  cases hr : (t.discard d n).rmdir d with
  | none =>
    rw [hr, Option.getD_none] at he
    by_cases hed : e = d
    · subst hed
      obtain ⟨m, hm⟩ := exists_read_of_rmdir hr he
      exact ⟨m, by rwa [read_prune]⟩
    · obtain ⟨m, hm⟩ := h e (mem_discard.mp he) hed
      exact ⟨m, by rwa [read_prune_of_ne fun hne => hed hne.1]⟩
  | some u =>
    rw [hr, Option.getD_some, mem_rmdir hr] at he
    obtain ⟨m, hm⟩ := h e (mem_discard.mp he.2) he.1
    exact ⟨m, by rwa [read_prune_of_ne fun hne => he.1 hne.1]⟩

/-- Without files nothing is left. -/
theorem Occupied.eq_empty (h : t.Occupied) (hnone : ∀ d n, t.read d n = none) : t = ∅ := by
  apply Finmap.ext_lookup
  intro d
  rw [Finmap.lookup_empty, Finmap.lookup_eq_none]
  intro hd
  obtain ⟨n, hn⟩ := h d hd
  simp [hnone] at hn

end FileTree
