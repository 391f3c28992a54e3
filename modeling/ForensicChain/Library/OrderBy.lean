import Mathlib.Data.List.Nodup
import Mathlib.Data.List.Perm.Basic
import Mathlib.Data.List.Sort

/-! Rows with a key, read in an order. -/
namespace OrderBy

variable {α κ : Type*} {key : α → κ} {l m : List α} {x : α}

/-- The keys in their order fix a list of keyed rows. -/
theorem eq_of_perm_of_map_eq (hperm : l.Perm m) (hnd : (l.map key).Nodup)
    (hkeys : l.map key = m.map key) : l = m := by
  induction l generalizing m with
  | nil => exact (List.nil_perm.mp hperm).symm
  | cons a l ih =>
    cases m with
    | nil => simp at hkeys
    | cons b m =>
      obtain ⟨hab, hrest⟩ : key a = key b ∧ l.map key = m.map key := by simpa using hkeys
      have hb : b = a := by
        rcases List.mem_cons.mp (hperm.mem_iff.mpr (List.mem_cons_self (a := b))) with h | h
        · exact h
        · rw [List.map_cons, List.nodup_cons, hab] at hnd
          exact (hnd.1 (List.mem_map_of_mem h)).elim
      subst hb
      rw [ih hperm.cons_inv (List.nodup_cons.mp hnd).2 hrest]

/-- The first row in an order is the one that comes before all the others. -/
theorem head?_insertionSort {r : α → α → Prop} [DecidableRel r] [Std.Total r] [IsTrans α r]
    (hx : x ∈ l) (hfirst : ∀ y ∈ l, r y x → y = x) : (l.insertionSort r).head? = some x := by
  have hmem : x ∈ l.insertionSort r := (List.mem_insertionSort r).mpr hx
  have hsorted := List.pairwise_insertionSort r l
  cases hs : l.insertionSort r with
  | nil => simp [hs] at hmem
  | cons a as =>
    rw [hs] at hmem hsorted
    have ha : a ∈ l := by
      rw [← List.mem_insertionSort r, hs]
      exact List.mem_cons_self
    rcases List.mem_cons.mp hmem with rfl | hmem
    · rfl
    · rw [hfirst a ha ((List.pairwise_cons.mp hsorted).1 x hmem), List.head?_cons]

/-- The first row in an order comes before all of them. -/
theorem rel_of_head?_insertionSort {r : α → α → Prop} [DecidableRel r] [Std.Total r] [IsTrans α r]
    (h : (l.insertionSort r).head? = some x) : x ∈ l ∧ ∀ y ∈ l, r x y := by
  have hsorted := List.pairwise_insertionSort r l
  refine ⟨(List.mem_insertionSort r).mp (List.mem_of_mem_head? h), fun y hy => ?_⟩
  rw [← List.mem_insertionSort r] at hy
  cases hs : l.insertionSort r with
  | nil => simp [hs] at hy
  | cons a as =>
    rw [hs] at h hy hsorted
    obtain rfl : a = x := by simpa using h
    rcases List.mem_cons.mp hy with rfl | hy
    · exact (Std.Total.total (r := r) y y).elim id id
    · exact (List.pairwise_cons.mp hsorted).1 y hy

/-- A row that comes after all the others is read last. -/
theorem insertionSort_concat {r : α → α → Prop} [DecidableRel r] (h : ∀ y ∈ l, r y x) :
    (l ++ [x]).insertionSort r = l.insertionSort r ++ [x] := by
  have hinsert : ∀ (a : α) (m : List α), r a x →
      (m ++ [x]).orderedInsert r a = m.orderedInsert r a ++ [x] := by
    intro a m ha
    induction m with
    | nil => simp [ha]
    | cons b m ih => by_cases hb : r a b <;> simp [hb, ih]
  induction l with
  | nil => rfl
  | cons a l ih =>
    rw [List.cons_append, List.insertionSort_cons, List.insertionSort_cons,
      ih fun y hy => h y (List.mem_cons_of_mem _ hy), hinsert _ _ (h a List.mem_cons_self)]

/-- Further rows come between the others, which stay in their order. -/
theorem insertionSort_sublist {r : α → α → Prop} [DecidableRel r] [Std.Total r] [IsTrans α r]
    (h : l.Sublist m) : (l.insertionSort r).Sublist (m.insertionSort r) := by
  induction h with
  | slnil => exact List.Sublist.refl _
  | cons x _ ih => exact ih.trans (List.sublist_orderedInsert x _)
  | cons_cons x _ ih => exact ih.orderedInsert_sublist x (List.pairwise_insertionSort r _)

variable {β γ : Type*} [LinearOrder β] [LinearOrder γ] {f : α → β} {g : α → γ}

/-- `ORDER BY f ASC, g ASC`. -/
def Asc (f : α → β) (g : α → γ) (a b : α) : Prop := f a < f b ∨ f a = f b ∧ g a ≤ g b

/-- `ORDER BY f DESC, g DESC`. -/
def Desc (f : α → β) (g : α → γ) (a b : α) : Prop := Asc f g b a

instance : DecidableRel (Asc f g) := fun _ _ => inferInstanceAs (Decidable (_ ∨ _))

instance : DecidableRel (Desc f g) := fun _ _ => inferInstanceAs (Decidable (_ ∨ _))

instance : Std.Total (Asc f g) where
  total a b := by
    rcases lt_trichotomy (f a) (f b) with h | h | h
    · exact .inl (.inl h)
    · exact (le_total (g a) (g b)).imp (fun hg => .inr ⟨h, hg⟩) fun hg => .inr ⟨h.symm, hg⟩
    · exact .inr (.inl h)

instance : IsTrans α (Asc f g) where
  trans a b c := by
    rintro (hab | ⟨hab, hg⟩) (hbc | ⟨hbc, hg'⟩)
    · exact .inl (hab.trans hbc)
    · exact .inl (hbc ▸ hab)
    · exact .inl (hab ▸ hbc)
    · exact .inr ⟨hab.trans hbc, hg.trans hg'⟩

instance : Std.Total (Desc f g) := ⟨fun a b => Std.Total.total (r := Asc f g) b a⟩

instance : IsTrans α (Desc f g) := ⟨fun _ _ _ hab hbc => IsTrans.trans (r := Asc f g) _ _ _ hbc hab⟩

/-- `b` comes with a greater second column, and no smaller first one. -/
def Follows (f : α → β) (g : α → γ) (a b : α) : Prop := f a ≤ f b ∧ g a < g b

theorem Follows.asc {a b : α} (h : Follows f g a b) : Asc f g a b :=
  h.1.lt_or_eq.imp id fun he => ⟨he, h.2.le⟩

theorem Follows.not_asc {a b : α} (h : Follows f g a b) : ¬ Asc f g b a := by
  rintro (hlt | ⟨_, hle⟩)
  · exact absurd h.1 (not_le.mpr hlt)
  · exact absurd h.2 (not_lt.mpr hle)

/-- Rows that follow each other are read as they stand. -/
theorem insertionSort_asc (h : l.Pairwise (Follows f g)) : l.insertionSort (Asc f g) = l :=
  (h.imp Follows.asc).insertionSort_eq

/-- Backwards, the last of them comes first. -/
theorem head?_insertionSort_desc (h : (l ++ [x]).Pairwise (Follows f g)) :
    ((l ++ [x]).insertionSort (Desc f g)).head? = some x := by
  apply head?_insertionSort (by simp)
  intro y hy hlater
  rcases List.mem_append.mp hy with hy | hy
  · have hfollows := (List.pairwise_append.mp h).2.2 y hy x (List.mem_singleton_self x)
    exact (hfollows.not_asc hlater).elim
  · exact List.mem_singleton.mp hy

end OrderBy
