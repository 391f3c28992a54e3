import Mathlib.Logic.Function.Basic

/-! Tables of entries by id, as a system of many processes holds them, and what one write does. -/
namespace Table

variable {ι α κ : Type*} [DecidableEq ι] {f : ι → Option α} {i j : ι} {a b : α} {key : α → κ}

/-- An entry after a write is the one written, or another as it was. -/
theorem update_some (h : Function.update f i (some a) j = some b) :
    j = i ∧ a = b ∨ j ≠ i ∧ f j = some b := by
  by_cases hj : j = i
  · subst hj
    exact .inl ⟨rfl, by simpa using h⟩
  · exact .inr ⟨hj, by simpa [hj] using h⟩

/-- The entries stay when a free id is taken. -/
theorem update_of_free (hi : f i = none) (h : f j = some b) :
    Function.update f i (some a) j = some b := by
  have hj : j ≠ i := by
    rintro rfl
    simp [hi] at h
  rwa [Function.update_of_ne hj]

/-- What the write keeps for the others and gives to the one holds of all. -/
theorem forall_update {P : ι → α → Prop} (h : ∀ j, j ≠ i → ∀ b, f j = some b → P j b)
    (ha : P i a) : ∀ j b, Function.update f i (some a) j = some b → P j b := by
  intro j b hj
  rcases update_some hj with ⟨rfl, rfl⟩ | ⟨hne, hold⟩
  · exact ha
  · exact h j hne b hold

/-- Different entries have different keys. -/
def Apart (key : α → κ) (f : ι → Option α) : Prop :=
  ∀ i j a b, f i = some a → f j = some b → key a = key b → i = j

theorem Apart.update (h : Apart key f) (ha : ∀ j b, j ≠ i → f j = some b → key b ≠ key a) :
    Apart key (Function.update f i (some a)) := by
  intro j k b c hj hk he
  rcases update_some hj with ⟨rfl, rfl⟩ | ⟨hji, hold⟩
  · rcases update_some hk with ⟨rfl, rfl⟩ | ⟨hki, hold⟩
    · rfl
    · exact (ha k c hki hold he.symm).elim
  · rcases update_some hk with ⟨rfl, rfl⟩ | ⟨_, hold'⟩
    · exact (ha j b hji hold he).elim
    · exact h j k b c hold hold' he

/-- An entry may change as long as its key stays. -/
theorem Apart.update_same (h : Apart key f) (hi : f i = some b) (hk : key a = key b) :
    Apart key (Function.update f i (some a)) := by
  apply h.update
  intro j c hj hc he
  exact hj (h j i c b hc hi (he.trans hk))

end Table
