import Mathlib.Data.List.Induction
import Mathlib.Data.List.Perm.Basic
import Mathlib.Data.List.Nodup

/-!
Hash chains over rows of any type: every row names the hash of the row before it. The last
hash of a chain commits to all of it, and the links alone fix the order of the rows.
-/
namespace HashChain

variable {ρ γ H : Type*} {prev : ρ → Option H} {hash : ρ → H} {content : ρ → γ}
  {p : Option H} {l m : List ρ} {r : ρ}

/-- Each row's `prev` is the hash of the row before it, and the first row's is `p`. -/
def Linked (prev : ρ → Option H) (hash : ρ → H) : Option H → List ρ → Prop
  | _, [] => True
  | p, r :: rs => prev r = p ∧ Linked prev hash (some (hash r)) rs

/-- The hash of the last row, or `p` when there is none. -/
def head (hash : ρ → H) : Option H → List ρ → Option H
  | p, [] => p
  | _, r :: rs => head hash (some (hash r)) rs

instance [DecidableEq H] (p : Option H) (l : List ρ) : Decidable (Linked prev hash p l) := by
  induction l generalizing p with
  | nil => exact isTrue trivial
  | cons r rs ih => exact @instDecidableAnd _ _ _ (ih _)

theorem head_append : head hash p (l ++ m) = head hash (head hash p l) m := by
  induction l generalizing p with
  | nil => rfl
  | cons r rs ih => exact ih

@[simp]
theorem head_concat : head hash p (l ++ [r]) = some (hash r) := by
  rw [head_append]
  rfl

theorem linked_append :
    Linked prev hash p (l ++ m) ↔ Linked prev hash p l ∧ Linked prev hash (head hash p l) m := by
  induction l generalizing p with
  | nil => simp [Linked, head]
  | cons r rs ih => simp [Linked, head, ih, and_assoc]

@[simp]
theorem linked_concat :
    Linked prev hash p (l ++ [r]) ↔ Linked prev hash p l ∧ prev r = head hash p l := by
  simp [linked_append, Linked]

theorem head_none_eq_none : head hash none l = none ↔ l = [] := by
  cases l using List.reverseRecOn <;> simp [head]

/-- The head of a non-empty chain is the hash of one of its rows. -/
theorem head_mem {h : H} (hh : head hash none l = some h) : ∃ r ∈ l, hash r = h := by
  cases l using List.reverseRecOn with
  | nil => simp [head] at hh
  | append_singleton l r => exact ⟨r, by simp, by simpa using hh⟩

/-- Two chains with one head hold the same contents in the same order, whatever their lengths. -/
theorem contents_eq_of_head_eq (hl : Linked prev hash none l) (hm : Linked prev hash none m)
    (hbind : ∀ a ∈ l, ∀ b ∈ m, hash a = hash b → content a = content b ∧ prev a = prev b)
    (hh : head hash none l = head hash none m) : l.map content = m.map content := by
  induction l using List.reverseRecOn generalizing m with
  | nil => rw [head_none_eq_none.mp hh.symm]
  | append_singleton l a ih =>
    cases m using List.reverseRecOn with
    | nil => simp [head] at hh
    | append_singleton m b =>
      obtain ⟨hl, ha⟩ := linked_concat.mp hl
      obtain ⟨hm, hb⟩ := linked_concat.mp hm
      have hab : hash a = hash b := by simpa using hh
      obtain ⟨hc, hp⟩ := hbind a (by simp) b (by simp) hab
      have hrest := ih hl hm (fun x hx y hy => hbind x (by simp [hx]) y (by simp [hy]))
        (ha.symm.trans (hp.trans hb))
      simp [hrest, hc]

/-- A row past the first names a row of the chain. -/
theorem prev_of_mem_tail (h : Linked prev hash p (r :: l)) {q : ρ} (hq : q ∈ l) :
    ∃ c ∈ r :: l, prev q = some (hash c) := by
  induction l generalizing p r with
  | nil => simp at hq
  | cons a l ih =>
    obtain ⟨_, hrest⟩ := h
    rcases List.mem_cons.mp hq with rfl | hq
    · exact ⟨r, by simp, hrest.1⟩
    · obtain ⟨c, hc, hp⟩ := ih hrest hq
      exact ⟨c, List.mem_cons_of_mem _ hc, hp⟩

/-- Rows with distinct hashes can be chained in one order only. -/
theorem order_unique_from (hp : ∀ r ∈ l, p ≠ some (hash r)) (hnd : (l.map hash).Nodup)
    (hl : Linked prev hash p l) (hm : Linked prev hash p m) (hperm : l.Perm m) : l = m := by
  induction l generalizing p m with
  | nil => exact (List.nil_perm.mp hperm).symm
  | cons a l ih =>
    cases m with
    | nil => exact absurd hperm.length_eq (by simp)
    | cons b m =>
      have hab : b = a := by
        rcases List.mem_cons.mp (hperm.mem_iff.mpr (List.mem_cons_self (a := b))) with h | h
        · exact h
        · obtain ⟨c, hc, hb⟩ := prev_of_mem_tail hl h
          exact (hp c hc (hm.1.symm.trans hb)).elim
      subst hab
      rw [List.map_cons, List.nodup_cons] at hnd
      have hfresh : ∀ r ∈ l, some (hash b) ≠ some (hash r) := by
        intro r hr he
        exact hnd.1 (List.mem_map.mpr ⟨r, hr, (Option.some.inj he).symm⟩)
      rw [ih hfresh hnd.2 hl.2 hm.2 hperm.cons_inv]

theorem order_unique (hnd : (l.map hash).Nodup) (hl : Linked prev hash none l)
    (hm : Linked prev hash none m) (hperm : l.Perm m) : l = m :=
  order_unique_from (by simp) hnd hl hm hperm

variable {link : γ → Option H → H} {cs ds : List γ}

/-- The rows that chain the contents from `p`: each content with the hash before it. -/
def chain (link : γ → Option H → H) : Option H → List γ → List (γ × Option H)
  | _, [] => []
  | p, c :: cs => (c, p) :: chain link (some (link c p)) cs

/-- The hash that a row over a content has. -/
def rowHash (link : γ → Option H → H) (e : γ × Option H) : H := link e.1 e.2

@[simp]
theorem map_fst_chain : (chain link p cs).map Prod.fst = cs := by
  induction cs generalizing p with
  | nil => rfl
  | cons c cs ih => simp [chain, ih]

theorem linked_chain : Linked Prod.snd (rowHash link) p (chain link p cs) := by
  induction cs generalizing p with
  | nil => trivial
  | cons c cs ih => exact ⟨rfl, ih⟩

theorem snd_of_mem_chain {e : γ × Option H} (h : e ∈ chain link p cs) :
    e.2 = p ∨ ∃ c q, e.2 = some (link c q) := by
  induction cs generalizing p with
  | nil => simp [chain] at h
  | cons c cs ih =>
    rcases List.mem_cons.mp h with rfl | h
    · exact .inl rfl
    · rcases ih h with h | h
      · exact .inr ⟨c, p, h⟩
      · exact .inr h

/-- Linked rows whose hashes are computed are the chain over their contents. -/
theorem map_eq_chain (h : Linked prev hash p l)
    (hl : ∀ r ∈ l, hash r = link (content r) (prev r)) :
    l.map (fun r => (content r, prev r)) = chain link p (l.map content) := by
  induction l generalizing p with
  | nil => rfl
  | cons r l ih =>
    obtain ⟨rfl, hrest⟩ := h
    rw [hl r List.mem_cons_self] at hrest
    simp [chain, ih hrest fun q hq => hl q (List.mem_cons_of_mem _ hq)]

theorem head_eq_head_chain (h : Linked prev hash p l)
    (hl : ∀ r ∈ l, hash r = link (content r) (prev r)) :
    head hash p l = head (rowHash link) p (chain link p (l.map content)) := by
  induction l generalizing p with
  | nil => rfl
  | cons r l ih =>
    obtain ⟨rfl, hrest⟩ := h
    have hr := hl r List.mem_cons_self
    rw [hr] at hrest
    simpa [head, chain, rowHash, hr] using ih hrest fun q hq => hl q (List.mem_cons_of_mem _ hq)

/-- Where equal row hashes have equal rows, the last hash fixes all the contents. -/
theorem eq_of_head_chain
    (hbind : ∀ a ∈ chain link none cs, ∀ b ∈ chain link none ds,
      rowHash link a = rowHash link b → a = b)
    (hh : head (rowHash link) none (chain link none cs) =
      head (rowHash link) none (chain link none ds)) : cs = ds := by
  have h : (chain link none cs).map Prod.fst = (chain link none ds).map Prod.fst := by
    refine contents_eq_of_head_eq linked_chain linked_chain ?_ hh
    intro a ha b hb he
    simp [hbind a ha b hb he]
  simpa using h

end HashChain
