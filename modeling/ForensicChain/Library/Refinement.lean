import ForensicChain.Library.TransitionSystem

/-!
Runs with the actions that they take, and the refinement of one system by another: a run of the
concrete system is a run of the abstract one on the actions that can be seen.
-/
namespace TransitionSystem

variable {σ τ α β : Type*} {S : TransitionSystem σ α} {T : TransitionSystem τ β}
  {ok : σ → α → Prop} {s t u : σ} {a : α} {as bs : List α} {f : σ → τ} {seen : α → Option β}

/-- Runs whose steps all meet `ok`, with their actions in order. -/
inductive Trace (S : TransitionSystem σ α) (ok : σ → α → Prop) (s : σ) : List α → σ → Prop
  | refl : Trace S ok s [] s
  | step {as : List α} {t u : σ} {a : α} (h : Trace S ok s as t) (ha : ok t a)
      (hs : S.step t a u) : Trace S ok s (as ++ [a]) u

theorem ReachableWhen.trace (h : S.ReachableWhen ok s) :
    ∃ s₀ as, S.init s₀ ∧ S.Trace ok s₀ as s := by
  induction h with
  | init h => exact ⟨_, [], h, .refl⟩
  | step _ ha hs ih =>
    obtain ⟨s₀, as, h₀, h⟩ := ih
    exact ⟨s₀, _, h₀, .step h ha hs⟩

theorem Trace.path (h : S.Trace ok s as t) : S.Path ok s t := by
  induction h with
  | refl => exact .refl
  | step _ ha hs ih => exact .step ih ha hs

/-- A run goes through a state after any first part of its actions. -/
theorem Trace.split (h : S.Trace ok s as t) :
    ∀ xs ys, as = xs ++ ys → ∃ u, S.Trace ok s xs u ∧ S.Trace ok u ys t := by
  induction h with
  | refl =>
    intro xs ys he
    obtain ⟨rfl, rfl⟩ := List.append_eq_nil_iff.mp he.symm
    exact ⟨s, .refl, .refl⟩
  | @step as t u a h ha hs ih =>
    intro xs ys he
    rcases List.eq_nil_or_concat ys with rfl | ⟨zs, b, rfl⟩
    · rw [List.append_nil] at he
      exact ⟨u, he ▸ .step h ha hs, .refl⟩
    · rw [List.concat_eq_append, ← List.append_assoc] at he
      obtain ⟨rfl, hb⟩ := List.append_inj' he rfl
      obtain rfl := List.singleton_inj.mp hb
      obtain ⟨v, hx, hz⟩ := ih xs zs rfl
      exact ⟨v, hx, List.concat_eq_append ▸ .step hz ha hs⟩

/-- The step that was taken, for an action that a run went through. -/
theorem Trace.step_of_split {xs ys : List α} (h : S.Trace ok s (xs ++ a :: ys) t) :
    ∃ u v, S.Trace ok s xs u ∧ ok u a ∧ S.step u a v ∧ S.Trace ok v ys t := by
  obtain ⟨v, hv, hy⟩ := h.split (xs ++ [a]) ys (by simp)
  generalize hzs : xs ++ [a] = zs at hv
  cases hv with
  | refl => simp at hzs
  | step hx ha hs =>
    obtain ⟨rfl, hb⟩ := List.append_inj' hzs rfl
    obtain rfl := List.singleton_inj.mp hb
    exact ⟨_, v, hx, ha, hs, hy⟩

/-- In the abstract system the step is the one that is seen of it, or none. -/
def Follows (T : TransitionSystem τ β) (f : σ → τ) (seen : α → Option β) (s : σ) (a : α)
    (t : σ) : Prop :=
  match seen a with
  | none => f t = f s
  | some b => T.step (f s) b (f t)

/-- Where every step is followed, what the concrete system reaches, the abstract one does. -/
theorem Reachable.refines (h : S.Reachable s) (hinit : ∀ s, S.init s → T.init (f s))
    (hstep : ∀ s a t, S.step s a t → T.Follows f seen s a t) : T.Reachable (f s) := by
  induction h with
  | init h => exact .init (hinit _ h)
  | @step s t a _ _ hs ih =>
    have hfollows := hstep s a t hs
    cases hb : seen a with
    | none =>
      simp only [Follows, hb] at hfollows
      rwa [hfollows]
    | some b =>
      simp only [Follows, hb] at hfollows
      exact ih.step hfollows

/-- If every step is followed wherever the invariant holds, so is every run. -/
theorem Trace.refines {Inv : σ → Prop} (h : S.Trace ok s as t) (hs : Inv s)
    (hinv : ∀ s a t, ok s a → Inv s → S.step s a t → Inv t)
    (hstep : ∀ s a t, ok s a → Inv s → S.step s a t → T.Follows f seen s a t) :
    T.Trace (fun _ _ => True) (f s) (as.filterMap seen) (f t) := by
  suffices hboth : T.Trace (fun _ _ => True) (f s) (as.filterMap seen) (f t) ∧ Inv t from hboth.1
  induction h with
  | refl => exact ⟨.refl, hs⟩
  | @step as t u a _ ha hst ih =>
    refine ⟨?_, hinv _ _ _ ha ih.2 hst⟩
    have hfollows := hstep _ _ _ ha ih.2 hst
    rw [List.filterMap_append]
    cases hb : seen a with
    | none =>
      simp only [Follows, hb] at hfollows
      simpa [hb, hfollows] using ih.1
    | some b =>
      simp only [Follows, hb] at hfollows
      simpa [hb] using Trace.step ih.1 trivial hfollows

end TransitionSystem
