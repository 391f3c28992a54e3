import Mathlib.Logic.Basic

/-! Labelled transition systems: the states their runs reach and the invariant rules. -/

structure TransitionSystem (σ : Type*) (α : Type*) where
  init : σ → Prop
  step : σ → α → σ → Prop

namespace TransitionSystem

variable {σ τ α β : Type*} {S : TransitionSystem σ α} {T : TransitionSystem τ β}
  {ok ok' : σ → α → Prop} {s t : σ} {a : α}

/-- The states reached by the runs in which every step, at the state it leaves, meets `ok`. -/
inductive ReachableWhen (S : TransitionSystem σ α) (ok : σ → α → Prop) : σ → Prop
  | init {s : σ} (h : S.init s) : ReachableWhen S ok s
  | step {s t : σ} {a : α} (h : ReachableWhen S ok s) (ha : ok s a) (hs : S.step s a t) :
      ReachableWhen S ok t

/-- The states reached by any run. -/
def Reachable (S : TransitionSystem σ α) : σ → Prop := S.ReachableWhen fun _ _ => True

theorem Reachable.init (h : S.init s) : S.Reachable s := ReachableWhen.init h

theorem Reachable.step (h : S.Reachable s) (hs : S.step s a t) : S.Reachable t :=
  ReachableWhen.step h trivial hs

theorem ReachableWhen.mono (h : S.ReachableWhen ok s) (hok : ∀ s a, ok s a → ok' s a) :
    S.ReachableWhen ok' s := by
  induction h with
  | init h => exact .init h
  | step _ ha hs ih => exact .step ih (hok _ _ ha) hs

theorem ReachableWhen.reachable (h : S.ReachableWhen ok s) : S.Reachable s :=
  h.mono fun _ _ _ => trivial

/-- What holds at the start and is kept by every step that meets `ok` holds in every state. -/
theorem ReachableWhen.invariant {Inv : σ → Prop} (h : S.ReachableWhen ok s)
    (hinit : ∀ s, S.init s → Inv s)
    (hstep : ∀ s a t, ok s a → Inv s → S.step s a t → Inv t) : Inv s := by
  induction h with
  | init h => exact hinit _ h
  | step _ ha hs ih => exact hstep _ _ _ ha ih hs

theorem Reachable.invariant {Inv : σ → Prop} (h : S.Reachable s)
    (hinit : ∀ s, S.init s → Inv s)
    (hstep : ∀ s a t, Inv s → S.step s a t → Inv t) : Inv s :=
  ReachableWhen.invariant h hinit fun s a t _ => hstep s a t

/-- Runs from one state to another whose steps all meet `ok`. -/
inductive Path (S : TransitionSystem σ α) (ok : σ → α → Prop) (s : σ) : σ → Prop
  | refl : Path S ok s s
  | step {t u : σ} {a : α} (h : Path S ok s t) (ha : ok t a) (hs : S.step t a u) : Path S ok s u

theorem ReachableWhen.path (h : S.ReachableWhen ok s) (hp : S.Path ok s t) :
    S.ReachableWhen ok t := by
  induction hp with
  | refl => exact h
  | step _ ha hs ih => exact .step ih ha hs

theorem Path.trans {u : σ} (h : S.Path ok s t) (h' : S.Path ok t u) : S.Path ok s u := by
  induction h' with
  | refl => exact h
  | step _ ha hs ih => exact .step ih ha hs

theorem Path.invariant {Inv : σ → Prop} (h : S.Path ok s t) (hs : Inv s)
    (hstep : ∀ s a t, ok s a → Inv s → S.step s a t → Inv t) : Inv t := by
  induction h with
  | refl => exact hs
  | step _ ha hst ih => exact hstep _ _ _ ha ih hst

/-- A run from a state that is reached stays among these. -/
theorem Path.invariant_of_reachable {Inv : σ → Prop} (h : S.Path ok s t) (hs : S.Reachable s)
    (hi : Inv s) (hstep : ∀ s a t, S.Reachable s → Inv s → S.step s a t → Inv t) : Inv t := by
  have hboth : S.Reachable t ∧ Inv t := by
    induction h with
    | refl => exact ⟨hs, hi⟩
    | step _ _ hst ih => exact ⟨ih.1.step hst, hstep _ _ _ ih.1 ih.2 hst⟩
  exact hboth.2

/-- A run of a part is a run of the whole when every step of the part is one of the whole. -/
theorem Path.map {okT : τ → β → Prop} {f : σ → τ} (h : S.Path ok s t)
    (hstep : ∀ s a t, ok s a → S.step s a t → ∃ b, okT (f s) b ∧ T.step (f s) b (f t)) :
    T.Path okT (f s) (f t) := by
  induction h with
  | refl => exact .refl
  | step _ ha hs ih =>
    obtain ⟨b, hb, ht⟩ := hstep _ _ _ ha hs
    exact .step ih hb ht

/-- The system in which every step meets `P`. -/
def restrict (S : TransitionSystem σ α) (P : σ → α → σ → Prop) : TransitionSystem σ α :=
  ⟨S.init, fun s a t => S.step s a t ∧ P s a t⟩

theorem Reachable.of_restrict {P : σ → α → σ → Prop} (h : (S.restrict P).Reachable s) :
    S.Reachable s := by
  induction h with
  | init h => exact .init h
  | step _ _ hs ih => exact ih.step hs.1

/-- The states that are reached when every step meets `P` anyway. -/
theorem Reachable.restrict {P : σ → α → σ → Prop} (h : S.Reachable s)
    (hP : ∀ s a t, S.step s a t → P s a t) : (S.restrict P).Reachable s := by
  induction h with
  | init h => exact .init h
  | step _ _ hs ih => exact ih.step ⟨hs, hP _ _ _ hs⟩

/-- One system simulates another if it can follow each of its steps, or stay where it is. -/
theorem Reachable.simulated {R : σ → τ → Prop} (h : S.Reachable s)
    (hinit : ∀ s, S.init s → ∃ z, T.init z ∧ R s z)
    (hstep : ∀ s a t z, S.Reachable s → S.step s a t → R s z →
      R t z ∨ ∃ b u, T.step z b u ∧ R t u) : ∃ z, T.Reachable z ∧ R s z := by
  induction h with
  | init h =>
    obtain ⟨z, hz, hr⟩ := hinit _ h
    exact ⟨z, .init hz, hr⟩
  | step hs _ hst ih =>
    obtain ⟨z, hz, hr⟩ := ih
    rcases hstep _ _ _ z hs hst hr with hsame | ⟨b, u, hu, hr'⟩
    · exact ⟨z, hz, hsame⟩
    · exact ⟨u, hz.step hu, hr'⟩

end TransitionSystem
