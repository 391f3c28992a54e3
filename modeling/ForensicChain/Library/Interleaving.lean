import ForensicChain.Library.Table
import ForensicChain.Library.TransitionSystem

/-!
Programs over a shared state, statement by statement: any number of them run at once, and others
may run between two statements of one. What a program assumes of the others and what it does
itself is stated by two relations, and the programs are verified one at a time.
-/

/-- Each statement reads the shared state and changes it at once. -/
inductive Prog (σ α : Type)
  | done (a : α)
  | stmt (write : σ → σ) (next : σ → Prog σ α)

namespace Prog

variable {σ α β ε : Type}

protected def bind : Prog σ α → (α → Prog σ β) → Prog σ β
  | done a, f => f a
  | stmt write next, f => stmt write fun s => (next s).bind f

instance : Monad (Prog σ) where
  pure := done
  bind := Prog.bind

/-- The program runs alone. -/
def run : Prog σ α → σ → α × σ
  | done a, s => (a, s)
  | stmt write next, s => (next s).run (write s)

theorem run_bind {p : Prog σ α} {f : α → Prog σ β} {s : σ} :
    (p >>= f).run s = (f (p.run s).1).run (p.run s).2 := by
  induction p generalizing s with
  | done a => rfl
  | stmt write next ih => exact ih s

/-- A check of what the handler has. -/
def check (e : Except ε α) : ExceptT ε (Prog σ) α := ExceptT.mk (done e)

/-- A statement that reads. -/
def query (f : σ → Except ε α) : ExceptT ε (Prog σ) α :=
  ExceptT.mk (stmt id fun s => done (f s))

/-- A statement that writes, or fails and leaves everything as it is. -/
def exec (f : σ → Except ε (σ × α)) : ExceptT ε (Prog σ) α :=
  ExceptT.mk (stmt (fun s => match f s with
      | .ok (t, _) => t
      | .error _ => s)
    fun s => done ((f s).map Prod.snd))

/-- What the handler answers and leaves, when it runs alone. -/
def alone (x : ExceptT ε (Prog σ) α) (s : σ) : Except ε α × σ := Prog.run x.run s

/-- What a handler that is one step answers and leaves; an error leaves everything as it is. -/
def whole (s : σ) : Except ε (σ × α) → Except ε α × σ
  | .ok (t, a) => (.ok a, t)
  | .error e => (.error e, s)

variable {s : σ} {f : α → ExceptT ε (Prog σ) β} {g : α → Except ε (σ × β)}

theorem alone_bind {x : ExceptT ε (Prog σ) α} : alone (x >>= f) s = match alone x s with
    | (.ok a, t) => alone (f a) t
    | (.error e, t) => (.error e, t) := by
  have hrun : alone (x >>= f) s = _ := run_bind (p := x.run)
  rw [hrun]
  show Prog.run (ExceptT.bindCont f (alone x s).1) (alone x s).2 = _
  rcases alone x s with ⟨_ | a, t⟩ <;> rfl

theorem alone_pure {a : α} : alone (pure a : ExceptT ε (Prog σ) α) s = whole s (.ok (s, a)) := rfl

theorem alone_query {read : σ → Except ε α} : alone (query read) s = (read s, s) := rfl

theorem alone_exec {write : σ → Except ε (σ × α)} :
    alone (exec write) s = whole s (write s) := by
  unfold alone exec ExceptT.run ExceptT.mk
  cases hw : write s <;> simp [run, hw, Except.map, whole]

/-- A handler agrees with one step if what comes after its first check does. -/
theorem alone_check_bind {e : Except ε α}
    (h : ∀ a, e = .ok a → alone (f a) s = whole s (g a)) :
    alone (check e >>= f) s = whole s (e >>= g) := by
  rw [alone_bind]
  cases e with
  | error e => rfl
  | ok a => exact h a rfl

theorem alone_query_bind {read : σ → Except ε α}
    (h : ∀ a, read s = .ok a → alone (f a) s = whole s (g a)) :
    alone (query read >>= f) s = whole s (read s >>= g) := by
  rw [alone_bind, alone_query]
  cases hr : read s with
  | error e => rfl
  | ok a => exact h a hr

theorem alone_query_ok {read : σ → Except ε α} {a : α} (h : read s = .ok a) :
    alone (query read >>= f) s = alone (f a) s := by
  rw [alone_bind, alone_query, h]

theorem alone_exec_ok {write : σ → Except ε (σ × α)} {t : σ} {a : α} (h : write s = .ok (t, a)) :
    alone (exec write >>= f) s = alone (f a) t := by
  rw [alone_bind, alone_exec, h]
  rfl

theorem alone_exec_bind {write : σ → Except ε (σ × α)} {g : σ × α → Except ε (σ × β)}
    (h : ∀ t a, write s = .ok (t, a) → alone (f a) t = whole s (g (t, a))) :
    alone (exec write >>= f) s = whole s (write s >>= g) := by
  rw [alone_bind, alone_exec]
  cases hw : write s with
  | error e => rfl
  | ok out => exact h out.1 out.2 hw

section

-- The invariant, what the others may do between two statements, and what a statement may do.
variable {Inv : σ → Prop} {rely guarantee : σ → σ → Prop}

/-- Every statement of the program meets the guarantee, as long as the others keep to what it relies
on; what it returns has the property. -/
def Meets (Inv : σ → Prop) (rely guarantee : σ → σ → Prop) (Q : α → σ → Prop) :
    Prog σ α → σ → Prop
  | done a, s => Q a s
  | stmt write next, s => ∀ t, Inv t → rely s t →
      guarantee t (write t) ∧ Meets Inv rely guarantee Q (next t) (write t)

theorem meets_bind {Q : β → σ → Prop} {p : Prog σ α} {f : α → Prog σ β} {s : σ}
    (h : p.Meets Inv rely guarantee (fun a s => (f a).Meets Inv rely guarantee Q s) s) :
    (p >>= f).Meets Inv rely guarantee Q s := by
  induction p generalizing s with
  | done a => exact h
  | stmt write next ih =>
    intro t ht hst
    obtain ⟨hwrite, hnext⟩ := h t ht hst
    exact ⟨hwrite, ih t hnext⟩

theorem Meets.mono {Q Q' : α → σ → Prop} {p : Prog σ α} {s : σ}
    (h : p.Meets Inv rely guarantee Q s) (hQ : ∀ a s, Q a s → Q' a s) :
    p.Meets Inv rely guarantee Q' s := by
  induction p generalizing s with
  | done a => exact hQ a s h
  | stmt write next ih =>
    intro t ht hst
    obtain ⟨hwrite, hnext⟩ := h t ht hst
    exact ⟨hwrite, ih t hnext⟩

/-- Whatever the others have done meanwhile. -/
theorem Meets.interfered {p : Prog σ α} {s t : σ}
    (h : p.Meets Inv rely guarantee (fun _ _ => True) s)
    (htrans : ∀ s t u, rely s t → rely t u → rely s u) (hst : rely s t) :
    p.Meets Inv rely guarantee (fun _ _ => True) t := by
  cases p with
  | done a => trivial
  | stmt write next => exact fun u hu htu => h u hu (htrans s t u hst htu)

/-- The same for a handler, and what it returns if it does not fail. -/
def Keeps (Inv : σ → Prop) (rely guarantee : σ → σ → Prop) (x : ExceptT ε (Prog σ) α)
    (Q : α → σ → Prop) (s : σ) : Prop :=
  Meets Inv rely guarantee (fun r t => ∀ a, r = .ok a → Q a t) x.run s

theorem keeps_pure {Q : α → σ → Prop} {a : α} {s : σ} (h : Q a s) :
    Keeps Inv rely guarantee (pure a : ExceptT ε (Prog σ) α) Q s := by
  rintro b ⟨⟩
  exact h

theorem keeps_bind {Q : β → σ → Prop} {x : ExceptT ε (Prog σ) α}
    {f : α → ExceptT ε (Prog σ) β} {s : σ}
    (h : Keeps Inv rely guarantee x (fun a t => Keeps Inv rely guarantee (f a) Q t) s) :
    Keeps Inv rely guarantee (x >>= f) Q s := by
  refine meets_bind (p := x.run) (h.mono fun r t hr => ?_)
  cases r with
  | error e => exact fun a ha => by cases ha
  | ok a => exact hr a rfl

theorem keeps_check {Q : α → σ → Prop} {e : Except ε α} {s : σ}
    (h : ∀ a, e = .ok a → Q a s) : Keeps Inv rely guarantee (check e) Q s := h

theorem keeps_query {Q : α → σ → Prop} {f : σ → Except ε α} {s : σ}
    (h : ∀ t, Inv t → rely s t → guarantee t t ∧ ∀ a, f t = .ok a → Q a t) :
    Keeps Inv rely guarantee (query f) Q s := h

theorem keeps_exec {Q : α → σ → Prop} {f : σ → Except ε (σ × α)} {s : σ}
    (h : ∀ t, Inv t → rely s t → guarantee t t ∧
      ∀ u a, f t = .ok (u, a) → guarantee t u ∧ Q a u) :
    Keeps Inv rely guarantee (exec f) Q s := by
  intro t ht hst
  obtain ⟨hsame, hwrite⟩ := h t ht hst
  cases hf : f t with
  | error e =>
    simp only [hf]
    refine ⟨hsame, fun a ha => ?_⟩
    simp [Except.map] at ha
  | ok out =>
    obtain ⟨hguarantee, hQ⟩ := hwrite out.1 out.2 hf
    simp only [hf]
    refine ⟨hguarantee, fun a ha => ?_⟩
    simp only [Except.map, Except.ok.injEq] at ha
    exact ha ▸ hQ

end

end Prog

namespace Pool

/-- Processes by number, each with the request that it serves and the rest of its program. -/
structure State (σ ρ α : Type) where
  shared : σ
  running : Nat → Option (ρ × Prog σ α)

inductive Action
  | start (i : Nat)
  | stmt (i : Nat)
  | finish (i : Nat)
  | kill (i : Nat)
  | reset

variable {σ ρ α : Type} {code : ρ → Prog σ α → Prop} {reset : σ → σ → Prop}

/-- `code` tells the programs of a request. A process may end anywhere; a reset, which may change
the shared state, ends them all. -/
inductive Step (code : ρ → Prog σ α → Prop) (reset : σ → σ → Prop) :
    State σ ρ α → Action → State σ ρ α → Prop
  | start {s i r p} (hi : s.running i = none) (hp : code r p) :
      Step code reset s (.start i)
        { s with running := Function.update s.running i (some (r, p)) }
  | stmt {s i r write next} (hi : s.running i = some (r, .stmt write next)) :
      Step code reset s (.stmt i)
        ⟨write s.shared, Function.update s.running i (some (r, next s.shared))⟩
  | finish {s i r a} (hi : s.running i = some (r, .done a)) :
      Step code reset s (.finish i) { s with running := Function.update s.running i none }
  | kill {s i} :
      Step code reset s (.kill i) { s with running := Function.update s.running i none }
  | reset {s shared} (h : reset s.shared shared) :
      Step code reset s .reset ⟨shared, fun _ => none⟩

/-- No process runs. -/
def system (init : σ → Prop) (code : ρ → Prog σ α → Prop) (reset : σ → σ → Prop) :
    TransitionSystem (State σ ρ α) Action :=
  ⟨fun s => init s.shared ∧ ∀ i, s.running i = none, Step code reset⟩

/-- What every program assumes and does, in a system whose steps all meet `P`. -/
structure Sound (init : σ → Prop) (code : ρ → Prog σ α → Prop) (reset : σ → σ → Prop)
    (P : State σ ρ α → Action → State σ ρ α → Prop) (Inv : σ → Prop)
    (rely guarantee : ρ → σ → σ → Prop) : Prop where
  starts : ∀ s, init s → Inv s
  resets : ∀ s t, reset s t → Inv s → Inv t
  keeps : ∀ r s t, Inv s → guarantee r s t → Inv t
  refl : ∀ r s, rely r s s
  trans : ∀ r s t u, rely r s t → rely r t u → rely r s u
  programs : ∀ r p s, code r p → Inv s →
    p.Meets Inv (rely r) (guarantee r) (fun _ _ => True) s
  others : ∀ s i t, P s (.stmt i) t → Step code reset s (.stmt i) t →
    ∀ j r p, j ≠ i → s.running j = some (r, p) → rely r s.shared t.shared

variable {init : σ → Prop} {P : State σ ρ α → Action → State σ ρ α → Prop} {Inv : σ → Prop}
  {rely guarantee : ρ → σ → σ → Prop} {s t : State σ ρ α} {a : Action}

/-- The invariant holds, and what is left of each program meets its guarantee. -/
def Kept (Inv : σ → Prop) (rely guarantee : ρ → σ → σ → Prop) (s : State σ ρ α) : Prop :=
  Inv s.shared ∧ ∀ i r p, s.running i = some (r, p) →
    p.Meets Inv (rely r) (guarantee r) (fun _ _ => True) s.shared

theorem Kept.statement (h : Kept Inv rely guarantee s)
    (hs : Sound init code reset P Inv rely guarantee) {i : Nat} {r : ρ} {write : σ → σ}
    {next : σ → Prog σ α} (hi : s.running i = some (r, .stmt write next)) :
    guarantee r s.shared (write s.shared) ∧
      (next s.shared).Meets Inv (rely r) (guarantee r) (fun _ _ => True) (write s.shared) :=
  h.2 i r _ hi s.shared h.1 (hs.refl r s.shared)

theorem Kept.drop (h : Kept Inv rely guarantee s) (i : Nat) :
    Kept Inv rely guarantee { s with running := Function.update s.running i none } := by
  refine ⟨h.1, fun j r p hj => ?_⟩
  by_cases hji : j = i
  · subst hji
    simp at hj
  · exact h.2 j r p (by simpa [Function.update_of_ne hji] using hj)

theorem Kept.step (h : Kept Inv rely guarantee s)
    (hs : Sound init code reset P Inv rely guarantee) (hstep : Step code reset s a t)
    (hP : P s a t) : Kept Inv rely guarantee t := by
  cases hstep with
  | start hi hp =>
    refine ⟨h.1, fun j r p hj => ?_⟩
    rcases Table.update_some hj with ⟨rfl, heq⟩ | ⟨_, hold⟩
    · obtain ⟨rfl, rfl⟩ := Prod.mk.inj heq
      exact hs.programs _ _ _ hp h.1
    · exact h.2 j r p hold
  | stmt hi =>
    obtain ⟨hguarantee, hnext⟩ := h.statement hs hi
    refine ⟨hs.keeps _ _ _ h.1 hguarantee, fun j r p hj => ?_⟩
    rcases Table.update_some hj with ⟨rfl, heq⟩ | ⟨hne, hold⟩
    · obtain ⟨rfl, rfl⟩ := Prod.mk.inj heq
      exact hnext
    · exact (h.2 j r p hold).interfered (hs.trans r) (hs.others _ _ _ hP (.stmt hi) j r p hne hold)
  | finish hi => exact h.drop _
  | kill => exact h.drop _
  | reset hreset => exact ⟨hs.resets _ _ hreset h.1, by simp⟩

/-- Programs that are sound one by one are sound together. -/
theorem kept_reachable (hs : Sound init code reset P Inv rely guarantee)
    (h : ((system init code reset).restrict P).Reachable s) : Kept Inv rely guarantee s := by
  induction h with
  | init h => exact ⟨hs.starts _ h.1, by simp [h.2]⟩
  | step _ _ hst ih => exact ih.step hs hst.1 hst.2

/-- If each statement leaves the shared state, or is a step of a system, as each reset is, then the
shared state is one that the system reaches. -/
theorem refines {β : Type} {T : TransitionSystem σ β}
    (hs : Sound init code reset P Inv rely guarantee)
    (hinit : ∀ s, init s → T.init s)
    (hstep : ∀ r s t, Inv s → guarantee r s t → t = s ∨ ∃ b, T.step s b t)
    (hreset : ∀ s t, reset s t → ∃ b, T.step s b t)
    (h : ((system init code reset).restrict P).Reachable s) : T.Reachable s.shared := by
  induction h with
  | init h => exact .init (hinit _ h.1)
  | step hr _ hst ih =>
    have hkept := kept_reachable hs hr
    cases hst.1 with
    | stmt hi =>
      rcases hstep _ _ _ hkept.1 (hkept.statement hs hi).1 with hsame | ⟨b, hb⟩
      · simpa only [hsame] using ih
      · exact ih.step hb
    | reset hreset' =>
      obtain ⟨b, hb⟩ := hreset _ _ hreset'
      exact ih.step hb
    | start | finish | kill => exact ih

/-- One process runs. -/
def State.only (shared : σ) (i : Nat) (r : ρ) (p : Prog σ α) : State σ ρ α :=
  ⟨shared, Function.update (fun _ => none) i (some (r, p))⟩

variable {shared : σ} {i : Nat} {r : ρ} {p : Prog σ α}

theorem only_self : (State.only shared i r p).running i = some (r, p) := by
  simp [State.only]

theorem only_other {j : Nat} (hj : j ≠ i) : (State.only shared i r p).running j = none := by
  simp [State.only, hj]

theorem only_stmt {write : σ → σ} {next : σ → Prog σ α} :
    Step code reset (.only shared i r (.stmt write next)) (.stmt i)
      (.only (write shared) i r (next shared)) := by
  have hstep : Step code reset (.only shared i r (.stmt write next)) (.stmt i) _ := .stmt only_self
  simpa only [State.only, Function.update_idem] using hstep

theorem only_finish {a : α} :
    Step code reset (.only shared i r (.done a)) (.finish i) ⟨shared, fun _ => none⟩ := by
  have hstep : Step code reset (.only shared i r (.done a)) (.finish i) _ := .finish only_self
  simpa [State.only] using hstep

/-- A process that runs alone comes to its end. -/
theorem alone_reachable (hP : ∀ s t, (∀ j, j ≠ i → s.running j = none) → P s (.stmt i) t)
    (h : ((system init code reset).restrict P).Reachable (.only shared i r p)) :
    ((system init code reset).restrict P).Reachable
      (.only (p.run shared).2 i r (.done (p.run shared).1)) := by
  induction p generalizing shared with
  | done a => exact h
  | stmt write next ih =>
    exact ih shared (h.step ⟨only_stmt, hP _ _ fun _ => only_other⟩)

/-- A request may be served while no other is. -/
theorem served_reachable (hstart : ∀ s t, P s (.start i) t) (hfinish : ∀ s t, P s (.finish i) t)
    (hP : ∀ s t, (∀ j, j ≠ i → s.running j = none) → P s (.stmt i) t) (hp : code r p)
    (h : ((system init code reset).restrict P).Reachable ⟨shared, fun _ => none⟩) :
    ((system init code reset).restrict P).Reachable ⟨(p.run shared).2, fun _ => none⟩ := by
  have hbegun : ((system init code reset).restrict P).Reachable (.only shared i r p) :=
    h.step ⟨.start rfl hp, hstart _ _⟩
  exact (alone_reachable hP hbegun).step ⟨only_finish, hfinish _ _⟩

end Pool
