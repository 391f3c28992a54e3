import ForensicChain.Pipeline.ArtifactOrder

/-!
A single worker whose publishes of some rows always raise. Each cycle takes the oldest ten rows that
are not published, however often they were tried before, so that the failing rows are tried without
end and keep their places in the batch.
-/
namespace ForensicChain.Pipeline

variable {fromisoformat : String → Option Timestamp} {P : Set Nat} {w : WorkerId} {s t u : State}
  {a : Action} {ids : List Nat} {tried : List (Nat × Option String)} {p q r row : OutboxRow}
  {n : Nat}

/-- `MAX_RETRIES` of the worker. -/
def workerMaxRetries : Nat := 5

/-- The loop over a batch in which the publish of a row raises if and only if the row is in `P`.
The broker, the consumer and the audit reporter go on meanwhile; no handler writes a row. -/
def Publishing (P : Set Nat) (s : State) : Action → Prop
  | .publish w _ => ∀ c, s.cycles w = some c → ∀ id ∈ c.todo.head?, id ∉ P
  | .publishRaised w _ _ => ∀ c, s.cycles w = some c → ∀ id ∈ c.todo.head?, id ∈ P
  | .write _ | .poll _ _ | .commitCycle _ | .endCycle _ => False
  | _ => True

/-- The worker sleeps, loads a batch, goes through it and commits. -/
def CompletedCycle (fromisoformat : String → Option Timestamp) (P : Set Nat) (w : WorkerId)
    (s t : State) : Prop :=
  ∃ pre ids mid, (fromTable fromisoformat).Path (Publishing P) s pre ∧
    Step fromisoformat pre (.poll w ids) (pre.setCycle w (some ⟨ids, []⟩)) ∧
    (fromTable fromisoformat).Path (Publishing P) (pre.setCycle w (some ⟨ids, []⟩)) mid ∧
    Step fromisoformat mid (.commitCycle w) t

/-- Consecutive completed cycles. -/
inductive Cycles (fromisoformat : String → Option Timestamp) (P : Set Nat) (w : WorkerId)
    (s : State) : Nat → State → Prop
  | zero : Cycles fromisoformat P w s 0 s
  | succ {n : Nat} {t u : State} (h : Cycles fromisoformat P w s n t)
      (hc : CompletedCycle fromisoformat P w t u) : Cycles fromisoformat P w s (n + 1) u

/-- The rows that a poll may take. -/
def State.unpublished (s : State) : List OutboxRow := s.outbox.filter fun row => !row.published

/-- Every row outside `P` is published, and none in `P` was tried too often. -/
def NoneStarved (P : Set Nat) (s : State) : Prop :=
  (∀ row ∈ s.outbox, row.id ∉ P → row.published = true) ∧
    ∀ row ∈ s.outbox, row.id ∈ P → row.retryCount ≤ workerMaxRetries

/-- What the worker has done of its batch: it tried the rows in turn, and those of `P` raised. -/
structure PartOf (P : Set Nat) (ids : List Nat) (c : Cycle) : Prop where
  rows : c.rows.Perm ids
  results : ∀ e ∈ c.tried, e.2 = none ↔ e.1 ∉ P

/-- While no cycle is under way, the outbox stays as it is. -/
theorem sleeping (h : (fromTable fromisoformat).Path (Publishing P) s t)
    (hw : ∀ v, s.cycles v = none) : t.outbox = s.outbox ∧ ∀ v, t.cycles v = none := by
  have hstep : ∀ t a u, Publishing P t a → (t.outbox = s.outbox ∧ ∀ v, t.cycles v = none) →
      Step fromisoformat t a u → u.outbox = s.outbox ∧ ∀ v, u.cycles v = none := by
    rintro t a u ha ⟨hout, hnone⟩ hs
    cases hs with
    | write | poll | commitCycle | endCycle => exact ha.elim
    | publish hc | publishRaised error hc => simp [hnone] at hc
    | _ => exact ⟨hout, hnone⟩
  exact h.invariant ⟨rfl, hw⟩ hstep

/-- The worker has its batch, of which it has done a part; no other cycle is under way. -/
def Batch (P : Set Nat) (w : WorkerId) (ids : List Nat) (s t : State) : Prop :=
  t.outbox = s.outbox ∧ (∃ c, t.cycles w = some c ∧ PartOf P ids c) ∧
    ∀ v, v ≠ w → t.cycles v = none

theorem Batch.next {id : Nat} {todo : List Nat} {e : Option String}
    (h : Batch P w ids s t) {v : WorkerId} (hv : t.cycles v = some ⟨id :: todo, tried⟩)
    (he : e = none ↔ id ∉ P) (hout : u.outbox = t.outbox)
    (hc : u.cycles = Function.update t.cycles v (some ⟨todo, (id, e) :: tried⟩)) :
    Batch P w ids s u := by
  obtain ⟨hsame, ⟨c, hcw, hpart⟩, hother⟩ := h
  obtain rfl : v = w := by
    by_contra hne
    simp [hother v hne] at hv
  obtain rfl := Option.some.inj (hcw.symm.trans hv)
  refine ⟨hout.trans hsame, ⟨_, by rw [hc, Function.update_self], ?_, ?_⟩, ?_⟩
  · have hmove : (todo ++ id :: tried.map Prod.fst).Perm (id :: todo ++ tried.map Prod.fst) :=
      List.perm_middle
    exact hmove.trans hpart.rows
  · intro e' he'
    rcases List.mem_cons.mp he' with rfl | he'
    · exact he
    · exact hpart.results e' he'
  · intro v' hv'
    rw [hc, Function.update_of_ne hv']
    exact hother v' hv'

theorem batch_path (h : (fromTable fromisoformat).Path (Publishing P) t u)
    (hb : Batch P w ids s t) : Batch P w ids s u := by
  refine h.invariant hb ?_
  intro t a u ha hb hs
  cases hs with
  | write | poll | commitCycle | endCycle => exact ha.elim
  | publish hc hr hi ht => exact hb.next hc (by simpa using ha _ hc) rfl rfl
  | publishRaised error hc hr hi ht => exact hb.next hc (by simpa using ha _ hc) rfl rfl
  | _ => exact hb

/-- What a batch is: the oldest ten rows that are not published, or all of them. -/
theorem picks_batch (hids : (s.outbox.map OutboxRow.id).Nodup) (hw : ∀ v, s.cycles v = none)
    (hp : s.Picks ids) : ids.Nodup ∧ ids.length = min 10 s.unpublished.length ∧
      ids ⊆ s.unpublished.map OutboxRow.id := by
  obtain ⟨free, sorted, hmem, hnd, hperm, _, hids'⟩ := hp
  have hfree : sorted.Perm s.unpublished := by
    refine hperm.trans ((List.perm_ext_iff_of_nodup hnd ?_).mpr fun row => ?_)
    · exact (List.Nodup.of_map _ hids).filter _
    · simp [hmem, State.unpublished, State.Free, hw]
  have hbatch : ids.Subperm (s.unpublished.map OutboxRow.id) := by
    refine hids'.subperm.trans (.trans (List.Sublist.subperm ?_) (hfree.map _).subperm)
    exact (List.take_sublist 10 sorted).map _
  refine ⟨?_, ?_, hbatch.subset⟩
  · obtain ⟨l, hl, hsub⟩ := hbatch
    exact hl.nodup_iff.mp (hids.sublist (hsub.trans (List.filter_sublist.map _)))
  · rw [hids'.length_eq, List.length_map, List.length_take, hfree.length_eq]

theorem unpublished_of_picked (hids : (s.outbox.map OutboxRow.id).Nodup)
    (hsub : ids ⊆ s.unpublished.map OutboxRow.id) (hr : row ∈ s.outbox) (hid : row.id ∈ ids) :
    row.published = false := by
  obtain ⟨q, hq, he⟩ := List.mem_map.mp (hsub hid)
  obtain ⟨hmem, hpub⟩ := List.mem_filter.mp hq
  obtain rfl := List.inj_on_of_nodup_map hids hmem hr he
  simpa using hpub

/-- What a cycle does to the table. -/
structure Cycled (P : Set Nat) (s t : State) (ids : List Nat)
    (tried : List (Nat × Option String)) : Prop where
  picks : s.Picks ids
  rows : (tried.map Prod.fst).Perm ids
  results : ∀ e ∈ tried, e.2 = none ↔ e.1 ∉ P
  outbox : t.outbox = s.outbox.map fun row => row.record tried

theorem picks_congr (hout : t.outbox = s.outbox) (hc : t.cycles = s.cycles) (hp : t.Picks ids) :
    s.Picks ids := by
  simpa only [State.Picks, State.Free, hout, hc] using hp

theorem CompletedCycle.cycled (h : CompletedCycle fromisoformat P w s t)
    (hw : ∀ v, s.cycles v = none) :
    (∃ ids tried, Cycled P s t ids tried) ∧ ∀ v, t.cycles v = none := by
  obtain ⟨pre, ids, mid, hsleep, hpoll, hpath, hcommit⟩ := h
  obtain ⟨hout, hnone⟩ := sleeping hsleep hw
  have hstart : Batch P w ids pre (pre.setCycle w (some ⟨ids, []⟩)) := by
    refine ⟨rfl, ⟨_, State.setCycle_self, ?_, by simp⟩, fun v hv => ?_⟩
    · simp [Cycle.rows]
    · simp [State.setCycle, hv, hnone]
  obtain ⟨hmid, ⟨c, hc, hrows, htried⟩, hother⟩ := batch_path hpath hstart
  cases hcommit with
  | commitCycle hdone =>
    obtain rfl := Option.some.inj (hc.symm.trans hdone)
    refine ⟨⟨ids, _, ?_, by simpa [Cycle.rows] using hrows, htried, ?_⟩, ?_⟩
    · cases hpoll with
      | poll _ hp =>
        exact picks_congr hout (funext fun v => (hnone v).trans (hw v).symm) hp
    · show mid.outbox.map _ = _
      rw [hmid, hout]
    · intro v
      by_cases hv : v = w
      · simp [State.setCycle, hv]
      · simpa [State.setCycle, hv] using hother v hv

/-- What becomes of a row in a cycle. -/
inductive Outcome (P : Set Nat) (ids : List Nat) (row : OutboxRow) : OutboxRow → Prop
  | left (hid : row.id ∉ ids) : Outcome P ids row row
  | sent (hid : row.id ∈ ids) (hP : row.id ∉ P) : Outcome P ids row { row with published := true }
  | failed (hid : row.id ∈ ids) (hP : row.id ∈ P) (error : String) :
      Outcome P ids row { row with retryCount := row.retryCount + 1, lastError := some error }

theorem Cycled.outcome (h : Cycled P s t ids tried) (row : OutboxRow) :
    Outcome P ids row (row.record tried) := by
  unfold OutboxRow.record
  split
  · rename_i hl
    refine .left fun hid => ?_
    obtain ⟨e, he, heq⟩ := List.mem_map.mp (h.rows.mem_iff.mpr hid)
    have hne := List.lookup_eq_none_iff.mp hl e he
    simp [heq] at hne
  · rename_i hl
    obtain ⟨l, k, hsplit, _⟩ := List.lookup_eq_some_iff.mp hl
    have hmem : (row.id, none) ∈ tried := by simp [hsplit]
    exact .sent (h.rows.mem_iff.mp (List.mem_map_of_mem hmem)) ((h.results _ hmem).mp rfl)
  · rename_i error hl
    obtain ⟨l, k, hsplit, _⟩ := List.lookup_eq_some_iff.mp hl
    have hmem : (row.id, some error) ∈ tried := by simp [hsplit]
    refine .failed (h.rows.mem_iff.mp (List.mem_map_of_mem hmem)) ?_ error
    by_contra hP
    simpa using (h.results _ hmem).mpr hP

theorem Cycled.mem (h : Cycled P s t ids tried) (hr : row ∈ s.outbox) :
    ∃ q ∈ t.outbox, Outcome P ids row q :=
  ⟨_, h.outbox ▸ List.mem_map_of_mem hr, h.outcome row⟩

theorem Cycled.of_mem (h : Cycled P s t ids tried) (hq : q ∈ t.outbox) :
    ∃ row ∈ s.outbox, Outcome P ids row q := by
  rw [h.outbox] at hq
  obtain ⟨row, hr, rfl⟩ := List.mem_map.mp hq
  exact ⟨row, hr, h.outcome row⟩

theorem Outcome.id (h : Outcome P ids row q) : q.id = row.id := by
  cases h <;> rfl

theorem Outcome.retryCount_bounds (h : Outcome P ids row q) :
    row.retryCount ≤ q.retryCount ∧ q.retryCount ≤ row.retryCount + 1 := by
  cases h <;> simp

/-- How often a row may still be tried. -/
def OutboxRow.attemptsLeft (P : Set Nat) [DecidablePred (· ∈ P)] (row : OutboxRow) : Nat :=
  if row.published then 0 else if row.id ∈ P then workerMaxRetries - row.retryCount else 1

def State.attemptsLeft (P : Set Nat) [DecidablePred (· ∈ P)] (s : State) : Nat :=
  (s.outbox.map (OutboxRow.attemptsLeft P)).sum

section
variable [DecidablePred (· ∈ P)]

theorem Outcome.attemptsLeft (h : Outcome P ids row q)
    (hpub : row.id ∈ ids → row.published = false)
    (hle : q.id ∈ P → q.retryCount ≤ workerMaxRetries) :
    q.attemptsLeft P + (if row.id ∈ ids then 1 else 0) ≤ row.attemptsLeft P := by
  cases h with
  | left hid => simp [hid]
  | sent hid hP => simp [OutboxRow.attemptsLeft, hid, hP, hpub hid]
  | failed hid hP error =>
    have hlt : row.retryCount + 1 ≤ workerMaxRetries := hle hP
    simp only [OutboxRow.attemptsLeft, hid, hP, hpub hid, if_true, Bool.false_eq_true, if_false]
    omega

/-- What is left shrinks by one with every hit. -/
theorem sum_map_le_of_hits {α : Type*} {f g : α → Nat} {hit : α → Bool} {l : List α}
    (h : ∀ x ∈ l, f x + (if hit x then 1 else 0) ≤ g x) :
    (l.map f).sum + l.countP hit ≤ (l.map g).sum := by
  induction l with
  | nil => simp
  | cons x l ih =>
    have hx := h x List.mem_cons_self
    have hl := ih fun y hy => h y (List.mem_cons_of_mem _ hy)
    simp only [List.map_cons, List.sum_cons, List.countP_cons]
    omega

/-- A cycle uses up one attempt for each row of its batch. -/
theorem Cycled.attemptsLeft (h : Cycled P s t ids tried)
    (hids : (s.outbox.map OutboxRow.id).Nodup) (hw : ∀ v, s.cycles v = none)
    (hle : ∀ q ∈ t.outbox, q.id ∈ P → q.retryCount ≤ workerMaxRetries) :
    t.attemptsLeft P + min 10 s.unpublished.length ≤ s.attemptsLeft P := by
  obtain ⟨hnd, hlen, hsub⟩ := picks_batch hids hw h.picks
  have hhits : ids.length ≤ s.outbox.countP fun row => row.id ∈ ids := by
    have hfound : ids ⊆ (s.outbox.filter fun row => row.id ∈ ids).map OutboxRow.id := by
      intro id hid
      obtain ⟨row, hr, rfl⟩ := List.mem_map.mp (hsub hid)
      exact List.mem_map_of_mem (List.mem_filter.mpr ⟨List.mem_of_mem_filter hr, by simpa⟩)
    have hle := (List.subperm_of_subset hnd hfound).length_le
    rwa [List.length_map, ← List.countP_eq_length_filter] at hle
  have hsum : (s.outbox.map fun row => (row.record tried).attemptsLeft P).sum +
      s.outbox.countP (fun row => row.id ∈ ids) ≤ s.attemptsLeft P := by
    refine sum_map_le_of_hits fun row hr => ?_
    have hq : row.record tried ∈ t.outbox := h.outbox ▸ List.mem_map_of_mem hr
    simpa using (h.outcome row).attemptsLeft (unpublished_of_picked hids hsub hr) (hle _ hq)
  have ht : t.attemptsLeft P = (s.outbox.map fun row => (row.record tried).attemptsLeft P).sum := by
    simp [State.attemptsLeft, h.outbox, Function.comp_def]
  omega

end

theorem picks_small (hids : (s.outbox.map OutboxRow.id).Nodup) (hw : ∀ v, s.cycles v = none)
    (hp : s.Picks ids) (hlen : s.unpublished.length ≤ 10) (hr : row ∈ s.outbox)
    (hpub : row.published = false) : row.id ∈ ids := by
  obtain ⟨hnd, hids', hsub⟩ := picks_batch hids hw hp
  have hall : ids.Perm (s.unpublished.map OutboxRow.id) := by
    refine (List.subperm_of_subset hnd hsub).perm_of_length_le ?_
    rw [List.length_map, hids', min_eq_right hlen]
  exact hall.mem_iff.mpr (List.mem_map_of_mem (List.mem_filter.mpr ⟨hr, by simp [hpub]⟩))

theorem Cycled.map_id (h : Cycled P s t ids tried) :
    t.outbox.map OutboxRow.id = s.outbox.map OutboxRow.id := by
  rw [h.outbox, map_record_ids]

theorem Cycled.unpublished_le (h : Cycled P s t ids tried) :
    t.unpublished.length ≤ s.unpublished.length := by
  simp only [State.unpublished, h.outbox, ← List.countP_eq_length_filter, List.countP_map]
  refine List.countP_mono_left fun row _ hq => ?_
  simpa using OutboxRow.published_of_record (by simpa using hq)

/-- When no failing row waits, a cycle publishes its whole batch. -/
theorem Cycled.unpublished_lt (h : Cycled P s t ids tried)
    (hids : (s.outbox.map OutboxRow.id).Nodup) (hw : ∀ v, s.cycles v = none)
    (hP : ∀ row ∈ s.outbox, row.id ∈ P → row.published = true) :
    t.unpublished.length + min 10 s.unpublished.length ≤ s.unpublished.length := by
  obtain ⟨_, _, hsub⟩ := picks_batch hids hw h.picks
  have hall : Cycled ∅ s t ids tried := by
    refine ⟨h.picks, h.rows, fun e he => ?_, h.outbox⟩
    obtain ⟨row, hr, hid⟩ := List.mem_map.mp (hsub (h.rows.mem_iff.mp (List.mem_map_of_mem he)))
    obtain ⟨hmem, hpub⟩ := List.mem_filter.mp hr
    have hout : e.1 ∉ P := fun hin => by simp [hP row hmem (hid ▸ hin)] at hpub
    simp [(h.results e he).mpr hout]
  have hcount : ∀ v : State, v.attemptsLeft ∅ = v.unpublished.length := by
    intro v
    unfold State.attemptsLeft State.unpublished
    induction v.outbox with
    | nil => rfl
    | cons row rows ih =>
      cases hp : row.published <;> simp [OutboxRow.attemptsLeft, hp, ih, add_comm]
  simpa [hcount] using hall.attemptsLeft hids hw (by simp)

/-- Between the cycles no worker holds a row. -/
theorem Cycles.between (h : Cycles fromisoformat P w s n t)
    (hs : (fromTable fromisoformat).init s) : (fromTable fromisoformat).init t ∧
      t.outbox.map OutboxRow.id = s.outbox.map OutboxRow.id ∧
      t.unpublished.length ≤ s.unpublished.length := by
  induction h with
  | zero => exact ⟨hs, rfl, le_rfl⟩
  | succ _ hc ih =>
    obtain ⟨⟨hids, hnone⟩, hsame, hle⟩ := ih
    obtain ⟨⟨ids, tried, hcyc⟩, hnone'⟩ := hc.cycled hnone
    exact ⟨⟨hcyc.map_id ▸ hids, hnone'⟩, hcyc.map_id.trans hsame, hcyc.unpublished_le.trans hle⟩

/-- A row was tried at most once in each cycle, and not at all if it was published. -/
theorem Cycles.of_mem (h : Cycles fromisoformat P w s n t)
    (hs : (fromTable fromisoformat).init s) (hq : q ∈ t.outbox) :
    ∃ row ∈ s.outbox, row.id = q.id ∧ (row.published = true → q.published = true) ∧
      row.retryCount ≤ q.retryCount ∧
      q.retryCount ≤ row.retryCount + if row.published then 0 else n := by
  induction h generalizing q with
  | zero => exact ⟨q, hq, rfl, fun hp => hp, le_rfl, Nat.le_add_right _ _⟩
  | succ h hc ih =>
    obtain ⟨⟨hids, hnone⟩, _⟩ := h.between hs
    obtain ⟨⟨ids, tried, hcyc⟩, _⟩ := hc.cycled hnone
    obtain ⟨_, _, hsub⟩ := picks_batch hids hnone hcyc.picks
    obtain ⟨r, hr, hout⟩ := hcyc.of_mem hq
    obtain ⟨row, hrow, hid, hpub, hge, hle⟩ := ih hr
    refine ⟨row, hrow, hid.trans hout.id.symm, ?_, hge.trans hout.retryCount_bounds.1, ?_⟩
    · intro hp
      cases hout with
      | sent => rfl
      | left | failed => exact hpub hp
    · cases hp : row.published with
      | true =>
        have hnot : r.id ∉ ids := fun hin => by
          simpa [hpub hp] using unpublished_of_picked hids hsub hr hin
        cases hout with
        | left => simpa [hp] using hle
        | sent hin | failed hin => exact (hnot hin).elim
      | false =>
        have hstep := hout.retryCount_bounds.2
        simp only [hp, Bool.false_eq_true, if_false] at hle ⊢
        omega

/-- A failing row is tried in every cycle that does not take ten other rows. -/
theorem Cycles.failing [DecidablePred (· ∈ P)] (h : Cycles fromisoformat P w s n t)
    (hs : (fromTable fromisoformat).init s) (hp : p ∈ s.outbox) (hP : p.id ∈ P)
    (hpub : p.published = false)
    (hle : ∀ q ∈ t.outbox, q.id ∈ P → q.retryCount ≤ workerMaxRetries) :
    ∃ q ∈ t.outbox, q.id = p.id ∧ q.published = false ∧
      (s.unpublished.length ≤ 10 → q.retryCount = p.retryCount + n) ∧
      t.attemptsLeft P + 10 * n + 10 * p.retryCount ≤ s.attemptsLeft P + 10 * q.retryCount := by
  induction h with
  | zero => exact ⟨p, hp, rfl, hpub, fun _ => rfl, by omega⟩
  | @succ n t u h hc ih =>
    obtain ⟨⟨hids, hnone⟩, _, hfewer⟩ := h.between hs
    obtain ⟨⟨ids, tried, hcyc⟩, _⟩ := hc.cycled hnone
    have hbefore : ∀ r ∈ t.outbox, r.id ∈ P → r.retryCount ≤ workerMaxRetries := by
      intro r hr hrP
      obtain ⟨q, hq, hout⟩ := hcyc.mem hr
      exact hout.retryCount_bounds.1.trans (hle q hq (hout.id ▸ hrP))
    obtain ⟨r, hr, hid, hrpub, hsmall, hleft⟩ := ih hbefore
    obtain ⟨q, hq, hout⟩ := hcyc.mem hr
    have hused := hcyc.attemptsLeft hids hnone hle
    have hpicked := fun hlen => picks_small hids hnone hcyc.picks hlen hr hrpub
    refine ⟨q, hq, hout.id.trans hid, ?_⟩
    cases hout with
    | left hin =>
      -- the batch is full of other rows
      have hlen : 10 < t.unpublished.length := not_le.mp fun hlen => hin (hpicked hlen)
      exact ⟨hrpub, fun hfew => by omega, by omega⟩
    | sent hin hnot => exact (hnot (hid ▸ hP)).elim
    | failed hin hP error =>
      refine ⟨hrpub, fun hfew => ?_, ?_⟩
      · simp [hsmall hfew, add_assoc]
      · show _ ≤ _ + 10 * (r.retryCount + 1)
        omega

theorem attemptsLeft_le [DecidablePred (· ∈ P)] :
    s.attemptsLeft P ≤ workerMaxRetries * s.unpublished.length := by
  unfold State.attemptsLeft State.unpublished
  induction s.outbox with
  | nil => simp
  | cons row rows ih =>
    cases hp : row.published with
    | true => simpa [OutboxRow.attemptsLeft, hp] using ih
    | false =>
      have hrow : row.attemptsLeft P ≤ workerMaxRetries := by
        unfold OutboxRow.attemptsLeft
        split_ifs <;> simp [workerMaxRetries]
      simp only [List.map_cons, List.sum_cons, List.filter_cons, hp, Bool.not_false, if_true,
        List.length_cons, Nat.mul_add, Nat.mul_one]
      omega

/-- After a cycle over a short table only failing rows are left. -/
theorem Cycled.published (h : Cycled P s t ids tried) (hids : (s.outbox.map OutboxRow.id).Nodup)
    (hw : ∀ v, s.cycles v = none) (hlen : s.unpublished.length ≤ 10) (hq : q ∈ t.outbox)
    (hP : q.id ∉ P) : q.published = true := by
  obtain ⟨row, hr, hout⟩ := h.of_mem hq
  cases hout with
  | sent => rfl
  | failed hin hnot => exact (hP hnot).elim
  | left hin =>
    by_contra hpub
    exact hin (picks_small hids hw h.picks hlen hr (by simpa using hpub))

/-- The rows that may still be tried in `n` cycles without one attempt too many. -/
def WithinRetries (P : Set Nat) (n : Nat) (row : OutboxRow) : Prop :=
  row.id ∈ P → row.retryCount + (if row.published then 0 else n) ≤ workerMaxRetries

/-- Without a failing row that waits, each cycle publishes a row. -/
theorem Cycles.unpublished (h : Cycles fromisoformat P w s n t)
    (hs : (fromTable fromisoformat).init s)
    (hP : ∀ row ∈ s.outbox, row.id ∈ P → row.published = true) :
    t.unpublished.length ≤ s.unpublished.length - n := by
  induction h with
  | zero => exact le_rfl
  | succ h hc ih =>
    obtain ⟨⟨hids, hnone⟩, _⟩ := h.between hs
    obtain ⟨⟨ids, tried, hcyc⟩, _⟩ := hc.cycled hnone
    have hlt := hcyc.unpublished_lt hids hnone fun r hr hrP => by
      obtain ⟨row, hrow, hid, hpub, _⟩ := h.of_mem hs hr
      exact hpub (hP row hrow (hid ▸ hrP))
    omega

/-- A failing row that was not tried too often could have been tried in every cycle. -/
theorem Cycles.withinRetries (h : Cycles fromisoformat P w s s.unpublished.length t)
    (hs : (fromTable fromisoformat).init s)
    (hle : ∀ q ∈ t.outbox, q.id ∈ P → q.retryCount ≤ workerMaxRetries) (hp : p ∈ s.outbox) :
    WithinRetries P s.unpublished.length p := by
  classical
  intro hP
  cases hpub : p.published with
  | true =>
    obtain ⟨q, hq, hid⟩ := List.mem_map.mp ((h.between hs).2.1 ▸ List.mem_map_of_mem hp)
    obtain ⟨row, hrow, hid', _, hge, _⟩ := h.of_mem hs hq
    obtain rfl := List.inj_on_of_nodup_map hs.1 hrow hp (hid'.trans hid)
    exact hge.trans (hle q hq (hid ▸ hP))
  | false =>
    obtain ⟨q, hq, hid, _, hsmall, hleft⟩ := h.failing hs hp hP hpub hle
    have hq5 := hle q hq (hid ▸ hP)
    have hmost := attemptsLeft_le (P := P) (s := s)
    simp only [Bool.false_eq_true, if_false]
    unfold workerMaxRetries at *
    -- with more than ten rows, the attempts that the others have left do not fill the batches
    omega

/-- Where a failing row waits, the table is short, and otherwise every cycle publishes a row. -/
theorem Cycles.published (h : Cycles fromisoformat P w s s.unpublished.length t)
    (hs : (fromTable fromisoformat).init s)
    (hwithin : ∀ row ∈ s.outbox, WithinRetries P s.unpublished.length row) (hq : q ∈ t.outbox)
    (hqP : q.id ∉ P) : q.published = true := by
  by_cases hwait : ∃ row ∈ s.outbox, row.id ∈ P ∧ row.published = false
  · obtain ⟨row, hr, hP, hpub⟩ := hwait
    have hfew := hwithin row hr hP
    have hmem : row ∈ s.unpublished := List.mem_filter.mpr ⟨hr, by simp [hpub]⟩
    have hpos := List.length_pos_of_mem hmem
    simp only [hpub, Bool.false_eq_true, if_false, workerMaxRetries] at hfew
    generalize hn : s.unpublished.length = n at h hfew hpos
    cases h with
    | zero => omega
    | succ h hc =>
      obtain ⟨⟨hids, hnone⟩, _, hfewer⟩ := h.between hs
      obtain ⟨⟨ids, tried, hcyc⟩, _⟩ := hc.cycled hnone
      exact hcyc.published hids hnone (by omega) hq hqP
  · have hnone := h.unpublished hs fun row hr hP => by
      by_contra hpub
      exact hwait ⟨row, hr, hP, by simpa using hpub⟩
    rw [Nat.sub_self, Nat.le_zero, List.length_eq_zero_iff] at hnone
    by_contra hpub
    have hmem : q ∈ t.unpublished := List.mem_filter.mpr ⟨hq, by simpa using hpub⟩
    simp [hnone] at hmem

/-- After as many cycles as rows wait, the others are published and no failing row was tried too
often, if and only if none of the failing rows would be tried too often in every cycle. -/
theorem noneStarved_iff (hs : (fromTable fromisoformat).init s)
    (h : Cycles fromisoformat P w s s.unpublished.length t) :
    NoneStarved P t ↔ ∀ row ∈ s.outbox, WithinRetries P s.unpublished.length row := by
  constructor
  · rintro ⟨_, hle⟩ row hrow
    exact h.withinRetries hs hle hrow
  · intro hwithin
    refine ⟨fun q hq hqP => h.published hs hwithin hq hqP, fun q hq hP => ?_⟩
    obtain ⟨row, hrow, hid, _, _, hle⟩ := h.of_mem hs hq
    exact hle.trans (hwithin row hrow (hid ▸ hP))

theorem picks_last (hone : s.unpublished = [q]) (hw : ∀ v, s.cycles v = none) :
    s.Picks [q.id] := by
  refine ⟨s.unpublished, s.unpublished, fun row => ?_, by simp [hone], .refl _, by simp [hone], ?_⟩
  · simp [State.unpublished, State.Free, hw]
  · rw [hone]
    rfl

/-- A cycle that only finds a failing row counts one more attempt. -/
theorem failing_cycle (hone : s.unpublished = [q]) (hw : ∀ v, s.cycles v = none) (hP : q.id ∈ P) :
    ∃ t, CompletedCycle fromisoformat P 0 s t ∧
      t.outbox = s.outbox.map fun row => row.record [(q.id, some "timeout")] := by
  have hq : q ∈ s.unpublished := hone ▸ List.mem_cons_self
  have hpoll : Step fromisoformat s (.poll 0 [q.id]) (s.setCycle 0 (some ⟨[q.id], []⟩)) :=
    .poll (hw 0) (picks_last hone hw)
  have hraises : Step fromisoformat (s.setCycle 0 (some ⟨[q.id], []⟩))
      (.publishRaised 0 "timeout" none)
      (((s.setCycle 0 (some ⟨[q.id], []⟩)).putAt none ⟨q.payload.value, none, .queued⟩).setCycle 0
        (some ⟨[], [(q.id, some "timeout")]⟩)) :=
    .publishRaised _ State.setCycle_self (List.mem_filter.mp hq).1 rfl nofun
  have hfails : Publishing P (s.setCycle 0 (some ⟨[q.id], []⟩))
      (.publishRaised 0 "timeout" none) := by
    intro c hc
    obtain rfl := Option.some.inj (State.setCycle_self.symm.trans hc)
    simpa using hP
  have hpath := TransitionSystem.Path.step (S := fromTable fromisoformat) .refl hfails hraises
  exact ⟨_, ⟨s, _, _, .refl, hpoll, hpath, .commitCycle State.setCycle_self⟩, rfl⟩

/-- The publish of the first row raises, and the second row is published behind it. -/
theorem twoRows_cycle : ∃ t, CompletedCycle fromisoformat {1} 0 twoRows t ∧
    (∀ v, t.cycles v = none) ∧
    t.outbox = [{ firstRow with retryCount := 1, lastError := some "timeout" },
      { secondRow with published := true }] := by
  let failed := (polledRows.putAt none ⟨firstRow.payload.value, none, .queued⟩).setCycle 0
    (some ⟨[2], [(1, some "timeout")]⟩)
  have hraises : Step fromisoformat polledRows (.publishRaised 0 "timeout" none) failed :=
    .publishRaised _ State.setCycle_self first_mem rfl nofun
  have hpublishes : Step fromisoformat failed (.publish 0 0)
      ((failed.put 0 ⟨secondRow.payload.value, none, .queued⟩).setCycle 0
        (some ⟨[], [(2, none), (1, some "timeout")]⟩)) :=
    .publish State.setCycle_self second_mem rfl rfl
  have hfails : Publishing {1} polledRows (.publishRaised 0 "timeout" none) := by
    intro c hc
    obtain rfl := Option.some.inj (State.setCycle_self.symm.trans hc)
    simp
  have hsends : Publishing {1} failed (.publish 0 0) := by
    intro c hc
    obtain rfl := Option.some.inj (State.setCycle_self.symm.trans hc)
    simp
  have hpath := (TransitionSystem.Path.step (S := fromTable fromisoformat) .refl hfails
    hraises).step hsends hpublishes
  refine ⟨_, ⟨twoRows, _, _, .refl, .poll rfl twoRows_picks, hpath,
    .commitCycle State.setCycle_self⟩, ?_, rfl⟩
  intro v
  by_cases hv : v = 0 <;>
    simp [State.setCycle, State.put, State.putAt, failed, polledRows, twoRows, State.empty, hv]

/-- After two cycles the second row is published, and the first was tried twice. -/
theorem attempts_within : ∃ t, (fromTable DateTime.fromisoformat).init twoRows ∧
    Cycles DateTime.fromisoformat {1} 0 twoRows twoRows.unpublished.length t ∧
    t.outbox.map OutboxRow.published = [false, true] ∧
    t.outbox.map OutboxRow.retryCount = [2, 0] ∧ NoneStarved {1} t := by
  have hinit : (fromTable DateTime.fromisoformat).init twoRows :=
    ⟨by simp [twoRows_ids], fun _ => rfl⟩
  obtain ⟨mid, hfirst, hw, hout⟩ := twoRows_cycle
  have hone : mid.unpublished =
      [{ firstRow with retryCount := 1, lastError := some "timeout" }] := by
    rw [State.unpublished, hout]
    rfl
  obtain ⟨t, hsecond, hout'⟩ := failing_cycle (P := {1}) hone hw rfl
  have hcycles : Cycles DateTime.fromisoformat {1} 0 twoRows twoRows.unpublished.length t :=
    .succ (.succ .zero hfirst) hsecond
  rw [hout] at hout'
  refine ⟨t, hinit, hcycles, by rw [hout']; rfl, by rw [hout']; rfl,
    (noneStarved_iff hinit hcycles).mpr ?_⟩
  intro row hr hP
  simp only [twoRows, List.mem_cons, List.not_mem_nil, or_false] at hr
  rcases hr with rfl | rfl
  · decide
  · exact absurd hP (by decide)

/-- A row that the worker has given up on. -/
def givenUpRow : OutboxRow := { firstRow with retryCount := workerMaxRetries }

def oneRow (row : OutboxRow) : State := { State.empty with outbox := [row] }

/-- The row is tried a sixth time. -/
theorem tried_again_after_giving_up :
    ∃ t, (fromTable DateTime.fromisoformat).init (oneRow givenUpRow) ∧
      Cycles DateTime.fromisoformat {1} 0 (oneRow givenUpRow)
        (oneRow givenUpRow).unpublished.length t ∧ ¬ NoneStarved {1} t := by
  have hone : (oneRow givenUpRow).unpublished = [givenUpRow] := rfl
  obtain ⟨t, hc, hout⟩ := failing_cycle (P := {1}) hone (fun _ => rfl) rfl
  refine ⟨t, ⟨List.nodup_singleton _, fun _ => rfl⟩, .succ .zero hc, ?_⟩
  rintro ⟨_, hle⟩
  rw [hout] at hle
  exact absurd (hle _ List.mem_cons_self rfl) (by decide)

/-- Ten older rows wait whose publish always raises. -/
def Blocked (P : Set Nat) (s : State) (row : OutboxRow) : Prop :=
  row ∈ s.outbox ∧ ∃ older : List Nat, older.Nodup ∧ 10 ≤ older.length ∧ ∀ id ∈ older,
    ∃ q ∈ s.outbox, q.id = id ∧ id ∈ P ∧ q.published = false ∧ q.createdAt < row.createdAt

theorem Blocked.not_picked (h : Blocked P s row) (hids : (s.outbox.map OutboxRow.id).Nodup)
    (hw : ∀ v, s.cycles v = none) (hp : s.Picks ids) : row.id ∉ ids := by
  obtain ⟨hr, older, hnd, hlen, holder⟩ := h
  intro hid
  have hsub : row.id :: older ⊆ ids := by
    refine List.cons_subset.mpr ⟨hid, fun id hin => ?_⟩
    obtain ⟨q, hq, rfl, _, hpub, hlt⟩ := holder id hin
    exact mem_of_picks hids hp hr hid hq ⟨hpub, by simp [hw]⟩ hlt
  have hnew : row.id ∉ older := by
    intro hin
    obtain ⟨q, hq, he, _, _, hlt⟩ := holder _ hin
    obtain rfl := List.inj_on_of_nodup_map hids hq hr he
    exact lt_irrefl _ hlt
  have hmany := (List.subperm_of_subset (List.nodup_cons.mpr ⟨hnew, hnd⟩) hsub).length_le
  have hten := (picks_batch hids hw hp).2.1
  simp only [List.length_cons] at hmany
  omega

theorem Blocked.cycled (h : Blocked P s row) (hids : (s.outbox.map OutboxRow.id).Nodup)
    (hw : ∀ v, s.cycles v = none) (hc : Cycled P s t ids tried) : Blocked P t row := by
  have hnot := h.not_picked hids hw hc.picks
  obtain ⟨hr, older, hnd, hlen, holder⟩ := h
  refine ⟨?_, older, hnd, hlen, ?_⟩
  · obtain ⟨q, hq, hout⟩ := hc.mem hr
    cases hout with
    | left => exact hq
    | sent hin | failed hin => exact (hnot hin).elim
  · intro id hin
    obtain ⟨q, hq, rfl, hP, hpub, hlt⟩ := holder id hin
    obtain ⟨q', hq', hout⟩ := hc.mem hq
    refine ⟨q', hq', hout.id, hP, ?_⟩
    cases hout with
    | sent _ hnP => exact (hnP hP).elim
    | left | failed => exact ⟨hpub, hlt⟩

/-- Behind ten failing rows a row stays as it is, whatever its publish would do. -/
theorem Blocked.cycles (h : Blocked P s row) (hs : (fromTable fromisoformat).init s)
    (hc : Cycles fromisoformat P w s n t) : Blocked P t row := by
  induction hc with
  | zero => exact h
  | succ hc hcyc ih =>
    obtain ⟨⟨hids, hnone⟩, _⟩ := hc.between hs
    obtain ⟨⟨ids, tried, hcyc⟩, _⟩ := hcyc.cycled hnone
    exact ih.cycled hids hnone hcyc

end ForensicChain.Pipeline
