import ForensicChain.Ledger.Servicer
import ForensicChain.Library.Table

/-!
Where the records come from: each one is the record of one committed call, and its columns are
the arguments of the call as they are stored. This needs no assumption on the case ids.
-/
namespace ForensicChain.Ledger

variable {s t : State} {a : Action} {i : CallId} {c : Call} {args : AppendArgs}
  {r stored : LedgerRecord}

/-- The columns of a stored record are the arguments of its call. -/
structure RecordOf (args : AppendArgs) (r : LedgerRecord) : Prop where
  artifactId : Uuid.parse args.artifactId = some r.artifactId
  caseId : Postgres.varchar 64 args.caseId = some r.caseId
  recordType : Postgres.varchar 64 args.recordType = some r.recordType
  hashValue : Postgres.nullable (Postgres.varchar 256) args.hashValue = some r.hashValue
  signatureValue : Postgres.nullable Postgres.text args.signatureValue = some r.signatureValue

theorem recordOf_newRecord {artifactId recordId : Uuid} {previous : Option String}
    {now : Timestamp} (ha : Uuid.parse args.artifactId = some artifactId)
    (hs : (newRecord args artifactId previous recordId now).store = some stored) :
    RecordOf args stored := by
  have hstored := LedgerRecord.store_eq_some hs
  exact ⟨ha.trans (congrArg some hstored.artifactId.symm), hstored.caseId, hstored.recordType,
    hstored.hashValue, hstored.signatureValue⟩

/-- A call that has built a record has built it from its arguments. -/
def Call.Sound (c : Call) : Prop :=
  match c.phase with
  | .built r | .advanced r => ∃ artifactId previous recordId now,
      Uuid.parse c.args.artifactId = some artifactId ∧
        r = newRecord c.args artifactId previous recordId now
  | .committed r => RecordOf c.args r
  | _ => True

structure Provenance (s : State) : Prop where
  calls : ∀ i c, s.calls i = some c → c.Sound
  committed : ∀ i c r, s.calls i = some c → c.phase = .committed r → r ∈ s.records
  records : ∀ r ∈ s.records, ∃ i c, s.calls i = some c ∧ c.phase = .committed r
  recordIds : (s.records.map LedgerRecord.recordId).Nodup

/-- What was committed stays, and a call keeps its arguments. -/
structure Grows (s t : State) : Prop where
  records : s.records ⊆ t.records
  calls : ∀ i c, s.calls i = some c → ∃ c', t.calls i = some c' ∧ c'.args = c.args ∧
    ∀ r, c.phase = .committed r → c'.phase = .committed r

theorem Grows.refl : Grows s s := ⟨List.Subset.refl _, fun _ c hc => ⟨c, hc, rfl, fun _ => id⟩⟩

/-- A step moves its call on, and commits the record of the call or none. -/
inductive Effect (s : State) (i : CallId) (t : State) : Prop
  | quiet (c' : Call) (hcalls : t.calls = Function.update s.calls i (some c'))
      (hrecords : t.records = s.records) (hc : ∀ r, c'.phase ≠ .committed r)
  | commit {stored : LedgerRecord} (c' : Call)
      (hcalls : t.calls = Function.update s.calls i (some c'))
      (hrecords : t.records = s.records ++ [stored]) (hc : c'.phase = .committed stored)
      (hnew : ∀ q ∈ s.records, q.recordId ≠ stored.recordId)

theorem step_effect (hs : Step s a t) : Effect s a.call t := by
  cases hs with
  | commit hi hp hs hk => exact .commit _ rfl rfl rfl hk
  | start args hi => exact .quiet _ rfl rfl (by simp)
  | ensureConflict hi hp hk hh => exact .quiet _ rfl rfl (by simp)
  | ensureInsert hi hp hk hh hl => exact .quiet _ rfl rfl (by simp)
  | selectRow hi hp hv hl => exact .quiet _ rfl rfl (by simp)
  | selectNothing hi hp hv => exact .quiet _ rfl rfl (by simp)
  | build recordId now hi hp ha => exact .quiet _ rfl rfl (by simp)
  | advanceRow hi hp hv hl => exact .quiet _ rfl rfl (by simp)
  | advanceNothing hi hp hv => exact .quiet _ rfl rfl (by simp)
  | fail error hi hp => exact .quiet _ rfl rfl (by simp)

/-- A call that moves on is new, or it goes on with its arguments from an open transaction. -/
theorem step_call (hs : Step s a t) (hc : s.calls a.call = some c) :
    c.phase.Running ∧ ∃ c', t.calls a.call = some c' ∧ c'.args = c.args := by
  cases hs with
  | start args hi => simp [Action.call, hi] at hc
  | fail error hi hp =>
    obtain rfl := Option.some.inj (hi.symm.trans hc)
    exact ⟨hp, _, Function.update_self _ _ _, rfl⟩
  | ensureConflict hi hp hk hh | ensureInsert hi hp hk hh hl | selectRow hi hp hv hl
  | selectNothing hi hp hv | build recordId now hi hp ha | advanceRow hi hp hv hl
  | advanceNothing hi hp hv | commit hi hp hs hk =>
    obtain rfl := Option.some.inj (hi.symm.trans hc)
    exact ⟨by rw [hp]; trivial, _, Function.update_self _ _ _, rfl⟩

theorem step_known (hs : Step s a t) (ha : ∀ j b, a ≠ .start j b) :
    ∃ c, s.calls a.call = some c := by
  cases hs with
  | start args hi => exact (ha _ _ rfl).elim
  | ensureConflict hi | ensureInsert hi | selectRow hi | selectNothing hi | build _ _ hi
  | advanceRow hi | advanceNothing hi | commit hi | fail _ hi => exact ⟨_, hi⟩

theorem step_calls (hs : Step s a t) :
    ∃ c', t.calls = Function.update s.calls a.call (some c') := by
  cases step_effect hs with
  | quiet c' hcalls => exact ⟨c', hcalls⟩
  | commit c' hcalls => exact ⟨c', hcalls⟩

/-- The calls of others stay as they are. -/
theorem other_call (hs : Step s a t) (hi : i ≠ a.call) : t.calls i = s.calls i := by
  obtain ⟨c', hcalls⟩ := step_calls hs
  rw [hcalls, Function.update_of_ne hi]

/-- Only the start of a call brings a new one. -/
theorem call_of_step (hs : Step s a t) (ha : ∀ j b, a ≠ .start j b) (hc : t.calls i = some c) :
    ∃ d, s.calls i = some d ∧ d.args = c.args := by
  by_cases hi : i = a.call
  · subst hi
    obtain ⟨d, hd⟩ := step_known hs ha
    obtain ⟨_, c', hc', hargs⟩ := step_call hs hd
    obtain rfl := Option.some.inj (hc.symm.trans hc')
    exact ⟨d, hd, hargs.symm⟩
  · exact ⟨c, other_call hs hi ▸ hc, rfl⟩

theorem call_of_start (hs : Step s (.start i args) t) {j : CallId} (hc : t.calls j = some c) :
    s.calls j = some c ∨ j = i ∧ c = ⟨args, .opened, []⟩ := by
  cases hs with
  | start _ hi =>
    rw [State.setCall_calls] at hc
    by_cases hij : j = i
    · obtain rfl : _ = c := by simpa [hij] using hc
      exact .inr ⟨hij, rfl⟩
    · rw [Function.update_of_ne hij] at hc
      exact .inl hc

theorem step_sound (h : ∀ i c, s.calls i = some c → c.Sound) (hs : Step s a t)
    (hc : t.calls a.call = some c) : c.Sound := by
  cases hs with
  | build recordId now hi hp ha =>
    obtain rfl : _ = c := by simpa [Action.call] using hc
    exact ⟨_, _, _, _, ha, rfl⟩
  | advanceRow hi hp hv hl | advanceNothing hi hp hv =>
    obtain rfl : _ = c := by simpa [Action.call] using hc
    simpa [Call.Sound, hp] using h _ _ hi
  | commit hi hp hs hk =>
    obtain rfl : _ = c := by simpa [Action.call] using hc
    have hbuilt := h _ _ hi
    simp only [Call.Sound, hp] at hbuilt
    obtain ⟨artifactId, previous, recordId, now, ha, rfl⟩ := hbuilt
    exact recordOf_newRecord ha hs
  | start args hi | ensureConflict hi hp hk hh | ensureInsert hi hp hk hh hl | selectRow hi hp hv hl
  | selectNothing hi hp hv | fail error hi hp =>
    obtain rfl : _ = c := by simpa [Action.call] using hc
    trivial

theorem grows_step (hs : Step s a t) : Grows s t := by
  have hcalls : ∀ i c, s.calls i = some c → ∃ c', t.calls i = some c' ∧ c'.args = c.args ∧
      ∀ r, c.phase = .committed r → c'.phase = .committed r := by
    intro i c hc
    by_cases hi : i = a.call
    · subst hi
      obtain ⟨hrun, d, hd, hargs⟩ := step_call hs hc
      refine ⟨d, hd, hargs, ?_⟩
      intro r hr
      simp [hr, Phase.Running] at hrun
    · exact ⟨c, (other_call hs hi).trans hc, rfl, fun _ => id⟩
  cases step_effect hs with
  | quiet c' _ hrec hc => exact ⟨by simp [hrec], hcalls⟩
  | commit c' _ hrec hc hnew => exact ⟨by simp [hrec], hcalls⟩

theorem Provenance.step (h : Provenance s) (hs : Step s a t) : Provenance t := by
  have hgrows := grows_step hs
  have hsound : ∀ i c, t.calls i = some c → c.Sound := by
    intro i c hc
    by_cases hi : i = a.call
    · exact step_sound h.calls hs (hi ▸ hc)
    · exact h.calls i c (other_call hs hi ▸ hc)
  have hkept : ∀ r ∈ s.records, ∃ i c, t.calls i = some c ∧ c.phase = .committed r := by
    intro r hr
    obtain ⟨i, c, hc, hp⟩ := h.records r hr
    obtain ⟨c', hc', _, hcommitted⟩ := hgrows.calls i c hc
    exact ⟨i, c', hc', hcommitted r hp⟩
  cases step_effect hs with
  | quiet c' hupd hrec hquiet =>
    refine ⟨hsound, ?_, ?_, ?_⟩
    · intro i c r hc hp
      rw [hupd] at hc
      rcases Table.update_some hc with ⟨_, rfl⟩ | ⟨_, hold⟩
      · exact (hquiet r hp).elim
      · exact hrec ▸ h.committed i c r hold hp
    · exact hrec ▸ hkept
    · exact hrec ▸ h.recordIds
  | commit c' hupd hrec hcommitted hnew =>
    refine ⟨hsound, ?_, ?_, ?_⟩
    · intro i c r hc hp
      rw [hupd] at hc
      rw [hrec, List.mem_append]
      rcases Table.update_some hc with ⟨_, rfl⟩ | ⟨_, hold⟩
      · obtain rfl := Phase.committed.inj (hcommitted.symm.trans hp)
        exact .inr (List.mem_singleton_self _)
      · exact .inl (h.committed i c r hold hp)
    · intro r hr
      rw [hrec] at hr
      rcases List.mem_append.mp hr with hr | hr
      · exact hkept r hr
      · obtain rfl := List.mem_singleton.mp hr
        exact ⟨a.call, c', by simp [hupd], hcommitted⟩
    · rw [hrec, List.map_append]
      apply h.recordIds.append (List.nodup_singleton _)
      simpa using hnew

theorem start_call (hs : Step s (.start i args) t) : t.calls i = some ⟨args, .opened, []⟩ := by
  cases hs
  exact Function.update_self _ _ _

/-- A call is committed by its own commit, and stays so. -/
theorem committed_of_step (hs : Step s a t) (hc : t.calls i = some c)
    (hp : c.phase = .committed r) :
    (∃ d, s.calls i = some d ∧ d.phase = .committed r) ∨ a = .commit i := by
  by_cases hi : i = a.call
  · subst hi
    cases hs with
    | commit => exact .inr rfl
    | _ =>
      obtain rfl : _ = c := by simpa [Action.call] using hc
      cases hp
  · exact .inl ⟨c, other_call hs hi ▸ hc, hp⟩

/-- The payload of a committed record is that of its call. -/
def PayloadsKept (s : State) : Prop :=
  ∀ i c r, s.calls i = some c → c.phase = .committed r →
    r.rawPayload = Jsonb.ofJson c.args.rawPayload

theorem payloadsKept_step (hk : PayloadsKept s) (h : Provenance s) (hs : Step s a t) :
    PayloadsKept t := by
  intro i c r hc hr
  by_cases hi : i = a.call
  · subst hi
    cases hs with
    | commit hcall hp hstore hnew =>
      obtain rfl : _ = c := by simpa [Action.call] using hc
      obtain rfl := Phase.committed.inj hr
      have hbuilt := h.calls _ _ hcall
      simp only [Call.Sound, hp] at hbuilt
      obtain ⟨_, _, _, _, _, rfl⟩ := hbuilt
      exact (LedgerRecord.store_eq_some hstore).rawPayload
    | _ =>
      obtain rfl : _ = c := by simpa [Action.call] using hc
      cases hr
  · exact hk i c r (other_call hs hi ▸ hc) hr

theorem provenance_initial (h : Initial s) : Provenance s := by
  obtain ⟨hr, _, _, hc⟩ := h
  constructor <;> simp [hr, hc]

theorem payloadsKept_reachable (h : system.Reachable s) : PayloadsKept s := by
  have hboth : Provenance s ∧ PayloadsKept s := by
    induction h with
    | init hs => exact ⟨provenance_initial hs, by simp [PayloadsKept, hs.2.2.2]⟩
    | step _ _ hs ih => exact ⟨ih.1.step hs, payloadsKept_step ih.2 ih.1 hs⟩
  exact hboth.2

end ForensicChain.Ledger
