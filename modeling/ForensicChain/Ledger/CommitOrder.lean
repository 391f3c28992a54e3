import ForensicChain.Ledger.Validation

/-!
The validator rebuilds the order of the commits from `created_at` and the random `record_id`. It
finds the chain that the writer linked as long as every record comes later in that order than the
records of its case that were committed before it.
-/
namespace ForensicChain.Ledger

variable {s t : State} {i : CallId} {c : Call} {a : Action} {r q stored : LedgerRecord}
  {caseId : String}

/-- The order in which the validator reads the rows of a case. -/
abbrev ReadBefore : LedgerRecord → LedgerRecord → Prop :=
  OrderBy.Asc LedgerRecord.createdAt fun r => r.recordId.value

/-- The committed records of every case stand in the order in which they are read. -/
def InReadOrder (s : State) : Prop :=
  ∀ caseId, (caseRecords s.records caseId).Pairwise ReadBefore

/-- A record is read after those of its case that are committed before it. -/
def CommitsInOrder (s : State) : Action → Prop
  | .commit i => ∀ c r, s.calls i = some c → c.phase = .advanced r →
      ∀ q ∈ caseRecords s.records c.args.caseId, ReadBefore q r
  | _ => True

/-- What is asked of the steps of a run: verbatim case ids, and commits in the order of reading. -/
def OrderedSteps (s : State) (a : Action) : Prop := VerbatimCase s a ∧ CommitsInOrder s a

theorem OrderedSteps.verbatim (s : State) (a : Action) (h : OrderedSteps s a) : VerbatimCase s a :=
  h.1

theorem orderedSteps_of_ne (s : State) (a : Action) (hs : ∀ j b, a ≠ .start j b)
    (hc : ∀ j, a ≠ .commit j) : OrderedSteps s a := by
  refine ⟨verbatimCase_of_ne_start hs, ?_⟩
  cases a with
  | commit j => exact (hc j rfl).elim
  | _ => trivial

/-- A stored record is read where the record would be. -/
theorem readBefore_store (hs : r.store = some stored) : ReadBefore q stored ↔ ReadBefore q r := by
  have hstored := LedgerRecord.store_eq_some hs
  simp only [OrderBy.Asc, hstored.recordId, hstored.createdAt]

theorem inReadOrder_step (h : InReadOrder s) (hi : Invariant s) (ha : CommitsInOrder s a)
    (hs : Step s a t) : InReadOrder t := by
  cases hs with
  | commit hcall hp hstore hk =>
    rename_i i c r stored
    obtain ⟨hverb, hinv⟩ := hi.calls i c hcall
    simp only [CallInvariant, hp] at hinv
    obtain ⟨_, ⟨hcase, _, _⟩, _, _⟩ := hinv
    have hstored : stored.caseId = c.args.caseId :=
      hverb _ (hcase ▸ (LedgerRecord.store_eq_some hstore).caseId)
    intro key
    simp only [State.setCall_records, State.unlock_records, State.publish, caseRecords_concat,
      hstored]
    split_ifs with hkey
    · subst hkey
      rw [List.pairwise_append]
      refine ⟨h _, List.pairwise_singleton _ _, ?_⟩
      intro q hq x hx
      rw [List.mem_singleton.mp hx, readBefore_store hstore]
      exact ha c r hcall hp q hq
    · exact h key
  | _ => exact h

theorem inReadOrder_reachable (h : system.ReachableWhen OrderedSteps s) : InReadOrder s := by
  induction h with
  | init h =>
    intro caseId
    simp [caseRecords, h.1]
  | step hr ha hs ih =>
    exact inReadOrder_step ih (invariant_reachable (hr.mono OrderedSteps.verbatim)) ha.2 hs

/-- Rows that stand in the order of reading are read as they stand. -/
theorem InReadOrder.readCase (h : InReadOrder s) :
    readCase s.records caseId = caseRecords s.records caseId :=
  (h caseId).insertionSort_eq

/-- A chain that stands in the order of reading is accepted, with all of its records. -/
theorem validate_of_inReadOrder (h : InReadOrder s) (hi : Invariant s)
    (hne : Text.strip caseId ≠ "") : validateLedgerChain (.ok s.records) caseId =
      ⟨true, (caseRecords s.records (Text.strip caseId)).length, ""⟩ := by
  have hvalid : (validateRecords none 0
      (readCase s.records (Text.strip caseId))).chainValid = true := by
    rw [h.readCase]
    exact validateRecords_chainValid.mpr (hi.cases (Text.strip caseId)).1
  simp only [validateLedgerChain, if_neg hne]
  rw [validateRecords_eq hvalid, h.readCase, Nat.zero_add]

/-- An untampered ledger is accepted in every run that commits the records of each case in the
order in which they are read. -/
theorem untampered_ledger_accepted (h : system.ReachableWhen OrderedSteps s)
    (hc : Text.strip caseId = caseId) (hne : caseId ≠ "") :
    validateLedgerChain (.ok s.records) caseId =
      ⟨true, (caseRecords s.records caseId).length, ""⟩ := by
  have hvalid := validate_of_inReadOrder (inReadOrder_reachable h)
    (invariant_reachable (h.mono OrderedSteps.verbatim)) (hc.symm ▸ hne)
  rwa [hc] at hvalid

/-- The record of an evidence proof over empty values. -/
def sampleProof (artifactId recordId : Uuid) (previous : Option String) (now : Timestamp) :
    LedgerRecord :=
  newRecord (proofArgs artifactId "CASE-2025-001" "" "") artifactId previous recordId now

/-- Two proofs of a case are appended one after the other at any two clock readings, as long as
the second commit is allowed. -/
theorem two_readings_run {ok : State → Action → Prop}
    (hverbatim : ∀ s a, ok s a → VerbatimCase s a)
    (hok : ∀ s a, (∀ j b, a ≠ .start j b) → (∀ j, a ≠ .commit j) → ok s a)
    (hstart : ∀ s i args, Postgres.Verbatim 64 args.caseId → ok s (.start i args))
    (first second : Timestamp)
    (hcommit : ∀ (i : CallId) (s : State) (args : AppendArgs) (r : LedgerRecord),
      (∀ q ∈ s.records, q.createdAt = first ∧ r.createdAt = second) → CommitOk ok s i args r) :
    ∃ (s : State) (r : LedgerRecord), system.ReachableWhen ok s ∧
      r = sampleProof (.ofNat 1) (.ofNat 3) none first ∧
      s.records = [r, sampleProof (.ofNat 2) (.ofNat 4) (some r.recordHash) second] := by
  have hempty : Postgres.text "" = some "" := by decide
  obtain ⟨s, hs, _, hrecords⟩ := two_proofs_run hverbatim hok hstart "CASE-2025-001" "" ""
    (.ofNat 1) (.ofNat 2) first second (by decide) (by decide) hempty (by decide) hempty
    (.ofNat 3) (.ofNat 4) (by decide) rfl rfl (hcommit _ _ _ _ (by simp [State.empty]))
    (by
      intro s hs
      apply hcommit
      intro q hq
      rw [hs, List.mem_singleton] at hq
      exact ⟨hq ▸ rfl, rfl⟩)
  exact ⟨s, _, hs, rfl, hrecords⟩

theorem untampered_two_proofs_accepted :
    ∃ s : State, s.records.length = 2 ∧
      validateLedgerChain (.ok s.records) "CASE-2025-001" = ⟨true, 2, ""⟩ := by
  have hstart : ∀ s i args, Postgres.Verbatim 64 args.caseId → OrderedSteps s (.start i args) :=
    fun _ _ _ hv => ⟨hv, trivial⟩
  obtain ⟨s, r, hs, hr, hrecords⟩ := two_readings_run OrderedSteps.verbatim orderedSteps_of_ne
    hstart 0 1 (by
      intro i s args r hprev t writes hrec hcall
      refine ⟨trivial, ?_⟩
      intro c r' hc hp q hq
      obtain rfl := Option.some.inj (hcall.symm.trans hc)
      obtain rfl := Phase.advanced.inj hp
      obtain ⟨hqtime, hrtime⟩ := hprev q (hrec ▸ List.mem_of_mem_filter hq)
      exact .inl (by rw [hqtime, hrtime]; decide))
  refine ⟨s, by simp [hrecords], ?_⟩
  have hvalid : validateLedgerChain (.ok s.records) "CASE-2025-001" = _ :=
    untampered_ledger_accepted hs (by decide) (by decide)
  rw [hvalid, hrecords, hr]
  rfl

/-- The clock was set back between the two appends: the validator reads the second record first. -/
theorem clock_set_back_rejected :
    ∃ s : State, system.ReachableWhen VerbatimCase s ∧ s.records.length = 2 ∧
      (validateLedgerChain (.ok s.records) "CASE-2025-001").chainValid = false := by
  have hid : ∀ s a, VerbatimCase s a → VerbatimCase s a := fun _ _ => id
  obtain ⟨s, r, hs, hr, hrecords⟩ := two_readings_run hid
    (fun _ _ ha _ => verbatimCase_of_ne_start ha) (fun _ _ _ => id) 1 0
    (fun _ _ _ _ _ _ _ _ _ => trivial)
  refine ⟨s, hs, by simp [hrecords], ?_⟩
  rw [← Bool.not_eq_true, validateLedgerChain_chainValid]
  rintro ⟨_, hlinked, _⟩
  have hread : readCase s.records (Text.strip "CASE-2025-001") =
      [sampleProof (.ofNat 2) (.ofNat 4) (some r.recordHash) 0, r] := by
    have hstrip : Text.strip "CASE-2025-001" = "CASE-2025-001" := by decide
    rw [hstrip, hrecords, hr]
    rfl
  rw [hread] at hlinked
  cases hlinked.1

end ForensicChain.Ledger
