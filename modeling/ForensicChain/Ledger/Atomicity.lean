import ForensicChain.Ledger.Provenance
import ForensicChain.Ledger.WriteInvariant

/-!
What an append leaves behind, from any content of the tables: nothing when it is answered with a
failure, and one record and one moved head when it is answered with a success.
-/
namespace ForensicChain.Ledger

/-- No other call commits; others may start, wait and fail meanwhile. -/
def Undisturbed (i : CallId) (_ : State) (a : Action) : Prop := ∀ j, a = .commit j → j = i

/-- The heads are values that `last_record_hash` can hold. -/
def StoredHeads (s : State) : Prop :=
  ∀ key h, s.heads key = some (some h) → Postgres.varchar 256 h = some h

/-- From `s` to `t` one record was added, the one that the response tells of, and the head of its
case alone was moved. -/
structure Recorded (s t : State) (requested : String) (response : ProofRecordResponse)
    (r : LedgerRecord) : Prop where
  records : t.records = s.records ++ [r]
  caseId : r.caseId = requested
  recordId : response.recordId = r.recordId.str
  payloadHash : response.payloadHash = r.payloadHash
  previousRecordHash : response.previousRecordHash = r.previousRecordHash.getD ""
  recordHash : response.recordHash = r.recordHash
  head : t.heads requested = some (some r.recordHash)
  others : ∀ key, key ≠ requested → t.heads key = s.heads key

/-- A call with these arguments changes nothing if its response tells of a failure, and adds what
its response tells of otherwise. -/
def LeavesNoTrace (args : AppendArgs) : Prop :=
  ∀ s t i c response, StoredHeads s → s.calls i = none →
    system.Path (Undisturbed i) (s.startCall i args) t → t.calls i = some c →
      c.response = some response →
        (response.success = false → t.records = s.records ∧ t.heads = s.heads) ∧
          (response.success = true → ∃ r, Recorded s t args.caseId response r)

/-- The row that the call keeps until its commit: its previous hash is one that was stored. -/
def BuiltFrom (args : AppendArgs) (r : LedgerRecord) : Prop :=
  ∃ artifactId previous recordId now, Uuid.parse args.artifactId = some artifactId ∧
    Postgres.nullable (Postgres.varchar 256) previous = some previous ∧
    r = newRecord args artifactId previous recordId now

/-- What the servicer returns after the commit, from the values that it holds in memory. -/
def appendedResponse (args : AppendArgs) (r : LedgerRecord) : ProofRecordResponse where
  recordId := r.recordId.str
  artifactId := args.artifactId
  recordType := args.recordType
  payloadHash := r.payloadHash
  previousRecordHash := r.previousRecordHash.getD ""
  recordHash := r.recordHash
  createdAt := some r.createdAt
  success := true
  errorMessage := ""

variable {s t u : State} {i : CallId} {c d : Call} {a : Action} {args : AppendArgs}
  {r stored : LedgerRecord} {key : String}

/-- Answering from the stored row is answering from memory: its columns keep the hashes. -/
theorem BuiltFrom.response_eq (h : BuiltFrom args r) (hs : r.store = some stored) :
    (⟨args, .committed stored, []⟩ : Call).response = some (appendedResponse args r) := by
  obtain ⟨artifactId, previous, recordId, now, _, hprev, rfl⟩ := h
  have hstored := LedgerRecord.store_eq_some hs
  have hpay : stored.payloadHash = computePayloadHash args.rawPayload :=
    Option.some.inj (hstored.payloadHash.symm.trans (varchar_sha256Text _))
  have hrec : stored.recordHash =
      computeRecordHash (computePayloadHash args.rawPayload) previous :=
    Option.some.inj (hstored.recordHash.symm.trans (varchar_sha256Text _))
  have hprevious : stored.previousRecordHash = previous :=
    Option.some.inj (hstored.previousRecordHash.symm.trans hprev)
  simp [Call.response, appendedResponse, hstored.recordId, hstored.createdAt, hpay, hrec,
    hprevious, newRecord, createHashChainEntry]

/-- Only a commit changes the tables. -/
theorem step_tables (hs : Step s a t) (ha : ∀ j, a ≠ .commit j) :
    t.records = s.records ∧ t.heads = s.heads := by
  cases hs with
  | commit => exact (ha _ rfl).elim
  | _ => exact ⟨rfl, rfl⟩

/-- The tables as they were before the call. -/
def Untouched (s t : State) : Prop := t.records = s.records ∧ t.heads = s.heads

/-- The call has not yet written a head, and where its case id is kept as given it sees the row of
its case. -/
def RowEnsured (s : State) (args : AppendArgs) (writes : List (String × Option String)) : Prop :=
  (∀ w ∈ writes, w.2 = none) ∧ (Postgres.Verbatim 64 args.caseId → ∀ key,
    (writes.lookup key).or (s.heads key) =
      Function.update s.heads args.caseId (some (s.heads args.caseId).join) key)

/-- Where the call stands, since `s`, after every statement. -/
def CallProgress (s : State) (args : AppendArgs) (t : State) (c : Call) : Prop :=
  match c.phase with
  | .opened => Untouched s t ∧ c.writes = []
  | .ensured => Untouched s t ∧ RowEnsured s args c.writes
  | .locked p => Untouched s t ∧ RowEnsured s args c.writes ∧
      Postgres.nullable (Postgres.varchar 256) p = some p
  | .built r => Untouched s t ∧ RowEnsured s args c.writes ∧ BuiltFrom args r
  | .advanced r => Untouched s t ∧ BuiltFrom args r ∧ (Postgres.Verbatim 64 args.caseId → ∀ key,
      (c.writes.lookup key).or (s.heads key) =
        Function.update s.heads args.caseId (some (some r.recordHash)) key)
  | .committed stored => ∃ r, BuiltFrom args r ∧ r.store = some stored ∧
      t.records = s.records ++ [stored] ∧ (Postgres.Verbatim 64 args.caseId →
        t.heads = Function.update s.heads args.caseId (some (some r.recordHash)))
  | .failed _ => Untouched s t

/-- The progress of a call rests on the tables, which other calls leave alone. -/
theorem CallProgress.of_tables (h : CallProgress s args t c) (hrec : u.records = t.records)
    (hheads : u.heads = t.heads) : CallProgress s args u c := by
  unfold CallProgress Untouched at h ⊢
  rw [hrec, hheads]
  exact h

/-- A head that a call reads before it has written one was stored. -/
theorem RowEnsured.head_stored {writes : List (String × Option String)} {head : Option String}
    (h : RowEnsured s args writes) (hs : StoredHeads s)
    (hv : (writes.lookup key).or (s.heads key) = some head) :
    Postgres.nullable (Postgres.varchar 256) head = some head := by
  cases head with
  | none => rfl
  | some d =>
    cases hw : writes.lookup key with
    | none =>
      rw [hw, Option.none_or] at hv
      simp [Postgres.nullable, hs key d hv]
    | some w =>
      rw [hw, Option.some_or, Option.some.injEq] at hv
      obtain ⟨before, after, hsplit, _⟩ := List.lookup_eq_some_iff.mp hw
      have hnone := h.1 (key, w) (by simp [hsplit])
      cases hv.symm.trans hnone

theorem rowEnsured_conflict {head : Option String}
    (hk : Postgres.varchar 64 args.caseId = some key) (hh : s.heads key = some head) :
    RowEnsured s args [] := by
  refine ⟨by simp, fun hverb k => ?_⟩
  obtain rfl := hverb key hk
  by_cases hkey : k = args.caseId <;> simp [Function.update, hkey, hh]

theorem rowEnsured_insert (hk : Postgres.varchar 64 args.caseId = some key)
    (hh : s.heads key = none) : RowEnsured s args [(key, none)] := by
  refine ⟨by simp, fun hverb k => ?_⟩
  obtain rfl := hverb key hk
  by_cases hkey : k = args.caseId
  · simp [hkey, hh]
  · simp [Function.update, List.lookup_cons, hkey, beq_false_of_ne hkey]

/-- The head that the call writes is all that it will see changed. -/
theorem RowEnsured.advance {writes : List (String × Option String)} {d : String}
    (h : RowEnsured s args writes) (hverb : Postgres.Verbatim 64 args.caseId) (k : String) :
    (((args.caseId, some d) :: writes).lookup k).or (s.heads k) =
      Function.update s.heads args.caseId (some (some d)) k := by
  by_cases hkey : k = args.caseId
  · simp [hkey]
  · rw [List.lookup_cons, beq_false_of_ne hkey]
    simp [h.2 hverb k, Function.update_of_ne hkey]

/-- What the call has done so far it goes on from, statement by statement. -/
theorem progress_step (hstored : StoredHeads s) (h : CallProgress s c.args t c)
    (hc : t.calls i = some c) (hs : Step t a u) (ha : a.call = i) :
    ∃ d, u.calls i = some d ∧ d.args = c.args ∧ CallProgress s c.args u d := by
  subst ha
  cases hs with
  | start _ hi => cases hc.symm.trans hi
  | ensureConflict hi hp hk hh =>
    obtain rfl := Option.some.inj (hi.symm.trans hc)
    simp only [CallProgress, hp] at h
    refine ⟨_, Function.update_self _ _ _, rfl, h.1, ?_⟩
    rw [h.1.2] at hh
    rw [h.2]
    exact rowEnsured_conflict hk hh
  | ensureInsert hi hp hk hh hl =>
    obtain rfl := Option.some.inj (hi.symm.trans hc)
    simp only [CallProgress, hp] at h
    refine ⟨_, Function.update_self _ _ _, rfl, h.1, ?_⟩
    rw [h.1.2] at hh
    exact rowEnsured_insert hk hh
  | selectRow hi hp hv hl =>
    obtain rfl := Option.some.inj (hi.symm.trans hc)
    simp only [CallProgress, hp] at h
    refine ⟨_, Function.update_self _ _ _, rfl, h.1, h.2, ?_⟩
    rw [State.visible, h.1.2] at hv
    exact h.2.head_stored hstored hv
  | selectNothing hi hp hv =>
    obtain rfl := Option.some.inj (hi.symm.trans hc)
    simp only [CallProgress, hp] at h
    exact ⟨_, Function.update_self _ _ _, rfl, h.1, h.2, rfl⟩
  | build recordId now hi hp hart =>
    obtain rfl := Option.some.inj (hi.symm.trans hc)
    simp only [CallProgress, hp] at h
    exact ⟨_, Function.update_self _ _ _, rfl, h.1, h.2.1, _, _, _, _, hart, h.2.2, rfl⟩
  | advanceRow hi hp hv hl =>
    obtain rfl := Option.some.inj (hi.symm.trans hc)
    simp only [CallProgress, hp] at h
    exact ⟨_, Function.update_self _ _ _, rfl, h.1, h.2.2, h.2.1.advance⟩
  | advanceNothing hi hp hv =>
    obtain rfl := Option.some.inj (hi.symm.trans hc)
    simp only [CallProgress, hp] at h
    refine ⟨_, Function.update_self _ _ _, rfl, h.1, h.2.2, fun hverb => ?_⟩
    rw [State.visible, h.1.2, h.2.1.2 hverb] at hv
    simp at hv
  | commit hi hp hstore hk =>
    obtain rfl := Option.some.inj (hi.symm.trans hc)
    simp only [CallProgress, hp] at h
    obtain ⟨⟨hrec, hheads⟩, hbuilt, hview⟩ := h
    refine ⟨_, Function.update_self _ _ _, rfl, _, hbuilt, hstore, ?_, fun hverb => ?_⟩
    · simp [State.publish, hrec]
    · funext k
      simpa [State.publish, hheads] using hview hverb k
  | fail error hi hp =>
    obtain rfl := Option.some.inj (hi.symm.trans hc)
    refine ⟨_, Function.update_self _ _ _, rfl, ?_⟩
    unfold CallProgress at h
    split at h <;> first | exact h.1 | simp_all [Phase.Running]

/-- After any number of steps in which no other call commits. -/
theorem progress_path (hstored : StoredHeads s)
    (hp : system.Path (Undisturbed i) (s.startCall i args) t) :
    ∃ c, t.calls i = some c ∧ c.args = args ∧ CallProgress s args t c := by
  induction hp with
  | refl => exact ⟨⟨args, .opened, []⟩, by simp [State.startCall], rfl, ⟨rfl, rfl⟩, rfl⟩
  | @step t u a _ hok hs ih =>
    obtain ⟨c, hc, rfl, hprogress⟩ := ih
    by_cases ha : a.call = i
    · exact progress_step hstored hprogress hc hs ha
    · have hquiet : ∀ j, a ≠ .commit j := by
        rintro j rfl
        exact ha (hok j rfl)
      obtain ⟨hrec, hheads⟩ := step_tables hs hquiet
      exact ⟨c, (other_call hs (Ne.symm ha)).trans hc, rfl, hprogress.of_tables hrec hheads⟩

/-- The artifact id is one, and every column but that of the case id takes its value. -/
structure AppendArgs.Storable (args : AppendArgs) : Prop where
  artifactId : (Uuid.parse args.artifactId).isSome
  recordType : (Postgres.varchar 64 args.recordType).isSome
  hashAlgorithm : (Postgres.nullable (Postgres.varchar 32) args.hashAlgorithm).isSome
  hashValue : (Postgres.nullable (Postgres.varchar 256) args.hashValue).isSome
  signatureAlgorithm : (Postgres.nullable (Postgres.varchar 32) args.signatureAlgorithm).isSome
  signatureValue : (Postgres.nullable Postgres.text args.signatureValue).isSome
  signerId : (Postgres.nullable (Postgres.varchar 128) args.signerId).isSome
  rawPayload : args.rawPayload.hasNul = false

/-- A record that was stored came from arguments that can be. -/
theorem BuiltFrom.storable (h : BuiltFrom args r) (hs : r.store = some stored) :
    args.Storable := by
  obtain ⟨artifactId, previous, recordId, now, hart, _, rfl⟩ := h
  have hstored := LedgerRecord.store_eq_some hs
  exact ⟨by simp [hart], Option.isSome_of_mem hstored.recordType,
    Option.isSome_of_mem hstored.hashAlgorithm, Option.isSome_of_mem hstored.hashValue,
    Option.isSome_of_mem hstored.signatureAlgorithm, Option.isSome_of_mem hstored.signatureValue,
    Option.isSome_of_mem hstored.signerId, (hasNul_ofJson _).symm.trans hstored.noNul⟩

theorem AppendArgs.Storable.store (h : args.Storable)
    (hk : Postgres.varchar 64 args.caseId = some key) (artifactId recordId : Uuid)
    (now : Timestamp) :
    ∃ stored, (newRecord args artifactId none recordId now).store = some stored := by
  obtain ⟨_, ht⟩ := Option.isSome_iff_exists.mp h.recordType
  obtain ⟨_, ha⟩ := Option.isSome_iff_exists.mp h.hashAlgorithm
  obtain ⟨_, hv⟩ := Option.isSome_iff_exists.mp h.hashValue
  obtain ⟨_, hsa⟩ := Option.isSome_iff_exists.mp h.signatureAlgorithm
  obtain ⟨_, hsv⟩ := Option.isSome_iff_exists.mp h.signatureValue
  obtain ⟨_, hsi⟩ := Option.isSome_iff_exists.mp h.signerId
  have hnone : Postgres.nullable (Postgres.varchar 256) none = some none := rfl
  have hnul := (hasNul_ofJson args.rawPayload).trans h.rawPayload
  simp only [LedgerRecord.store, newRecord, createHashChainEntry, computePayloadHash,
    computeRecordHash, varchar_sha256Text, hk, ht, ha, hv, hsa, hsv, hsi, hnone, hnul, guard,
    if_true, Option.bind_eq_bind, Option.bind_some, Option.pure_def]
  exact ⟨_, rfl⟩

/-- An append to an empty ledger that nothing refuses is answered with a success. -/
theorem first_append (hk : Postgres.varchar 64 args.caseId = some key) (h : args.Storable) :
    ∃ t c stored response, system.Path (Undisturbed 0) (State.empty.startCall 0 args) t ∧
      t.calls 0 = some c ∧ c.response = some response ∧ response.success = true ∧
      t.records = [stored] ∧ stored.caseId = key := by
  have hok : ∀ s a, (∀ j b, a ≠ Action.start j b) → (∀ j, a ≠ Action.commit j) →
      Undisturbed 0 s a := fun _ _ _ hc j hj => (hc j hj).elim
  have hcommit : ∀ r, CommitOk (Undisturbed 0) .empty 0 args r :=
    fun _ _ _ _ _ j hj => (Action.commit.inj hj).symm
  have hprevious : previousOf State.empty.heads args.caseId key = none := by
    by_cases hkey : args.caseId = key <;> simp [previousOf, State.empty, hkey]
  obtain ⟨u, hu⟩ := Option.isSome_iff_exists.mp h.artifactId
  obtain ⟨stored, hstored⟩ := h.store hk u (.ofNat 0) 0
  have hcase := (LedgerRecord.store_eq_some hstored).caseId
  obtain ⟨t, ht⟩ := solo_append_stored hok 0 (.ofNat 0) 0 (hcommit _) (fun _ => rfl) hk hu
    hprevious hstored (by simp [State.empty])
  refine ⟨t, _, stored, _, ht.path, ht.call, rfl, rfl, ht.records, ?_⟩
  exact Option.some.inj (hcase.symm.trans hk)

/-- A call whose case id is cut records its append under another case. -/
theorem not_leavesNoTrace (hk : Postgres.varchar 64 args.caseId = some key)
    (hne : key ≠ args.caseId) (h : args.Storable) : ¬ LeavesNoTrace args := by
  intro hall
  obtain ⟨t, c, stored, response, hpath, hc, hr, hsuccess, hrecords, hcase⟩ := first_append hk h
  obtain ⟨r, hrecorded⟩ := (hall .empty t 0 c response (fun _ _ hh => by cases hh) rfl hpath hc
    hr).2 hsuccess
  have hr : [stored] = [r] := hrecords.symm.trans hrecorded.records
  rw [List.cons.inj hr |>.1, hrecorded.caseId] at hcase
  exact hne hcase.symm

theorem recorded_of_progress (hverb : Postgres.Verbatim 64 c.args.caseId)
    (h : CallProgress s c.args t c) (hp : c.phase = .committed stored) :
    Recorded s t c.args.caseId (appendedResponse c.args stored) stored := by
  simp only [CallProgress, hp] at h
  obtain ⟨r, ⟨_, _, _, _, _, _, rfl⟩, hstore, hrec, hheads⟩ := h
  have hstored := LedgerRecord.store_eq_some hstore
  refine ⟨hrec, hverb _ hstored.caseId, rfl, rfl, rfl, rfl, ?_, fun key hkey => ?_⟩
  · have hhash : stored.recordHash = _ :=
      Option.some.inj (hstored.recordHash.symm.trans (varchar_sha256Text _))
    rw [hheads hverb, Function.update_self, hhash]
    rfl
  · rw [hheads hverb, Function.update_of_ne hkey]

/-- An append leaves no trace of a failure and exactly its record after a success, whatever the
arguments, unless its case id is cut by the column and nothing else refuses it. -/
theorem append_leaves_no_trace_iff (args : AppendArgs) :
    LeavesNoTrace args ↔ (Postgres.Verbatim 64 args.caseId ∨ ¬ args.Storable) := by
  constructor
  · intro h
    by_contra hnot
    obtain ⟨hverb, hstorable⟩ := not_or.mp hnot
    simp only [Postgres.Verbatim, not_forall] at hverb
    obtain ⟨key, hk, hne⟩ := hverb
    exact not_leavesNoTrace hk hne (not_not.mp hstorable) h
  · intro hcond s t i c response hstored _ hpath hc hr
    obtain ⟨d, hd, rfl, hprogress⟩ := progress_path hstored hpath
    obtain rfl := Option.some.inj (hc.symm.trans hd)
    cases hp : c.phase with
    | committed stored =>
      simp only [Call.response, hp, Option.some.injEq] at hr
      refine ⟨fun hf => by simp [← hr] at hf, fun _ => ⟨stored, ?_⟩⟩
      have hsound := hprogress
      simp only [CallProgress, hp] at hsound
      obtain ⟨r, hbuilt, hstore, _⟩ := hsound
      have hverb := hcond.resolve_right (not_not.mpr (hbuilt.storable hstore))
      rw [← hr]
      exact recorded_of_progress hverb hprogress hp
    | failed error =>
      simp only [Call.response, hp, Option.some.injEq] at hr
      refine ⟨fun _ => ?_, fun hs => by simp [← hr] at hs⟩
      simpa only [CallProgress, hp, Untouched] using hprogress
    | _ => simp [Call.response, hp] at hr

theorem proofArgs_storable (a : Uuid) (caseId : String) {key : String}
    (hk : Postgres.varchar 64 caseId = some key) : (proofArgs a caseId "" "").Storable := by
  have hf := proofArgs_fits a hk (h := "") (f := "") (by decide) (by decide)
  exact ⟨by simp [proofArgs, appendProofRecord, Client.appendProof, Uuid.parse_str],
    by rw [hf.recordType]; rfl, by rw [hf.hashAlgorithm]; rfl, by rw [hf.hashValue]; rfl,
    by rw [hf.signatureAlgorithm]; rfl, by rw [hf.signatureValue]; rfl,
    by rw [hf.signerId]; rfl, hf.rawPayload⟩

/-- A proof for a case id of 64 letters and a space is recorded under the letters alone. -/
theorem padded_append_leaves_trace : ¬ LeavesNoTrace (proofArgs (.ofNat 1) paddedCase "" "") :=
  not_leavesNoTrace varchar_paddedCase paddedCase_ne.symm
    (proofArgs_storable _ _ varchar_paddedCase)

end ForensicChain.Ledger
