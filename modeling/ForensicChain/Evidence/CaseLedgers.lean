import ForensicChain.Auth.CaseNumber
import ForensicChain.Evidence.Ingestion

/-!
The rows that a verification has the ledger check. The append path keeps a case id as it is given,
and the validator strips it; the newline that the pattern of case numbers lets through at the end
makes the difference.
-/
namespace ForensicChain.Evidence

variable {keys : HashSign.Signer} {s : State} {a : Artifact} {r : Ledger.LedgerRecord}
  {caseId other : String}

/-- The record is one that was appended with the case id. -/
def AppendedTo (s : State) (caseId : String) (r : Ledger.LedgerRecord) : Prop :=
  ∃ call c, s.world.ledger.calls call = some c ∧ c.phase = .committed r ∧ c.args.caseId = caseId

/-- The rows that `ValidateLedgerChain` reads for a case id. -/
def checkedRows (s : State) (caseId : String) : List Ledger.LedgerRecord :=
  Ledger.readCase s.world.ledger.records (Text.strip caseId)

/-- The rows checked for an artifact are those of its case, and none of the other case. -/
def ChecksOwnCase (s : State) (a : Artifact) (other : String) : Prop :=
  (∀ r, r ∈ checkedRows s a.caseId ↔ AppendedTo s a.caseId r) ∧
    ∀ r, AppendedTo s other r → r ∉ checkedRows s a.caseId

theorem mem_checkedRows : r ∈ checkedRows s caseId ↔
    r ∈ s.world.ledger.records ∧ r.caseId = Text.strip caseId := by
  simp only [checkedRows, Ledger.readCase, List.mem_insertionSort, Ledger.caseRecords,
    List.mem_filter, decide_eq_true_eq]

/-- A case number is stored as it is appended. -/
theorem appendedTo_iff (h : Invariant s) (hc : Auth.matchesCaseNumber caseId = true) :
    AppendedTo s caseId r ↔ r ∈ s.world.ledger.records ∧ r.caseId = caseId := by
  constructor
  · rintro ⟨call, c, hcall, hphase, rfl⟩
    have hsound := h.ledger.calls call c hcall
    simp only [Ledger.Call.Sound, hphase] at hsound
    exact ⟨h.ledger.committed call c r hcall hphase,
      Auth.verbatim_caseNumber hc _ hsound.caseId⟩
  · rintro ⟨hr, rfl⟩
    obtain ⟨call, c, hcall, hphase⟩ := h.ledger.records r hr
    have hsound := h.ledger.calls call c hcall
    simp only [Ledger.Call.Sound, hphase] at hsound
    have hlen := Auth.length_caseNumber hc
    have hcase : r.caseId = c.args.caseId := Postgres.eq_of_varchar_lt (by omega) hsound.caseId
    exact ⟨call, c, hcall, hphase, hcase.symm⟩

theorem checksOwnCase_of_strip (h : Invariant s) (hstrip : Text.strip a.caseId = a.caseId)
    (ha : Auth.matchesCaseNumber a.caseId = true) (ho : Auth.matchesCaseNumber other = true)
    (hne : a.caseId ≠ other) : ChecksOwnCase s a other := by
  refine ⟨?_, ?_⟩
  · intro r
    rw [mem_checkedRows, appendedTo_iff h ha, hstrip]
  · intro r hr hmem
    rw [mem_checkedRows, hstrip] at hmem
    exact hne (hmem.2.symm.trans ((appendedTo_iff h ho).mp hr).2)

def requestIn (caseId : String) : UploadRequest := { sampleRequest with caseId }

def rowIn (caseId : String) : Artifact := { sampleRow with caseId }

theorem rowIn_pending (hc : Postgres.varchar 64 caseId = some caseId) :
    (⟨requestIn caseId, sampleId, none, .saving 0⟩ : Upload).pendingRow 0 =
      some (rowIn caseId) := by
  have hrow := sampleRow_pending
  simp only [Upload.pendingRow, bind, Option.bind_eq_some_iff] at hrow ⊢
  obtain ⟨_, hsize, _, _, name, hname, kind, hkind, path, hpath, description, hdesc, actor, hactor,
    heq⟩ := hrow
  refine ⟨_, hsize, _, hc, name, hname, kind, hkind, path, hpath, description, hdesc, actor, hactor,
    ?_⟩
  cases heq
  rfl

/-- A ledger record of the case, and an artifact whose verification would check it. -/
theorem appended_run (hc : Postgres.varchar 64 caseId = some caseId) :
    ∃ s, (system HashSign.plainKeys).Reachable s ∧ rowIn caseId ∈ s.world.artifacts ∧
      ∃ r, AppendedTo s caseId r := by
  let w := (State.empty.world.setFile (storagePath sampleId) (some [])).addArtifact (rowIn caseId)
  have hsaved : ((system HashSign.plainKeys).restrict fun _ _ _ => True).Reachable
      ((State.empty.setWorld w).setUpload 0 ⟨requestIn caseId, sampleId, none, .refreshing⟩) :=
    saved_run (fun _ _ _ _ _ => trivial) empty_reachable rfl (by simp [State.empty])
      (List.mem_singleton_self _) trivial (rowIn_pending hc) (Nat.zero_le _) (by simp [State.empty])
  have hcall : sampleWorld.ledger.calls 0 = none := rfl
  have happending := appending_run (fun _ _ _ _ _ => trivial) "2025-01-01T00:00:00+00:00" hsaved
    (by simp [w, World.setFile, World.addArtifact, requestIn, sampleRequest]) hcall
  have hid : Postgres.text sampleId.str = some sampleId.str := by decide +kernel
  have hnow : Postgres.text "2025-01-01T00:00:00+00:00" = some "2025-01-01T00:00:00+00:00" := by
    decide
  have hfits : ((⟨requestIn caseId, sampleId, none, .hashing⟩ : Upload).proofArgs (sha256 [])
      (sha256 []) "2025-01-01T00:00:00+00:00").Fits caseId :=
    Ledger.Client.appendProof_fits hid hc (Ledger.varchar_sha256 _) text_sha256_nil hnow
  have hprev : Ledger.previousOf sampleWorld.ledger.heads caseId caseId = none := by
    simp [Ledger.previousOf, sampleWorld, State.empty, World.setFile, World.addArtifact]
  obtain ⟨l, happ⟩ := Ledger.solo_append (s := sampleWorld.ledger) (fun _ _ ha _ => ha) 0
    (.ofNat 3) 0 Ledger.startsNone_commitOk (fun _ => rfl) hfits (Uuid.parse_str sampleId) hprev rfl
    (by simp [sampleWorld, State.empty, World.setFile, World.addArtifact])
  have hdone := ledger_next happending happ.path fun _ _ _ ha => ⟨ha, trivial⟩
  exact ⟨_, hdone.of_restrict, List.mem_append_right _ (List.mem_singleton_self _), _, 0, _,
    happ.call, rfl, rfl⟩

/-- The record of a case number with a newline is not among the rows that its artifact checks. -/
theorem newline_run (hc : Auth.matchesCaseNumber caseId = true)
    (hend : caseId.toList.getLast? = some '\n') :
    ∃ s a, (system HashSign.plainKeys).Reachable s ∧ a ∈ s.world.artifacts ∧ a.caseId = caseId ∧
      ∀ other, ¬ ChecksOwnCase s a other := by
  have hlen := Auth.length_caseNumber hc
  have hkept : Postgres.varchar 64 caseId = some caseId :=
    Postgres.varchar_eq_self (Auth.notMem_nul_caseNumber hc) (by omega)
  obtain ⟨s, hs, ha, r, hr⟩ := appended_run hkept
  refine ⟨s, rowIn caseId, hs, ha, rfl, ?_⟩
  intro other hown
  -- the row is there under its case id, and looked for under the stripped one
  have hmem := mem_checkedRows.mp ((hown.1 r).mpr hr)
  obtain ⟨_, hcase⟩ := (appendedTo_iff (invariant_reachable hs) hc).mp hr
  have hself : caseId = Text.strip caseId := hcase.symm.trans hmem.2
  rcases Auth.strip_caseNumber hc with ⟨_, hno⟩ | ⟨hpush, _⟩
  · exact hno hend
  · have hlengths := congrArg String.length hpush
    rw [String.length_push, ← hself] at hlengths
    omega

/-- The verifications of a case have the ledger check the rows of that case, and none of another
case, in every run, exactly when its number does not end in a newline. -/
theorem ledgers_apart_iff (hc : Auth.matchesCaseNumber caseId = true)
    (ho : Auth.matchesCaseNumber other = true) (hne : caseId ≠ other) :
    (∀ keys s a, (system keys).Reachable s → a ∈ s.world.artifacts → a.caseId = caseId →
      ChecksOwnCase s a other) ↔ caseId.toList.getLast? ≠ some '\n' := by
  constructor
  · intro hall hend
    obtain ⟨s, a, hs, ha, hcase, hnot⟩ := newline_run hc hend
    exact hnot other (hall _ s a hs ha hcase)
  · rintro hend keys s a hs _ rfl
    rcases Auth.strip_caseNumber hc with ⟨hstrip, _⟩ | ⟨_, hnewline⟩
    · exact checksOwnCase_of_strip (invariant_reachable hs) hstrip hc ho hne
    · exact (hend hnewline).elim

theorem neighbouring_ledgers_apart : "CASE-2025-001".toList.getLast? ≠ some '\n' ∧
    ∀ keys s a, (system keys).Reachable s → a ∈ s.world.artifacts → a.caseId = "CASE-2025-001" →
      ChecksOwnCase s a "CASE-2025-001\n" := by
  have hend : "CASE-2025-001".toList.getLast? ≠ some '\n' := by decide
  exact ⟨hend, (ledgers_apart_iff (by decide) (by decide) (by decide)).mpr hend⟩

/-- An artifact of `CASE-2025-001\n` has the ledger of `CASE-2025-001` checked. -/
theorem newline_case_not_checked :
    ∃ s a, (system HashSign.plainKeys).Reachable s ∧ a ∈ s.world.artifacts ∧
      Auth.matchesCaseNumber a.caseId = true ∧ Auth.matchesCaseNumber "CASE-2025-001" = true ∧
      a.caseId ≠ "CASE-2025-001" ∧ ¬ ChecksOwnCase s a "CASE-2025-001" := by
  have hmatch : Auth.matchesCaseNumber "CASE-2025-001\n" = true := by decide
  obtain ⟨s, a, hs, ha, hcase, hnot⟩ := newline_run hmatch (by decide)
  exact ⟨s, a, hs, ha, hcase ▸ hmatch, by decide, by rw [hcase]; decide, hnot _⟩

end ForensicChain.Evidence
