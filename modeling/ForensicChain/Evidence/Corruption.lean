import ForensicChain.Evidence.VerificationRun

/-!
Which failures `verify_evidence` reports as corruption. An exception of the ledger's database
passes the servicer, the client and the handler; each of them translates it.
-/
namespace ForensicChain.Evidence

open Ledger

/-- One of the three checks of the validator fails on a row that comes after `expectedPrevHash`. -/
def FailsCheck (expectedPrevHash : Option String) (r : LedgerRecord) : Prop :=
  r.previousRecordHash ≠ expectedPrevHash ∨
    computePayloadHash r.rawPayload.value ≠ r.payloadHash ∨
    computeRecordHash (computePayloadHash r.rawPayload.value) r.previousRecordHash ≠ r.recordHash

/-- Some stored record of the case fails a check where it stands in the validator's order. -/
def SomeRecordFails (records : List LedgerRecord) (caseId : String) : Prop :=
  ∃ before r after, readCase records caseId = before ++ r :: after ∧ FailsCheck (lastHash before) r

/-- The outcome of the call of `ValidateLedgerChain`. -/
inductive ValidationCall
  /-- The session, the query and the rows are there. -/
  | answered
  /-- Opening the session, the query or loading the rows raises in the servicer. -/
  | raised (error : String)
  /-- The call itself fails. -/
  | failed (error : String)

/-- What the servicer answers, if it is reached. -/
def ValidationCall.response (records : List LedgerRecord) (caseId : String) :
    ValidationCall → Except String ValidateLedgerResponse
  | .answered => .ok (Ledger.validateLedgerChain (.ok records) caseId)
  | .raised error => .ok (Ledger.validateLedgerChain (.error error) caseId)
  | .failed error => .error error

/-- `validate_ledger_chain` of the client: every answer counts as a success. -/
def clientValidate (response : Except String ValidateLedgerResponse) : Except String Bool :=
  response.map ValidateLedgerResponse.chainValid

/-- What `verify_evidence` answers, and what it asks the ledger and the outbox to write. -/
structure VerificationEffects where
  answer : Except HttpError VerificationResponse
  record : Option AppendArgs
  event : Option Custody.Envelope

/-- Steps 1 to 7 of a request that was let through. -/
def verifyEffects (reads : RemoteReads) (v : Verification) (now ledgerRecordId : String)
    (eventId : Uuid) : VerificationEffects :=
  match verifySteps reads v.request.artifactId v.artifact with
  | .error e => ⟨.error e, none, none⟩
  | .ok r => ⟨.ok r, some (v.recordArgs r now),
      some (outcomeEnvelope v r ledgerRecordId eventId now)⟩

/-- The answer, the ledger record or the outcome event tells of corruption. -/
def VerificationEffects.ReportCorruption (e : VerificationEffects) : Prop :=
  (∃ r, e.answer = .ok r ∧ r.verificationResult = .ledgerCorrupted) ∨
    (∃ args, e.record = some args ∧
      args.rawPayload.field? "verification_result" = some (.str "LEDGER_CORRUPTED")) ∨
    ∃ env, e.event = some env ∧ env.eventType = "VerificationFailed" ∧
      ("verification_result", .str "LEDGER_CORRUPTED") ∈ env.payload

/-- An error answer and nothing else. -/
def VerificationEffects.OnlyError (e : VerificationEffects) : Prop :=
  (∃ err, e.answer = .error err) ∧ e.record = none ∧ e.event = none

/-- The reads of a verification: what steps 1 to 3 return, and the validation. -/
def readsWith (hash : Except String String) (proof : Except String ProofData)
    (signature : Except String Bool) (records : List LedgerRecord) (call : ValidationCall) :
    RemoteReads where
  recomputeHash := hash
  getProofByArtifact _ := proof
  verifySignature _ _ := signature
  validateLedgerChain caseId := clientValidate (call.response records caseId)

variable {rs records : List LedgerRecord} {reads : RemoteReads} {v : Verification}
  {now ledgerRecordId : String} {eventId : Uuid} {hash : Except String String}
  {proof : Except String ProofData} {signature : Except String Bool} {call : ValidationCall}

/-- Rows that do not chain have a first one at which a check fails. -/
theorem exists_failsCheck (p : Option String)
    (h : ¬ (HashChain.Linked LedgerRecord.previousRecordHash LedgerRecord.recordHash p rs ∧
      ∀ r ∈ rs, r.HashesMatch)) :
    ∃ before r after, rs = before ++ r :: after ∧
      FailsCheck (HashChain.head LedgerRecord.recordHash p before) r := by
  induction rs generalizing p with
  | nil => exact (h ⟨trivial, by simp⟩).elim
  | cons r rs ih =>
    by_cases hr : FailsCheck p r
    · exact ⟨[], r, rs, rfl, hr⟩
    · simp only [FailsCheck, not_or, not_not] at hr
      obtain ⟨hprev, hpay, hrec⟩ := hr
      have hmatch : r.HashesMatch := ⟨hpay.symm, by rw [← hrec, hpay]⟩
      obtain ⟨before, q, after, rfl, hq⟩ := ih (some r.recordHash) fun hrest =>
        h ⟨⟨hprev, hrest.1⟩, List.forall_mem_cons.mpr ⟨hmatch, hrest.2⟩⟩
      exact ⟨r :: before, q, after, rfl, hq⟩

theorem someRecordFails_iff {caseId : String} :
    SomeRecordFails records caseId ↔ ¬ Chained (readCase records caseId) := by
  constructor
  · rintro ⟨before, r, after, hread, hfails⟩ ⟨hlinked, hhashes⟩
    rw [hread] at hlinked hhashes
    have hprev := (HashChain.linked_append.mp hlinked).2.1
    obtain ⟨hpay, hrec⟩ := hhashes r (by simp)
    rcases hfails with hf | hf | hf
    · exact hf hprev
    · exact hf hpay.symm
    · exact hf (by rw [← hpay, hrec])
  · exact exists_failsCheck none

theorem text_eq_corrupted {result : VerificationResult} :
    result.text = "LEDGER_CORRUPTED" ↔ result = .ledgerCorrupted := by
  cases result <;> decide

/-- The record and the event repeat the result of the answer. -/
theorem reportCorruption_iff :
    (verifyEffects reads v now ledgerRecordId eventId).ReportCorruption ↔
      ∃ r, verifySteps reads v.request.artifactId v.artifact = .ok r ∧
        r.verificationResult = .ledgerCorrupted := by
  unfold verifyEffects
  cases verifySteps reads v.request.artifactId v.artifact with
  | error e => simp [VerificationEffects.ReportCorruption]
  | ok r =>
    have hrecord : (v.recordArgs r now).rawPayload.field? "verification_result" =
        some (.str r.verificationResult.text) := by
      simp [Verification.recordArgs, appendVerificationRecord, Client.appendVerificationRecord,
        Json.field?]
    constructor
    · rintro (⟨q, hq, hres⟩ | ⟨args, hargs, hres⟩ | ⟨env, henv, _, hres⟩)
      · cases hq
        exact ⟨r, rfl, hres⟩
      · cases hargs
        rw [hrecord, Option.some.injEq, Json.str.injEq] at hres
        exact ⟨r, rfl, text_eq_corrupted.mp hres⟩
      · cases henv
        simp only [outcomeEnvelope] at hres
        simp at hres
        exact ⟨r, rfl, text_eq_corrupted.mp hres.symm⟩
    · rintro ⟨q, hq, hres⟩
      cases hq
      exact .inl ⟨r, rfl, hres⟩

/-- A verification that gets through steps 1 to 3 ends with the verdict over the servicer's answer,
or with the error of the call. -/
theorem verifySteps_readsWith {currentHash : String} {data : ProofData} {isSigValid : Bool}
    {artifactId : String} {artifact : Artifact} :
    verifySteps (readsWith (.ok currentHash) (.ok data) (.ok isSigValid) records call) artifactId
      artifact = match call.response records artifact.caseId with
      | .ok response => .ok {
          artifactId
          verificationResult := determineResult response.chainValid isSigValid currentHash
            data.hashValue
          originalHash := data.hashValue
          currentHash
          signatureValid := isSigValid
          ledgerChainValid := response.chainValid }
      | .error error => .error ⟨503, "Ledger validation check failed: " ++ error⟩ := by
  simp only [verifySteps, readsWith, orRaise, clientValidate]
  cases call.response records artifact.caseId <;> rfl

/-- The validation steps of a running verification are those of the reads that it has made. -/
theorem validate_step {keys : HashSign.Signer} {w w' : World} {v' : Verification}
    {db : Except String (List LedgerRecord)} (h : VerificationStep keys w v (.validate db) w' v') :
    ∃ currentHash data isSigValid call r, v'.phase = .recording r ∧
      v.phase = .validating currentHash data isSigValid ∧
      (∀ rows, db = .ok rows → call = .answered) ∧ (∀ e, db = .error e → call = .raised e) ∧
      verifySteps (readsWith (.ok currentHash) (.ok data) (.ok isSigValid) w.ledger.records call)
        v.request.artifactId v.artifact = .ok r := by
  cases h with
  | @validate currentHash data isSigValid _ hp hdb =>
    cases hd : db with
    | ok rows =>
      refine ⟨currentHash, data, isSigValid, .answered, _, rfl, hp, by simp, by simp, ?_⟩
      rw [verifySteps_readsWith, hdb rows hd]
      rfl
    | error e =>
      refine ⟨currentHash, data, isSigValid, .raised e, _, rfl, hp, by simp, by simp, ?_⟩
      rw [verifySteps_readsWith]
      rfl

theorem determineResult_corrupted {isValidChain isSigValid : Bool} {currentHash origHash : String} :
    determineResult isValidChain isSigValid currentHash origHash = .ledgerCorrupted ↔
      isValidChain = false := by
  unfold determineResult
  split_ifs <;> simp_all

/-- Steps 1 to 3 of the verification succeed. -/
def ReadsSucceed (hash : Except String String) (proof : Except String ProofData)
    (signature : Except String Bool) : Prop :=
  (∃ currentHash, hash = .ok currentHash) ∧ (∃ data, proof = .ok data) ∧
    ∃ isSigValid, signature = .ok isSigValid

/-- No request reports corruption unless a record of its case fails a check; a validation that was
not carried out leaves an error answer alone. -/
def NeverReportedAsCorruption (hash : Except String String) (proof : Except String ProofData)
    (signature : Except String Bool) (records : List LedgerRecord) (call : ValidationCall)
    (v : Verification) : Prop :=
  ∀ now ledgerRecordId eventId,
    ((verifyEffects (readsWith hash proof signature records call) v now ledgerRecordId
      eventId).ReportCorruption → SomeRecordFails records v.artifact.caseId) ∧
    (call ≠ .answered → (verifyEffects (readsWith hash proof signature records call) v now
      ledgerRecordId eventId).OnlyError)

/-- The verdict can be relied on: the call fails, or the rows are read and the check of the rows
under the stripped case id says what the rows of the case say. -/
def ValidationReliable (records : List LedgerRecord) (caseId : String) : ValidationCall → Prop
  | .failed _ => True
  | .raised _ => False
  | .answered => Text.strip caseId ≠ "" ∧ Chained (readCase records (Text.strip caseId)) ∨
      ¬ Chained (readCase records caseId)

theorem response_chainValid {caseId : String} {response : ValidateLedgerResponse}
    (h : call.response records caseId = .ok response) (hr : ValidationReliable records caseId call)
    (hvalid : response.chainValid = false) : SomeRecordFails records caseId := by
  cases call with
  | failed e => cases h
  | raised e => exact hr.elim
  | answered =>
    cases h
    rw [someRecordFails_iff]
    refine hr.resolve_left fun hchain => ?_
    rw [validateLedgerChain_chainValid.mpr hchain] at hvalid
    cases hvalid

theorem onlyError_of_error {err : HttpError}
    (h : verifySteps reads v.request.artifactId v.artifact = .error err) :
    (verifyEffects reads v now ledgerRecordId eventId).OnlyError := by
  rw [verifyEffects, h]
  exact ⟨⟨err, rfl⟩, rfl, rfl⟩

/-- A verdict that is never a false alarm can be relied on. -/
theorem NeverReportedAsCorruption.reliable {currentHash : String} {data : ProofData}
    {isSigValid : Bool}
    (h : NeverReportedAsCorruption (.ok currentHash) (.ok data) (.ok isSigValid) records call v) :
    ValidationReliable records v.artifact.caseId call := by
  obtain ⟨hreport, hfailure⟩ := h "" "" (.ofNat 0)
  rw [reportCorruption_iff, verifySteps_readsWith] at hreport
  cases call with
  | failed e => trivial
  | raised e =>
    obtain ⟨⟨err, herr⟩, _⟩ := hfailure (by simp)
    rw [verifyEffects, verifySteps_readsWith] at herr
    cases herr
  | answered =>
    by_contra hnot
    obtain ⟨hinvalid, hchain⟩ := not_or.mp hnot
    rw [← validateLedgerChain_chainValid, Bool.not_eq_true] at hinvalid
    have hfails := hreport ⟨_, rfl, determineResult_corrupted.mpr hinvalid⟩
    exact hchain fun hc => someRecordFails_iff.mp hfails hc

theorem ValidationReliable.never {currentHash : String} {data : ProofData} {isSigValid : Bool}
    (h : ValidationReliable records v.artifact.caseId call) :
    NeverReportedAsCorruption (.ok currentHash) (.ok data) (.ok isSigValid) records call v := by
  intro now ledgerRecordId eventId
  refine ⟨fun hreport => ?_, fun hcall => ?_⟩
  · rw [reportCorruption_iff, verifySteps_readsWith] at hreport
    cases hresponse : call.response records v.artifact.caseId with
    | error e => simp [hresponse] at hreport
    | ok response =>
      rw [hresponse] at hreport
      obtain ⟨r, hr, hres⟩ := hreport
      cases hr
      exact response_chainValid hresponse h (determineResult_corrupted.mp hres)
  · cases call with
    | answered => exact (hcall rfl).elim
    | raised e => exact h.elim
    | failed e => exact onlyError_of_error verifySteps_readsWith

/-- A request that fails in steps 1 to 3 reports nothing. -/
theorem never_of_not_readsSucceed (h : ¬ ReadsSucceed hash proof signature) :
    NeverReportedAsCorruption hash proof signature records call v := by
  have herror : ∃ err, verifySteps (readsWith hash proof signature records call)
      v.request.artifactId v.artifact = .error err := by
    cases hv : verifySteps (readsWith hash proof signature records call)
      v.request.artifactId v.artifact with
    | error err => exact ⟨err, rfl⟩
    | ok r =>
      obtain ⟨data, hhash, hproof, _, hsignature, _⟩ := verifySteps_ok hv
      exact (h ⟨⟨_, hhash⟩, ⟨data, hproof⟩, _, hsignature⟩).elim
  obtain ⟨err, herr⟩ := herror
  intro now ledgerRecordId eventId
  refine ⟨fun hreport => ?_, fun _ => onlyError_of_error herr⟩
  rw [reportCorruption_iff, herr] at hreport
  obtain ⟨r, hr, _⟩ := hreport
  cases hr

/-- A failure inside the ledger service is not reported as corruption if and only if the request
does not come to an answer of the validation, or the answer can be relied on. -/
theorem failure_never_corruption_iff :
    NeverReportedAsCorruption hash proof signature records call v ↔
      (ReadsSucceed hash proof signature → ValidationReliable records v.artifact.caseId call) := by
  constructor
  · rintro h ⟨⟨currentHash, rfl⟩, ⟨data, rfl⟩, isSigValid, rfl⟩
    exact h.reliable
  · intro h
    by_cases hreads : ReadsSucceed hash proof signature
    · have hreliable := h hreads
      obtain ⟨⟨currentHash, rfl⟩, ⟨data, rfl⟩, isSigValid, rfl⟩ := hreads
      exact hreliable.never
    · exact never_of_not_readsSucceed hreads

/-- Whatever the ledger holds, an exception of its database is reported as corruption. -/
theorem raised_reportCorruption (currentHash : String) (data : ProofData) (isSigValid : Bool)
    (error : String) :
    (verifyEffects (readsWith (.ok currentHash) (.ok data) (.ok isSigValid) records (.raised error))
      v now ledgerRecordId eventId).ReportCorruption := by
  have hinvalid (caseId : String) :
      (Ledger.validateLedgerChain (.error error) caseId).chainValid = false := by
    by_cases hc : Text.strip caseId = "" <;> simp [Ledger.validateLedgerChain, hc]
  rw [reportCorruption_iff, verifySteps_readsWith]
  exact ⟨_, rfl, determineResult_corrupted.mpr (hinvalid _)⟩

/-- A verification of an artifact of the case of `bareRecord`. -/
def bareVerification : Verification where
  request := ⟨⟨"investigator01", "investigator"⟩, none, .ofNat 5, (Uuid.ofNat 2).str, []⟩
  artifact := ⟨.ofNat 2, "CASE-2025-001", "disk.img", 0, "disk_image", "", none, "investigator01",
    .ingested, none, none, none, none, none⟩
  verificationId := .ofNat 6
  call := none
  phase := .announcing

/-- The connection to the database is lost while the only record of the case is sound. -/
theorem lost_connection_reported_as_corruption :
    ¬ NeverReportedAsCorruption (.ok "hash") (.ok ⟨"hash", "signature", (Uuid.ofNat 2).str⟩)
      (.ok true) [bareRecord (.ofNat 2)] (.raised "connection refused") bareVerification := by
  intro h
  have hread : readCase [bareRecord (.ofNat 2)] "CASE-2025-001" = [bareRecord (.ofNat 2)] :=
    readCase_singleton rfl
  have hfails : SomeRecordFails [bareRecord (.ofNat 2)] "CASE-2025-001" :=
    (h "" "" (.ofNat 0)).1 (raised_reportCorruption _ _ _ _)
  rw [someRecordFails_iff, hread] at hfails
  exact hfails (bareRecord_chained _)

end ForensicChain.Evidence
