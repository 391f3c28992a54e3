import ForensicChain.Evidence.Verification

/-!
What a VALID verdict is worth after one row of the ledger was overwritten. The chain covers the
payload of a row and not the columns that are served as its proof.
-/
namespace ForensicChain.Evidence

open Ledger HashSign

variable {keys : Signer} {history rows : List LedgerRecord} {row : LedgerRecord}
  {artifact : Artifact} {uploads : Set (List UInt8)}

/-- The hash that was signed and appended when the artifact was ingested. -/
def IngestedHash (history : List LedgerRecord) (artifactId : Uuid) (hash : String) : Prop :=
  ∃ r ∈ history, IsEvidenceProof artifactId r ∧ r.hashValue = some hash

/-- One row is overwritten by another; the table may then return its rows in any order. -/
def Overwritten (history : List LedgerRecord) (row : LedgerRecord) (rows : List LedgerRecord) :
    Prop :=
  ∃ i < history.length, rows.Perm (history.set i row)

/-- No signature is forged: what verifies is the signed hash of an uploaded file. -/
def Unforged (keys : Signer) (uploads : Set (List UInt8)) (rows : List LedgerRecord) : Prop :=
  ∀ r ∈ rows, ∀ hash, keys.verifySignature hash (r.signatureValue.getD "") = true →
    ∃ file ∈ uploads, sha256 file = hash

/-- Whoever asks and whatever is submitted, VALID is answered for the ingested content only. -/
def ValidIsSound (keys : Signer) (history rows : List LedgerRecord) (artifact : Artifact) : Prop :=
  ∀ artifacts assigned actor artifactId tempPath submitted response,
    requestedArtifact artifacts artifactId = .ok artifact →
    verifyEvidence artifacts assigned (readsOf keys rows tempPath submitted) actor artifactId =
      .ok response →
    response.verificationResult = .valid →
    IngestedHash history artifact.artifactId (sha256 submitted)

/-- The overwritten row is served for the artifact with the hash and the signature of another
upload, and the rows of the artifact's case still form a chain. -/
structure Replayed (keys : Signer) (history rows : List LedgerRecord) (row : LedgerRecord)
    (artifact : Artifact) : Prop where
  served : servedProof rows artifact.artifactId = some row
  signed : keys.verifySignature (row.hashValue.getD "") (row.signatureValue.getD "") = true
  named : Text.strip artifact.caseId ≠ ""
  chained : Chained (readCase rows (Text.strip artifact.caseId))
  foreign : ¬ IngestedHash history artifact.artifactId (row.hashValue.getD "")

theorem mem_of_overwritten (h : Overwritten history row rows) {r : LedgerRecord} (hr : r ∈ rows) :
    r = row ∨ r ∈ history := by
  obtain ⟨i, _, hperm⟩ := h
  exact (List.mem_or_eq_of_mem_set (hperm.mem_iff.mp hr)).symm

/-- What a VALID answer rests on. -/
theorem valid_answer {artifacts : List Artifact} {assigned : List String} {actor : Actor}
    {artifactId tempPath : String} {submitted : List UInt8} {response : VerificationResponse}
    (hreq : requestedArtifact artifacts artifactId = .ok artifact)
    (hans : verifyEvidence artifacts assigned (readsOf keys rows tempPath submitted) actor
      artifactId = .ok response)
    (hvalid : response.verificationResult = .valid) :
    ∃ r, servedProof rows artifact.artifactId = some r ∧
      keys.verifySignature (r.hashValue.getD "") (r.signatureValue.getD "") = true ∧
      Text.strip artifact.caseId ≠ "" ∧ Chained (readCase rows (Text.strip artifact.caseId)) ∧
      r.hashValue = some (sha256 submitted) := by
  obtain ⟨_, hid⟩ := requestedArtifact_ok hreq
  simp only [verifyEvidence, hreq, bind_ok] at hans
  obtain ⟨_, hfound, _, _, hsteps⟩ := hans
  cases hfound
  obtain ⟨proof, hcur, hproof, horig, hsig, hchain, hres⟩ := verifySteps_ok hsteps
  obtain ⟨hv, hg, he⟩ := determineResult_valid.mp (hres.symm.trans hvalid)
  obtain ⟨r, hr, rfl⟩ := (getProof_ok hid).mp hproof
  have hcur : sha256 submitted = response.currentHash :=
    Except.ok.inj ((computeSha256_some tempPath submitted).symm.trans hcur)
  have hhash : r.hashValue.getD "" = sha256 submitted := by rw [hcur, he, horig]
  obtain ⟨hname, hcase⟩ :=
    validateLedgerChain_chainValid.mp ((Except.ok.inj hchain).trans hv)
  refine ⟨r, hr, (Except.ok.inj hsig).trans hg, hname, hcase, ?_⟩
  cases hv : r.hashValue with
  | none =>
    have hlen := sha256_length submitted
    rw [← hhash, hv] at hlen
    simp at hlen
  | some h => simpa [hv] using hhash

/-- The investigator who uploaded the artifact is told VALID. -/
theorem replayed_answer (h : Replayed keys history rows row artifact) {submitted : List UInt8}
    (hs : sha256 submitted = row.hashValue.getD "") :
    ∃ response, verifyEvidence [artifact] [] (readsOf keys rows "" submitted)
      ⟨artifact.uploadedBy, "investigator"⟩ artifact.artifactId.str = .ok response ∧
      response.verificationResult = .valid := by
  have hchain : (validateLedgerChain (.ok rows) artifact.caseId).chainValid = true :=
    validateLedgerChain_chainValid.mpr ⟨h.named, h.chained⟩
  have hproof := (getProof_ok (Uuid.parse_str artifact.artifactId)).mpr ⟨row, h.served, rfl⟩
  simp only [verifyEvidence, requestedArtifact_self, verifySteps, readsOf, hproof,
    computeSha256_some, hchain, h.signed, hs, orRaise, bind, Except.bind, checkAccess]
  simp [determineResult, pure, Except.pure]

theorem unsound_of_replayed (hun : Unforged keys uploads rows)
    (h : Replayed keys history rows row artifact) : ¬ ValidIsSound keys history rows artifact := by
  intro hsound
  obtain ⟨file, _, hfile⟩ := hun row (servedProof_mem h.served).1 _ h.signed
  obtain ⟨response, hans, hvalid⟩ := replayed_answer h hfile
  exact h.foreign (hfile ▸ hsound _ _ _ _ _ _ _ (requestedArtifact_self _) hans hvalid)

/-- After one row was overwritten, VALID is sound exactly if that row is not served for the
artifact with the genuine hash and signature of another upload while its case stays a chain. -/
theorem valid_verdict_sound_iff (hover : Overwritten history row rows)
    (hun : Unforged keys uploads rows) :
    ValidIsSound keys history rows artifact ↔ ¬ Replayed keys history rows row artifact := by
  constructor
  · intro hsound hrep
    exact unsound_of_replayed hun hrep hsound
  · intro hrep artifacts assigned actor artifactId tempPath submitted response hreq hans hvalid
    obtain ⟨r, hr, hsig, hname, hcase, hhash⟩ := valid_answer hreq hans hvalid
    obtain ⟨hmem, hproof⟩ := servedProof_mem hr
    rcases mem_of_overwritten hover hmem with rfl | hold
    · by_contra hforeign
      exact hrep ⟨hr, hsig, hname, hcase, by simpa [hhash] using hforeign⟩
    · exact ⟨r, hold, hproof, hhash⟩

def artifactA : Uuid := .ofNat 1
def artifactB : Uuid := .ofNat 2
def contentA : List UInt8 := []
def contentB : List UInt8 := [1]

theorem content_hash_ne : sha256 contentA ≠ sha256 contentB := by decide +kernel

/-- The first artifact's row in the evidence database. -/
def rowA : Artifact where
  artifactId := artifactA
  caseId := "CASE-2025-001"
  fileName := "a.bin"
  fileSize := 0
  artifactType := "document"
  storagePath := "/evidence-storage/a/original.bin"
  description := none
  uploadedBy := "investigator01"
  status := .ingested
  hashValue := some (sha256 contentA)
  hashAlgorithm := some "SHA-256"
  signatureValue := some (sha256 contentA)
  ledgerRecordId := some (.ofNat 3)
  correlationId := none

/-- The row with the hash and the signature of another one written over its own. -/
def withProofOf (r q : LedgerRecord) : LedgerRecord :=
  { r with hashValue := q.hashValue, signatureValue := q.signatureValue }

/-- The second artifact's proof written over the first one's, in a case with both. -/
theorem replay_reachable :
    ∃ s r q, system.ReachableWhen VerbatimCase s ∧ s.records = [r, q] ∧
      IngestedHash s.records rowA.artifactId (sha256 contentA) ∧
      Overwritten s.records (withProofOf r q) [withProofOf r q, q] ∧
      Unforged plainKeys {contentA, contentB} [withProofOf r q, q] ∧
      Replayed plainKeys s.records [withProofOf r q, q] (withProofOf r q) rowA := by
  have hsig : ∀ bytes, Postgres.text (sha256 bytes) = some (sha256 bytes) := by
    intro bytes
    rw [Postgres.text, if_neg]
    intro hc
    have hhex := sha256_hex bytes _ hc
    revert hhex
    decide
  obtain ⟨s, r, q, hs, _, hrec, hr, hq⟩ := two_proofs_reachable "CASE-2025-001"
    (sha256 contentA) (sha256 contentB) artifactA artifactB (by decide)
    (varchar_sha256 _) (hsig contentA) (varchar_sha256 _) (hsig contentB)
    ⟨3, by decide⟩ ⟨4, by decide⟩ (by decide)
  have hrmatch : r.HashesMatch := hr ▸ newRecord_hashesMatch _ _ _ _ _
  have hqmatch : q.HashesMatch := hq ▸ newRecord_hashesMatch _ _ _ _ _
  have hqprev : q.previousRecordHash = some r.recordHash := hq ▸ rfl
  have hqhash : q.hashValue = some (sha256 contentB) := hq ▸ rfl
  have hqsig : q.signatureValue = some (sha256 contentB) := hq ▸ rfl
  have hqart : q.artifactId = artifactB := hq ▸ rfl
  have hqcase : q.caseId = "CASE-2025-001" := hq ▸ rfl
  have hqtime : q.createdAt = 1 := hq ▸ rfl
  have hrprev : r.previousRecordHash = none := hr ▸ rfl
  have hrhash : r.hashValue = some (sha256 contentA) := hr ▸ rfl
  have hrart : r.artifactId = artifactA := hr ▸ rfl
  have hrtype : r.recordType = "EVIDENCE_PROOF_CREATED" := hr ▸ rfl
  have hrcase : r.caseId = "CASE-2025-001" := hr ▸ rfl
  have hrtime : r.createdAt = 0 := hr ▸ rfl
  have hstrip : Text.strip rowA.caseId = "CASE-2025-001" := by decide
  have hne : artifactB ≠ artifactA := by decide
  refine ⟨s, r, q, hs, hrec, ?_, ⟨0, by simp [hrec], by simp [hrec]⟩, ?_, ?_, ?_, ?_, ?_, ?_⟩
  · exact ⟨r, by simp [hrec], ⟨hrart, hrtype⟩, hrhash⟩
  · intro x hx hash hv
    have hxsig : x.signatureValue = some (sha256 contentB) := by
      rcases List.mem_pair.mp hx with rfl | rfl <;> simp [withProofOf, hqsig]
    rw [hxsig] at hv
    exact ⟨contentB, by simp, by simpa [plainKeys] using hv⟩
  · simp [servedProof, IsEvidenceProof, withProofOf, rowA, hrart, hrtype, hqart, hne]
  · simp [plainKeys, withProofOf, hqhash, hqsig]
  · rw [hstrip]
    decide
  · have hread : readCase [withProofOf r q, q] "CASE-2025-001" = [withProofOf r q, q] := by
      simp [readCase, caseRecords, withProofOf, hrcase, hqcase, OrderBy.Asc, hrtime, hqtime]
    rw [hstrip, hread]
    refine ⟨⟨hrprev, hqprev, trivial⟩, ?_⟩
    intro x hx
    rcases List.mem_pair.mp hx with rfl | rfl
    · exact hrmatch
    · exact hqmatch
  · rintro ⟨x, hx, ⟨hxart, _⟩, hxhash⟩
    rw [hrec] at hx
    rcases List.mem_pair.mp hx with rfl | rfl
    · rw [hrhash] at hxhash
      exact content_hash_ne (by simpa [withProofOf, hqhash] using hxhash)
    · exact hne (hqart.symm.trans hxart)

theorem replayed_verdict_unsound :
    ∃ s r q, system.ReachableWhen VerbatimCase s ∧ s.records = [r, q] ∧
      ¬ ValidIsSound plainKeys s.records [withProofOf r q, q] rowA := by
  obtain ⟨s, r, q, hs, hrec, _, hover, hun, hrep⟩ := replay_reachable
  exact ⟨s, r, q, hs, hrec, fun h => (valid_verdict_sound_iff hover hun).mp h hrep⟩

/-- The second file is answered VALID for the first artifact. -/
theorem replayed_proof_answers_valid :
    ∃ s r q response, system.ReachableWhen VerbatimCase s ∧
      IngestedHash s.records artifactA (sha256 contentA) ∧
      ¬ IngestedHash s.records artifactA (sha256 contentB) ∧
      Overwritten s.records (withProofOf r q) [withProofOf r q, q] ∧
      verifyEvidence [rowA] [] (readsOf plainKeys [withProofOf r q, q] "" contentB)
        ⟨"investigator01", "investigator"⟩ artifactA.str = .ok response ∧
      response.verificationResult = .valid := by
  obtain ⟨s, r, q, hs, hrec, hing, hover, hun, hrep⟩ := replay_reachable
  have hhash : sha256 contentB = (withProofOf r q).hashValue.getD "" := by
    obtain ⟨file, hfile, he⟩ := hun (withProofOf r q) (by simp) _ hrep.signed
    rcases hfile with rfl | rfl
    · exact (hrep.foreign (he ▸ hing)).elim
    · exact he
  obtain ⟨response, hans, hvalid⟩ := replayed_answer hrep hhash
  exact ⟨s, r, q, response, hs, hing, hhash ▸ hrep.foreign, hover, hans, hvalid⟩

end ForensicChain.Evidence
