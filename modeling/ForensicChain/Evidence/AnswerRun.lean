import ForensicChain.Evidence.Steps

/-! A verification that meets no failed read, from its admission to its answer. -/
namespace ForensicChain.Evidence

variable {keys : HashSign.Signer} {P : State → Action → State → Prop} {s t : State} {w : World}
  {v v' : Verification} {i : RequestId} {artifact : Artifact}

/-- The verification has come this far from the given state, and nobody else has done anything. -/
structure Verifying (keys : HashSign.Signer) (P : State → Action → State → Prop) (s : State)
    (i : RequestId) (t : State) (v : Verification) : Prop where
  reach : ((system keys).restrict P).Reachable t
  here : t.verifications i = some v
  uploads : t.uploads = s.uploads
  artifacts : t.world.artifacts = s.world.artifacts
  ledger : t.world.ledger = s.world.ledger

/-- The answer over the given ledger records. -/
def answerOver (keys : HashSign.Signer) (records : List Ledger.LedgerRecord)
    (request : VerificationRequest) (artifact : Artifact) (proof : ProofData) :
    VerificationResponse where
  artifactId := request.artifactId
  verificationResult := determineResult
    (Ledger.validateLedgerChain (.ok records) artifact.caseId).chainValid
    (keys.verifySignature proof.hashValue proof.signatureValue) (sha256 request.content)
    proof.hashValue
  originalHash := proof.hashValue
  currentHash := sha256 request.content
  signatureValid := keys.verifySignature proof.hashValue proof.signatureValue
  ledgerChainValid := (Ledger.validateLedgerChain (.ok records) artifact.caseId).chainValid

/-- What is asked of the steps of a verification: when the chain is checked, the rows are there. -/
def RowsRead (y : VerificationAction) : Prop :=
  ∀ db, y = .validate db → ∃ records, db = .ok records

section
variable (hP : ∀ s i y t, RowsRead y → P s (.verification i y) t)
include hP

theorem Verifying.next {y : VerificationAction} (h : Verifying keys P s i t v)
    (hs : VerificationStep keys t.world v y w v') (hy : RowsRead y)
    (hl : w.ledger = t.world.ledger) :
    Verifying keys P s i ((t.setWorld w).setVerification i v') v' where
  reach := h.reach.step ⟨.verification h.here hs, hP _ _ _ _ hy⟩
  here := by simp [State.setVerification]
  uploads := h.uploads
  artifacts := hs.artifacts.trans h.artifacts
  ledger := hl.trans h.ledger

/-- The temporary file is open. -/
theorem opened_run {request : VerificationRequest} {assigned : List String} (i : RequestId)
    (id : Uuid) (h : ((system keys).restrict P).Reachable s) (hi : s.verifications i = none)
    (ha : requestedArtifact s.world.artifacts request.artifactId = .ok artifact)
    (hc : checkAccess ["forensic_analyst", "legal_reviewer"] artifact request.actor assigned =
      .ok ())
    (hf : ∀ j v, s.verifications j = some v → v.verificationId ≠ id)
    (hentry : ∀ t, P s (.admitVerification i request assigned id) t) :
    ∃ t, Verifying keys P s i t ⟨request, artifact, id, none, .copying request.content⟩ ∧
      t.world.files (tempPath request.artifactId id) = some [] := by
  have hadmitted : Verifying keys P s i
      (s.setVerification i ⟨request, artifact, id, none, .announcing⟩)
      ⟨request, artifact, id, none, .announcing⟩ :=
    ⟨h.step ⟨.admitVerification hi ha hc hf, hentry _⟩, by simp [State.setVerification], rfl, rfl,
      rfl⟩
  have hannounced := hadmitted.next hP (.announce id "" rfl (.inr rfl)) (by simp [RowsRead]) rfl
  have hopened := hannounced.next hP (.openFile rfl) (by simp [RowsRead]) rfl
  refine ⟨_, hopened, ?_⟩
  simp [State.setVerification, State.setWorld, World.setFile, Verification.path,
    Verification.next]

/-- A file of one chunk is copied. -/
theorem copied_run {request : VerificationRequest} {id : Uuid}
    (h : Verifying keys P s i t ⟨request, artifact, id, none, .copying request.content⟩)
    (hfile : t.world.files (tempPath request.artifactId id) = some [])
    (hchunk : request.content.length ≤ 1024 * 1024) :
    ∃ t, Verifying keys P s i t ⟨request, artifact, id, none, .hashing⟩ ∧
      t.world.files (tempPath request.artifactId id) = some request.content := by
  by_cases hne : request.content = []
  · rw [hne] at h ⊢
    exact ⟨_, h.next hP (.closeFile rfl) (by simp [RowsRead]) rfl, hfile⟩
  · have hphase : VerificationPhase.copying request.content =
        .copying (request.content ++ []) := by rw [List.append_nil]
    have hcopied := h.next hP (.copyChunk hphase hne hchunk hfile) (by simp [RowsRead]) rfl
    refine ⟨_, hcopied.next hP (.closeFile rfl) (by simp [RowsRead]) rfl, ?_⟩
    simp [State.setVerification, State.setWorld, World.setFile, Verification.path]

/-- All four reads succeed over one content of the ledger, and the request is answered. -/
theorem answered_run {request : VerificationRequest} {assigned : List String}
    {proof : ProofData} (i : RequestId) (id : Uuid) (h : ((system keys).restrict P).Reachable s)
    (hi : s.verifications i = none)
    (ha : requestedArtifact s.world.artifacts request.artifactId = .ok artifact)
    (hc : checkAccess ["forensic_analyst", "legal_reviewer"] artifact request.actor assigned =
      .ok ())
    (hf : ∀ j v, s.verifications j = some v → v.verificationId ≠ id)
    (hentry : ∀ t, P s (.admitVerification i request assigned id) t)
    (hchunk : request.content.length ≤ 1024 * 1024)
    (hproof : proofData (Ledger.getProofByArtifactId (.ok s.world.ledger.records)
      request.artifactId) = .ok proof) :
    ∃ t, Verifying keys P s i t ⟨request, artifact, id, none, .responded (.ok
      (answerOver keys s.world.ledger.records request artifact proof))⟩ := by
  obtain ⟨_, hopened, hempty⟩ := opened_run hP i id h hi ha hc hf hentry
  obtain ⟨t, hcopied, hfile⟩ := copied_run hP hopened hempty hchunk
  have hreads := HashSign.reads_readBlocks (by decide : 0 < 65536) request.content
  have hhashed := hcopied.next hP (.recompute rfl hfile hreads) (by simp [RowsRead]) rfl
  rw [hreads.hexdigest] at hhashed
  have hdb : ReadsLedger t.world (.ok s.world.ledger.records) := by
    intro records hrecords
    rw [← Except.ok.inj hrecords, hcopied.ledger]
  have hfetched := hhashed.next hP (.fetch _ rfl hdb hproof) (by simp [RowsRead]) rfl
  have hchecked := hfetched.next hP (.check rfl) (by simp [RowsRead]) rfl
  have hvalidated := hchecked.next hP (.validate _ rfl hdb) (by simp [RowsRead]) rfl
  have hrecorded := hvalidated.next hP (.recordFailed (.inl rfl)) (by simp [RowsRead]) rfl
  have hreported := hrecorded.next hP (.report id "" rfl (.inr rfl)) (by simp [RowsRead]) rfl
  have hcleaned := hreported.next hP (.clean rfl) (by simp [RowsRead]) rfl
  exact ⟨_, hcleaned⟩

end

/-- The empty file of the sample upload is submitted. -/
def sampleVerification : VerificationRequest where
  actor := ⟨"investigator01", "investigator"⟩
  ipAddress := none
  correlationId := .ofNat 5
  artifactId := sampleId.str
  content := []

/-- The proof read from a ledger with the sample record alone. -/
theorem sample_proof : proofData (Ledger.getProofByArtifactId (.ok [sampleRecord])
    sampleVerification.artifactId) = .ok ⟨sha256 [], sha256 [], (Uuid.ofNat 3).str⟩ :=
  (getProof_ok (Uuid.parse_str sampleId)).mpr ⟨sampleRecord, rfl, rfl⟩

theorem sample_chain :
    (Ledger.validateLedgerChain (.ok [sampleRecord]) "CASE-2025-001").chainValid = true := by
  have hstrip : Text.strip "CASE-2025-001" = "CASE-2025-001" := by decide
  have hcase : sampleRecord.caseId = "CASE-2025-001" := rfl
  refine Ledger.validateLedgerChain_chainValid.mpr ⟨by decide, ?_⟩
  rw [hstrip, Ledger.readCase_singleton hcase]
  refine ⟨⟨rfl, trivial⟩, ?_⟩
  intro r hr
  rw [List.mem_singleton.mp hr]
  exact Ledger.newRecord_hashesMatch _ _ _ _ _

end ForensicChain.Evidence
