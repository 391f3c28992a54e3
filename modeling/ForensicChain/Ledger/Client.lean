import ForensicChain.Ledger.SoloAppend

/-! The requests that the other services send to the ledger. -/
namespace ForensicChain.Ledger.Client

/-- `append_proof` of the evidence collector. -/
def appendProof (artifactId caseId hashValue signatureValue now : String) : ProofRecordRequest where
  artifactId := artifactId
  caseId := caseId
  recordType := "EVIDENCE_PROOF_CREATED"
  hashAlgorithm := "SHA-256"
  hashValue := hashValue
  signatureAlgorithm := "RSA-SHA256"
  signatureValue := signatureValue
  signerId := "hash-sign-service"
  createdAt := now

/-- `append_verification_record` of the evidence collector. -/
def appendVerificationRecord (artifactId caseId verificationResult originalHash currentHash
    verifiedBy now : String) : VerificationRecordRequest where
  artifactId := artifactId
  caseId := caseId
  recordType := "VERIFICATION_RESULT_RECORDED"
  verificationResult := verificationResult
  originalHash := originalHash
  currentHash := currentHash
  verifiedBy := verifiedBy
  verifiedAt := now

/-- `append_report_proof` of the audit reporter. -/
def appendReportProof (reportId : String) (caseId : Option String)
    (reportHash generatedBy generatedAt : String) : ProofRecordRequest where
  artifactId := reportId
  caseId := caseId.getD ""
  recordType := "REPORT_PROOF_CREATED"
  hashAlgorithm := "SHA-256"
  hashValue := reportHash
  signatureAlgorithm := ""
  signatureValue := ""
  signerId := generatedBy
  createdAt := generatedAt

theorem appendProof_fits {artifactId caseId hashValue signatureValue now key : String}
    (ha : Postgres.text artifactId = some artifactId)
    (hk : Postgres.varchar 64 caseId = some key)
    (hh : Postgres.varchar 256 hashValue = some hashValue)
    (hs : Postgres.text signatureValue = some signatureValue)
    (hn : Postgres.text now = some now) :
    (appendProofRecord (appendProof artifactId caseId hashValue signatureValue now)).Fits key where
  caseId := hk
  recordType := by simp only [appendProofRecord, appendProof]; decide
  hashAlgorithm := by simp only [appendProofRecord, appendProof]; decide
  hashValue := by simp [appendProofRecord, appendProof, Postgres.nullable, hh]
  signatureAlgorithm := by simp only [appendProofRecord, appendProof]; decide
  signatureValue := by simp [appendProofRecord, appendProof, Postgres.nullable, hs]
  signerId := by simp only [appendProofRecord, appendProof]; decide
  rawPayload := by
    simp [appendProofRecord, appendProof, Json.hasNul, Json.membersHaveNul,
      Postgres.notMem_of_text ha, Postgres.notMem_of_varchar hk, Postgres.notMem_of_varchar hh,
      Postgres.notMem_of_text hs, Postgres.notMem_of_text hn]

end ForensicChain.Ledger.Client
