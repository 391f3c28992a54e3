import ForensicChain.Evidence.Models
import ForensicChain.HashSign.Servicer
import ForensicChain.Ledger.Proof
import ForensicChain.Ledger.Validation

/-!
`verify_evidence`: four remote reads, and the verdict over what they return. A read that fails
ends the request with an error answer.
-/
namespace ForensicChain.Evidence

inductive VerificationResult
  | ledgerCorrupted
  | invalidSignature
  | tampered
  | valid
  deriving DecidableEq

def VerificationResult.text : VerificationResult → String
  | .ledgerCorrupted => "LEDGER_CORRUPTED"
  | .invalidSignature => "INVALID_SIGNATURE"
  | .tampered => "TAMPERED"
  | .valid => "VALID"

/-- The most severe condition wins. -/
def determineResult (isValidChain isSigValid : Bool) (currentHash origHash : String) :
    VerificationResult :=
  if !isValidChain then .ledgerCorrupted
  else if !isSigValid then .invalidSignature
  else if currentHash ≠ origHash then .tampered
  else .valid

structure ProofData where
  hashValue : String
  signatureValue : String
  recordId : String

structure VerificationResponse where
  artifactId : String
  verificationResult : VerificationResult
  originalHash : String
  currentHash : String
  signatureValid : Bool
  ledgerChainValid : Bool

/-- The remote reads of a verification; an error is the text that the client returns. -/
structure RemoteReads where
  recomputeHash : Except String String
  getProofByArtifact : String → Except String ProofData
  verifySignature : String → String → Except String Bool
  validateLedgerChain : String → Except String Bool

/-- The clients turn an unsuccessful answer into the error text. -/
def proofData (r : Ledger.ArtifactIntegrityProofResponse) : Except String ProofData :=
  if r.success then .ok ⟨r.hashValue, r.signatureValue, r.recordId⟩ else .error r.errorMessage

/-- A failed call answers with the status and the text of its step. -/
def orRaise {α : Type} (statusCode : Nat) (what : String) : Except String α → Except HttpError α
  | .ok a => .ok a
  | .error e => .error ⟨statusCode, what ++ e⟩

/-- Steps 1 to 5 of `verify_evidence`. -/
def verifySteps (reads : RemoteReads) (artifactId : String) (artifact : Artifact) :
    Except HttpError VerificationResponse := do
  let currentHash ← orRaise 503 "Hash recomputation failed: " reads.recomputeHash
  let proof ← orRaise 404 "Failed to fetch proof: " (reads.getProofByArtifact artifactId)
  let isSigValid ← orRaise 503 "Signature verification failed: "
    (reads.verifySignature proof.hashValue proof.signatureValue)
  let isValidChain ← orRaise 503 "Ledger validation check failed: "
    (reads.validateLedgerChain artifact.caseId)
  return {
    artifactId
    verificationResult := determineResult isValidChain isSigValid currentHash proof.hashValue
    originalHash := proof.hashValue
    currentHash
    signatureValid := isSigValid
    ledgerChainValid := isValidChain }

def verifyEvidence (artifacts : List Artifact) (assigned : List String) (reads : RemoteReads)
    (actor : Actor) (artifactId : String) : Except HttpError VerificationResponse := do
  let artifact ← requestedArtifact artifacts artifactId
  checkAccess ["forensic_analyst", "legal_reviewer"] artifact actor assigned
  verifySteps reads artifactId artifact

/-- The reads over one content of the ledger and one submitted file, none of which fails. -/
def readsOf (keys : HashSign.Signer) (records : List Ledger.LedgerRecord) (tempPath : String)
    (submitted : List UInt8) : RemoteReads where
  recomputeHash := HashSign.computeSha256 tempPath (some submitted)
  getProofByArtifact artifactId := proofData (Ledger.getProofByArtifactId (.ok records) artifactId)
  verifySignature hashValue signatureValue := .ok (keys.verifySignature hashValue signatureValue)
  validateLedgerChain caseId := .ok (Ledger.validateLedgerChain (.ok records) caseId).chainValid

variable {isValidChain isSigValid : Bool} {currentHash origHash : String}

theorem determineResult_valid :
    determineResult isValidChain isSigValid currentHash origHash = .valid ↔
      isValidChain = true ∧ isSigValid = true ∧ currentHash = origHash := by
  unfold determineResult
  split_ifs <;> simp_all

theorem orRaise_ok {α : Type} {n : Nat} {what : String} {e : Except String α} {a : α} :
    orRaise n what e = .ok a ↔ e = .ok a := by
  cases e <;> simp [orRaise]

theorem proofData_ok {r : Ledger.ArtifactIntegrityProofResponse} {d : ProofData} :
    proofData r = .ok d ↔ r.success = true ∧ d = ⟨r.hashValue, r.signatureValue, r.recordId⟩ := by
  unfold proofData
  split_ifs with h <;> simp [h, eq_comm]

open Ledger in
theorem getProof_ok {rows : List LedgerRecord} {artifactId : String} {id : Uuid}
    (hid : Uuid.parse artifactId = some id) {proof : ProofData} :
    proofData (getProofByArtifactId (.ok rows) artifactId) = .ok proof ↔
      ∃ r, servedProof rows id = some r ∧
        proof = ⟨r.hashValue.getD "", r.signatureValue.getD "", r.recordId.str⟩ := by
  simp only [proofData_ok, getProofByArtifactId, hid]
  cases servedProof rows id with
  | none => simp [proofFailure]
  | some r => simp [proofResponse]

/-- A verification answers only if all four reads succeed, with the verdict over their results. -/
theorem verifySteps_ok {reads : RemoteReads} {artifactId : String} {artifact : Artifact}
    {r : VerificationResponse} (h : verifySteps reads artifactId artifact = .ok r) :
    ∃ proof, reads.recomputeHash = .ok r.currentHash ∧
      reads.getProofByArtifact artifactId = .ok proof ∧ r.originalHash = proof.hashValue ∧
      reads.verifySignature proof.hashValue proof.signatureValue = .ok r.signatureValid ∧
      reads.validateLedgerChain artifact.caseId = .ok r.ledgerChainValid ∧
      r.verificationResult = determineResult r.ledgerChainValid r.signatureValid r.currentHash
        r.originalHash := by
  simp only [verifySteps, bind_ok, orRaise_ok] at h
  obtain ⟨_, hcur, proof, hproof, _, hsig, _, hchain, hr⟩ := h
  cases hr
  exact ⟨proof, hcur, hproof, rfl, hsig, hchain, rfl⟩

end ForensicChain.Evidence
