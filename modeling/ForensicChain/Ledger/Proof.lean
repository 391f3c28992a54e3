import ForensicChain.Ledger.Models
import Mathlib.Data.List.Sort

/-! `GetProofByArtifactId`: the columns of the newest evidence proof of an artifact. -/
namespace ForensicChain.Ledger

structure ArtifactIntegrityProofResponse where
  recordId : String
  artifactId : String
  caseId : String
  hashAlgorithm : String
  hashValue : String
  signatureAlgorithm : String
  signatureValue : String
  signerId : String
  recordHash : String
  success : Bool
  errorMessage : String

def proofFailure (errorMessage : String) : ArtifactIntegrityProofResponse where
  recordId := ""
  artifactId := ""
  caseId := ""
  hashAlgorithm := ""
  hashValue := ""
  signatureAlgorithm := ""
  signatureValue := ""
  signerId := ""
  recordHash := ""
  success := false
  errorMessage := errorMessage

/-- The response over a row; a NULL column leaves its field empty. -/
def proofResponse (record : LedgerRecord) : ArtifactIntegrityProofResponse where
  recordId := record.recordId.str
  artifactId := record.artifactId.str
  caseId := record.caseId
  hashAlgorithm := record.hashAlgorithm.getD ""
  hashValue := record.hashValue.getD ""
  signatureAlgorithm := record.signatureAlgorithm.getD ""
  signatureValue := record.signatureValue.getD ""
  signerId := record.signerId.getD ""
  recordHash := record.recordHash
  success := true
  errorMessage := ""

def IsEvidenceProof (artifactId : Uuid) (r : LedgerRecord) : Prop :=
  r.artifactId = artifactId ∧ r.recordType = "EVIDENCE_PROOF_CREATED"

instance (artifactId : Uuid) : DecidablePred (IsEvidenceProof artifactId) :=
  fun _ => inferInstanceAs (Decidable (_ ∧ _))

/-- The first row by `created_at DESC`; rows of one instant come in the order of the table. -/
def servedProof (records : List LedgerRecord) (artifactId : Uuid) : Option LedgerRecord :=
  ((records.filter (IsEvidenceProof artifactId)).insertionSort
    fun r q => q.createdAt ≤ r.createdAt).head?

/-- `GetProofByArtifactId`; the database gives its rows or raises. -/
def getProofByArtifactId (db : Except String (List LedgerRecord)) (artifactId : String) :
    ArtifactIntegrityProofResponse :=
  match db, Uuid.parse artifactId with
  | .error e, _ => proofFailure e
  -- for 32 characters that are no number, the text is that of `int()` instead
  | .ok _, none => proofFailure "badly formed hexadecimal UUID string"
  | .ok records, some artifactId =>
    match servedProof records artifactId with
    | none => proofFailure "Proof record not found"
    | some record => proofResponse record

theorem servedProof_mem {records : List LedgerRecord} {artifactId : Uuid} {r : LedgerRecord}
    (h : servedProof records artifactId = some r) : r ∈ records ∧ IsEvidenceProof artifactId r := by
  have hmem := List.mem_of_mem_head? h
  rw [List.mem_insertionSort, List.mem_filter] at hmem
  exact ⟨hmem.1, of_decide_eq_true hmem.2⟩

end ForensicChain.Ledger
