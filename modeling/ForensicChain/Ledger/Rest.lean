import ForensicChain.Evidence.Models
import ForensicChain.Ledger.Proof
import ForensicChain.Ledger.Validation

/-!
The REST interface of the ledger. A call of another service has no role header and is not checked;
one that comes through the gateway must be a reviewer's, for a case assigned to the reviewer.
-/
namespace ForensicChain.Ledger

/-- An element of the answer of `get_ledger_records`. -/
structure LedgerRecordOut where
  recordId : String
  artifactId : String
  caseId : String
  recordType : String
  hashAlgorithm : Option String
  hashValue : Option String
  payloadHash : String
  previousRecordHash : Option String
  recordHash : String
  createdAt : Timestamp

def recordOut (r : LedgerRecord) : LedgerRecordOut where
  recordId := r.recordId.str
  artifactId := r.artifactId.str
  caseId := r.caseId
  recordType := r.recordType
  hashAlgorithm := r.hashAlgorithm
  hashValue := r.hashValue
  payloadHash := r.payloadHash
  previousRecordHash := r.previousRecordHash
  recordHash := r.recordHash
  createdAt := r.createdAt

inductive RestAnswer
  | error (e : HttpError)
  | proof (response : ArtifactIntegrityProofResponse)
  | records (rs : List LedgerRecordOut)
  | validation (caseId : String) (response : ValidateLedgerResponse)

/-- The headers that are read. -/
structure RestCaller where
  xUserRole : Option String
  xUserId : Option String

/-- `_require_ledger_access`; `assigned` is what the auth service answers for a name, an empty list
when the call fails. -/
def requireLedgerAccess (assigned : String → List String) (caller : RestCaller) (caseId : String) :
    Except HttpError Unit :=
  if caller.xUserRole.getD "" ≠ "legal_reviewer" then
    .error ⟨403, "Forbidden: legal_reviewer role required"⟩
  else if caseId ∉ assigned (caller.xUserId.getD "") then
    .error ⟨403, "Not assigned to this case"⟩
  else .ok ()

def getProofByArtifact (db : Except String (List LedgerRecord)) (assigned : String → List String)
    (caller : RestCaller) (artifactId : String) : RestAnswer :=
  let resp := getProofByArtifactId db artifactId
  if resp.success = false then .error ⟨404, resp.errorMessage⟩
  else if caller.xUserRole.getD "" ≠ "" then
    match requireLedgerAccess assigned caller resp.caseId with
    | .error e => .error e
    | .ok () => .proof resp
  else .proof resp

/-- `get_ledger_records`; an error of the database is not caught. -/
def getLedgerRecords (db : Except String (List LedgerRecord)) (assigned : String → List String)
    (caller : RestCaller) (caseId : String) : RestAnswer :=
  match requireLedgerAccess assigned caller caseId with
  | .error e => .error e
  | .ok () =>
    match db with
    | .error _ => .error ⟨500, "Internal Server Error"⟩
    | .ok records => .records ((readCase records caseId).map recordOut)

/-- The cases that an answer tells of are among the given ones. -/
def RestAnswer.Within (answer : RestAnswer) (numbers : List String) : Prop :=
  match answer with
  | .error _ => True
  | .proof response => response.caseId ∈ numbers
  | .records rs => ∀ r ∈ rs, r.caseId ∈ numbers
  | .validation caseId _ => caseId ∈ numbers

variable {db : Except String (List LedgerRecord)} {assigned : String → List String}
  {caller : RestCaller} {caseId artifactId : String}

end ForensicChain.Ledger
