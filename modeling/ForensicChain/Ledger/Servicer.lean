import ForensicChain.Ledger.Models
import ForensicChain.Library.Text
import ForensicChain.Library.TransitionSystem
import Mathlib.Data.List.Sort
import Mathlib.Logic.Function.Basic

/-!
The ledger servicer. An append is a transaction of several statements; any number of them run
at once, and each may be rolled back before its commit. The two reads see committed rows only.
-/
namespace ForensicChain.Ledger

/-- The arguments of `_append_record`. -/
structure AppendArgs where
  rawPayload : Json
  artifactId : String
  caseId : String
  recordType : String
  hashAlgorithm : Option String
  hashValue : Option String
  signatureAlgorithm : Option String
  signatureValue : Option String
  signerId : Option String

def appendProofRecord (request : ProofRecordRequest) : AppendArgs where
  rawPayload := .obj [
    ("artifact_id", .str request.artifactId),
    ("case_id", .str request.caseId),
    ("record_type", .str request.recordType),
    ("hash_algorithm", .str request.hashAlgorithm),
    ("hash_value", .str request.hashValue),
    ("signature_algorithm", .str request.signatureAlgorithm),
    ("signature_value", .str request.signatureValue),
    ("signer_id", .str request.signerId),
    ("created_at", .str request.createdAt)]
  artifactId := request.artifactId
  caseId := request.caseId
  recordType := request.recordType
  hashAlgorithm := request.hashAlgorithm
  hashValue := request.hashValue
  signatureAlgorithm := request.signatureAlgorithm
  signatureValue := request.signatureValue
  signerId := request.signerId

def appendVerificationRecord (request : VerificationRecordRequest) : AppendArgs where
  rawPayload := .obj [
    ("artifact_id", .str request.artifactId),
    ("case_id", .str request.caseId),
    ("record_type", .str request.recordType),
    ("verification_result", .str request.verificationResult),
    ("original_hash", .str request.originalHash),
    ("current_hash", .str request.currentHash),
    ("verified_by", .str request.verifiedBy),
    ("verified_at", .str request.verifiedAt)]
  artifactId := request.artifactId
  caseId := request.caseId
  recordType := request.recordType
  hashAlgorithm := none
  hashValue := none
  signatureAlgorithm := none
  signatureValue := none
  signerId := none

/-- The row that `_append_record` builds once it has read the head of the case. -/
def newRecord (args : AppendArgs) (artifactId : Uuid) (previousRecordHash : Option String)
    (recordId : Uuid) (now : Timestamp) : LedgerRecord :=
  let entry := createHashChainEntry args.rawPayload previousRecordHash
  { recordId, artifactId
    caseId := args.caseId
    recordType := args.recordType
    hashAlgorithm := args.hashAlgorithm
    hashValue := args.hashValue
    signatureAlgorithm := args.signatureAlgorithm
    signatureValue := args.signatureValue
    signerId := args.signerId
    payloadHash := entry.1
    previousRecordHash
    recordHash := entry.2
    rawPayload := Jsonb.ofJson args.rawPayload
    createdAt := now }

theorem newRecord_hashesMatch (args : AppendArgs) (artifactId : Uuid) (previous : Option String)
    (recordId : Uuid) (now : Timestamp) :
    (newRecord args artifactId previous recordId now).HashesMatch :=
  ⟨(computePayloadHash_ofJson args.rawPayload).symm, rfl⟩

abbrev CallId := Nat

/-- Where a call stands: the last statement that it has executed. -/
inductive Phase
  | opened
  | ensured
  | locked (previousRecordHash : Option String)
  | built (r : LedgerRecord)
  | advanced (r : LedgerRecord)
  | committed (r : LedgerRecord)
  | failed (error : String)

/-- A call with the `ledger_state` rows it has written and not yet committed, latest first. -/
structure Call where
  args : AppendArgs
  phase : Phase
  writes : List (String × Option String)

/-- Committed rows of both tables, the row locks on `ledger_state`, and the calls. -/
structure State where
  records : List LedgerRecord
  heads : String → Option (Option String)
  locks : String → Option CallId
  calls : CallId → Option Call

namespace State

def setCall (s : State) (i : CallId) (c : Call) : State :=
  { s with calls := Function.update s.calls i (some c) }

def lock (s : State) (i : CallId) (key : String) : State :=
  { s with locks := Function.update s.locks key (some i) }

/-- The end of a transaction gives up its row locks. -/
def unlock (s : State) (i : CallId) : State :=
  { s with locks := fun key => if s.locks key = some i then none else s.locks key }

/-- The `ledger_state` row that the transaction of a call sees. -/
def visible (s : State) (c : Call) (key : String) : Option (Option String) :=
  (c.writes.lookup key).or (s.heads key)

/-- Another transaction may write or lock the row only once its holder has ended. -/
def Free (s : State) (i : CallId) (key : String) : Prop :=
  s.locks key = none ∨ s.locks key = some i

variable {s : State} {i : CallId} {c : Call} {key : String}

@[simp] theorem setCall_records : (s.setCall i c).records = s.records := rfl
@[simp] theorem setCall_heads : (s.setCall i c).heads = s.heads := rfl
@[simp] theorem setCall_locks : (s.setCall i c).locks = s.locks := rfl
@[simp] theorem setCall_calls :
    (s.setCall i c).calls = Function.update s.calls i (some c) := rfl
@[simp] theorem lock_records : (s.lock i key).records = s.records := rfl
@[simp] theorem lock_heads : (s.lock i key).heads = s.heads := rfl
@[simp] theorem lock_calls : (s.lock i key).calls = s.calls := rfl
@[simp] theorem unlock_records : (s.unlock i).records = s.records := rfl
@[simp] theorem unlock_heads : (s.unlock i).heads = s.heads := rfl
@[simp] theorem unlock_calls : (s.unlock i).calls = s.calls := rfl

/-- Committing publishes the record and the written `ledger_state` rows together. -/
def publish (s : State) (c : Call) (r : LedgerRecord) : State :=
  { s with
    records := s.records ++ [r]
    heads := fun key => (c.writes.lookup key).or (s.heads key) }

end State

/-- The statements of `_append_record`, and the failure that a call may meet at any of them. -/
inductive Action
  | start (i : CallId) (args : AppendArgs)
  | ensure (i : CallId)
  | select (i : CallId)
  | build (i : CallId) (recordId : Uuid) (now : Timestamp)
  | advance (i : CallId)
  | commit (i : CallId)
  | fail (i : CallId) (error : String)

def Action.call : Action → CallId
  | .start i _ | .ensure i | .select i | .build i _ _ | .advance i | .commit i | .fail i _ => i

def Phase.Running : Phase → Prop
  | .committed _ | .failed _ => False
  | _ => True

inductive Step : State → Action → State → Prop
  | start {s i} (args : AppendArgs) (hi : s.calls i = none) :
      Step s (.start i args) (s.setCall i ⟨args, .opened, []⟩)
  /-- `INSERT … ON CONFLICT DO NOTHING` on a committed row. -/
  | ensureConflict {s i c key head} (hi : s.calls i = some c) (hp : c.phase = .opened)
      (hk : Postgres.varchar 64 c.args.caseId = some key) (hh : s.heads key = some head) :
      Step s (.ensure i) (s.setCall i { c with phase := .ensured })
  /-- The first insert of the row; a concurrent one has to end before. -/
  | ensureInsert {s i c key} (hi : s.calls i = some c) (hp : c.phase = .opened)
      (hk : Postgres.varchar 64 c.args.caseId = some key) (hh : s.heads key = none)
      (hl : s.locks key = none) :
      Step s (.ensure i)
        ((s.lock i key).setCall i { c with phase := .ensured, writes := [(key, none)] })
  /-- `SELECT … FOR UPDATE` waits for the lock and reads the latest version. -/
  | selectRow {s i c head} (hi : s.calls i = some c) (hp : c.phase = .ensured)
      (hv : s.visible c c.args.caseId = some head) (hl : s.Free i c.args.caseId) :
      Step s (.select i) ((s.lock i c.args.caseId).setCall i { c with phase := .locked head })
  /-- No row has the given id: the previous hash is None and nothing is locked. -/
  | selectNothing {s i c} (hi : s.calls i = some c) (hp : c.phase = .ensured)
      (hv : s.visible c c.args.caseId = none) :
      Step s (.select i) (s.setCall i { c with phase := .locked none })
  | build {s i c previous artifactId} (recordId : Uuid) (now : Timestamp)
      (hi : s.calls i = some c) (hp : c.phase = .locked previous)
      (ha : Uuid.parse c.args.artifactId = some artifactId) :
      Step s (.build i recordId now)
        (s.setCall i { c with phase := .built (newRecord c.args artifactId previous recordId now) })
  | advanceRow {s i c r head} (hi : s.calls i = some c) (hp : c.phase = .built r)
      (hv : s.visible c c.args.caseId = some head) (hl : s.Free i c.args.caseId) :
      Step s (.advance i)
        ((s.lock i c.args.caseId).setCall i
          { c with phase := .advanced r, writes := (c.args.caseId, some r.recordHash) :: c.writes })
  | advanceNothing {s i c r} (hi : s.calls i = some c) (hp : c.phase = .built r)
      (hv : s.visible c c.args.caseId = none) :
      Step s (.advance i) (s.setCall i { c with phase := .advanced r })
  /-- `db.commit()` inserts the record and commits; its key must be new. -/
  | commit {s i c r stored} (hi : s.calls i = some c) (hp : c.phase = .advanced r)
      (hs : r.store = some stored) (hk : ∀ q ∈ s.records, q.recordId ≠ stored.recordId) :
      Step s (.commit i)
        (((s.publish c stored).unlock i).setCall i
          { c with phase := .committed stored, writes := [] })
  /-- Any statement may raise, and the process may stop: the transaction is rolled back. -/
  | fail {s i c} (error : String) (hi : s.calls i = some c) (hp : c.phase.Running) :
      Step s (.fail i error)
        ((s.unlock i).setCall i { c with phase := .failed error, writes := [] })

/-- Empty tables and no call. -/
def Initial (s : State) : Prop :=
  s.records = [] ∧ (∀ key, s.heads key = none) ∧ (∀ key, s.locks key = none) ∧
    ∀ i, s.calls i = none

def system : TransitionSystem State Action := ⟨Initial, Step⟩

/-- What the servicer answers once a call has ended. -/
def Call.response (c : Call) : Option ProofRecordResponse :=
  match c.phase with
  | .committed r => some {
      recordId := r.recordId.str
      artifactId := c.args.artifactId
      recordType := c.args.recordType
      payloadHash := r.payloadHash
      previousRecordHash := r.previousRecordHash.getD ""
      recordHash := r.recordHash
      createdAt := some r.createdAt
      success := true
      errorMessage := "" }
  | .failed error => some {
      recordId := ""
      artifactId := c.args.artifactId
      recordType := c.args.recordType
      payloadHash := ""
      previousRecordHash := ""
      recordHash := ""
      createdAt := none
      success := false
      errorMessage := error }
  | _ => none

/-- A success is answered after the commit alone. -/
theorem Call.response_success {c : Call} {response : ProofRecordResponse}
    (h : c.response = some response) (hs : response.success = true) :
    ∃ r, c.phase = .committed r ∧ response.recordId = r.recordId.str := by
  unfold Call.response at h
  split at h
  · rename_i r hr
    obtain rfl := Option.some.inj h
    exact ⟨r, hr, rfl⟩
  · obtain rfl := Option.some.inj h
    simp at hs
  · simp at h

end ForensicChain.Ledger
