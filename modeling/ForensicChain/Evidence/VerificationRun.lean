import ForensicChain.Evidence.Upload
import ForensicChain.Evidence.Verification

/-!
`verify_evidence`, statement by statement: the submitted file is copied to a temporary one, the
four remote reads are made one after another, and the verdict is recorded as well as it can be.
-/
namespace ForensicChain.Evidence

structure VerificationRequest where
  actor : Actor
  ipAddress : Option String
  correlationId : Uuid
  artifactId : String
  content : List UInt8

inductive VerificationPhase
  | announcing
  | opening
  | copying (rest : List UInt8)
  | hashing
  | fetching (currentHash : String)
  | checking (currentHash : String) (proof : ProofData)
  | validating (currentHash : String) (proof : ProofData) (isSigValid : Bool)
  | recording (response : VerificationResponse)
  | awaiting (response : VerificationResponse)
  | reporting (response : VerificationResponse) (ledgerRecordId : String)
  | cleaning (answer : Except HttpError VerificationResponse)
  | responded (answer : Except HttpError VerificationResponse)
  | stopped

/-- A request that was let through, with the row it is about and the name of its temporary file. -/
structure Verification where
  request : VerificationRequest
  artifact : Artifact
  verificationId : Uuid
  call : Option Ledger.CallId
  phase : VerificationPhase

namespace Verification

def next (v : Verification) (phase : VerificationPhase) : Verification := { v with phase }

def path (v : Verification) : String := tempPath v.request.artifactId v.verificationId

/-- The arguments of the ledger call. -/
def recordArgs (v : Verification) (r : VerificationResponse) (now : String) : Ledger.AppendArgs :=
  Ledger.appendVerificationRecord
    (Ledger.Client.appendVerificationRecord v.request.artifactId v.artifact.caseId
      r.verificationResult.text r.originalHash r.currentHash v.request.actor.actorId now)

end Verification

/-- The events of `_write_evidence_event_outbox`. -/
def evidenceEnvelope (request : VerificationRequest) (artifact : Artifact)
    (eventType routingKey reason : String) (eventId : Uuid) (timestamp : String) :
    Custody.Envelope where
  eventId := eventId
  eventType := eventType
  routingKey := routingKey
  artifactId := request.artifactId
  caseId := some artifact.caseId
  actorId := request.actor.actorId
  actorRole := request.actor.actorRole
  timestamp := timestamp
  correlationId := request.correlationId.str
  reason := reason
  payload := [("ip_address", Custody.nullOr request.ipAddress)]

def requestedEnvelope (v : Verification) (eventId : Uuid) (timestamp : String) : Custody.Envelope :=
  evidenceEnvelope v.request v.artifact "VerificationRequested"
    "forensicchain.verification.requested" "Integrity verification requested" eventId timestamp

/-- The event of `_write_verification_outbox`. -/
def outcomeEnvelope (v : Verification) (r : VerificationResponse) (ledgerRecordId : String)
    (eventId : Uuid) (timestamp : String) : Custody.Envelope where
  eventId := eventId
  eventType :=
    if r.verificationResult = .valid then "VerificationPassed" else "VerificationFailed"
  routingKey :=
    if r.verificationResult = .valid then "forensicchain.verification.passed"
    else "forensicchain.verification.failed"
  artifactId := v.request.artifactId
  caseId := some v.artifact.caseId
  actorId := v.request.actor.actorId
  actorRole := v.request.actor.actorRole
  timestamp := timestamp
  correlationId := v.request.correlationId.str
  reason := "Artifact integrity verified — result: " ++ r.verificationResult.text
  payload := [
    ("verification_result", .str r.verificationResult.text),
    ("original_hash", .str r.originalHash),
    ("current_hash", .str r.currentHash),
    ("ledger_record_id", .str ledgerRecordId),
    ("ip_address", Custody.nullOr v.request.ipAddress)]

/-- What the ledger service reads: its committed rows, or an exception of its database. -/
def ReadsLedger (w : World) (db : Except String (List Ledger.LedgerRecord)) : Prop :=
  ∀ records, db = .ok records → records = w.ledger.records

/-- An event is written and committed, or the failure is logged. -/
def Emits (w : World) (env : Custody.Envelope) (w' : World) : Prop :=
  w' = w.addEvent env ∨ w' = w

inductive VerificationAction
  | announce
  | openFile
  | copyChunk (chunk : List UInt8)
  | closeFile
  | copyRaised (left : Option (List UInt8))
  | recompute (blocks : List (List UInt8))
  | recomputeFailed (error : String)
  | fetch (db : Except String (List Ledger.LedgerRecord))
  | fetchFailed (error : String)
  | check
  | checkFailed (error : String)
  | validate (db : Except String (List Ledger.LedgerRecord))
  | validateFailed (error : String)
  | record (call : Ledger.CallId) (now : String)
  | recorded
  | recordFailed
  | report
  | clean
  | cleanRaised
  | stop

inductive VerificationStep (keys : HashSign.Signer) (w : World) (v : Verification) :
    VerificationAction → World → Verification → Prop
  | announce {w'} (eventId : Uuid) (timestamp : String) (hp : v.phase = .announcing)
      (hw : Emits w (requestedEnvelope v eventId timestamp) w') :
      VerificationStep keys w v .announce w' (v.next .opening)
  | openFile (hp : v.phase = .opening) :
      VerificationStep keys w v .openFile (w.setFile v.path (some []))
        (v.next (.copying v.request.content))
  | copyChunk {chunk rest written} (hp : v.phase = .copying (chunk ++ rest)) (hc : chunk ≠ [])
      (hl : chunk.length ≤ 1024 * 1024) (hf : w.files v.path = some written) :
      VerificationStep keys w v (.copyChunk chunk) (w.setFile v.path (some (written ++ chunk)))
        (v.next (.copying rest))
  | closeFile (hp : v.phase = .copying []) :
      VerificationStep keys w v .closeFile w (v.next .hashing)
  | copyRaised (left : Option (List UInt8))
      (hp : v.phase = .opening ∨ ∃ rest, v.phase = .copying rest) :
      VerificationStep keys w v (.copyRaised left) (w.setFile v.path left)
        (v.next (.cleaning (.error internalServerError)))
  | recompute {bytes blocks} (hp : v.phase = .hashing) (hf : w.files v.path = some bytes)
      (hb : HashSign.Reads 65536 bytes blocks) :
      VerificationStep keys w v (.recompute blocks) w
        (v.next (.fetching (HashSign.hexdigest blocks)))
  | recomputeFailed (error : String) (hp : v.phase = .hashing) :
      VerificationStep keys w v (.recomputeFailed error) w
        (v.next (.cleaning (.error ⟨503, "Hash recomputation failed: " ++ error⟩)))
  | fetch {currentHash proof} (db : Except String (List Ledger.LedgerRecord))
      (hp : v.phase = .fetching currentHash) (hdb : ReadsLedger w db)
      (hr : proofData (Ledger.getProofByArtifactId db v.request.artifactId) = .ok proof) :
      VerificationStep keys w v (.fetch db) w (v.next (.checking currentHash proof))
  | fetchFailed {currentHash} (error : String) (hp : v.phase = .fetching currentHash) :
      VerificationStep keys w v (.fetchFailed error) w
        (v.next (.cleaning (.error ⟨404, "Failed to fetch proof: " ++ error⟩)))
  | check {currentHash proof} (hp : v.phase = .checking currentHash proof) :
      VerificationStep keys w v .check w (v.next (.validating currentHash proof
        (keys.verifySignature proof.hashValue proof.signatureValue)))
  | checkFailed {currentHash proof} (error : String) (hp : v.phase = .checking currentHash proof) :
      VerificationStep keys w v (.checkFailed error) w
        (v.next (.cleaning (.error ⟨503, "Signature verification failed: " ++ error⟩)))
  /-- An answer of the ledger counts as a verdict, whatever its error message says. -/
  | validate {currentHash proof isSigValid} (db : Except String (List Ledger.LedgerRecord))
      (hp : v.phase = .validating currentHash proof isSigValid) (hdb : ReadsLedger w db) :
      VerificationStep keys w v (.validate db) w (v.next (.recording {
        artifactId := v.request.artifactId
        verificationResult := determineResult
          (Ledger.validateLedgerChain db v.artifact.caseId).chainValid isSigValid currentHash
          proof.hashValue
        originalHash := proof.hashValue
        currentHash
        signatureValid := isSigValid
        ledgerChainValid := (Ledger.validateLedgerChain db v.artifact.caseId).chainValid }))
  | validateFailed {currentHash proof isSigValid} (error : String)
      (hp : v.phase = .validating currentHash proof isSigValid) :
      VerificationStep keys w v (.validateFailed error) w
        (v.next (.cleaning (.error ⟨503, "Ledger validation check failed: " ++ error⟩)))
  | record {call now r l} (hp : v.phase = .recording r)
      (hl : Ledger.Step w.ledger (.start call (v.recordArgs r now)) l) :
      VerificationStep keys w v (.record call now) (w.setLedger l)
        { v.next (.awaiting r) with call := some call }
  | recorded {call c r response} (hp : v.phase = .awaiting r) (hv : v.call = some call)
      (hc : w.ledger.calls call = some c) (hr : c.response = some response)
      (hs : response.success = true) :
      VerificationStep keys w v .recorded w (v.next (.reporting r response.recordId))
  /-- The record is best-effort; the ledger may still commit it. -/
  | recordFailed {r} (hp : v.phase = .recording r ∨ v.phase = .awaiting r) :
      VerificationStep keys w v .recordFailed w (v.next (.reporting r ""))
  | report {r ledgerRecordId w'} (eventId : Uuid) (timestamp : String)
      (hp : v.phase = .reporting r ledgerRecordId)
      (hw : Emits w (outcomeEnvelope v r ledgerRecordId eventId timestamp) w') :
      VerificationStep keys w v .report w' (v.next (.cleaning (.ok r)))
  /-- The `finally` block. -/
  | clean {answer} (hp : v.phase = .cleaning answer) :
      VerificationStep keys w v .clean (w.setFile v.path none) (v.next (.responded answer))
  | cleanRaised {answer} (hp : v.phase = .cleaning answer) :
      VerificationStep keys w v .cleanRaised w
        (v.next (.responded (.error internalServerError)))
  | stop : VerificationStep keys w v .stop w (v.next .stopped)

end ForensicChain.Evidence
