import ForensicChain.Evidence.World
import ForensicChain.HashSign.Servicer
import ForensicChain.Ledger.Client

/-!
`upload_evidence`, statement by statement. The file, the artifact row and the ledger record live in
three systems; every statement may raise, before or after its effect, and the process may stop at
any point.
-/
namespace ForensicChain.Evidence

structure UploadRequest where
  actor : Actor
  ipAddress : Option String
  correlationId : Uuid
  fileName : String
  content : List UInt8
  caseId : String
  artifactType : String
  description : Option String

/-- The 201 answer. -/
structure UploadResponse where
  artifactId : String
  caseId : String
  fileName : String
  fileSize : Nat
  hashValue : Option String
  hashAlgorithm : Option String
  signatureValue : Option String
  ledgerRecordId : Option String
  status : ArtifactStatus
  deriving DecidableEq

def uploadResponse (a : Artifact) : UploadResponse where
  artifactId := a.artifactId.str
  caseId := a.caseId
  fileName := a.fileName
  fileSize := a.fileSize
  hashValue := a.hashValue
  hashAlgorithm := a.hashAlgorithm
  signatureValue := a.signatureValue
  ledgerRecordId := a.ledgerRecordId.map Uuid.str
  status := a.status

/-- Where a request stands: what it does next, and with which values. -/
inductive UploadPhase
  | opening
  | writing (rest : List UInt8) (fileSize : Nat)
  | saving (fileSize : Nat)
  | refreshing
  | hashing
  | hashed (hashValue hashAlgorithm signatureValue : String)
  | appending (hashValue hashAlgorithm signatureValue : String)
  | finalizing (hashValue hashAlgorithm signatureValue ledgerRecordId : String)
  | answering
  | rejecting (removes : Bool) (error : HttpError)
  | removing (error : HttpError)
  | responded (answer : Except HttpError UploadResponse)
  | stopped

/-- A request that was let through, with its new artifact id and its ledger call. -/
structure Upload where
  request : UploadRequest
  artifactId : Uuid
  call : Option Ledger.CallId
  phase : UploadPhase

namespace Upload

def next (u : Upload) (phase : UploadPhase) : Upload := { u with phase }

def path (u : Upload) : String := storagePath u.artifactId

open Postgres in
/-- The row that is inserted, as its columns keep it. -/
def pendingRow (u : Upload) (fileSize : Nat) : Option Artifact := do
  guard (fileSize < 2 ^ 63)
  some {
    artifactId := u.artifactId
    caseId := ← varchar 64 u.request.caseId
    fileName := ← varchar 512 u.request.fileName
    fileSize
    artifactType := ← varchar 64 u.request.artifactType
    storagePath := ← varchar 1024 u.path
    description := ← nullable text u.request.description
    uploadedBy := ← varchar 64 u.request.actor.actorId
    status := .pending
    hashValue := none
    hashAlgorithm := none
    signatureValue := none
    ledgerRecordId := none
    correlationId := some u.request.correlationId }

/-- The arguments of the ledger call. -/
def proofArgs (u : Upload) (hashValue signatureValue now : String) : Ledger.AppendArgs :=
  Ledger.appendProofRecord
    (Ledger.Client.appendProof u.artifactId.str u.request.caseId hashValue signatureValue now)

end Upload

open Postgres in
/-- The row once it is marked as ingested. -/
def Artifact.ingest (a : Artifact)
    (hashValue hashAlgorithm signatureValue ledgerRecordId : String) : Option Artifact := do
  some { a with
    hashValue := some (← varchar 256 hashValue)
    hashAlgorithm := some (← varchar 32 hashAlgorithm)
    signatureValue := some (← text signatureValue)
    ledgerRecordId := some (← Uuid.parse ledgerRecordId)
    status := .ingested }

/-- The `EvidenceIngested` event. -/
def ingestedEnvelope (u : Upload) (a : Artifact) (eventId : Uuid) (timestamp : String) :
    Custody.Envelope where
  eventId := eventId
  eventType := "EvidenceIngested"
  routingKey := "forensicchain.evidence.ingested"
  artifactId := a.artifactId.str
  caseId := some a.caseId
  actorId := u.request.actor.actorId
  actorRole := u.request.actor.actorRole
  timestamp := timestamp
  correlationId := u.request.correlationId.str
  reason := "Initial evidence ingestion"
  payload := [
    ("file_name", .str a.fileName),
    ("file_size", .num (.ofNat a.fileSize)),
    ("artifact_type", .str a.artifactType),
    ("hash_algorithm", Custody.nullOr a.hashAlgorithm),
    ("hash_value", Custody.nullOr a.hashValue),
    ("ledger_record_id", .str ((a.ledgerRecordId.map Uuid.str).getD "None")),
    ("ip_address", Custody.nullOr u.request.ipAddress)]

/-- The insert of the row. -/
inductive Saves (w : World) (u : Upload) (fileSize : Nat) : World → Prop
  | mk {a : Artifact} (ha : u.pendingRow fileSize = some a)
      (hk : ∀ b ∈ w.artifacts, b.artifactId ≠ a.artifactId) :
      Saves w u fileSize (w.addArtifact a)

/-- The row becomes `INGESTED` and its event is written. -/
inductive Finalizes (w : World) (u : Upload)
    (hashValue hashAlgorithm signatureValue ledgerRecordId : String) : World → Prop
  | mk {a b : Artifact} (eventId : Uuid) (timestamp : String) (ha : a ∈ w.artifacts)
      (hid : a.artifactId = u.artifactId)
      (hb : a.ingest hashValue hashAlgorithm signatureValue ledgerRecordId = some b)
      (he : (ingestedEnvelope u b eventId timestamp).toJson.hasNul = false) :
      Finalizes w u hashValue hashAlgorithm signatureValue ledgerRecordId
        ((w.updateArtifact b).addEvent (ingestedEnvelope u b eventId timestamp))

/-- The row becomes `INGESTION_FAILED`. -/
inductive Rejects (w : World) (u : Upload) : World → Prop
  | mk {a : Artifact} (ha : a ∈ w.artifacts) (hid : a.artifactId = u.artifactId) :
      Rejects w u (w.updateArtifact { a with status := .ingestionFailed })

inductive UploadAction
  | openFile
  | writeChunk (chunk : List UInt8)
  | closeFile
  | writeRaised (error : String) (left : Option (List UInt8))
  | save
  | saveRaised (error : String)
  | refresh
  | refreshRaised (error : String)
  | sign (blocks : List (List UInt8))
  | signFailed (error : String)
  | append (call : Ledger.CallId) (now : String)
  | appended
  | appendFailed (error : String)
  | finalize
  | finalizeRaised (error : String)
  | answer
  | answerRaised (error : String)
  | reject
  | rejectRaised
  | remove
  | removeRaised (left : Option (List UInt8))
  | stop

/-- The answer when an exception leaves the handler. -/
def internalServerError : HttpError := ⟨500, "Internal Server Error"⟩

inductive UploadStep (keys : HashSign.Signer) (w : World) (u : Upload) :
    UploadAction → World → Upload → Prop
  | openFile (hp : u.phase = .opening) :
      UploadStep keys w u .openFile (w.setFile u.path (some []))
        (u.next (.writing u.request.content 0))
  /-- `f.write(chunk)` of what `file.read(1024 * 1024)` returned. -/
  | writeChunk {chunk rest written fileSize} (hp : u.phase = .writing (chunk ++ rest) fileSize)
      (hc : chunk ≠ []) (hl : chunk.length ≤ 1024 * 1024) (hf : w.files u.path = some written) :
      UploadStep keys w u (.writeChunk chunk) (w.setFile u.path (some (written ++ chunk)))
        (u.next (.writing rest (fileSize + chunk.length)))
  | closeFile {fileSize} (hp : u.phase = .writing [] fileSize) :
      UploadStep keys w u .closeFile w (u.next (.saving fileSize))
  /-- Opening, reading or writing raises, whatever it leaves in the file. -/
  | writeRaised (error : String) (left : Option (List UInt8))
      (hp : u.phase = .opening ∨ ∃ rest fileSize, u.phase = .writing rest fileSize) :
      UploadStep keys w u (.writeRaised error left) (w.setFile u.path left)
        (u.next (.removing ⟨500, "Failed to write file: " ++ error⟩))
  | save {fileSize w'} (hp : u.phase = .saving fileSize) (hw : Saves w u fileSize w') :
      UploadStep keys w u .save w' (u.next .refreshing)
  /-- The commit raises, before or after it takes effect. -/
  | saveRaised {fileSize w'} (error : String) (hp : u.phase = .saving fileSize)
      (hw : w' = w ∨ Saves w u fileSize w') :
      UploadStep keys w u (.saveRaised error) w'
        (u.next (.removing ⟨500, "Failed to save initial artifact metadata: " ++ error⟩))
  | refresh (hp : u.phase = .refreshing) : UploadStep keys w u .refresh w (u.next .hashing)
  | refreshRaised (error : String) (hp : u.phase = .refreshing) :
      UploadStep keys w u (.refreshRaised error) w
        (u.next (.removing ⟨500, "Failed to save initial artifact metadata: " ++ error⟩))
  /-- The hash-sign service reads the file in blocks and answers in time. -/
  | sign {bytes blocks} (hp : u.phase = .hashing) (hf : w.files u.path = some bytes)
      (hb : HashSign.Reads 65536 bytes blocks) :
      UploadStep keys w u (.sign blocks) w
        (u.next (.hashed (HashSign.hexdigest blocks) "SHA-256"
          (keys.signHash (HashSign.hexdigest blocks))))
  | signFailed (error : String) (hp : u.phase = .hashing) :
      UploadStep keys w u (.signFailed error) w
        (u.next (.rejecting true ⟨503, "Hash & Sign failed: " ++ error⟩))
  /-- The request reaches the ledger. -/
  | append {call now hash alg sig l} (hp : u.phase = .hashed hash alg sig)
      (hl : Ledger.Step w.ledger (.start call (u.proofArgs hash sig now)) l) :
      UploadStep keys w u (.append call now) (w.setLedger l)
        { u.next (.appending hash alg sig) with call := some call }
  | appended {call c response hash alg sig} (hp : u.phase = .appending hash alg sig)
      (hu : u.call = some call) (hc : w.ledger.calls call = some c)
      (hr : c.response = some response) (hs : response.success = true) :
      UploadStep keys w u .appended w (u.next (.finalizing hash alg sig response.recordId))
  /-- The call fails, times out or is refused; the ledger may still commit it. -/
  | appendFailed {hash alg sig} (error : String)
      (hp : u.phase = .hashed hash alg sig ∨ u.phase = .appending hash alg sig) :
      UploadStep keys w u (.appendFailed error) w
        (u.next (.rejecting false ⟨503, "Ledger append failed: " ++ error⟩))
  | finalize {hash alg sig record w'} (hp : u.phase = .finalizing hash alg sig record)
      (hw : Finalizes w u hash alg sig record w') :
      UploadStep keys w u .finalize w' (u.next .answering)
  /-- The commit raises, before or after it takes effect. -/
  | finalizeRaised {hash alg sig record w'} (error : String)
      (hp : u.phase = .finalizing hash alg sig record)
      (hw : w' = w ∨ Finalizes w u hash alg sig record w') :
      UploadStep keys w u (.finalizeRaised error) w'
        (u.next (.rejecting false
          ⟨500, "Failed to finalize artifact and outbox event: " ++ error⟩))
  /-- The last refresh succeeds. -/
  | answer {a} (hp : u.phase = .answering) (ha : a ∈ w.artifacts)
      (hid : a.artifactId = u.artifactId) :
      UploadStep keys w u .answer w (u.next (.responded (.ok (uploadResponse a))))
  | answerRaised (error : String) (hp : u.phase = .answering) :
      UploadStep keys w u (.answerRaised error) w
        (u.next (.rejecting false
          ⟨500, "Failed to finalize artifact and outbox event: " ++ error⟩))
  | reject {removes error w'} (hp : u.phase = .rejecting removes error) (hw : Rejects w u w') :
      UploadStep keys w u .reject w'
        (u.next (if removes then .removing error else .responded (.error error)))
  | rejectRaised {removes error w'} (hp : u.phase = .rejecting removes error)
      (hw : w' = w ∨ Rejects w u w') :
      UploadStep keys w u .rejectRaised w' (u.next (.responded (.error internalServerError)))
  /-- `shutil.rmtree(artifact_dir)`. -/
  | remove {error} (hp : u.phase = .removing error) :
      UploadStep keys w u .remove (w.setFile u.path none) (u.next (.responded (.error error)))
  | removeRaised {error} (left : Option (List UInt8)) (hp : u.phase = .removing error) :
      UploadStep keys w u (.removeRaised left) (w.setFile u.path left)
        (u.next (.responded (.error internalServerError)))
  /-- The process ends. -/
  | stop : UploadStep keys w u .stop w (u.next .stopped)

end ForensicChain.Evidence
