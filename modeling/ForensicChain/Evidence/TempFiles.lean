import ForensicChain.Evidence.System
import ForensicChain.Library.FileTree
import ForensicChain.Library.Table

/-!
The temporary files of `verify_evidence` under `STORAGE_BASE/tmp`. A step of a request is what the
event loop runs of it between two awaits. The `finally` block awaits nothing, so that it is part of
the step that ends the request.
-/
namespace ForensicChain.Evidence

/-- `STORAGE_BASE/tmp`, with a directory for each artifact that is being verified. -/
abbrev TempTree := FileTree String String (List UInt8)

/-- The calls that are awaited once the file is written. -/
inductive RemoteCall
  | recomputeHash
  | getProofByArtifact
  | verifySignature
  | validateLedgerChain
  | appendVerificationRecord

def RemoteCall.next : RemoteCall → Option RemoteCall
  | .recomputeHash => some .getProofByArtifact
  | .getProofByArtifact => some .verifySignature
  | .verifySignature => some .validateLedgerChain
  | .validateLedgerChain => some .appendVerificationRecord
  | .appendVerificationRecord => none

/-- How a request ends; `missing` is that its own directory or file was not there. -/
inductive Ending
  | answered
  | raised
  | cancelled
  | missing

/-- Where a request waits; what it has read is in its file or still in the buffer of the file. -/
inductive TempPhase
  | authorizing
  | reading (buffered rest : List UInt8)
  | calling (call : RemoteCall)
  | ended (ending : Ending)

structure TempRequest where
  artifactId : String
  verificationId : Uuid
  content : List UInt8
  phase : TempPhase

namespace TempRequest

def next (q : TempRequest) (phase : TempPhase) : TempRequest := { q with phase }

/-- The directory is named as the artifact is in the URL. -/
def tempDir (q : TempRequest) : String := q.artifactId

def fileName (q : TempRequest) : String := q.verificationId.str ++ ".bin"

/-- `os.makedirs(temp_dir, exist_ok=True)`. -/
def makeDir (q : TempRequest) (t : TempTree) : TempTree := t.makedirs q.tempDir

/-- `open(temp_path, "wb")`; `none` is a FileNotFoundError. -/
def openFile (q : TempRequest) (t : TempTree) : Option TempTree := t.write q.tempDir q.fileName []

/-- Bytes that reach the open file; they are seen as long as the file has its name. -/
def append (q : TempRequest) (t : TempTree) (bytes : List UInt8) : TempTree :=
  t.modify q.tempDir q.fileName (· ++ bytes)

/-- What `temp_path` names. -/
def file (q : TempRequest) (t : TempTree) : Option (List UInt8) := t.read q.tempDir q.fileName

/-- The `finally` block: the file is removed if it exists, and an error of `rmdir` is ignored. -/
def cleanUp (q : TempRequest) (t : TempTree) : TempTree := t.prune q.tempDir q.fileName

/-- The request is past `open` and before its `finally`. -/
def HasFile (q : TempRequest) : Prop :=
  (∃ buffered rest, q.phase = .reading buffered rest) ∨ ∃ call, q.phase = .calling call

def InProgress (q : TempRequest) : Prop := ∀ ending, q.phase ≠ .ended ending

end TempRequest

inductive TempAction
  | refuse
  | openFile
  | openRaised
  | write (chunk flushed : List UInt8)
  | closeFile
  | returned
  | answer
  | fileMissing
  | raised
  | cancelled

inductive TempStep (t : TempTree) (q : TempRequest) : TempAction → TempTree → TempRequest → Prop
  /-- An exception or a cancellation before the directory is made. -/
  | refuse {ending} (hp : q.phase = .authorizing) (he : ending = .raised ∨ ending = .cancelled) :
      TempStep t q .refuse t (q.next (.ended ending))
  | openFile {u} (hp : q.phase = .authorizing) (hw : q.openFile (q.makeDir t) = some u) :
      TempStep t q .openFile u (q.next (.reading [] q.content))
  | openMissing (hp : q.phase = .authorizing) (hw : q.openFile (q.makeDir t) = none) :
      TempStep t q .openFile (q.cleanUp (q.makeDir t)) (q.next (.ended .missing))
  | openRaised (hp : q.phase = .authorizing) :
      TempStep t q .openRaised (q.cleanUp (q.makeDir t)) (q.next (.ended .raised))
  /-- The buffer may keep a part of what is written. -/
  | write {buffered rest chunk flushed kept} (hp : q.phase = .reading buffered (chunk ++ rest))
      (hc : chunk ≠ []) (hl : chunk.length ≤ 1024 * 1024)
      (hb : buffered ++ chunk = flushed ++ kept) :
      TempStep t q (.write chunk flushed) (q.append t flushed) (q.next (.reading kept rest))
  | closeFile {buffered} (hp : q.phase = .reading buffered []) :
      TempStep t q .closeFile (q.append t buffered) (q.next (.calling .recomputeHash))
  /-- A call has returned, and the next one is awaited; the first of them reads the file. -/
  | returned {call next} (hp : q.phase = .calling call) (hn : call.next = some next)
      (hf : call = .recomputeHash → ∃ bytes, q.file t = some bytes) :
      TempStep t q .returned t (q.next (.calling next))
  | answer {call} (hp : q.phase = .calling call) (hn : call.next = none) :
      TempStep t q .answer (q.cleanUp t) (q.next (.ended .answered))
  | fileMissing (hp : q.phase = .calling .recomputeHash) (hf : q.file t = none) :
      TempStep t q .fileMissing (q.cleanUp t) (q.next (.ended .missing))
  | raised (hp : q.HasFile) : TempStep t q .raised (q.cleanUp t) (q.next (.ended .raised))
  | cancelled (hp : q.HasFile) : TempStep t q .cancelled (q.cleanUp t) (q.next (.ended .cancelled))

structure TempState where
  tree : TempTree
  requests : RequestId → Option TempRequest

inductive TempEvent
  | arrive (i : RequestId)
  | resume (i : RequestId) (a : TempAction)

def TempEvent.requestId : TempEvent → RequestId
  | .arrive i | .resume i _ => i

def TempState.setRequest (s : TempState) (i : RequestId) (q : TempRequest) : TempState :=
  { s with requests := Function.update s.requests i (some q) }

/-- Requests come at any time and are resumed in any order; `uuid4` values are fresh. -/
inductive TempEventStep : TempState → TempEvent → TempState → Prop
  | arrive {s i verificationId} {artifactId : String} {artifactUuid : Uuid} (content : List UInt8)
      (hi : s.requests i = none) (ha : Uuid.parse artifactId = some artifactUuid)
      (hf : ∀ j q, s.requests j = some q → q.verificationId ≠ verificationId) :
      TempEventStep s (.arrive i)
        (s.setRequest i ⟨artifactId, verificationId, content, .authorizing⟩)
  | resume {s i q a t q'} (hq : s.requests i = some q) (hs : TempStep s.tree q a t q') :
      TempEventStep s (.resume i a) (TempState.setRequest ⟨t, s.requests⟩ i q')

/-- No directory and no request. -/
def tempSystem : TransitionSystem TempState TempEvent where
  init s := s.tree = ∅ ∧ ∀ i, s.requests i = none
  step := TempEventStep

end ForensicChain.Evidence
