import ForensicChain.Ledger.Models
import ForensicChain.Reports.Requests

/-!
One run of `generate_report`, call by call. The file, the ledger entry, the row and the event are
written one after the other. Only an exception of `build_report` removes anything again, and it
looks for the file under a path of its own.
-/
namespace ForensicChain.Reports

/-- The root that `PurePosixPath` keeps of a path. -/
def pathRoot : List Char → List Char
  | '/' :: '/' :: '/' :: _ => ['/']
  | '/' :: '/' :: _ => ['/', '/']
  | '/' :: _ => ['/']
  | _ => []

/-- Its parts: neither empty ones nor dots. -/
def pathParts (path : List Char) : List (List Char) :=
  (path.splitOn '/').filter fun part => part ≠ [] && part ≠ ['.']

/-- `str(Path(directory) / name)`. -/
def pathChild (directory name : String) : String :=
  String.ofList (pathRoot directory.toList ++
    List.intercalate ['/'] (pathParts directory.toList ++ [name.toList]))

inductive Raised
  | http (error : HttpError)
  | other (text : String)

/-- A write returns, or it raises before or after it has taken effect. -/
inductive WriteOutcome
  | returns
  | raises (tookEffect : Bool) (text : String)

/-- `write_bytes` returns, or it raises and has left a part of the content, or no file. -/
inductive FileOutcome
  | returns
  | raises (left : Option (List UInt8)) (text : String)

/-- What the template is rendered with. -/
structure ReportData where
  reportId : String
  generatedBy : String
  generatedAt : String
  artifact : Json
  ledger : Option Json
  timeline : Json
  ledgerValidation : Option Json
  ledgerRecords : Option Json

/-- The arguments of `append_report_proof`. -/
structure ReportProof where
  reportId : String
  caseId : Json
  reportHash : String
  generatedBy : String
  generatedAt : String

/-- The request, the configuration, and the values that the run draws. -/
structure Generation where
  artifactId : String
  actor : Actor
  corrId : String
  ipAddress : Option String
  /-- `REPORT_STORAGE_PATH`. -/
  reportStoragePath : String
  /-- The file that the operating system finds under a path. -/
  locate : String → String
  reportId : Uuid
  startedAt : String
  generatedAt : Timestamp
  eventId : Uuid
  publishedAt : String

/-- What the calls of the run do, whether or not it comes to them. -/
structure Calls where
  caseId : Option String
  assigned : List String
  artifact : Except Raised Json
  /-- `int` of a value of the answer. -/
  int : Json → Except String JsonNumber
  /-- The error of a lookup in an answer that is no object. -/
  noObject : Json → String
  proof : Except Raised (Option Json)
  timeline : Except Raised Json
  validation : Except Raised Json
  records : Except Raised Json
  /-- The template, and `write_pdf`. -/
  render : ReportData → Except String (List UInt8)
  mkdir : Except String Unit
  writeBytes : FileOutcome
  /-- The client turns the errors of the call into an answer; the thread may still fail. -/
  appendReportProof : ReportProof → Except String (Bool × String × String)
  existsCandidate : Except String Unit
  unlink : WriteOutcome
  /-- The round trip of the flush; what the table refuses comes on top of it. -/
  flush : Except String Unit
  commit : WriteOutcome
  refresh : Except String Unit
  publish : WriteOutcome

/-- The stores, the transaction that is open, and what the exchange has taken. -/
structure Stores where
  world : World
  session : Option Report
  published : List Custody.Envelope

namespace Stores

def setFile (s : Stores) (file : String) (content : Option (List UInt8)) : Stores :=
  { s with world := s.world.setFile file content }

def commit (s : Stores) : Stores :=
  { s with world := { s.world with rows := s.world.rows ++ s.session.toList }, session := none }

def publish (s : Stores) (env : Custody.Envelope) : Stores :=
  { s with published := s.published ++ [env] }

end Stores

namespace Generation

/-- Where `build_report` writes the file. -/
def storagePath (g : Generation) : String :=
  pathChild g.reportStoragePath (g.reportId.str ++ ".pdf")

/-- Where the `except` block looks for it. -/
def candidate (g : Generation) : String := Reports.storagePath g.reportId

def request (g : Generation) : ReportRequest :=
  .start (.generate g.artifactId) g.actor g.corrId g.ipAddress

end Generation

abbrev Run := EStateM Raised Stores

def ofCall {α : Type} : Except String α → Run α
  | .ok a => pure a
  | .error text => throw (.other text)

def ofFetch {α : Type} : Except Raised α → Run α
  | .ok a => pure a
  | .error e => throw e

def WriteOutcome.perform (o : WriteOutcome) (effect : Stores → Stores) : Run Unit :=
  match o with
  | .returns => modify effect
  | .raises true text => do
    modify effect
    throw (.other text)
  | .raises false text => throw (.other text)

def FileOutcome.perform (o : FileOutcome) (file : String) (content : List UInt8) : Run Unit :=
  match o with
  | .returns => modify (·.setFile file (some content))
  | .raises (some left) text => do
    modify (·.setFile file (some left))
    throw (.other text)
  | .raises none text => throw (.other text)

/-- `artifact["file_size"] = int(artifact["file_size"])`, if the key is there. -/
def readFileSize (c : Calls) : Json → Except Raised Json
  | .obj members =>
    match (Json.obj members).field? "file_size" with
    | none => .ok (.obj members)
    | some size =>
      match c.int size with
      | .ok n =>
        .ok (.obj (members.map fun kv => if kv.1 = "file_size" then (kv.1, .num n) else kv))
      | .error text => .error (.other text)
  | answer => .error (.other (c.noObject answer))

/-- The values that count as false. -/
def isFalsy : Json → Bool
  | .null => true
  | .bool b => !b
  | .num n => (n.text.takeWhile fun c => c ≠ 'e' && c ≠ 'E').all fun c => !('1' ≤ c && c ≤ '9')
  | .str s => s = ""
  | .arr items => items.isEmpty
  | .obj members => members.isEmpty

/-- `artifact.get("case_id") or ""`. -/
def artifactCase (artifact : Json) : Json :=
  let caseId := (artifact.field? "case_id").getD .null
  if isFalsy caseId then .str "" else caseId

/-- The answers of the three services; the validation and the records are best-effort. -/
def fetchData (g : Generation) (c : Calls) : Except Raised ReportData := do
  let artifact ← readFileSize c (← c.artifact)
  let ledger ← c.proof
  let timeline ← c.timeline
  let withCase := !isFalsy (artifactCase artifact)
  return {
    reportId := g.reportId.str
    generatedBy := g.actor.actorId
    generatedAt := g.startedAt
    artifact
    ledger
    timeline
    ledgerValidation := if withCase then c.validation.toOption else none
    ledgerRecords := if withCase then c.records.toOption else none }

/-- The arguments of the ledger entry. -/
def reportProof (g : Generation) (data : ReportData) (reportHash : String) : ReportProof where
  reportId := g.reportId.str
  caseId := artifactCase data.artifact
  reportHash := reportHash
  generatedBy := g.actor.actorId
  generatedAt := g.startedAt

def buildReport (g : Generation) (c : Calls) : Run (List UInt8 × String × String) := do
  let data ← ofFetch (fetchData g c)
  let pdf ← ofCall (c.render data)
  ofCall c.mkdir
  c.writeBytes.perform (g.locate g.storagePath) pdf
  let _ ← ofCall (c.appendReportProof (reportProof g data (sha256 pdf)))
  return (pdf, sha256 pdf, g.storagePath)

/-- The cleanup of the `except` block. -/
def removeCandidate (g : Generation) (c : Calls) : Run Unit := do
  ofCall c.existsCandidate
  if ((← get).world.files (g.locate g.candidate)).isSome then
    c.unlink.perform (·.setFile (g.locate g.candidate) none)

/-- `build_report` with its `except` blocks. -/
def buildOrClean (g : Generation) (c : Calls) : Run (List UInt8 × String × String) :=
  tryCatch (buildReport g c) fun
    | .http error => throw (.http error)
    | .other text => do
      removeCandidate g c
      throw (.http ⟨503, "Report generation failed: " ++ text⟩)

/-- `insert_report`: the row is flushed, and stays in the transaction. -/
def flushReport (g : Generation) (c : Calls) (caseId reportHash path : String) : Run Report := do
  ofCall c.flush
  match insertReport g.reportId g.artifactId caseId g.actor.actorId g.generatedAt reportHash path
      g.corrId with
  | none => throw (.other "DataError")
  | some report =>
    if ∃ q ∈ (← get).world.rows, q.reportId = report.reportId then throw (.other "IntegrityError")
    modify ({ · with session := some report })
    return report

def generatedEnvelope (g : Generation) (report : Report) : Custody.Envelope :=
  g.request.envelope (generatedAnnouncement g.artifactId report g.ipAddress) g.eventId g.publishedAt

def generateReport (g : Generation) (c : Calls) : Run ReportOut := do
  let caseId := c.caseId.getD ""
  if caseId = "" then throw (.http ⟨404, "Artifact not found"⟩)
  if caseId ∉ c.assigned then throw (.http ⟨403, "Not assigned to this case"⟩)
  let (_, reportHash, path) ← buildOrClean g c
  let report ← flushReport g c caseId reportHash path
  c.commit.perform .commit
  ofCall c.refresh
  c.publish.perform (·.publish (generatedEnvelope g report))
  return reportOut report

/-- The answer of the service; the session is closed. -/
def respond : EStateM.Result Raised Stores ReportOut → Except HttpError ReportOut × Stores
  | .ok out s => (.ok out, { s with session := none })
  | .error (.http error) s => (.error error, { s with session := none })
  | .error (.other _) s => (.error Evidence.internalServerError, { s with session := none })

def serveGenerate (g : Generation) (c : Calls) (s : Stores) :
    Except HttpError ReportOut × Stores :=
  respond ((generateReport g c).run s)

end ForensicChain.Reports
