import ForensicChain.Evidence.Upload
import ForensicChain.Reports.Models

/-!
The endpoints of the audit reporter, from one remote call or transaction to the next. Any of these
may raise, before or after its effect, and the process may stop at any point.
-/
namespace ForensicChain.Reports

inductive ReportCall
  | generate (artifactId : String)
  | listByArtifact (artifactId : String)
  | metadata (reportId : String)
  | download (reportId : String)
  | verify (reportId : String)

inductive ReportAnswer
  | generated (out : ReportOut)
  | reports (outs : List ReportOut)
  | metadata (out : ReportOut)
  | file (content : List UInt8) (filename : String)
  | verified (out : ReportVerifyOut)

/-- What `publish_event` is called with, besides the identity of the caller. -/
structure Announcement where
  eventType : String
  routingKey : String
  artifactId : String
  caseId : Option String
  reason : String
  payload : List (String × Json)

/-- Where a request stands: what it does next, and with which values. -/
inductive ReportPhase
  | resolving (artifactId : String)
  | authorising (caseId : String)
  | building (caseId : String)
  | inserting (caseId : String) (reportId : Uuid) (reportHash storagePath : String)
  | listing (caseId : String)
  | loading (reportId : String)
  | checking (report : Report)
  | reading (report : Report)
  | publishing (announcement : Announcement) (answer : ReportAnswer)
  | responded (answer : Except HttpError ReportAnswer)
  | stopped

structure ReportRequest where
  call : ReportCall
  actor : Actor
  corrId : String
  ipAddress : Option String
  assigned : Option (List String)
  phase : ReportPhase

namespace ReportRequest

def next (r : ReportRequest) (phase : ReportPhase) : ReportRequest := { r with phase }

def fail (r : ReportRequest) (statusCode : Nat) (detail : String) : ReportRequest :=
  r.next (.responded (.error ⟨statusCode, detail⟩))

/-- An exception that no handler turns into an answer of its own. -/
def crash (r : ReportRequest) : ReportRequest :=
  r.next (.responded (.error Evidence.internalServerError))

/-- A request comes in. -/
def start (call : ReportCall) (actor : Actor) (corrId : String) (ipAddress : Option String) :
    ReportRequest where
  call := call
  actor := actor
  corrId := corrId
  ipAddress := ipAddress
  assigned := none
  phase := match call with
    | .generate artifactId | .listByArtifact artifactId => .resolving artifactId
    | .metadata reportId | .download reportId | .verify reportId => .loading reportId

def envelope (r : ReportRequest) (n : Announcement) (eventId : Uuid) (timestamp : String) :
    Custody.Envelope :=
  publishedEnvelope eventId timestamp n.artifactId n.caseId r.actor r.corrId n.eventType
    n.routingKey n.reason n.payload

/-- The cases of the caller have come back, and the case is one of them or not. -/
def authorise (r : ReportRequest) (assigned : List String) (caseId : Option String)
    (phase : ReportPhase) : ReportRequest :=
  if CaseIn caseId assigned then { r with assigned := some assigned, phase }
  else { r.fail 403 "Not assigned to this case" with assigned := some assigned }

end ReportRequest

def generatedAnnouncement (artifactId : String) (report : Report) (ipAddress : Option String) :
    Announcement where
  eventType := "ReportGenerated"
  routingKey := "forensicchain.report.generated"
  artifactId := artifactId
  caseId := report.caseId
  reason := "Forensic audit report generated"
  payload := [
    ("report_id", .str report.reportId.str),
    ("report_hash", .str report.reportHash),
    ("report_format", .str "PDF"),
    ("ip_address", Custody.nullOr ipAddress)]

def downloadedAnnouncement (report : Report) (ipAddress : Option String) : Announcement where
  eventType := "ReportDownloaded"
  routingKey := "forensicchain.report.downloaded"
  artifactId := report.artifactId.str
  caseId := report.caseId
  reason := "Report downloaded by user"
  payload := [("ip_address", Custody.nullOr ipAddress)]

def verifiedAnnouncement (report : Report) (out : ReportVerifyOut) (ipAddress : Option String) :
    Announcement where
  eventType := "ReportVerified"
  routingKey := "forensicchain.report.verified"
  artifactId := report.artifactId.str
  caseId := report.caseId
  reason := "Report integrity verification"
  payload := [
    ("report_id", .str out.reportId),
    ("report_valid", .bool out.reportValid),
    ("stored_hash", .str out.storedHash),
    ("current_hash", .str out.currentHash),
    ("ip_address", Custody.nullOr ipAddress)]

def reportVerifyOut (reportId : String) (report : Report) (content : List UInt8)
    (verifiedAt : String) : ReportVerifyOut where
  reportId := reportId
  reportValid := sha256 content = report.reportHash
  storedHash := report.reportHash
  currentHash := sha256 content
  verifiedAt := verifiedAt

/-- What `build_report` or an inserted row leads to, once the case is allowed. -/
def ReportCall.authorised (caseId : String) : ReportCall → ReportPhase
  | .generate _ => .building caseId
  | _ => .listing caseId

/-- What follows `_require_report_case_access`. -/
def ReportCall.granted (report : Report) : ReportCall → ReportPhase
  | .metadata _ => .responded (.ok (.metadata (reportOut report)))
  | _ => .reading report

/-- The file of a report, if it has a path and the file exists. -/
def reportFile (w : World) (report : Report) : Option (List UInt8) :=
  report.storagePath.bind fun path => if path = "" then none else w.files path

/-- The insert of the new report's row. -/
inductive Inserts (w : World) (r : ReportRequest) (artifactId caseId : String) (reportId : Uuid)
    (reportHash path : String) (report : Report) : World → Prop
  | mk (generatedAt : Timestamp)
      (hr : insertReport reportId artifactId caseId r.actor.actorId generatedAt reportHash path
        r.corrId = some report)
      (hk : ∀ q ∈ w.rows, q.reportId ≠ report.reportId) :
      Inserts w r artifactId caseId reportId reportHash path report (w.addReport report)

inductive ReportAction
  | resolve (caseId : Option String)
  | assign (assigned : List String)
  | build (reportId : Uuid) (pdf : List UInt8)
  | buildRaised (error : HttpError)
  | buildFailed (reportId : Uuid) (error : String)
  | insert
  | insertRaised
  | list
  | load
  | read
  | publish
  | publishRaised
  | raised
  | stop

/-- A step over the rows of the evidence collector and the world of the reporter; the event is one
that reaches the exchange. -/
inductive ReportStep (artifacts : List Evidence.Artifact) (w : World) (r : ReportRequest) :
    ReportAction → World → Option Custody.Envelope → ReportRequest → Prop
  | resolve {artifactId caseId} (hp : r.phase = .resolving artifactId)
      (hc : ArtifactCaseId artifacts artifactId (some caseId)) (hne : caseId ≠ "") :
      ReportStep artifacts w r (.resolve (some caseId)) w none (r.next (.authorising caseId))
  | resolveMissing {artifactId caseId} (hp : r.phase = .resolving artifactId)
      (hc : ArtifactCaseId artifacts artifactId caseId) (hne : caseId = none ∨ caseId = some "") :
      ReportStep artifacts w r (.resolve caseId) w none (r.fail 404 "Artifact not found")
  | assign {caseId} (assigned : List String) (hp : r.phase = .authorising caseId) :
      ReportStep artifacts w r (.assign assigned) w none
        (r.authorise assigned (some caseId) (r.call.authorised caseId))
  /-- The three services have answered, and the file is written; the ledger entry is
  best-effort. -/
  | build {caseId} (reportId : Uuid) (pdf : List UInt8) (hp : r.phase = .building caseId) :
      ReportStep artifacts w r (.build reportId pdf) (w.setFile (storagePath reportId) (some pdf))
        none (r.next (.inserting caseId reportId (sha256 pdf) (storagePath reportId)))
  | buildRaised {caseId} (error : HttpError) (hp : r.phase = .building caseId) :
      ReportStep artifacts w r (.buildRaised error) w none (r.next (.responded (.error error)))
  | buildFailed {caseId} (reportId : Uuid) (error : String) (hp : r.phase = .building caseId) :
      ReportStep artifacts w r (.buildFailed reportId error)
        (w.setFile (storagePath reportId) none) none
        (r.fail 503 ("Report generation failed: " ++ error))
  | insert {artifactId caseId reportId reportHash path report w'}
      (hp : r.phase = .inserting caseId reportId reportHash path)
      (hc : r.call = .generate artifactId)
      (hw : Inserts w r artifactId caseId reportId reportHash path report w') :
      ReportStep artifacts w r .insert w' none
        (r.next (.publishing (generatedAnnouncement artifactId report r.ipAddress)
          (.generated (reportOut report))))
  /-- The transaction raises, or the refresh after it. -/
  | insertRaised {artifactId caseId reportId reportHash path report w'}
      (hp : r.phase = .inserting caseId reportId reportHash path)
      (hc : r.call = .generate artifactId)
      (hw : w' = w ∨ Inserts w r artifactId caseId reportId reportHash path report w') :
      ReportStep artifacts w r .insertRaised w' none r.crash
  | list {artifactId caseId found} (hp : r.phase = .listing caseId)
      (hc : r.call = .listByArtifact artifactId)
      (hf : GetReportsByArtifact w.rows artifactId found) :
      ReportStep artifacts w r .list w none
        (r.next (.responded (.ok (.reports (found.map reportOut)))))
  | load {reportId report} (hp : r.phase = .loading reportId)
      (hr : getReport w.rows reportId = some (some report)) :
      ReportStep artifacts w r .load w none (r.next (.checking report))
  | loadMissing {reportId} (hp : r.phase = .loading reportId)
      (hr : getReport w.rows reportId = some none) :
      ReportStep artifacts w r .load w none (r.fail 404 "Report not found")
  | check {report} (assigned : List String) (hp : r.phase = .checking report) :
      ReportStep artifacts w r (.assign assigned) w none
        (r.authorise assigned report.caseId (r.call.granted report))
  | readDownload {reportId report content} (hp : r.phase = .reading report)
      (hc : r.call = .download reportId) (hf : reportFile w report = some content) :
      ReportStep artifacts w r .read w none
        (r.next (.publishing (downloadedAnnouncement report r.ipAddress)
          (.file content ("report-" ++ reportId ++ ".pdf"))))
  | readVerify {reportId report content} (verifiedAt : String) (hp : r.phase = .reading report)
      (hc : r.call = .verify reportId) (hf : reportFile w report = some content) :
      ReportStep artifacts w r .read w none
        (r.next (.publishing
          (verifiedAnnouncement report (reportVerifyOut reportId report content verifiedAt)
            r.ipAddress)
          (.verified (reportVerifyOut reportId report content verifiedAt))))
  | readMissing {report} (hp : r.phase = .reading report) (hf : reportFile w report = none) :
      ReportStep artifacts w r .read w none (r.fail 404 "Report file not found on storage")
  | publish {n answer} (eventId : Uuid) (timestamp : String) (hp : r.phase = .publishing n answer) :
      ReportStep artifacts w r .publish w (some (r.envelope n eventId timestamp))
        (r.next (.responded (.ok answer)))
  /-- The exception may come after the broker has stored the message. -/
  | publishRaised {n answer event} (hp : r.phase = .publishing n answer)
      (he : ∀ env, event = some env → ∃ eventId timestamp, env = r.envelope n eventId timestamp) :
      ReportStep artifacts w r .publishRaised w event r.crash
  /-- A query or a read raises. -/
  | raised (hp : (∃ caseId, r.phase = .listing caseId) ∨ (∃ reportId, r.phase = .loading reportId) ∨
      ∃ report, r.phase = .reading report) :
      ReportStep artifacts w r .raised w none r.crash
  | stop : ReportStep artifacts w r .stop w none (r.next .stopped)

end ForensicChain.Reports
