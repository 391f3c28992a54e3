import ForensicChain.Evidence.System
import ForensicChain.Pipeline.Model
import ForensicChain.Reports.Requests

/-!
The services together. Uploads and verifications run in the evidence collector, whose row reads and
downloads write events as well; the rows of its outbox and what the audit reporter publishes go
through the pipeline into the custody table. A handler commits an event in one transaction with
what it reports, so both parts make that step at once.
-/
namespace ForensicChain.Platform

open Evidence (RequestId Artifact DownloadRequest requestedArtifact)

inductive AccessKind
  | view
  | download

/-- A request for a row or its file, once the row is loaded. -/
structure Access where
  kind : AccessKind
  request : DownloadRequest
  artifact : Artifact

/-- `evidence.world.outbox` lists the events of uploads and verifications, `pipeline.outbox` the
rows of the table. -/
structure State where
  evidence : Evidence.State
  accesses : RequestId → Option Access
  pipeline : Pipeline.State
  reports : Reports.World
  requests : RequestId → Option Reports.ReportRequest

namespace State

def setEvidence (s : State) (evidence : Evidence.State) : State := { s with evidence }

def setPipeline (s : State) (pipeline : Pipeline.State) : State := { s with pipeline }

def setAccess (s : State) (i : RequestId) (a : Option Access) : State :=
  { s with accesses := Function.update s.accesses i a }

def setReports (s : State) (reports : Reports.World) : State := { s with reports }

def setRequest (s : State) (i : RequestId) (r : Reports.ReportRequest) : State :=
  { s with requests := Function.update s.requests i (some r) }

end State

/-- The event that an access writes, if its checks let it through. -/
inductive Accesses (w : Evidence.World) : Access → Custody.Envelope → Prop
  | view {request artifact out env} (assigned : List String) (eventId : Uuid) (timestamp : String)
      (h : Evidence.viewArtifact assigned eventId timestamp request artifact = .ok (out, env)) :
      Accesses w ⟨.view, request, artifact⟩ env
  | download {request artifact file env} (assigned : List String) (eventId : Uuid)
      (timestamp : String)
      (h : Evidence.downloadArtifact w assigned eventId timestamp request artifact =
        .ok (file, env)) :
      Accesses w ⟨.download, request, artifact⟩ env

inductive Action
  | evidence (x : Evidence.Action)
  | load (i : RequestId) (kind : AccessKind) (request : DownloadRequest)
  | access (i : RequestId)
  | endAccess (i : RequestId)
  | pipeline (a : Pipeline.Action)
  | admitReport (i : RequestId)
  | report (i : RequestId) (a : Reports.ReportAction)

inductive Step (fromisoformat : String → Option Timestamp) (keys : HashSign.Signer) :
    State → Action → State → Prop
  | evidence {s x t} (hs : Evidence.Step keys s.evidence x t)
      (ho : t.world.outbox = s.evidence.world.outbox) :
      Step fromisoformat keys s (.evidence x) (s.setEvidence t)
  /-- An event of an upload or a verification becomes a row of the outbox. -/
  | evidenceWrites {s x t env p} (id : Nat) (createdAt : Timestamp)
      (hs : Evidence.Step keys s.evidence x t)
      (ho : t.world.outbox = s.evidence.world.outbox ++ [env])
      (hp : Pipeline.Step fromisoformat s.pipeline
        (.write (Pipeline.outboxRow id env createdAt)) p) :
      Step fromisoformat keys s (.evidence x) ((s.setEvidence t).setPipeline p)
  | load {s i artifact} (kind : AccessKind) (request : DownloadRequest) (hi : s.accesses i = none)
      (ha : requestedArtifact s.evidence.world.artifacts request.artifactId = .ok artifact) :
      Step fromisoformat keys s (.load i kind request)
        (s.setAccess i (some ⟨kind, request, artifact⟩))
  | access {s i a env p} (id : Nat) (createdAt : Timestamp) (hi : s.accesses i = some a)
      (ha : Accesses s.evidence.world a env)
      (hp : Pipeline.Step fromisoformat s.pipeline
        (.write (Pipeline.outboxRow id env createdAt)) p) :
      Step fromisoformat keys s (.access i) ((s.setAccess i none).setPipeline p)
  /-- The access is refused, or its event is not written. -/
  | endAccess {s i} : Step fromisoformat keys s (.endAccess i) (s.setAccess i none)
  /-- The workers, the broker and the consumer go on. -/
  | pipeline {s a p} (ha : Pipeline.Internal a)
      (hp : Pipeline.Step fromisoformat s.pipeline a p) :
      Step fromisoformat keys s (.pipeline a) (s.setPipeline p)
  | admitReport {s i} (call : Reports.ReportCall) (actor : Actor) (corrId : String)
      (ipAddress : Option String) (hi : s.requests i = none) :
      Step fromisoformat keys s (.admitReport i)
        (s.setRequest i (.start call actor corrId ipAddress))
  | report {s i r a w r'} (hi : s.requests i = some r)
      (hs : Reports.ReportStep s.evidence.world.artifacts s.reports r a w none r') :
      Step fromisoformat keys s (.report i a) ((s.setReports w).setRequest i r')
  /-- What the audit reporter publishes reaches the exchange. -/
  | reportPublishes {s i r a w env r' p} (tag : Pipeline.Tag) (hi : s.requests i = some r)
      (hs : Reports.ReportStep s.evidence.world.artifacts s.reports r a w (some env) r')
      (hp : Pipeline.Step fromisoformat s.pipeline (.publishEvent tag env) p) :
      Step fromisoformat keys s (.report i a) (((s.setReports w).setRequest i r').setPipeline p)

/-- Every part is as it starts, and nothing is requested. -/
def Initial (s : State) : Prop :=
  Evidence.Initial s.evidence ∧ (∀ i, s.accesses i = none) ∧ Pipeline.Initial s.pipeline ∧
    s.reports.rows = [] ∧ (∀ path, s.reports.files path = none) ∧ ∀ i, s.requests i = none

def system (fromisoformat : String → Option Timestamp) (keys : HashSign.Signer) :
    TransitionSystem State Action := ⟨Initial, Step fromisoformat keys⟩

variable {fromisoformat : String → Option Timestamp} {keys : HashSign.Signer} {s t : State}
  {x : Action}

/-- The evidence collector does what it does alone. -/
theorem evidence_reachable (h : (system fromisoformat keys).Reachable s) :
    (Evidence.system keys).Reachable s.evidence := by
  induction h with
  | init h => exact .init h.1
  | step _ _ hs ih =>
    cases hs with
    | evidence hs | evidenceWrites _ _ hs => exact ih.step hs
    | _ => exact ih

/-- The pipeline does what it does for any publishers. -/
theorem pipeline_reachable (h : (system fromisoformat keys).Reachable s) :
    (Pipeline.system fromisoformat).Reachable s.pipeline := by
  induction h with
  | init h => exact .init h.2.2.1
  | step _ _ hs ih =>
    cases hs with
    | evidenceWrites _ _ _ _ hp | access _ _ _ _ hp | pipeline _ hp | reportPublishes _ _ _ hp =>
      exact ih.step hp
    | _ => exact ih

end ForensicChain.Platform
