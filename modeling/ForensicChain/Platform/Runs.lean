import ForensicChain.Evidence.UploadRun
import ForensicChain.Pipeline.Runs
import ForensicChain.Platform.Cases

/-!
Runs of the services together without a failure: the collector alone, one event from an access to
the custody table, and one report from its request to the answer about it.
-/
namespace ForensicChain.Platform

open Custody
open Evidence (Artifact DownloadRequest RequestId requestedArtifact)
open Reports (CaseIn Report ReportCall ReportRequest casePath_requested casePath_route getReport
  insertReport reportOut storagePath)

variable {fromisoformat : String → Option Timestamp} {keys : HashSign.Signer} {s : State}
  {i : RequestId} {env : Envelope} {ok : State → Action → Prop}

namespace State

@[simp]
theorem setRequest_self (s : State) (i : RequestId) (r : ReportRequest) :
    (s.setRequest i r).requests i = some r := Function.update_self _ _ _

/-- The collector as given, and everything else as at the start. -/
def ofEvidence (evidence : Evidence.State) : State :=
  ⟨evidence, fun _ => none, .empty, ⟨[], fun _ => none⟩, fun _ => none⟩

theorem setAccess_none {a : Access} (hi : s.accesses i = none) :
    (s.setAccess i (some a)).setAccess i none = s := by
  simp only [setAccess, Function.update_idem]
  rw [Function.update_eq_self_iff.mpr hi.symm]

end State

/-- As long as it writes no event, the collector is alone. -/
theorem collector_run_when {e : Evidence.State} (hok : ∀ s x, ok s (.evidence x))
    (h : (Evidence.system keys).Reachable e) (ho : e.world.outbox = []) :
    (system fromisoformat keys).ReachableWhen ok (.ofEvidence e) := by
  induction h with
  | init h =>
    have hpipeline : Pipeline.Initial .empty := ⟨rfl, fun _ => rfl, fun _ => rfl, rfl, rfl⟩
    exact .init ⟨h, fun _ => rfl, hpipeline, rfl, fun _ => rfl, fun _ => rfl⟩
  | @step e e' x _ _ hs ih =>
    rcases hs.outbox with hsame | ⟨env, _, hout⟩
    · exact .step (ih (hsame.symm.trans ho)) (hok _ _) (.evidence hs hsame)
    · simp [hout] at ho

theorem collector_run {e : Evidence.State} (h : (Evidence.system keys).Reachable e)
    (ho : e.world.outbox = []) : (system fromisoformat keys).Reachable (.ofEvidence e) :=
  collector_run_when (fun _ _ => trivial) h ho

/-- The pipeline goes on with the events that it has. -/
theorem pipeline_run {ok : Pipeline.State → Pipeline.Action → Prop} {p : Pipeline.State}
    (h : (system fromisoformat keys).Reachable s) (hok : ∀ q a, ok q a → Pipeline.Internal a)
    (hp : (Pipeline.system fromisoformat).Path ok s.pipeline p) :
    (system fromisoformat keys).Reachable (s.setPipeline p) := by
  induction hp with
  | refl => exact h
  | step _ ha hs ih => exact ih.step (.pipeline (hok _ _ ha) hs)

/-- The event of an access is relayed and stored as the first of the custody table. -/
theorem stored_run {kind : AccessKind} {request : DownloadRequest} {artifact : Artifact}
    {store : Store} (h : (system fromisoformat keys).Reachable s) (hp : s.pipeline = .empty)
    (hi : s.accesses i = none)
    (ha : requestedArtifact s.evidence.world.artifacts request.artifactId = .ok artifact)
    (hacc : Accesses s.evidence.world ⟨kind, request, artifact⟩ env)
    (hstore : processMessage fromisoformat ⟨[], [], []⟩ 1
      (Pipeline.outboxRow 1 env 0).payload.value = some store) :
    ∃ p, (system fromisoformat keys).Reachable (s.setPipeline p) ∧ p.store = store ∧
      p.consumer = .idle ∧ p.broker 1 = none := by
  have hloaded := h.step (.load kind request hi ha)
  let row := Pipeline.outboxRow 1 env 0
  have hwrite : Pipeline.Step fromisoformat
      (s.setAccess i (some ⟨kind, request, artifact⟩)).pipeline (.write row)
      { Pipeline.State.empty with outbox := [row] } := by
    have hpipeline : (s.setAccess i (some ⟨kind, request, artifact⟩)).pipeline = .empty := hp
    rw [hpipeline]
    exact .write row (by simp [Pipeline.State.empty]) (by simp [Pipeline.State.empty]) rfl
  have hwritten := hloaded.step (.access 1 0 (Function.update_self _ _ _) hacc hwrite)
  rw [State.setAccess_none hi] at hwritten
  obtain ⟨p, hpath, hstored⟩ := Pipeline.stored_path rfl hstore
  have hrun := pipeline_run hwritten (fun _ _ => id) hpath
  exact ⟨p, hrun, hstored⟩

/-- A report request comes in. -/
theorem report_start (h : (system fromisoformat keys).Reachable s) (hi : s.requests i = none)
    (call : ReportCall) (actor : Actor) (corrId : String) (ipAddress : Option String) :
    (system fromisoformat keys).Reachable ((s.setReports s.reports).setRequest i
      (.start call actor corrId ipAddress)) :=
  h.step (.admitReport call actor corrId ipAddress hi)

/-- A report request goes on, and publishes nothing. -/
theorem report_next_when {w w' : Reports.World} {r r' : ReportRequest} {a : Reports.ReportAction}
    (h : (system fromisoformat keys).ReachableWhen ok ((s.setReports w).setRequest i r))
    (ha : ok ((s.setReports w).setRequest i r) (.report i a))
    (hs : Reports.ReportStep s.evidence.world.artifacts w r a w' none r') :
    (system fromisoformat keys).ReachableWhen ok ((s.setReports w').setRequest i r') := by
  have hstep := h.step ha (.report (State.setRequest_self _ _ _) hs)
  have hsame : (((s.setReports w).setRequest i r).setReports w').setRequest i r' =
      (s.setReports w').setRequest i r' := by
    simp only [State.setRequest, State.setReports, Function.update_idem]
  rwa [hsame] at hstep

theorem report_next {w w' : Reports.World} {r r' : ReportRequest} {a : Reports.ReportAction}
    (h : (system fromisoformat keys).Reachable ((s.setReports w).setRequest i r))
    (hs : Reports.ReportStep s.evidence.world.artifacts w r a w' none r') :
    (system fromisoformat keys).Reachable ((s.setReports w').setRequest i r') :=
  report_next_when h trivial hs

/-- The report of an artifact is built and inserted. -/
theorem generated_run {actor : Actor} {corrId artifactId caseId : String} {id reportId : Uuid}
    {time : Timestamp} {report : Report} (h : (system fromisoformat keys).Reachable s)
    (hi : s.requests i = none) (ipAddress : Option String)
    (assigned : List String) (pdf : List UInt8) (hid : Postgres.uuid artifactId = some id)
    (hcase : Evidence.getArtifactCase s.evidence.world.artifacts artifactId = .ok caseId)
    (hne : caseId ≠ "") (hin : caseId ∈ assigned)
    (hrow : insertReport reportId artifactId caseId actor.actorId time (sha256 pdf)
      (storagePath reportId) corrId = some report)
    (hnew : ∀ q ∈ s.reports.rows, q.reportId ≠ report.reportId) :
    ∃ r, (system fromisoformat keys).Reachable
      ((s.setReports ((s.reports.setFile (storagePath reportId) (some pdf)).addReport
        report)).setRequest i r) := by
  have hstart := report_start h hi (.generate artifactId) actor corrId ipAddress
  have hresolved := report_next hstart (.resolve rfl
    (.answered (casePath_requested hid) (casePath_route hid) hcase) hne)
  have hassigned := report_next hresolved (.assign assigned rfl)
  have hallowed : CaseIn (some caseId) assigned := ⟨caseId, hin, rfl⟩
  rw [ReportRequest.authorise, if_pos hallowed] at hassigned
  have hbuilt := report_next hassigned (.build reportId pdf rfl)
  exact ⟨_, report_next hbuilt (.insert rfl rfl (.mk time hrow hnew))⟩

/-- The event of a report request is published and stored, and the request is answered. -/
theorem published_run {r : ReportRequest} {n : Reports.Announcement}
    {answer : Reports.ReportAnswer} {eventId : Uuid} {timestamp : String} {tag : Pipeline.Tag}
    {id : Nat} {store : Store} (h : (system fromisoformat keys).Reachable s)
    (hi : s.requests i = some r) (hphase : r.phase = .publishing n answer)
    (ht : s.pipeline.broker tag = none) (hc : s.pipeline.consumer = .idle)
    (hid : ∀ e ∈ s.pipeline.store.events, e.id < id)
    (hstore : processMessage fromisoformat s.pipeline.store id
      (r.envelope n eventId timestamp).toJson = some store) :
    ∃ t, (system fromisoformat keys).Reachable t ∧
      t.requests i = some (r.next (.responded (.ok answer))) ∧ t.pipeline.store = store := by
  have hpublished := h.step (.reportPublishes tag hi (.publish eventId timestamp hphase)
    (.publishEvent _ ht))
  have hconsume := Pipeline.consume_path (s := s.pipeline.put tag
    ⟨(r.envelope n eventId timestamp).toJson, none, .queued⟩) (fun _ _ _ ha => ha) hc
    (Function.update_self _ _ _) rfl hid hstore fun _ _ _ _ => by simp [Pipeline.Internal]
  have hrun := pipeline_run hpublished (fun _ _ ha => ha) hconsume
  exact ⟨_, hrun, Function.update_self _ _ _, rfl⟩

/-- The file of a report is read, and is about to be answered. -/
theorem download_run {reportId : String} {report : Report} {content : List UInt8}
    (h : (system fromisoformat keys).Reachable s) (hi : s.requests i = none) (actor : Actor)
    (corrId : String) (ipAddress : Option String)
    (assigned : List String) (hr : getReport s.reports.rows reportId = some (some report))
    (hin : CaseIn report.caseId assigned)
    (hf : Reports.reportFile s.reports report = some content) :
    ∃ r, (system fromisoformat keys).Reachable ((s.setReports s.reports).setRequest i r) ∧
      r.call = .download reportId ∧ r.actor = actor ∧ r.corrId = corrId ∧
      r.phase = .publishing (Reports.downloadedAnnouncement report ipAddress)
        (.file content ("report-" ++ reportId ++ ".pdf")) := by
  have hstart := report_start h hi (.download reportId) actor corrId ipAddress
  have hloaded := report_next hstart (.load rfl hr)
  have hchecked := report_next hloaded (.check assigned rfl)
  rw [ReportRequest.authorise, if_pos hin] at hchecked
  exact ⟨_, report_next hchecked (.readDownload rfl rfl hf), rfl, rfl, rfl, rfl⟩

end ForensicChain.Platform
