import ForensicChain.Pipeline.Order
import ForensicChain.Platform.Runs

/-!
What the timeline endpoint and the report endpoints tell is told of cases that are assigned to the
caller. The timeline compares the case of its first event only; the others have the same one.
-/
namespace ForensicChain.Platform

open Custody
open Reports (CaseIn Inside Report ReportAnswer ReportCall ReportRequest RequestInvariant)

variable {fromisoformat : String → Option Timestamp} {keys : HashSign.Signer} {s : State}
  {events : List CustodyEvent} {artifactId : Uuid} {xUserId : Option String}
  {assigned : List String} {response : TimelineResponse}

/-- Every report that the answer tells of is in a case of the list. -/
def WithinCases (rows : List Report) (call : ReportCall) (assigned : List String) :
    ReportAnswer → Prop
  | .generated out | .metadata out => CaseIn out.caseId assigned
  | .reports outs => ∀ out ∈ outs, CaseIn out.caseId assigned
  | .file _ _ | .verified _ => (∃ report ∈ rows, call.Names report) ∧
      ∀ report ∈ rows, call.Names report → CaseIn report.caseId assigned

/-- All events of an artifact carry one case. -/
def OneCase (events : List CustodyEvent) : Prop :=
  ∀ e ∈ events, ∀ f ∈ events, e.artifactId = f.artifactId → e.caseId = f.caseId

/-- The timeline that is answered begins with an event of an assigned case. -/
theorem getCustodyTimeline_ok
    (h : getCustodyTimeline events artifactId xUserId assigned = .ok response) :
    response.events = (getTimeline events artifactId).map modelValidate ∧
      ∃ first ∈ getTimeline events artifactId, CaseIn first.caseId assigned := by
  unfold getCustodyTimeline at h
  cases htimeline : getTimeline events artifactId with
  | nil => simp [htimeline] at h
  | cons first rest =>
    simp only [htimeline] at h
    split_ifs at h with hmissing hout
    obtain rfl := Except.ok.inj h
    refine ⟨rfl, first, List.mem_cons_self, ?_⟩
    rw [not_or] at hmissing
    cases hcase : first.caseId with
    | none => exact (hmissing.1 (.inl hcase)).elim
    | some c => exact ⟨c, by simpa [hcase] using hout, rfl⟩

/-- One event that is in an assigned case answers for the timeline. -/
theorem OneCase.timeline (h : OneCase events)
    (hok : getCustodyTimeline events artifactId xUserId assigned = .ok response) :
    ∀ e ∈ getTimeline events artifactId, CaseIn e.caseId assigned := by
  obtain ⟨_, first, hfirst, hin⟩ := getCustodyTimeline_ok hok
  obtain ⟨hmem, hart⟩ := mem_getTimeline.mp hfirst
  intro e he
  obtain ⟨hmem', hart'⟩ := mem_getTimeline.mp he
  rw [h e hmem' first hmem (hart'.trans hart.symm)]
  exact hin

/-- Whoever published them and in whatever order they came, the events of an artifact name the
case of its row. -/
theorem oneCase_reachable (h : (system fromisoformat keys).Reachable s) :
    OneCase s.pipeline.store.events := by
  have hrows := Evidence.caseRows_reachable (evidence_reachable h)
  have hevents := (invariant_reachable h).events
  intro e he f hf hsame
  obtain ⟨c, hc, hcase⟩ := hevents e he
  obtain ⟨d, hd, hcase'⟩ := hevents f hf
  rw [← hsame] at hcase'
  rw [hc, hd, hrows.one _ _ _ hcase hcase']

/-- What a request was granted is within the cases that were returned to it. -/
theorem withinCases_of_inside {rows : List Report} {r : ReportRequest} {answer : ReportAnswer}
    (hids : (rows.map Report.reportId).Nodup) (h : Inside rows r answer) :
    ∃ assigned, r.assigned = some assigned ∧ WithinCases rows r.call assigned answer := by
  cases answer with
  | generated out | metadata out => exact h
  | reports outs =>
    obtain ⟨⟨assigned, hassigned⟩, hall⟩ := h
    exact ⟨assigned, hassigned, fun out hout => (hall out hout).caseIn hassigned⟩
  | file | verified =>
    obtain ⟨report, hmem, hnames, assigned, hassigned, hin⟩ := h
    refine ⟨assigned, hassigned, ⟨report, hmem, hnames⟩, ?_⟩
    intro other hother hnames'
    have hid : other.reportId = report.reportId := by
      obtain ⟨text, htext, hparse⟩ := hnames
      obtain ⟨text', htext', hparse'⟩ := hnames'
      obtain rfl := Option.some.inj (htext.symm.trans htext')
      exact Option.some.inj (hparse'.symm.trans hparse)
    obtain rfl := List.inj_on_of_nodup_map hids hother hmem hid
    exact hin

/-- In every state that uploads, views, downloads, verifications and report requests reach,
timelines and report answers tell only of cases in the list that was returned for the caller. -/
theorem disclosures_within_cases (h : (system fromisoformat keys).Reachable s) :
    OneCase s.pipeline.store.events ∧
    (∀ artifactId xUserId assigned response,
      getCustodyTimeline s.pipeline.store.events artifactId xUserId assigned = .ok response →
      response.events = (getTimeline s.pipeline.store.events artifactId).map modelValidate ∧
      ∀ e ∈ getTimeline s.pipeline.store.events artifactId, CaseIn e.caseId assigned) ∧
    ∀ i r answer, s.requests i = some r → r.phase = .responded (.ok answer) →
      ∃ assigned, r.assigned = some assigned ∧
        WithinCases s.reports.rows r.call assigned answer := by
  have hinv := invariant_reachable h
  have hone := oneCase_reachable h
  refine ⟨hone, ?_, ?_⟩
  · intro artifactId xUserId assigned response hok
    exact ⟨(getCustodyTimeline_ok hok).1, hone.timeline hok⟩
  · intro i r answer hi hphase
    have hr := hinv.requests i r hi
    rw [RequestInvariant, hphase] at hr
    exact withinCases_of_inside hinv.reports.ids hr

open Evidence (sampleId sampleRow sampleWorld)

def sampleReader : Actor := ⟨"reviewer01", "legal_reviewer"⟩

def sampleView : Evidence.DownloadRequest :=
  ⟨sampleReader, sampleCorrelation, some "10.0.0.1", sampleId.str⟩

def sampleReportId : Uuid := .ofNat 5

def sampleReport : Report where
  reportId := sampleReportId
  artifactId := sampleId
  caseId := some "CASE-2025-001"
  generatedBy := "reviewer01"
  generatedAt := 0
  format := "PDF"
  reportHash := sha256 []
  storagePath := some (Reports.storagePath sampleReportId)
  correlationId := some sampleCorrelation

theorem sampleReport_inserted : Reports.insertReport sampleReportId sampleId.str "CASE-2025-001"
    sampleReader.actorId 0 (sha256 []) (Reports.storagePath sampleReportId) sampleCorrelation.str =
      some sampleReport := by
  have hart : Postgres.uuid sampleId.str = some sampleId := by decide +kernel
  have hcorr : Postgres.uuid sampleCorrelation.str = some sampleCorrelation := by decide +kernel
  have hcase : Postgres.varchar 64 "CASE-2025-001" = some "CASE-2025-001" := by decide
  have hactor : Postgres.varchar 64 "reviewer01" = some "reviewer01" := by decide
  have hpath : Postgres.text (Reports.storagePath sampleReportId) =
      some (Reports.storagePath sampleReportId) := by decide +kernel
  simp only [Reports.insertReport, sampleReader, hart, hcorr, hcase, hactor, hpath,
    Ledger.varchar_sha256, bind, Option.bind_some]
  rfl

/-- The collector with the row of the sample upload, before its request is answered. -/
def sampleCollector : Evidence.State :=
  (Evidence.State.empty.setWorld sampleWorld).setUpload 0
    ⟨Evidence.sampleRequest, sampleId, none, .refreshing⟩

theorem sampleCollector_reachable : (Evidence.system keys).Reachable sampleCollector := by
  have hsaved : ((Evidence.system keys).restrict fun _ _ _ => True).Reachable sampleCollector :=
    Evidence.sample_saved_run (fun _ _ _ _ _ => trivial) trivial
  exact hsaved.of_restrict

/-- The row is viewed by the reader, and the event reaches the custody table. -/
theorem sample_viewed_run : ∃ p text,
    (system DateTime.fromisoformat keys).Reachable
        ((State.ofEvidence sampleCollector).setPipeline p) ∧
      p.store = ⟨[viewedEvent viewedId "2025-01-31T10:00:00+00:00" 63873914400000000], [viewedId],
        [text]⟩ ∧ p.consumer = .idle ∧ p.broker 1 = none := by
  have ht : DateTime.fromisoformat (Text.replaceChar 'Z' "+00:00" "2025-01-31T10:00:00+00:00") =
      some 63873914400000000 := by decide
  obtain ⟨text, hstored⟩ := viewed_processed viewedId ht
  rw [← processMessage_sortKeys (by simp [viewedEnvelope, Json.sortKeys, Json.sortMembers])]
    at hstored
  have hstart : (system DateTime.fromisoformat keys).Reachable (.ofEvidence sampleCollector) :=
    collector_run sampleCollector_reachable rfl
  have hi : (State.ofEvidence sampleCollector).accesses 0 = none := rfl
  have hrow : Evidence.requestedArtifact (State.ofEvidence sampleCollector).evidence.world.artifacts
      sampleView.artifactId = .ok sampleRow := Evidence.requestedArtifact_self sampleRow
  have hview : Evidence.viewArtifact ["CASE-2025-001"] viewedId "2025-01-31T10:00:00+00:00"
      sampleView sampleRow = .ok (Evidence.evidenceOut sampleRow,
        viewedEnvelope viewedId "2025-01-31T10:00:00+00:00") := rfl
  obtain ⟨p, hrun, hstore, hend⟩ := stored_run hstart rfl hi hrow (.view _ _ _ hview) hstored
  exact ⟨p, text, hrun, hstore, hend⟩

/-- The download of the sample report, one second later. -/
def sampleDownloaded : CustodyEvent :=
  downloadedEvent "2025-01-31T10:00:01Z" 63873914401000000
    (viewedEvent viewedId "2025-01-31T10:00:00+00:00" 63873914400000000).eventHash

/-- The report of the artifact is generated and downloaded, and the event of that follows. -/
theorem sample_report_run : ∃ s r, (system DateTime.fromisoformat keys).Reachable s ∧
    s.pipeline.store.events =
      [viewedEvent viewedId "2025-01-31T10:00:00+00:00" 63873914400000000, sampleDownloaded] ∧
    s.requests 1 = some r ∧
    r.phase = .responded (.ok (.file [] ("report-" ++ sampleReportId.str ++ ".pdf"))) := by
  obtain ⟨p, text, hviewed, hstore, hidle, hfreeTag⟩ := sample_viewed_run
  let s := (State.ofEvidence sampleCollector).setPipeline p
  have hfree : s.requests 0 = none := rfl
  have hart : Postgres.uuid sampleId.str = some sampleId := by decide +kernel
  have hcase : Evidence.getArtifactCase s.evidence.world.artifacts sampleId.str =
      .ok "CASE-2025-001" := by
    rw [Evidence.getArtifactCase, Uuid.parse_str]
    rfl
  obtain ⟨r, hgenerated⟩ := generated_run hviewed hfree (some "10.0.0.1") ["CASE-2025-001"] [] hart
    hcase (by decide) (List.mem_singleton_self _) sampleReport_inserted
    (fun q hq => absurd hq List.not_mem_nil)
  let w := (s.reports.setFile (Reports.storagePath sampleReportId) (some [])).addReport sampleReport
  have hsecond : ((s.setReports w).setRequest 0 r).requests 1 = none := rfl
  have hreport : Postgres.uuid sampleReportId.str = some sampleReportId := by decide +kernel
  have hfound : Reports.getReport [sampleReport] sampleReportId.str = some (some sampleReport) := by
    rw [Reports.getReport, hreport]
    rfl
  have hfile : Reports.reportFile w sampleReport = some [] := by
    have hne : Reports.storagePath sampleReportId ≠ "" := by decide +kernel
    simp [Reports.reportFile, sampleReport, hne, w, Reports.World.setFile, Reports.World.addReport]
  obtain ⟨q, hread, hcall, hactor, hcorr, hphase⟩ := download_run hgenerated hsecond sampleReader
    sampleCorrelation.str (some "10.0.0.1") ["CASE-2025-001"] hfound
    ⟨_, List.mem_singleton_self _, rfl⟩ hfile
  have ht : DateTime.fromisoformat (Text.replaceChar 'Z' "+00:00" "2025-01-31T10:00:01Z") =
      some 63873914401000000 := by decide
  obtain ⟨store, hstored, hevents⟩ := downloaded_processed text ht
  have henvelope : q.envelope (Reports.downloadedAnnouncement sampleReport (some "10.0.0.1"))
      downloadedId "2025-01-31T10:00:01Z" = downloadedEnvelope downloadedId
        "2025-01-31T10:00:01Z" := by
    rw [Reports.ReportRequest.envelope, hactor, hcorr]
    rfl
  rw [← henvelope, ← hstore] at hstored
  have hid : ∀ e ∈ p.store.events, e.id < 2 := by
    rw [hstore]
    simp [viewedEvent, Envelope.event]
  obtain ⟨t, hrun, hr, hstore'⟩ := published_run hread (State.setRequest_self _ _ _) hphase
    hfreeTag hidle hid hstored
  exact ⟨t, _, hrun, hstore' ▸ hevents, hr, rfl⟩

/-- The reader is told of both events and of the report, which are in the assigned case. -/
theorem sample_disclosures : ∃ s r, (system DateTime.fromisoformat HashSign.plainKeys).Reachable s ∧
    s.requests 1 = some r ∧
    r.phase = .responded (.ok (.file [] ("report-" ++ sampleReportId.str ++ ".pdf"))) ∧
    (∃ response, getCustodyTimeline s.pipeline.store.events sampleArtifact (some "reviewer01")
      ["CASE-2025-001"] = .ok response ∧ response.events.length = 2) ∧
    (∀ e ∈ getTimeline s.pipeline.store.events sampleArtifact,
      CaseIn e.caseId ["CASE-2025-001"]) ∧
    ∃ assigned, r.assigned = some assigned ∧ WithinCases s.reports.rows r.call assigned
      (.file [] ("report-" ++ sampleReportId.str ++ ".pdf")) := by
  obtain ⟨s, r, hs, hevents, hr, hphase⟩ := sample_report_run
  obtain ⟨_, htimeline, hreports⟩ := disclosures_within_cases hs
  have htwo := (congrArg (getTimeline · sampleArtifact) hevents).trans
    (Pipeline.getTimeline_two (by decide))
  obtain ⟨response, hresponse, _⟩ :=
    getCustodyTimeline_chainValid.mpr ⟨Pipeline.mayRead_two (.inl htwo), rfl⟩
  obtain ⟨hout, hin⟩ := htimeline _ _ _ _ hresponse
  refine ⟨s, r, hs, hr, hphase, ⟨response, hresponse, ?_⟩, hin, hreports 1 r _ hr hphase⟩
  rw [hout, htwo]
  rfl

end ForensicChain.Platform
