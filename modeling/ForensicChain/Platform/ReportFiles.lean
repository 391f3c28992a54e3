import ForensicChain.Platform.Disclosure
import ForensicChain.Reports.StoredFiles

/-!
Reports stay verifiable. Whatever else goes on, a committed report keeps its file, its verification
answers that it is valid, and a download hands out the bytes that were hashed.
-/
namespace ForensicChain.Platform

open Evidence (RequestId)
open Reports (AnswerSound Backed FileInvariant Report ReportAnswer ReportRequest Unused)

variable {fromisoformat : String → Option Timestamp} {keys : HashSign.Signer} {s t : State}
  {x : Action}

/-- The random ids of reports do not repeat. -/
def FreshReportIds (s : State) : Action → Prop
  | .report _ a => ∀ reportId, a.draws = some reportId → Unused s.reports s.requests reportId
  | _ => True

structure FilesKept (s : State) : Prop where
  rows : ∀ report ∈ s.reports.rows, Backed s.reports report
  requests : ∀ i r, s.requests i = some r → FileInvariant s.reports r

theorem FilesKept.report {i : RequestId} {r r' : ReportRequest} {a : Reports.ReportAction}
    {w : Reports.World} {published : Option Custody.Envelope} (h : FilesKept s)
    (hreach : (system fromisoformat keys).Reachable s) (hx : FreshReportIds s (.report i a))
    (hi : s.requests i = some r)
    (hs : Reports.ReportStep s.evidence.world.artifacts s.reports r a w published r') :
    FilesKept ((s.setReports w).setRequest i r') := by
  have hinv := invariant_reachable hreach
  have hreq := hinv.requests i r hi
  obtain ⟨_, hsub⟩ := hs.consistent (Evidence.caseRows_reachable (evidence_reachable hreach))
    hinv.reports hreq
  have hown := h.requests i r hi
  constructor
  · refine hs.backed h.rows hown ?_
    intro report hmem hdraws
    exact (hx _ hdraws).1 report hmem rfl
  · refine Table.forall_update (fun j _ q hq => ?_) (hown.step hreq h.rows hs)
    refine (h.requests j q hq).frame hsub ?_
    intro caseId id hash path hp hfile
    refine hfile.step hs ?_
    intro hdraws
    exact (hx _ hdraws).2 j q caseId id hash path hq hp rfl

theorem filesKept_step (h : FilesKept s) (hreach : (system fromisoformat keys).Reachable s)
    (hx : FreshReportIds s x) (hs : Step fromisoformat keys s x t) : FilesKept t := by
  cases hs with
  | report hi hs => exact h.report hreach hx hi hs
  | reportPublishes tag hi hs hp => exact ⟨(h.report hreach hx hi hs).rows,
      (h.report hreach hx hi hs).requests⟩
  | admitReport call actor corrId ipAddress hi =>
    refine ⟨h.rows, Table.forall_update (fun j _ q hq => h.requests j q hq) ?_⟩
    cases call <;> trivial
  | _ => exact ⟨h.rows, h.requests⟩

theorem filesKept_reachable (h : (system fromisoformat keys).ReachableWhen FreshReportIds s) :
    FilesKept s := by
  induction h with
  | init h =>
    obtain ⟨_, _, _, hrows, _, hr⟩ := h
    exact ⟨by simp [hrows], by simp [hr]⟩
  | step hr hx hs ih => exact filesKept_step ih hr.reachable hx hs

/-- In every state that is reached without a repeated report id, every report has its file with the
hash of its row, and what was answered about a report is of such a row: a verification that found it
valid, or the content that was hashed. -/
theorem reports_stay_valid (h : (system fromisoformat keys).ReachableWhen FreshReportIds s) :
    (∀ report ∈ s.reports.rows, ∃ content, Reports.reportFile s.reports report = some content ∧
      sha256 content = report.reportHash) ∧
    ∀ i r answer, s.requests i = some r → r.phase = .responded (.ok answer) →
      AnswerSound s.reports.rows r.call answer := by
  have hkept := filesKept_reachable h
  refine ⟨fun report hmem => Reports.reportFile_of_backed (hkept.rows report hmem), ?_⟩
  intro i r answer hi hp
  have hr := hkept.requests i r hi
  rwa [FileInvariant, hp] at hr

theorem freshReportIds_admission (s : State) (i : RequestId) : FreshReportIds s (.admitReport i) :=
  trivial

theorem freshReportIds_quiet (s : State) (i : RequestId) {a : Reports.ReportAction}
    (ha : a.draws = none) : FreshReportIds s (.report i a) := by
  intro reportId hdraws
  rw [ha] at hdraws
  cases hdraws

/-- The world once the sample report is there. -/
def sampleReports : Reports.World :=
  (Reports.World.setFile ⟨[], fun _ => none⟩ (Reports.storagePath sampleReportId)
    (some [])).addReport sampleReport

theorem sample_generated_run : ∃ r, (system fromisoformat keys).ReachableWhen FreshReportIds
    (((State.ofEvidence sampleCollector).setReports sampleReports).setRequest 0 r) := by
  let s := State.ofEvidence sampleCollector
  have hart : Postgres.uuid Evidence.sampleId.str = some Evidence.sampleId := by decide +kernel
  have hcase : Evidence.getArtifactCase s.evidence.world.artifacts Evidence.sampleId.str =
      .ok "CASE-2025-001" := by
    rw [Evidence.getArtifactCase, Uuid.parse_str]
    rfl
  have hin : Reports.CaseIn (some "CASE-2025-001") ["CASE-2025-001"] :=
    ⟨_, List.mem_singleton_self _, rfl⟩
  have hcollector : (system fromisoformat keys).ReachableWhen FreshReportIds s :=
    collector_run_when (fun _ _ => trivial) sampleCollector_reachable rfl
  have hstart : (system fromisoformat keys).ReachableWhen FreshReportIds
      ((s.setReports s.reports).setRequest 0 (.start (.generate Evidence.sampleId.str) sampleReader
        Custody.sampleCorrelation.str none)) :=
    hcollector.step (freshReportIds_admission s 0) (.admitReport _ _ _ _ rfl)
  have hresolved := report_next_when hstart (freshReportIds_quiet _ _ rfl) (.resolve rfl
    (.answered (Reports.casePath_requested hart) (Reports.casePath_route hart) hcase) (by decide))
  have hassigned := report_next_when hresolved (freshReportIds_quiet _ _ rfl)
    (.assign ["CASE-2025-001"] rfl)
  rw [ReportRequest.authorise, if_pos hin] at hassigned
  have hfresh : ∀ r : ReportRequest, r.phase = .building "CASE-2025-001" → FreshReportIds
      ((s.setReports s.reports).setRequest 0 r) (.report 0 (.build sampleReportId [])) := by
    rintro r hr reportId ⟨⟩
    refine ⟨fun _ hmem => absurd hmem List.not_mem_nil, ?_⟩
    intro i q caseId id hash path hi hp
    rcases Table.update_some hi with ⟨_, rfl⟩ | ⟨_, hnone⟩
    · cases hr.symm.trans hp
    · cases hnone
  have hbuilt := report_next_when hassigned (hfresh _ rfl) (.build sampleReportId [] rfl)
  exact ⟨_, report_next_when hbuilt (freshReportIds_quiet _ _ rfl)
    (.insert rfl rfl (.mk 0 sampleReport_inserted fun _ hmem => absurd hmem List.not_mem_nil))⟩

/-- A report whose file is there is verified, and the verification is published. -/
theorem verified_run {reportId : String} {report : Report} {content : List UInt8}
    (h : (system fromisoformat keys).ReachableWhen FreshReportIds s) (i : RequestId)
    (tag : Pipeline.Tag) (hi : s.requests i = none) (ht : s.pipeline.broker tag = none)
    (actor : Actor) (corrId verifiedAt timestamp : String) (ipAddress : Option String)
    (assigned : List String) (eventId : Uuid)
    (hr : Reports.getReport s.reports.rows reportId = some (some report))
    (hin : Reports.CaseIn report.caseId assigned)
    (hf : Reports.reportFile s.reports report = some content) : ∃ t r,
      (system fromisoformat keys).ReachableWhen FreshReportIds t ∧ t.reports = s.reports ∧
        t.requests i = some r ∧ r.phase = .responded (.ok (.verified
          (Reports.reportVerifyOut reportId report content verifiedAt))) := by
  have hstart : (system fromisoformat keys).ReachableWhen FreshReportIds
      ((s.setReports s.reports).setRequest i (.start (.verify reportId) actor corrId ipAddress)) :=
    h.step (freshReportIds_admission s i) (.admitReport _ _ _ _ hi)
  have hloaded := report_next_when hstart (freshReportIds_quiet _ _ rfl) (.load rfl hr)
  have hchecked := report_next_when hloaded (freshReportIds_quiet _ _ rfl) (.check assigned rfl)
  rw [ReportRequest.authorise, if_pos hin] at hchecked
  have hread := report_next_when hchecked (freshReportIds_quiet _ _ rfl)
    (.readVerify verifiedAt rfl rfl hf)
  have hpublished := hread.step (freshReportIds_quiet _ _ rfl) (.reportPublishes tag
    (State.setRequest_self _ _ _) (.publish eventId timestamp rfl) (.publishEvent _ ht))
  exact ⟨_, _, hpublished, rfl, State.setRequest_self _ _ _, rfl⟩

/-- The sample report is verified as valid. -/
theorem sample_report_valid : ∃ (s : State) (r : ReportRequest) (out : Reports.ReportVerifyOut),
    (system DateTime.fromisoformat HashSign.plainKeys).ReachableWhen FreshReportIds s ∧
      s.requests 1 = some r ∧ r.phase = .responded (.ok (.verified out)) ∧
      AnswerSound s.reports.rows r.call (.verified out) := by
  obtain ⟨q, hgenerated⟩ : ∃ q, (system DateTime.fromisoformat
      HashSign.plainKeys).ReachableWhen FreshReportIds
        (((State.ofEvidence sampleCollector).setReports sampleReports).setRequest 0 q) :=
    sample_generated_run
  have hreport : Postgres.uuid sampleReportId.str = some sampleReportId := by decide +kernel
  have hfound : Reports.getReport sampleReports.rows sampleReportId.str =
      some (some sampleReport) := by
    rw [Reports.getReport, hreport]
    rfl
  have hfile : Reports.reportFile sampleReports sampleReport = some [] := by
    have hne : Reports.storagePath sampleReportId ≠ "" := by decide +kernel
    simp [Reports.reportFile, sampleReport, hne, sampleReports, Reports.World.addReport,
      Reports.World.setFile]
  obtain ⟨s, r, hs, _, hr, hp⟩ := verified_run hgenerated 1 1 rfl rfl sampleReader
    Custody.sampleCorrelation.str "2025-01-31T10:00:00+00:00" "2025-01-31T10:00:00+00:00" none
    ["CASE-2025-001"] (.ofNat 6) hfound ⟨_, List.mem_singleton_self _, rfl⟩ hfile
  exact ⟨s, r, _, hs, hr, hp, (reports_stay_valid hs).2 1 r _ hr hp⟩

end ForensicChain.Platform
