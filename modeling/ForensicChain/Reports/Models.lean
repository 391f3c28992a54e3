import ForensicChain.Evidence.Access
import ForensicChain.Library.Url
import Mathlib.Data.Bool.AllAny

/-! Rows, answers and events of the audit reporter, and its call for the case of an artifact. -/
namespace ForensicChain.Reports

/-- A row of `reports`. -/
structure Report where
  reportId : Uuid
  artifactId : Uuid
  caseId : Option String
  generatedBy : String
  generatedAt : Timestamp
  format : String
  reportHash : String
  storagePath : Option String
  correlationId : Option Uuid

/-- Committed rows, and the files of the report volume. -/
structure World where
  rows : List Report
  files : String → Option (List UInt8)

namespace World

def setFile (w : World) (path : String) (content : Option (List UInt8)) : World :=
  { w with files := Function.update w.files path content }

def addReport (w : World) (report : Report) : World := { w with rows := w.rows ++ [report] }

end World

/-- `REPORT_STORAGE_PATH/{report_id}.pdf`, with the default of the variable. -/
def storagePath (reportId : Uuid) : String := "/report-storage/" ++ reportId.str ++ ".pdf"

open Postgres in
/-- The row that `insert_report` stores. -/
def insertReport (reportId : Uuid) (artifactId caseId generatedBy : String)
    (generatedAt : Timestamp) (reportHash path correlationId : String) : Option Report := do
  some {
    reportId
    artifactId := ← uuid artifactId
    caseId := some (← varchar 64 caseId)
    generatedBy := ← varchar 64 generatedBy
    generatedAt
    format := "PDF"
    reportHash := ← varchar 256 reportHash
    storagePath := some (← text path)
    correlationId := some (← uuid correlationId) }

/-- `db.get(Report, report_id)`; `none` is an exception of the database. -/
def getReport (rows : List Report) (reportId : String) : Option (Option Report) :=
  (Postgres.uuid reportId).map fun id => rows.find? fun report => report.reportId = id

/-- `get_reports_by_artifact`: `ORDER BY generated_at DESC`, ties in any order. -/
def GetReportsByArtifact (rows : List Report) (artifactId : String) (found : List Report) : Prop :=
  ∃ id, Postgres.uuid artifactId = some id ∧
    found.Perm (rows.filter fun report => report.artifactId = id) ∧
    found.Pairwise fun r q => q.generatedAt ≤ r.generatedAt

structure ReportOut where
  reportId : String
  artifactId : String
  caseId : Option String
  reportHash : String
  format : String
  generatedAt : Timestamp
  generatedBy : String
  storagePath : Option String

def reportOut (r : Report) : ReportOut where
  reportId := r.reportId.str
  artifactId := r.artifactId.str
  caseId := r.caseId
  reportHash := r.reportHash
  format := r.format
  generatedAt := r.generatedAt
  generatedBy := r.generatedBy
  storagePath := r.storagePath

structure ReportVerifyOut where
  reportId : String
  reportValid : Bool
  storedHash : String
  currentHash : String
  verifiedAt : String

/-- `case_id in assigned`; a missing case is in no list. -/
def CaseIn (caseId : Option String) (assigned : List String) : Prop :=
  ∃ c ∈ assigned, caseId = some c

instance (caseId : Option String) (assigned : List String) : Decidable (CaseIn caseId assigned) :=
  inferInstanceAs (Decidable (∃ c ∈ assigned, caseId = some c))

/-- The path of the call, with the id as it stands in the URL. -/
def casePath (artifactId : String) : String := "/internal/artifacts/" ++ artifactId ++ "/case"

/-- What `get_artifact_case_id` returns: nothing after a failure, what the case route answers, or,
from any other route that the URL may lead to, anything. -/
inductive ArtifactCaseId (artifacts : List Evidence.Artifact) (artifactId : String) :
    Option String → Prop
  | failed : ArtifactCaseId artifacts artifactId none
  | answered {path text caseId} (hp : Url.requestPath (casePath artifactId).toList = some path)
      (hr : Evidence.caseRoute (Url.unquote path) = some text)
      (hc : Evidence.getArtifactCase artifacts text = .ok caseId) :
      ArtifactCaseId artifacts artifactId (some caseId)
  | elsewhere {path} (caseId : Option String)
      (hp : Url.requestPath (casePath artifactId).toList = some path)
      (hr : Evidence.caseRoute (Url.unquote path) = none) :
      ArtifactCaseId artifacts artifactId caseId

/-- The envelope of `publish_event`. -/
def publishedEnvelope (eventId : Uuid) (timestamp artifactId : String) (caseId : Option String)
    (actor : Actor) (corrId eventType routingKey reason : String) (payload : List (String × Json)) :
    Custody.Envelope where
  eventId := eventId
  eventType := eventType
  routingKey := routingKey
  artifactId := artifactId
  caseId := caseId
  actorId := actor.actorId
  actorRole := actor.actorRole
  timestamp := timestamp
  correlationId := corrId
  reason := reason
  payload := payload

variable {artifacts : List Evidence.Artifact} {text c : String} {id : Uuid} {report : Report}
  {rows : List Report}

/-- The columns of a new row take the arguments of `insert_report`. -/
structure Report.Inserted (report : Report) (reportId : Uuid)
    (artifactId caseId reportHash path : String) : Prop where
  reportId : report.reportId = reportId
  artifactId : Postgres.uuid artifactId = some report.artifactId
  caseId : ∃ c, Postgres.varchar 64 caseId = some c ∧ report.caseId = some c
  reportHash : Postgres.varchar 256 reportHash = some report.reportHash
  storagePath : report.storagePath = some path

theorem insertReport_eq_some {reportId : Uuid}
    {artifactId caseId generatedBy hash path corrId : String} {time : Timestamp}
    (h : insertReport reportId artifactId caseId generatedBy time hash path corrId =
      some report) : report.Inserted reportId artifactId caseId hash path := by
  simp only [insertReport, bind, Option.bind_eq_some_iff, Option.some.injEq] at h
  obtain ⟨_, hart, c, hcase, _, _, hash, hhash, path', hpath, _, _, rfl⟩ := h
  exact ⟨rfl, hart, ⟨c, hcase, rfl⟩, hhash, congrArg some (Postgres.eq_of_text hpath)⟩

theorem getReport_eq_some (h : getReport rows text = some (some report)) :
    report ∈ rows ∧ Postgres.uuid text = some report.reportId := by
  obtain ⟨id, hid, hfound⟩ := Option.map_eq_some_iff.mp h
  have hkey : report.reportId = id := by simpa using List.find?_some hfound
  exact ⟨List.mem_of_find?_eq_some hfound, by rw [hid, hkey]⟩

theorem casePath_toList (text : String) : (casePath text).toList =
    "/internal/artifacts/".toList ++ (text.toList ++ "/case".toList) := by
  have hfront : ("/internal/artifacts/" ++ text).toList =
      "/internal/artifacts/".toList ++ text.toList := String.toList_append
  calc (casePath text).toList
      = ("/internal/artifacts/" ++ text).toList ++ "/case".toList := String.toList_append
    _ = "/internal/artifacts/".toList ++ text.toList ++ "/case".toList := by rw [hfront]
    _ = "/internal/artifacts/".toList ++ (text.toList ++ "/case".toList) := List.append_assoc _ _ _

theorem uuid_chars (hid : Postgres.uuid text = some id) :
    ∀ c ∈ text.toList, Url.Verbatim c ∧ c ≠ '/' ∧ c ≠ '.' := by
  intro c hc
  rcases (Postgres.uuid_eq_some hid).1 c hc with hc | hc
  · have hall : ∀ c ∈ ['-', '{', '}'], Url.Verbatim c ∧ c ≠ '/' ∧ c ≠ '.' :=
      List.all_iff_forall_prop.mp (by decide)
    exact hall c hc
  · have hcode := Uuid.hexVal_toNat hc
    have hother : ∀ d ∈ ['/', '?', '#', '%', '.'], (Uuid.hexVal d).isSome = false :=
      List.all_iff_forall_prop.mp (by decide)
    have hne : ∀ d ∈ ['/', '?', '#', '%', '.'], c ≠ d := by
      rintro d hd rfl
      rw [hother c hd] at hc
      cases hc
    refine ⟨⟨by omega, ?_, hne '%' (by decide), hne '?' (by decide), hne '#' (by decide)⟩,
      hne '/' (by decide), hne '.' (by decide)⟩
    simp only [Url.isAcceptable, Bool.or_eq_true, Bool.and_eq_true, decide_eq_true_eq]
    omega

theorem casePath_chars (hid : Postgres.uuid text = some id) :
    ∀ c ∈ (casePath text).toList, Url.Verbatim c ∧ c ≠ '.' := by
  have hfixed : ∀ c ∈ "/internal/artifacts/".toList ++ "/case".toList, Url.Verbatim c ∧ c ≠ '.' :=
    List.all_iff_forall_prop.mp (by decide)
  intro c hc
  rw [casePath_toList, List.mem_append, List.mem_append] at hc
  rcases hc with hc | hc | hc
  · exact hfixed c (List.mem_append_left _ hc)
  · obtain ⟨hverbatim, _, hdot⟩ := uuid_chars hid c hc
    exact ⟨hverbatim, hdot⟩
  · exact hfixed c (List.mem_append_right _ hc)

/-- A spelling that a `uuid` column takes is put into the URL as it is. -/
theorem casePath_requested (hid : Postgres.uuid text = some id) :
    Url.requestPath (casePath text).toList = some (Url.quote (casePath text).toList) := by
  have hchars := casePath_chars hid
  have hslash : (casePath text).toList = '/' :: ("internal/artifacts/".toList ++
      (text.toList ++ "/case".toList)) := by
    rw [casePath_toList]
    rfl
  refine Url.requestPath_verbatim (fun c hc => (hchars c hc).1) hslash ?_
  intro segment hsegment
  have hdot : '.' ∉ segment := by
    intro hmem
    refine (hchars '.' ?_).2 rfl
    rw [hslash, ← Url.join_splitOn]
    exact List.mem_flatMap.mpr ⟨segment, hsegment, List.mem_cons_of_mem _ hmem⟩
  refine ⟨?_, ?_⟩ <;> rintro rfl <;> simp at hdot

/-- It leads to the case route, which reads the same spelling. -/
theorem casePath_route (hid : Postgres.uuid text = some id) :
    Evidence.caseRoute (Url.unquote (Url.quote (casePath text).toList)) = some text := by
  rw [Url.unquote_quote fun c hc => (casePath_chars hid c hc).1]
  refine (UrlPath.routeParam_iff rfl).mpr ⟨?_, ?_, [], by simp, ?_⟩
  · rintro rfl
    have hnone : Postgres.uuid "" = none := by decide
    rw [hnone] at hid
    cases hid
  · exact fun hc => (uuid_chars hid '/' hc).2.1 rfl
  · rw [List.append_nil, casePath_toList]

/-- The case that comes back for a spelling of an artifact id is the artifact's. -/
theorem ArtifactCaseId.artifact (h : ArtifactCaseId artifacts text (some c))
    (hid : Postgres.uuid text = some id) : ∃ a ∈ artifacts, a.artifactId = id ∧ a.caseId = c := by
  have hpath := casePath_requested hid
  cases h with
  | answered hp hr hc =>
    obtain rfl := Option.some.inj (hpath.symm.trans hp)
    obtain rfl := Option.some.inj ((casePath_route hid).symm.trans hr)
    obtain ⟨a, ha, hparse, hcase⟩ := Evidence.getArtifactCase_ok hc
    have hsame := (Postgres.uuid_eq_some hid).2
    exact ⟨a, ha, Option.some.inj (hparse.symm.trans hsame), hcase⟩
  | elsewhere _ hp hr =>
    obtain rfl := Option.some.inj (hpath.symm.trans hp)
    rw [casePath_route hid] at hr
    cases hr

end ForensicChain.Reports
