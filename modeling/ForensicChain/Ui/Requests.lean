import ForensicChain.Gateway.Mediation
import ForensicChain.Ui.Navigation

/-!
The requests of the web client, which its pages make under `/api`, and the way that they take
through the gateway to a route of a service. The bodies of requests and answers are left out.
-/
namespace ForensicChain.Ui

open Gateway RouteTemplate

/-- A request: the segments of its path behind `/api`, and its query. -/
structure Call where
  method : String
  path : List String
  query : Option String

def Call.segments (c : Call) : List (List Char) := c.path.map String.toList

/-- What the gateway's rules see of it. -/
def Call.uri (c : Call) : List Char :=
  UrlPath.join c.segments ++ (c.query.map fun query => '?' :: query.toList).getD []

/-- `baseURL` and the path. -/
def Call.target (c : Call) : String := String.ofList ("/api".toList ++ c.uri)

def login : Call := ⟨"POST", ["auth", "login"], none⟩

def getUsers : Call := ⟨"GET", ["admin", "users"], none⟩

def createUser : Call := ⟨"POST", ["admin", "users"], none⟩

def deleteUser (id : String) : Call := ⟨"DELETE", ["admin", "users", id], none⟩

def listCases : Call := ⟨"GET", ["cases"], none⟩

def listAdminCases : Call := ⟨"GET", ["admin", "cases"], none⟩

def createCase : Call := ⟨"POST", ["admin", "cases"], none⟩

def updateCaseStatus (caseId : String) : Call := ⟨"PATCH", ["admin", "cases", caseId], none⟩

def listAssignments (caseId : String) : Call :=
  ⟨"GET", ["admin", "cases", caseId, "assignments"], none⟩

def createAssignment (caseId : String) : Call :=
  ⟨"POST", ["admin", "cases", caseId, "assignments"], none⟩

def deleteAssignment (caseId assignmentId : String) : Call :=
  ⟨"DELETE", ["admin", "cases", caseId, "assignments", assignmentId], none⟩

def getArtifact (id : String) : Call := ⟨"GET", ["evidence", id], none⟩

def uploadArtifact : Call := ⟨"POST", ["evidence"], none⟩

def verifyArtifact (id : String) : Call := ⟨"POST", ["evidence", id, "verify"], none⟩

def listArtifacts (caseId : Option String) : Call :=
  ⟨"GET", ["evidence"], caseId.map fun caseId => "case_id=" ++ caseId⟩

def downloadArtifact (id : String) : Call := ⟨"GET", ["evidence", id, "download"], none⟩

def getTimeline (artifactId : String) : Call := ⟨"GET", ["custody", artifactId, "timeline"], none⟩

def getLedgerRecords (caseId : String) : Call := ⟨"GET", ["ledger", "records", caseId], none⟩

def validateLedgerChain (caseId : String) : Call := ⟨"GET", ["ledger", "validate", caseId], none⟩

def listReportsByArtifact (artifactId : String) : Call :=
  ⟨"GET", ["reports", "by-artifact", artifactId], none⟩

def generateReport (artifactId : String) : Call := ⟨"POST", ["reports", artifactId], none⟩

def verifyReport (reportId : String) : Call := ⟨"POST", ["reports", reportId, "verify"], none⟩

def downloadReport (reportId : String) : Call := ⟨"GET", ["reports", reportId, "download"], none⟩

/-- What the interceptor of the client adds. -/
def Browser.headers (b : Browser) : Headers :=
  match b.token with
  | none => []
  | some token => if token = "" then [] else [("authorization", "Bearer " ++ token)]

/-- What the interceptor makes of an error: the browser, and where it is sent. -/
def Browser.answered (b : Browser) (statusCode : Nat) : Browser × Option Path :=
  if statusCode = 401 then ({ b with token := none }, some ["login"]) else (b, none)

/-- The requests of a page, when it loads and on its buttons, for ids and case numbers that stand in
a target as they are. -/
inductive Requests (s : Session) : Page → Call → Prop
  | login : Requests s .login login
  | dashboardAdmin (hr : s.getRole = some "admin") : Requests s .dashboard listAdminCases
  | dashboardCases (hr : s.getRole ≠ some "admin") : Requests s .dashboard listCases
  | dashboardArtifacts (hr : s.getRole ≠ some "admin") : Requests s .dashboard (listArtifacts none)
  | casesArtifacts {caseId} (hp : Plain caseId) :
      Requests s (.cases caseId) (listArtifacts (some caseId))
  | uploadCases : Requests s .artifactUpload listCases
  | upload : Requests s .artifactUpload uploadArtifact
  | list : Requests s .artifactList (listArtifacts none)
  | detail {id} (hp : Plain id) : Requests s (.artifactDetail id) (getArtifact id)
  | detailTimeline {id} (hp : Plain id) : Requests s (.artifactDetail id) (getTimeline id)
  | detailVerify {id} (hp : Plain id) : Requests s (.artifactDetail id) (verifyArtifact id)
  | detailDownload {id} (artifactId : Uuid) (hr : s.getRole = some "forensic_analyst") :
      Requests s (.artifactDetail id) (downloadArtifact artifactId.str)
  | ledgerCases : Requests s .ledger listCases
  | ledgerRecords {number} (hp : Plain number) : Requests s .ledger (getLedgerRecords number)
  | ledgerValidate {number} (hp : Plain number) : Requests s .ledger (validateLedgerChain number)
  | reportList {id} (hp : Plain id) : Requests s (.report id) (listReportsByArtifact id)
  | reportGenerate {id} (hp : Plain id) : Requests s (.report id) (generateReport id)
  | reportVerify {id} (reportId : Uuid) : Requests s (.report id) (verifyReport reportId.str)
  | reportDownload {id} (reportId : Uuid) : Requests s (.report id) (downloadReport reportId.str)
  | adminUsers : Requests s .admin getUsers
  | adminCreateUser : Requests s .admin createUser
  | adminDeleteUser (id : Uuid) : Requests s .admin (deleteUser id.str)
  | adminCases : Requests s .admin listAdminCases
  | adminCreateCase : Requests s .admin createCase
  | adminUpdateCase (id : Uuid) : Requests s .admin (updateCaseStatus id.str)
  | adminAssignments (id : Uuid) : Requests s .admin (listAssignments id.str)
  | adminAssign (id : Uuid) : Requests s .admin (createAssignment id.str)
  | adminUnassign (id assignmentId : Uuid) :
      Requests s .admin (deleteAssignment id.str assignmentId.str)

example : (verifyReport "42").target = "/api/reports/42/verify" := by decide

example : (listArtifacts (some "CASE-2025-001")).target =
    "/api/evidence?case_id=CASE-2025-001" := by decide

variable {s : Session} {page : Page} {c : Call} {text role token : String}

instance (text : String) : Decidable (Plain text) :=
  decidable_of_iff (text ≠ "" ∧ (text.toList.all fun c => c.isAlphanum ∨ c = '-') = true)
    ⟨fun h => ⟨h.1, List.all_iff_forall_prop.mp h.2⟩,
      fun h => ⟨h.nonempty, List.all_iff_forall_prop.mpr h.chars⟩⟩

theorem Plain.segment (h : Plain text) : UrlPath.PlainSegment text.toList := by
  have hno : ∀ d : Char, d.isAlphanum = false → d ≠ '-' → d ∉ text.toList := by
    intro d hd hne hmem
    rcases h.chars d hmem with hc | hc
    · rw [hd] at hc
      cases hc
    · exact hne hc
  have hdot := hno '.' (by decide) (by decide)
  constructor
  · exact fun he => h.nonempty (String.toList_eq_nil_iff.mp he)
  · constructor
    · intro he
      exact hdot (by simp [he])
    · intro he
      exact hdot (by simp [he])
  · intro d hd
    refine ⟨?_, ?_, ?_, ?_⟩ <;>
      · rintro rfl
        exact hno _ (by decide) (by decide) hd

theorem isAlphanum_of_hexVal {d : Char} (h : (Uuid.hexVal d).isSome) : d.isAlphanum := by
  have halpha : d.isAlphanum = (d.isUpper || d.isLower || d.isDigit) := rfl
  unfold Uuid.hexVal at h
  split_ifs at h with hdigit hlower hupper
  · have hd : d.isDigit = true :=
      Bool.and_eq_true_iff.mpr ⟨decide_eq_true hdigit.1, decide_eq_true hdigit.2⟩
    simp [halpha, hd]
  · have hz : d ≤ 'z' := hlower.2.trans (by decide)
    have hd : d.isLower = true :=
      Bool.and_eq_true_iff.mpr ⟨decide_eq_true hlower.1, decide_eq_true hz⟩
    simp [halpha, hd]
  · have hz : d ≤ 'Z' := hupper.2.trans (by decide)
    have hd : d.isUpper = true := decide_eq_true ⟨hupper.1, hz⟩
    simp [halpha, hd]
  · cases h

theorem plain_uuid (id : Uuid) : Plain id.str := by
  constructor
  · intro h
    have hlen := congrArg String.length h
    rw [id.str_length] at hlen
    exact absurd hlen (by decide)
  · intro d hd
    rcases id.str_toList_mem d hd with rfl | hhex
    · exact .inr rfl
    · exact .inl (isAlphanum_of_hexVal hhex)

theorem plain_words : ∀ text ∈ ["auth", "login", "admin", "users", "cases", "assignments",
    "evidence", "verify", "download", "custody", "timeline", "ledger", "records", "validate",
    "reports", "by-artifact"], Plain text := by decide

/-- Every segment of a request stands in its target as it is. -/
theorem plain_of_requests (h : Requests s page c) : ∀ text ∈ c.path, Plain text := by
  have hwords := plain_words
  simp only [List.forall_mem_cons] at hwords
  cases h <;> simp [login, getUsers, createUser, deleteUser, listCases, listAdminCases, createCase,
    updateCaseStatus, listAssignments, createAssignment, deleteAssignment, getArtifact,
    uploadArtifact, verifyArtifact, listArtifacts, downloadArtifact, getTimeline, getLedgerRecords,
    validateLedgerChain, listReportsByArtifact, generateReport, verifyReport, downloadReport,
    plain_uuid, *]

/-- The path behind the location that takes a request, and a route that takes it there. -/
structure Routed (c : Call) (l : Location) (back : String) (e : Endpoint) : Prop where
  location : l ∈ locations
  path : l.path = "/api" ++ back
  replaced : l.uri = some back ∨ l.uri = none ∧ rewriteRules.lookup l.path = some back
  front : back.toList <+: UrlPath.join c.segments
  endpoint : e ∈ endpoints
  service : e.service = l.service
  method : e.method = c.method
  fits : fits e.template c.segments = true

theorem target_eq : c.target = "/api" ++ String.ofList c.uri := by
  rw [← String.toList_inj, String.toList_append]
  simp only [Call.target, String.toList_ofList]

theorem normalize_target (hplain : ∀ text ∈ c.path, Plain text) :
    UrlPath.normalize c.target.toList = some ("/api".toList ++ UrlPath.join c.segments) := by
  have happ : "/api".toList ++ UrlPath.join c.segments =
      UrlPath.join ("api".toList :: c.segments) := by
    rw [UrlPath.join_cons]
    rfl
  have hsegments : ∀ t ∈ "api".toList :: c.segments, UrlPath.PlainSegment t := by
    rw [List.forall_mem_cons]
    refine ⟨(show Plain "api" by decide).segment, fun t ht => ?_⟩
    obtain ⟨text, htext, rfl⟩ := List.mem_map.mp ht
    exact (hplain text htext).segment
  rw [Call.target, String.toList_ofList, Call.uri, ← List.append_assoc, happ]
  apply UrlPath.normalize_join (List.cons_ne_nil _ _) hsegments
  cases c.query <;> simp

theorem newline_notMem (hplain : ∀ text ∈ c.path, Plain text) :
    '\n' ∉ UrlPath.join c.segments := by
  intro hmem
  rcases UrlPath.mem_join hmem with hslash | ⟨t, ht, hc⟩
  · exact absurd hslash (by decide)
  · obtain ⟨text, htext, rfl⟩ := List.mem_map.mp ht
    exact absurd ((hplain text htext).chars '\n' hc) (by decide)

variable {l : Location} {back : String} {e : Endpoint}

theorem Routed.route (h : Routed c l back e) (hplain : ∀ text ∈ c.path, Plain text) :
    route c.target = some (l, "/api".toList ++ UrlPath.join c.segments) := by
  have hroot : l.path ≠ "/" := by
    rw [h.path]
    intro he
    have hlist := congrArg (fun text => text.toList.take 2) he
    rw [String.toList_append] at hlist
    exact absurd hlist (by simp)
  refine route_iff.mpr ⟨normalize_target hplain, (locate_iff h.location hroot).mpr ?_⟩
  rw [h.path, String.toList_append]
  exact (List.prefix_append_right_inj _).mpr h.front

theorem Routed.upstream (h : Routed c l back e) (hplain : ∀ text ∈ c.path, Plain text) :
    l.upstream c.target ("/api".toList ++ UrlPath.join c.segments) =
      some (UrlPath.join c.segments) := by
  obtain ⟨rest, hrest⟩ := h.front
  have hdrop : ("/api".toList ++ UrlPath.join c.segments).drop l.path.length = rest := by
    rw [h.path, ← String.length_toList, String.toList_append, ← hrest, ← List.append_assoc,
      List.drop_left]
  generalize "/api".toList ++ UrlPath.join c.segments = path at hdrop
  rcases h.replaced with hback | ⟨hnone, hrewrite⟩
  · simp only [Location.upstream, Location.forward, hback, Option.map_some, hdrop, hrest]
  · have hpos : ∀ d ∈ rest, decide (d ≠ '\n') = true := by
      intro d hd
      refine decide_eq_true fun he => newline_notMem hplain ?_
      rw [← hrest, ← he]
      exact List.mem_append_right _ hd
    have htake : rest.takeWhile (· ≠ '\n') = rest := List.takeWhile_eq_self_iff.mpr hpos
    have hnil : rest.dropWhile (· ≠ '\n') = [] := List.dropWhile_eq_nil_iff.mpr hpos
    have hback : rewrite l.path back path = some (UrlPath.join c.segments) := by
      simp only [rewrite, hdrop, htake, hnil, true_or, if_true, hrest]
    simp only [Location.upstream, Location.forward, hnone, Option.map_none, hrewrite,
      Option.bind_some, hback]

theorem Routed.takes (h : Routed c l back e) (hplain : ∀ text ∈ c.path, Plain text)
    {headers : Headers} :
    e.takes ⟨l.service, c.method, UrlPath.join c.segments, headers⟩ = true := by
  have hfits : fitsPath e.template (UrlPath.join c.segments) = true := by
    have hsegments := h.fits
    cases hpath : c.segments with
    | nil =>
      rw [hpath] at hsegments
      obtain ⟨_, _, he⟩ := fits_cons hsegments
      cases he
    | cons t segments =>
      have hslash : ∀ u ∈ t :: segments, '/' ∉ u := by
        intro u hu hmem
        rw [← hpath] at hu
        obtain ⟨text, htext, rfl⟩ := List.mem_map.mp hu
        exact ((hplain text htext).segment.chars '/' hmem).1 rfl
      rw [UrlPath.join_cons, fitsPath, UrlPath.splitOn_join hslash, ← hpath]
      exact hsegments
  simp [Endpoint.takes, h.service, h.method, hfits]

theorem fits_lit_cons {rest : List Segment} {segments : List (List Char)}
    (h : RouteTemplate.fits rest segments = true) :
    RouteTemplate.fits (.lit text :: rest) (text.toList :: segments) = true := by
  cases rest with
  | nil =>
    cases segments with
    | nil => simp [RouteTemplate.fits]
    | cons t segments => simp [RouteTemplate.fits] at h
  | cons segment rest => simp [RouteTemplate.fits, h]

theorem fits_param_cons {rest : List Segment} {segments : List (List Char)} (ht : Plain text)
    (h : RouteTemplate.fits rest segments = true) :
    RouteTemplate.fits (.param :: rest) (text.toList :: segments) = true := by
  simp [RouteTemplate.fits, ht.segment.nonempty, h]

/-- The gateway asks `validate` about the request, and takes it to a route that reads the
identity. -/
def Routes (c : Call) : Prop :=
  ∃ l back e, Routed c l back e ∧ l.authRequest = true ∧ e.audience = .identified

theorem routes_of (l : Location) (back first : String) (rest : List Segment)
    (hl : l ∈ locations ∧ l.authRequest = true ∧ l.path = "/api" ++ back ∧
      (l.uri = some back ∨ l.uri = none ∧ rewriteRules.lookup l.path = some back))
    (he : decide (⟨l.service, c.method, first, rest, .identified⟩ ∈ endpoints) = true)
    (hfront : back.toList <+: UrlPath.join c.segments)
    (hfits : RouteTemplate.fits (.lit first :: rest) c.segments = true) : Routes c := by
  obtain ⟨hl, hauth, hpath, hreplaced⟩ := hl
  exact ⟨l, back, _, ⟨hl, hpath, hreplaced, hfront, of_decide_eq_true he, rfl, rfl, hfits⟩, hauth,
    rfl⟩

theorem routes_of_requests (h : Requests s page c) (hlogin : page ≠ .login) : Routes c := by
  let admin : Location := ⟨"/api/admin/", true, .auth, none⟩
  let cases : Location := ⟨"/api/cases", true, .auth, none⟩
  let evidence : Location := ⟨"/api/evidence", true, .evidence, some "/evidence"⟩
  let custody : Location := ⟨"/api/custody", true, .custody, some "/custody"⟩
  let ledger : Location := ⟨"/api/ledger", true, .ledger, some "/ledger"⟩
  let reports : Location := ⟨"/api/reports", true, .report, some "/reports"⟩
  cases h with
  | login => exact (hlogin rfl).elim
  | dashboardAdmin | adminCases | adminCreateCase =>
    exact routes_of admin "/admin/" "admin" [.lit "cases"] (by decide) rfl ⟨_, rfl⟩
      (fits_lit_cons (fits_lit_cons rfl))
  | adminUsers | adminCreateUser =>
    exact routes_of admin "/admin/" "admin" [.lit "users"] (by decide) rfl ⟨_, rfl⟩
      (fits_lit_cons (fits_lit_cons rfl))
  | adminDeleteUser id =>
    exact routes_of admin "/admin/" "admin" [.lit "users", .param] (by decide) rfl ⟨_, rfl⟩
      (fits_lit_cons (fits_lit_cons (fits_param_cons (plain_uuid id) rfl)))
  | adminUpdateCase id =>
    exact routes_of admin "/admin/" "admin" [.lit "cases", .param] (by decide) rfl ⟨_, rfl⟩
      (fits_lit_cons (fits_lit_cons (fits_param_cons (plain_uuid id) rfl)))
  | adminAssignments id | adminAssign id =>
    exact routes_of admin "/admin/" "admin" [.lit "cases", .param, .lit "assignments"] (by decide)
      rfl ⟨_, rfl⟩
      (fits_lit_cons (fits_lit_cons (fits_param_cons (plain_uuid id) (fits_lit_cons rfl))))
  | adminUnassign id assignmentId =>
    exact routes_of admin "/admin/" "admin" [.lit "cases", .param, .lit "assignments", .param]
      (by decide) rfl ⟨_, rfl⟩ (fits_lit_cons (fits_lit_cons (fits_param_cons (plain_uuid id)
        (fits_lit_cons (fits_param_cons (plain_uuid assignmentId) rfl)))))
  | dashboardCases | uploadCases | ledgerCases =>
    exact routes_of cases "/cases" "cases" [] (by decide) rfl ⟨_, rfl⟩ (fits_lit_cons rfl)
  | dashboardArtifacts | casesArtifacts | upload | list =>
    exact routes_of evidence "/evidence" "evidence" [] (by decide) rfl ⟨_, rfl⟩ (fits_lit_cons rfl)
  | detail hp =>
    exact routes_of evidence "/evidence" "evidence" [.param] (by decide) rfl ⟨_, rfl⟩
      (fits_lit_cons (fits_param_cons hp rfl))
  | detailVerify hp =>
    exact routes_of evidence "/evidence" "evidence" [.param, .lit "verify"] (by decide) rfl
      ⟨_, rfl⟩ (fits_lit_cons (fits_param_cons hp (fits_lit_cons rfl)))
  | detailDownload id hr =>
    exact routes_of evidence "/evidence" "evidence" [.param, .lit "download"] (by decide) rfl
      ⟨_, rfl⟩ (fits_lit_cons (fits_param_cons (plain_uuid id) (fits_lit_cons rfl)))
  | detailTimeline hp =>
    exact routes_of custody "/custody" "custody" [.param, .lit "timeline"] (by decide) rfl
      ⟨_, rfl⟩ (fits_lit_cons (fits_param_cons hp (fits_lit_cons rfl)))
  | ledgerRecords hp =>
    exact routes_of ledger "/ledger" "ledger" [.lit "records", .param] (by decide) rfl ⟨_, rfl⟩
      (fits_lit_cons (fits_lit_cons (fits_param_cons hp rfl)))
  | ledgerValidate hp =>
    exact routes_of ledger "/ledger" "ledger" [.lit "validate", .param] (by decide) rfl ⟨_, rfl⟩
      (fits_lit_cons (fits_lit_cons (fits_param_cons hp rfl)))
  | reportList hp =>
    exact routes_of reports "/reports" "reports" [.lit "by-artifact", .param] (by decide) rfl
      ⟨_, rfl⟩ (fits_lit_cons (fits_lit_cons (fits_param_cons hp rfl)))
  | reportGenerate hp =>
    exact routes_of reports "/reports" "reports" [.param] (by decide) rfl ⟨_, rfl⟩
      (fits_lit_cons (fits_param_cons hp rfl))
  | reportVerify id =>
    exact routes_of reports "/reports" "reports" [.param, .lit "verify"] (by decide) rfl
      ⟨_, rfl⟩ (fits_lit_cons (fits_param_cons (plain_uuid id) (fits_lit_cons rfl)))
  | reportDownload id =>
    exact routes_of reports "/reports" "reports" [.param, .lit "download"] (by decide) rfl
      ⟨_, rfl⟩ (fits_lit_cons (fits_param_cons (plain_uuid id) (fits_lit_cons rfl)))

end ForensicChain.Ui
