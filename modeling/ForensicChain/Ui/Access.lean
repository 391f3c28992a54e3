import ForensicChain.Ui.Requests

/-!
What the web client offers agrees with what the gateway allows: a page that is shown to a role makes
the requests of that role, but for two that the gateway refuses.
-/
namespace ForensicChain.Ui

open Gateway RouteTemplate

variable {s : Session} {page : Page} {c : Call} {role method pattern text token : String}
  {allowed : List String} {front : List Char}

/-- Custody timelines are refused to all but reviewers, which the page knows; and the list of a
case to administrators, to whom its page is shown all the same. -/
def Refused (s : Session) (page : Page) (c : Call) : Prop :=
  (∃ id, c = getTimeline id) ∧ s.getRole ≠ some "legal_reviewer" ∨
    (∃ caseId, page = .cases caseId) ∧ s.getRole = some "admin"

def Allowed (role : String) (c : Call) : Prop :=
  isAuthorized role c.method (String.ofList c.uri) = true

/-- The rule of a prefix lets a request through that no other rule, for such paths, refuses. -/
theorem allowed_of_front (pattern : String) (allowed : List String) (front : List Char)
    {more : List Char} (hmem : ⟨c.method, pattern, allowed⟩ ∈ rules)
    (hparse : Regex.parse pattern = front.map .char) (hle : front <+: more) (hmore : more <+: c.uri)
    (hall : ∀ r ∈ rules, r.method = c.method → r.front <+: more ∨ more <+: r.front →
      role ∈ r.allowed) : Allowed role c := by
  have huri : more <+: (String.ofList c.uri).toList := by rwa [String.toList_ofList]
  exact isAuthorized_of_front huri hmem (Bool.and_eq_true_iff.mpr
    ⟨decide_eq_true rfl, (Regex.isMatch_chars hparse).mpr (hle.trans huri)⟩) hall

/-- It allows its roles, where the others for such paths allow the same. -/
theorem allowed_of_prefix (pattern : String) (allowed : List String) (front : List Char)
    (hmem : ⟨c.method, pattern, allowed⟩ ∈ rules) (hparse : Regex.parse pattern = front.map .char)
    (hfront : front <+: c.uri) (hrole : role ∈ allowed)
    (hall : ∀ r ∈ rules, r.method = c.method → r.front <+: front ∨ front <+: r.front →
      r.allowed = allowed) : Allowed role c := by
  refine allowed_of_front pattern allowed front hmem hparse (List.prefix_refl front) hfront ?_
  intro r hr hm hcomparable
  rw [hall r hr hm hcomparable]
  exact hrole

/-- Whoever is allowed is named by a rule that starts as the request does, or goes on so. -/
theorem rule_of_allowed (h : Allowed role c) (hfront : front <+: c.uri) :
    ∃ r ∈ rules, r.method = c.method ∧ (r.front <+: front ∨ front <+: r.front) ∧
      role ∈ r.allowed := by
  obtain ⟨r, hr, happ, hrole⟩ := applies_of_isAuthorized h
  obtain ⟨hmethod, hmatch⟩ := Bool.and_eq_true_iff.mp happ
  rw [String.toList_ofList] at hmatch
  exact ⟨r, hr, of_decide_eq_true hmethod,
    List.prefix_or_prefix_of_prefix (Regex.front_prefix hmatch) hfront, hrole⟩

theorem allowed_cases (hrole : role ∈ ["investigator", "forensic_analyst", "legal_reviewer"]) :
    Allowed role listCases :=
  allowed_of_prefix "^/cases" _ "/cases".toList (by simp [rules, listCases]) (by decide) ⟨_, rfl⟩
    hrole (by decide)

theorem allowed_admin (hm : c.method ∈ ["GET", "POST", "PATCH", "DELETE"])
    (hfront : "/admin".toList <+: c.uri) : Allowed "admin" c := by
  simp only [List.mem_cons, List.not_mem_nil, or_false] at hm
  rcases hm with hm | hm | hm | hm <;>
    exact allowed_of_prefix "^/admin" ["admin"] "/admin".toList (by simp [rules, hm]) (by decide)
      hfront List.mem_cons_self (by rw [hm]; decide)

theorem allowed_reports (hm : c.method ∈ ["GET", "POST"]) (hfront : "/reports".toList <+: c.uri) :
    Allowed "legal_reviewer" c := by
  simp only [List.mem_cons, List.not_mem_nil, or_false] at hm
  rcases hm with hm | hm <;>
    exact allowed_of_prefix "^/reports" ["legal_reviewer"] "/reports".toList (by simp [rules, hm])
      (by decide) hfront List.mem_cons_self (by rw [hm]; decide)

theorem allowed_ledger (hm : c.method = "GET") (hfront : "/ledger".toList <+: c.uri) :
    Allowed "legal_reviewer" c :=
  allowed_of_prefix "^/ledger" ["legal_reviewer"] "/ledger".toList (by simp [rules, hm])
    (by decide) hfront List.mem_cons_self (by rw [hm]; decide)

/-- A timeline is for reviewers. -/
theorem allowed_timeline : Allowed role (getTimeline text) ↔ role = "legal_reviewer" := by
  have hfront : "/custody".toList <+: (getTimeline text).uri := ⟨_, rfl⟩
  have honly : ∀ r ∈ rules, r.method = "GET" →
      r.front <+: "/custody".toList ∨ "/custody".toList <+: r.front →
        r.allowed = ["legal_reviewer"] := by decide
  constructor
  · intro h
    obtain ⟨r, hr, hm, hcomparable, hrole⟩ := rule_of_allowed h hfront
    rw [honly r hr hm hcomparable] at hrole
    exact List.mem_singleton.mp hrole
  · rintro rfl
    exact allowed_of_prefix "^/custody" ["legal_reviewer"] "/custody".toList
      (by simp [rules, getTimeline]) (by decide) hfront List.mem_cons_self honly

/-- The list of a case is for those who work with artifacts. -/
theorem allowed_caseArtifacts : Allowed role (listArtifacts (some text)) ↔
    role ∈ ["investigator", "forensic_analyst", "legal_reviewer"] := by
  have hfront : "/evidence?".toList <+: (listArtifacts (some text)).uri := ⟨_, rfl⟩
  have honly : ∀ r ∈ rules, r.method = "GET" →
      r.front <+: "/evidence?".toList ∨ "/evidence?".toList <+: r.front →
        r.allowed = ["investigator", "forensic_analyst", "legal_reviewer"] := by decide
  constructor
  · intro h
    obtain ⟨r, hr, hm, hcomparable, hrole⟩ := rule_of_allowed h hfront
    rw [honly r hr hm hcomparable] at hrole
    exact hrole
  · intro hrole
    refine allowed_of_front "^/evidence" ["investigator", "forensic_analyst", "legal_reviewer"]
      "/evidence".toList (by simp [rules, listArtifacts]) (by decide) (by decide) hfront
      fun r hr hm hcomparable => ?_
    rw [honly r hr hm hcomparable]
    exact hrole

theorem allowed_list (hrole : role ∈ ["investigator", "forensic_analyst", "legal_reviewer"]) :
    Allowed role (listArtifacts none) := by
  have hfind : rules.find? (fun r => r.applies "GET" (String.ofList (listArtifacts none).uri)) =
      some ⟨"GET", "^/evidence", ["investigator", "forensic_analyst", "legal_reviewer"]⟩ := by rfl
  rw [Allowed, isAuthorized, show (listArtifacts none).method = "GET" from rfl, hfind]
  exact decide_eq_true hrole

theorem allowed_upload (hrole : role ∈ ["investigator", "forensic_analyst"]) :
    Allowed role uploadArtifact := by
  have hfind : rules.find? (fun r => r.applies "POST" (String.ofList uploadArtifact.uri)) =
      some ⟨"POST", "^/evidence/?$", ["investigator", "forensic_analyst"]⟩ := by rfl
  rw [Allowed, isAuthorized, show uploadArtifact.method = "POST" from rfl, hfind]
  exact decide_eq_true hrole

/-- The request for an artifact is not taken for a download. -/
theorem allowed_artifact (hp : Plain text)
    (hrole : role ∈ ["investigator", "forensic_analyst", "legal_reviewer"]) :
    Allowed role (getArtifact text) := by
  have huri : (String.ofList (getArtifact text).uri).toList =
      "/evidence/".toList ++ text.toList := by
    rw [String.toList_ofList]
    simp [Call.uri, Call.segments, getArtifact, UrlPath.join]
  have hparse : Regex.parse "^/evidence" = "/evidence".toList.map .char := by decide
  have hrules : ∀ r ∈ rules, r.method = "GET" →
      r.front <+: "/evidence/".toList ∨ "/evidence/".toList <+: r.front →
        r.allowed = ["investigator", "forensic_analyst", "legal_reviewer"] ∨
          r.pattern = "^/evidence/[^/]+/download/?$" := by decide
  have hmem : ⟨"GET", "^/evidence", ["investigator", "forensic_analyst", "legal_reviewer"]⟩ ∈
      rules := by simp [rules]
  refine isAuthorized_of_forall hmem ?_ fun r hr happ => ?_
  · refine Bool.and_eq_true_iff.mpr ⟨rfl, (Regex.isMatch_chars hparse).mpr ?_⟩
    rw [huri]
    exact ⟨'/' :: text.toList, rfl⟩
  · obtain ⟨hm, hmatch⟩ := Bool.and_eq_true_iff.mp happ
    rw [huri] at hmatch
    have hcomparable := List.prefix_or_prefix_of_prefix (Regex.front_prefix hmatch)
      (List.prefix_append "/evidence/".toList text.toList)
    rcases hrules r hr (of_decide_eq_true hm) hcomparable with hall | hdownload
    · rw [hall]
      exact hrole
    · rw [hdownload] at hmatch
      obtain ⟨id, ending, _, _, _, heq⟩ := (action_matches download_parse).mp hmatch
      rw [List.append_assoc, List.append_assoc, List.append_cancel_left_eq] at heq
      have hslash : '/' ∈ text.toList := by
        rw [heq]
        exact List.mem_append_right _ (List.mem_append_left _ (by decide))
      exact absurd rfl (hp.segment.chars '/' hslash).1

theorem allowed_verify (hp : Plain text)
    (hrole : role ∈ ["investigator", "forensic_analyst", "legal_reviewer"]) :
    Allowed role (verifyArtifact text) := by
  have huri : (String.ofList (verifyArtifact text).uri).toList =
      "/evidence/".toList ++ (text.toList ++ "/verify".toList) := by
    rw [String.toList_ofList]
    simp [Call.uri, Call.segments, verifyArtifact, UrlPath.join]
  have hrules : ∀ r ∈ rules, r.method = "POST" →
      r.front <+: "/evidence/".toList ∨ "/evidence/".toList <+: r.front →
        r.allowed = ["investigator", "forensic_analyst", "legal_reviewer"] ∨
          r.pattern = "^/evidence/?$" := by decide
  have hmem : ⟨"POST", "^/evidence/[^/]+/verify/?$",
      ["investigator", "forensic_analyst", "legal_reviewer"]⟩ ∈ rules := by simp [rules]
  refine isAuthorized_of_forall hmem ?_ fun r hr happ => ?_
  · refine Bool.and_eq_true_iff.mpr ⟨rfl, (action_matches verify_parse).mpr ?_⟩
    refine ⟨text.toList, [], hp.segment.nonempty, fun h => (hp.segment.chars '/' h).1 rfl,
      by decide, ?_⟩
    rw [huri, List.append_nil, List.append_assoc]
  · obtain ⟨hm, hmatch⟩ := Bool.and_eq_true_iff.mp happ
    rw [huri] at hmatch
    have hcomparable := List.prefix_or_prefix_of_prefix (Regex.front_prefix hmatch)
      (List.prefix_append "/evidence/".toList _)
    rcases hrules r hr (of_decide_eq_true hm) hcomparable with hall | hupload
    · rw [hall]
      exact hrole
    · rw [hupload] at hmatch
      obtain ⟨ending, hend, heq⟩ := upload_matches.mp hmatch
      have hlen := congrArg List.length heq
      have hshort : ∀ ending ∈ endings, ending.length ≤ 2 := by decide
      have hle := hshort ending hend
      simp at hlen
      omega

theorem allowed_download : Allowed "forensic_analyst" (downloadArtifact text) := by
  have hfront : "/evidence/".toList <+: (downloadArtifact text).uri := ⟨_, rfl⟩
  have hall : ∀ r ∈ rules, r.method = "GET" →
      r.front <+: "/evidence/".toList ∨ "/evidence/".toList <+: r.front →
        "forensic_analyst" ∈ r.allowed := by decide
  exact allowed_of_front "^/evidence" ["investigator", "forensic_analyst", "legal_reviewer"]
    "/evidence".toList (by simp [rules, downloadArtifact]) (by decide) (by decide) hfront hall

theorem not_refused (hline : ∀ id, c ≠ getTimeline id) (hcase : ∀ caseId, page ≠ .cases caseId) :
    ¬ Refused s page c := by
  rintro (⟨⟨id, he⟩, _⟩ | ⟨⟨caseId, he⟩, _⟩)
  · exact hline id he
  · exact hcase caseId he

/-- On an admitted page the session has one of the roles of the page. -/
theorem Admitted.role_mem (h : Admitted s page) (hp : page.hasLayout = true)
    (hr : s.getRole = some role) : role ∈ page.allowedRoles := by
  obtain ⟨_, role', hr', hmem⟩ := h.guard hp
  rwa [Option.some.inj (hr.symm.trans hr')] at *

theorem refused_timeline (hr : s.getRole = some role) (hcase : ∀ caseId, page ≠ .cases caseId) :
    Refused s page (getTimeline text) ↔ role ≠ "legal_reviewer" := by
  simp [Refused, hr, hcase, getTimeline]

theorem refused_case (hr : s.getRole = some role) :
    Refused s (.cases text) (listArtifacts (some text)) ↔ role = "admin" := by
  simp [Refused, hr, listArtifacts, getTimeline]

/-- The gateway lets every request of a page through that is not one of the two. -/
theorem allowed_iff (h : Admitted s page) (hlogin : page ≠ .login) (hr : s.getRole = some role)
    (hq : Requests s page c) : Allowed role c ↔ ¬ Refused s page c := by
  have hrole := fun hp => h.role_mem hp hr
  cases hq with
  | login => exact (hlogin rfl).elim
  | dashboardAdmin hadmin =>
    obtain rfl := Option.some.inj (hr.symm.trans hadmin)
    exact iff_of_true (allowed_admin (by decide) (by decide))
      (not_refused (by simp [listAdminCases, getTimeline]) (by simp))
  | dashboardCases hne =>
    exact iff_of_true (allowed_cases (mem_of_ne_admin (hrole rfl) hr hne))
      (not_refused (by simp [listCases, getTimeline]) (by simp))
  | dashboardArtifacts hne =>
    exact iff_of_true (allowed_list (mem_of_ne_admin (hrole rfl) hr hne))
      (not_refused (by simp [listArtifacts, getTimeline]) (by simp))
  | casesArtifacts hp =>
    have hmem := hrole rfl
    rw [allowed_caseArtifacts, refused_case hr]
    simp only [Page.allowedRoles, List.mem_cons, List.not_mem_nil, or_false] at hmem ⊢
    rcases hmem with rfl | rfl | rfl | rfl <;> decide
  | uploadCases =>
    exact iff_of_true (allowed_cases (List.mem_append_left ["legal_reviewer"] (hrole rfl)))
      (not_refused (by simp [listCases, getTimeline]) (by simp))
  | upload =>
    exact iff_of_true (allowed_upload (hrole rfl))
      (not_refused (by simp [uploadArtifact, getTimeline]) (by simp))
  | list =>
    exact iff_of_true (allowed_list (hrole rfl))
      (not_refused (by simp [listArtifacts, getTimeline]) (by simp))
  | detail hp =>
    exact iff_of_true (allowed_artifact hp (hrole rfl))
      (not_refused (by simp [getArtifact, getTimeline]) (by simp))
  | detailTimeline hp =>
    rw [allowed_timeline, refused_timeline hr (by simp), not_not]
  | detailVerify hp =>
    exact iff_of_true (allowed_verify hp (hrole rfl))
      (not_refused (by simp [verifyArtifact, getTimeline]) (by simp))
  | detailDownload id hanalyst =>
    obtain rfl := Option.some.inj (hr.symm.trans hanalyst)
    exact iff_of_true allowed_download
      (not_refused (by simp [downloadArtifact, getTimeline]) (by simp))
  | ledgerCases =>
    exact iff_of_true (allowed_cases (by simp [List.mem_singleton.mp (hrole rfl)]))
      (not_refused (by simp [listCases, getTimeline]) (by simp))
  | ledgerRecords hp | ledgerValidate hp =>
    obtain rfl := List.mem_singleton.mp (hrole rfl)
    exact iff_of_true (allowed_ledger rfl ⟨_, rfl⟩)
      (not_refused (by simp [getLedgerRecords, validateLedgerChain, getTimeline]) (by simp))
  | reportList hp | reportGenerate hp | reportVerify id | reportDownload id =>
    obtain rfl := List.mem_singleton.mp (hrole rfl)
    exact iff_of_true (allowed_reports (of_decide_eq_true rfl) ⟨_, rfl⟩) (not_refused
      (by simp [listReportsByArtifact, generateReport, verifyReport, downloadReport, getTimeline])
      (by simp))
  | adminUsers | adminCreateUser | adminCases | adminCreateCase =>
    obtain rfl := List.mem_singleton.mp (hrole rfl)
    exact iff_of_true (allowed_admin (by decide) (by decide))
      (not_refused (by simp [getUsers, createUser, listAdminCases, createCase, getTimeline])
        (by simp))
  | adminDeleteUser id | adminUpdateCase id | adminAssignments id | adminAssign id
  | adminUnassign id other =>
    obtain rfl := List.mem_singleton.mp (hrole rfl)
    exact iff_of_true (allowed_admin (of_decide_eq_true rfl) ⟨_, rfl⟩)
      (not_refused (by simp [deleteUser, updateCaseStatus, listAssignments, createAssignment,
        deleteAssignment, getTimeline]) (by simp))

/-- The auth service accepts the token of the browser, the client reads the same role in it, and its
subject can be sent in a header. -/
structure Accepted (jwtDecode : String → Option JwtPayload)
    (decodeAccessToken : String → Option Payload) (b : Browser) (payload : Payload) : Prop where
  token : ∃ token, b.token = some token ∧ token ≠ "" ∧ decodeAccessToken token = some payload
  role : (b.session jwtDecode).getRole = payload.role
  latin1 : isLatin1 (payload.sub.getD "") = true
  sendable : Header.isSendable (payload.sub.getD "") = true

variable {jwtDecode : String → Option JwtPayload} {decodeAccessToken : String → Option Payload}
  {b : Browser} {payload : Payload} {corrId : Uuid} {path : Path}

theorem hasLayout_of_requests (h : Requests s page c) (hlogin : page ≠ .login) :
    page.hasLayout = true := by
  cases h with
  | login => exact (hlogin rfl).elim
  | _ => rfl

theorem upper_method (h : Requests s page c) : Text.upper (orDefault "GET" (some c.method)) =
    c.method := by
  have hmethods : ∀ m ∈ ["GET", "POST", "PATCH", "DELETE"],
      Text.upper (orDefault "GET" (some m)) = m := by decide
  apply hmethods
  cases h <;> exact of_decide_eq_true rfl

instance : Decidable (Allowed role c) := inferInstanceAs (Decidable (_ = true))

/-- What `validate` answers about the requests of a page. -/
theorem validate_request (hacc : Accepted jwtDecode decodeAccessToken b payload)
    (hr : payload.role = some role) (hq : Requests s page c) :
    validate decodeAccessToken corrId (b.headers.lookup "authorization") (some c.target)
        (some c.method) =
      if Allowed role c then .ok ⟨payload.sub.getD "", payload.sub.getD "", role, corrId⟩
      else .error ⟨403, "Forbidden"⟩ := by
  obtain ⟨token, hb, hne, htoken⟩ := hacc.token
  have hheader : b.headers.lookup "authorization" = some ("Bearer " ++ token) := by
    simp [Browser.headers, hb, hne]
  have huri : Text.removePrefix "/api" (orDefault "/" (some c.target)) = String.ofList c.uri := by
    rw [target_eq, orDefault_some (by simp), Text.removePrefix_append]
  simp only [validate, hheader, Text.startsWith_append, Text.removePrefix_append, htoken, huri,
    upper_method hq, hr, hacc.latin1, Option.getD_some, Bool.not_true, Bool.false_eq_true, if_false]
  by_cases hallowed : Allowed role c
  · rw [if_pos hallowed, show isAuthorized role c.method (String.ofList c.uri) = true from hallowed]
    rfl
  · rw [if_neg hallowed, if_pos (by simpa [Allowed] using hallowed)]

theorem field_of_mem (h : role ∈ page.allowedRoles) : Header.field role = some role := by
  have hroles : ∀ role ∈ ["investigator", "forensic_analyst", "legal_reviewer", "admin"],
      Header.field role = some role := by decide
  apply hroles
  cases page <;> simp only [Page.allowedRoles, List.mem_cons, List.not_mem_nil, or_false] at h ⊢ <;>
    tauto

/-- What a browser requests of the gateway from the page of a location reaches a route of a service,
under the role that the page is shown to. What the gateway refuses it forbids; the client keeps its
session then, and stays where it is. -/
theorem requests_served (hacc : Accepted jwtDecode decodeAccessToken b payload)
    (hpath : openPath (b.session jwtDecode) path = .page page) (hlogin : page ≠ .login)
    (hq : Requests (b.session jwtDecode) page c) :
    (¬ Refused (b.session jwtDecode) page c → ∃ u,
      proxy decodeAccessToken corrId c.method c.target b.headers = some u ∧
      (∃ e ∈ endpoints, e.takes u = true ∧ e.audience = .identified) ∧
      u.headers.lookup "x-user-role" = (b.session jwtDecode).getRole) ∧
    (Refused (b.session jwtDecode) page c → ∃ error,
      validate decodeAccessToken corrId (b.headers.lookup "authorization") (some c.target)
        (some c.method) = .error error ∧
      error.statusCode = 403 ∧ b.answered error.statusCode = (b, none)) := by
  have hadmitted := admitted_of_openPath hpath
  obtain ⟨_, role, hr, hmem⟩ := hadmitted.guard (hasLayout_of_requests hq hlogin)
  have hrole : payload.role = some role := hacc.role.symm.trans hr
  have hvalid : validate decodeAccessToken corrId (b.headers.lookup "authorization")
      (some c.target) (some c.method) = _ := validate_request hacc hrole hq
  have hiff := allowed_iff hadmitted hlogin hr hq
  constructor
  · intro hserved
    rw [if_pos (hiff.mpr hserved)] at hvalid
    obtain ⟨l, back, e, hrouted, hauth, haudience⟩ := routes_of_requests hq hlogin
    have hplain := plain_of_requests hq
    have hproxy : ∃ u, proxy decodeAccessToken corrId c.method c.target b.headers = some u ∧
        e.takes u = true := by
      simp only [proxy, hrouted.route hplain, hrouted.upstream hplain, hauth, hvalid,
        hacc.sendable, if_true, Option.bind_eq_bind, Option.bind_some]
      exact ⟨_, rfl, hrouted.takes hplain⟩
    obtain ⟨u, hu, htakes⟩ := hproxy
    obtain ⟨identity, hvalid', _, hheaders⟩ :=
      identity_of_takes hu hrouted.endpoint htakes haudience
    rw [hvalid] at hvalid'
    obtain rfl := Except.ok.inj hvalid'
    refine ⟨u, hu, ⟨e, hrouted.endpoint, htakes, haudience⟩, ?_⟩
    rw [hheaders "x-user-role" role (by simp [Identity.headers]), field_of_mem hmem, hr]
  · intro hrefused
    rw [if_neg fun hallowed => hiff.mp hallowed hrefused] at hvalid
    exact ⟨_, hvalid, rfl, rfl⟩

def reviewerBrowser : Browser := ⟨some "t", 0⟩

/-- A reviewer's client opens the page of the ledger, and asks for the records of a case there. -/
theorem reviewer_records_served : ∃ u, proxy reviewerTokens (.ofNat 1) "GET"
      "/api/ledger/records/CASE-2025-001" reviewerBrowser.headers = some u ∧
    u.headers.lookup "x-user-role" = some "legal_reviewer" := by
  let jwtDecode : String → Option JwtPayload :=
    fun _ => some ⟨"reviewer01", some "reviewer01", some "legal_reviewer", 1⟩
  have hacc : Accepted jwtDecode reviewerTokens reviewerBrowser
      ⟨some "reviewer01", some "legal_reviewer"⟩ :=
    ⟨⟨"t", rfl, by decide, rfl⟩, rfl, by decide, by decide⟩
  have hpage : openPath (reviewerBrowser.session jwtDecode) ["ledger"] = .page .ledger := rfl
  have hserved : ¬ Refused (reviewerBrowser.session jwtDecode) .ledger
      (getLedgerRecords "CASE-2025-001") := by
    simp [Refused, getLedgerRecords, getTimeline]
  obtain ⟨u, hu, _, hrole⟩ :=
    (requests_served hacc hpage (by decide) (.ledgerRecords (by decide))).1 hserved
  exact ⟨u, hu, hrole⟩

end ForensicChain.Ui
