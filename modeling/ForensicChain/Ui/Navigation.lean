import ForensicChain.Gateway.Rbac
import ForensicChain.Library.RouteTemplate

/-!
The routes of the web client: the page that a location leads to, and the redirects on the way. The
client reads its token without checking the signature; what it shows is no protection, but has to
agree with what the gateway allows.
-/
namespace ForensicChain.Ui

open RouteTemplate (Segment)

/-- The claims that the client reads. -/
structure JwtPayload where
  sub : String
  username : Option String
  role : Option String
  exp : Int

/-- The token under `fc_token`, and the clock in milliseconds. -/
structure Browser where
  token : Option String
  now : Int

/-- `jwtDecode` is `none` where it throws. -/
def decodeToken (jwtDecode : String → Option JwtPayload) (b : Browser) : Option JwtPayload :=
  match b.token with
  | none => none
  | some token => if token = "" then none else jwtDecode token

/-- What the guards of the client look at. -/
structure Session where
  payload : Option JwtPayload
  now : Int

def Browser.session (jwtDecode : String → Option JwtPayload) (b : Browser) : Session :=
  ⟨decodeToken jwtDecode b, b.now⟩

namespace Session

def isAuthenticated (s : Session) : Bool :=
  match s.payload with
  | none => false
  | some payload => s.now < payload.exp * 1000

def getRole (s : Session) : Option String := s.payload.bind JwtPayload.role

def hasRole (s : Session) (roles : List String) : Bool :=
  match s.getRole with
  | none => false
  | some role => role ≠ "" && role ∈ roles

end Session

/-- The pages, with what `useParams` gives them. -/
inductive Page
  | login
  | unauthorized
  | dashboard
  | cases (caseId : String)
  | artifactUpload
  | artifactList
  | artifactDetail (id : String)
  | ledger
  | report (artifactId : String)
  | admin
  deriving DecidableEq

/-- A route of `App`; one without roles stands outside every `ProtectedRoute`. -/
structure Route where
  template : List Segment
  allowedRoles : Option (List String)
  element : List String → Page

def routes : List Route := [
  ⟨[.lit "login"], none, fun _ => .login⟩,
  ⟨[.lit "unauthorized"], none, fun _ => .unauthorized⟩,
  ⟨[], some ["investigator", "forensic_analyst", "legal_reviewer", "admin"], fun _ => .dashboard⟩,
  ⟨[.lit "cases", .param], some ["investigator", "forensic_analyst", "legal_reviewer", "admin"],
    fun params => .cases (params.headD "")⟩,
  ⟨[.lit "artifacts", .lit "upload"], some ["investigator", "forensic_analyst"],
    fun _ => .artifactUpload⟩,
  ⟨[.lit "artifacts"], some ["investigator", "forensic_analyst", "legal_reviewer"],
    fun _ => .artifactList⟩,
  ⟨[.lit "artifacts", .param], some ["investigator", "forensic_analyst", "legal_reviewer"],
    fun params => .artifactDetail (params.headD "")⟩,
  ⟨[.lit "ledger"], some ["legal_reviewer"], fun _ => .ledger⟩,
  ⟨[.lit "reports", .param], some ["legal_reviewer"], fun params => .report (params.headD "")⟩,
  ⟨[.lit "admin", .lit "users"], some ["admin"], fun _ => .admin⟩]

/-- The roles that the route of a page lets through. -/
def Page.allowedRoles : Page → List String
  | .login | .unauthorized => []
  | .dashboard | .cases _ => ["investigator", "forensic_analyst", "legal_reviewer", "admin"]
  | .artifactUpload => ["investigator", "forensic_analyst"]
  | .artifactList | .artifactDetail _ => ["investigator", "forensic_analyst", "legal_reviewer"]
  | .ledger | .report _ => ["legal_reviewer"]
  | .admin => ["admin"]

/-- The decoded segments of a location; slashes around them do not count. -/
abbrev Path := List String

/-- A literal segment matches in either case. -/
def matchTemplate : List Segment → Path → Option (List String)
  | [], [] => some []
  | .lit text :: template, s :: path =>
    if s.toList.map Char.toLower = text.toList then matchTemplate template path else none
  | .param :: template, s :: path => (matchTemplate template path).map (s :: ·)
  | _, _ => none

/-- How the router ranks a route: a literal segment counts more than a parameter. -/
def score : List Segment → Nat
  | [] => 0
  | .lit _ :: template => 10 + score template
  | .param :: template => 3 + score template

/-- The routes in the order in which the router tries them. -/
def rankedRoutes : List Route :=
  routes.insertionSort fun r q => score q.template ≤ score r.template

/-- The first route that matches, with the values of its parameters. -/
def matchRoute (path : Path) : Option (Route × List String) :=
  rankedRoutes.findSome? fun route => (matchTemplate route.template path).map (route, ·)

inductive Outcome
  | page (page : Page)
  | navigate (target : Path)

/-- Where `ProtectedRoute` sends a session that it does not let through. -/
def protectedRoute (allowedRoles : List String) (s : Session) : Option Path :=
  if !s.isAuthenticated then some ["login"]
  else if !s.hasRole allowedRoles then
    if s.getRole = some "admin" then some ["admin", "users"] else some ["unauthorized"]
  else none

def roleHome (s : Session) : Path := if !s.isAuthenticated then ["login"] else []

/-- `redirectForRole`. -/
def redirectForRole (_role : Option String) : Path := []

def openPage (s : Session) (page : Page) : Outcome :=
  if page = .login ∧ s.isAuthenticated then .navigate (redirectForRole s.getRole) else .page page

/-- What a location shows, or where it sends the browser. -/
def openPath (s : Session) (path : Path) : Outcome :=
  match matchRoute path with
  | none => .navigate (roleHome s)
  | some (route, params) =>
    match route.allowedRoles with
    | none => openPage s (route.element params)
    | some roles =>
      match protectedRoute roles s with
      | some target => .navigate target
      | none => openPage s (route.element params)

/-- The page that is shown after at most that many locations. -/
def settle (s : Session) : Nat → Path → Option Page
  | 0, _ => none
  | n + 1, path =>
    match openPath s path with
    | .page page => some page
    | .navigate target => settle s n target

example : (matchRoute ["Artifacts", "upload"]).map (fun r => r.1.element r.2) =
    some .artifactUpload := by rfl

/-- `path` is the `to` of an item. -/
structure NavItem where
  path : Path
  roles : List String

def navItems : List NavItem := [
  ⟨[], ["investigator", "forensic_analyst", "legal_reviewer", "admin"]⟩,
  ⟨["artifacts", "upload"], ["investigator", "forensic_analyst"]⟩,
  ⟨["artifacts"], ["investigator"]⟩,
  ⟨["artifacts"], ["forensic_analyst"]⟩,
  ⟨["artifacts"], ["legal_reviewer"]⟩,
  ⟨["ledger"], ["legal_reviewer"]⟩,
  ⟨["admin", "users"], ["admin"]⟩]

/-- The pages that `Layout` frames. -/
def Page.hasLayout (page : Page) : Bool := page ≠ .login && page ≠ .unauthorized

/-- An id that stands in a location and in a request as it is. -/
structure Plain (text : String) : Prop where
  nonempty : text ≠ ""
  chars : ∀ c ∈ text.toList, c.isAlphanum ∨ c = '-'

/-- The gateway has let the listing through whose rows a page shows. -/
def Listed (s : Session) : Prop :=
  ∃ role, s.getRole = some role ∧ Gateway.isAuthorized role "GET" "/evidence" = true

/-- What the links and buttons of a page lead to. -/
inductive Links (s : Session) : Page → Path → Prop
  | nav {page role item} (hp : page.hasLayout = true) (hi : item ∈ navItems)
      (hr : s.getRole = some role) (hrole : role ∈ item.roles) : Links s page item.path
  | dashboardCase {number} (hp : Plain number) (hr : s.getRole ≠ some "admin") :
      Links s .dashboard ["cases", number]
  | dashboardAdmin (hr : s.getRole = some "admin") : Links s .dashboard ["admin", "users"]
  | dashboardUpload (hr : s.getRole = some "investigator" ∨ s.getRole = some "forensic_analyst") :
      Links s .dashboard ["artifacts", "upload"]
  | dashboardArtifacts (hr : s.getRole ≠ some "admin") : Links s .dashboard ["artifacts"]
  | casesHome {caseId} : Links s (.cases caseId) []
  | casesRow {caseId} (id : Uuid) (hl : Listed s) : Links s (.cases caseId) ["artifacts", id.str]
  | uploaded (id : Uuid) : Links s .artifactUpload ["artifacts", id.str]
  | listUpload (hr : s.getRole = some "investigator" ∨ s.getRole = some "forensic_analyst") :
      Links s .artifactList ["artifacts", "upload"]
  | listRow (id : Uuid) (hl : Listed s) : Links s .artifactList ["artifacts", id.str]
  | detailHome {id} : Links s (.artifactDetail id) ["artifacts"]
  | detailReport {id} (hp : Plain id) (hr : s.getRole = some "legal_reviewer") :
      Links s (.artifactDetail id) ["reports", id]
  | reportHome {id} (hp : Plain id) : Links s (.report id) ["artifacts", id]
  | unauthorizedHome : Links s .unauthorized []

variable {s : Session} {path : Path} {page : Page} {route : Route} {params roles : List String}
  {role : String}

theorem matchRoute_mem (h : matchRoute path = some (route, params)) : route ∈ routes := by
  obtain ⟨r, hr, hmatch⟩ := List.exists_of_findSome?_eq_some h
  obtain ⟨_, _, he⟩ := Option.map_eq_some_iff.mp hmatch
  obtain ⟨rfl, _⟩ := Prod.mk.inj he
  exact (List.mem_insertionSort _).mp hr

/-- Behind a `ProtectedRoute` there is no login. -/
theorem guarded_routes : ∀ r ∈ routes, ∀ roles, r.allowedRoles = some roles →
    ∀ params, r.element params ≠ .login := by
  simp [routes]

theorem open_routes : ∀ r ∈ routes, r.allowedRoles = none →
    ∀ params, r.element params = .login ∨ r.element params = .unauthorized := by
  simp [routes]

theorem hasRole_iff : s.hasRole roles = true ↔
    ∃ role, s.getRole = some role ∧ role ≠ "" ∧ role ∈ roles := by
  unfold Session.hasRole
  cases s.getRole <;> simp

theorem roles_of_route : ∀ r ∈ routes, ∀ roles, r.allowedRoles = some roles →
    ∀ params, (r.element params).allowedRoles = roles := by
  simp [routes, Page.allowedRoles]

/-- The page may be shown to the session. -/
inductive Admitted (s : Session) : Page → Prop
  | login (h : s.isAuthenticated = false) : Admitted s .login
  | unauthorized : Admitted s .unauthorized
  | guarded {page : Page} (ha : s.isAuthenticated = true)
      (hrole : s.hasRole page.allowedRoles = true) : Admitted s page

/-- Where a session is sent. -/
inductive Redirected (s : Session) : Path → Prop
  | login (h : s.isAuthenticated = false) : Redirected s ["login"]
  | home (h : s.isAuthenticated = true) : Redirected s []
  | unauthorized : Redirected s ["unauthorized"]
  | admin (h : s.isAuthenticated = true) (hr : s.getRole = some "admin") :
      Redirected s ["admin", "users"]

theorem openPath_cases : (∃ page, openPath s path = .page page ∧ Admitted s page) ∨
    ∃ target, openPath s path = .navigate target ∧ Redirected s target := by
  unfold openPath
  cases hmatch : matchRoute path with
  | none =>
    cases ha : s.isAuthenticated with
    | false => exact .inr ⟨_, rfl, by simpa [roleHome, ha] using .login ha⟩
    | true => exact .inr ⟨_, rfl, by simpa [roleHome, ha] using .home ha⟩
  | some found =>
    obtain ⟨route, params⟩ := found
    have hmem := matchRoute_mem hmatch
    simp only
    cases hroles : route.allowedRoles with
    | none =>
      rcases open_routes route hmem hroles params with hpage | hpage
      · cases ha : s.isAuthenticated with
        | false => exact .inl ⟨.login, by simp [openPage, hpage, ha], .login ha⟩
        | true => exact .inr ⟨[], by simp [openPage, hpage, ha, redirectForRole], .home ha⟩
      · exact .inl ⟨.unauthorized, by simp [openPage, hpage], .unauthorized⟩
    | some roles =>
      have hlogin := guarded_routes route hmem roles hroles params
      cases ha : s.isAuthenticated with
      | false => exact .inr ⟨_, by simp [protectedRoute, ha], .login ha⟩
      | true =>
        cases hrole : s.hasRole roles with
        | true =>
          have hpage : s.hasRole (route.element params).allowedRoles = true := by
            rw [roles_of_route route hmem roles hroles, hrole]
          exact .inl ⟨route.element params, by simp [protectedRoute, ha, hrole, openPage, hlogin],
            .guarded ha hpage⟩
        | false =>
          by_cases hadmin : s.getRole = some "admin"
          · exact .inr ⟨_, by simp [protectedRoute, ha, hrole, hadmin], .admin ha hadmin⟩
          · exact .inr ⟨_, by simp [protectedRoute, ha, hrole, hadmin], .unauthorized⟩

/-- A location behind roles that the session has one of is shown. -/
theorem openPath_guarded (hmatch : matchRoute path = some (route, params))
    (hroles : route.allowedRoles = some roles) (ha : s.isAuthenticated = true)
    (hrole : s.hasRole roles = true) : openPath s path = .page (route.element params) := by
  have hlogin := guarded_routes route (matchRoute_mem hmatch) roles hroles params
  simp [openPath, hmatch, hroles, protectedRoute, ha, hrole, openPage, hlogin]

theorem openPath_unauthorized : openPath s ["unauthorized"] = .page .unauthorized := rfl

theorem openPath_login (ha : s.isAuthenticated = false) :
    openPath s ["login"] = .page .login := by
  have hmatch : matchRoute ["login"] = some (⟨[.lit "login"], none, fun _ => .login⟩, []) := rfl
  simp [openPath, hmatch, openPage, ha]

theorem openPath_admin (ha : s.isAuthenticated = true) (hr : s.getRole = some "admin") :
    openPath s ["admin", "users"] = .page .admin := by
  have hmatch : matchRoute ["admin", "users"] =
      some (⟨[.lit "admin", .lit "users"], some ["admin"], fun _ => .admin⟩, []) := rfl
  exact openPath_guarded hmatch rfl ha (by simp [hasRole_iff, hr])

theorem openPath_home (ha : s.isAuthenticated = true)
    (hr : s.hasRole ["investigator", "forensic_analyst", "legal_reviewer", "admin"] = true) :
    openPath s [] = .page .dashboard := by
  have hmatch : matchRoute [] = some (⟨[], some ["investigator", "forensic_analyst",
      "legal_reviewer", "admin"], fun _ => .dashboard⟩, []) := rfl
  exact openPath_guarded hmatch rfl ha hr

theorem admitted_of_openPath (h : openPath s path = .page page) : Admitted s page := by
  rcases openPath_cases with ⟨shown, hshown, hadmitted⟩ | ⟨target, htarget, _⟩
  · obtain rfl := Outcome.page.inj (hshown.symm.trans h)
    exact hadmitted
  · rw [htarget] at h
    cases h

/-- A session that is sent somewhere is shown a page there, or at the next location. -/
theorem Redirected.settles (h : Redirected s path) : ∃ page, settle s 2 path = some page ∧
    Admitted s page := by
  have hshown : ∀ {page}, openPath s path = .page page →
      ∃ page, settle s 2 path = some page ∧ Admitted s page := by
    intro page hpage
    exact ⟨page, by simp [settle, hpage], admitted_of_openPath hpage⟩
  cases h with
  | login ha => exact hshown (openPath_login ha)
  | unauthorized => exact hshown openPath_unauthorized
  | admin ha hr => exact hshown (openPath_admin ha hr)
  | home ha =>
    cases hrole : s.hasRole
        ["investigator", "forensic_analyst", "legal_reviewer", "admin"] with
    | true => exact hshown (openPath_home ha hrole)
    | false =>
      have hadmin : s.getRole ≠ some "admin" := by
        intro hr
        rw [hasRole_iff.mpr ⟨"admin", hr, by decide, by decide⟩] at hrole
        cases hrole
      have hmatch : matchRoute [] = some (⟨[], some ["investigator", "forensic_analyst",
          "legal_reviewer", "admin"], fun _ => .dashboard⟩, []) := rfl
      have hopen : openPath s [] = .navigate ["unauthorized"] := by
        simp [openPath, hmatch, protectedRoute, ha, hrole, hadmin]
      exact ⟨.unauthorized, by simp [settle, hopen, openPath_unauthorized], .unauthorized⟩

theorem settles (s : Session) (path : Path) : ∃ page, settle s 3 path = some page ∧
    Admitted s page := by
  rcases @openPath_cases s path with ⟨page, hpage, hadmitted⟩ |
    ⟨target, htarget, hredirected⟩
  · exact ⟨page, by simp [settle, hpage], hadmitted⟩
  · obtain ⟨page, hpage, hadmitted⟩ := hredirected.settles
    refine ⟨page, ?_, hadmitted⟩
    rw [settle, htarget]
    exact hpage

theorem rankedRoutes_eq : rankedRoutes = [
    ⟨[.lit "artifacts", .lit "upload"], some ["investigator", "forensic_analyst"],
      fun _ => .artifactUpload⟩,
    ⟨[.lit "admin", .lit "users"], some ["admin"], fun _ => .admin⟩,
    ⟨[.lit "cases", .param], some ["investigator", "forensic_analyst", "legal_reviewer", "admin"],
      fun params => .cases (params.headD "")⟩,
    ⟨[.lit "artifacts", .param], some ["investigator", "forensic_analyst", "legal_reviewer"],
      fun params => .artifactDetail (params.headD "")⟩,
    ⟨[.lit "reports", .param], some ["legal_reviewer"], fun params => .report (params.headD "")⟩,
    ⟨[.lit "login"], none, fun _ => .login⟩,
    ⟨[.lit "unauthorized"], none, fun _ => .unauthorized⟩,
    ⟨[.lit "artifacts"], some ["investigator", "forensic_analyst", "legal_reviewer"],
      fun _ => .artifactList⟩,
    ⟨[.lit "ledger"], some ["legal_reviewer"], fun _ => .ledger⟩,
    ⟨[], some ["investigator", "forensic_analyst", "legal_reviewer", "admin"],
      fun _ => .dashboard⟩] := rfl

theorem named_roles : ∀ r ∈ routes, ∀ roles, r.allowedRoles = some roles → "" ∉ roles := by
  simp [routes]

def Opens (s : Session) (path : Path) : Prop := ∃ page, openPath s path = .page page

theorem opens_of_match (hmatch : matchRoute path = some (route, params))
    (hroles : route.allowedRoles = some roles) (ha : s.isAuthenticated = true)
    (hr : s.getRole = some role) (hmem : role ∈ roles) : Opens s path := by
  have hne : role ≠ "" := by
    rintro rfl
    exact named_roles route (matchRoute_mem hmatch) roles hroles hmem
  exact ⟨_, openPath_guarded hmatch hroles ha (hasRole_iff.mpr ⟨role, hr, hne, hmem⟩)⟩

/-- An id that the router takes for the upload page. -/
def NamesUpload (id : String) : Prop := id.toList.map Char.toLower = "upload".toList

theorem not_namesUpload_uuid (id : Uuid) : ¬ NamesUpload id.str := by
  intro h
  have hlen := congrArg List.length h
  rw [List.length_map, String.length_toList, id.str_length] at hlen
  exact absurd hlen (by decide)

theorem matchRoute_artifact {id : String} (hid : ¬ NamesUpload id) : matchRoute ["artifacts", id] =
    some (⟨[.lit "artifacts", .param], some ["investigator", "forensic_analyst", "legal_reviewer"],
      fun params => .artifactDetail (params.headD "")⟩, [id]) := by
  have hupload : id.toList.map Char.toLower ≠ "upload".toList := hid
  have hartifacts : "artifacts".toList.map Char.toLower = "artifacts".toList := by decide
  have hadmin : "artifacts".toList ≠ "admin".toList := by decide
  have hcases : "artifacts".toList ≠ "cases".toList := by decide
  simp only [matchRoute, rankedRoutes_eq, List.findSome?_cons, matchTemplate, hartifacts, hadmin,
    hcases, hupload, if_true, if_false, Option.map_none, Option.map_some]

theorem matchRoute_upload {id : String} (hid : NamesUpload id) : matchRoute ["artifacts", id] =
    some (⟨[.lit "artifacts", .lit "upload"], some ["investigator", "forensic_analyst"],
      fun _ => .artifactUpload⟩, []) := by
  have hupload : id.toList.map Char.toLower = "upload".toList := hid
  have hartifacts : "artifacts".toList.map Char.toLower = "artifacts".toList := by decide
  simp only [matchRoute, rankedRoutes_eq, List.findSome?_cons, matchTemplate, hartifacts, hupload,
    if_true, Option.map_some]

theorem opens_artifact {id : String} (hid : ¬ NamesUpload id) (ha : s.isAuthenticated = true)
    (hr : s.getRole = some role)
    (hmem : role ∈ ["investigator", "forensic_analyst", "legal_reviewer"]) :
    Opens s ["artifacts", id] :=
  opens_of_match (matchRoute_artifact hid) rfl ha hr hmem

theorem opens_artifacts (ha : s.isAuthenticated = true) (hr : s.getRole = some role)
    (hmem : role ∈ ["investigator", "forensic_analyst", "legal_reviewer"]) :
    Opens s ["artifacts"] :=
  opens_of_match rfl rfl ha hr hmem

theorem opens_upload (ha : s.isAuthenticated = true) (hr : s.getRole = some role)
    (hmem : role ∈ ["investigator", "forensic_analyst"]) : Opens s ["artifacts", "upload"] :=
  opens_of_match rfl rfl ha hr hmem

theorem opens_home (ha : s.isAuthenticated = true) (hr : s.getRole = some role)
    (hmem : role ∈ ["investigator", "forensic_analyst", "legal_reviewer", "admin"]) :
    Opens s [] :=
  opens_of_match rfl rfl ha hr hmem

/-- What the sidebar offers to a role lies behind routes that let the role through. -/
theorem nav_open : ∀ item ∈ navItems, ∀ role ∈ item.roles, ∀ s : Session,
    s.isAuthenticated = true → s.getRole = some role → Opens s item.path := by
  intro item hitem role hrole s ha hr
  simp only [navItems, List.mem_cons, List.not_mem_nil, or_false] at hitem
  rcases hitem with rfl | rfl | rfl | rfl | rfl | rfl | rfl
  · exact opens_home ha hr hrole
  · exact opens_upload ha hr hrole
  · exact opens_artifacts ha hr (List.mem_cons.mpr (.inl (List.mem_singleton.mp hrole)))
  · exact opens_artifacts ha hr (by simp [List.mem_singleton.mp hrole])
  · exact opens_artifacts ha hr (by simp [List.mem_singleton.mp hrole])
  · exact opens_of_match rfl rfl ha hr hrole
  · exact opens_of_match rfl rfl ha hr hrole

theorem Admitted.guard (h : Admitted s page) (hp : page.hasLayout = true) :
    s.isAuthenticated = true ∧ ∃ role, s.getRole = some role ∧ role ∈ page.allowedRoles := by
  cases h with
  | login | unauthorized => simp [Page.hasLayout] at hp
  | guarded ha hrole =>
    obtain ⟨role, hr, _, hmem⟩ := hasRole_iff.mp hrole
    exact ⟨ha, role, hr, hmem⟩

/-- Who is no administrator may work with artifacts. -/
theorem mem_of_ne_admin (hmem : role ∈ ["investigator", "forensic_analyst", "legal_reviewer",
    "admin"]) (hr : s.getRole = some role) (hne : s.getRole ≠ some "admin") :
    role ∈ ["investigator", "forensic_analyst", "legal_reviewer"] := by
  have hadmin : role ≠ "admin" := by
    rintro rfl
    exact hne hr
  simpa [hadmin] using hmem

/-- Whoever may list evidence may look at it. -/
theorem mem_of_listed (h : Listed s) (hr : s.getRole = some role) :
    role ∈ ["investigator", "forensic_analyst", "legal_reviewer"] := by
  obtain ⟨_, hr', hauth⟩ := h
  obtain rfl := Option.some.inj (hr.symm.trans hr')
  have hfind : Gateway.rules.find? (fun r => r.applies "GET" "/evidence") =
      some ⟨"GET", "^/evidence", ["investigator", "forensic_analyst", "legal_reviewer"]⟩ := by rfl
  rw [Gateway.isAuthorized, hfind] at hauth
  exact of_decide_eq_true hauth

/-- The links that may lead on to another location: the way back from the page for those without a
role, and from the report of an id that the router takes for the upload page. -/
inductive LeadsOn (s : Session) : Page → Path → Prop
  | unauthorized : LeadsOn s .unauthorized []
  | report {id} (hid : NamesUpload id)
      (hgo : openPath s ["artifacts", id] = .navigate ["unauthorized"]) :
      LeadsOn s (.report id) ["artifacts", id]

/-- The upload page is closed to the reviewer that a report is shown to. -/
theorem report_leadsOn {id : String} (h : Admitted s (.report id)) (hid : NamesUpload id) :
    LeadsOn s (.report id) ["artifacts", id] := by
  obtain ⟨ha, role, hr, hmem⟩ := h.guard rfl
  obtain rfl := List.mem_singleton.mp hmem
  have hrole : s.hasRole ["investigator", "forensic_analyst"] = false := by
    simp [Session.hasRole, hr]
  refine .report hid ?_
  simp [openPath, matchRoute_upload hid, protectedRoute, ha, hrole, hr]

theorem links_open {link : Path} (h : Admitted s page) (hl : Links s page link) :
    Opens s link ∨ LeadsOn s page link := by
  cases hl with
  | nav hlayout hi hr hrole => exact .inl (nav_open _ hi _ hrole s (h.guard hlayout).1 hr)
  | dashboardCase hp hr =>
    obtain ⟨ha, role, hr, hmem⟩ := h.guard rfl
    exact .inl (opens_of_match rfl rfl ha hr hmem)
  | dashboardAdmin hr => exact .inl ⟨_, openPath_admin (h.guard rfl).1 hr⟩
  | dashboardUpload hr | listUpload hr =>
    obtain ⟨ha, _⟩ := h.guard rfl
    rcases hr with hr | hr <;> exact .inl (opens_upload ha hr (by simp))
  | dashboardArtifacts hne =>
    obtain ⟨ha, role, hr, hmem⟩ := h.guard rfl
    exact .inl (opens_artifacts ha hr (mem_of_ne_admin hmem hr hne))
  | casesHome =>
    obtain ⟨ha, role, hr, hmem⟩ := h.guard rfl
    exact .inl (opens_home ha hr hmem)
  | casesRow id hl =>
    obtain ⟨ha, role, hr, _⟩ := h.guard rfl
    exact .inl (opens_artifact (not_namesUpload_uuid id) ha hr (mem_of_listed hl hr))
  | uploaded id =>
    obtain ⟨ha, role, hr, hmem⟩ := h.guard rfl
    have hview := List.mem_append_left ["legal_reviewer"] hmem
    exact .inl (opens_artifact (not_namesUpload_uuid id) ha hr hview)
  | listRow id hl =>
    obtain ⟨ha, role, hr, hmem⟩ := h.guard rfl
    exact .inl (opens_artifact (not_namesUpload_uuid id) ha hr hmem)
  | detailHome =>
    obtain ⟨ha, role, hr, hmem⟩ := h.guard rfl
    exact .inl (opens_artifacts ha hr hmem)
  | detailReport hp hr =>
    exact .inl (opens_of_match rfl rfl (h.guard rfl).1 hr (by simp))
  | @reportHome id hp =>
    by_cases hid : NamesUpload id
    · exact .inr (report_leadsOn h hid)
    · obtain ⟨ha, role, hr, hmem⟩ := h.guard rfl
      exact .inl (opens_artifact hid ha hr (by simp [List.mem_singleton.mp hmem]))
  | unauthorizedHome => exact .inr .unauthorized

/-- Whatever is opened, the client comes to rest on a page that it may show, and each link there
leads straight to a page, but for the way back from the page for those without a role, and from the
report of an id that is the word `upload`. -/
theorem navigation_rests (s : Session) (path : Path) : ∃ page, settle s 3 path = some page ∧
    Admitted s page ∧ ∀ link, Links s page link → Opens s link ∨ LeadsOn s page link := by
  obtain ⟨page, hpage, hadmitted⟩ := settles s path
  exact ⟨page, hpage, hadmitted, fun _ hl => links_open hadmitted hl⟩

end ForensicChain.Ui
