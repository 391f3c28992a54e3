import ForensicChain.Auth.Assignments
import ForensicChain.Auth.Tokens
import ForensicChain.Library.Url

/-!
The cases of a caller, as a domain service looks them up: the username of the token comes back as
a header, and is put into a URL as it stands.
-/
namespace ForensicChain.Auth

/-- What a GET request without headers meets at the auth service. -/
inductive Endpoint
  | userAssignments (username : String)
  | caseByNumber (caseNumber : String)
  | document
  | unanswered

/-- The path parameter `[^/]+` at the end of a route. -/
def pathParam (front : String) (path : List Char) : Option String :=
  let rest := path.drop front.length
  if front.toList.isPrefixOf path ∧ rest ≠ [] ∧ '/' ∉ rest then some (String.ofList rest) else none

/-- The two routes of `internal.py` that answer; `/health` and `/openapi.json` answer with objects
that have no `case_numbers`. Everything else is an error or no JSON object. -/
def endpoint (path : List Char) : Endpoint :=
  match pathParam "/internal/assignments/by-user/" path, pathParam "/internal/cases/" path with
  | some username, _ => .userAssignments username
  | none, some caseNumber => .caseByNumber caseNumber
  | none, none =>
    if String.ofList path ∈ ["/health", "/health\n", "/openapi.json", "/openapi.json\n"] then
      .document
    else .unanswered

/-- Where the call for a username ends up; `none` is a URL that is refused. -/
def lookupEndpoint (username : String) : Option Endpoint :=
  (Url.requestPath ("/internal/assignments/by-user/" ++ username).toList).map fun path =>
    endpoint (Url.unquote path)

/-- `resp.json().get("case_numbers", [])` of an answer with status 200. -/
def Endpoint.caseNumbers (db : Db) : Endpoint → Option (List String)
  | .userAssignments username => (db.getUserAssignments username).toOption
  | .caseByNumber caseNumber => (db.getCaseByNumber caseNumber).toOption.map fun _ => []
  | .document => some []
  | .unanswered => none

/-- `get_assigned_case_numbers`; `none` is the fail-safe, an empty list. -/
def getAssignedCaseNumbers (db : Db) (username : String) : Option (List String) :=
  (lookupEndpoint username).bind (Endpoint.caseNumbers db)

inductive DomainService
  | evidence
  | custody
  | report
  | ledger

/-- The name that a service asks for, with the header `X-User-Id` that it has received. -/
def DomainService.actorId : DomainService → Option String → Option String
  | .evidence, header | .report, header => some (header.getD "unknown")
  | .ledger, header => some (header.getD "")
  | .custody, header => header

/-- The headers `validate` answers with and the gateway hands on; `none` is a request that does
not reach the service. -/
def userIdHeader (identity : Gateway.Identity) : Option (Option String) :=
  if Header.isSendable identity.userId then some (Header.field identity.userId) else none

/-- The list that a service obtains for the bearer of a token; `none` is no list or an error. -/
def obtainedNumbers (service : DomainService) (db : Db) (identity : Gateway.Identity) :
    Option (List String) := do
  let header ← userIdHeader identity
  let actorId ← service.actorId header
  getAssignedCaseNumbers db actorId

/-- An open case is actively assigned to the username. -/
def AssignedOpen (db : Db) (username caseNumber : String) : Prop :=
  ∃ a ∈ db.assignments, a.username = username ∧ a.isActive = true ∧
    ∃ c ∈ db.cases, c.id = a.caseId ∧ c.status = "OPEN" ∧ c.caseNumber = caseNumber

/-- The assigned usernames are such as their column keeps. -/
def Fits (db : Db) : Prop :=
  ∀ a ∈ db.assignments, Postgres.varchar 64 a.username = some a.username

/-- Whatever the database holds, a bearer of the user's token gets no case that is assigned to
others alone, and gets the user's open cases when the call succeeds. -/
def OwnCases (username : String) : Prop :=
  ∀ decodeAccessToken token role corrId xOriginalUri xOriginalMethod identity,
    decodeAccessToken token = some ⟨some username, some role⟩ →
    Gateway.validate decodeAccessToken corrId (some ("Bearer " ++ token)) xOriginalUri
      xOriginalMethod = .ok identity →
    ∀ service db, Keys db → Fits db →
      (∀ other caseNumber, other ≠ username → AssignedOpen db other caseNumber →
        ¬ AssignedOpen db username caseNumber →
        caseNumber ∉ (obtainedNumbers service db identity).getD []) ∧
      ∀ numbers, obtainedNumbers service db identity = some numbers →
        ∀ caseNumber, caseNumber ∈ numbers ↔ AssignedOpen db username caseNumber

/-- The endpoint that a service reaches for the bearer of a user's token, if it calls at all. -/
def destination (service : DomainService) (username : String) : Option Endpoint :=
  if Gateway.isLatin1 username && Header.isSendable username then
    (service.actorId (Header.field username)).bind lookupEndpoint
  else none

/-- The column of assigned usernames can hold the name. -/
def Assignable (username : String) : Prop := Postgres.varchar 64 username = some username

/-- The call fails, or it asks for the user; it may miss what no database holds. -/
def AsksForUser (service : DomainService) (username : String) : Prop :=
  match destination service username with
  | some (.userAssignments name) =>
    name = username ∨ '\x00' ∈ name.toList ∨ ¬ Assignable name ∧ ¬ Assignable username
  | some (.caseByNumber caseNumber) =>
    ¬ Assignable username ∨ matchesCaseNumber caseNumber = false
  | some .document => ¬ Assignable username
  | some .unanswered | none => True

variable {service : DomainService} {db : Db} {username name caseNumber : String}
  {identity : Gateway.Identity} {numbers : List String}

theorem obtainedNumbers_eq (hid : identity.userId = username)
    (hlatin : Gateway.isLatin1 username = true) : obtainedNumbers service db identity =
      (destination service username).bind (Endpoint.caseNumbers db) := by
  unfold obtainedNumbers userIdHeader destination getAssignedCaseNumbers
  rw [hid, hlatin, Bool.true_and]
  by_cases hsend : Header.isSendable username = true
  · simp [hsend, Option.bind_assoc]
  · simp [hsend]

theorem mem_userAssignments
    (h : (Endpoint.userAssignments name).caseNumbers db = some numbers) :
    caseNumber ∈ numbers ↔ AssignedOpen db name caseNumber := by
  unfold Endpoint.caseNumbers at h
  cases hget : db.getUserAssignments name with
  | error error => simp [hget, Except.toOption] at h
  | ok found =>
    obtain rfl : found = numbers := by simpa [hget, Except.toOption] using h
    exact mem_getUserAssignments hget

theorem caseNumbers_ne_nul (h : (Endpoint.userAssignments name).caseNumbers db = some numbers) :
    '\x00' ∉ name.toList := by
  intro hnul
  simp [Endpoint.caseNumbers, Db.getUserAssignments, hnul, Except.toOption] at h

/-- A case that is looked up by its number is in the database. -/
theorem caseByNumber_answers
    (h : (Endpoint.caseByNumber caseNumber).caseNumbers db = some numbers) :
    numbers = [] ∧ ∃ c ∈ db.cases, c.caseNumber = caseNumber := by
  unfold Endpoint.caseNumbers Db.getCaseByNumber at h
  cases hselect : Db.select (db.cases.filter fun c => c.status = "OPEN") Case.caseNumber
      caseNumber with
  | error error => simp [hselect, Except.toOption] at h
  | ok found =>
    cases found with
    | none => simp [hselect, Except.toOption] at h
    | some c =>
      obtain ⟨hc, hnumber⟩ := select_ok hselect
      simp only [hselect, Except.toOption, Option.map_some, Option.some.injEq] at h
      exact ⟨h.symm, c, (List.mem_filter.mp hc).1, hnumber⟩

theorem serves_fits {bcrypt : Bcrypt} {db' : Db} {r : Request} (h : Serves bcrypt db r db')
    (hf : Fits db) : Fits db' := by
  cases h with
  | createUser fresh h =>
    obtain ⟨u, _, _, _, _, rfl⟩ := createUser_ok h
    exact hf
  | deleteUser h =>
    obtain ⟨_, u, _, _, _, rfl⟩ := deleteUser_ok h
    exact hf
  | createCase fresh h =>
    obtain ⟨_, _, _, rfl⟩ := createCase_ok h
    exact hf
  | updateCaseStatus h =>
    obtain ⟨f, _, rfl⟩ := updateCaseStatus_ok h
    exact hf
  | createAssignment fresh h =>
    obtain ⟨_, _, _, hname, rfl⟩ := createAssignment_ok h
    intro a ha
    rcases List.mem_append.mp ha with ha | ha
    · exact hf a ha
    · rw [List.mem_singleton.mp ha]
      exact Postgres.varchar_stored hname
  | deleteAssignment h =>
    obtain ⟨p, rfl⟩ := deleteAssignment_ok h
    exact fun a ha => hf a (List.mem_filter.mp ha).1
  | login h => exact hf

theorem seeding_fits {bcrypt : Bcrypt} {fresh : String → Fresh} {db' : Db}
    (h : seedPredefinedUsers bcrypt fresh db = some db') (hf : Fits db) : Fits db' := by
  refine seeds_invariant h hf ?_
  intro seed _ s t hs hf
  rcases seedUser_some hs with ⟨rfl, _⟩ | ⟨u, _, _, _, rfl⟩
  · exact hf
  · exact hf

theorem fits_reachable {bcrypt : Bcrypt} (h : (system bcrypt).Reachable db) : Fits db := by
  refine h.invariant ?_ ?_
  · rintro db ⟨fresh, hseed⟩
    exact seeding_fits hseed (by simp [Fits])
  · intro s a t hf hs
    cases hs with
    | served h => exact serves_fits h hf
    | failed => exact hf
    | restart fresh h => exact seeding_fits h hf
    | restartFailed => exact hf

/-- What no column can hold is assigned nothing. -/
theorem not_assignedOpen (hf : Fits db) (hname : ¬ Assignable username) :
    ¬ AssignedOpen db username caseNumber := by
  rintro ⟨a, ha, rfl, _⟩
  exact hname (hf a ha)

/-- The answer is the user's own list, in every database. -/
theorem caseNumbers_of_asksForUser (h : AsksForUser service username) (hk : Keys db) (hf : Fits db)
    (hd : (destination service username).bind (Endpoint.caseNumbers db) = some numbers) :
    caseNumber ∈ numbers ↔ AssignedOpen db username caseNumber := by
  obtain ⟨e, he, hanswer⟩ := Option.bind_eq_some_iff.mp hd
  rw [AsksForUser, he] at h
  cases e with
  | userAssignments name =>
    rcases h with rfl | hnul | ⟨hname, huser⟩
    · exact mem_userAssignments hanswer
    · exact (caseNumbers_ne_nul hanswer hnul).elim
    · rw [mem_userAssignments hanswer]
      exact iff_of_false (not_assignedOpen hf hname) (not_assignedOpen hf huser)
  | caseByNumber number =>
    obtain ⟨rfl, c, hc, hnumber⟩ := caseByNumber_answers hanswer
    rcases h with huser | hno
    · simp [not_assignedOpen hf huser]
    · rw [← hnumber, hk.numbers c hc] at hno
      cases hno
  | document =>
    cases hanswer
    simp [not_assignedOpen hf h]
  | unanswered => cases hanswer

def openCase (caseNumber : String) : Case := ⟨"case", caseNumber, "", none, "OPEN", 0, "admin01"⟩

def openAssignment (username : String) : CaseAssignment :=
  ⟨"assignment", "case", username, "investigator", 0, "admin01", true⟩

def oneAssignment (username caseNumber : String) : Db :=
  ⟨[], [openCase caseNumber], [openAssignment username]⟩

theorem oneAssignment_keys (hc : matchesCaseNumber caseNumber = true) :
    Keys (oneAssignment username caseNumber) where
  userIds := by simp [oneAssignment]
  usernames := by simp [oneAssignment]
  references := by simp [oneAssignment, openCase, openAssignment]
  numbers := by simpa [oneAssignment, openCase] using hc

theorem oneAssignment_fits (hu : Assignable username) :
    Fits (oneAssignment username caseNumber) := by
  intro a ha
  rw [List.mem_singleton.mp ha]
  exact hu

theorem oneAssignment_assignedOpen :
    AssignedOpen (oneAssignment username caseNumber) name caseNumber ↔ name = username := by
  simp [AssignedOpen, oneAssignment, openCase, openAssignment, eq_comm (a := name)]

theorem oneAssignment_list (username : String) (hnul : '\x00' ∉ name.toList) :
    ∃ numbers, (Endpoint.userAssignments name).caseNumbers
      (oneAssignment username "CASE-2025-001") = some numbers := by
  simp [Endpoint.caseNumbers, Db.getUserAssignments, hnul, Except.toOption]

theorem oneAssignment_byNumber (hc : matchesCaseNumber caseNumber = true) :
    (Endpoint.caseByNumber caseNumber).caseNumbers (oneAssignment username caseNumber) =
      some [] := by
  simp [Endpoint.caseNumbers, Db.getCaseByNumber, Db.select, notMem_nul_caseNumber hc,
    oneAssignment, openCase, Except.toOption]

/-- Some database and some service give the user another list, if the call asks for another. -/
theorem wrong_list (h : ¬ AsksForUser service username) :
    ∃ db numbers, Keys db ∧ Fits db ∧
      (destination service username).bind (Endpoint.caseNumbers db) = some numbers ∧
      ∃ caseNumber, ¬ (caseNumber ∈ numbers ↔ AssignedOpen db username caseNumber) := by
  have hsample : matchesCaseNumber "CASE-2025-001" = true := by decide
  unfold AsksForUser at h
  split at h
  · rename_i name hdest
    rw [not_or, not_or, not_and_or, not_not, not_not] at h
    obtain ⟨hne, hnul, hassignable⟩ := h
    rcases hassignable with hname | huser
    · -- the other's case is listed
      obtain ⟨numbers, hlist⟩ := oneAssignment_list name hnul
      refine ⟨_, numbers, oneAssignment_keys hsample, oneAssignment_fits hname,
        by rw [hdest]; exact hlist, "CASE-2025-001", ?_⟩
      rw [mem_userAssignments hlist, oneAssignment_assignedOpen, oneAssignment_assignedOpen]
      simp [Ne.symm hne]
    · -- the user's own case is not
      obtain ⟨numbers, hlist⟩ := oneAssignment_list username hnul
      refine ⟨_, numbers, oneAssignment_keys hsample, oneAssignment_fits huser,
        by rw [hdest]; exact hlist, "CASE-2025-001", ?_⟩
      rw [mem_userAssignments hlist, oneAssignment_assignedOpen, oneAssignment_assignedOpen]
      simp [hne]
  · rename_i number hdest
    rw [not_or, not_not, Bool.not_eq_false] at h
    refine ⟨_, [], oneAssignment_keys h.2, oneAssignment_fits h.1,
      by rw [hdest]; exact oneAssignment_byNumber h.2, number, ?_⟩
    simp [oneAssignment_assignedOpen]
  · rename_i hdest
    refine ⟨_, [], oneAssignment_keys hsample, oneAssignment_fits (not_not.mp h),
      by rw [hdest]; rfl, "CASE-2025-001", ?_⟩
    simp [oneAssignment_assignedOpen]
  · exact (h trivial).elim
  · exact (h trivial).elim

theorem isLatin1_of_destination {e : Endpoint} (h : destination service username = some e) :
    Gateway.isLatin1 username = true := by
  unfold destination at h
  split_ifs at h with hsend
  exact (Bool.and_eq_true_iff.mp hsend).1

/-- Over all databases and services, the bearers of a user's tokens get that user's cases and
nobody else's exactly when every service asks for the user. -/
theorem own_cases_iff (username : String) :
    OwnCases username ↔ ∀ service, AsksForUser service username := by
  constructor
  · intro hown service
    by_contra hno
    obtain ⟨db, numbers, hk, hf, hd, caseNumber, hwrong⟩ := wrong_list hno
    obtain ⟨e, he, _⟩ := Option.bind_eq_some_iff.mp hd
    have hlatin := isLatin1_of_destination he
    have hauth : Gateway.isAuthorized "legal_reviewer" (Text.upper (Gateway.orDefault "GET"
        (some "GET"))) (Text.removePrefix "/api" (Gateway.orDefault "/" (some "/api/custody"))) =
          true := by decide
    obtain ⟨decode, hdecode⟩ : ∃ decode : String → Option Gateway.Payload,
        decode "" = some ⟨some username, some "legal_reviewer"⟩ := ⟨fun _ => some _, rfl⟩
    have hvalid : Gateway.validate decode (.ofNat 0) (some ("Bearer " ++ ""))
        (some "/api/custody") (some "GET") =
          .ok ⟨username, username, "legal_reviewer", .ofNat 0⟩ :=
      (Gateway.validate_bearer hdecode).mpr ⟨hauth, hlatin, rfl⟩
    obtain ⟨_, hlist⟩ := hown _ "" _ _ _ _ _ hdecode hvalid service db hk hf
    exact hwrong (hlist numbers ((obtainedNumbers_eq rfl hlatin).trans hd) caseNumber)
  · intro hall decode token role corrId uri method identity hdecode hvalid service db hk hf
    obtain ⟨_, hlatin, hidentity⟩ := (Gateway.validate_bearer hdecode).mp hvalid
    have hid : identity.userId = username := by
      rw [hidentity]
      rfl
    have hlist : ∀ numbers, obtainedNumbers service db identity = some numbers →
        ∀ caseNumber, caseNumber ∈ numbers ↔ AssignedOpen db username caseNumber := by
      intro numbers hnumbers caseNumber
      exact caseNumbers_of_asksForUser (hall service) hk hf
        ((obtainedNumbers_eq hid hlatin).symm.trans hnumbers)
    refine ⟨?_, hlist⟩
    intro other caseNumber _ _ hnot hmem
    cases hobtained : obtainedNumbers service db identity with
    | none =>
      rw [hobtained] at hmem
      cases hmem
    | some numbers =>
      rw [hobtained] at hmem
      exact hnot ((hlist numbers hobtained caseNumber).mp hmem)

/-- No blank at an end, no control character, none of `/`, `?`, `#` and `%`; no dot segment. -/
structure Plain (username : String) : Prop where
  nonempty : username ≠ ""
  blanks : Header.trim username = username
  sendable : Header.isSendable username = true
  noTab : '\t' ∉ username.toList
  separators : ∀ c ∈ ['/', '?', '#', '%'], c ∉ username.toList
  dots : username ≠ "." ∧ username ≠ ".."

theorem front_segments {name : List Char} (hslash : '/' ∉ name) :
    ("internal/assignments/by-user/".toList ++ name).splitOn '/' =
      ["internal".toList, "assignments".toList, "by-user".toList, name] := by
  have hlast : name.splitOn '/' = [name] := List.splitOn_eq_singleton hslash
  have hfront : "internal/assignments/by-user/".toList ++ name =
      "internal".toList ++ '/' :: ("assignments".toList ++
        '/' :: ("by-user".toList ++ '/' :: name)) :=
    rfl
  rw [hfront, List.splitOn_append_cons_self_of_not_mem (by decide),
    List.splitOn_append_cons_self_of_not_mem (by decide),
    List.splitOn_append_cons_self_of_not_mem (by decide), hlast]

/-- The call for a plain name asks for that name. -/
theorem lookupEndpoint_plain (h : Plain username) (hlatin : Gateway.isLatin1 username = true) :
    lookupEndpoint username = some (.userAssignments username) := by
  have hname : ∀ c ∈ username.toList, Url.Verbatim c := by
    intro c hc
    have hsend := List.all_eq_true.mp h.sendable c hc
    have htab : c ≠ '\t' := fun he => h.noTab (he ▸ hc)
    have hsep : ∀ d ∈ ['/', '?', '#', '%'], c ≠ d := fun d hd he => h.separators d hd (he ▸ hc)
    simp only [Bool.and_eq_true, Bool.or_eq_true, decide_eq_true_eq, htab, or_false] at hsend
    refine ⟨by simpa using List.all_eq_true.mp hlatin c hc, ?_, hsep '%' (by decide),
      hsep '?' (by decide), hsep '#' (by decide)⟩
    simp [Url.isAcceptable, hsend.1, hsend.2]
  have hfront : ∀ c ∈ "/internal/assignments/by-user/".toList, Url.Verbatim c :=
    List.all_iff_forall_prop.mp (by decide)
  have hsplit : ("/internal/assignments/by-user/" ++ username).toList =
      "/internal/assignments/by-user/".toList ++ username.toList := String.toList_append
  have hpath : ("/internal/assignments/by-user/" ++ username).toList =
      '/' :: ("internal/assignments/by-user/".toList ++ username.toList) := hsplit
  have hall : ∀ c ∈ ("/internal/assignments/by-user/" ++ username).toList, Url.Verbatim c := by
    intro c hc
    rw [hsplit] at hc
    rcases List.mem_append.mp hc with hc | hc
    · exact hfront c hc
    · exact hname c hc
  have hdots : ∀ segment ∈ ("internal/assignments/by-user/".toList ++ username.toList).splitOn '/',
      segment ≠ ['.'] ∧ segment ≠ ['.', '.'] := by
    rw [front_segments (h.separators '/' (by decide))]
    simp only [List.forall_mem_cons, List.not_mem_nil, false_imp_iff, implies_true, and_true]
    refine ⟨by decide, by decide, by decide, ?_, ?_⟩
    · exact fun he => h.dots.1 (String.toList_injective he)
    · exact fun he => h.dots.2 (String.toList_injective he)
  rw [lookupEndpoint, Url.requestPath_verbatim hall hpath hdots, Option.map_some,
    Url.unquote_quote hall]
  have hparam : pathParam "/internal/assignments/by-user/"
      ("/internal/assignments/by-user/" ++ username).toList = some username := by
    have hdrop : ("/internal/assignments/by-user/".toList ++ username.toList).drop
        "/internal/assignments/by-user/".length = username.toList := List.drop_left' rfl
    have hne : username.toList ≠ [] := fun he => h.nonempty (String.toList_injective he)
    have hprefix : "/internal/assignments/by-user/".toList.isPrefixOf
        ("/internal/assignments/by-user/".toList ++ username.toList) = true :=
      List.isPrefixOf_iff_prefix.mpr (List.prefix_append _ _)
    simp only [pathParam, String.toList_append, hdrop, hprefix, true_and]
    rw [if_pos ⟨hne, h.separators '/' (by decide)⟩, String.ofList_toList]
  simp only [endpoint, hparam]

/-- Every service asks for the bearer of a plain name under that name. -/
theorem asksForUser_plain (h : Plain username) : AsksForUser service username := by
  have hfield : Header.field username = some username := by
    rw [Header.field, h.blanks, if_neg h.nonempty]
  by_cases hlatin : Gateway.isLatin1 username = true
  · have hdest : destination service username = some (.userAssignments username) := by
      rw [destination, hlatin, h.sendable, hfield]
      cases service <;> exact lookupEndpoint_plain h hlatin
    rw [AsksForUser, hdest]
    exact .inl rfl
  · have hdest : destination service username = none := by simp [destination, hlatin]
    rw [AsksForUser, hdest]
    trivial

/-- What follows a question mark is not part of the path: another account's cases are listed. -/
theorem question_mark_reads_other_cases :
    ∃ (db : Db) (identity : Gateway.Identity), (system plainBcrypt).Reachable db ∧
      (∃ u ∈ db.users, u.username = "investigator01?x") ∧
      Gateway.validate (fun _ => some ⟨some "investigator01?x", some "investigator"⟩) (.ofNat 0)
        (some "Bearer t") (some "/api/evidence") (some "GET") = .ok identity ∧
      obtainedNumbers .evidence db identity = some ["CASE-2025-001"] ∧
      ∀ a ∈ db.assignments, a.username ≠ "investigator01?x" := by
  have hreach : (system plainBcrypt).Reachable assignedDb :=
    assigned_run (.init seeded_initial) fun _ _ => ⟨trivial, trivial⟩
  have hcreate : createUser plainBcrypt (sampleFresh 3) assignedDb administrator
      ⟨"investigator01?x", "", "investigator"⟩ = .ok ({ assignedDb with users := seededDb.users ++ [
        ⟨(Uuid.ofNat 3).str, "investigator01?x", plainHash "" sampleSalt, "investigator", true,
          0⟩] },
        ⟨(Uuid.ofNat 3).str, "investigator01?x", "investigator", true, 0⟩) := by rfl
  have hnext := hreach.step (Step.served (.createUser (sampleFresh 3) hcreate))
  refine ⟨_, ⟨"investigator01?x", "investigator01?x", "investigator", .ofNat 0⟩, hnext,
    ⟨_, List.mem_append_right _ (List.mem_singleton_self _), rfl⟩, by rfl, by decide +kernel, ?_⟩
  decide

end ForensicChain.Auth
