import ForensicChain.Evidence.Models
import ForensicChain.Library.Regex
import ForensicChain.Library.Text

/-!
The rules of `rbac.py`, and the `validate` endpoint that the gateway asks before it forwards a
request.
-/
namespace ForensicChain.Gateway

structure Rule where
  method : String
  pattern : String
  allowed : List String

/-- `_RULES`. -/
def rules : List Rule := [
  ⟨"POST", "^/evidence/?$", ["investigator", "forensic_analyst"]⟩,
  ⟨"POST", "^/evidence/[^/]+/verify/?$", ["investigator", "forensic_analyst", "legal_reviewer"]⟩,
  ⟨"GET", "^/evidence/[^/]+/download/?$", ["investigator", "forensic_analyst"]⟩,
  ⟨"GET", "^/evidence", ["investigator", "forensic_analyst", "legal_reviewer"]⟩,
  ⟨"GET", "^/cases", ["investigator", "forensic_analyst", "legal_reviewer"]⟩,
  ⟨"GET", "^/custody", ["legal_reviewer"]⟩,
  ⟨"POST", "^/reports", ["legal_reviewer"]⟩,
  ⟨"GET", "^/reports", ["legal_reviewer"]⟩,
  ⟨"GET", "^/ledger", ["legal_reviewer"]⟩,
  ⟨"GET", "^/admin", ["admin"]⟩,
  ⟨"POST", "^/admin", ["admin"]⟩,
  ⟨"PATCH", "^/admin", ["admin"]⟩,
  ⟨"DELETE", "^/admin", ["admin"]⟩]

def Rule.applies (rule : Rule) (method uri : String) : Bool :=
  rule.method = method && Regex.isMatch rule.pattern uri.toList

/-- The first rule that applies decides. -/
def isAuthorized (role method uri : String) : Bool :=
  match rules.find? fun rule => rule.applies method uri with
  | some rule => role ∈ rule.allowed
  | none => false

/-- The claims of a token that are read. -/
structure Payload where
  sub : Option String
  role : Option String

/-- The headers of the answer, which the gateway hands on to the service. -/
structure Identity where
  username : String
  userId : String
  userRole : String
  correlationId : Uuid

/-- `header or default`. -/
def orDefault (default : String) : Option String → String
  | none => default
  | some s => if s = "" then default else s

/-- Header values are encoded as Latin-1. -/
def isLatin1 (s : String) : Bool := s.toList.all fun c => c.toNat < 256

/-- `validate`; `decodeAccessToken` checks the signature and the expiry of a token. -/
def validate (decodeAccessToken : String → Option Payload) (corrId : Uuid)
    (authorization xOriginalUri xOriginalMethod : Option String) : Except HttpError Identity :=
  match authorization with
  | none => .error ⟨401, "Missing token"⟩
  | some authorization =>
    if !Text.startsWith "Bearer " authorization then .error ⟨401, "Missing token"⟩
    else
      match decodeAccessToken (Text.removePrefix "Bearer " authorization) with
      | none => .error ⟨401, "Invalid token"⟩
      | some payload =>
        let role := payload.role.getD ""
        let sub := payload.sub.getD ""
        let uri := Text.removePrefix "/api" (orDefault "/" xOriginalUri)
        let method := Text.upper (orDefault "GET" xOriginalMethod)
        if !isAuthorized role method uri then .error ⟨403, "Forbidden"⟩
        else if !isLatin1 sub then .error ⟨500, "Internal Server Error"⟩
        else .ok ⟨sub, sub, role, corrId⟩

variable {decodeAccessToken : String → Option Payload} {corrId : Uuid} {rule : Rule}
  {authorization xOriginalUri xOriginalMethod : Option String} {identity : Identity}
  {token target role method uri : String} {payload : Payload}

theorem orDefault_some {d s : String} (h : s ≠ "") : orDefault d (some s) = s :=
  if_neg h

theorem validate_ok :
    validate decodeAccessToken corrId authorization xOriginalUri xOriginalMethod = .ok identity ↔
    ∃ token payload, authorization = some ("Bearer " ++ token) ∧
      decodeAccessToken token = some payload ∧
      isAuthorized (payload.role.getD "") (Text.upper (orDefault "GET" xOriginalMethod))
        (Text.removePrefix "/api" (orDefault "/" xOriginalUri)) = true ∧
      isLatin1 (payload.sub.getD "") = true ∧
      identity = ⟨payload.sub.getD "", payload.sub.getD "", payload.role.getD "", corrId⟩ := by
  cases authorization with
  | none => simp [validate]
  | some text =>
    by_cases hstart : Text.startsWith "Bearer " text = true
    · obtain ⟨token, rfl⟩ := Text.startsWith_iff.mp hstart
      have hinj : ∀ t, "Bearer " ++ token = "Bearer " ++ t ↔ t = token := by
        intro t
        rw [← String.toList_inj]
        simp [eq_comm, String.toList_inj]
      simp only [validate, hstart, Text.removePrefix_append, Bool.not_true, Bool.false_eq_true,
        if_false, Option.some.injEq, hinj]
      cases hdec : decodeAccessToken token with
      | none =>
        constructor
        · intro h
          cases h
        · rintro ⟨_, _, rfl, hsome, _⟩
          rw [hdec] at hsome
          cases hsome
      | some payload =>
        constructor
        · intro h
          dsimp only at h
          split_ifs at h with hauth hlatin
          cases h
          exact ⟨token, payload, rfl, hdec, by simpa using hauth, by simpa using hlatin, rfl⟩
        · rintro ⟨_, _, rfl, hsome, hauth, hlatin, rfl⟩
          rw [hdec] at hsome
          cases hsome
          simp only [hauth, hlatin, Bool.not_true, Bool.false_eq_true, if_false]
    · have hno : ∀ token, text ≠ "Bearer " ++ token := by
        rintro token rfl
        exact hstart (Text.startsWith_append _ _)
      simp [validate, hstart, hno]

/-- A bearer of a valid token passes if the rules allow its role. -/
theorem validate_bearer (htoken : decodeAccessToken token = some payload) :
    validate decodeAccessToken corrId (some ("Bearer " ++ token)) xOriginalUri xOriginalMethod =
      .ok identity ↔
    isAuthorized (payload.role.getD "") (Text.upper (orDefault "GET" xOriginalMethod))
        (Text.removePrefix "/api" (orDefault "/" xOriginalUri)) = true ∧
      isLatin1 (payload.sub.getD "") = true ∧
      identity = ⟨payload.sub.getD "", payload.sub.getD "", payload.role.getD "", corrId⟩ := by
  rw [validate_ok]
  constructor
  · rintro ⟨other, payload', heq, hother, hok⟩
    have hlist := congrArg String.toList (Option.some.inj heq)
    rw [String.toList_append, String.toList_append, List.append_cancel_left_eq,
      String.toList_inj] at hlist
    rw [← hlist, htoken] at hother
    cases hother
    exact hok
  · intro hok
    exact ⟨token, payload, rfl, htoken, hok⟩

/-- Who is let through by the rule that decides. -/
theorem applies_of_isAuthorized (h : isAuthorized role method uri = true) :
    ∃ rule ∈ rules, rule.applies method uri = true ∧ role ∈ rule.allowed := by
  unfold isAuthorized at h
  split at h
  · rename_i rule hfind
    have happ : rule.applies method uri = true := by simpa using List.find?_some hfind
    exact ⟨rule, List.mem_of_find?_eq_some hfind, happ, of_decide_eq_true h⟩
  · cases h

/-- A role that every rule that applies allows is authorised. -/
theorem isAuthorized_of_forall (hmem : rule ∈ rules) (happ : rule.applies method uri = true)
    (hall : ∀ r ∈ rules, r.applies method uri = true → role ∈ r.allowed) :
    isAuthorized role method uri = true := by
  unfold isAuthorized
  split
  · rename_i first hfind
    have hfirst : first.applies method uri = true := by simpa using List.find?_some hfind
    exact decide_eq_true (hall first (List.mem_of_find?_eq_some hfind) hfirst)
  · rename_i hnone
    exact (List.find?_eq_none.mp hnone rule hmem (by simpa using happ)).elim

/-- The plain characters that the pattern of a rule starts with. -/
def Rule.front (rule : Rule) : List Char := Regex.front (Regex.parse rule.pattern)

/-- A role is authorised where every rule for such targets allows it, and one applies. -/
theorem isAuthorized_of_front {front : List Char} (hfront : front <+: uri.toList)
    (hmem : rule ∈ rules) (happ : rule.applies method uri = true)
    (hall : ∀ r ∈ rules, r.method = method → r.front <+: front ∨ front <+: r.front →
      role ∈ r.allowed) : isAuthorized role method uri = true := by
  apply isAuthorized_of_forall hmem happ
  intro r hr hra
  obtain ⟨hmethod, hmatch⟩ := Bool.and_eq_true_iff.mp hra
  exact hall r hr (of_decide_eq_true hmethod)
    (List.prefix_or_prefix_of_prefix (Regex.front_prefix hmatch) hfront)

theorem isAuthorized_of_prefix (pattern : String) (allowed : List String) {front : List Char}
    (hmem : ⟨method, pattern, allowed⟩ ∈ rules) (hparse : Regex.parse pattern = front.map .char)
    (hfront : front <+: uri.toList)
    (hall : ∀ r ∈ rules, r.method = method → r.front <+: front ∨ front <+: r.front →
      role ∈ r.allowed) : isAuthorized role method uri = true := by
  refine isAuthorized_of_front hfront hmem ?_ hall
  exact Bool.and_eq_true_iff.mpr ⟨by simp, (Regex.isMatch_chars hparse).mpr hfront⟩

/-- The texts that `/?$` accepts. -/
def endings : List (List Char) := [[], ['\n'], ['/'], ['/', '\n']]

theorem upload_matches {s : List Char} :
    Regex.isMatch "^/evidence/?$" s = true ↔
      ∃ ending ∈ endings, s = "/evidence".toList ++ ending := by
  have hparse : Regex.parse "^/evidence/?$" =
      "/evidence".toList.map .char ++ [.opt '/', .finish] := by decide
  rw [Regex.isMatch, hparse, Regex.run_chars]
  simp only [Regex.run_opt_finish, endings, and_comm]

/-- The patterns of the actions on one artifact. -/
theorem action_matches {pattern verb : String} {s : List Char}
    (hparse : Regex.parse pattern = "/evidence/".toList.map .char ++
      .someNot '/' :: (verb.toList.map .char ++ [.opt '/', .finish])) :
    Regex.isMatch pattern s = true ↔ ∃ id ending, id ≠ [] ∧ '/' ∉ id ∧ ending ∈ endings ∧
      s = "/evidence/".toList ++ id ++ verb.toList ++ ending := by
  rw [Regex.isMatch, hparse, Regex.run_chars]
  simp only [Regex.run_someNot, Regex.run_chars, Regex.run_opt_finish]
  constructor
  · rintro ⟨_, rfl, id, _, rfl, hne, hid, ending, rfl, hend⟩
    exact ⟨id, ending, hne, hid, hend, by simp⟩
  · rintro ⟨id, ending, hne, hid, hend, rfl⟩
    exact ⟨_, by simp, id, _, rfl, hne, hid, ending, rfl, hend⟩

theorem verify_parse : Regex.parse "^/evidence/[^/]+/verify/?$" = "/evidence/".toList.map .char ++
    .someNot '/' :: ("/verify".toList.map .char ++ [.opt '/', .finish]) := by decide

theorem download_parse : Regex.parse "^/evidence/[^/]+/download/?$" =
    "/evidence/".toList.map .char ++
      .someNot '/' :: ("/download".toList.map .char ++ [.opt '/', .finish]) := by decide

end ForensicChain.Gateway
