import ForensicChain.Auth.CaseNumber
import ForensicChain.Auth.Models
import ForensicChain.Gateway.Rbac
import ForensicChain.Library.Json

/-! The handlers that change the tables of the auth service, its login, and its seeding. -/
namespace ForensicChain.Auth

/-- `ALLOWED_ROLES`, sorted. -/
def allowedRoles : List String := ["forensic_analyst", "investigator", "legal_reviewer"]

/-- `ASSIGNABLE_ROLES`, sorted. -/
def assignableRoles : List String := ["forensic_analyst", "investigator", "legal_reviewer"]

/-- The headers `x-user-role` and `x-username`. -/
structure Caller where
  xUserRole : Option String
  xUsername : Option String

structure UserOut where
  id : String
  username : String
  role : String
  isActive : Bool
  createdAt : Timestamp

def User.out (u : User) : UserOut := ⟨u.id, u.username, u.role, u.isActive, u.createdAt⟩

structure CreateUserIn where
  username : String
  password : String
  role : String

structure CreateCaseIn where
  caseNumber : String
  title : String
  description : Option String

structure CreateAssignmentIn where
  username : String
  roleInCase : String

structure LoginRequest where
  username : String
  password : String

/-- `if not p: raise error`. -/
def ensure (p : Prop) [Decidable p] (error : HttpError) : Except HttpError Unit :=
  if p then .ok () else .error error

def orRaise {α : Type} (error : HttpError) : Option α → Except HttpError α
  | none => .error error
  | some a => .ok a

/-- The commit of a handler that answers an `IntegrityError` in its own way. -/
def commit {α : Type} (integrity : HttpError) : Except DbError α → Except HttpError α
  | .ok a => .ok a
  | .error .integrity => .error integrity
  | .error .data => .error .unhandled

def requireAdmin (xUserRole : Option String) : Except HttpError Unit :=
  ensure (xUserRole = some "admin") ⟨403, "Admin role required"⟩

def createUser (bcrypt : Bcrypt) (fresh : Fresh) (db : Db) (caller : Caller)
    (body : CreateUserIn) : Except HttpError (Db × UserOut) := do
  requireAdmin caller.xUserRole
  ensure (body.role ∈ allowedRoles)
    ⟨422, "Role must be one of: " ++ ", ".intercalate allowedRoles⟩
  let existing ← db.getUserByUsername body.username
  ensure (existing = none) ⟨409, "Username already exists"⟩
  let hashed ← orRaise .unhandled (bcrypt.hashpw body.password fresh.salt)
  let (db, user) ← commit .unhandled (db.insertUser
    ⟨fresh.id.str, body.username, hashed, body.role, true, fresh.now⟩)
  return (db, user.out)

def deleteUser (db : Db) (caller : Caller) (userId : String) : Except HttpError Db := do
  requireAdmin caller.xUserRole
  let user ← orRaise ⟨404, "User not found"⟩ (← Db.select db.users User.id userId)
  ensure (some user.username ≠ caller.xUsername) ⟨400, "Cannot delete your own account"⟩
  return { db with users := db.users.filter fun u => u.id ≠ user.id }

def createCase (fresh : Fresh) (db : Db) (caller : Caller) (body : CreateCaseIn) :
    Except HttpError (Db × Case) := do
  requireAdmin caller.xUserRole
  ensure (matchesCaseNumber body.caseNumber = true)
    ⟨422, "case_number must match CASE-YYYY-NNN format"⟩
  let existing ← Db.select db.cases Case.caseNumber body.caseNumber
  ensure (existing = none) ⟨409, "Case number already exists"⟩
  commit .unhandled (db.insertCase ⟨fresh.id.str, body.caseNumber, body.title, body.description,
    "OPEN", fresh.now, Gateway.orDefault "admin" caller.xUsername⟩)

/-- `new_status not in {"OPEN", "CLOSED"}` raises for a value that cannot be hashed. -/
def newStatus (body : List (String × Json)) : Except HttpError String :=
  match (Json.obj body).field? "status" with
  | some (.str s) =>
    if s = "OPEN" ∨ s = "CLOSED" then .ok s else .error ⟨422, "status must be OPEN or CLOSED"⟩
  | some (.arr _) | some (.obj _) => .error .unhandled
  | _ => .error ⟨422, "status must be OPEN or CLOSED"⟩

def updateCaseStatus (db : Db) (caller : Caller) (caseId : String)
    (body : List (String × Json)) : Except HttpError (Db × Case) := do
  requireAdmin caller.xUserRole
  let found ← orRaise ⟨404, "Case not found"⟩ (← Db.select db.cases Case.id caseId)
  let status ← newStatus body
  let cases := db.cases.map fun c => if c.id = found.id then { c with status } else c
  return ({ db with cases }, { found with status })

def createAssignment (fresh : Fresh) (db : Db) (caller : Caller) (caseId : String)
    (body : CreateAssignmentIn) : Except HttpError (Db × CaseAssignment) := do
  requireAdmin caller.xUserRole
  ensure (body.roleInCase ∈ assignableRoles)
    ⟨422, "role_in_case must be one of: " ++ ", ".intercalate assignableRoles⟩
  let found ← orRaise ⟨404, "Case not found"⟩ (← Db.select db.cases Case.id caseId)
  ensure (found.status ≠ "CLOSED") ⟨409, "Cannot assign to a closed case"⟩
  let user ← orRaise ⟨404, "User not found"⟩ (← db.getUserByUsername body.username)
  ensure (user.role = body.roleInCase)
    ⟨422, "role_in_case must match user's global role (" ++ user.role ++ ")"⟩
  commit ⟨409, "User already assigned to this case"⟩ (db.insertAssignment ⟨fresh.id.str, caseId,
    body.username, body.roleInCase, fresh.now, Gateway.orDefault "admin" caller.xUsername, true⟩)

def deleteAssignment (db : Db) (caller : Caller) (caseId assignmentId : String) :
    Except HttpError Db := do
  requireAdmin caller.xUserRole
  ensure ('\x00' ∉ caseId.toList) .unhandled
  let assignment ← orRaise ⟨404, "Assignment not found"⟩
    (← Db.select (db.assignments.filter fun a => a.caseId = caseId) CaseAssignment.id assignmentId)
  return { db with assignments := db.assignments.filter fun a => a.id ≠ assignment.id }

/-- `login`, which answers with a token of these claims. -/
def login (bcrypt : Bcrypt) (db : Db) (body : LoginRequest) :
    Except HttpError Gateway.Payload := do
  let user ← orRaise ⟨401, "Invalid credentials"⟩ (← db.getUserByUsername body.username)
  ensure (user.isActive = true) ⟨401, "Invalid credentials"⟩
  let verified ← orRaise .unhandled (bcrypt.checkpw body.password user.hashedPassword)
  ensure (verified = true) ⟨401, "Invalid credentials"⟩
  return ⟨some user.username, some user.role⟩

/-- `_SEED_USERS`: username, password and role. -/
def seedUsers : List (String × String × String) := [
  ("investigator01", "investigator01", "investigator"),
  ("analyst01", "analyst01", "forensic_analyst"),
  ("reviewer01", "reviewer01", "legal_reviewer"),
  ("admin01", "admin01", "admin")]

/-- `none` is an exception, with which the service does not start. -/
def seedUser (bcrypt : Bcrypt) (fresh : String → Fresh) (db : Db)
    (seed : String × String × String) : Option Db := do
  match ← (db.getUserByUsername seed.1).toOption with
  | some _ => return db
  | none =>
    let hashed ← bcrypt.hashpw seed.2.1 (fresh seed.1).salt
    let (db, _) ← (db.insertUser
      ⟨(fresh seed.1).id.str, seed.1, hashed, seed.2.2, true, (fresh seed.1).now⟩).toOption
    return db

/-- `seed_predefined_users`, at every start of the service. -/
def seedPredefinedUsers (bcrypt : Bcrypt) (fresh : String → Fresh) (db : Db) : Option Db :=
  seedUsers.foldlM (seedUser bcrypt fresh) db

variable {bcrypt : Bcrypt} {fresh : Fresh} {db db' : Db} {caller : Caller}

@[simp] theorem ensure_ok {p : Prop} [Decidable p] {error : HttpError} {x : Unit} :
    ensure p error = .ok x ↔ p := by
  by_cases hp : p <;> simp [ensure, hp]

@[simp] theorem orRaise_ok {α : Type} {error : HttpError} {x : Option α} {a : α} :
    orRaise error x = .ok a ↔ x = some a := by
  cases x <;> simp [orRaise]

@[simp] theorem commit_ok {α : Type} {integrity : HttpError} {x : Except DbError α} {a : α} :
    commit integrity x = .ok a ↔ x = .ok a := by
  rcases x with _ | _
  · rename_i error
    cases error <;> simp [commit]
  · simp [commit]

@[simp] theorem requireAdmin_ok {xUserRole : Option String} {x : Unit} :
    requireAdmin xUserRole = .ok x ↔ xUserRole = some "admin" := ensure_ok

theorem createUser_ok {body : CreateUserIn} {out : UserOut}
    (h : createUser bcrypt fresh db caller body = .ok (db', out)) :
    ∃ u, u.username = body.username ∧ u.role = body.role ∧ body.role ∈ allowedRoles ∧
      (∀ v ∈ db.users, v.id ≠ u.id ∧ v.username ≠ u.username) ∧
      db' = { db with users := db.users ++ [u] } := by
  simp only [createUser, Evidence.bind_ok, requireAdmin_ok, ensure_ok, orRaise_ok, commit_ok,
    pure, Except.pure] at h
  obtain ⟨_, _, _, hrole, _, _, _, _, hashed, _, ⟨_, row⟩, hinsert, heq⟩ := h
  obtain ⟨_, rfl, hkeys, rfl⟩ := insertUser_ok.mp hinsert
  cases heq
  exact ⟨_, rfl, rfl, hrole, hkeys, rfl⟩

theorem deleteUser_ok {userId : String} (h : deleteUser db caller userId = .ok db') :
    caller.xUserRole = some "admin" ∧ ∃ u ∈ db.users, u.id = userId ∧
      some u.username ≠ caller.xUsername ∧
      db' = { db with users := db.users.filter fun v => v.id ≠ u.id } := by
  simp only [deleteUser, Evidence.bind_ok, requireAdmin_ok, ensure_ok, orRaise_ok, pure,
    Except.pure] at h
  obtain ⟨_, hadmin, found, hselect, u, rfl, _, hself, heq⟩ := h
  cases heq
  obtain ⟨hmem, hid⟩ := select_ok hselect
  exact ⟨hadmin, u, hmem, hid, hself, rfl⟩

theorem createCase_ok {body : CreateCaseIn} {row : Case}
    (h : createCase fresh db caller body = .ok (db', row)) :
    matchesCaseNumber row.caseNumber = true ∧ row.caseNumber = body.caseNumber ∧
      (∀ c ∈ db.cases, c.id ≠ row.id ∧ c.caseNumber ≠ row.caseNumber) ∧
      db' = { db with cases := db.cases ++ [row] } := by
  simp only [createCase, Evidence.bind_ok, requireAdmin_ok, ensure_ok, commit_ok] at h
  obtain ⟨_, _, _, hnumber, _, _, _, _, hinsert⟩ := h
  obtain ⟨hstore, hkeys, rfl⟩ := insertCase_ok hinsert
  obtain ⟨_, _, _, _, hcolumn, _⟩ := Case.store_eq hstore
  have hkept : row.caseNumber = body.caseNumber := verbatim_caseNumber hnumber _ hcolumn
  exact ⟨by rw [hkept, hnumber], hkept, hkeys, rfl⟩

theorem updateCaseStatus_ok {caseId : String} {body : List (String × Json)} {row : Case}
    (h : updateCaseStatus db caller caseId body = .ok (db', row)) :
    ∃ f : Case → Case, (∀ c, (f c).id = c.id ∧ (f c).caseNumber = c.caseNumber) ∧
      db' = { db with cases := db.cases.map f } := by
  simp only [updateCaseStatus, Evidence.bind_ok, requireAdmin_ok, orRaise_ok, pure,
    Except.pure] at h
  obtain ⟨_, _, _, _, _, _, _, _, heq⟩ := h
  cases heq
  refine ⟨_, ?_, rfl⟩
  intro c
  split <;> exact ⟨rfl, rfl⟩

theorem createAssignment_ok {caseId : String} {body : CreateAssignmentIn} {row : CaseAssignment}
    (h : createAssignment fresh db caller caseId body = .ok (db', row)) :
    (∃ c ∈ db.cases, c.id = caseId) ∧
      (∃ u ∈ db.users, u.username = body.username ∧ u.role = row.roleInCase) ∧
      row.caseId = caseId ∧ Postgres.varchar 64 body.username = some row.username ∧
      db' = { db with assignments := db.assignments ++ [row] } := by
  simp only [createAssignment, Evidence.bind_ok, requireAdmin_ok, ensure_ok, orRaise_ok,
    commit_ok] at h
  obtain ⟨_, _, _, hrole, _, hcase, c, rfl, _, _, _, huser, u, rfl, _, hmatch, hinsert⟩ := h
  obtain ⟨hstore, _, _, rfl⟩ := insertAssignment_ok hinsert
  obtain ⟨hc, hcid⟩ := select_ok hcase
  obtain ⟨hu, huname⟩ := select_ok huser
  obtain ⟨roleInCase, assignedBy, hrow, hname, hroleColumn⟩ := CaseAssignment.store_eq hstore
  have hshort : ∀ role ∈ assignableRoles, role.length ≤ 32 := by decide
  have hkept : roleInCase = body.roleInCase :=
    Postgres.eq_of_varchar (hshort body.roleInCase hrole) hroleColumn
  refine ⟨⟨c, hc, hcid⟩, ⟨u, hu, huname, ?_⟩, by rw [hrow], hname, rfl⟩
  rw [hrow, hmatch]
  exact hkept.symm

theorem deleteAssignment_ok {caseId assignmentId : String}
    (h : deleteAssignment db caller caseId assignmentId = .ok db') :
    ∃ p : CaseAssignment → Bool, db' = { db with assignments := db.assignments.filter p } := by
  simp only [deleteAssignment, Evidence.bind_ok, requireAdmin_ok, ensure_ok, orRaise_ok, pure,
    Except.pure] at h
  obtain ⟨_, _, _, _, _, _, _, _, heq⟩ := h
  cases heq
  exact ⟨_, rfl⟩

/-- A login is of an account. -/
theorem login_ok {body : LoginRequest} {payload : Gateway.Payload}
    (h : login bcrypt db body = .ok payload) :
    ∃ u ∈ db.users, u.username = body.username ∧ payload = ⟨some u.username, some u.role⟩ := by
  simp only [login, Evidence.bind_ok, ensure_ok, orRaise_ok, pure, Except.pure] at h
  obtain ⟨_, huser, u, rfl, _, _, _, _, _, _, heq⟩ := h
  cases heq
  obtain ⟨hu, hname⟩ := select_ok huser
  exact ⟨u, hu, hname, rfl⟩

/-- A seed account is added where its name is not taken. -/
theorem seedUser_some {fresh : String → Fresh} {seed : String × String × String}
    (h : seedUser bcrypt fresh db seed = some db') :
    db' = db ∧ (∃ u ∈ db.users, u.username = seed.1) ∨
      ∃ u, u.username = seed.1 ∧ u.role = seed.2.2 ∧
        (∀ v ∈ db.users, v.id ≠ u.id ∧ v.username ≠ u.username) ∧
        db' = { db with users := db.users ++ [u] } := by
  unfold seedUser at h
  cases hget : db.getUserByUsername seed.1 with
  | error error => simp [hget, Except.toOption] at h
  | ok found =>
    cases found with
    | some u =>
      obtain ⟨hu, hname⟩ := select_ok hget
      simp only [hget, Except.toOption, Option.bind_eq_bind, Option.bind_some, Option.pure_def,
        Option.some.injEq] at h
      exact .inl ⟨h.symm, u, hu, hname⟩
    | none =>
      simp only [hget, Except.toOption, Option.bind_eq_bind, Option.bind_some,
        Option.bind_eq_some_iff] at h
      obtain ⟨hashed, _, ⟨added, row⟩, hinsert, heq⟩ := h
      cases heq
      split at hinsert
      · rename_i hok
        cases hinsert
        obtain ⟨_, rfl, hkeys, rfl⟩ := insertUser_ok.mp hok
        exact .inr ⟨_, rfl, rfl, hkeys, rfl⟩
      · cases hinsert

end ForensicChain.Auth
