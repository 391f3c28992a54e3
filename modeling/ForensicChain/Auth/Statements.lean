import ForensicChain.Auth.Views
import ForensicChain.Library.Interleaving

/-!
The handlers of the auth service, statement by statement: between two of its statements on the
database a handler waits, and others go on. Run alone, each of them does what it does in one step.
-/
namespace ForensicChain.Auth

abbrev Handler (α : Type) := ExceptT HttpError (Prog Db) α

/-- `db.refresh(row)`: the row is read again under its id. -/
def refreshed {α : Type} (rows : List α) (column : α → String) (id : String) :
    Except HttpError α :=
  orRaise .unhandled (rows.find? fun row => column row = id)

/-- A row that was added under a new id is found again. -/
theorem refreshed_concat {α : Type} {rows : List α} {column : α → String} {row : α}
    (h : ∀ other ∈ rows, column other ≠ column row) :
    refreshed (rows ++ [row]) column (column row) = .ok row := by
  have hnone : rows.find? (fun other => column other = column row) = none := by
    simpa [List.find?_eq_none] using h
  simp [refreshed, List.find?_append, hnone, orRaise]

/-- The unit of work writes a status only if it is new; an update that finds no row raises. -/
def Db.setStatus (db : Db) (found : Case) (status : String) : Except HttpError (Db × Unit) :=
  if found.status = status then .ok (db, ())
  else if ∃ c ∈ db.cases, c.id = found.id then
    .ok ({ db with
      cases := db.cases.map fun c => if c.id = found.id then { c with status } else c }, ())
  else .error .unhandled

namespace Statements

open Prog

def createUser (bcrypt : Bcrypt) (fresh : Fresh) (caller : Caller) (body : CreateUserIn) :
    Handler UserOut := do
  check (requireAdmin caller.xUserRole)
  check (ensure (body.role ∈ allowedRoles)
    ⟨422, "Role must be one of: " ++ ", ".intercalate allowedRoles⟩)
  let existing ← query fun db => db.getUserByUsername body.username
  check (ensure (existing = none) ⟨409, "Username already exists"⟩)
  let hashed ← check (orRaise .unhandled (bcrypt.hashpw body.password fresh.salt))
  let user ← exec fun db => commit .unhandled (db.insertUser
    ⟨fresh.id.str, body.username, hashed, body.role, true, fresh.now⟩)
  let user ← query fun db => refreshed db.users User.id user.id
  return user.out

def deleteUser (caller : Caller) (userId : String) : Handler Unit := do
  check (requireAdmin caller.xUserRole)
  let found ← query fun db => Db.select db.users User.id userId
  let user ← check (orRaise ⟨404, "User not found"⟩ found)
  check (ensure (some user.username ≠ caller.xUsername) ⟨400, "Cannot delete your own account"⟩)
  exec fun db => .ok ({ db with users := db.users.filter fun u => u.id ≠ user.id }, ())

def createCase (fresh : Fresh) (caller : Caller) (body : CreateCaseIn) : Handler Case := do
  check (requireAdmin caller.xUserRole)
  check (ensure (matchesCaseNumber body.caseNumber = true)
    ⟨422, "case_number must match CASE-YYYY-NNN format"⟩)
  let existing ← query fun db => Db.select db.cases Case.caseNumber body.caseNumber
  check (ensure (existing = none) ⟨409, "Case number already exists"⟩)
  let row ← exec fun db => commit .unhandled (db.insertCase ⟨fresh.id.str, body.caseNumber,
    body.title, body.description, "OPEN", fresh.now, Gateway.orDefault "admin" caller.xUsername⟩)
  query fun db => refreshed db.cases Case.id row.id

def updateCaseStatus (caller : Caller) (caseId : String) (body : List (String × Json)) :
    Handler Case := do
  check (requireAdmin caller.xUserRole)
  let row ← query fun db => Db.select db.cases Case.id caseId
  let found ← check (orRaise ⟨404, "Case not found"⟩ row)
  let status ← check (newStatus body)
  exec fun db => db.setStatus found status
  query fun db => refreshed db.cases Case.id found.id

def createAssignment (fresh : Fresh) (caller : Caller) (caseId : String)
    (body : CreateAssignmentIn) : Handler CaseAssignment := do
  check (requireAdmin caller.xUserRole)
  check (ensure (body.roleInCase ∈ assignableRoles)
    ⟨422, "role_in_case must be one of: " ++ ", ".intercalate assignableRoles⟩)
  let row ← query fun db => Db.select db.cases Case.id caseId
  let found ← check (orRaise ⟨404, "Case not found"⟩ row)
  check (ensure (found.status ≠ "CLOSED") ⟨409, "Cannot assign to a closed case"⟩)
  let account ← query fun db => db.getUserByUsername body.username
  let user ← check (orRaise ⟨404, "User not found"⟩ account)
  check (ensure (user.role = body.roleInCase)
    ⟨422, "role_in_case must match user's global role (" ++ user.role ++ ")"⟩)
  let assignment ← exec fun db => commit ⟨409, "User already assigned to this case"⟩
    (db.insertAssignment ⟨fresh.id.str, caseId, body.username, body.roleInCase, fresh.now,
      Gateway.orDefault "admin" caller.xUsername, true⟩)
  query fun db => refreshed db.assignments CaseAssignment.id assignment.id

def deleteAssignment (caller : Caller) (caseId assignmentId : String) : Handler Unit := do
  check (requireAdmin caller.xUserRole)
  let found ← query fun db => do
    ensure ('\x00' ∉ caseId.toList) .unhandled
    Db.select (db.assignments.filter fun a => a.caseId = caseId) CaseAssignment.id assignmentId
  let assignment ← check (orRaise ⟨404, "Assignment not found"⟩ found)
  exec fun db =>
    .ok ({ db with assignments := db.assignments.filter fun a => a.id ≠ assignment.id }, ())

def login (bcrypt : Bcrypt) (body : LoginRequest) : Handler Gateway.Payload := do
  let found ← query fun db => db.getUserByUsername body.username
  let user ← check (orRaise ⟨401, "Invalid credentials"⟩ found)
  check (ensure (user.isActive = true) ⟨401, "Invalid credentials"⟩)
  let verified ← check (orRaise .unhandled (bcrypt.checkpw body.password user.hashedPassword))
  check (ensure (verified = true) ⟨401, "Invalid credentials"⟩)
  return ⟨some user.username, some user.role⟩

inductive Answer
  | user (out : UserOut)
  | case (row : Case)
  | assignment (row : CaseAssignment)
  | token (payload : Gateway.Payload)
  | noContent

def handle (bcrypt : Bcrypt) (fresh : Fresh) : Request → Handler Answer
  | .createUser caller body => do
    let out ← createUser bcrypt fresh caller body
    return .user out
  | .deleteUser caller userId => do
    deleteUser caller userId
    return .noContent
  | .createCase caller body => do
    let row ← createCase fresh caller body
    return .case row
  | .updateCaseStatus caller caseId body => do
    let row ← updateCaseStatus caller caseId body
    return .case row
  | .createAssignment caller caseId body => do
    let row ← createAssignment fresh caller caseId body
    return .assignment row
  | .deleteAssignment caller caseId assignmentId => do
    deleteAssignment caller caseId assignmentId
    return .noContent
  | .login body => do
    let payload ← login bcrypt body
    return .token payload

variable {bcrypt : Bcrypt} {fresh : Fresh} {db db' : Db} {caller : Caller}

theorem alone_createUser {body : CreateUserIn} :
    alone (createUser bcrypt fresh caller body) db =
      whole db (Auth.createUser bcrypt fresh db caller body) := by
  refine alone_check_bind fun _ _ => alone_check_bind fun _ _ => alone_query_bind fun _ _ =>
    alone_check_bind fun _ _ => alone_check_bind fun _ _ => alone_exec_bind fun db' row hw => ?_
  obtain ⟨_, rfl, hnew, rfl⟩ := insertUser_ok.mp (commit_ok.mp hw)
  exact Eq.trans (alone_query_ok (refreshed_concat fun v hv => (hnew v hv).1)) rfl

theorem alone_deleteUser {userId : String} :
    alone (deleteUser caller userId) db =
      whole db (Auth.deleteUser db caller userId >>= fun db' => .ok (db', ())) := by
  simp only [Auth.deleteUser, bind_assoc, pure_bind]
  exact alone_check_bind fun _ _ => alone_query_bind fun _ _ => alone_check_bind fun _ _ =>
    alone_check_bind fun _ _ => alone_exec

theorem alone_createCase {body : CreateCaseIn} :
    alone (createCase fresh caller body) db =
      whole db (Auth.createCase fresh db caller body) := by
  unfold Auth.createCase
  refine alone_check_bind fun _ _ => alone_check_bind fun _ _ => alone_query_bind fun _ _ =>
    alone_check_bind fun _ _ => ?_
  rw [← bind_pure (commit _ _)]
  refine alone_exec_bind fun db' row hw => ?_
  obtain ⟨_, hnew, rfl⟩ := insertCase_ok (commit_ok.mp hw)
  have hread := refreshed_concat fun c hc => (hnew c hc).1
  rw [alone_query]
  exact congrArg (·, _) hread

theorem find_of_select {α : Type} {rows : List α} {column : α → String} {value : String} {row : α}
    (h : Db.select rows column value = .ok (some row)) :
    rows.find? (fun r => column r = value) = some row := by
  unfold Db.select at h
  split_ifs at h
  exact Except.ok.inj h

/-- Only the row that was found changes. -/
theorem map_setStatus (hk : CaseKeys db) {found : Case} (hc : found ∈ db.cases) :
    db.cases.map (fun c => if c.id = found.id then { c with status := found.status } else c) =
      db.cases := by
  refine (List.map_congr_left fun c hmem => ?_).trans (List.map_id _)
  by_cases hid : c.id = found.id
  · obtain rfl := List.inj_on_of_nodup_map hk.ids hmem hc hid
    simp
  · simp [hid]

/-- The status is written to the row that was found, and the row is read again. -/
theorem alone_updateCaseStatus {caseId : String} {body : List (String × Json)}
    (hk : CaseKeys db) : alone (updateCaseStatus caller caseId body) db =
      whole db (Auth.updateCaseStatus db caller caseId body) := by
  refine alone_check_bind fun _ _ => alone_query_bind fun row hrow =>
    alone_check_bind fun found hfound => alone_check_bind fun status _ => ?_
  obtain rfl := orRaise_ok.mp hfound
  obtain ⟨hmem, rfl⟩ := select_ok hrow
  have hfind := find_of_select hrow
  by_cases hsame : found.status = status
  · subst hsame
    have hread : refreshed db.cases Case.id found.id = .ok found := by
      rw [refreshed, hfind]
      rfl
    refine Eq.trans (alone_exec_ok (t := db) (a := ()) (if_pos rfl)) ?_
    rw [alone_query, hread, map_setStatus hk hmem]
    rfl
  · have hwrite : db.setStatus found status = .ok ({ db with
        cases := db.cases.map fun c => if c.id = found.id then { c with status } else c }, ()) := by
      rw [Db.setStatus, if_neg hsame, if_pos ⟨found, hmem, rfl⟩]
    have hread : refreshed (db.cases.map fun c => if c.id = found.id then { c with status } else c)
        Case.id found.id = .ok { found with status } := by
      have hids : (fun c : Case => decide (c.id = found.id)) ∘
          (fun c => if c.id = found.id then { c with status } else c) =
            fun c => decide (c.id = found.id) := by
        funext c
        rw [Function.comp_apply]
        split <;> simp [*]
      rw [refreshed, List.find?_map, hids, hfind]
      simp [orRaise]
    refine Eq.trans (alone_exec_ok hwrite) ?_
    rw [alone_query, hread]
    rfl

theorem alone_createAssignment {caseId : String} {body : CreateAssignmentIn} :
    alone (createAssignment fresh caller caseId body) db =
      whole db (Auth.createAssignment fresh db caller caseId body) := by
  unfold Auth.createAssignment
  refine alone_check_bind fun _ _ => alone_check_bind fun _ _ => alone_query_bind fun _ _ =>
    alone_check_bind fun _ _ => alone_check_bind fun _ _ => alone_query_bind fun _ _ =>
      alone_check_bind fun _ _ => alone_check_bind fun _ _ => ?_
  rw [← bind_pure (commit _ _)]
  refine alone_exec_bind fun db' row hw => ?_
  obtain ⟨_, _, hnew, rfl⟩ := insertAssignment_ok (commit_ok.mp hw)
  have hread := refreshed_concat fun a ha => (hnew a ha).1
  rw [alone_query]
  exact congrArg (·, _) hread

theorem alone_deleteAssignment {caseId assignmentId : String} :
    alone (deleteAssignment caller caseId assignmentId) db =
      whole db (Auth.deleteAssignment db caller caseId assignmentId >>= fun db' =>
        .ok (db', ())) := by
  simp only [Auth.deleteAssignment, bind_assoc, pure_bind]
  refine alone_check_bind fun _ _ => ?_
  exact Eq.trans (alone_query_bind fun _ _ => alone_check_bind fun _ _ => alone_exec)
    (congrArg (whole db) (bind_assoc _ _ _))

theorem alone_login {body : LoginRequest} : alone (login bcrypt body) db =
    whole db (Auth.login bcrypt db body >>= fun payload => .ok (db, payload)) := by
  simp only [Auth.login, bind_assoc, pure_bind]
  exact alone_query_bind fun _ _ => alone_check_bind fun _ _ => alone_check_bind fun _ _ =>
    alone_check_bind fun _ _ => alone_check_bind fun _ _ => alone_pure

/-- What a request is answered with, and what it leaves, when its handler is one step. -/
def atOnce (bcrypt : Bcrypt) (fresh : Fresh) (db : Db) :
    Request → Except HttpError (Db × Answer)
  | .createUser caller body => do
    let (db, out) ← Auth.createUser bcrypt fresh db caller body
    return (db, .user out)
  | .deleteUser caller userId => do return (← Auth.deleteUser db caller userId, .noContent)
  | .createCase caller body => do
    let (db, row) ← Auth.createCase fresh db caller body
    return (db, .case row)
  | .updateCaseStatus caller caseId body => do
    let (db, row) ← Auth.updateCaseStatus db caller caseId body
    return (db, .case row)
  | .createAssignment caller caseId body => do
    let (db, row) ← Auth.createAssignment fresh db caller caseId body
    return (db, .assignment row)
  | .deleteAssignment caller caseId assignmentId => do
    return (← Auth.deleteAssignment db caller caseId assignmentId, .noContent)
  | .login body => do return (db, .token (← Auth.login bcrypt db body))

theorem alone_answer {α : Type} {x : Handler α} {e : Except HttpError (Db × α)}
    {answer : α → Answer} (h : alone x db = whole db e) :
    alone (x >>= fun a => pure (answer a)) db =
      whole db (e >>= fun out => .ok (out.1, answer out.2)) := by
  rw [alone_bind, h]
  cases e with
  | error e => rfl
  | ok out => rfl

/-- A handler that runs without interruption answers and leaves what it does in one step. -/
theorem alone_handle (hk : CaseKeys db) {r : Request} :
    alone (handle bcrypt fresh r) db = whole db (atOnce bcrypt fresh db r) := by
  cases r with
  | createUser caller body => exact alone_answer alone_createUser
  | deleteUser caller userId =>
    exact (alone_answer alone_deleteUser).trans (congrArg (whole db) (bind_assoc _ _ _))
  | createCase caller body => exact alone_answer alone_createCase
  | updateCaseStatus caller caseId body => exact alone_answer (alone_updateCaseStatus hk)
  | createAssignment caller caseId body => exact alone_answer alone_createAssignment
  | deleteAssignment caller caseId assignmentId =>
    exact (alone_answer alone_deleteAssignment).trans (congrArg (whole db) (bind_assoc _ _ _))
  | login body => exact (alone_answer alone_login).trans (congrArg (whole db) (bind_assoc _ _ _))

theorem serves_iff {r : Request} : Serves bcrypt db r db' ↔
    ∃ fresh answer, atOnce bcrypt fresh db r = .ok (db', answer) := by
  constructor
  · intro h
    cases h with
    | createUser fresh h | createCase fresh h | createAssignment fresh h =>
      exact ⟨fresh, _, Evidence.bind_ok.mpr ⟨_, h, rfl⟩⟩
    | deleteUser h | updateCaseStatus h | deleteAssignment h | login h =>
      exact ⟨sampleFresh 0, _, Evidence.bind_ok.mpr ⟨_, h, rfl⟩⟩
  · rintro ⟨fresh, answer, h⟩
    cases r with
    | createUser caller body =>
      obtain ⟨⟨db', out⟩, hserved, ⟨⟩⟩ := Evidence.bind_ok.mp h
      exact .createUser fresh hserved
    | deleteUser caller userId =>
      obtain ⟨db', hserved, ⟨⟩⟩ := Evidence.bind_ok.mp h
      exact .deleteUser hserved
    | createCase caller body =>
      obtain ⟨⟨db', row⟩, hserved, ⟨⟩⟩ := Evidence.bind_ok.mp h
      exact .createCase fresh hserved
    | updateCaseStatus caller caseId body =>
      obtain ⟨⟨db', row⟩, hserved, ⟨⟩⟩ := Evidence.bind_ok.mp h
      exact .updateCaseStatus hserved
    | createAssignment caller caseId body =>
      obtain ⟨⟨db', row⟩, hserved, ⟨⟩⟩ := Evidence.bind_ok.mp h
      exact .createAssignment fresh hserved
    | deleteAssignment caller caseId assignmentId =>
      obtain ⟨db', hserved, ⟨⟩⟩ := Evidence.bind_ok.mp h
      exact .deleteAssignment hserved
    | login body =>
      obtain ⟨payload, hserved, ⟨⟩⟩ := Evidence.bind_ok.mp h
      exact .login hserved

end Statements

end ForensicChain.Auth
