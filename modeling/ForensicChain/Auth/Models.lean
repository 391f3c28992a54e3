import ForensicChain.Evidence.Models
import ForensicChain.Library.Text

/-! Accounts, cases and assignments: the tables of the auth service. -/
namespace ForensicChain

/-- The answer when an exception leaves a handler. -/
def HttpError.unhandled : HttpError := ⟨500, "Internal Server Error"⟩

namespace Auth

/-- A row of `users`. -/
structure User where
  id : String
  username : String
  hashedPassword : String
  role : String
  isActive : Bool
  createdAt : Timestamp
  deriving DecidableEq

/-- A row of `cases`. -/
structure Case where
  id : String
  caseNumber : String
  title : String
  description : Option String
  status : String
  createdAt : Timestamp
  createdBy : String
  deriving DecidableEq

/-- A row of `case_assignments`. -/
structure CaseAssignment where
  id : String
  caseId : String
  username : String
  roleInCase : String
  assignedAt : Timestamp
  assignedBy : String
  isActive : Bool
  deriving DecidableEq

structure Db where
  users : List User
  cases : List Case
  assignments : List CaseAssignment
  deriving DecidableEq

/-- What a commit may raise: SQLAlchemy's `IntegrityError`, or another one. -/
inductive DbError
  | integrity
  | data

/-- `bcrypt`; `none` is an exception. -/
structure Bcrypt where
  hashpw : (password salt : String) → Option String
  checkpw : (plain hashed : String) → Option Bool

/-- A hash that is its salt of 29 characters, followed by the password. -/
def plainHash (password salt : String) : String :=
  String.ofList (salt.toList.take 29) ++ password

def plainBcrypt : Bcrypt where
  hashpw password salt := some (plainHash password salt)
  checkpw plain hashed := some (plainHash plain hashed = hashed)

/-- What a handler draws for the row that it adds: `uuid4()`, `gensalt()` and `now()`. -/
structure Fresh where
  id : Uuid
  salt : String
  now : Timestamp

open Postgres in
/-- The row as its columns keep it. -/
def User.store (u : User) : Option User := do
  some { u with
    username := ← text u.username
    hashedPassword := ← text u.hashedPassword
    role := ← text u.role }

open Postgres in
def Case.store (c : Case) : Option Case := do
  some { c with
    caseNumber := ← varchar 64 c.caseNumber
    title := ← varchar 256 c.title
    description := ← nullable text c.description
    status := ← varchar 32 c.status
    createdBy := ← varchar 64 c.createdBy }

open Postgres in
def CaseAssignment.store (a : CaseAssignment) : Option CaseAssignment := do
  some { a with
    caseId := ← text a.caseId
    username := ← varchar 64 a.username
    roleInCase := ← varchar 32 a.roleInCase
    assignedBy := ← varchar 64 a.assignedBy }

namespace Db

/-- `db.add(user)`, then the commit. -/
def insertUser (db : Db) (u : User) : Except DbError (Db × User) :=
  match u.store with
  | none => .error .data
  | some row =>
    if ∀ other ∈ db.users, other.id ≠ row.id ∧ other.username ≠ row.username then
      .ok ({ db with users := db.users ++ [row] }, row)
    else .error .integrity

def insertCase (db : Db) (c : Case) : Except DbError (Db × Case) :=
  match c.store with
  | none => .error .data
  | some row =>
    if ∀ other ∈ db.cases, other.id ≠ row.id ∧ other.caseNumber ≠ row.caseNumber then
      .ok ({ db with cases := db.cases ++ [row] }, row)
    else .error .integrity

/-- An assignment refers to a case; a user is assigned to it once. -/
def insertAssignment (db : Db) (a : CaseAssignment) : Except DbError (Db × CaseAssignment) :=
  match a.store with
  | none => .error .data
  | some row =>
    if (∃ c ∈ db.cases, c.id = row.caseId) ∧ ∀ other ∈ db.assignments,
        other.id ≠ row.id ∧ ¬ (other.caseId = row.caseId ∧ other.username = row.username) then
      .ok ({ db with assignments := db.assignments ++ [row] }, row)
    else .error .integrity

/-- `SELECT … WHERE column = value`, which refuses a value with a NUL. -/
def select {α : Type} (rows : List α) (column : α → String) (value : String) :
    Except HttpError (Option α) :=
  if '\x00' ∈ value.toList then .error .unhandled
  else .ok (rows.find? fun row => column row = value)

/-- `get_user_by_username`. -/
def getUserByUsername (db : Db) (username : String) : Except HttpError (Option User) :=
  select db.users User.username username

/-- `get_user_assignments`: the numbers of the open cases actively assigned to a user. -/
def getUserAssignments (db : Db) (username : String) : Except HttpError (List String) :=
  if '\x00' ∈ username.toList then .error .unhandled
  else .ok ((db.assignments.filter fun a => a.username = username ∧ a.isActive).flatMap fun a =>
    (db.cases.filter fun c => c.id = a.caseId ∧ c.status = "OPEN").map Case.caseNumber)

/-- `get_case_by_number`. -/
def getCaseByNumber (db : Db) (caseNumber : String) : Except HttpError Case :=
  match select (db.cases.filter fun c => c.status = "OPEN") Case.caseNumber caseNumber with
  | .error error => .error error
  | .ok none => .error ⟨404, "Case not found or not open"⟩
  | .ok (some c) => .ok c

end Db

variable {db db' : Db} {name number : String}

theorem User.store_eq {u row : User} (h : u.store = some row) : row = u := by
  simp only [User.store, Option.bind_eq_bind, Option.bind_eq_some_iff, Postgres.text] at h
  obtain ⟨_, h1, _, h2, _, h3, h⟩ := h
  split_ifs at h1 h2 h3
  cases h1
  cases h2
  cases h3
  exact (Option.some.inj h).symm

theorem Case.store_eq {c row : Case} (h : c.store = some row) :
    ∃ title description createdBy, row = { c with
      caseNumber := row.caseNumber, title, description, status := row.status, createdBy } ∧
      Postgres.varchar 64 c.caseNumber = some row.caseNumber ∧
      Postgres.varchar 32 c.status = some row.status := by
  simp only [Case.store, Option.bind_eq_bind, Option.bind_eq_some_iff] at h
  obtain ⟨n, hn, t, _, d, _, s, hs, b, _, h⟩ := h
  cases h
  exact ⟨t, d, b, rfl, hn, hs⟩

theorem CaseAssignment.store_eq {a row : CaseAssignment} (h : a.store = some row) :
    ∃ roleInCase assignedBy, row = { a with username := row.username, roleInCase, assignedBy } ∧
      Postgres.varchar 64 a.username = some row.username ∧
      Postgres.varchar 32 a.roleInCase = some roleInCase := by
  simp only [CaseAssignment.store, Option.bind_eq_bind, Option.bind_eq_some_iff] at h
  obtain ⟨c, hc, n, hn, r, hr, b, _, h⟩ := h
  cases h
  simp only [Postgres.text] at hc
  split_ifs at hc
  cases hc
  exact ⟨r, b, rfl, hn, hr⟩

theorem insertUser_ok {u row : User} :
    db.insertUser u = .ok (db', row) ↔ u.store = some row ∧ row = u ∧
      (∀ other ∈ db.users, other.id ≠ u.id ∧ other.username ≠ u.username) ∧
      db' = { db with users := db.users ++ [u] } := by
  unfold Db.insertUser
  cases hs : u.store with
  | none => simp
  | some stored =>
    obtain rfl := User.store_eq hs
    dsimp only
    split_ifs with hkey
    · constructor
      · intro h
        cases h
        exact ⟨rfl, rfl, hkey, rfl⟩
      · rintro ⟨_, rfl, _, rfl⟩
        rfl
    · constructor
      · intro h
        cases h
      · rintro ⟨_, _, hno, _⟩
        exact (hkey hno).elim

theorem insertCase_ok {c row : Case} (h : db.insertCase c = .ok (db', row)) :
    c.store = some row ∧
      (∀ other ∈ db.cases, other.id ≠ row.id ∧ other.caseNumber ≠ row.caseNumber) ∧
      db' = { db with cases := db.cases ++ [row] } := by
  unfold Db.insertCase at h
  split at h
  · cases h
  · rename_i stored hs
    split_ifs at h with hkey
    cases h
    exact ⟨hs, hkey, rfl⟩

theorem insertAssignment_ok {a row : CaseAssignment}
    (h : db.insertAssignment a = .ok (db', row)) :
    a.store = some row ∧ (∃ c ∈ db.cases, c.id = row.caseId) ∧
      (∀ other ∈ db.assignments, other.id ≠ row.id ∧
        ¬ (other.caseId = row.caseId ∧ other.username = row.username)) ∧
      db' = { db with assignments := db.assignments ++ [row] } := by
  unfold Db.insertAssignment at h
  split at h
  · cases h
  · rename_i stored hs
    split_ifs at h with hkey
    cases h
    exact ⟨hs, hkey.1, hkey.2, rfl⟩

theorem select_ok {α : Type} {rows : List α} {column : α → String} {row : α}
    (h : Db.select rows column name = .ok (some row)) : row ∈ rows ∧ column row = name := by
  unfold Db.select at h
  split_ifs at h
  have hfind : rows.find? (fun row => column row = name) = some row := by simpa using h
  exact ⟨List.mem_of_find?_eq_some hfind, by simpa using List.find?_some hfind⟩

/-- What is listed for a user is an open case with an active assignment of exactly that name. -/
theorem mem_getUserAssignments {numbers : List String}
    (h : db.getUserAssignments name = .ok numbers) :
    number ∈ numbers ↔ ∃ a ∈ db.assignments, a.username = name ∧ a.isActive = true ∧
      ∃ c ∈ db.cases, c.id = a.caseId ∧ c.status = "OPEN" ∧ c.caseNumber = number := by
  unfold Db.getUserAssignments at h
  split_ifs at h
  cases h
  simp only [List.mem_flatMap, List.mem_filter, List.mem_map, decide_eq_true_eq, and_assoc]

end Auth

end ForensicChain
