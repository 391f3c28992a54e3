import ForensicChain.Auth.Admin
import ForensicChain.Library.TransitionSystem

/-!
The auth database under any sequence of requests and restarts. A request is served or fails; what
fails, a start of the service included, leaves the tables as they were.
-/
namespace ForensicChain.Auth

inductive Request
  | createUser (caller : Caller) (body : CreateUserIn)
  | deleteUser (caller : Caller) (userId : String)
  | createCase (caller : Caller) (body : CreateCaseIn)
  | updateCaseStatus (caller : Caller) (caseId : String) (body : List (String × Json))
  | createAssignment (caller : Caller) (caseId : String) (body : CreateAssignmentIn)
  | deleteAssignment (caller : Caller) (caseId assignmentId : String)
  | login (body : LoginRequest)

inductive Action
  | served (r : Request)
  | failed (r : Request)
  | restart
  | restartFailed

inductive Serves (bcrypt : Bcrypt) (db : Db) : Request → Db → Prop
  | createUser {caller body db' out} (fresh : Fresh)
      (h : createUser bcrypt fresh db caller body = .ok (db', out)) :
      Serves bcrypt db (.createUser caller body) db'
  | deleteUser {caller userId db'} (h : deleteUser db caller userId = .ok db') :
      Serves bcrypt db (.deleteUser caller userId) db'
  | createCase {caller body db' out} (fresh : Fresh)
      (h : createCase fresh db caller body = .ok (db', out)) :
      Serves bcrypt db (.createCase caller body) db'
  | updateCaseStatus {caller caseId body db' out}
      (h : updateCaseStatus db caller caseId body = .ok (db', out)) :
      Serves bcrypt db (.updateCaseStatus caller caseId body) db'
  | createAssignment {caller caseId body db' out} (fresh : Fresh)
      (h : createAssignment fresh db caller caseId body = .ok (db', out)) :
      Serves bcrypt db (.createAssignment caller caseId body) db'
  | deleteAssignment {caller caseId assignmentId db'}
      (h : deleteAssignment db caller caseId assignmentId = .ok db') :
      Serves bcrypt db (.deleteAssignment caller caseId assignmentId) db'
  | login {body payload} (h : login bcrypt db body = .ok payload) :
      Serves bcrypt db (.login body) db

inductive Step (bcrypt : Bcrypt) (db : Db) : Action → Db → Prop
  | served {r db'} (h : Serves bcrypt db r db') : Step bcrypt db (.served r) db'
  | failed {r} : Step bcrypt db (.failed r) db
  | restart {db'} (fresh : String → Fresh) (h : seedPredefinedUsers bcrypt fresh db = some db') :
      Step bcrypt db .restart db'
  | restartFailed : Step bcrypt db .restartFailed db

/-- The first start of the service, over empty tables. -/
def Initial (bcrypt : Bcrypt) (db : Db) : Prop :=
  ∃ fresh, seedPredefinedUsers bcrypt fresh ⟨[], [], []⟩ = some db

def system (bcrypt : Bcrypt) : TransitionSystem Db Action := ⟨Initial bcrypt, Step bcrypt⟩

variable {bcrypt : Bcrypt} {db db' : Db} {r : Request} {a : Action}

/-- What adding one seed account keeps, seeding keeps. -/
theorem seeds_invariant {P : Db → Prop} {fresh : String → Fresh}
    {seeds : List (String × String × String)}
    (h : seeds.foldlM (seedUser bcrypt fresh) db = some db') (hP : P db)
    (hseed : ∀ seed ∈ seeds, ∀ s t, seedUser bcrypt fresh s seed = some t → P s → P t) :
    P db' := by
  induction seeds generalizing db with
  | nil =>
    cases h
    exact hP
  | cons seed seeds ih =>
    rw [List.foldlM_cons, Option.bind_eq_bind, Option.bind_eq_some_iff] at h
    obtain ⟨next, hnext, hrest⟩ := h
    exact ih hrest (hseed seed List.mem_cons_self db next hnext hP)
      fun other hmem => hseed other (List.mem_cons_of_mem seed hmem)

def sampleSalt : String := "$2b$12$aaaaaaaaaaaaaaaaaaaaaa"

def sampleFresh (n : Nat) : Fresh := ⟨.ofNat n, sampleSalt, 0⟩

def seededUser (n : Nat) (username role : String) : User :=
  ⟨(Uuid.ofNat n).str, username, plainHash username sampleSalt, role, true, 0⟩

/-- The seed accounts, whose ids are the lengths of their names here. -/
def seededDb : Db where
  users := [
    seededUser 14 "investigator01" "investigator",
    seededUser 9 "analyst01" "forensic_analyst",
    seededUser 10 "reviewer01" "legal_reviewer",
    seededUser 7 "admin01" "admin"]
  cases := []
  assignments := []

theorem seeded_initial : Initial plainBcrypt seededDb :=
  ⟨fun name => sampleFresh name.length, by decide +kernel⟩

/-- The headers of a request by the seed administrator. -/
def administrator : Caller := ⟨some "admin", some "admin01"⟩

/-- Ids and usernames name one account, an assignment refers to a case, and case numbers match. -/
structure Keys (db : Db) : Prop where
  userIds : (db.users.map User.id).Nodup
  usernames : (db.users.map User.username).Nodup
  references : ∀ a ∈ db.assignments, ∃ c ∈ db.cases, c.id = a.caseId
  numbers : ∀ c ∈ db.cases, matchesCaseNumber c.caseNumber = true

theorem keys_empty : Keys ⟨[], [], []⟩ where
  userIds := by simp
  usernames := by simp
  references := by simp
  numbers := by simp

theorem Keys.eq_of_id (hk : Keys db) {u v : User} (hu : u ∈ db.users) (hv : v ∈ db.users)
    (h : u.id = v.id) : u = v :=
  List.inj_on_of_nodup_map hk.userIds hu hv h

theorem Keys.eq_of_username (hk : Keys db) {u v : User} (hu : u ∈ db.users) (hv : v ∈ db.users)
    (h : u.username = v.username) : u = v :=
  List.inj_on_of_nodup_map hk.usernames hu hv h

/-- A row with a new key may be added. -/
theorem nodup_map_concat {α : Type} {rows : List α} {column : α → String} {row : α}
    (hkey : (rows.map column).Nodup) (hnew : ∀ x ∈ rows, column x ≠ column row) :
    ((rows ++ [row]).map column).Nodup := by
  rw [List.map_append]
  exact hkey.append (List.nodup_singleton _) (by simpa using hnew)

theorem keys_addUser (hk : Keys db) {u : User}
    (hu : ∀ v ∈ db.users, v.id ≠ u.id ∧ v.username ≠ u.username) :
    Keys { db with users := db.users ++ [u] } where
  userIds := nodup_map_concat hk.userIds fun v hv => (hu v hv).1
  usernames := nodup_map_concat hk.usernames fun v hv => (hu v hv).2
  references := hk.references
  numbers := hk.numbers

theorem keys_filterUsers (hk : Keys db) (p : User → Bool) :
    Keys { db with users := db.users.filter p } where
  userIds := hk.userIds.sublist (List.filter_sublist.map _)
  usernames := hk.usernames.sublist (List.filter_sublist.map _)
  references := hk.references
  numbers := hk.numbers

theorem seedUser_keys {fresh : String → Fresh} {seed : String × String × String}
    (h : seedUser bcrypt fresh db seed = some db') (hk : Keys db) : Keys db' := by
  rcases seedUser_some h with ⟨rfl, _⟩ | ⟨u, _, _, hu, rfl⟩
  · exact hk
  · exact keys_addUser hk hu

theorem serves_keys (h : Serves bcrypt db r db') (hk : Keys db) : Keys db' := by
  cases h with
  | createUser fresh h =>
    obtain ⟨u, _, _, _, hu, rfl⟩ := createUser_ok h
    exact keys_addUser hk hu
  | deleteUser h =>
    obtain ⟨_, u, _, _, _, rfl⟩ := deleteUser_ok h
    exact keys_filterUsers hk _
  | createCase fresh h =>
    obtain ⟨hnumber, _, _, rfl⟩ := createCase_ok h
    refine ⟨hk.userIds, hk.usernames, ?_, ?_⟩
    · intro a ha
      obtain ⟨c, hc, hid⟩ := hk.references a ha
      exact ⟨c, List.mem_append_left _ hc, hid⟩
    · intro c hc
      rcases List.mem_append.mp hc with hc | hc
      · exact hk.numbers c hc
      · rwa [List.mem_singleton.mp hc]
  | updateCaseStatus h =>
    obtain ⟨f, hf, rfl⟩ := updateCaseStatus_ok h
    refine ⟨hk.userIds, hk.usernames, ?_, ?_⟩
    · intro a ha
      obtain ⟨c, hc, hid⟩ := hk.references a ha
      exact ⟨f c, List.mem_map_of_mem hc, (hf c).1.trans hid⟩
    · intro c hc
      obtain ⟨old, hold, rfl⟩ := List.mem_map.mp hc
      rw [(hf old).2]
      exact hk.numbers old hold
  | createAssignment fresh h =>
    obtain ⟨⟨c, hc, hid⟩, _, hcase, _, rfl⟩ := createAssignment_ok h
    refine ⟨hk.userIds, hk.usernames, ?_, hk.numbers⟩
    intro a ha
    rcases List.mem_append.mp ha with ha | ha
    · exact hk.references a ha
    · rw [List.mem_singleton.mp ha]
      exact ⟨c, hc, hid.trans hcase.symm⟩
  | deleteAssignment h =>
    obtain ⟨p, rfl⟩ := deleteAssignment_ok h
    exact ⟨hk.userIds, hk.usernames, fun a ha => hk.references a (List.mem_filter.mp ha).1,
      hk.numbers⟩
  | login h => exact hk

theorem keys_initial (h : Initial bcrypt db) : Keys db := by
  obtain ⟨fresh, h⟩ := h
  exact seeds_invariant h keys_empty fun _ _ _ _ hseed hk => seedUser_keys hseed hk

theorem keys_step (hk : Keys db) (h : Step bcrypt db a db') : Keys db' := by
  cases h with
  | served h => exact serves_keys h hk
  | failed => exact hk
  | restart fresh h => exact seeds_invariant h hk fun _ _ _ _ hseed hk => seedUser_keys hseed hk
  | restartFailed => exact hk

theorem keys_reachable (h : (system bcrypt).Reachable db) : Keys db :=
  h.invariant (fun _ hi => keys_initial hi) fun _ _ _ hk hs => keys_step hk hs

end ForensicChain.Auth
