import ForensicChain.Auth.Statements

/-!
Any number of requests at the auth service at once. The constraints of the database keep its tables
whole however the statements interleave; and as long as nobody changes the rows that a pending
request names, each request takes effect at its commit as if it had come then and alone.
-/
namespace ForensicChain.Auth

open Prog
open Statements (Answer handle)

variable {bcrypt : Bcrypt} {fresh : Fresh} {db db' : Db} {caller : Caller} {Inv : Db → Prop}
  {rely guarantee : Db → Db → Prop} {s : Db}

/-- What a request to add an account has checked when it inserts the row. -/
structure NewUser (bcrypt : Bcrypt) (fresh : Fresh) (caller : Caller) (body : CreateUserIn)
    (u : User) : Prop where
  admin : caller.xUserRole = some "admin"
  role : body.role ∈ allowedRoles
  name : '\x00' ∉ body.username.toList
  row : ∃ hashed, bcrypt.hashpw body.password fresh.salt = some hashed ∧
    u = ⟨fresh.id.str, body.username, hashed, body.role, true, fresh.now⟩

structure NewCase (fresh : Fresh) (caller : Caller) (body : CreateCaseIn) (c : Case) : Prop where
  admin : caller.xUserRole = some "admin"
  number : matchesCaseNumber body.caseNumber = true
  text : '\x00' ∉ body.caseNumber.toList
  row : c = ⟨fresh.id.str, body.caseNumber, body.title, body.description, "OPEN", fresh.now,
    Gateway.orDefault "admin" caller.xUsername⟩

/-- The case and the account that an assignment is for, as they were found one after the other. -/
structure NewAssignment (Inv : Db → Prop) (rely : Db → Db → Prop) (fresh : Fresh)
    (caller : Caller) (caseId : String) (body : CreateAssignmentIn) (db : Db)
    (a : CaseAssignment) : Prop where
  admin : caller.xUserRole = some "admin"
  role : body.roleInCase ∈ assignableRoles
  found : ∃ s t, Inv s ∧ Inv t ∧ rely s t ∧ rely t db ∧
    (∃ c, Db.select s.cases Case.id caseId = .ok (some c) ∧ c.status ≠ "CLOSED") ∧
    ∃ u, t.getUserByUsername body.username = .ok (some u) ∧ u.role = body.roleInCase
  row : a = ⟨fresh.id.str, caseId, body.username, body.roleInCase, fresh.now,
    Gateway.orDefault "admin" caller.xUsername, true⟩

theorem notMem_nul_of_select {α : Type} {rows : List α} {column : α → String} {value : String}
    {found : Option α} (h : Db.select rows column value = .ok found) : '\x00' ∉ value.toList := by
  intro hnul
  simp [Db.select, hnul] at h

section
variable (hread : ∀ t, Inv t → guarantee t t)
include hread

theorem keeps_read {α : Type} {Q : α → Db → Prop} {f : Db → Except HttpError α}
    (h : ∀ t a, Inv t → rely s t → f t = .ok a → Q a t) :
    Keeps Inv rely guarantee (query f) Q s :=
  keeps_query fun t ht hst => ⟨hread t ht, fun a ha => h t a ht hst ha⟩

theorem keeps_createUser {body : CreateUserIn}
    (hwrite : ∀ t t' u row, Inv t → NewUser bcrypt fresh caller body u →
      t.insertUser u = .ok (t', row) → guarantee t t') :
    Keeps Inv rely guarantee (Statements.createUser bcrypt fresh caller body) (fun _ _ => True)
      s := by
  refine keeps_bind (keeps_check fun _ hadmin => keeps_bind (keeps_check fun _ hrole =>
    keeps_bind (keeps_read hread fun t existing ht hst hexisting => keeps_bind (keeps_check
      fun _ _ => keeps_bind (keeps_check fun hashed hhashed => keeps_bind (keeps_exec
        fun t ht _ => ⟨hread t ht, fun t' row hw => ⟨hwrite t t' _ row ht ?_ (commit_ok.mp hw),
          keeps_bind (keeps_read hread fun _ _ _ _ _ => keeps_pure trivial)⟩⟩))))))
  exact ⟨requireAdmin_ok.mp hadmin, ensure_ok.mp hrole, notMem_nul_of_select hexisting,
    hashed, orRaise_ok.mp hhashed, rfl⟩

theorem keeps_deleteUser {userId : String}
    (hwrite : ∀ s t u, Inv s → Inv t → rely s t → caller.xUserRole = some "admin" →
      Db.select s.users User.id userId = .ok (some u) → some u.username ≠ caller.xUsername →
      guarantee t { t with users := t.users.filter fun v => v.id ≠ u.id }) :
    Keeps Inv rely guarantee (Statements.deleteUser caller userId) (fun _ _ => True) s := by
  refine keeps_bind (keeps_check fun _ hadmin => keeps_bind (keeps_read hread
    fun t found ht _ hfound => keeps_bind (keeps_check fun user huser => keeps_bind (keeps_check
      fun _ hself => keeps_exec fun t' ht' htt' => ⟨hread t' ht', fun u _ hw => ⟨?_, trivial⟩⟩))))
  obtain ⟨rfl, _⟩ := Prod.mk.inj (Except.ok.inj hw)
  obtain rfl := orRaise_ok.mp huser
  exact hwrite t t' user ht ht' htt' (requireAdmin_ok.mp hadmin) hfound (ensure_ok.mp hself)

theorem keeps_createCase {body : CreateCaseIn}
    (hwrite : ∀ t t' c row, Inv t → NewCase fresh caller body c →
      t.insertCase c = .ok (t', row) → guarantee t t') :
    Keeps Inv rely guarantee (Statements.createCase fresh caller body) (fun _ _ => True) s := by
  refine keeps_bind (keeps_check fun _ hadmin => keeps_bind (keeps_check fun _ hnumber =>
    keeps_bind (keeps_read hread fun t existing ht _ hexisting => keeps_bind (keeps_check
      fun _ _ => keeps_bind (keeps_exec fun t ht _ => ⟨hread t ht, fun t' row hw =>
        ⟨hwrite t t' _ row ht ?_ (commit_ok.mp hw),
          keeps_read hread fun _ _ _ _ _ => trivial⟩⟩)))))
  exact ⟨requireAdmin_ok.mp hadmin, ensure_ok.mp hnumber, notMem_nul_of_select hexisting, rfl⟩

theorem keeps_updateCaseStatus {caseId : String} {body : List (String × Json)}
    (hwrite : ∀ (s t t' : Db) (found : Case) (status : String), Inv t →
      caller.xUserRole = some "admin" → Db.select s.cases Case.id caseId = .ok (some found) →
      newStatus body = .ok status → t.setStatus found status = .ok (t', ()) → guarantee t t') :
    Keeps Inv rely guarantee (Statements.updateCaseStatus caller caseId body) (fun _ _ => True)
      s := by
  refine keeps_bind (keeps_check fun _ hadmin => keeps_bind (keeps_read hread
    fun t row ht _ hrow => keeps_bind (keeps_check fun found hfound => keeps_bind (keeps_check
      fun status hstatus => keeps_bind (keeps_exec fun t' ht' _ => ⟨hread t' ht', fun u _ hw =>
        ⟨?_, keeps_read hread fun _ _ _ _ _ => trivial⟩⟩)))))
  obtain rfl := orRaise_ok.mp hfound
  exact hwrite t t' u found status ht' (requireAdmin_ok.mp hadmin) hrow hstatus hw

theorem keeps_createAssignment {caseId : String} {body : CreateAssignmentIn}
    (hwrite : ∀ t t' a row, Inv t → NewAssignment Inv rely fresh caller caseId body t a →
      t.insertAssignment a = .ok (t', row) → guarantee t t') :
    Keeps Inv rely guarantee (Statements.createAssignment fresh caller caseId body)
      (fun _ _ => True) s := by
  refine keeps_bind (keeps_check fun _ hadmin => keeps_bind (keeps_check fun _ hrole =>
    keeps_bind (keeps_read hread fun t₁ row h₁ _ hrow => keeps_bind (keeps_check
      fun found hfound => keeps_bind (keeps_check fun _ hopen => keeps_bind (keeps_read hread
        fun t₂ account h₂ h₁₂ haccount => keeps_bind (keeps_check fun user huser => keeps_bind
          (keeps_check fun _ hmatch => keeps_bind (keeps_exec fun t ht h₂t => ⟨hread t ht,
            fun t' a hw => ⟨hwrite t t' _ a ht ?_ (commit_ok.mp hw),
              keeps_read hread fun _ _ _ _ _ => trivial⟩⟩)))))))))
  obtain rfl := orRaise_ok.mp hfound
  obtain rfl := orRaise_ok.mp huser
  exact ⟨requireAdmin_ok.mp hadmin, ensure_ok.mp hrole,
    ⟨t₁, t₂, h₁, h₂, h₁₂, h₂t, ⟨found, hrow, ensure_ok.mp hopen⟩, user, haccount,
      ensure_ok.mp hmatch⟩, rfl⟩

theorem keeps_deleteAssignment {caseId assignmentId : String}
    (hwrite : ∀ s t a, Inv s → Inv t → rely s t → caller.xUserRole = some "admin" →
      '\x00' ∉ caseId.toList →
      Db.select (s.assignments.filter fun b => b.caseId = caseId) CaseAssignment.id assignmentId =
        .ok (some a) →
      guarantee t { t with assignments := t.assignments.filter fun b => b.id ≠ a.id }) :
    Keeps Inv rely guarantee (Statements.deleteAssignment caller caseId assignmentId)
      (fun _ _ => True) s := by
  refine keeps_bind (keeps_check fun _ hadmin => keeps_bind (keeps_read hread
    fun t found ht _ hfound => keeps_bind (keeps_check fun a ha => keeps_exec
      fun t' ht' htt' => ⟨hread t' ht', fun u _ hw => ⟨?_, trivial⟩⟩)))
  obtain ⟨rfl, _⟩ := Prod.mk.inj (Except.ok.inj hw)
  obtain rfl := orRaise_ok.mp ha
  obtain ⟨_, hnul, hselect⟩ := Evidence.bind_ok.mp hfound
  exact hwrite t t' a ht ht' htt' (requireAdmin_ok.mp hadmin) (ensure_ok.mp hnul) hselect

theorem keeps_login {body : LoginRequest} :
    Keeps Inv rely guarantee (Statements.login bcrypt body) (fun _ _ => True) s :=
  keeps_bind (keeps_read hread fun _ _ _ _ _ => keeps_bind (keeps_check fun _ _ =>
    keeps_bind (keeps_check fun _ _ => keeps_bind (keeps_check fun _ _ =>
      keeps_bind (keeps_check fun _ _ => keeps_pure trivial)))))

end

theorem select_none {α : Type} {rows : List α} {column : α → String} {value : String}
    (hnul : '\x00' ∉ value.toList) (h : ∀ row ∈ rows, column row ≠ value) :
    Db.select rows column value = .ok none := by
  simpa [Db.select, hnul, List.find?_eq_none] using h

/-- A row that alone has the value is the one that is found. -/
theorem select_some {α : Type} {rows : List α} {column : α → String} {value : String} {row : α}
    (hnul : '\x00' ∉ value.toList) (hrow : row ∈ rows) (hcolumn : column row = value)
    (hkey : ∀ r ∈ rows, column r = value → r = row) :
    Db.select rows column value = .ok (some row) := by
  unfold Db.select
  rw [if_neg hnul]
  cases hfind : rows.find? fun r => column r = value with
  | none => exact absurd hcolumn (by simpa using List.find?_eq_none.mp hfind row hrow)
  | some r =>
    have hfound : column r = value := by simpa using List.find?_some hfind
    rw [hkey r (List.mem_of_find?_eq_some hfind) hfound]

/-- The account is added as if its request had come at the commit. -/
theorem NewUser.serves {body : CreateUserIn} {u row : User}
    (h : NewUser bcrypt fresh caller body u) (hi : db.insertUser u = .ok (db', row)) :
    Serves bcrypt db (.createUser caller body) db' := by
  obtain ⟨hashed, hhashed, rfl⟩ := h.row
  obtain ⟨_, _, hnew, _⟩ := insertUser_ok.mp hi
  have hfree : db.getUserByUsername body.username = .ok none :=
    select_none h.name fun v hv => (hnew v hv).2
  have hserved : createUser bcrypt fresh db caller body = .ok (db', row.out) := by
    refine Evidence.bind_ok.mpr ⟨(), requireAdmin_ok.mpr h.admin, ?_⟩
    refine Evidence.bind_ok.mpr ⟨(), ensure_ok.mpr h.role, Evidence.bind_ok.mpr ⟨_, hfree, ?_⟩⟩
    refine Evidence.bind_ok.mpr ⟨(), ensure_ok.mpr rfl, Evidence.bind_ok.mpr ⟨hashed, ?_, ?_⟩⟩
    · exact orRaise_ok.mpr hhashed
    · exact Evidence.bind_ok.mpr ⟨_, commit_ok.mpr hi, rfl⟩
  exact .createUser fresh hserved

theorem NewCase.serves {body : CreateCaseIn} {c row : Case} (h : NewCase fresh caller body c)
    (hi : db.insertCase c = .ok (db', row)) :
    Serves bcrypt db (.createCase caller body) db' := by
  obtain rfl := h.row
  obtain ⟨hstore, hnew, _⟩ := insertCase_ok hi
  obtain ⟨_, _, _, _, hcolumn, _⟩ := Case.store_eq hstore
  have hkept : row.caseNumber = body.caseNumber := verbatim_caseNumber h.number _ hcolumn
  have hfree : Db.select db.cases Case.caseNumber body.caseNumber = .ok none :=
    select_none h.text fun c hc => hkept ▸ (hnew c hc).2
  have hserved : createCase fresh db caller body = .ok (db', row) := by
    refine Evidence.bind_ok.mpr ⟨(), requireAdmin_ok.mpr h.admin, ?_⟩
    refine Evidence.bind_ok.mpr ⟨(), ensure_ok.mpr h.number, Evidence.bind_ok.mpr ⟨_, hfree, ?_⟩⟩
    exact Evidence.bind_ok.mpr ⟨(), ensure_ok.mpr rfl, commit_ok.mpr hi⟩
  exact .createCase fresh hserved

/-- A status that is written is written as if the request had come at the commit. -/
theorem setStatus_serves {caseId : String} {body : List (String × Json)} {found : Case}
    {status : String} (hk : CaseKeys db) (hadmin : caller.xUserRole = some "admin")
    (hfound : Db.select s.cases Case.id caseId = .ok (some found))
    (hstatus : newStatus body = .ok status) (hw : db.setStatus found status = .ok (db', ())) :
    db' = db ∨ Serves bcrypt db (.updateCaseStatus caller caseId body) db' := by
  unfold Db.setStatus at hw
  split_ifs at hw with hsame hexists
  · exact .inl (Prod.mk.inj (Except.ok.inj hw)).1.symm
  · obtain ⟨_, rfl⟩ := select_ok hfound
    obtain ⟨c, hc, hid⟩ := hexists
    have hselect : Db.select db.cases Case.id found.id = .ok (some c) :=
      select_some (notMem_nul_of_select hfound) hc hid fun r hr hrid =>
        List.inj_on_of_nodup_map hk.ids hr hc (hrid.trans hid.symm)
    have hserved : updateCaseStatus db caller found.id body = .ok (db', { c with status }) := by
      refine Evidence.bind_ok.mpr ⟨(), requireAdmin_ok.mpr hadmin, Evidence.bind_ok.mpr
        ⟨_, hselect, Evidence.bind_ok.mpr ⟨c, rfl, Evidence.bind_ok.mpr ⟨_, hstatus, ?_⟩⟩⟩⟩
      rw [← (Prod.mk.inj (Except.ok.inj hw)).1, hid]
      rfl
    exact .inr (.updateCaseStatus hserved)

/-- What the constraints and the checks of the handlers keep. -/
structure Tables (db : Db) : Prop where
  keys : Keys db
  cases : CaseKeys db
  fits : Fits db
  assignmentIds : (db.assignments.map CaseAssignment.id).Nodup

theorem Tables.filterUsers (h : Tables db) (p : User → Bool) :
    Tables { db with users := db.users.filter p } where
  keys := keys_filterUsers h.keys p
  cases := ⟨h.cases.ids, h.cases.numbers, h.cases.assigned, h.cases.active⟩
  fits := h.fits
  assignmentIds := h.assignmentIds

theorem Tables.filterAssignments (h : Tables db) (p : CaseAssignment → Bool) :
    Tables { db with assignments := db.assignments.filter p } where
  keys := ⟨h.keys.userIds, h.keys.usernames,
    fun a ha => h.keys.references a (List.mem_filter.mp ha).1, h.keys.numbers⟩
  cases := ⟨h.cases.ids, h.cases.numbers, h.cases.assigned.sublist (List.filter_sublist.map _),
    fun a ha => h.cases.active a (List.mem_filter.mp ha).1⟩
  fits a ha := h.fits a (List.mem_filter.mp ha).1
  assignmentIds := h.assignmentIds.sublist (List.filter_sublist.map _)

/-- The constraints alone keep the tables when an assignment is added. -/
theorem Tables.insertAssignment (h : Tables db) {a row : CaseAssignment} (ha : a.isActive = true)
    (hi : db.insertAssignment a = .ok (db', row)) : Tables db' := by
  obtain ⟨hstore, hcase, hnew, rfl⟩ := insertAssignment_ok hi
  obtain ⟨_, _, hrow, hname, _⟩ := CaseAssignment.store_eq hstore
  have hactive : row.isActive = true := by rw [hrow, ha]
  refine ⟨⟨h.keys.userIds, h.keys.usernames, ?_, h.keys.numbers⟩,
    ⟨h.cases.ids, h.cases.numbers, ?_, ?_⟩, ?_, ?_⟩
  · exact List.forall_mem_append.mpr ⟨h.keys.references, by simpa using hcase⟩
  · rw [List.map_append]
    refine h.cases.assigned.append (List.nodup_singleton _) ?_
    simpa using fun b hb hcase hname => (hnew b hb).2 ⟨hcase, hname⟩
  · exact List.forall_mem_append.mpr ⟨h.cases.active, by simpa using hactive⟩
  · exact List.forall_mem_append.mpr ⟨h.fits, by simpa using Postgres.varchar_stored hname⟩
  · rw [List.map_append]
    exact h.assignmentIds.append (List.nodup_singleton _) (by simpa using fun b hb => (hnew b hb).1)

theorem serves_assignmentIds {r : Request} (hs : Serves bcrypt db r db')
    (h : (db.assignments.map CaseAssignment.id).Nodup) :
    (db'.assignments.map CaseAssignment.id).Nodup := by
  cases hs with
  | createUser fresh hs =>
    obtain ⟨u, _, _, _, _, rfl⟩ := createUser_ok hs
    exact h
  | deleteUser hs =>
    obtain ⟨_, u, _, _, _, rfl⟩ := deleteUser_ok hs
    exact h
  | createCase fresh hs =>
    obtain ⟨_, _, _, rfl⟩ := createCase_ok hs
    exact h
  | updateCaseStatus hs =>
    obtain ⟨f, _, rfl⟩ := updateCaseStatus_ok hs
    exact h
  | createAssignment fresh hs =>
    simp only [createAssignment, Evidence.bind_ok, commit_ok] at hs
    obtain ⟨_, _, _, _, _, _, _, _, _, _, _, _, _, _, _, _, hinsert⟩ := hs
    obtain ⟨_, _, hnew, rfl⟩ := insertAssignment_ok hinsert
    rw [List.map_append]
    exact h.append (List.nodup_singleton _) (by simpa using fun b hb => (hnew b hb).1)
  | deleteAssignment hs =>
    obtain ⟨p, rfl⟩ := deleteAssignment_ok hs
    exact h.sublist (List.filter_sublist.map _)
  | login hs => exact h

theorem Tables.serves {r : Request} (h : Tables db) (hs : Serves bcrypt db r db') : Tables db' :=
  ⟨serves_keys hs h.keys, serves_caseKeys hs h.cases, serves_fits hs h.fits,
    serves_assignmentIds hs h.assignmentIds⟩

/-- A restart, which ends the requests that are pending. -/
def Restarts (bcrypt : Bcrypt) (db db' : Db) : Prop :=
  db' = db ∨ ∃ fresh, seedPredefinedUsers bcrypt fresh db = some db'

theorem seeding_assignments {fresh : String → Fresh}
    (h : seedPredefinedUsers bcrypt fresh db = some db') : db'.assignments = db.assignments := by
  refine seeds_invariant (P := fun t => t.assignments = db.assignments) h rfl ?_
  intro seed _ s t hseed hs
  rcases seedUser_some hseed with ⟨rfl, _⟩ | ⟨u, _, _, _, rfl⟩ <;> exact hs

theorem Tables.seeded (h : Tables db) {fresh : String → Fresh}
    (hseed : seedPredefinedUsers bcrypt fresh db = some db') : Tables db' where
  keys := seeds_invariant hseed h.keys fun _ _ _ _ hs hk => seedUser_keys hs hk
  cases := seeding_caseKeys hseed h.cases
  fits := seeding_fits hseed h.fits
  assignmentIds := seeding_assignments hseed ▸ h.assignmentIds

theorem Tables.restarts (h : Tables db) (hr : Restarts bcrypt db db') : Tables db' := by
  rcases hr with rfl | ⟨fresh, hseed⟩
  · exact h
  · exact h.seeded hseed

theorem tables_initial (h : Initial bcrypt db) : Tables db := by
  obtain ⟨fresh, hseed⟩ := h
  exact Tables.seeded ⟨keys_empty, ⟨by simp, by simp, by simp, by simp⟩, by simp [Fits], by simp⟩
    hseed

/-- Nobody changes the rows that a request names: the case and the account that it assigns stay as
they are, and no row comes with the id of the one that it deletes. -/
def Rely : Request → Db → Db → Prop
  | .deleteUser _ userId, s, t => ∀ u ∈ t.users, u.id = userId → u ∈ s.users
  | .createAssignment _ caseId body, s, t =>
    (∀ c ∈ s.cases, c.id = caseId → c ∈ t.cases) ∧
      ∀ u ∈ s.users, u.username = body.username → u ∈ t.users
  | .deleteAssignment _ _ assignmentId, s, t =>
    ∀ a ∈ t.assignments, a.id = assignmentId → a ∈ s.assignments
  | _, _, _ => True

theorem Rely.refl {r : Request} (db : Db) : Rely r db db := by
  cases r with
  | deleteUser | deleteAssignment => exact fun _ hmem _ => hmem
  | createAssignment => exact ⟨fun _ hmem _ => hmem, fun _ hmem _ => hmem⟩
  | _ => trivial

theorem Rely.trans {r : Request} {s t u : Db} (hst : Rely r s t) (htu : Rely r t u) :
    Rely r s u := by
  cases r with
  | deleteUser | deleteAssignment => exact fun row hmem hid => hst row (htu row hmem hid) hid
  | createAssignment =>
    exact ⟨fun c hc hid => htu.1 c (hst.1 c hc hid) hid,
      fun v hv hname => htu.2 v (hst.2 v hv hname) hname⟩
  | _ => trivial

theorem deleteUser_serves {userId : String} {u : User} {t : Db} (hs : Tables s) (ht : Tables t)
    (hst : Rely (.deleteUser caller userId) s t) (hadmin : caller.xUserRole = some "admin")
    (hfound : Db.select s.users User.id userId = .ok (some u))
    (hself : some u.username ≠ caller.xUsername) :
    { t with users := t.users.filter fun v => v.id ≠ u.id } = t ∨
      Serves bcrypt t (.deleteUser caller userId)
        { t with users := t.users.filter fun v => v.id ≠ u.id } := by
  obtain ⟨hu, rfl⟩ := select_ok hfound
  by_cases hmem : u ∈ t.users
  · have hselect : Db.select t.users User.id u.id = .ok (some u) :=
      select_some (notMem_nul_of_select hfound) hmem rfl fun v hv hid =>
        ht.keys.eq_of_id hv hmem hid
    have hserved : deleteUser t caller u.id =
        .ok { t with users := t.users.filter fun v => v.id ≠ u.id } :=
      Evidence.bind_ok.mpr ⟨(), requireAdmin_ok.mpr hadmin, Evidence.bind_ok.mpr
        ⟨_, hselect, Evidence.bind_ok.mpr ⟨u, rfl, Evidence.bind_ok.mpr
          ⟨(), ensure_ok.mpr hself, rfl⟩⟩⟩⟩
    exact .inr (.deleteUser hserved)
  · -- The account is gone already, and no other has its id.
    have hgone : ∀ v ∈ t.users, v.id ≠ u.id := by
      intro v hv hid
      exact hmem (hs.keys.eq_of_id (hst v hv hid) hu hid ▸ hv)
    have hsame : t.users.filter (fun v => v.id ≠ u.id) = t.users :=
      List.filter_eq_self.mpr fun v hv => decide_eq_true (hgone v hv)
    exact .inl (by rw [hsame])

theorem deleteAssignment_serves {caseId assignmentId : String} {a : CaseAssignment} {t : Db}
    (hs : Tables s) (ht : Tables t) (hst : Rely (.deleteAssignment caller caseId assignmentId) s t)
    (hadmin : caller.xUserRole = some "admin") (hnul : '\x00' ∉ caseId.toList)
    (hfound : Db.select (s.assignments.filter fun b => b.caseId = caseId) CaseAssignment.id
      assignmentId = .ok (some a)) :
    { t with assignments := t.assignments.filter fun b => b.id ≠ a.id } = t ∨
      Serves bcrypt t (.deleteAssignment caller caseId assignmentId)
        { t with assignments := t.assignments.filter fun b => b.id ≠ a.id } := by
  obtain ⟨ha, rfl⟩ := select_ok hfound
  obtain ⟨ha, hcase⟩ := List.mem_filter.mp ha
  by_cases hmem : a ∈ t.assignments
  · have hselect : Db.select (t.assignments.filter fun b => b.caseId = caseId) CaseAssignment.id
        a.id = .ok (some a) :=
      select_some (notMem_nul_of_select hfound) (List.mem_filter.mpr ⟨hmem, hcase⟩) rfl
        fun b hb hid =>
          List.inj_on_of_nodup_map ht.assignmentIds (List.mem_filter.mp hb).1 hmem hid
    have hserved : deleteAssignment t caller caseId a.id =
        .ok { t with assignments := t.assignments.filter fun b => b.id ≠ a.id } :=
      Evidence.bind_ok.mpr ⟨(), requireAdmin_ok.mpr hadmin, Evidence.bind_ok.mpr
        ⟨(), ensure_ok.mpr hnul, Evidence.bind_ok.mpr ⟨_, hselect, rfl⟩⟩⟩
    exact .inr (.deleteAssignment hserved)
  · have hgone : ∀ b ∈ t.assignments, b.id ≠ a.id := by
      intro b hb hid
      have hsame := List.inj_on_of_nodup_map hs.assignmentIds (hst b hb hid) ha hid
      exact hmem (hsame ▸ hb)
    have hsame : t.assignments.filter (fun b => b.id ≠ a.id) = t.assignments :=
      List.filter_eq_self.mpr fun b hb => decide_eq_true (hgone b hb)
    exact .inl (by rw [hsame])

/-- The case and the account are still there when the assignment is added. -/
theorem NewAssignment.serves {caseId : String} {body : CreateAssignmentIn} {a row : CaseAssignment}
    (h : NewAssignment Tables (Rely (.createAssignment caller caseId body)) fresh caller caseId body
      db a) (hdb : Tables db) (hi : db.insertAssignment a = .ok (db', row)) :
    Serves bcrypt db (.createAssignment caller caseId body) db' := by
  obtain rfl := h.row
  obtain ⟨s, t, hs, ht, hst, htdb, ⟨c, hcase, hopen⟩, u, huser, hmatch⟩ := h.found
  obtain ⟨hc, hid⟩ := select_ok hcase
  obtain ⟨hu, hname⟩ := select_ok huser
  have hc' : c ∈ db.cases := htdb.1 c (hst.1 c hc hid) hid
  have hu' : u ∈ db.users := htdb.2 u hu hname
  have hselect : Db.select db.cases Case.id caseId = .ok (some c) :=
    select_some (notMem_nul_of_select hcase) hc' hid fun d hd hdid =>
      List.inj_on_of_nodup_map hdb.cases.ids hd hc' (hdid.trans hid.symm)
  have haccount : db.getUserByUsername body.username = .ok (some u) :=
    select_some (notMem_nul_of_select huser) hu' hname fun v hv hvname =>
      hdb.keys.eq_of_username hv hu' (hvname.trans hname.symm)
  have hserved : createAssignment fresh db caller caseId body = .ok (db', row) := by
    refine Evidence.bind_ok.mpr ⟨(), requireAdmin_ok.mpr h.admin, ?_⟩
    refine Evidence.bind_ok.mpr ⟨(), ensure_ok.mpr h.role, Evidence.bind_ok.mpr ⟨_, hselect, ?_⟩⟩
    refine Evidence.bind_ok.mpr ⟨c, rfl, Evidence.bind_ok.mpr ⟨(), ensure_ok.mpr hopen, ?_⟩⟩
    refine Evidence.bind_ok.mpr ⟨_, haccount, Evidence.bind_ok.mpr ⟨u, rfl, ?_⟩⟩
    exact Evidence.bind_ok.mpr ⟨(), ensure_ok.mpr hmatch, commit_ok.mpr hi⟩
  exact .createAssignment fresh hserved

/-- The programs of a request, one for all that its handler may draw. -/
def code (bcrypt : Bcrypt) (r : Request) (p : Prog Db (Except HttpError Answer)) : Prop :=
  ∃ fresh, p = (handle bcrypt fresh r).run

def interleaved (bcrypt : Bcrypt) :
    TransitionSystem (Pool.State Db Request (Except HttpError Answer)) Pool.Action :=
  Pool.system (Initial bcrypt) (code bcrypt) (Restarts bcrypt)

variable {p : Pool.State Db Request (Except HttpError Answer)}

/-- No statement changes the rows that another pending request names, from its start on. -/
def Undisturbed (s : Pool.State Db Request (Except HttpError Answer)) (a : Pool.Action)
    (t : Pool.State Db Request (Except HttpError Answer)) : Prop :=
  ∀ i, a = .stmt i → ∀ j r p, j ≠ i → s.running j = some (r, p) → Rely r s.shared t.shared

/-- Requests may come one by one. -/
theorem serial_interleaved (h : (system bcrypt).Reachable db) :
    ((interleaved bcrypt).restrict Undisturbed).Reachable ⟨db, fun _ => none⟩ := by
  induction h with
  | init hi => exact .init ⟨hi, fun _ => rfl⟩
  | @step s t a hs _ hst ih =>
    cases hst with
    | failed | restartFailed => exact ih
    | restart fresh hseed => exact ih.step ⟨.reset (.inr ⟨fresh, hseed⟩), by rintro _ ⟨⟩⟩
    | @served r _ hserved =>
      obtain ⟨fresh, answer, honce⟩ := Statements.serves_iff.mp hserved
      have halone : alone (handle bcrypt fresh r) s = (.ok answer, t) := by
        rw [Statements.alone_handle (caseKeys_reachable hs), honce]
        rfl
      have hend : ((interleaved bcrypt).restrict Undisturbed).Reachable
          ⟨(alone (handle bcrypt fresh r) s).2, fun _ => none⟩ := by
        refine Pool.served_reachable (i := 0) (r := r) (by rintro _ _ _ ⟨⟩) (by rintro _ _ _ ⟨⟩) ?_
          ⟨fresh, rfl⟩ ih
        rintro s t hidle _ ⟨⟩ j r p hj hrunning
        simp [hidle j hj] at hrunning
      rwa [halone] at hend

theorem keeps_answer {α : Type} {x : Handler α} {answer : α → Answer}
    (h : Keeps Inv rely guarantee x (fun _ _ => True) s) :
    Meets Inv rely guarantee (fun _ _ => True) (x >>= fun a => pure (answer a)).run s :=
  Meets.mono (keeps_bind (Q := fun _ _ => True) (h.mono fun _ _ _ _ _ => keeps_pure trivial))
    fun _ _ _ => trivial

/-- Three requests act on what they have found before; the others are served where they write. -/
theorem meets_handle {r : Request} (htables : ∀ t, Inv t → Tables t)
    (hread : ∀ t, Inv t → guarantee t t)
    (hserves : ∀ t t', Inv t → Serves bcrypt t r t' → guarantee t t')
    (hdeleteUser : ∀ caller userId, r = .deleteUser caller userId → ∀ s t u, Inv s → Inv t →
      rely s t → caller.xUserRole = some "admin" →
      Db.select s.users User.id userId = .ok (some u) → some u.username ≠ caller.xUsername →
      guarantee t { t with users := t.users.filter fun v => v.id ≠ u.id })
    (hcreateAssignment : ∀ caller caseId body, r = .createAssignment caller caseId body →
      ∀ t t' a row, Inv t → NewAssignment Inv rely fresh caller caseId body t a →
      t.insertAssignment a = .ok (t', row) → guarantee t t')
    (hdeleteAssignment : ∀ caller caseId assignmentId,
      r = .deleteAssignment caller caseId assignmentId → ∀ s t a, Inv s → Inv t → rely s t →
      caller.xUserRole = some "admin" → '\x00' ∉ caseId.toList →
      Db.select (s.assignments.filter fun b => b.caseId = caseId) CaseAssignment.id assignmentId =
        .ok (some a) →
      guarantee t { t with assignments := t.assignments.filter fun b => b.id ≠ a.id }) :
    (handle bcrypt fresh r).run.Meets Inv rely guarantee (fun _ _ => True) s := by
  cases r with
  | createUser caller body =>
    exact keeps_answer (keeps_createUser hread fun t t' u row ht hu hi =>
      hserves t t' ht (hu.serves hi))
  | deleteUser caller userId =>
    exact keeps_answer (keeps_deleteUser hread (hdeleteUser caller userId rfl))
  | createCase caller body =>
    exact keeps_answer (keeps_createCase hread fun t t' c row ht hc hi =>
      hserves t t' ht (hc.serves hi))
  | updateCaseStatus caller caseId body =>
    refine keeps_answer (keeps_updateCaseStatus hread ?_)
    intro s t t' found status ht hadmin hfound hstatus hw
    rcases setStatus_serves (htables t ht).cases hadmin hfound hstatus hw with rfl | hserved
    · exact hread _ ht
    · exact hserves t t' ht hserved
  | createAssignment caller caseId body =>
    exact keeps_answer (keeps_createAssignment hread (hcreateAssignment caller caseId body rfl))
  | deleteAssignment caller caseId assignmentId =>
    exact keeps_answer (keeps_deleteAssignment hread
      (hdeleteAssignment caller caseId assignmentId rfl))
  | login body => exact keeps_answer (keeps_login hread)

/-- The tables are kept whatever the others do: the database checks each write by itself. -/
theorem sound_tables : Pool.Sound (Initial bcrypt) (code bcrypt) (Restarts bcrypt)
    (fun _ _ _ => True) Tables (fun _ _ _ => True) (fun _ _ => Tables) where
  starts _ := tables_initial
  resets _ _ hr ht := ht.restarts hr
  keeps _ _ _ _ ht := ht
  refl _ _ := trivial
  trans _ _ _ _ _ _ := trivial
  programs := by
    rintro r _ s ⟨fresh, rfl⟩ _
    exact meets_handle (fun _ ht => ht) (fun _ ht => ht) (fun _ _ ht hs => ht.serves hs)
      (fun _ _ _ _ _ _ _ ht _ _ _ _ => ht.filterUsers _)
      (fun _ _ _ _ _ _ _ _ ht ha hi => ht.insertAssignment (by rw [ha.row]) hi)
      (fun _ _ _ _ _ _ _ _ ht _ _ _ _ => ht.filterAssignments _)
  others _ _ _ _ _ _ _ _ _ _ := trivial

/-- However the statements of any requests interleave, the tables are whole. -/
theorem tables_whole (h : (interleaved bcrypt).Reachable p) : Tables p.shared :=
  (Pool.kept_reachable sound_tables (h.restrict fun _ _ _ _ => trivial)).1

/-- The sample case is there, and nothing is pending. -/
theorem sample_idle : ((interleaved plainBcrypt).restrict Undisturbed).Reachable
    ⟨{ seededDb with cases := [sampleCase] }, fun _ => none⟩ := by
  have hcase : createCase (sampleFresh 1) seededDb administrator
      ⟨"CASE-2025-001", "Laptop", none⟩ =
        .ok ({ seededDb with cases := [sampleCase] }, sampleCase) := by rfl
  exact serial_interleaved (.step (.init seeded_initial)
    (.served (.createCase (sampleFresh 1) hcase)))

def sampleAssign : Request :=
  .createAssignment administrator sampleCase.id ⟨"investigator01", "investigator"⟩

/-- The case and the account are found, the account goes, and then it is assigned. -/
theorem sample_race : Tables { seededDb with
    users := seededDb.users.tail, cases := [sampleCase], assignments := [sampleAssignment] } := by
  let delete : Request := .deleteUser administrator (Uuid.ofNat 14).str
  have hassign := sample_idle.of_restrict.step
    (.start (i := 0) (r := sampleAssign) rfl ⟨sampleFresh 2, rfl⟩)
  have hdelete := hassign.step (.start (i := 1) (r := delete) rfl ⟨sampleFresh 3, rfl⟩)
  have hfound := (hdelete.step (.stmt (i := 0) rfl)).step (.stmt (i := 0) rfl)
  have hgone := (hfound.step (.stmt (i := 1) rfl)).step (.stmt (i := 1) rfl)
  exact tables_whole (hgone.step (.stmt (i := 0) rfl))

theorem sound_serves : Pool.Sound (Initial bcrypt) (code bcrypt) (Restarts bcrypt) Undisturbed
    Tables Rely (fun r s t => t = s ∨ Serves bcrypt s r t) where
  starts _ := tables_initial
  resets _ _ hr ht := ht.restarts hr
  keeps r s t hs hst := by
    rcases hst with rfl | hserved
    · exact hs
    · exact hs.serves hserved
  refl _ := Rely.refl
  trans _ _ _ _ := Rely.trans
  programs := by
    rintro r _ s ⟨fresh, rfl⟩ _
    refine meets_handle (fun _ ht => ht) (fun _ _ => .inl rfl) (fun _ _ _ hs => .inr hs) ?_ ?_ ?_
    · rintro caller userId rfl s t u hs ht hst hadmin hfound hself
      exact deleteUser_serves hs ht hst hadmin hfound hself
    · rintro caller caseId body rfl t t' a row ht ha hi
      exact .inr (ha.serves ht hi)
    · rintro caller caseId assignmentId rfl s t a hs ht hst hadmin hnul hfound
      exact deleteAssignment_serves hs ht hst hadmin hnul hfound
  others s i t hP _ j r p hj hrunning := hP i rfl j r p hj hrunning

theorem undisturbed_refines (h : ((interleaved bcrypt).restrict Undisturbed).Reachable p) :
    (system bcrypt).Reachable p.shared := by
  refine Pool.refines sound_serves (fun _ hi => hi) ?_ ?_ h
  · rintro r s t _ (rfl | hserved)
    · exact .inl rfl
    · exact .inr ⟨.served r, .served hserved⟩
  · rintro s t (rfl | ⟨fresh, hseed⟩)
    · exact ⟨.restartFailed, .restartFailed⟩
    · exact ⟨.restart, .restart fresh hseed⟩

/-- Undisturbed requests lead where requests lead that are served one by one: each statement of
one leaves the tables, or serves its request as a whole there and then. -/
theorem undisturbed_serial :
    (∀ db, (system bcrypt).Reachable db ↔
      ∃ p, ((interleaved bcrypt).restrict Undisturbed).Reachable p ∧ p.shared = db) ∧
    ∀ p q i r rest, ((interleaved bcrypt).restrict Undisturbed).Reachable p →
      p.running i = some (r, rest) → (interleaved bcrypt).step p (.stmt i) q →
      q.shared = p.shared ∨ Serves bcrypt p.shared r q.shared := by
  refine ⟨fun db => ⟨fun h => ⟨_, serial_interleaved h, rfl⟩, ?_⟩, ?_⟩
  · rintro ⟨p, hp, rfl⟩
    exact undisturbed_refines hp
  · intro p q i r rest hp hi hst
    cases hst with
    | stmt hi' =>
      obtain ⟨rfl, rfl⟩ := Prod.mk.inj (Option.some.inj (hi.symm.trans hi'))
      exact ((Pool.kept_reachable sound_serves hp).statement sound_serves hi').1

variable {q : Pool.State Db Request (Except HttpError Answer)} {a : Pool.Action}

/-- A step that changes nobody's rows disturbs nobody. -/
theorem undisturbed_step (h : ((interleaved bcrypt).restrict Undisturbed).Reachable p)
    (hs : (interleaved bcrypt).step p a q) (hrely : ∀ r, Rely r p.shared q.shared) :
    ((interleaved bcrypt).restrict Undisturbed).Reachable q :=
  h.step ⟨hs, fun _ _ _ r _ _ _ => hrely r⟩

/-- No request is disturbed by a new case. -/
theorem rely_addCase {r : Request} {c : Case} : Rely r db { db with cases := db.cases ++ [c] } := by
  cases r with
  | deleteUser | deleteAssignment => exact fun _ hmem _ => hmem
  | createAssignment => exact ⟨fun _ hmem _ => List.mem_append_left _ hmem, fun _ hmem _ => hmem⟩
  | _ => trivial

/-- Another case is added after the case and the account are found, and then the account is
assigned as if the request had come only now. -/
theorem sample_undisturbed : ∃ p q rest,
    ((interleaved plainBcrypt).restrict Undisturbed).Reachable p ∧ p.shared.cases.length = 2 ∧
    p.running 0 = some (sampleAssign, rest) ∧ (p.running 1).isSome ∧
    (interleaved plainBcrypt).step p (.stmt 0) q ∧
    q.shared.assignments = [sampleAssignment] ∧
    Serves plainBcrypt p.shared sampleAssign q.shared := by
  let add : Request := .createCase administrator ⟨"CASE-2025-002", "Phone", none⟩
  have hassign := undisturbed_step sample_idle
    (.start (i := 0) (r := sampleAssign) rfl ⟨sampleFresh 2, rfl⟩) fun _ => .refl _
  have hadd := undisturbed_step hassign (.start (i := 1) (r := add) rfl ⟨sampleFresh 3, rfl⟩)
    fun _ => .refl _
  have hcase := undisturbed_step hadd (.stmt (i := 0) rfl) fun _ => .refl _
  have huser := undisturbed_step hcase (.stmt (i := 0) rfl) fun _ => .refl _
  have hnumber := undisturbed_step huser (.stmt (i := 1) rfl) fun _ => .refl _
  have hadded := undisturbed_step hnumber (.stmt (i := 1) rfl) fun _ => rely_addCase
  refine ⟨_, _, _, hadded, rfl, rfl, rfl, .stmt (i := 0) rfl, rfl, ?_⟩
  refine (undisturbed_serial.2 _ _ _ _ _ hadded rfl (.stmt (i := 0) rfl)).resolve_left ?_
  intro hsame
  have hnone := congrArg (fun db : Db => db.assignments.length) hsame
  exact absurd hnone (by decide)

end ForensicChain.Auth
