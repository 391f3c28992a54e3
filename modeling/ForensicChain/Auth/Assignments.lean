import ForensicChain.Auth.System

/-!
Assignments name their account by its username alone. They match a live account of the same role
as long as an account is only deleted without assignments, and no assigned name is cut.
-/
namespace ForensicChain.Auth

/-- Every assignment is of an account whose role is the assigned one. -/
def AssignmentsMatch (db : Db) : Prop :=
  ∀ a ∈ db.assignments, ∃ u ∈ db.users, u.username = a.username ∧ u.role = a.roleInCase

/-- A served deletion is of an account without assignments, and an assigned name fits its column. -/
def KeepsAssignments (db : Db) : Action → Prop
  | .served (.deleteUser _ userId) =>
    ∀ u ∈ db.users, u.id = userId → ∀ a ∈ db.assignments, a.username ≠ u.username
  | .served (.createAssignment _ _ body) => Postgres.Verbatim 64 body.username
  | _ => True

/-- An assignment of a case to a user is served. -/
def Assigns (db : Db) (caseNumber username : String) : Action → Prop
  | .served (.createAssignment _ caseId body) =>
    body.username = username ∧ ∃ c ∈ db.cases, c.id = caseId ∧ c.caseNumber = caseNumber
  | _ => False

/-- No assignment of the case to the user is stored. -/
def Unassigned (db : Db) (caseNumber username : String) : Prop :=
  ∀ a ∈ db.assignments, a.username = username →
    ∀ c ∈ db.cases, c.id = a.caseId → c.caseNumber ≠ caseNumber

variable {bcrypt : Bcrypt} {db db' : Db} {a : Action} {r : Request} {caseNumber username : String}

theorem match_addUser (hm : AssignmentsMatch db) (u : User) :
    AssignmentsMatch { db with users := db.users ++ [u] } := by
  intro a ha
  obtain ⟨v, hv, heq⟩ := hm a ha
  exact ⟨v, List.mem_append_left _ hv, heq⟩

theorem seedUser_match {fresh : String → Fresh} {seed : String × String × String}
    (h : seedUser bcrypt fresh db seed = some db') (hm : AssignmentsMatch db) :
    AssignmentsMatch db' := by
  rcases seedUser_some h with ⟨rfl, _⟩ | ⟨u, _, _, _, rfl⟩
  · exact hm
  · exact match_addUser hm u

/-- An account without assignments may go: ids tell it from the accounts that are assigned. -/
theorem match_removeUser (hk : Keys db) (hm : AssignmentsMatch db) {u : User} (hu : u ∈ db.users)
    (hfree : ∀ a ∈ db.assignments, a.username ≠ u.username) :
    AssignmentsMatch { db with users := db.users.filter fun v => v.id ≠ u.id } := by
  intro a ha
  obtain ⟨v, hv, hname, hrole⟩ := hm a ha
  have hid : v.id ≠ u.id := by
    intro hid
    rw [hk.eq_of_id hv hu hid] at hname
    exact hfree a ha hname.symm
  exact ⟨v, List.mem_filter.mpr ⟨hv, decide_eq_true hid⟩, hname, hrole⟩

theorem serves_match (h : Serves bcrypt db r db') (hk : Keys db) (hm : AssignmentsMatch db)
    (hok : KeepsAssignments db (.served r)) : AssignmentsMatch db' := by
  cases h with
  | createUser fresh h =>
    obtain ⟨u, _, _, _, _, rfl⟩ := createUser_ok h
    exact match_addUser hm u
  | deleteUser h =>
    obtain ⟨_, u, hu, hid, _, rfl⟩ := deleteUser_ok h
    exact match_removeUser hk hm hu (hok u hu hid)
  | createCase fresh h =>
    obtain ⟨_, _, _, rfl⟩ := createCase_ok h
    exact hm
  | updateCaseStatus h =>
    obtain ⟨f, _, rfl⟩ := updateCaseStatus_ok h
    exact hm
  | createAssignment fresh h =>
    obtain ⟨_, ⟨u, hu, hname, hrole⟩, _, hcolumn, rfl⟩ := createAssignment_ok h
    intro a ha
    rcases List.mem_append.mp ha with ha | ha
    · exact hm a ha
    · rw [List.mem_singleton.mp ha]
      exact ⟨u, hu, hname.trans (hok _ hcolumn).symm, hrole⟩
  | deleteAssignment h =>
    obtain ⟨p, rfl⟩ := deleteAssignment_ok h
    intro a ha
    exact hm a (List.mem_filter.mp ha).1
  | login h => exact hm

theorem match_step (hk : Keys db) (hm : AssignmentsMatch db) (hok : KeepsAssignments db a)
    (h : Step bcrypt db a db') : AssignmentsMatch db' := by
  cases h with
  | served h => exact serves_match h hk hm hok
  | failed => exact hm
  | restart fresh h =>
    exact seeds_invariant h hm fun _ _ _ _ hseed hm => seedUser_match hseed hm
  | restartFailed => exact hm

theorem match_initial (h : Initial bcrypt db) : AssignmentsMatch db := by
  obtain ⟨fresh, h⟩ := h
  have hempty : AssignmentsMatch ⟨[], [], []⟩ := by simp [AssignmentsMatch]
  exact seeds_invariant h hempty fun _ _ _ _ hseed hm => seedUser_match hseed hm

theorem match_reachable (h : (system bcrypt).ReachableWhen KeepsAssignments db) :
    Keys db ∧ AssignmentsMatch db := by
  induction h with
  | init hi => exact ⟨keys_initial hi, match_initial hi⟩
  | step _ ha hs ih => exact ⟨keys_step ih.1 hs, match_step ih.1 ih.2 ha hs⟩

theorem unassigned_step (hk : Keys db) (hn : Unassigned db caseNumber username)
    (hok : KeepsAssignments db a) (ha : ¬ Assigns db caseNumber username a)
    (h : Step bcrypt db a db') : Unassigned db' caseNumber username := by
  cases h with
  | served h =>
    cases h with
    | createUser fresh h =>
      obtain ⟨u, _, _, _, _, rfl⟩ := createUser_ok h
      exact hn
    | deleteUser h =>
      obtain ⟨_, u, _, _, _, rfl⟩ := deleteUser_ok h
      exact hn
    | createCase fresh h =>
      obtain ⟨_, _, hids, rfl⟩ := createCase_ok h
      intro b hb hname c hc hid
      rcases List.mem_append.mp hc with hc | hc
      · exact hn b hb hname c hc hid
      · -- The new case is none that an assignment refers to.
        obtain ⟨d, hd, hdid⟩ := hk.references b hb
        rw [List.mem_singleton.mp hc] at hid
        exact ((hids d hd).1 (hdid.trans hid.symm)).elim
    | updateCaseStatus h =>
      obtain ⟨f, hf, rfl⟩ := updateCaseStatus_ok h
      intro b hb hname c hc hid
      obtain ⟨d, hd, rfl⟩ := List.mem_map.mp hc
      rw [(hf d).2]
      exact hn b hb hname d hd ((hf d).1.symm.trans hid)
    | createAssignment fresh h =>
      obtain ⟨_, _, hcase, hcolumn, rfl⟩ := createAssignment_ok h
      intro b hb hname c hc hid
      rcases List.mem_append.mp hb with hb | hb
      · exact hn b hb hname c hc hid
      · rw [List.mem_singleton.mp hb] at hname hid
        intro hnumber
        exact ha ⟨(hok _ hcolumn).symm.trans hname, c, hc, hid.trans hcase, hnumber⟩
    | deleteAssignment h =>
      obtain ⟨p, rfl⟩ := deleteAssignment_ok h
      intro b hb
      exact hn b (List.mem_filter.mp hb).1
    | login h => exact hn
  | failed => exact hn
  | restart fresh h =>
    refine seeds_invariant (P := fun s => Unassigned s caseNumber username) h hn ?_
    intro seed _ s t hseed hs
    rcases seedUser_some hseed with ⟨rfl, _⟩ | ⟨u, _, _, _, rfl⟩
    · exact hs
    · exact hs
  | restartFailed => exact hn

theorem unassigned_path (hk : Keys db) (hn : Unassigned db caseNumber username)
    (h : (system bcrypt).Path (fun s a => KeepsAssignments s a ∧ ¬ Assigns s caseNumber username a)
      db db') : Keys db' ∧ Unassigned db' caseNumber username := by
  induction h with
  | refl => exact ⟨hk, hn⟩
  | step _ ha hs ih => exact ⟨keys_step ih.1 hs, unassigned_step ih.1 ih.2 ha.1 ha.2 hs⟩

/-- Where nobody has a name, nothing is assigned to it. -/
theorem unassigned_of_no_account (hm : AssignmentsMatch db)
    (hno : ∀ u ∈ db.users, u.username ≠ username) : Unassigned db caseNumber username := by
  intro a ha hname
  obtain ⟨u, hu, heq, _⟩ := hm a ha
  exact (hno u hu (heq.trans hname)).elim

theorem not_listed (hn : Unassigned db caseNumber username) {numbers : List String}
    (h : db.getUserAssignments username = .ok numbers) : caseNumber ∉ numbers := by
  intro hmem
  obtain ⟨a, ha, hname, _, c, hc, hid, _, hnumber⟩ := (mem_getUserAssignments h).mp hmem
  exact hn a ha hname c hc hid hnumber

/-- Every assignment is of a live account with its role, and an account is listed no case that was
not assigned to it since a moment when nobody had its name. -/
theorem assignments_match (h : (system bcrypt).ReachableWhen KeepsAssignments db) :
    AssignmentsMatch db ∧
      ∀ username caseNumber db', (∀ u ∈ db.users, u.username ≠ username) →
        (system bcrypt).Path
          (fun s a => KeepsAssignments s a ∧ ¬ Assigns s caseNumber username a) db db' →
        ∀ numbers, db'.getUserAssignments username = .ok numbers → caseNumber ∉ numbers := by
  obtain ⟨hk, hm⟩ := match_reachable h
  refine ⟨hm, ?_⟩
  intro username caseNumber db' hno hpath numbers hnumbers
  obtain ⟨_, hn⟩ := unassigned_path hk (unassigned_of_no_account hm hno) hpath
  exact not_listed hn hnumbers

def sampleCase : Case :=
  ⟨(Uuid.ofNat 1).str, "CASE-2025-001", "Laptop", none, "OPEN", 0, "admin01"⟩

def sampleAssignment : CaseAssignment :=
  ⟨(Uuid.ofNat 2).str, sampleCase.id, "investigator01", "investigator", 0, "admin01", true⟩

def assignedDb : Db :=
  { seededDb with cases := [sampleCase], assignments := [sampleAssignment] }

theorem assigned_run {ok : Db → Action → Prop} (h : (system plainBcrypt).ReachableWhen ok seededDb)
    (hok : ∀ db caller, ok db (.served (.createCase caller ⟨"CASE-2025-001", "Laptop", none⟩)) ∧
      ok db (.served (.createAssignment caller sampleCase.id ⟨"investigator01", "investigator"⟩))) :
    (system plainBcrypt).ReachableWhen ok assignedDb := by
  have hcase : createCase (sampleFresh 1) seededDb administrator
      ⟨"CASE-2025-001", "Laptop", none⟩ =
        .ok ({ seededDb with cases := [sampleCase] }, sampleCase) := by rfl
  have hassign : createAssignment (sampleFresh 2) { seededDb with cases := [sampleCase] }
      administrator sampleCase.id ⟨"investigator01", "investigator"⟩ =
        .ok (assignedDb, sampleAssignment) := by rfl
  have hmid := h.step (hok _ administrator).1 (.served (.createCase (sampleFresh 1) hcase))
  exact hmid.step (hok _ administrator).2 (.served (.createAssignment (sampleFresh 2) hassign))

theorem newcomer_listed_nothing :
    AssignmentsMatch assignedDb ∧ ∃ db' : Db, (∃ u ∈ db'.users, u.username = "reviewer02") ∧
      ∀ numbers, db'.getUserAssignments "reviewer02" = .ok numbers →
        "CASE-2025-001" ∉ numbers := by
  have hfits : Postgres.Verbatim 64 "investigator01" := by decide
  have hreach : (system plainBcrypt).ReachableWhen KeepsAssignments assignedDb :=
    assigned_run (.init seeded_initial) fun _ _ => ⟨trivial, hfits⟩
  have hcreate : createUser plainBcrypt (sampleFresh 3) assignedDb administrator
      ⟨"reviewer02", "reviewer02", "legal_reviewer"⟩ = .ok ({ assignedDb with
        users := seededDb.users ++ [seededUser 3 "reviewer02" "legal_reviewer"] },
        (seededUser 3 "reviewer02" "legal_reviewer").out) := by rfl
  obtain ⟨hmatch, hlisted⟩ := assignments_match hreach
  have hstep := Step.served (.createUser (sampleFresh 3) hcreate)
  have hnew := hlisted "reviewer02" "CASE-2025-001" _ (by decide)
    (.step .refl (by exact ⟨trivial, id⟩) hstep)
  have hmem : seededUser 3 "reviewer02" "legal_reviewer" ∈
      seededDb.users ++ [seededUser 3 "reviewer02" "legal_reviewer"] :=
    List.mem_append_right _ (List.mem_singleton_self _)
  exact ⟨hmatch, _, ⟨_, hmem, rfl⟩, hnew⟩

/-- The account goes and its assignment stays; whoever gets the name next gets the case. -/
theorem reused_name_inherits_case :
    ∃ db db' : Db, (system plainBcrypt).Reachable db ∧ ¬ AssignmentsMatch db ∧
      (∀ u ∈ db.users, u.username ≠ "investigator01") ∧
      (system plainBcrypt).Path
        (fun s a => ¬ Assigns s "CASE-2025-001" "investigator01" a) db db' ∧
      db'.getUserAssignments "investigator01" = .ok ["CASE-2025-001"] := by
  have hreach : (system plainBcrypt).Reachable assignedDb :=
    assigned_run (.init seeded_initial) fun _ _ => ⟨trivial, trivial⟩
  have hdelete : deleteUser assignedDb administrator (Uuid.ofNat 14).str =
      .ok { assignedDb with users := seededDb.users.tail } := by rfl
  have hcreate : createUser plainBcrypt (sampleFresh 14)
      { assignedDb with users := seededDb.users.tail } administrator
      ⟨"investigator01", "", "legal_reviewer"⟩ = .ok ({ assignedDb with
        users := seededDb.users.tail ++ [
          ⟨(Uuid.ofNat 14).str, "investigator01", plainHash "" sampleSalt, "legal_reviewer", true,
            0⟩] },
        ⟨(Uuid.ofNat 14).str, "investigator01", "legal_reviewer", true, 0⟩) := by rfl
  refine ⟨_, _, hreach.step (.served (.deleteUser hdelete)), ?_, by decide,
    .step .refl id (.served (.createUser (sampleFresh 14) hcreate)), by rfl⟩
  intro hmatch
  obtain ⟨u, hu, hname, _⟩ := hmatch sampleAssignment List.mem_cons_self
  exact absurd hname (by revert u; decide)

end ForensicChain.Auth
