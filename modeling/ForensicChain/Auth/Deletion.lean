import ForensicChain.Auth.System

/-!
A deleted account can log in again only once an account of its name is created. The start of the
service creates the seed accounts that it does not find.
-/
namespace ForensicChain.Auth

/-- The service does not start with the name among its seed accounts. -/
def NotReseeded (username : String) : Action → Prop
  | .restart => username ∉ seedUsers.map Prod.fst
  | _ => True

/-- An account of the name is created by `create_user`. -/
def Creates (username : String) : Action → Prop
  | .served (.createUser _ body) => body.username = username
  | _ => False

def Absent (db : Db) (username : String) : Prop := ∀ u ∈ db.users, u.username ≠ username

variable {bcrypt : Bcrypt} {db db' : Db} {a : Action} {username : String}

theorem absent_addUser (ha : Absent db username) {u : User} (hu : u.username ≠ username) :
    Absent { db with users := db.users ++ [u] } username := by
  intro v hv
  rcases List.mem_append.mp hv with hv | hv
  · exact ha v hv
  · rwa [List.mem_singleton.mp hv]

/-- The name of an account is gone with it. -/
theorem absent_deleteUser (hk : Keys db) {u : User} (hu : u ∈ db.users) :
    Absent { db with users := db.users.filter fun v => v.id ≠ u.id } u.username := by
  intro v hv hname
  obtain ⟨hv, hid⟩ := List.mem_filter.mp hv
  exact of_decide_eq_true hid (congrArg User.id (hk.eq_of_username hv hu hname))

theorem absent_step (ha : Absent db username) (hseed : NotReseeded username a)
    (hcreate : ¬ Creates username a) (h : Step bcrypt db a db') : Absent db' username := by
  cases h with
  | served h =>
    cases h with
    | createUser fresh h =>
      obtain ⟨u, hname, _, _, _, rfl⟩ := createUser_ok h
      refine absent_addUser ha ?_
      rw [hname]
      exact hcreate
    | deleteUser h =>
      obtain ⟨_, u, _, _, _, rfl⟩ := deleteUser_ok h
      intro v hv
      exact ha v (List.mem_filter.mp hv).1
    | createCase fresh h =>
      obtain ⟨_, _, _, rfl⟩ := createCase_ok h
      exact ha
    | updateCaseStatus h =>
      obtain ⟨f, _, rfl⟩ := updateCaseStatus_ok h
      exact ha
    | createAssignment fresh h =>
      obtain ⟨_, _, _, _, rfl⟩ := createAssignment_ok h
      exact ha
    | deleteAssignment h =>
      obtain ⟨p, rfl⟩ := deleteAssignment_ok h
      exact ha
    | login h => exact ha
  | failed => exact ha
  | restart fresh h =>
    refine seeds_invariant (P := fun s => Absent s username) h ha ?_
    intro seed hmem s t hs hb
    rcases seedUser_some hs with ⟨rfl, _⟩ | ⟨u, hname, _, _, rfl⟩
    · exact hb
    · refine absent_addUser hb ?_
      rintro rfl
      exact hseed (hname ▸ List.mem_map_of_mem hmem)
  | restartFailed => exact ha

theorem absent_path (ha : Absent db username)
    (h : (system bcrypt).Path (fun _ a => NotReseeded username a ∧ ¬ Creates username a) db db') :
    Absent db' username := by
  induction h with
  | refl => exact ha
  | step _ ha hs ih => exact absent_step ih ha.1 ha.2 hs

/-- No login succeeds under the name of a deleted account, in every run that neither creates the
name again nor starts the service when the name is that of a seed account. -/
theorem deleted_cannot_login {deleted : Db} {u : User} {caller : Caller}
    (h : (system bcrypt).Reachable db) (hu : u ∈ db.users)
    (hd : Serves bcrypt db (.deleteUser caller u.id) deleted)
    (hp : (system bcrypt).Path (fun _ a => NotReseeded u.username a ∧ ¬ Creates u.username a)
      deleted db') (password : String) (payload : Gateway.Payload) :
    login bcrypt db' ⟨u.username, password⟩ ≠ .ok payload := by
  have hk := keys_reachable h
  cases hd with
  | deleteUser hd =>
    obtain ⟨_, v, hv, hid, _, rfl⟩ := deleteUser_ok hd
    obtain rfl := hk.eq_of_id hv hu hid
    intro hlogin
    obtain ⟨w, hw, hname, _⟩ := login_ok hlogin
    exact absent_path (absent_deleteUser hk hv) hp w hw hname

theorem deleted_investigator_refused :
    login plainBcrypt { seededDb with users := seededDb.users.tail }
        ⟨"investigator01", "investigator01"⟩ ≠
      .ok ⟨some "investigator01", some "investigator"⟩ := by
  have hd : deleteUser seededDb administrator (Uuid.ofNat 14).str =
      .ok { seededDb with users := seededDb.users.tail } := by rfl
  exact deleted_cannot_login (.init seeded_initial) List.mem_cons_self (.deleteUser hd) .refl _ _

/-- The service is restarted after the deletion, and the seed account is back. -/
theorem deleted_seed_account_logs_in :
    Initial plainBcrypt seededDb ∧ ∃ db : Db,
      Serves plainBcrypt seededDb (.deleteUser administrator (Uuid.ofNat 14).str) db ∧
      ∃ db', (system plainBcrypt).Path (fun _ a => ¬ Creates "investigator01" a) db db' ∧
        login plainBcrypt db' ⟨"investigator01", "investigator01"⟩ =
          .ok ⟨some "investigator01", some "investigator"⟩ := by
  have hdelete : deleteUser seededDb administrator (Uuid.ofNat 14).str =
      .ok { seededDb with users := seededDb.users.tail } := by rfl
  have hseed : seedPredefinedUsers plainBcrypt (fun name => sampleFresh name.length)
      { seededDb with users := seededDb.users.tail } =
        some { seededDb with
          users := seededDb.users.tail ++ [seededUser 14 "investigator01" "investigator"] } := by
    decide +kernel
  exact ⟨seeded_initial, _, .deleteUser hdelete, _, .step .refl id (.restart _ hseed), by rfl⟩

end ForensicChain.Auth
