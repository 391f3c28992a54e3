import ForensicChain.Auth.System
import ForensicChain.Library.Header

/-!
The auth service behind the gateway: a request of the administration carries the headers that
`validate` answered for its token, and a token is one that some login issued.
-/
namespace ForensicChain.Auth

/-- The tables, and the claims of every token issued so far. -/
structure State where
  db : Db
  tokens : List Gateway.Payload

/-- The headers that the gateway sets from the answer of `validate`. -/
def forwarded (identity : Gateway.Identity) : Caller where
  xUserRole := Header.field identity.userRole
  xUsername := Header.field identity.username

/-- Tokens cannot be forged: what decodes was issued. An expired token does not decode. -/
def Unforged (tokens : List Gateway.Payload)
    (decodeAccessToken : String → Option Gateway.Payload) : Prop :=
  ∀ token payload, decodeAccessToken token = some payload → payload ∈ tokens

/-- The headers of a request, which a login does not read. -/
def Request.caller? : Request → Option Caller
  | .createUser caller _ | .deleteUser caller _ | .createCase caller _
  | .updateCaseStatus caller _ _ | .createAssignment caller _ _ | .deleteAssignment caller _ _ =>
    some caller
  | .login _ => none

inductive GatewayStep (bcrypt : Bcrypt) (s : State) : Action → State → Prop
  | login {body payload} (h : login bcrypt s.db body = .ok payload) :
      GatewayStep bcrypt s (.served (.login body)) { s with tokens := s.tokens ++ [payload] }
  | served {r db' decodeAccessToken corrId authorization xOriginalUri xOriginalMethod identity}
      (hd : Unforged s.tokens decodeAccessToken)
      (hv : Gateway.validate decodeAccessToken corrId authorization xOriginalUri xOriginalMethod =
        .ok identity)
      (hc : r.caller? = some (forwarded identity)) (h : Serves bcrypt s.db r db') :
      GatewayStep bcrypt s (.served r) { s with db := db' }
  | failed {r} : GatewayStep bcrypt s (.failed r) s
  | restart {db'} (fresh : String → Fresh) (h : seedPredefinedUsers bcrypt fresh s.db = some db') :
      GatewayStep bcrypt s .restart { s with db := db' }
  | restartFailed : GatewayStep bcrypt s .restartFailed s

/-- The first start of the service, before any login. -/
def GatewayInitial (bcrypt : Bcrypt) (s : State) : Prop := Initial bcrypt s.db ∧ s.tokens = []

def gateway (bcrypt : Bcrypt) : TransitionSystem State Action :=
  ⟨GatewayInitial bcrypt, GatewayStep bcrypt⟩

variable {bcrypt : Bcrypt} {s s' : State} {db db' : Db} {a : Action} {r : Request} {u : User}

/-- The tables behind the gateway go through states of the auth system. -/
theorem gatewayStep_db (h : GatewayStep bcrypt s a s') : Step bcrypt s.db a s'.db := by
  cases h with
  | login h => exact .served (.login h)
  | served _ _ _ h => exact .served h
  | failed => exact .failed
  | restart fresh h => exact .restart fresh h
  | restartFailed => exact .restartFailed

/-- Every role that a rule lets through arrives as it is. -/
theorem field_role {role method uri : String} (h : Gateway.isAuthorized role method uri = true) :
    Header.field role = some role := by
  have hroles : ∀ rule ∈ Gateway.rules, ∀ role ∈ rule.allowed,
      role ≠ "" ∧ (role.toList.all fun c => Header.isBlank c = false) := by decide
  obtain ⟨rule, hrule, _, hmem⟩ := Gateway.applies_of_isAuthorized h
  obtain ⟨hne, hblank⟩ := hroles rule hrule role hmem
  exact Header.field_eq_some hne (List.all_iff_forall_prop.mp hblank)

/-- The account is the only one with the role `admin`, and bears the seeded name. -/
def OnlyAdmin (u : User) (db : Db) : Prop :=
  u.username = "admin01" ∧ ∀ v, v ∈ db.users ∧ v.role = "admin" ↔ v = u

/-- Tokens with the role `admin` are of the seeded name. -/
def AdminTokens (tokens : List Gateway.Payload) : Prop :=
  ∀ payload ∈ tokens, payload.role = some "admin" → payload.sub = some "admin01"

theorem onlyAdmin_addUser (h : OnlyAdmin u db) {v : User} (hv : v.role ≠ "admin") :
    OnlyAdmin u { db with users := db.users ++ [v] } := by
  refine ⟨h.1, ?_⟩
  intro w
  rw [← h.2 w, List.mem_append, List.mem_singleton]
  constructor
  · rintro ⟨hw | rfl, hrole⟩
    · exact ⟨hw, hrole⟩
    · exact (hv hrole).elim
  · rintro ⟨hw, hrole⟩
    exact ⟨.inl hw, hrole⟩

theorem onlyAdmin_removeUser (hk : Keys db) (h : OnlyAdmin u db) {v : User} (hv : v ∈ db.users)
    (hname : v.username ≠ "admin01") :
    OnlyAdmin u { db with users := db.users.filter fun w => w.id ≠ v.id } := by
  have hvu : u.id ≠ v.id := by
    intro hid
    have huv := hk.eq_of_id ((h.2 u).mpr rfl).1 hv hid
    exact hname (huv ▸ h.1)
  refine ⟨h.1, ?_⟩
  intro w
  rw [← h.2 w, List.mem_filter]
  constructor
  · rintro ⟨⟨hw, _⟩, hrole⟩
    exact ⟨hw, hrole⟩
  · rintro ⟨hw, hrole⟩
    obtain rfl := (h.2 w).mp ⟨hw, hrole⟩
    exact ⟨⟨hw, decide_eq_true hvu⟩, hrole⟩

/-- While the administrator is there, seeding adds no other. -/
theorem seedUser_onlyAdmin {fresh : String → Fresh} {seed : String × String × String}
    (hmem : seed ∈ seedUsers) (hs : seedUser bcrypt fresh db seed = some db')
    (h : OnlyAdmin u db) : OnlyAdmin u db' := by
  have hroles : ∀ seed ∈ seedUsers, seed.2.2 = "admin" → seed.1 = "admin01" := by decide
  rcases seedUser_some hs with ⟨rfl, _⟩ | ⟨v, hname, hrole, hnew, rfl⟩
  · exact h
  · apply onlyAdmin_addUser h
    intro hadmin
    have hu : u ∈ db.users := ((h.2 u).mpr rfl).1
    exact (hnew u hu).2 (by rw [h.1, hname, hroles seed hmem (hrole ▸ hadmin)])

/-- Seeding empty tables adds the administrator last. -/
theorem initial_onlyAdmin (h : Initial bcrypt db) : ∃ u, OnlyAdmin u db := by
  obtain ⟨fresh, h⟩ := h
  have hsplit : seedUsers = seedUsers.dropLast ++ [("admin01", "admin01", "admin")] := by rfl
  have hothers : ∀ seed ∈ seedUsers.dropLast, seed.2.2 ≠ "admin" ∧ seed.1 ≠ "admin01" := by decide
  rw [seedPredefinedUsers, hsplit, List.foldlM_append, Option.bind_eq_bind,
    Option.bind_eq_some_iff] at h
  obtain ⟨seeded, hfold, hlast⟩ := h
  have hnone : ∀ v ∈ seeded.users, v.role ≠ "admin" ∧ v.username ≠ "admin01" := by
    refine seeds_invariant (P := fun s => ∀ v ∈ s.users, v.role ≠ "admin" ∧ v.username ≠ "admin01")
      hfold (by simp) ?_
    intro seed hmem s t hs hP
    rcases seedUser_some hs with ⟨rfl, _⟩ | ⟨v, hname, hrole, _, rfl⟩
    · exact hP
    · intro w hw
      rcases List.mem_append.mp hw with hw | hw
      · exact hP w hw
      · rw [List.mem_singleton.mp hw, hname, hrole]
        exact hothers seed hmem
  rw [List.foldlM_cons, Option.bind_eq_bind, Option.bind_eq_some_iff] at hlast
  obtain ⟨_, hseed, heq⟩ := hlast
  cases heq
  rcases seedUser_some hseed with ⟨_, v, hv, hname⟩ | ⟨v, hname, hrole, _, rfl⟩
  · exact ((hnone v hv).2 hname).elim
  · refine ⟨v, hname, ?_⟩
    intro w
    rw [List.mem_append, List.mem_singleton]
    constructor
    · rintro ⟨hw | hw, hadmin⟩
      · exact ((hnone w hw).1 hadmin).elim
      · exact hw
    · rintro rfl
      exact ⟨.inr rfl, hrole⟩

/-- The headers of an administrator are those of the seeded account. -/
theorem forwarded_admin {decodeAccessToken : String → Option Gateway.Payload} {corrId : Uuid}
    {authorization xOriginalUri xOriginalMethod : Option String} {identity : Gateway.Identity}
    {tokens : List Gateway.Payload} (ht : AdminTokens tokens)
    (hd : Unforged tokens decodeAccessToken)
    (hv : Gateway.validate decodeAccessToken corrId authorization xOriginalUri xOriginalMethod =
      .ok identity) (hrole : (forwarded identity).xUserRole = some "admin") :
    (forwarded identity).xUsername = some "admin01" := by
  obtain ⟨token, payload, _, hdecode, hauth, _, rfl⟩ := Gateway.validate_ok.mp hv
  have hadmin : payload.role.getD "" = "admin" := by
    rw [forwarded, field_role hauth] at hrole
    exact Option.some.inj hrole
  have hpayload : payload.role = some "admin" := by
    cases hp : payload.role with
    | none =>
      rw [hp] at hadmin
      exact absurd hadmin (by decide)
    | some role => rw [← hadmin, hp, Option.getD_some]
  have hsub := ht payload (hd token payload hdecode) hpayload
  have hblank : ∀ c ∈ "admin01".toList, Header.isBlank c = false :=
    List.all_iff_forall_prop.mp (by decide)
  simp only [forwarded, hsub, Option.getD_some]
  exact Header.field_eq_some (by decide) hblank

theorem serves_onlyAdmin (h : Serves bcrypt db r db') (hk : Keys db) (ho : OnlyAdmin u db)
    (hc : ∀ caller, r.caller? = some caller → caller.xUserRole = some "admin" →
      caller.xUsername = some "admin01") : OnlyAdmin u db' := by
  cases h with
  | createUser fresh h =>
    obtain ⟨v, _, hrole, hallowed, _, rfl⟩ := createUser_ok h
    apply onlyAdmin_addUser ho
    rintro hadmin
    rw [← hrole, hadmin] at hallowed
    exact absurd hallowed (by decide)
  | deleteUser h =>
    obtain ⟨hadmin, v, hv, _, hself, rfl⟩ := deleteUser_ok h
    apply onlyAdmin_removeUser hk ho hv
    intro hname
    exact hself (by rw [hc _ rfl hadmin, hname])
  | createCase fresh h =>
    obtain ⟨_, _, _, rfl⟩ := createCase_ok h
    exact ho
  | updateCaseStatus h =>
    obtain ⟨f, _, rfl⟩ := updateCaseStatus_ok h
    exact ho
  | createAssignment fresh h =>
    obtain ⟨_, _, _, _, rfl⟩ := createAssignment_ok h
    exact ho
  | deleteAssignment h =>
    obtain ⟨p, rfl⟩ := deleteAssignment_ok h
    exact ho
  | login h => exact ho

/-- The tables, and the tokens, of one administrator. -/
structure Administered (u : User) (s : State) : Prop where
  keys : Keys s.db
  only : OnlyAdmin u s.db
  tokens : AdminTokens s.tokens

theorem administered_step (ha : Administered u s) (h : GatewayStep bcrypt s a s') :
    Administered u s' := by
  have hkeys := keys_step ha.keys (gatewayStep_db h)
  cases h with
  | login h =>
    refine ⟨hkeys, ha.only, ?_⟩
    intro payload hmem hrole
    rcases List.mem_append.mp hmem with hmem | hmem
    · exact ha.tokens payload hmem hrole
    · obtain ⟨v, hv, _, hpayload⟩ := login_ok h
      rw [List.mem_singleton.mp hmem, hpayload] at hrole ⊢
      obtain rfl := (ha.only.2 v).mp ⟨hv, Option.some.inj hrole⟩
      exact congrArg some ha.only.1
  | served hd hv hc h =>
    refine ⟨hkeys, serves_onlyAdmin h ha.keys ha.only ?_, ha.tokens⟩
    intro caller hcaller hrole
    cases hc.symm.trans hcaller
    exact forwarded_admin ha.tokens hd hv hrole
  | failed => exact ha
  | restart fresh h =>
    refine ⟨hkeys, ?_, ha.tokens⟩
    exact seeds_invariant h ha.only fun _ hmem _ _ hs ho => seedUser_onlyAdmin hmem hs ho
  | restartFailed => exact ha

theorem administered_path (ha : Administered u s)
    (h : (gateway bcrypt).Path (fun _ _ => True) s s') : Administered u s' := by
  induction h with
  | refl => exact ha
  | step _ _ hs ih => exact administered_step ih hs

/-- In every state the one account with the role `admin` is the row that the first start seeded,
and every token with that role is of its name. -/
theorem administrator_fixed (hi : GatewayInitial bcrypt s)
    (hp : (gateway bcrypt).Path (fun _ _ => True) s s') :
    ∃ u, u.username = "admin01" ∧ (∀ v, v ∈ s.db.users ∧ v.role = "admin" ↔ v = u) ∧
      (∀ v, v ∈ s'.db.users ∧ v.role = "admin" ↔ v = u) ∧
      ∀ payload ∈ s'.tokens, payload.role = some "admin" → payload.sub = some "admin01" := by
  obtain ⟨u, hu⟩ := initial_onlyAdmin hi.1
  have hnone : AdminTokens s.tokens := by simp [hi.2, AdminTokens]
  have ha := administered_path ⟨keys_initial hi.1, hu, hnone⟩ hp
  exact ⟨u, hu.1, hu.2, ha.only.2, ha.tokens⟩

/-- The administrator logs in and deletes an account with the token. -/
theorem administrator_after_deletion : ∃ s : State, s.tokens = [⟨some "admin01", some "admin"⟩] ∧
    (∀ v ∈ s.db.users, v.username ≠ "investigator01") ∧
    ∃ u, u.username = "admin01" ∧ (∀ v, v ∈ seededDb.users ∧ v.role = "admin" ↔ v = u) ∧
      (∀ v, v ∈ s.db.users ∧ v.role = "admin" ↔ v = u) ∧
      ∀ payload ∈ s.tokens, payload.role = some "admin" → payload.sub = some "admin01" := by
  have hlogin : login plainBcrypt seededDb ⟨"admin01", "admin01"⟩ =
      .ok ⟨some "admin01", some "admin"⟩ := by rfl
  have hissued : Unforged [⟨some "admin01", some "admin"⟩]
      (fun token => if token = "t" then some ⟨some "admin01", some "admin"⟩ else none) := by
    intro token payload hdecode
    dsimp only at hdecode
    split_ifs at hdecode
    cases hdecode
    exact List.mem_singleton_self _
  have hvalid : Gateway.validate
      (fun token => if token = "t" then some ⟨some "admin01", some "admin"⟩ else none) (.ofNat 1)
      (some "Bearer t") (some "/api/admin/users") (some "DELETE") =
        .ok ⟨"admin01", "admin01", "admin", .ofNat 1⟩ := by rfl
  have hdelete : deleteUser seededDb administrator (Uuid.ofNat 14).str =
      .ok { seededDb with users := seededDb.users.tail } := by rfl
  have hcaller : (Request.deleteUser administrator (Uuid.ofNat 14).str).caller? =
      some (forwarded ⟨"admin01", "admin01", "admin", .ofNat 1⟩) := by rfl
  have hfirst : GatewayStep plainBcrypt ⟨seededDb, []⟩ _ _ := .login hlogin
  have hnext : GatewayStep plainBcrypt ⟨seededDb, [⟨some "admin01", some "admin"⟩]⟩ _ _ :=
    .served hissued hvalid hcaller (.deleteUser hdelete)
  have hpath : (gateway plainBcrypt).Path (fun _ _ => True) ⟨seededDb, []⟩ _ :=
    .step .refl trivial hfirst
  have hdeleted : ∀ v ∈ seededDb.users.tail, v.username ≠ "investigator01" := by decide
  exact ⟨_, rfl, hdeleted, administrator_fixed ⟨seeded_initial, rfl⟩ (hpath.step trivial hnext)⟩

end ForensicChain.Auth
