import ForensicChain.Auth.Deletion
import ForensicChain.Auth.Tokens
import ForensicChain.Library.Refinement

/-!
Tokens in time. No table is asked when a token is checked, so the token of a deleted account stays
good; it expires, and nobody gets another one.
-/
namespace ForensicChain.Auth

/-- The claims of a token; the times are in whole seconds. -/
structure Claims where
  payload : Gateway.Payload
  iat : Int
  exp : Int

/-- A claim of a time loses the fraction of its second. -/
def seconds (t : Timestamp) : Int := t / 1000000

/-- `create_access_token`; the minutes are a setting, 480 by default. -/
def createAccessToken (jwtExpireMinutes : Nat) (now : Timestamp) (payload : Gateway.Payload) :
    Claims where
  payload := payload
  iat := seconds now
  exp := seconds (now + jwtExpireMinutes * 60 * 1000000)

structure TimedState where
  db : Db
  tokens : List Claims
  now : Timestamp

/-- The state without its times. -/
def TimedState.untimed (s : TimedState) : State := ⟨s.db, s.tokens.map Claims.payload⟩

/-- What `decode_access_token` accepts was issued, and is not past its last second. -/
def Genuine (s : TimedState) (decodeAccessToken : String → Option Gateway.Payload) : Prop :=
  ∀ token payload, decodeAccessToken token = some payload →
    ∃ c ∈ s.tokens, c.payload = payload ∧ seconds s.now ≤ c.exp

inductive TimedAction
  | tick
  | act (a : Action)

/-- The clock is not set back; between its steps the service does what it does at any time. -/
inductive TimedStep (bcrypt : Bcrypt) (jwtExpireMinutes : Nat) (s : TimedState) :
    TimedAction → TimedState → Prop
  | tick {now} (h : s.now ≤ now) : TimedStep bcrypt jwtExpireMinutes s .tick { s with now }
  | login {body payload} (h : login bcrypt s.db body = .ok payload) :
      TimedStep bcrypt jwtExpireMinutes s (.act (.served (.login body)))
        { s with tokens := s.tokens ++ [createAccessToken jwtExpireMinutes s.now payload] }
  | served {r db' decodeAccessToken corrId authorization xOriginalUri xOriginalMethod identity}
      (hd : Genuine s decodeAccessToken)
      (hv : Gateway.validate decodeAccessToken corrId authorization xOriginalUri xOriginalMethod =
        .ok identity)
      (hc : r.caller? = some (forwarded identity)) (h : Serves bcrypt s.db r db') :
      TimedStep bcrypt jwtExpireMinutes s (.act (.served r)) { s with db := db' }
  | failed {r} : TimedStep bcrypt jwtExpireMinutes s (.act (.failed r)) s
  | restart {db'} (fresh : String → Fresh) (h : seedPredefinedUsers bcrypt fresh s.db = some db') :
      TimedStep bcrypt jwtExpireMinutes s (.act .restart) { s with db := db' }
  | restartFailed : TimedStep bcrypt jwtExpireMinutes s (.act .restartFailed) s

/-- The first start of the service, at any time. -/
def timed (bcrypt : Bcrypt) (jwtExpireMinutes : Nat) : TransitionSystem TimedState TimedAction :=
  ⟨fun s => GatewayInitial bcrypt s.untimed, TimedStep bcrypt jwtExpireMinutes⟩

def untimedAction : TimedAction → Option Action
  | .tick => none
  | .act a => some a

variable {bcrypt : Bcrypt} {jwtExpireMinutes : Nat} {s t g : TimedState} {x : TimedAction}
  {username : String} {identity : Gateway.Identity} {corrId : Uuid}
  {decodeAccessToken : String → Option Gateway.Payload}
  {authorization xOriginalUri xOriginalMethod : Option String}

/-- A genuine token is an issued one. -/
theorem Genuine.unforged (h : Genuine s decodeAccessToken) :
    Unforged s.untimed.tokens decodeAccessToken := by
  intro token payload hdecode
  obtain ⟨c, hc, rfl, _⟩ := h token payload hdecode
  exact List.mem_map_of_mem hc

/-- Without the clock, the steps are those of the service behind the gateway. -/
theorem timedStep_follows (h : TimedStep bcrypt jwtExpireMinutes s x t) :
    (gateway bcrypt).Follows TimedState.untimed untimedAction s x t := by
  cases h with
  | tick h => rfl
  | login h =>
    simp only [TransitionSystem.Follows, untimedAction, TimedState.untimed, List.map_append,
      List.map_cons, List.map_nil, createAccessToken]
    exact GatewayStep.login h
  | served hd hv hc h => exact GatewayStep.served hd.unforged hv hc h
  | failed => exact GatewayStep.failed
  | restart fresh h => exact GatewayStep.restart fresh h
  | restartFailed => exact GatewayStep.restartFailed

/-- Every timed run is a run of the service behind the gateway. -/
theorem timed_refines (h : (timed bcrypt jwtExpireMinutes).Reachable s) :
    (gateway bcrypt).Reachable s.untimed :=
  h.refines (fun _ => id) fun _ _ _ hs => timedStep_follows hs

theorem timedStep_db (h : TimedStep bcrypt jwtExpireMinutes s x t) :
    x = .tick ∧ t.db = s.db ∨ ∃ a, x = .act a ∧ Step bcrypt s.db a t.db := by
  cases x with
  | tick =>
    cases h
    exact .inl ⟨rfl, rfl⟩
  | act a => exact .inr ⟨a, rfl, gatewayStep_db (timedStep_follows h)⟩

theorem timedStep_now (h : TimedStep bcrypt jwtExpireMinutes s x t) : s.now ≤ t.now := by
  cases h with
  | tick h => exact h
  | _ => exact le_rfl

/-- A token is issued to an account, by a login at this moment. -/
theorem timedStep_tokens (h : TimedStep bcrypt jwtExpireMinutes s x t) {c : Claims}
    (hc : c ∈ t.tokens) : c ∈ s.tokens ∨
      c.exp = seconds s.now + 60 * jwtExpireMinutes ∧
        ∃ u ∈ s.db.users, c.payload = ⟨some u.username, some u.role⟩ := by
  cases h with
  | login h =>
    rcases List.mem_append.mp hc with hc | hc
    · exact .inl hc
    · obtain ⟨u, hu, _, hpayload⟩ := login_ok h
      rw [List.mem_singleton.mp hc]
      refine .inr ⟨?_, u, hu, hpayload⟩
      simp only [createAccessToken, seconds]
      omega
  | _ => exact .inl hc

/-- No token outlives its minutes. -/
def Expires (jwtExpireMinutes : Nat) (s : TimedState) : Prop :=
  ∀ c ∈ s.tokens, c.exp ≤ seconds s.now + 60 * jwtExpireMinutes

theorem expires_reachable (h : (timed bcrypt jwtExpireMinutes).Reachable s) :
    Expires jwtExpireMinutes s := by
  refine h.invariant ?_ ?_
  · rintro s ⟨_, hnone⟩ c hc
    rw [List.map_eq_nil_iff.mp hnone] at hc
    cases hc
  · intro s x t ih hs c hc
    have hnow : seconds s.now ≤ seconds t.now := Int.ediv_le_ediv (by decide) (timedStep_now hs)
    rcases timedStep_tokens hs hc with hold | ⟨hexp, _⟩
    · have := ih c hold
      omega
    · omega

/-- No account of the name is created, by a request or by a start of the service. -/
def NotCreated (username : String) : TimedAction → Prop
  | .tick => True
  | .act a => NotReseeded username a ∧ ¬ Creates username a

/-- No account has the name, and no token of the name lives longer than those issued by then. -/
structure Revoked (jwtExpireMinutes : Nat) (g : TimedState) (username : String)
    (s : TimedState) : Prop where
  absent : Absent s.db username
  tokens : ∀ c ∈ s.tokens, c.payload.sub.getD "" = username →
    c.exp ≤ seconds g.now + 60 * jwtExpireMinutes

theorem revoked_step (h : Revoked jwtExpireMinutes g username s) (hx : NotCreated username x)
    (hs : TimedStep bcrypt jwtExpireMinutes s x t) : Revoked jwtExpireMinutes g username t := by
  constructor
  · rcases timedStep_db hs with ⟨_, hdb⟩ | ⟨a, rfl, hstep⟩
    · exact hdb ▸ h.absent
    · exact absent_step h.absent hx.1 hx.2 hstep
  · intro c hc hname
    rcases timedStep_tokens hs hc with hold | ⟨_, u, hu, hpayload⟩
    · exact h.tokens c hold hname
    · rw [hpayload] at hname
      exact (h.absent u hu hname).elim

/-- Once no account of a name is left, and none is created again, requests in its name are let
through no longer than a token issued at that moment would live. -/
theorem revoked_within_expiry (h : (timed bcrypt jwtExpireMinutes).Reachable g)
    (ha : Absent g.db username)
    (hp : (timed bcrypt jwtExpireMinutes).Path (fun _ x => NotCreated username x) g s)
    (hd : Genuine s decodeAccessToken)
    (hv : Gateway.validate decodeAccessToken corrId authorization xOriginalUri xOriginalMethod =
      .ok identity) (hname : identity.username = username) :
    seconds s.now ≤ seconds g.now + 60 * jwtExpireMinutes := by
  have hrevoked : Revoked jwtExpireMinutes g username s :=
    hp.invariant ⟨ha, fun c hc _ => expires_reachable h c hc⟩
      fun _ _ _ hx hr hs => revoked_step hr hx hs
  obtain ⟨token, payload, _, hdecode, _, _, hidentity⟩ := Gateway.validate_ok.mp hv
  obtain ⟨c, hc, rfl, hlive⟩ := hd token payload hdecode
  have hsub : c.payload.sub.getD "" = username := by
    rw [← hname, hidentity]
  exact hlive.trans (hrevoked.tokens c hc hsub)

/-- The tokens of an investigator and of the administrator, issued at the time 0. -/
def twoTokens : List Claims := [
  createAccessToken 480 0 ⟨some "investigator01", some "investigator"⟩,
  createAccessToken 480 0 ⟨some "admin01", some "admin"⟩]

def decodeTwo (token : String) : Option Gateway.Payload :=
  if token = "i" then some ⟨some "investigator01", some "investigator"⟩
  else if token = "a" then some ⟨some "admin01", some "admin"⟩ else none

theorem decodeTwo_genuine (db : Db) {now : Timestamp} (h : seconds now ≤ 28800) :
    Genuine ⟨db, twoTokens, now⟩ decodeTwo := by
  have hexp : ∀ payload, (createAccessToken 480 0 payload).exp = 28800 := fun _ => rfl
  intro token payload hdecode
  unfold decodeTwo at hdecode
  split_ifs at hdecode
  · obtain rfl := Option.some.inj hdecode
    exact ⟨_, List.mem_cons_self, rfl, (hexp _).symm ▸ h⟩
  · obtain rfl := Option.some.inj hdecode
    exact ⟨_, List.mem_cons_of_mem _ List.mem_cons_self, rfl, (hexp _).symm ▸ h⟩

/-- An investigator whose account is deleted is let through an hour later, and not after the last
of the 480 minutes. -/
theorem deleted_investigator_expires : ∃ (g s : TimedState) (identity : Gateway.Identity),
    Absent g.db "investigator01" ∧ identity.username = "investigator01" ∧
    Gateway.validate decodeTwo (.ofNat 1) (some "Bearer i") (some "/api/evidence") (some "GET") =
      .ok identity ∧
    seconds s.now = 3600 ∧ seconds s.now ≤ seconds g.now + 60 * 480 := by
  have hfirst : login plainBcrypt seededDb ⟨"investigator01", "investigator01"⟩ =
      .ok ⟨some "investigator01", some "investigator"⟩ := by rfl
  have hsecond : login plainBcrypt seededDb ⟨"admin01", "admin01"⟩ =
      .ok ⟨some "admin01", some "admin"⟩ := by rfl
  have hadmin : Gateway.validate decodeTwo (.ofNat 1) (some "Bearer a")
      (some "/api/admin/users") (some "DELETE") =
        .ok ⟨"admin01", "admin01", "admin", .ofNat 1⟩ := by rfl
  have hdelete : deleteUser seededDb administrator (Uuid.ofNat 14).str =
      .ok { seededDb with users := seededDb.users.tail } := by rfl
  have hcaller : (Request.deleteUser administrator (Uuid.ofNat 14).str).caller? =
      some (forwarded ⟨"admin01", "admin01", "admin", .ofNat 1⟩) := by rfl
  have hinvestigator : Gateway.validate decodeTwo (.ofNat 1) (some "Bearer i")
      (some "/api/evidence") (some "GET") =
        .ok ⟨"investigator01", "investigator01", "investigator", .ofNat 1⟩ := by rfl
  have hlogin₁ : TimedStep plainBcrypt 480 ⟨seededDb, [], 0⟩ _ _ := .login hfirst
  have hlogin₂ : TimedStep plainBcrypt 480 ⟨seededDb, twoTokens.take 1, 0⟩ _ _ := .login hsecond
  have hdeleted : TimedStep plainBcrypt 480 ⟨seededDb, twoTokens, 0⟩ _ _ :=
    .served (decodeTwo_genuine _ (by decide)) hadmin hcaller (.deleteUser hdelete)
  have hinit : (timed plainBcrypt 480).Reachable ⟨seededDb, [], 0⟩ := .init ⟨seeded_initial, rfl⟩
  have hreach : (timed plainBcrypt 480).Reachable
      ⟨{ seededDb with users := seededDb.users.tail }, twoTokens, 0⟩ :=
    ((hinit.step hlogin₁).step hlogin₂).step hdeleted
  have habsent : Absent { seededDb with users := seededDb.users.tail } "investigator01" := by
    unfold Absent
    decide
  have hwait : TimedStep plainBcrypt 480
      ⟨{ seededDb with users := seededDb.users.tail }, twoTokens, 0⟩ .tick
        ⟨{ seededDb with users := seededDb.users.tail }, twoTokens, 3600000000⟩ :=
    .tick (by decide)
  have hpath : (timed plainBcrypt 480).Path (fun _ x => NotCreated "investigator01" x)
      ⟨{ seededDb with users := seededDb.users.tail }, twoTokens, 0⟩ _ :=
    .step .refl (show NotCreated "investigator01" .tick from trivial) hwait
  exact ⟨_, _, _, habsent, rfl, hinvestigator, rfl,
    revoked_within_expiry hreach habsent hpath (decodeTwo_genuine _ (by decide)) hinvestigator rfl⟩

end ForensicChain.Auth
