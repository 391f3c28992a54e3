import ForensicChain.Auth.Views
import ForensicChain.Evidence.Exactness
import ForensicChain.Platform.Disclosure

/-!
The auth service beside the others. No store but its own has a key to its cases: the services ask
for the cases of a caller and go on with the answer, however old it is by then. Since no case is
ever removed or renumbered, what they have written stays about a case that exists.
-/
namespace ForensicChain.Platform

open Auth (Bcrypt CaseKeys Db Keys getAssignedCaseNumbers)
open Evidence (Artifact)

/-- `answers` are the case lists that the auth service has given out. -/
structure Deployment where
  auth : Db
  answers : List (List String)
  services : State

/-- A case list that the action goes by. -/
def Action.Uses (x : Action) (assigned : List String) : Prop :=
  match x with
  | .evidence (.admitUpload _ _ list _) | .evidence (.admitVerification _ _ list _)
  | .report _ (.assign list) => assigned = list
  | _ => False

inductive DeploymentAction
  | auth (a : Auth.Action)
  | ask (actorId : String)
  | services (x : Action)

inductive DeploymentStep (bcrypt : Bcrypt) (fromisoformat : String → Option Timestamp)
    (keys : HashSign.Signer) (d : Deployment) : DeploymentAction → Deployment → Prop
  | auth {a db} (hs : Auth.Step bcrypt d.auth a db) :
      DeploymentStep bcrypt fromisoformat keys d (.auth a) { d with auth := db }
  /-- An empty list stands for a call that failed. -/
  | ask (actorId : String) :
      DeploymentStep bcrypt fromisoformat keys d (.ask actorId)
        { d with answers := (getAssignedCaseNumbers d.auth actorId).getD [] :: d.answers }
  /-- A request may go by a list that was answered long before. -/
  | services {x s} (hs : Step fromisoformat keys d.services x s)
      (ha : ∀ assigned, x.Uses assigned → assigned ∈ d.answers) :
      DeploymentStep bcrypt fromisoformat keys d (.services x) { d with services := s }

def DeploymentInitial (bcrypt : Bcrypt) (d : Deployment) : Prop :=
  Auth.Initial bcrypt d.auth ∧ d.answers = [] ∧ Initial d.services

def deployment (bcrypt : Bcrypt) (fromisoformat : String → Option Timestamp)
    (keys : HashSign.Signer) : TransitionSystem Deployment DeploymentAction :=
  ⟨DeploymentInitial bcrypt, DeploymentStep bcrypt fromisoformat keys⟩

variable {bcrypt : Bcrypt} {fromisoformat : String → Option Timestamp} {keys : HashSign.Signer}
  {d d' : Deployment} {x : DeploymentAction} {db db' : Db} {number : String}

theorem auth_reachable (h : (deployment bcrypt fromisoformat keys).Reachable d) :
    (Auth.system bcrypt).Reachable d.auth := by
  induction h with
  | init h => exact .init h.1
  | step _ _ hs ih =>
    cases hs with
    | auth hs => exact ih.step hs
    | _ => exact ih

theorem services_reachable (h : (deployment bcrypt fromisoformat keys).Reachable d) :
    (system fromisoformat keys).Reachable d.services := by
  induction h with
  | init h => exact .init h.2.2
  | step _ _ hs ih =>
    cases hs with
    | services hs _ => exact ih.step hs
    | _ => exact ih

/-- A case has the number. -/
def Known (db : Db) (number : String) : Prop := ∃ c ∈ db.cases, c.caseNumber = number

/-- A case is never removed, and keeps its number whatever becomes of its status. -/
theorem known_step {a : Auth.Action} (hs : Auth.Step bcrypt db a db') (h : Known db number) :
    Known db' number := by
  obtain ⟨c, hc, hnumber⟩ := h
  have hseeds : ∀ {fresh}, Auth.seedPredefinedUsers bcrypt fresh db = some db' →
      Known db' number := by
    intro fresh hseed
    refine Auth.seeds_invariant (P := fun s => Known s number) hseed ⟨c, hc, hnumber⟩ ?_
    intro seed _ s t hstep hs
    rcases Auth.seedUser_some hstep with ⟨rfl, _⟩ | ⟨u, _, _, _, rfl⟩
    · exact hs
    · exact hs
  cases hs with
  | served h =>
    cases h with
    | createUser fresh h =>
      obtain ⟨u, _, _, _, _, rfl⟩ := Auth.createUser_ok h
      exact ⟨c, hc, hnumber⟩
    | deleteUser h =>
      obtain ⟨_, u, _, _, _, rfl⟩ := Auth.deleteUser_ok h
      exact ⟨c, hc, hnumber⟩
    | createCase fresh h =>
      obtain ⟨_, _, _, rfl⟩ := Auth.createCase_ok h
      exact ⟨c, List.mem_append_left _ hc, hnumber⟩
    | updateCaseStatus h =>
      obtain ⟨f, hf, rfl⟩ := Auth.updateCaseStatus_ok h
      exact ⟨f c, List.mem_map_of_mem hc, (hf c).2.trans hnumber⟩
    | createAssignment fresh h =>
      obtain ⟨_, _, rfl⟩ := Auth.createAssignment_new h
      exact ⟨c, hc, hnumber⟩
    | deleteAssignment h =>
      obtain ⟨p, rfl⟩ := Auth.deleteAssignment_ok h
      exact ⟨c, hc, hnumber⟩
    | login h => exact ⟨c, hc, hnumber⟩
  | failed | restartFailed => exact ⟨c, hc, hnumber⟩
  | restart fresh h => exact hseeds h

/-- The auth service lists cases that it has. -/
theorem known_of_answer {actorId : String}
    (h : number ∈ (getAssignedCaseNumbers db actorId).getD []) : Known db number := by
  cases hanswer : getAssignedCaseNumbers db actorId with
  | none => simp [hanswer] at h
  | some numbers =>
    rw [hanswer, Option.getD_some] at h
    obtain ⟨e, _, he⟩ := Option.bind_eq_some_iff.mp hanswer
    cases e with
    | userAssignments name =>
      obtain ⟨_, _, _, _, c, hc, _, _, hnumber⟩ := (Auth.mem_userAssignments he).mp h
      exact ⟨c, hc, hnumber⟩
    | caseByNumber caseNumber =>
      rw [(Auth.caseByNumber_answers he).1] at h
      simp at h
    | document =>
      cases he
      simp at h
    | unanswered => cases he

structure References (d : Deployment) : Prop where
  answers : ∀ list ∈ d.answers, ∀ number ∈ list, Known d.auth number
  uploads : ∀ i u, d.services.evidence.uploads i = some u → Known d.auth u.request.caseId
  rows : ∀ a ∈ d.services.evidence.world.artifacts, Known d.auth a.caseId

theorem References.auth {a : Auth.Action} (h : References d)
    (hs : Auth.Step bcrypt d.auth a db) : References { d with auth := db } where
  answers list hl number hn := known_step hs (h.answers list hl number hn)
  uploads i u hu := known_step hs (h.uploads i u hu)
  rows a ha := known_step hs (h.rows a ha)

/-- The collector goes on with a list that was answered. -/
theorem References.evidence {y : Evidence.Action} {t : Evidence.State} (h : References d)
    (hk : Keys d.auth) (hs : Evidence.Step keys d.services.evidence y t)
    (ha : ∀ assigned, Action.Uses (.evidence y) assigned → assigned ∈ d.answers) :
    (∀ i u, t.uploads i = some u → Known d.auth u.request.caseId) ∧
      ∀ a ∈ t.world.artifacts, Known d.auth a.caseId := by
  have huploads := h.uploads
  have hrows := h.rows
  cases hs with
  | @admitUpload i request assigned artifactId hi hc hf =>
    have hknown := h.answers assigned (ha assigned rfl) request.caseId hc
    exact ⟨Table.forall_update (fun j _ => huploads j) hknown, hrows⟩
  | @upload i u y w u' hu hs =>
    have hcase := huploads i u hu
    refine ⟨Table.forall_update (fun j _ => huploads j) (by rwa [hs.identity.2]), ?_⟩
    intro a ha
    rcases hs.rows ha with ⟨b, hb, _, hsame⟩ | ⟨fileSize, hrow⟩
    · exact hsame ▸ hrows b hb
    · -- the column keeps a case number as it is given
      obtain ⟨_, _, _, _, hkept⟩ := Evidence.Upload.pendingRow_eq_some hrow
      obtain ⟨c, hc, hnumber⟩ := hcase
      have hmatch := hk.numbers c hc
      rw [hnumber] at hmatch
      rw [Auth.verbatim_caseNumber hmatch _ hkept]
      exact ⟨c, hc, hnumber⟩
  | verification hv hs => exact ⟨huploads, fun a ha => hrows a (hs.artifacts ▸ ha)⟩
  | admitVerification | anchorReport | ledger => exact ⟨huploads, hrows⟩

theorem References.step (h : References d) (hk : Keys d.auth)
    (hs : DeploymentStep bcrypt fromisoformat keys d x d') : References d' := by
  cases hs with
  | auth hs => exact h.auth hs
  | ask actorId =>
    refine ⟨?_, h.uploads, h.rows⟩
    intro list hl number hn
    rcases List.mem_cons.mp hl with rfl | hl
    · exact known_of_answer hn
    · exact h.answers list hl number hn
  | services hs ha =>
    cases hs with
    | evidence hs ho =>
      obtain ⟨huploads, hrows⟩ := h.evidence hk hs ha
      exact ⟨h.answers, huploads, hrows⟩
    | evidenceWrites id createdAt hs ho hp =>
      obtain ⟨huploads, hrows⟩ := h.evidence hk hs ha
      exact ⟨h.answers, huploads, hrows⟩
    | _ => exact ⟨h.answers, h.uploads, h.rows⟩

theorem references_reachable (h : (deployment bcrypt fromisoformat keys).Reachable d) :
    References d := by
  induction h with
  | init h =>
    obtain ⟨_, hnone, ⟨hrows, _, _, _, huploads, _⟩, _⟩ := h
    exact ⟨by simp [hnone], by simp [huploads], by simp [hrows]⟩
  | step hr _ hs ih => exact ih.step (Auth.keys_reachable (auth_reachable hr)) hs

/-- Exactly one case has the number. -/
def RefersToCase (db : Db) (number : String) : Prop := ∃! c, c ∈ db.cases ∧ c.caseNumber = number

theorem Known.unique (h : Known db number) (hk : CaseKeys db) : RefersToCase db number := by
  obtain ⟨c, hc, hnumber⟩ := h
  refine ⟨c, ⟨hc, hnumber⟩, ?_⟩
  rintro e ⟨he, hen⟩
  exact List.inj_on_of_nodup_map hk.numbers he hc (hen.trans hnumber.symm)

/-- A proof record has the case of the upload that it was appended for. -/
theorem References.proof {q : Ledger.LedgerRecord} {id : Uuid} (h : References d)
    (hk : Keys d.auth) (hs : (system fromisoformat keys).Reachable d.services)
    (hq : q ∈ d.services.evidence.world.ledger.records) (hproof : Ledger.IsEvidenceProof id q) :
    Known d.auth q.caseId := by
  have hinv := Evidence.invariant_reachable (evidence_reachable hs)
  obtain ⟨j, u, call, c, hu, _, hcall, hc, hphase⟩ := hinv.proof_upload hq hproof
  obtain ⟨c', hash, sig, now, hc', hargs⟩ := (hinv.uploads j u hu).call call hcall
  obtain rfl := Option.some.inj (hc.symm.trans hc')
  have hsound := hinv.ledger.calls call c hc
  simp only [Ledger.Call.Sound, hphase, hargs] at hsound
  have hcase : Postgres.varchar 64 u.request.caseId = some q.caseId := hsound.caseId
  obtain ⟨e, he, hnumber⟩ := h.uploads j u hu
  have hmatch := hk.numbers e he
  rw [hnumber] at hmatch
  rw [Auth.verbatim_caseNumber hmatch _ hcase]
  exact ⟨e, he, hnumber⟩

/-- However the auth service and the others go on, every artifact, every custody event, every
report and every evidence proof in the ledger names a case that exists, and only one. -/
theorem references_exist (h : (deployment bcrypt fromisoformat keys).Reachable d) :
    (∀ a ∈ d.services.evidence.world.artifacts, RefersToCase d.auth a.caseId) ∧
    (∀ e ∈ d.services.pipeline.store.events,
      ∃ number, e.caseId = some number ∧ RefersToCase d.auth number) ∧
    (∀ r ∈ d.services.reports.rows,
      ∃ number, r.caseId = some number ∧ RefersToCase d.auth number) ∧
    ∀ q ∈ d.services.evidence.world.ledger.records, q.recordType = "EVIDENCE_PROOF_CREATED" →
      RefersToCase d.auth q.caseId := by
  have hs := services_reachable h
  have href := references_reachable h
  have hk := Auth.caseKeys_reachable (auth_reachable h)
  have hinv := invariant_reachable hs
  have hcase : ∀ {id number}, Evidence.CaseOf d.services.evidence.world.artifacts id number →
      RefersToCase d.auth number := by
    rintro id _ ⟨a, ha, _, rfl⟩
    exact (href.rows a ha).unique hk
  refine ⟨fun a ha => (href.rows a ha).unique hk, ?_, ?_, ?_⟩
  · intro e he
    obtain ⟨number, hnumber, hown⟩ := hinv.events e he
    exact ⟨number, hnumber, hcase hown⟩
  · intro r hr
    obtain ⟨number, hnumber, hown⟩ := hinv.reports.placed r hr
    exact ⟨number, hnumber, hcase hown⟩
  · intro q hq htype
    exact (href.proof (Auth.keys_reachable (auth_reachable h)) hs hq ⟨rfl, htype⟩).unique hk

/-- The collector with a case list that was answered, up to its first event. -/
theorem deployment_run {e : Evidence.State} (hdb : (Auth.system bcrypt).Reachable db)
    {actorId : String} {numbers : List String}
    (hanswer : getAssignedCaseNumbers db actorId = some numbers)
    (h : ((Evidence.system keys).restrict fun _ y _ =>
      ∀ assigned, Action.Uses (.evidence y) assigned → assigned = numbers).Reachable e)
    (ho : e.world.outbox = []) :
    (deployment bcrypt fromisoformat keys).Reachable ⟨db, [numbers], .ofEvidence e⟩ := by
  induction h with
  | @init e h =>
    have hpipeline : Pipeline.Initial .empty := ⟨rfl, fun _ => rfl, fun _ => rfl, rfl, rfl⟩
    have hservices : Initial (.ofEvidence e) :=
      ⟨h, fun _ => rfl, hpipeline, rfl, fun _ => rfl, fun _ => rfl⟩
    have hauth : (deployment bcrypt fromisoformat keys).Reachable ⟨db, [], .ofEvidence e⟩ := by
      clear hanswer
      induction hdb with
      | init hi => exact .init ⟨hi, rfl, hservices⟩
      | step _ _ hs ih => exact ih.step (.auth hs)
    have hask := hauth.step (.ask actorId)
    rwa [hanswer] at hask
  | @step e e' y _ _ hs ih =>
    rcases hs.1.outbox with hsame | ⟨env, _, hout⟩
    · have hstep : Step fromisoformat keys (.ofEvidence e) (.evidence y) (.ofEvidence e') :=
        .evidence hs.1 hsame
      refine (ih (hsame.symm.trans ho)).step (.services hstep ?_)
      intro assigned huses
      rw [hs.2 assigned huses]
      exact List.mem_singleton_self _
    · simp [hout] at ho

/-- The row is there when its case is closed, and the case is still found. -/
theorem sample_references : ∃ d,
    (deployment Auth.plainBcrypt DateTime.fromisoformat HashSign.plainKeys).Reachable d ∧
    d.auth.getUserAssignments "investigator01" = .ok [] ∧
    Evidence.sampleRow ∈ d.services.evidence.world.artifacts ∧
    RefersToCase d.auth "CASE-2025-001" := by
  have hdb : (Auth.system Auth.plainBcrypt).Reachable Auth.assignedDb :=
    Auth.assigned_run (.init Auth.seeded_initial) fun _ _ => ⟨trivial, trivial⟩
  have hanswer : getAssignedCaseNumbers Auth.assignedDb "investigator01" =
      some ["CASE-2025-001"] := by decide +kernel
  have hsaved : ((Evidence.system HashSign.plainKeys).restrict fun _ y _ =>
      ∀ assigned, Action.Uses (.evidence y) assigned → assigned = ["CASE-2025-001"]).Reachable
        sampleCollector :=
    Evidence.sample_saved_run (fun _ _ _ _ _ _ huses => huses.elim) fun _ huses => huses
  have hrun : (deployment Auth.plainBcrypt DateTime.fromisoformat HashSign.plainKeys).Reachable _ :=
    deployment_run hdb hanswer hsaved rfl
  have hclose : Auth.updateCaseStatus Auth.assignedDb Auth.administrator Auth.sampleCase.id
      [("status", .str "CLOSED")] = .ok
        ({ Auth.assignedDb with cases := [{ Auth.sampleCase with status := "CLOSED" }] },
          { Auth.sampleCase with status := "CLOSED" }) := by rfl
  have hclosed := hrun.step (.auth (.served (.updateCaseStatus hclose)))
  have hrow : Evidence.sampleRow ∈ sampleCollector.world.artifacts := List.mem_singleton_self _
  exact ⟨_, hclosed, by rfl, hrow, (references_exist hclosed).1 _ hrow⟩

end ForensicChain.Platform
