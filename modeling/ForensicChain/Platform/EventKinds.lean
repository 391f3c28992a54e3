import ForensicChain.Platform.Cases

/-!
The events that the services bring into the pipeline, each with the type and the routing key of
the statement that writes it.
-/
namespace ForensicChain.Platform

open Custody
open Evidence (RequestId)
open Reports (ReportAction ReportRequest ReportStep)

variable {fromisoformat : String → Option Timestamp} {keys : HashSign.Signer} {s t : State}
  {x : Action} {env : Envelope} {P : Json → Prop}

/-- Type and routing key of what the evidence collector writes with an upload. -/
def ingestedKind : String × String := ("EvidenceIngested", "forensicchain.evidence.ingested")

/-- What it writes with a verification. -/
def verificationKinds : List (String × String) := [
  ("VerificationRequested", "forensicchain.verification.requested"),
  ("VerificationPassed", "forensicchain.verification.passed"),
  ("VerificationFailed", "forensicchain.verification.failed")]

/-- What it writes when a row or its file is read. -/
def accessKinds : List (String × String) := [
  ("EvidenceViewed", "forensicchain.evidence.viewed"),
  ("EvidenceDownloaded", "forensicchain.evidence.downloaded")]

/-- What the audit reporter publishes. -/
def reportKinds : List (String × String) := [
  ("ReportGenerated", "forensicchain.report.generated"),
  ("ReportDownloaded", "forensicchain.report.downloaded"),
  ("ReportVerified", "forensicchain.report.verified")]

def eventKinds : List (String × String) :=
  ingestedKind :: (verificationKinds ++ accessKinds ++ reportKinds)

def kind (env : Envelope) : String × String := (env.eventType, env.routingKey)

/-- The bodies that a step brings into the outbox or to the exchange. -/
inductive Brings (s t : State) : Action → Json → Prop
  | written {y : Evidence.Action} {env : Envelope}
      (hw : Evidence.Writes s.evidence t.evidence env)
      (ho : t.evidence.world.outbox = s.evidence.world.outbox ++ [env]) :
      Brings s t (.evidence y) env.toJson.sortKeys
  | accessed {i : RequestId} {a : Access} {env : Envelope} (hi : s.accesses i = some a)
      (ha : Accesses s.evidence.world a env)
      (hp : Pipeline.payloads t.pipeline =
        Pipeline.payloads s.pipeline ++ [.ofJson env.toJson]) :
      Brings s t (.access i) env.toJson.sortKeys
  | published {i : RequestId} {r r' : ReportRequest} {a : ReportAction} {w : Reports.World}
      {env : Envelope} (hi : s.requests i = some r)
      (hs : ReportStep s.evidence.world.artifacts s.reports r a w (some env) r') :
      Brings s t (.report i a) env.toJson

/-- The pipeline stays, or goes on with what the step brings in. -/
theorem Step.pipeline_cases (hs : Step fromisoformat keys s x t) : t.pipeline = s.pipeline ∨
    ∃ a, Pipeline.Step fromisoformat s.pipeline a t.pipeline ∧
      (∀ row, a = .write row → Brings s t x row.payload.value) ∧
      ∀ tag env, a = .publishEvent tag env → Brings s t x env.toJson := by
  cases hs with
  | evidenceWrites id createdAt hs ho hp =>
    rcases hs.outbox with hsame | ⟨env, hwrites, hout⟩
    · simp [hsame] at ho
    · obtain ⟨_, hlist⟩ := List.append_inj' (hout.symm.trans ho) rfl
      obtain rfl := List.singleton_inj.mp hlist
      refine .inr ⟨_, hp, ?_, by simp⟩
      rintro _ ⟨⟩
      exact .written hwrites hout
  | access id createdAt hi ha hp =>
    refine .inr ⟨_, hp, ?_, by simp⟩
    rintro _ ⟨⟩
    exact .accessed hi ha (Pipeline.payloads_write hp)
  | pipeline ha hp =>
    exact .inr ⟨_, hp, fun row he => (ha.1 row he).elim, fun tag env he => (ha.2 tag env he).elim⟩
  | reportPublishes tag hi hs hp =>
    refine .inr ⟨_, hp, by simp, ?_⟩
    rintro _ _ ⟨⟩
    exact .published hi hs
  | _ => exact .inl rfl

/-- What is true of all that is brought in is true of all that is on its way. -/
theorem Step.carries (hs : Step fromisoformat keys s x t) (h : Pipeline.Carries P s.pipeline)
    (hP : ∀ body, Brings s t x body → P body) : Pipeline.Carries P t.pipeline := by
  rcases hs.pipeline_cases with hsame | ⟨a, hp, hwrite, hpublish⟩
  · rw [hsame]
    exact h
  · exact h.step hp (fun row he => hP _ (hwrite row he))
      fun tag env he => hP _ (hpublish tag env he)

/-- The custody row is that of a body with the property. -/
def Told (P : Json → Prop) (e : CustodyEvent) : Prop :=
  ∃ body m previous hash, P body ∧ readMessage body = some m ∧
    e.Inserted e.id m e.timestamp previous hash

theorem Told.mono {Q : Json → Prop} {e : CustodyEvent} (h : Told P e)
    (hPQ : ∀ body, P body → Q body) : Told Q e := by
  obtain ⟨body, m, previous, hash, hbody, hrest⟩ := h
  exact ⟨body, m, previous, hash, hPQ body hbody, hrest⟩

/-- What is true of all that is brought in, and stays true, is true of all that is on its way and of
all that the custody table tells. -/
theorem told_reachable {P : State → Json → Prop} (h : (system fromisoformat keys).Reachable s)
    (hkept : ∀ s x t body, Step fromisoformat keys s x t → P s body → P t body)
    (hbrings : ∀ s x t body, (system fromisoformat keys).Reachable s →
      Step fromisoformat keys s x t → Brings s t x body → P t body) :
    Pipeline.Carries (P s) s.pipeline ∧ ∀ e ∈ s.pipeline.store.events, Told (P s) e := by
  induction h with
  | init h =>
    obtain ⟨_, _, hpipeline, _⟩ := h
    obtain ⟨_, _, _, hstore, _⟩ := id hpipeline
    exact ⟨Pipeline.carries_initial hpipeline, by simp [hstore]⟩
  | @step s t x hr _ hs ih =>
    obtain ⟨hcarries, htold⟩ := ih
    have hnext := hcarries.mono fun body => hkept s x t body hs
    refine ⟨hs.carries hnext fun body => hbrings s x t body hr hs, fun e he => ?_⟩
    have hold : e ∈ s.pipeline.store.events → Told (P t) e :=
      fun hmem => (htold e hmem).mono fun body => hkept s x t body hs
    rcases hs.pipeline_cases with hsame | ⟨a, hp, _⟩
    · exact hold (hsame ▸ he)
    · exact (hnext.inserted hp he).elim hold id

theorem kind_of_writes {s t : Evidence.State} (h : Evidence.Writes s t env) :
    kind env = ingestedKind ∨ kind env ∈ verificationKinds := by
  cases h with
  | ingested => exact .inl rfl
  | requested => exact .inr (List.mem_cons_self ..)
  | outcome r recordId eventId timestamp hv =>
    right
    by_cases hr : r.verificationResult = .valid
    · simp [kind, Evidence.outcomeEnvelope, hr, verificationKinds]
    · simp [kind, Evidence.outcomeEnvelope, hr, verificationKinds]

theorem Accesses.event {w : Evidence.World} {a : Access} (h : Accesses w a env) :
    ∃ eventId timestamp, ∃ k ∈ accessKinds, ∃ reason,
      env = Evidence.evidenceEvent eventId timestamp a.request.artifactId a.artifact.caseId
        a.request.actor a.request.correlationId k.1 k.2 reason a.request.ipAddress ∧
      (k.1 = "EvidenceDownloaded" ↔ a.kind = .download) := by
  cases h with
  | view assigned eventId timestamp h =>
    unfold Evidence.viewArtifact at h
    split_ifs at h
    obtain ⟨_, _, hout⟩ := Evidence.bind_ok.mp h
    obtain ⟨_, rfl⟩ := Prod.mk.inj (Except.ok.inj hout)
    exact ⟨_, _, ("EvidenceViewed", "forensicchain.evidence.viewed"), List.mem_cons_self, _, rfl,
      by simp⟩
  | download assigned eventId timestamp h =>
    obtain ⟨_, _, h⟩ := Evidence.bind_ok.mp h
    obtain ⟨_, _, hout⟩ := Evidence.bind_ok.mp h
    obtain ⟨_, rfl⟩ := Prod.mk.inj (Except.ok.inj hout)
    exact ⟨_, _, ("EvidenceDownloaded", "forensicchain.evidence.downloaded"),
      List.mem_cons_of_mem _ List.mem_cons_self, _, rfl, by simp⟩

theorem Accesses.kind {w : Evidence.World} {a : Access} (h : Accesses w a env) :
    kind env ∈ accessKinds := by
  obtain ⟨_, _, k, hk, _, rfl, _⟩ := h.event
  exact hk

/-- The announcements of the reporter. -/
inductive Announced : Reports.Announcement → Prop
  | generated (artifactId : String) (report : Reports.Report) (ipAddress : Option String) :
      Announced (Reports.generatedAnnouncement artifactId report ipAddress)
  | downloaded (report : Reports.Report) (ipAddress : Option String) :
      Announced (Reports.downloadedAnnouncement report ipAddress)
  | verified (report : Reports.Report) (out : Reports.ReportVerifyOut)
      (ipAddress : Option String) :
      Announced (Reports.verifiedAnnouncement report out ipAddress)

theorem Announced.kind {n : Reports.Announcement} (h : Announced n) :
    (n.eventType, n.routingKey) ∈ reportKinds := by
  cases h <;> simp [Reports.generatedAnnouncement, Reports.downloadedAnnouncement,
    Reports.verifiedAnnouncement, reportKinds]

/-- A request that publishes has one of them. -/
def Announces (r : ReportRequest) : Prop :=
  ∀ n answer, r.phase = .publishing n answer → Announced n

theorem Announces.step {artifacts : List Evidence.Artifact} {w w' : Reports.World}
    {r r' : ReportRequest} {a : ReportAction} {published : Option Envelope}
    (hs : ReportStep artifacts w r a w' published r') : Announces r' := by
  intro n answer hp
  cases hs with
  | insert =>
    obtain ⟨rfl, _⟩ := Reports.ReportPhase.publishing.inj hp
    exact .generated _ _ _
  | readDownload =>
    obtain ⟨rfl, _⟩ := Reports.ReportPhase.publishing.inj hp
    exact .downloaded _ _
  | readVerify =>
    obtain ⟨rfl, _⟩ := Reports.ReportPhase.publishing.inj hp
    exact .verified _ _ _
  | assign assigned hp' =>
    rename_i c
    unfold ReportRequest.authorise at hp
    split_ifs at hp
    · rcases r.call.authorised_cases (c := c) with hphase | hphase <;> simp [hphase] at hp
    · simp [ReportRequest.fail, ReportRequest.next] at hp
  | check assigned hp' =>
    rename_i report
    unfold ReportRequest.authorise at hp
    split_ifs at hp
    · have hcases : r.call.granted report = _ ∨ _ := r.call.granted_cases
      rcases hcases with hphase | hphase <;> simp [hphase] at hp
    · simp [ReportRequest.fail, ReportRequest.next] at hp
  | _ => simp [ReportRequest.next, ReportRequest.fail, ReportRequest.crash] at hp

theorem announces_start (call : Reports.ReportCall) (actor : Actor) (corrId : String)
    (ipAddress : Option String) : Announces (.start call actor corrId ipAddress) := by
  intro n answer hp
  cases call <;> cases hp

theorem announces_reachable (h : (system fromisoformat keys).Reachable s) :
    ∀ i r, s.requests i = some r → Announces r := by
  induction h with
  | init h =>
    obtain ⟨_, _, _, _, _, hnone⟩ := h
    simp [hnone]
  | step _ _ hs ih =>
    cases hs with
    | admitReport call actor corrId ipAddress hi =>
      exact Table.forall_update (fun j _ r hr => ih j r hr) (announces_start _ _ _ _)
    | report hi hs => exact Table.forall_update (fun j _ r hr => ih j r hr) (.step hs)
    | reportPublishes tag hi hs hp =>
      exact Table.forall_update (fun j _ r hr => ih j r hr) (.step hs)
    | _ => exact ih

theorem announced_of_published {artifacts : List Evidence.Artifact} {w w' : Reports.World}
    {r r' : ReportRequest} {a : ReportAction} (h : Announces r)
    (hs : ReportStep artifacts w r a w' (some env) r') :
    ∃ n eventId timestamp, Announced n ∧ env = r.envelope n eventId timestamp := by
  cases hs with
  | publish eventId timestamp hp => exact ⟨_, eventId, timestamp, h _ _ hp, rfl⟩
  | publishRaised hp he =>
    obtain ⟨eventId, timestamp, rfl⟩ := he env rfl
    exact ⟨_, eventId, timestamp, h _ _ hp, rfl⟩

theorem kind_of_published {artifacts : List Evidence.Artifact} {w w' : Reports.World}
    {r r' : ReportRequest} {a : ReportAction} (h : Announces r)
    (hs : ReportStep artifacts w r a w' (some env) r') : kind env ∈ reportKinds := by
  obtain ⟨n, _, _, hn, rfl⟩ := announced_of_published h hs
  exact hn.kind

/-- The body names one of the kinds. -/
def OfKind (kinds : List (String × String)) (body : Json) : Prop :=
  ∃ k ∈ kinds, body.field? "event_type" = some (.str k.1) ∧
    body.field? "routing_key" = some (.str k.2)

theorem ofKind_toJson {kinds : List (String × String)} (h : kind env ∈ kinds) :
    OfKind kinds env.toJson :=
  ⟨kind env, h, by simp [Envelope.toJson, Json.field?, kind],
    by simp [Envelope.toJson, Json.field?, kind]⟩

theorem ofKind_sortKeys {kinds : List (String × String)} (h : kind env ∈ kinds) :
    OfKind kinds env.toJson.sortKeys := by
  rw [Envelope.toJson_sortKeys]
  exact ⟨kind env, h, by simp [Json.field?, kind], by simp [Json.field?, kind]⟩

theorem Brings.ofKind {body : Json} (h : Brings s t x body)
    (hr : ∀ i r, s.requests i = some r → Announces r) : OfKind eventKinds body := by
  cases h with
  | written hw ho =>
    apply ofKind_sortKeys
    rcases kind_of_writes hw with hkind | hkind
    · rw [hkind]
      exact List.mem_cons_self
    · simp [eventKinds, hkind]
  | accessed hi ha hp => exact ofKind_sortKeys (by simp [eventKinds, ha.kind])
  | published hi hs => exact ofKind_toJson (by simp [eventKinds, kind_of_published (hr _ _ hi) hs])

/-- Every event on its way is of a known kind. -/
theorem ofKind_reachable (h : (system fromisoformat keys).Reachable s) :
    Pipeline.Carries (OfKind eventKinds) s.pipeline := by
  induction h with
  | init h => exact Pipeline.carries_initial h.2.2.1
  | step hr _ hs ih => exact hs.carries ih fun _ hb => hb.ofKind (announces_reachable hr)

end ForensicChain.Platform
