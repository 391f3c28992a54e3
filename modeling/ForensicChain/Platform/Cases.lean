import ForensicChain.Pipeline.Carried
import ForensicChain.Platform.System
import ForensicChain.Reports.RequestInvariant

/-!
Every event and every report is said of the case of its artifact, through all services and in
whatever order the messages arrive.
-/
namespace ForensicChain.Platform

open Custody
open Evidence (Artifact Attributed CaseOf CaseRows KeepsCases RequestId attributed_of_parse)
open Reports (Consistent RequestInvariant)

variable {fromisoformat : String → Option Timestamp} {keys : HashSign.Signer} {s t : State}
  {x : Action} {artifacts artifacts' : List Artifact} {env : Envelope} {e : CustodyEvent}

/-- The body of a message names the case of its artifact. -/
def AttributedBody (artifacts : List Artifact) (body : Json) : Prop :=
  ∃ artifactId caseId, body.field? "artifact_id" = some (.str artifactId) ∧
    body.field? "case_id" = some (nullOr caseId) ∧ Attributed artifacts artifactId caseId

/-- The row names the case of its artifact. -/
def EventPlaced (artifacts : List Artifact) (e : CustodyEvent) : Prop :=
  ∃ c, e.caseId = some c ∧ CaseOf artifacts e.artifactId c

/-- The row that was loaded is the one that the request names. -/
def AccessPlaced (artifacts : List Artifact) (a : Access) : Prop :=
  Uuid.parse a.request.artifactId = some a.artifact.artifactId ∧
    CaseOf artifacts a.artifact.artifactId a.artifact.caseId

structure Invariant (s : State) : Prop where
  carried : Pipeline.Carries (AttributedBody s.evidence.world.artifacts) s.pipeline
  events : ∀ e ∈ s.pipeline.store.events, EventPlaced s.evidence.world.artifacts e
  accesses : ∀ i a, s.accesses i = some a → AccessPlaced s.evidence.world.artifacts a
  reports : Consistent s.evidence.world.artifacts s.reports.rows
  requests : ∀ i r, s.requests i = some r →
    RequestInvariant s.evidence.world.artifacts s.reports.rows r

theorem attributedBody_toJson (h : Attributed artifacts env.artifactId env.caseId) :
    AttributedBody artifacts env.toJson :=
  ⟨env.artifactId, env.caseId, by simp [Envelope.toJson, Json.field?],
    by simp [Envelope.toJson, Json.field?], h⟩

theorem attributedBody_outboxRow {id : Nat} {createdAt : Timestamp}
    (h : Attributed artifacts env.artifactId env.caseId) :
    AttributedBody artifacts (Pipeline.outboxRow id env createdAt).payload.value := by
  have hvalue : (Pipeline.outboxRow id env createdAt).payload.value = env.toJson.sortKeys := rfl
  rw [hvalue, Envelope.toJson_sortKeys]
  exact ⟨env.artifactId, env.caseId, by simp [Json.field?], by simp [Json.field?], h⟩

/-- What the consumer stores has the case that the message names. -/
theorem eventPlaced_of_storedFrom (hrows : CaseRows artifacts)
    (h : Pipeline.StoredFrom (AttributedBody artifacts) e) : EventPlaced artifacts e := by
  obtain ⟨body, m, ⟨text, caseId, htext, hbody, c, rfl, hcases⟩, hread, hart, hcase⟩ := h
  have hid : text = m.artifactId := by
    have hfield := (readMessage_eq_some hread).artifactId
    rw [htext] at hfield
    exact Option.some.inj hfield
  have hname : some c = m.caseId := by
    have hfield := (readMessage_eq_some hread).caseId
    rw [hbody, asNullable_nullOr] at hfield
    exact Option.some.inj hfield
  have hown := hcases e.artifactId (hid ▸ hart)
  rw [← hname] at hcase
  exact ⟨c, (Postgres.eq_of_nullable_some hcase).trans (hrows.fit hown), hown⟩

theorem EventPlaced.mono (h : EventPlaced artifacts e)
    (hcases : ∀ {id c}, CaseOf artifacts id c → CaseOf artifacts' id c) :
    EventPlaced artifacts' e := by
  obtain ⟨c, hc, hcase⟩ := h
  exact ⟨c, hc, hcases hcase⟩

theorem AttributedBody.mono {body : Json} (h : AttributedBody artifacts body)
    (hcases : ∀ {id c}, CaseOf artifacts id c → CaseOf artifacts' id c) :
    AttributedBody artifacts' body := by
  obtain ⟨text, caseId, htext, hcase, hattr⟩ := h
  exact ⟨text, caseId, htext, hcase, hattr.mono hcases⟩

/-- An access writes its event under the case of the loaded row. -/
theorem Accesses.attributed {w : Evidence.World} {a : Access} (h : Accesses w a env)
    (ha : AccessPlaced artifacts a) : Attributed artifacts env.artifactId env.caseId := by
  have hevent : env.artifactId = a.request.artifactId ∧ env.caseId = some a.artifact.caseId := by
    cases h with
    | view _ _ _ h => exact Evidence.viewArtifact_ok h
    | download _ _ _ h => exact Evidence.downloadArtifact_ok h
  rw [hevent.1, hevent.2]
  exact attributed_of_parse ha.1 ha.2

/-- A step of the pipeline that brings in nothing, or an event of the case of its artifact. -/
theorem Invariant.pipeline {a : Pipeline.Action} {p : Pipeline.State} (h : Invariant s)
    (hrows : CaseRows s.evidence.world.artifacts)
    (hp : Pipeline.Step fromisoformat s.pipeline a p)
    (hwrite : ∀ row, a = .write row →
      AttributedBody s.evidence.world.artifacts row.payload.value)
    (hpublish : ∀ tag env, a = .publishEvent tag env →
      AttributedBody s.evidence.world.artifacts env.toJson) : Invariant (s.setPipeline p) where
  carried := h.carried.step hp hwrite hpublish
  events e he := by
    rcases h.carried.stored hp he with hold | hnew
    · exact h.events e hold
    · exact eventPlaced_of_storedFrom hrows hnew
  accesses := h.accesses
  reports := h.reports
  requests := h.requests

/-- An event is written as a new row of the outbox. -/
theorem Invariant.write {p : Pipeline.State} {id : Nat} {createdAt : Timestamp} (h : Invariant s)
    (hrows : CaseRows s.evidence.world.artifacts)
    (hp : Pipeline.Step fromisoformat s.pipeline (.write (Pipeline.outboxRow id env createdAt)) p)
    (henv : Attributed s.evidence.world.artifacts env.artifactId env.caseId) :
    Invariant (s.setPipeline p) := by
  refine h.pipeline hrows hp ?_ (by simp)
  rintro _ ⟨⟩
  exact attributedBody_outboxRow henv

theorem Invariant.evidence {u : Evidence.State} (h : Invariant s)
    (hkeeps : KeepsCases s.evidence.world.artifacts u.world.artifacts) :
    Invariant (s.setEvidence u) where
  carried := h.carried.mono fun _ hb => hb.mono hkeeps.cases
  events e he := (h.events e he).mono hkeeps.cases
  accesses i a ha := (h.accesses i a ha).imp_right hkeeps.cases
  reports := ⟨h.reports.ids, fun r hr => (h.reports.placed r hr).mono hkeeps.cases⟩
  requests i r hr := (h.requests i r hr).mono hkeeps.cases (List.Subset.refl _)

theorem Invariant.setAccess {i : RequestId} {a : Option Access} (h : Invariant s)
    (ha : ∀ b, a = some b → AccessPlaced s.evidence.world.artifacts b) :
    Invariant (s.setAccess i a) where
  carried := h.carried
  events := h.events
  accesses j b hb := by
    by_cases hj : j = i
    · subst hj
      exact ha b (by simpa [State.setAccess] using hb)
    · exact h.accesses j b (by simpa [State.setAccess, Function.update_of_ne hj] using hb)
  reports := h.reports
  requests := h.requests

/-- A report request makes a step, and the rows of the others stay. -/
theorem Invariant.setReports {i : RequestId} {r : Reports.ReportRequest} {w : Reports.World}
    (h : Invariant s) (hw : Consistent s.evidence.world.artifacts w.rows)
    (hsub : s.reports.rows ⊆ w.rows)
    (hr : RequestInvariant s.evidence.world.artifacts w.rows r) :
    Invariant ((s.setReports w).setRequest i r) where
  carried := h.carried
  events := h.events
  accesses := h.accesses
  reports := hw
  requests := Table.forall_update (fun j _ q hq => (h.requests j q hq).mono id hsub) hr

theorem Invariant.report {i : RequestId} {r r' : Reports.ReportRequest} {a : Reports.ReportAction}
    {w : Reports.World} {published : Option Envelope} (h : Invariant s)
    (hrows : CaseRows s.evidence.world.artifacts) (hi : s.requests i = some r)
    (hs : Reports.ReportStep s.evidence.world.artifacts s.reports r a w published r') :
    Invariant ((s.setReports w).setRequest i r') := by
  have hr := h.requests i r hi
  obtain ⟨hw, hsub⟩ := hs.consistent hrows h.reports hr
  exact h.setReports hw hsub (hr.step hrows h.reports hs)

theorem Invariant.step (h : Invariant s) (hr : (system fromisoformat keys).Reachable s)
    (hs : Step fromisoformat keys s x t) : Invariant t := by
  have hev := evidence_reachable hr
  have hrows := Evidence.caseRows_reachable hev
  cases hs with
  | evidence hs ho => exact h.evidence (hs.keepsCases hrows)
  | evidenceWrites id createdAt hs ho hp =>
    have hkeeps := hs.keepsCases hrows
    rcases hs.outbox with hsame | ⟨env, hwrites, hout⟩
    · simp [hsame] at ho
    · obtain ⟨_, hlist⟩ := List.append_inj' (hout.symm.trans ho) rfl
      obtain rfl := List.singleton_inj.mp hlist
      exact (h.evidence hkeeps).write hkeeps.rows hp (hwrites.attributed hev hkeeps)
  | load kind request hi ha =>
    refine h.setAccess ?_
    rintro _ ⟨⟩
    obtain ⟨hmem, hparse⟩ := Evidence.requestedArtifact_ok ha
    exact ⟨hparse, .mem hmem⟩
  | access id createdAt hi ha hp =>
    rename_i i a env p
    have hend : Invariant (s.setAccess i none) := h.setAccess (by simp)
    exact hend.write hrows hp (ha.attributed (h.accesses _ _ hi))
  | endAccess => exact h.setAccess (by simp)
  | pipeline ha hp =>
    exact h.pipeline hrows hp (fun row he => (ha.1 row he).elim) fun tag env he =>
      (ha.2 tag env he).elim
  | admitReport call actor corrId ipAddress hi =>
    refine h.setReports (w := s.reports) h.reports (List.Subset.refl _) ?_
    cases call <;> exact rfl
  | report hi hs => exact h.report hrows hi hs
  | reportPublishes tag hi hs hp =>
    refine (h.report hrows hi hs).pipeline hrows hp (by simp) ?_
    rintro _ _ ⟨⟩
    exact attributedBody_toJson ((h.requests _ _ hi).event hs)

theorem invariant_reachable (h : (system fromisoformat keys).Reachable s) : Invariant s := by
  induction h with
  | init h =>
    obtain ⟨_, ha, hp, hrows, _, hr⟩ := h
    refine ⟨Pipeline.carries_initial hp, ?_, by simp [ha], ?_, by simp [hr]⟩
    · obtain ⟨_, _, _, hstore, _⟩ := hp
      simp [hstore]
    · rw [hrows]
      exact ⟨List.nodup_nil, by simp⟩
  | step hr _ hs ih => exact ih.step hr hs

end ForensicChain.Platform
