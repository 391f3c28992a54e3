import ForensicChain.Evidence.AnswerRun
import ForensicChain.Evidence.VerificationInvariant
import ForensicChain.Platform.Disclosure
import ForensicChain.Platform.History

/-!
The audit trail. What the custody table tells of verifications was found by one, what it tells of
readings was read, and a reading whose event was committed is told of for good.
-/
namespace ForensicChain.Platform

open Custody
open Evidence (RequestId Verification VerificationResponse determineResult outcomeEnvelope)
open Pipeline (payloads)

variable {fromisoformat : String → Option Timestamp} {keys : HashSign.Signer} {s t : State}
  {x : Action} {env : Envelope} {body : Json} {e : CustodyEvent} {v v' : Verification}
  {r : VerificationResponse} {i : RequestId}

def outcomeTypes : List String := ["VerificationPassed", "VerificationFailed"]

/-- What stands behind the outcome of a verification, however the ledger has grown since. -/
structure Verdict (keys : HashSign.Signer) (records : List Ledger.LedgerRecord) (v : Verification)
    (r : VerificationResponse) : Prop where
  proof : ∃ q ∈ records, Ledger.IsEvidenceProof v.artifact.artifactId q ∧
    r.originalHash = q.hashValue.getD "" ∧
    r.signatureValid = keys.verifySignature (q.hashValue.getD "") (q.signatureValue.getD "")
  currentHash : r.currentHash = sha256 v.request.content
  result : r.verificationResult =
    determineResult r.ledgerChainValid r.signatureValid r.currentHash r.originalHash

/-- The event tells of a verification that has come to this outcome. -/
def Found (keys : HashSign.Signer) (s : Evidence.State) (env : Envelope) : Prop :=
  ∃ i v r recordId eventId timestamp, s.verifications i = some v ∧
    Uuid.parse v.request.artifactId = some v.artifact.artifactId ∧
    Verdict keys s.world.ledger.records v r ∧ env = outcomeEnvelope v r recordId eventId timestamp

theorem Verdict.mono {records records' : List Ledger.LedgerRecord} (h : Verdict keys records v r)
    (hsub : records ⊆ records') (hrequest : v'.request = v.request)
    (hartifact : v'.artifact = v.artifact) : Verdict keys records' v' r where
  proof := by
    obtain ⟨q, hq, hrest⟩ := h.proof
    exact ⟨q, hsub hq, hartifact ▸ hrest⟩
  currentHash := hrequest ▸ h.currentHash
  result := h.result

theorem Found.mono {s t : Evidence.State} {y : Evidence.Action} (h : Found keys s env)
    (hs : Evidence.Step keys s y t) : Found keys t env := by
  obtain ⟨i, v, r, recordId, eventId, timestamp, hv, hid, hverdict, rfl⟩ := h
  have hsub := hs.grows.records
  rcases hs.verification_next hv with hsame | ⟨_, v', _, hv', hstep⟩
  · exact ⟨i, v, r, recordId, eventId, timestamp, hsame, hid, hverdict.mono hsub rfl rfl, rfl⟩
  · obtain ⟨hrequest, hartifact, _⟩ := hstep.identity
    refine ⟨i, v', r, recordId, eventId, timestamp, hv', by rw [hrequest, hartifact, hid],
      hverdict.mono hsub hrequest hartifact, ?_⟩
    simp only [outcomeEnvelope, hrequest, hartifact]

theorem verdict_of_determined {w : Evidence.World} (h : Evidence.Determined keys w v r) :
    Verdict keys w.ledger.records v r where
  proof := by
    obtain ⟨_, ⟨q, hq, hproof, rfl⟩, horiginal, hsignature⟩ := h.proof
    exact ⟨q, hq, hproof, horiginal, hsignature⟩
  currentHash := h.currentHash
  result := h.verdict

/-- An outcome is written where the verification has determined it. -/
theorem found_of_step {s t : Evidence.State} {y : Evidence.Action}
    (hr : (Evidence.system keys).Reachable t) (hs : Evidence.Step keys s y t)
    (ho : t.world.outbox = s.world.outbox ++ [env]) (htype : env.eventType ∈ outcomeTypes) :
    Found keys t env := by
  have hadded : ∀ {env'}, t.world.outbox = s.world.outbox ++ [env'] → env' = env := by
    intro env' ho'
    exact List.singleton_inj.mp (List.append_cancel_left (ho'.symm.trans ho))
  have hsame : t.world.outbox ≠ s.world.outbox := by simp [ho]
  cases hs with
  | upload hu hs =>
    rcases hs.outbox with hout | ⟨_, _, _, _, _, hout⟩
    · exact (hsame hout).elim
    · simp [← hadded hout, Evidence.ingestedEnvelope, outcomeTypes] at htype
  | @verification i v y w v' hv hs =>
    cases hs with
    | announce eventId timestamp hp hw =>
      rcases hw with rfl | rfl
      · simp [← hadded rfl, Evidence.requestedEnvelope, Evidence.evidenceEnvelope,
          outcomeTypes] at htype
      · exact (hsame rfl).elim
    | @report r recordId w' eventId timestamp hp hw =>
      rcases hw with rfl | rfl
      · obtain rfl := hadded rfl
        have hinv := Evidence.verificationInvariant_reachable hr i _
          (Evidence.State.setVerification_self _ i _)
        exact ⟨i, _, r, recordId, eventId, timestamp, Evidence.State.setVerification_self _ i _,
          hinv.artifact, verdict_of_determined (hinv.determined rfl), rfl⟩
      · exact (hsame rfl).elim
    | _ => exact (hsame rfl).elim
  | _ => exact (hsame rfl).elim

/-- The event of the collector is one of its own steps. -/
theorem Step.evidence_step (hs : Step fromisoformat keys s x t)
    (ho : t.evidence.world.outbox = s.evidence.world.outbox ++ [env]) :
    ∃ y, Evidence.Step keys s.evidence y t.evidence := by
  have hsame : t.evidence.world.outbox ≠ s.evidence.world.outbox := by simp [ho]
  cases hs with
  | evidence hs | evidenceWrites _ _ hs => exact ⟨_, hs⟩
  | _ => exact (hsame rfl).elim

theorem Step.found (hs : Step fromisoformat keys s x t) (h : Found keys s.evidence env) :
    Found keys t.evidence env := by
  cases hs with
  | evidence hs | evidenceWrites _ _ hs => exact h.mono hs
  | _ => exact h

theorem Brings.found (h : Brings s t x body) (hr : (system fromisoformat keys).Reachable s)
    (hs : Step fromisoformat keys s x t) :
    FromEvents outcomeTypes (Found keys t.evidence) body := by
  cases h with
  | written hw ho =>
    obtain ⟨y, hstep⟩ := hs.evidence_step ho
    exact fromEvents_sortKeys (found_of_step (evidence_reachable (hr.step hs)) hstep ho)
  | @accessed i a env hi ha hp =>
    have hkind := ha.kind
    refine fromEvents_sortKeys fun htype => ?_
    simp only [outcomeTypes, List.mem_cons, List.not_mem_nil, or_false] at htype
    rcases htype with htype | htype <;> simp [kind, accessKinds, htype] at hkind
  | @published i r r' a w env hi hp =>
    have hkind := kind_of_published (announces_reachable hr _ _ hi) hp
    refine fromEvents_toJson fun htype => ?_
    simp only [outcomeTypes, List.mem_cons, List.not_mem_nil, or_false] at htype
    rcases htype with htype | htype <;> simp [kind, reportKinds, htype] at hkind

def readingTypes : List String := ["EvidenceViewed", "EvidenceDownloaded"]

/-- Earlier in the run the access was let through, and its event was committed before the answer.
Where that commit fails the handler answers all the same, and leaves no event to account for. -/
inductive Logged (fromisoformat : String → Option Timestamp) (keys : HashSign.Signer)
    (s : State) (a : Access) (env : Envelope) : Prop
  | mk {u v : State} {i : RequestId} (hr : (system fromisoformat keys).Reachable u)
      (hi : u.accesses i = some a) (ha : Accesses u.evidence.world a env)
      (hs : Step fromisoformat keys u (.access i) v)
      (hp : payloads v.pipeline = payloads u.pipeline ++ [.ofJson env.toJson])
      (hpath : (system fromisoformat keys).Path (fun _ _ => True) v s)

variable {a : Access}

theorem Logged.step (h : Logged fromisoformat keys s a env)
    (hs : Step fromisoformat keys s x t) : Logged fromisoformat keys t a env := by
  obtain ⟨hr, hi, ha, hu, hp, hpath⟩ := h
  exact ⟨hr, hi, ha, hu, hp, hpath.step trivial hs⟩

/-- The event that an access has committed is in the outbox for good. -/
theorem Logged.row (h : Logged fromisoformat keys s a env) :
    ∃ row ∈ s.pipeline.outbox, row.eventId = env.eventId ∧ row.payload = .ofJson env.toJson := by
  obtain ⟨hr, _, _, hu, hp, hpath⟩ := h
  have hmem : Jsonb.ofJson env.toJson ∈ payloads s.pipeline :=
    (kept_path (hr.step hu) hpath).payloads.subset
      (hp ▸ List.mem_append_right _ (List.mem_singleton_self _))
  obtain ⟨row, hrow, hpayload⟩ := List.mem_map.mp hmem
  have hnamed := row.named
  rw [hpayload, ofJson_value, Envelope.toJson_sortKeys] at hnamed
  simp only [Json.field?] at hnamed
  exact ⟨row, hrow, Uuid.str_injective (by simpa using hnamed.symm), hpayload⟩

theorem Brings.logged (h : Brings s t x body) (hr : (system fromisoformat keys).Reachable s)
    (hs : Step fromisoformat keys s x t) :
    FromEvents readingTypes (fun env => ∃ a, Logged fromisoformat keys t a env) body := by
  cases h with
  | @written y env hw ho =>
    refine fromEvents_sortKeys fun htype => ?_
    simp only [readingTypes, List.mem_cons, List.not_mem_nil, or_false] at htype
    rcases kind_of_writes hw with hkind | hkind
    · rcases htype with htype | htype <;> simp [kind, ingestedKind, htype] at hkind
    · rcases htype with htype | htype <;> simp [kind, verificationKinds, htype] at hkind
  | accessed hi ha hp => exact fromEvents_sortKeys fun _ => ⟨_, hr, hi, ha, hs, hp, .refl⟩
  | @published i r r' a w env hi hp =>
    have hkind := kind_of_published (announces_reachable hr _ _ hi) hp
    refine fromEvents_toJson fun htype => ?_
    simp only [readingTypes, List.mem_cons, List.not_mem_nil, or_false] at htype
    rcases htype with htype | htype <;> simp [kind, reportKinds, htype] at hkind

/-- A reading whose event was committed is in the outbox for good, and once the row is published the
event is lost nowhere; and every reading that the custody table tells has been let through, of this
artifact and by this actor. -/
theorem readings_accounted (h : (system fromisoformat keys).Reachable s) :
    (∀ a env, Logged fromisoformat keys s a env →
      ∃ row ∈ s.pipeline.outbox, row.eventId = env.eventId ∧ row.payload = .ofJson env.toJson ∧
        (row.published = true → Pipeline.Delivered s.pipeline env.eventId)) ∧
    ∀ e ∈ s.pipeline.store.events, e.eventType ∈ readingTypes →
      ∃ a env, Logged fromisoformat keys s a env ∧ Records e env ∧
        a.artifact.artifactId = e.artifactId ∧
        Postgres.varchar 64 a.request.actor.actorId = some e.actorId ∧
        (e.eventType = "EvidenceDownloaded" ↔ a.kind = .download) := by
  refine ⟨fun a env ha => ?_, fun e he htype => ?_⟩
  · obtain ⟨row, hrow, hid, hpayload⟩ := ha.row
    refine ⟨row, hrow, hid, hpayload, fun hpublished => ?_⟩
    rw [← hid]
    exact (Pipeline.invariant_reachable (pipeline_reachable h)).rows row hrow hpublished
  · have htold := (told_reachable (P := fun s => FromEvents readingTypes
      fun env => ∃ a, Logged fromisoformat keys s a env) h
      (fun _ _ _ _ hs hbody => hbody.mono fun _ ⟨a, ha⟩ => ⟨a, ha.step hs⟩)
      fun _ _ _ _ hr hs hb => hb.logged hr hs).2 e he
    obtain ⟨env, ⟨a, hlogged⟩, heq, hrecords⟩ := htold.records htype (by decide)
    obtain ⟨hr, hi, ha, _⟩ := id hlogged
    obtain ⟨_, _, k, _, _, rfl, hkind⟩ := ha.event
    have hplaced := (invariant_reachable hr).accesses _ _ hi
    have hcolumn := uuidColumn_parse hrecords.artifactId
    exact ⟨a, _, hlogged, hrecords, Option.some.inj (hplaced.1.symm.trans hcolumn),
      hrecords.actorId, heq ▸ hkind⟩

/-- The row of the sample upload has been viewed. -/
theorem sample_reading_accounted : ∃ s a env row,
    (system DateTime.fromisoformat HashSign.plainKeys).Reachable s ∧
    viewedEvent (.ofNat 3) "2025-01-31T10:00:00+00:00" 63873914400000000 ∈
      s.pipeline.store.events ∧
    Logged DateTime.fromisoformat HashSign.plainKeys s a env ∧
    a.artifact.artifactId = sampleArtifact ∧ row ∈ s.pipeline.outbox ∧
    row.payload = .ofJson env.toJson := by
  obtain ⟨p, text, hrun, hstore, _⟩ := sample_viewed_run
  have hmem : viewedEvent (.ofNat 3) "2025-01-31T10:00:00+00:00" 63873914400000000 ∈
      ((State.ofEvidence sampleCollector).setPipeline p).pipeline.store.events := by
    show _ ∈ p.store.events
    rw [hstore]
    exact List.mem_singleton_self _
  obtain ⟨hrows, htold⟩ := readings_accounted hrun
  obtain ⟨a, env, hlogged, _, hid, _⟩ := htold _ hmem List.mem_cons_self
  obtain ⟨row, hrow, _, hpayload, _⟩ := hrows a env hlogged
  exact ⟨_, a, env, row, hrun, hmem, hlogged, hid, hrow, hpayload⟩

end ForensicChain.Platform
