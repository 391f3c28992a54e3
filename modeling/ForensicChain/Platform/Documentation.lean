import ForensicChain.Evidence.Documentation
import ForensicChain.Platform.EventKinds
import ForensicChain.Platform.Runs

/-!
The custody table against the rows of the collector. An ingested artifact has one event in the
outbox, whatever becomes of its upload afterwards, and what the consumer stores of that event is
what the row holds.
-/
namespace ForensicChain.Platform

open Custody
open Evidence (Artifact ingestedEnvelope ingestedEvents)
open Pipeline (OutboxRow payloads)

variable {fromisoformat : String → Option Timestamp} {keys : HashSign.Signer} {s t : State}
  {x : Action} {env : Envelope} {body : Json} {id : Uuid} {a : Artifact} {e : CustodyEvent}

def IsIngested (body : Json) : Prop :=
  body.field? "event_type" >>= asString = some "EvidenceIngested"

instance : DecidablePred IsIngested := fun body =>
  inferInstanceAs (Decidable (body.field? "event_type" >>= asString = some "EvidenceIngested"))

/-- The rows of the table that hold the `EvidenceIngested` event of an artifact. -/
def ingestedRows (outbox : List OutboxRow) (id : Uuid) : List OutboxRow :=
  outbox.filter fun row => IsIngested row.payload.value ∧
    row.payload.value.field? "artifact_id" >>= asString = some id.str

@[simp]
theorem ofJson_value (body : Json) : (Jsonb.ofJson body).value = body.sortKeys := rfl

@[simp]
theorem isIngested_sortKeys : IsIngested env.toJson.sortKeys ↔
    env.eventType = "EvidenceIngested" := by
  rw [IsIngested, Envelope.toJson_sortKeys]
  simp [Json.field?, asString]

@[simp]
theorem artifact_sortKeys :
    env.toJson.sortKeys.field? "artifact_id" >>= asString = some env.artifactId := by
  rw [Envelope.toJson_sortKeys]
  simp [Json.field?, asString]

/-- The table lists the ingestions in the order of the collector's own outbox. -/
def TableAgrees (s : State) : Prop :=
  (payloads s.pipeline).filter (fun p => IsIngested p.value) =
    (s.evidence.world.outbox.filter fun env => env.eventType = "EvidenceIngested").map
      fun env => Jsonb.ofJson env.toJson

/-- The table and the outbox of the collector grow together, the table also by what is read. -/
theorem Step.outboxes (hs : Step fromisoformat keys s x t) :
    (payloads t.pipeline = payloads s.pipeline ∧
      t.evidence.world.outbox = s.evidence.world.outbox) ∨
    (∃ env, t.evidence.world.outbox = s.evidence.world.outbox ++ [env] ∧
      payloads t.pipeline = payloads s.pipeline ++ [.ofJson env.toJson]) ∨
    ∃ env, kind env ∈ accessKinds ∧ t.evidence.world.outbox = s.evidence.world.outbox ∧
      payloads t.pipeline = payloads s.pipeline ++ [.ofJson env.toJson] := by
  cases hs with
  | evidence hs ho => exact .inl ⟨rfl, ho⟩
  | evidenceWrites id createdAt hs ho hp => exact .inr (.inl ⟨_, ho, Pipeline.payloads_write hp⟩)
  | access id createdAt hi ha hp =>
    exact .inr (.inr ⟨_, ha.kind, rfl, Pipeline.payloads_write hp⟩)
  | pipeline ha hp =>
    rcases Pipeline.payloads_step hp with ⟨hsame, _⟩ | ⟨row, hrow, _⟩
    · exact .inl ⟨hsame, rfl⟩
    · exact (ha.1 row hrow).elim
  | reportPublishes tag hi hs hp =>
    rcases Pipeline.payloads_step hp with ⟨hsame, _⟩ | ⟨row, hrow, _⟩
    · exact .inl ⟨hsame, rfl⟩
    · cases hrow
  | _ => exact .inl ⟨rfl, rfl⟩

theorem not_ingested_of_access (h : kind env ∈ accessKinds) :
    env.eventType ≠ "EvidenceIngested" := by
  intro htype
  simp [kind, accessKinds, htype] at h

theorem TableAgrees.step (h : TableAgrees s) (hs : Step fromisoformat keys s x t) :
    TableAgrees t := by
  unfold TableAgrees at h ⊢
  rcases hs.outboxes with ⟨hpay, hout⟩ | ⟨env, hout, hpay⟩ | ⟨env, hkind, hout, hpay⟩
  · rw [hpay, hout]
    exact h
  · rw [hpay, hout, List.filter_append, List.filter_append, List.map_append, h]
    by_cases htype : env.eventType = "EvidenceIngested"
    · simp only [List.filter_cons, List.filter_nil, ofJson_value, isIngested_sortKeys, htype,
        decide_true, if_true, List.map_cons, List.map_nil]
    · simp only [List.filter_cons, List.filter_nil, ofJson_value, isIngested_sortKeys, htype,
        decide_false, Bool.false_eq_true, if_false, List.map_nil]
  · have htype := not_ingested_of_access hkind
    rw [hpay, hout, List.filter_append, h]
    simp only [List.filter_cons, List.filter_nil, ofJson_value, isIngested_sortKeys, htype,
      decide_false, Bool.false_eq_true, if_false, List.append_nil]

theorem tableAgrees_reachable (h : (system fromisoformat keys).Reachable s) : TableAgrees s := by
  refine h.invariant ?_ fun _ _ _ ih hs => ih.step hs
  rintro s ⟨⟨_, hout, _⟩, _, ⟨hempty, _⟩, _⟩
  simp [TableAgrees, payloads, hout, hempty]

/-- The rows of the table that are about one artifact are those of its events. -/
theorem TableAgrees.rows (h : TableAgrees s) (id : Uuid) :
    (ingestedRows s.pipeline.outbox id).map OutboxRow.payload =
      (ingestedEvents s.evidence.world id).map fun env => Jsonb.ofJson env.toJson := by
  have hleft : (ingestedRows s.pipeline.outbox id).map OutboxRow.payload =
      ((payloads s.pipeline).filter fun p => IsIngested p.value).filter fun p =>
        p.value.field? "artifact_id" >>= asString = some id.str := by
    rw [payloads, List.filter_filter, List.filter_map, ingestedRows]
    simp only [Function.comp_def, Bool.decide_and, Bool.and_comm]
  have hright : ingestedEvents s.evidence.world id =
      (s.evidence.world.outbox.filter fun env => env.eventType = "EvidenceIngested").filter
        fun env => env.artifactId = id.str := by
    rw [List.filter_filter, ingestedEvents]
    simp only [Bool.decide_and, Bool.and_comm]
  rw [hleft, h, hright, List.filter_map]
  simp only [Function.comp_def, ofJson_value, artifact_sortKeys, Option.some.injEq]

/-- A body of one of the types is that of a row of the outbox, and of an event with the property. -/
def FromEvents (types : List String) (Q : Envelope → Prop) (body : Json) : Prop :=
  ∀ type ∈ types, body.field? "event_type" >>= asString = some type →
    ∃ env, Q env ∧ body = env.toJson.sortKeys

theorem FromEvents.mono {types : List String} {Q Q' : Envelope → Prop}
    (h : FromEvents types Q body) (hQ : ∀ env, Q env → Q' env) : FromEvents types Q' body := by
  intro type hmem htype
  obtain ⟨env, henv, hbody⟩ := h type hmem htype
  exact ⟨env, hQ env henv, hbody⟩

/-- Only an event of the types has to be shown to have the property. -/
theorem fromEvents_sortKeys {types : List String} {Q : Envelope → Prop}
    (h : env.eventType ∈ types → Q env) : FromEvents types Q env.toJson.sortKeys := by
  intro type hmem htype
  rw [Envelope.toJson_sortKeys] at htype
  obtain rfl : env.eventType = type := by simpa [Json.field?, asString] using htype
  exact ⟨env, h hmem, rfl⟩

/-- What is published without the outbox is of other types. -/
theorem fromEvents_toJson {types : List String} {Q : Envelope → Prop}
    (h : env.eventType ∉ types) : FromEvents types Q env.toJson := by
  intro type hmem htype
  obtain rfl : env.eventType = type := by
    simpa [Envelope.toJson, Json.field?, asString] using htype
  exact (h hmem).elim

/-- The custody row is that of the event. -/
structure Records (e : CustodyEvent) (env : Envelope) : Prop where
  eventId : e.eventId = env.eventId
  eventType : Postgres.varchar 128 env.eventType = some e.eventType
  artifactId : uuidColumn env.artifactId = some e.artifactId
  actorId : Postgres.varchar 64 env.actorId = some e.actorId
  actorRole : Postgres.varchar 64 env.actorRole = some e.actorRole
  payload : e.payload = some (.ofJson (.obj env.payload))

theorem Step.outbox_subset (hs : Step fromisoformat keys s x t) :
    s.evidence.world.outbox ⊆ t.evidence.world.outbox := by
  rcases hs.outboxes with ⟨_, hout⟩ | ⟨env, hout, _⟩ | ⟨env, _, hout, _⟩
  · rw [hout]
    exact List.Subset.refl _
  · rw [hout]
    exact List.subset_append_left _ _
  · rw [hout]
    exact List.Subset.refl _

theorem Brings.fromOutbox (h : Brings s t x body)
    (hr : ∀ i r, s.requests i = some r → Announces r) :
    FromEvents ["EvidenceIngested"] (· ∈ t.evidence.world.outbox) body := by
  cases h with
  | written hw ho => exact fromEvents_sortKeys fun _ => by simp [ho]
  | accessed hi ha hp =>
    refine fromEvents_sortKeys fun htype => ?_
    exact (not_ingested_of_access ha.kind (List.mem_singleton.mp htype)).elim
  | @published i r r' a w env hi hs =>
    have hkind := kind_of_published (hr _ _ hi) hs
    refine fromEvents_toJson fun htype => ?_
    simp [kind, reportKinds, List.mem_singleton.mp htype] at hkind

/-- What the consumer stores of a body out of the outbox is what its event tells. -/
theorem records_of_inserted {m : Message} {previous : Option String} {hash : String}
    (hread : readMessage env.toJson.sortKeys = some m)
    (hrow : e.Inserted e.id m e.timestamp previous hash) : Records e env := by
  have hfields := readMessage_eq_some hread
  have heventId := hfields.eventId
  have htype := hfields.eventType
  have hart := hfields.artifactId
  have hactor := hfields.actorId
  have hrole := hfields.actorRole
  have hpayload := hfields.payload
  rw [Envelope.toJson_sortKeys] at heventId htype hart hactor hrole hpayload
  simp only [Json.field?, List.find?_cons, beq_self_eq_true, Option.map_some, String.reduceBEq,
    Option.bind_eq_bind, Option.bind_some, asString,
    Option.some.injEq] at heventId htype hart hactor hrole hpayload
  refine ⟨?_, htype ▸ hrow.eventType, hart ▸ hrow.artifactId, hactor ▸ hrow.actorId,
    hrole ▸ hrow.actorRole, ?_⟩
  · have hid := hrow.eventId
    rw [← heventId, uuidColumn_str] at hid
    exact (Option.some.inj hid).symm
  · have hm : m.payload = (Json.obj env.payload).sortKeys := by
      simpa only [Json.sortKeys, asObject, Option.some.injEq, eq_comm] using hpayload
    have hstored := hrow.payload
    rw [hm, Jsonb.store] at hstored
    split_ifs at hstored
    · cases hstored
    · rw [← Option.some.inj hstored]
      exact congrArg some (Jsonb.ext (Json.sortKeys_idem _))

/-- What the custody table tells of the types is what an event tells. -/
theorem Told.records {types : List String} {Q : Envelope → Prop} (h : Told (FromEvents types Q) e)
    (hmem : e.eventType ∈ types) (hlen : ∀ type ∈ types, type.length < 128) :
    ∃ env, Q env ∧ env.eventType = e.eventType ∧ Records e env := by
  obtain ⟨body, m, previous, hash, hbody, hread, hrow⟩ := h
  have hm : e.eventType = m.eventType := Postgres.eq_of_varchar_lt (hlen _ hmem) hrow.eventType
  have htype := (readMessage_eq_some hread).eventType
  obtain ⟨env, henv, rfl⟩ := hbody _ hmem (by rw [hm]; exact htype)
  have hrecords := records_of_inserted hread hrow
  refine ⟨env, henv, ?_, hrecords⟩
  rw [Envelope.toJson_sortKeys] at htype
  have hfield : env.eventType = m.eventType := by simpa [Json.field?, asString] using htype
  exact hfield.trans hm.symm

/-- Every custody row about an ingestion is that of an event of the collector. -/
theorem recordsIngestions_reachable (h : (system fromisoformat keys).Reachable s)
    (he : e ∈ s.pipeline.store.events) (htype : e.eventType = "EvidenceIngested") :
    ∃ env ∈ s.evidence.world.outbox, env.eventType = "EvidenceIngested" ∧ Records e env := by
  have htold := (told_reachable
    (P := fun s => FromEvents ["EvidenceIngested"] (· ∈ s.evidence.world.outbox)) h
    (fun _ _ _ _ hs hbody => hbody.mono fun _ hmem => hs.outbox_subset hmem)
    fun _ _ _ _ hr _ hb => hb.fromOutbox (announces_reachable hr)).2 e he
  obtain ⟨env, henv, heq, hrecords⟩ := htold.records (by simp [htype]) (by decide)
  exact ⟨env, henv, heq.trans htype, hrecords⟩

/-- An ingested artifact has exactly one `EvidenceIngested` row in the outbox, in the words of its
own row, and that event is lost nowhere; the custody table has at most one such event of an
artifact, which tells what the row holds. -/
theorem ingestion_documented (h : (system fromisoformat keys).Reachable s) :
    (∀ a ∈ s.evidence.world.artifacts, a.status = .ingested →
      ∃ i u row eventId timestamp, s.evidence.uploads i = some u ∧ u.artifactId = a.artifactId ∧
        ingestedRows s.pipeline.outbox a.artifactId = [row] ∧
        row.payload = .ofJson (ingestedEnvelope u a eventId timestamp).toJson ∧
        (row.published = true → Pipeline.Delivered s.pipeline row.eventId)) ∧
    (∀ e ∈ s.pipeline.store.events, e.eventType = "EvidenceIngested" →
      ∃ i u a eventId timestamp, s.evidence.uploads i = some u ∧
        a ∈ s.evidence.world.artifacts ∧ u.artifactId = a.artifactId ∧
        a.artifactId = e.artifactId ∧ Records e (ingestedEnvelope u a eventId timestamp)) ∧
    ∀ e ∈ s.pipeline.store.events, ∀ f ∈ s.pipeline.store.events,
      e.eventType = "EvidenceIngested" → f.eventType = "EvidenceIngested" →
      e.artifactId = f.artifactId → e = f := by
  have hev := evidence_reachable h
  have hpipeline := Pipeline.invariant_reachable (pipeline_reachable h)
  have htable := tableAgrees_reachable h
  have hrecorded : ∀ e ∈ s.pipeline.store.events, e.eventType = "EvidenceIngested" →
      ∃ i u a eventId timestamp, s.evidence.uploads i = some u ∧
        a ∈ s.evidence.world.artifacts ∧ u.artifactId = a.artifactId ∧
        a.artifactId = e.artifactId ∧ Records e (ingestedEnvelope u a eventId timestamp) ∧
        ingestedEvents s.evidence.world a.artifactId =
          [ingestedEnvelope u a eventId timestamp] := by
    intro e he htype
    obtain ⟨env, henv, hkind, hrecords⟩ := recordsIngestions_reachable h he htype
    obtain ⟨i, u, a, eventId, timestamp, hu, ha, hau, rfl, hone⟩ :=
      Evidence.row_of_event hev henv hkind
    have hart : uuidColumn a.artifactId.str = some e.artifactId := hrecords.artifactId
    rw [uuidColumn_str] at hart
    exact ⟨i, u, a, eventId, timestamp, hu, ha, hau, Option.some.inj hart, hrecords, hone⟩
  refine ⟨?_, ?_, ?_⟩
  · intro a ha hingested
    obtain ⟨i, u, eventId, timestamp, hu, hau, hone⟩ := Evidence.event_of_row hev ha hingested
    have hrows := htable.rows a.artifactId
    rw [hone] at hrows
    obtain ⟨row, hrow, hpayload⟩ := List.map_eq_singleton_iff.mp hrows
    have hmem : row ∈ s.pipeline.outbox := List.mem_of_mem_filter (hrow ▸ List.mem_singleton_self _)
    exact ⟨i, u, row, eventId, timestamp, hu, hau, hrow, hpayload, hpipeline.rows row hmem⟩
  · intro e he htype
    obtain ⟨i, u, a, eventId, timestamp, hu, ha, hau, hart, hrecords, _⟩ := hrecorded e he htype
    exact ⟨i, u, a, eventId, timestamp, hu, ha, hau, hart, hrecords⟩
  · intro e he f hf htype htype' hsame
    obtain ⟨_, _, a, _, _, _, _, _, hart, hrecords, hone⟩ := hrecorded e he htype
    obtain ⟨_, _, b, _, _, _, _, _, hart', hrecords', hone'⟩ := hrecorded f hf htype'
    have hab : a.artifactId = b.artifactId := hart.trans (hsame.trans hart'.symm)
    rw [hab, hone'] at hone
    have henv := List.singleton_inj.mp hone
    have hid : e.eventId = f.eventId := by
      rw [hrecords.eventId, hrecords'.eventId, ← henv]
    exact List.inj_on_of_nodup_map hpipeline.store.eventIds he hf hid

/-- The first event of the collector is written to the table. -/
theorem collector_wrote_run {w : Evidence.State} (h : (Evidence.system keys).Reachable w)
    (ho : w.world.outbox = [env]) : (system fromisoformat keys).Reachable
      ((State.ofEvidence w).setPipeline
        { Pipeline.State.empty with outbox := [Pipeline.outboxRow 1 env 0] }) := by
  induction h with
  | init h => simp [h.2.1] at ho
  | @step w w' x hr _ hs ih =>
    rcases hs.outbox with hsame | ⟨new, _, hout⟩
    · exact (ih (hsame.symm.trans ho)).step (.evidence hs hsame)
    · rw [ho] at hout
      obtain ⟨hempty, hlist⟩ := List.append_inj' (show [] ++ [env] = _ from hout) rfl
      obtain rfl := List.singleton_inj.mp hlist
      have hwrite : Pipeline.Step fromisoformat (State.ofEvidence w).pipeline
          (.write (Pipeline.outboxRow 1 env 0))
          { Pipeline.State.empty with outbox := [Pipeline.outboxRow 1 env 0] } :=
        .write _ (by simp [State.ofEvidence, Pipeline.State.empty])
          (by simp [State.ofEvidence, Pipeline.State.empty]) rfl
      exact (collector_run hr hempty.symm).step
        (.evidenceWrites 1 0 hs (ho.trans hout) hwrite)

def sampleIngestion : Envelope :=
  ingestedEnvelope ⟨Evidence.sampleRequest, Evidence.sampleId, some 0, .answering⟩
    (Evidence.sampleIngested (.ofNat 3)) (.ofNat 4) "2025-01-01T00:00:01+00:00"

/-- Its payload as the outbox keeps it. -/
def sortedIngestion : Envelope :=
  { sampleIngestion with
    payload := [
      ("artifact_type", .str "disk_image"),
      ("file_name", .str "disk.img"),
      ("file_size", .num (.ofNat 0)),
      ("hash_algorithm", .str "SHA-256"),
      ("hash_value", .str (sha256 [])),
      ("ip_address", .str "10.0.0.1"),
      ("ledger_record_id", .str (Uuid.ofNat 3).str)] }

theorem sortedIngestion_payload :
    (Json.obj sampleIngestion.payload).sortKeys = .obj sortedIngestion.payload := by
  simp only [sampleIngestion, sortedIngestion, ingestedEnvelope, Json.sortKeys, Json.sortMembers,
    nullOr_sortKeys]
  simp [Json.keyLE, nullOr, Evidence.sampleIngested, Evidence.sampleRow, Evidence.sampleRequest]

theorem sortedIngestion_fits :
    sortedIngestion.Fits Evidence.sampleId (.ofNat 2) (some "10.0.0.1") where
  artifactId := uuidColumn_str _
  caseId := by simp only [sortedIngestion, sampleIngestion, ingestedEnvelope]; decide
  actorId := by simp only [sortedIngestion, sampleIngestion, ingestedEnvelope]; decide
  actorRole := by simp only [sortedIngestion, sampleIngestion, ingestedEnvelope]; decide
  eventType := by simp only [sortedIngestion, sampleIngestion, ingestedEnvelope]; decide
  reason := by simp only [sortedIngestion, sampleIngestion, ingestedEnvelope]; decide
  ip := by decide
  correlationId := uuidColumn_str _
  payload := by simp only [sortedIngestion]; decide +kernel
  address := by simp [sortedIngestion, Json.field?]

/-- Both envelopes are kept as the same value. -/
theorem sampleIngestion_sortKeys :
    sampleIngestion.toJson.sortKeys = sortedIngestion.toJson.sortKeys := by
  have hsorted : (Json.obj sortedIngestion.payload).sortKeys = .obj sortedIngestion.payload := by
    rw [← sortedIngestion_payload, Json.sortKeys_idem]
  rw [Envelope.toJson_sortKeys, Envelope.toJson_sortKeys, sortedIngestion_payload, hsorted]
  simp only [sortedIngestion]

/-- The custody row of the event. -/
def sampleIngestionEvent : CustodyEvent :=
  sortedIngestion.event Evidence.sampleId (.ofNat 2) (some "10.0.0.1") 1 63871286401000000 none

theorem sampleIngestion_processed : ∃ text,
    processMessage DateTime.fromisoformat ⟨[], [], []⟩ 1
      (Pipeline.outboxRow 1 sampleIngestion 0).payload.value =
        some ⟨[sampleIngestionEvent], [.ofNat 4], [text]⟩ := by
  have hsorted : (Json.obj sortedIngestion.payload).sortKeys = .obj sortedIngestion.payload := by
    rw [← sortedIngestion_payload, Json.sortKeys_idem]
  have hvalue : (Pipeline.outboxRow 1 sampleIngestion 0).payload.value =
      sortedIngestion.toJson.sortKeys := sampleIngestion_sortKeys
  have ht : DateTime.fromisoformat (Text.replaceChar 'Z' "+00:00" sortedIngestion.timestamp) =
      some 63871286401000000 := by decide
  rw [hvalue, processMessage_sortKeys hsorted]
  exact ⟨_, processMessage_toJson sortedIngestion_fits ht rfl rfl (by simp) (by simp)⟩

/-- The file is ingested, and its event is written. -/
theorem sample_written_run : ∃ w, Evidence.sampleIngested (.ofNat 3) ∈ w.world.artifacts ∧
    (system DateTime.fromisoformat HashSign.plainKeys).Reachable ((State.ofEvidence w).setPipeline
      { Pipeline.State.empty with outbox := [Pipeline.outboxRow 1 sampleIngestion 0] }) := by
  obtain ⟨view, l, happ⟩ :=
    Evidence.sample_appended (fun _ _ ha _ => ha) Ledger.startsNone_commitOk
  have hdone := Evidence.sample_done_run (P := fun _ _ _ => True) (fun _ _ _ _ _ => trivial)
    trivial (fun _ _ _ ha => ⟨ha, fun _ => trivial⟩) happ
  exact ⟨_, List.mem_singleton_self _, collector_wrote_run hdone.of_restrict rfl⟩

/-- The event reaches the custody table. -/
theorem sample_ingestion_run : ∃ s,
    (system DateTime.fromisoformat HashSign.plainKeys).Reachable s ∧
      Evidence.sampleIngested (.ofNat 3) ∈ s.evidence.world.artifacts ∧
      s.pipeline.store.events = [sampleIngestionEvent] := by
  obtain ⟨w, ha, hwrote⟩ := sample_written_run
  obtain ⟨text, hstored⟩ := sampleIngestion_processed
  obtain ⟨p, hpath, hstore, _⟩ := Pipeline.stored_path rfl hstored
  have hrun := pipeline_run hwrote (fun _ _ => id) hpath
  exact ⟨_, hrun, ha, congrArg Store.events hstore⟩

theorem sample_ingestion_documented : ∃ s row,
    (system DateTime.fromisoformat HashSign.plainKeys).Reachable s ∧
    ingestedRows s.pipeline.outbox Evidence.sampleId = [row] ∧
    (row.published = true → Pipeline.Delivered s.pipeline row.eventId) ∧
    sampleIngestionEvent ∈ s.pipeline.store.events ∧
    ∃ u a eventId timestamp, a ∈ s.evidence.world.artifacts ∧
      Records sampleIngestionEvent (ingestedEnvelope u a eventId timestamp) := by
  obtain ⟨s, hs, ha, hevents⟩ := sample_ingestion_run
  obtain ⟨hrow, hrecorded, _⟩ := ingestion_documented hs
  obtain ⟨_, _, row, _, _, _, _, hone, _, hdelivered⟩ := hrow _ ha rfl
  have hmem : sampleIngestionEvent ∈ s.pipeline.store.events := by
    rw [hevents]
    exact List.mem_singleton_self _
  obtain ⟨_, u, a, eventId, timestamp, _, hart, _, _, hrecords⟩ := hrecorded _ hmem rfl
  exact ⟨s, row, hs, hone, hdelivered, hmem, u, a, eventId, timestamp, hart, hrecords⟩

end ForensicChain.Platform
