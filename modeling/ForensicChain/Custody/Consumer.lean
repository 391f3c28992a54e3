import ForensicChain.Custody.Models
import ForensicChain.Library.Text
import ForensicChain.Library.TransitionSystem

/-!
`_process_message`: one event is linked to the last one of its artifact, hashed and stored. The
consumer handles one message at a time and nothing else writes its database, so a message is
processed in one step; whatever raises on the way rolls the step back.
-/
namespace ForensicChain.Custody

/-- Committed rows of both tables in the order of their commits. `hashed` lists the texts that
were hashed for them, which no table keeps. -/
structure Store where
  events : List CustodyEvent
  processed : List Uuid
  hashed : List String

/-- The rows of one artifact. -/
def artifactEvents (events : List CustodyEvent) (artifactId : Uuid) : List CustodyEvent :=
  events.filter fun e => e.artifactId = artifactId

/-- `ORDER BY timestamp DESC, id DESC LIMIT 1`. -/
def getLastEventHash (events : List CustodyEvent) (artifactId : Uuid) : Option String :=
  ((artifactEvents events artifactId).insertionSort
    (OrderBy.Desc CustodyEvent.timestamp CustodyEvent.id)).head?.map CustodyEvent.eventHash

section

-- `datetime.fromisoformat`, as the instant that is stored; `none` is an exception.
variable (fromisoformat : String → Option Timestamp)

/-- The timestamp of a message. -/
def messageTime (m : Message) : Option Timestamp :=
  fromisoformat (Text.replaceChar 'Z' "+00:00" m.timestamp)

/-- `_process_message` with the id that the new row gets; `none` is an exception. -/
def processMessage (s : Store) (id : Nat) (body : Json) : Option Store := do
  let eventId ← body.field? "event_id"
  let _ ← body.field? "artifact_id"
  let eventUuid ← asString eventId >>= uuidColumn
  if eventUuid ∈ s.processed then
    some s
  else
    let m ← readMessage body
    let artifactUuid ← uuidColumn m.artifactId
    let previousHash := getLastEventHash s.events artifactUuid
    let eventContent := buildEventContent m previousHash
    let eventHash := computeEventHash eventContent
    let timestamp ← messageTime fromisoformat m
    let event ← insertCustodyEvent id m timestamp previousHash eventHash
    -- the unique key on custody_events.event_id
    guard (event.eventId ∉ s.events.map CustodyEvent.eventId)
    some {
      events := s.events ++ [event]
      processed := s.processed ++ [eventUuid]
      hashed := eventContent.dumps :: s.hashed }

/-- A delivered body, and the id that a new row gets for it. -/
structure Delivery where
  id : Nat
  body : Json

/-- Messages are processed one after another; ids grow with each insert. -/
def consumer : TransitionSystem Store Delivery where
  init s := s = ⟨[], [], []⟩
  step s d s' :=
    (∀ e ∈ s.events, e.id < d.id) ∧ processMessage fromisoformat s d.id d.body = some s'

end

variable {fromisoformat : String → Option Timestamp} {s t : Store} {id : Nat} {body : Json}
  {m : Message} {e : CustodyEvent}

/-- What a processed message leaves: nothing new, or one linked row under a new event id. -/
inductive Processed (fromisoformat : String → Option Timestamp) (s : Store) (id : Nat)
    (body : Json) : Store → Prop
  | duplicate {u : Uuid} (hb : body.field? "event_id" >>= asString >>= uuidColumn = some u)
      (hp : u ∈ s.processed) : Processed fromisoformat s id body s
  | stored {m : Message} {e : CustodyEvent}
      (hb : body.field? "event_id" >>= asString >>= uuidColumn = some e.eventId)
      (hm : readMessage body = some m)
      (ht : messageTime fromisoformat m = some e.timestamp)
      (hi : insertCustodyEvent id m e.timestamp (getLastEventHash s.events e.artifactId)
        (computeEventHash (buildEventContent m (getLastEventHash s.events e.artifactId))) = some e)
      (hp : e.eventId ∉ s.processed) (hu : e.eventId ∉ s.events.map CustodyEvent.eventId) :
      Processed fromisoformat s id body
        ⟨s.events ++ [e], s.processed ++ [e.eventId],
          (buildEventContent m (getLastEventHash s.events e.artifactId)).dumps :: s.hashed⟩

/-- The fields of a message are those of its body. -/
structure Message.ReadFrom (m : Message) (body : Json) : Prop where
  eventId : body.field? "event_id" >>= asString = some m.eventId
  eventType : body.field? "event_type" >>= asString = some m.eventType
  artifactId : body.field? "artifact_id" >>= asString = some m.artifactId
  caseId : asNullable (body.field? "case_id") = some m.caseId
  actorId : body.field? "actor_id" >>= asString = some m.actorId
  actorRole : body.field? "actor_role" >>= asString = some m.actorRole
  timestamp : body.field? "timestamp" >>= asString = some m.timestamp
  reason : asNullable (body.field? "reason") = some m.reason
  ipAddress : asNullable (m.payload.field? "ip_address") = some m.ipAddress
  correlationId : asNullable (body.field? "correlation_id") = some m.correlationId
  payload : asObject (body.field? "payload") = some m.payload

theorem readMessage_eq_some (h : readMessage body = some m) : m.ReadFrom body := by
  obtain ⟨payload, hpayload, h⟩ := Option.bind_eq_some_iff.mp h
  obtain ⟨eventId, heid, h⟩ := Option.bind_eq_some_iff.mp h
  obtain ⟨eventType, htype, h⟩ := Option.bind_eq_some_iff.mp h
  obtain ⟨artifactId, hart, h⟩ := Option.bind_eq_some_iff.mp h
  obtain ⟨caseId, hcase, h⟩ := Option.bind_eq_some_iff.mp h
  obtain ⟨actorId, hactor, h⟩ := Option.bind_eq_some_iff.mp h
  obtain ⟨actorRole, hrole, h⟩ := Option.bind_eq_some_iff.mp h
  obtain ⟨timestamp, htime, h⟩ := Option.bind_eq_some_iff.mp h
  obtain ⟨reason, hreason, h⟩ := Option.bind_eq_some_iff.mp h
  obtain ⟨ipAddress, hip, h⟩ := Option.bind_eq_some_iff.mp h
  obtain ⟨correlationId, hcorr, h⟩ := Option.bind_eq_some_iff.mp h
  obtain rfl := Option.some.inj h
  exact ⟨heid, htype, hart, hcase, hactor, hrole, htime, hreason, hip, hcorr, hpayload⟩

/-- The columns of an inserted row take the fields of its message. -/
structure CustodyEvent.Inserted (e : CustodyEvent) (id : Nat) (m : Message)
    (timestamp : Timestamp) (previousEventHash : Option String) (eventHash : String) : Prop where
  id : e.id = id
  eventId : uuidColumn m.eventId = some e.eventId
  artifactId : uuidColumn m.artifactId = some e.artifactId
  caseId : Postgres.nullable (Postgres.varchar 64) m.caseId = some e.caseId
  actorId : Postgres.varchar 64 m.actorId = some e.actorId
  actorRole : Postgres.varchar 64 m.actorRole = some e.actorRole
  eventType : Postgres.varchar 128 m.eventType = some e.eventType
  timestamp : e.timestamp = timestamp
  reason : Postgres.nullable Postgres.text m.reason = some e.reason
  ipAddress : Postgres.nullable (Postgres.varchar 64) m.ipAddress = some e.ipAddress
  correlationId : uuidOrNull m.correlationId = some e.correlationId
  payload : (Jsonb.store m.payload).map some = some e.payload
  previousEventHash :
    Postgres.nullable (Postgres.varchar 256) previousEventHash = some e.previousEventHash
  eventHash : Postgres.varchar 256 eventHash = some e.eventHash

theorem insertCustodyEvent_eq_some {timestamp : Timestamp} {p : Option String} {h : String}
    (hi : insertCustodyEvent id m timestamp p h = some e) : e.Inserted id m timestamp p h := by
  obtain ⟨eventId, heid, hi⟩ := Option.bind_eq_some_iff.mp hi
  obtain ⟨artifactId, hart, hi⟩ := Option.bind_eq_some_iff.mp hi
  obtain ⟨caseId, hcase, hi⟩ := Option.bind_eq_some_iff.mp hi
  obtain ⟨actorId, hactor, hi⟩ := Option.bind_eq_some_iff.mp hi
  obtain ⟨actorRole, hrole, hi⟩ := Option.bind_eq_some_iff.mp hi
  obtain ⟨eventType, htype, hi⟩ := Option.bind_eq_some_iff.mp hi
  obtain ⟨reason, hreason, hi⟩ := Option.bind_eq_some_iff.mp hi
  obtain ⟨ipAddress, hip, hi⟩ := Option.bind_eq_some_iff.mp hi
  obtain ⟨correlationId, hcorr, hi⟩ := Option.bind_eq_some_iff.mp hi
  obtain ⟨payload, hpayload, hi⟩ := Option.bind_eq_some_iff.mp hi
  obtain ⟨previous, hprev, hi⟩ := Option.bind_eq_some_iff.mp hi
  obtain ⟨hash, hhash, hi⟩ := Option.bind_eq_some_iff.mp hi
  obtain rfl := Option.some.inj hi
  exact ⟨rfl, heid, hart, hcase, hactor, hrole, htype, rfl, hreason, hip, hcorr,
    congrArg (Option.map some) hpayload, hprev, hhash⟩

theorem processMessage_eq_some (h : processMessage fromisoformat s id body = some t) :
    Processed fromisoformat s id body t := by
  simp only [processMessage, bind, Option.bind_eq_some_iff] at h
  obtain ⟨eventId, heid, _, _, eventUuid, ⟨text, htext, huuid⟩, h⟩ := h
  have hb : body.field? "event_id" >>= asString >>= uuidColumn = some eventUuid := by
    simp [heid, htext, huuid]
  split_ifs at h with hp
  · obtain rfl := Option.some.inj h
    exact .duplicate hb hp
  · simp only [Option.bind_eq_some_iff] at h
    obtain ⟨m, hm, artifactUuid, hart, timestamp, htime, e, hins, _, hguard, h⟩ := h
    have hu : e.eventId ∉ s.events.map CustodyEvent.eventId := by
      simpa [guard, Option.isSome_iff_exists] using hguard
    have hrow := insertCustodyEvent_eq_some hins
    have htexts : text = m.eventId := by
      have hread := (readMessage_eq_some hm).eventId
      simpa [heid, htext] using hread
    obtain rfl : e.eventId = eventUuid := by
      rw [htexts, hrow.eventId] at huuid
      exact Option.some.inj huuid
    obtain rfl : e.artifactId = artifactUuid := Option.some.inj (hrow.artifactId.symm.trans hart)
    obtain rfl := hrow.timestamp
    obtain rfl := Option.some.inj h
    exact .stored hb hm htime hins hp hu

/-- Nothing that was processed is forgotten. -/
theorem Processed.processed_subset (h : Processed fromisoformat s id body t) :
    s.processed ⊆ t.processed := by
  cases h with
  | duplicate => exact List.Subset.refl _
  | stored => exact List.subset_append_left _ _

/-- Afterwards the event that the body names is processed. -/
theorem Processed.mem_processed {u : Uuid} (h : Processed fromisoformat s id body t)
    (hu : body.field? "event_id" >>= asString >>= uuidColumn = some u) : u ∈ t.processed := by
  cases h with
  | duplicate hb hp =>
    obtain rfl := Option.some.inj (hb.symm.trans hu)
    exact hp
  | stored hb =>
    obtain rfl := Option.some.inj (hb.symm.trans hu)
    exact List.mem_append_right _ List.mem_cons_self

/-- The event hash of a row comes from a hashed text that names the row's event id. -/
def HashedFor (hashed : List String) (e : CustodyEvent) : Prop :=
  ∃ m p, (buildEventContent m p).dumps ∈ hashed ∧ uuidColumn m.eventId = some e.eventId ∧
    e.eventHash = computeEventHash (buildEventContent m p)

/-- What holds of the custody tables after any number of messages. -/
structure StoreInvariant (s : Store) : Prop where
  ids : s.events.Pairwise fun e f => e.id < f.id
  eventIds : (s.events.map CustodyEvent.eventId).Nodup
  processed : s.processed = s.events.map CustodyEvent.eventId
  hashed : ∀ e ∈ s.events, HashedFor s.hashed e

theorem HashedFor.mono {h k : List String} (hf : HashedFor h e) (hk : h ⊆ k) : HashedFor k e := by
  obtain ⟨m, p, hm, hrest⟩ := hf
  exact ⟨m, p, hk hm, hrest⟩

theorem StoreInvariant.step (h : StoreInvariant s) (hid : ∀ e ∈ s.events, e.id < id)
    (hp : Processed fromisoformat s id body t) : StoreInvariant t := by
  cases hp with
  | duplicate hb hp => exact h
  | stored hb hm ht hi hp hu =>
    rename_i m e
    have hrow := insertCustodyEvent_eq_some hi
    constructor
    · simp only [List.pairwise_append, List.mem_singleton, forall_eq]
      exact ⟨h.ids, List.pairwise_singleton _ _, fun f hf => hrow.id ▸ hid f hf⟩
    · simp only [List.map_append, List.map_cons, List.map_nil]
      exact h.eventIds.append (List.nodup_singleton _) (by simpa using hu)
    · simp [h.processed]
    · intro f hf
      rcases List.mem_append.mp hf with hf | hf
      · exact (h.hashed f hf).mono (List.subset_cons_self _ _)
      · obtain rfl := List.mem_singleton.mp hf
        refine ⟨m, _, List.mem_cons_self, hrow.eventId, ?_⟩
        exact Postgres.eq_of_varchar (by simp [computeEventHash]) hrow.eventHash

theorem storeInvariant_reachable (h : (consumer fromisoformat).Reachable s) : StoreInvariant s := by
  apply h.invariant
  · rintro _ rfl
    exact ⟨List.Pairwise.nil, List.nodup_nil, rfl, by simp⟩
  · rintro s d t hs ⟨hid, hp⟩
    exact hs.step hid (processMessage_eq_some hp)

/-- Distinct events have distinct hashes. -/
theorem StoreInvariant.eventHash_inj (h : StoreInvariant s) (hcf : CollisionFree {x | x ∈ s.hashed})
    {f : CustodyEvent} (he : e ∈ s.events) (hf : f ∈ s.events) (heq : e.eventHash = f.eventHash) :
    e = f := by
  obtain ⟨m, p, hm, hme, hmh⟩ := h.hashed e he
  obtain ⟨n, q, hn, hnf, hnh⟩ := h.hashed f hf
  have htext := hcf hm hn (hmh.symm.trans (heq.trans hnh))
  rw [eventId_eq_of_dumps_eq htext, hnf] at hme
  exact List.inj_on_of_nodup_map h.eventIds he hf (Option.some.inj hme).symm

end ForensicChain.Custody
