import ForensicChain.Custody.Consumer

/-! The envelopes that the evidence collector and the audit reporter publish. -/
namespace ForensicChain.Custody

/-- One layout for both publishers; `payload` holds the members of an object. -/
structure Envelope where
  eventId : Uuid
  eventType : String
  routingKey : String
  artifactId : String
  caseId : Option String
  actorId : String
  actorRole : String
  timestamp : String
  correlationId : String
  reason : String
  payload : List (String × Json)

def Envelope.toJson (env : Envelope) : Json :=
  .obj [
    ("event_id", .str env.eventId.str),
    ("event_type", .str env.eventType),
    ("routing_key", .str env.routingKey),
    ("artifact_id", .str env.artifactId),
    ("case_id", nullOr env.caseId),
    ("actor_id", .str env.actorId),
    ("actor_role", .str env.actorRole),
    ("timestamp", .str env.timestamp),
    ("correlation_id", .str env.correlationId),
    ("reason", .str env.reason),
    ("payload", .obj env.payload)]

/-- What the consumer reads from an envelope whose address is `ipAddress`. -/
def Envelope.message (env : Envelope) (ipAddress : Option String) : Message where
  eventId := env.eventId.str
  eventType := env.eventType
  artifactId := env.artifactId
  caseId := env.caseId
  actorId := env.actorId
  actorRole := env.actorRole
  timestamp := env.timestamp
  reason := some env.reason
  ipAddress := ipAddress
  correlationId := some env.correlationId
  payload := .obj env.payload

@[simp]
theorem asNullable_str (s : String) : asNullable (some (.str s)) = some (some s) := by
  simp [asNullable, asString]

@[simp]
theorem asNullable_nullOr (o : Option String) : asNullable (some (nullOr o)) = some o := by
  cases o with
  | none => rfl
  | some s => exact asNullable_str s

theorem readMessage_toJson {env : Envelope} {ipAddress : Option String}
    (hip : asNullable (Json.field? (.obj env.payload) "ip_address") = some ipAddress) :
    readMessage env.toJson = some (env.message ipAddress) := by
  simp only [Json.field?] at hip
  simp [readMessage, Envelope.toJson, Json.field?, asObject, asString, Envelope.message, hip]

/-- The columns take the fields of an envelope as they are given. -/
structure Envelope.Fits (env : Envelope) (artifactId correlationId : Uuid)
    (ipAddress : Option String) : Prop where
  artifactId : uuidColumn env.artifactId = some artifactId
  caseId : Postgres.nullable (Postgres.varchar 64) env.caseId = some env.caseId
  actorId : Postgres.varchar 64 env.actorId = some env.actorId
  actorRole : Postgres.varchar 64 env.actorRole = some env.actorRole
  eventType : Postgres.varchar 128 env.eventType = some env.eventType
  reason : Postgres.text env.reason = some env.reason
  ip : Postgres.nullable (Postgres.varchar 64) ipAddress = some ipAddress
  correlationId : uuidColumn env.correlationId = some correlationId
  payload : (Json.obj env.payload).hasNul = false
  address : asNullable (Json.field? (.obj env.payload) "ip_address") = some ipAddress

/-- The row that is stored for an envelope. -/
def Envelope.event (env : Envelope) (artifactId correlationId : Uuid) (ipAddress : Option String)
    (id : Nat) (timestamp : Timestamp) (previousHash : Option String) : CustodyEvent where
  id := id
  eventId := env.eventId
  artifactId := artifactId
  caseId := env.caseId
  actorId := env.actorId
  actorRole := env.actorRole
  eventType := env.eventType
  timestamp := timestamp
  reason := some env.reason
  ipAddress := ipAddress
  correlationId := some correlationId
  payload := some (.ofJson (.obj env.payload))
  previousEventHash := previousHash
  eventHash := computeEventHash (buildEventContent (env.message ipAddress) previousHash)

theorem uuidColumn_str (u : Uuid) : uuidColumn u.str = some u := by
  have hdigits : (u.str.toList.filter (· ≠ '-')).length = 32 := by
    rw [Uuid.filter_str, Uuid.hexDigits_length]
  rw [uuidColumn, u.str_length, u.readHex_filter_str, if_pos ⟨by decide, by decide, hdigits⟩,
    Option.bind_some, dif_pos u.lt]

variable {fromisoformat : String → Option Timestamp} {s : Store} {id : Nat} {env : Envelope}
  {artifactId correlationId : Uuid} {ipAddress previousHash : Option String}
  {timestamp : Timestamp}

theorem insertCustodyEvent_message (hf : env.Fits artifactId correlationId ipAddress)
    (hd : Postgres.nullable (Postgres.varchar 256) previousHash = some previousHash) :
    insertCustodyEvent id (env.message ipAddress) timestamp previousHash
        (computeEventHash (buildEventContent (env.message ipAddress) previousHash)) =
      some (env.event artifactId correlationId ipAddress id timestamp previousHash) := by
  have hreason : Postgres.nullable Postgres.text (some env.reason) = some (some env.reason) := by
    simp [Postgres.nullable, hf.reason]
  simp only [insertCustodyEvent, Envelope.message, uuidColumn_str, hf.artifactId, hf.caseId,
    hf.actorId, hf.actorRole, hf.eventType, hreason, hf.ip, uuidOrNull, hf.correlationId,
    Jsonb.store, hf.payload, hd, computeEventHash, Ledger.varchar_sha256Text,
    Option.bind_eq_bind, Option.bind_some, Option.map_some, Bool.false_eq_true, if_false]
  rfl

/-- An envelope that fits is stored when its event is new. -/
theorem processMessage_toJson (hf : env.Fits artifactId correlationId ipAddress)
    (ht : fromisoformat (Text.replaceChar 'Z' "+00:00" env.timestamp) = some timestamp)
    (hl : getLastEventHash s.events artifactId = previousHash)
    (hd : Postgres.nullable (Postgres.varchar 256) previousHash = some previousHash)
    (hp : env.eventId ∉ s.processed) (hu : env.eventId ∉ s.events.map CustodyEvent.eventId) :
    processMessage fromisoformat s id env.toJson = some
      { events := s.events ++
          [env.event artifactId correlationId ipAddress id timestamp previousHash]
        processed := s.processed ++ [env.eventId]
        hashed := (buildEventContent (env.message ipAddress) previousHash).dumps :: s.hashed } := by
  have heid : env.toJson.field? "event_id" = some (.str env.eventId.str) := by
    simp [Envelope.toJson, Json.field?]
  have haid : env.toJson.field? "artifact_id" = some (.str env.artifactId) := by
    simp [Envelope.toJson, Json.field?]
  have htime : messageTime fromisoformat (env.message ipAddress) = some timestamp := ht
  have hart : uuidColumn (env.message ipAddress).artifactId = some artifactId := hf.artifactId
  have hnew : (env.event artifactId correlationId ipAddress id timestamp previousHash).eventId ∉
      s.events.map CustodyEvent.eventId := hu
  simp only [processMessage, heid, haid, asString, uuidColumn_str, hp,
    readMessage_toJson hf.address, hart, hl, htime, insertCustodyEvent_message hf hd, guard, hnew,
    if_true, if_false, not_false_eq_true, Option.bind_eq_bind, Option.bind_some, Option.pure_def]

/-- A stored envelope has its members in the order of their keys. -/
theorem Envelope.toJson_sortKeys : env.toJson.sortKeys = .obj [
    ("actor_id", .str env.actorId),
    ("actor_role", .str env.actorRole),
    ("artifact_id", .str env.artifactId),
    ("case_id", nullOr env.caseId),
    ("correlation_id", .str env.correlationId),
    ("event_id", .str env.eventId.str),
    ("event_type", .str env.eventType),
    ("payload", (Json.obj env.payload).sortKeys),
    ("reason", .str env.reason),
    ("routing_key", .str env.routingKey),
    ("timestamp", .str env.timestamp)] := by
  simp only [Envelope.toJson, Json.sortKeys, Json.sortMembers, nullOr_sortKeys]
  simp [Json.keyLE]

/-- The consumer handles a stored envelope as the envelope itself. -/
theorem processMessage_sortKeys (hs : (Json.obj env.payload).sortKeys = .obj env.payload) :
    processMessage fromisoformat s id env.toJson.sortKeys =
      processMessage fromisoformat s id env.toJson := by
  have hread : readMessage env.toJson.sortKeys = readMessage env.toJson := by
    rw [Envelope.toJson_sortKeys, hs]
    simp [readMessage, Envelope.toJson, Json.field?]
  have heid : env.toJson.sortKeys.field? "event_id" = env.toJson.field? "event_id" := by
    rw [Envelope.toJson_sortKeys]
    simp [Envelope.toJson, Json.field?]
  have haid : env.toJson.sortKeys.field? "artifact_id" = env.toJson.field? "artifact_id" := by
    rw [Envelope.toJson_sortKeys]
    simp [Envelope.toJson, Json.field?]
  simp only [processMessage, hread, heid, haid]

def sampleArtifact : Uuid := .ofNat 1

def sampleCorrelation : Uuid := .ofNat 2

/-- An event of the evidence collector. -/
def viewedEnvelope (eventId : Uuid) (timestamp : String) : Envelope where
  eventId := eventId
  eventType := "EvidenceViewed"
  routingKey := "forensicchain.evidence.viewed"
  artifactId := sampleArtifact.str
  caseId := some "CASE-2025-001"
  actorId := "reviewer01"
  actorRole := "legal_reviewer"
  timestamp := timestamp
  correlationId := sampleCorrelation.str
  reason := "Evidence metadata accessed"
  payload := [("ip_address", .str "10.0.0.1")]

/-- An event of the audit reporter. -/
def downloadedEnvelope (eventId : Uuid) (timestamp : String) : Envelope where
  eventId := eventId
  eventType := "ReportDownloaded"
  routingKey := "forensicchain.report.downloaded"
  artifactId := sampleArtifact.str
  caseId := some "CASE-2025-001"
  actorId := "reviewer01"
  actorRole := "legal_reviewer"
  timestamp := timestamp
  correlationId := sampleCorrelation.str
  reason := "Report downloaded by user"
  payload := [("ip_address", .str "10.0.0.1")]

theorem viewedEnvelope_fits (eventId : Uuid) (timestamp : String) :
    (viewedEnvelope eventId timestamp).Fits sampleArtifact sampleCorrelation (some "10.0.0.1") where
  artifactId := uuidColumn_str _
  caseId := by simp only [viewedEnvelope]; decide
  actorId := by simp only [viewedEnvelope]; decide
  actorRole := by simp only [viewedEnvelope]; decide
  eventType := by simp only [viewedEnvelope]; decide
  reason := by simp only [viewedEnvelope]; decide
  ip := by decide
  correlationId := uuidColumn_str _
  payload := by simp only [viewedEnvelope]; decide
  address := by simp [viewedEnvelope, Json.field?]

theorem downloadedEnvelope_fits (eventId : Uuid) (timestamp : String) :
    (downloadedEnvelope eventId timestamp).Fits sampleArtifact sampleCorrelation
      (some "10.0.0.1") where
  artifactId := uuidColumn_str _
  caseId := by simp only [downloadedEnvelope]; decide
  actorId := by simp only [downloadedEnvelope]; decide
  actorRole := by simp only [downloadedEnvelope]; decide
  eventType := by simp only [downloadedEnvelope]; decide
  reason := by simp only [downloadedEnvelope]; decide
  ip := by decide
  correlationId := uuidColumn_str _
  payload := by simp only [downloadedEnvelope]; decide
  address := by simp [downloadedEnvelope, Json.field?]

/-- The row of the first event of the artifact. -/
def viewedEvent (eventId : Uuid) (timestamp : String) (time : Timestamp) : CustodyEvent :=
  (viewedEnvelope eventId timestamp).event sampleArtifact sampleCorrelation (some "10.0.0.1") 1
    time none

theorem viewed_processed (eventId : Uuid) {timestamp : String} {time : Timestamp}
    (ht : fromisoformat (Text.replaceChar 'Z' "+00:00" timestamp) = some time) :
    ∃ text, processMessage fromisoformat ⟨[], [], []⟩ 1 (viewedEnvelope eventId timestamp).toJson =
      some ⟨[viewedEvent eventId timestamp time], [eventId], [text]⟩ :=
  ⟨_, processMessage_toJson (viewedEnvelope_fits eventId timestamp) ht rfl rfl (by simp) (by simp)⟩

def viewedId : Uuid := .ofNat 3

def downloadedId : Uuid := .ofNat 4

/-- The second event, linked to the first. -/
def downloadedEvent (timestamp : String) (time : Timestamp) (previousHash : String) :
    CustodyEvent :=
  (downloadedEnvelope downloadedId timestamp).event sampleArtifact sampleCorrelation
    (some "10.0.0.1") 2 time (some previousHash)

variable {viewed downloaded : String} {first second : Timestamp}

theorem getLastEventHash_viewed :
    getLastEventHash [viewedEvent viewedId viewed first] sampleArtifact =
      some (viewedEvent viewedId viewed first).eventHash := by
  simp [getLastEventHash, artifactEvents, viewedEvent, Envelope.event]

theorem viewedEvent_hash_fits :
    Postgres.nullable (Postgres.varchar 256) (some (viewedEvent viewedId viewed first).eventHash) =
      some (some (viewedEvent viewedId viewed first).eventHash) := by
  simp [viewedEvent, Envelope.event, Postgres.nullable, computeEventHash,
    Ledger.varchar_sha256Text]

theorem downloaded_processed (text : String)
    (ht : fromisoformat (Text.replaceChar 'Z' "+00:00" downloaded) = some second) :
    ∃ store, processMessage fromisoformat
      ⟨[viewedEvent viewedId viewed first], [viewedId], [text]⟩ 2
        (downloadedEnvelope downloadedId downloaded).toJson = some store ∧
      store.events = [viewedEvent viewedId viewed first,
        downloadedEvent downloaded second (viewedEvent viewedId viewed first).eventHash] := by
  have hne : downloadedId ≠ viewedId := by decide
  have hnew : downloadedId ∉ [viewedId] :=
    List.not_mem_cons_of_ne_of_not_mem hne List.not_mem_nil
  exact ⟨_, processMessage_toJson (downloadedEnvelope_fits downloadedId downloaded) ht
    getLastEventHash_viewed viewedEvent_hash_fits hnew hnew, rfl⟩

end ForensicChain.Custody
