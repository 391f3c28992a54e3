import ForensicChain.Evidence.Models
import ForensicChain.Library.HashChain
import ForensicChain.Library.Json
import ForensicChain.Library.OrderBy
import ForensicChain.Library.Sha256

/-! Messages, rows and event hashes of the chain of custody. -/
namespace ForensicChain.Custody

/-- A row of `custody_events`. -/
structure CustodyEvent where
  id : Nat
  eventId : Uuid
  artifactId : Uuid
  caseId : Option String
  actorId : String
  actorRole : String
  eventType : String
  timestamp : Timestamp
  reason : Option String
  ipAddress : Option String
  correlationId : Option Uuid
  payload : Option Jsonb
  previousEventHash : Option String
  eventHash : String

/-- What the consumer reads from the body of a message. -/
structure Message where
  eventId : String
  eventType : String
  artifactId : String
  caseId : Option String
  actorId : String
  actorRole : String
  timestamp : String
  reason : Option String
  ipAddress : Option String
  correlationId : Option String
  payload : Json

/-- A value that is bound to a text column. -/
def asString : Json → Option String
  | .str s => some s
  | _ => none

/-- A value that is bound to a nullable text column: null or a missing key is NULL. -/
def asNullable : Option Json → Option (Option String)
  | none | some .null => some none
  | some j => (asString j).map some

/-- The payload has to be an object, since a key is read from it. -/
def asObject : Option Json → Option Json
  | none => some (.obj [])
  | some (.obj members) => some (.obj members)
  | some _ => none

/-- The fields of a body; `none` is one of the exceptions that a missing or ill-typed one raises. -/
def readMessage (body : Json) : Option Message := do
  let payload ← asObject (body.field? "payload")
  some {
    eventId := ← body.field? "event_id" >>= asString
    eventType := ← body.field? "event_type" >>= asString
    artifactId := ← body.field? "artifact_id" >>= asString
    caseId := ← asNullable (body.field? "case_id")
    actorId := ← body.field? "actor_id" >>= asString
    actorRole := ← body.field? "actor_role" >>= asString
    timestamp := ← body.field? "timestamp" >>= asString
    reason := ← asNullable (body.field? "reason")
    ipAddress := ← asNullable (payload.field? "ip_address")
    correlationId := ← asNullable (body.field? "correlation_id")
    payload }

def nullOr : Option String → Json
  | none => .null
  | some s => .str s

def buildEventContent (m : Message) (previousEventHash : Option String) : Json :=
  .obj [
    ("event_id", .str m.eventId),
    ("event_type", .str m.eventType),
    ("artifact_id", .str m.artifactId),
    ("case_id", nullOr m.caseId),
    ("actor_id", .str m.actorId),
    ("actor_role", .str m.actorRole),
    ("timestamp", .str m.timestamp),
    ("reason", nullOr m.reason),
    ("ip_address", nullOr m.ipAddress),
    ("correlation_id", nullOr m.correlationId),
    ("payload", m.payload),
    ("previous_event_hash", nullOr previousEventHash)]

def computeEventHash (eventContent : Json) : String := sha256Text eventContent.dumps

/-- A text that is bound to a `uuid` column: 32 hexadecimal digits, and hyphens up to length 36. -/
def uuidColumn (s : String) : Option Uuid :=
  let digits := s.toList.filter (· ≠ '-')
  if 32 ≤ s.length ∧ s.length ≤ 36 ∧ digits.length = 32 then
    (Uuid.readHex 0 digits).bind fun n => if h : n < 2 ^ 128 then some ⟨n, h⟩ else none
  else none

def uuidOrNull : Option String → Option (Option Uuid)
  | none => some none
  | some s => (uuidColumn s).map some

open Postgres in
/-- The row that `insert_custody_event` stores for a message. -/
def insertCustodyEvent (id : Nat) (m : Message) (timestamp : Timestamp)
    (previousEventHash : Option String) (eventHash : String) : Option CustodyEvent := do
  some {
    id
    eventId := ← uuidColumn m.eventId
    artifactId := ← uuidColumn m.artifactId
    caseId := ← nullable (varchar 64) m.caseId
    actorId := ← varchar 64 m.actorId
    actorRole := ← varchar 64 m.actorRole
    eventType := ← varchar 128 m.eventType
    timestamp
    reason := ← nullable text m.reason
    ipAddress := ← nullable (varchar 64) m.ipAddress
    correlationId := ← uuidOrNull m.correlationId
    payload := some (← Jsonb.store m.payload)
    previousEventHash := ← nullable (varchar 256) previousEventHash
    eventHash := ← varchar 256 eventHash }

/-- What the column reads, `uuid.UUID` reads too. -/
theorem uuidColumn_parse {s : String} {u : Uuid} (h : uuidColumn s = some u) :
    Uuid.parse s = some u := by
  simp only [uuidColumn] at h
  split_ifs at h with hlen
  obtain ⟨n, hn, hif⟩ := Option.bind_eq_some_iff.mp h
  split_ifs at hif with hlt
  obtain rfl := Option.some.inj hif
  refine Uuid.parse_of_digits (.inl rfl) ?_ hlen.2.2 hn hlt
  intro c hc
  by_cases hhyphen : c = '-'
  · exact .inl hhyphen
  · exact .inr (Uuid.hexVal_of_readHex hn c (List.mem_filter.mpr ⟨hc, decide_eq_true hhyphen⟩))

theorem nullOr_sortKeys (o : Option String) : (nullOr o).sortKeys = nullOr o := by
  cases o <;> simp only [nullOr, Json.sortKeys]

/-- The members of a content in the order in which they are hashed. -/
theorem buildEventContent_sortKeys (m : Message) (p : Option String) :
    (buildEventContent m p).sortKeys = .obj [
      ("actor_id", .str m.actorId),
      ("actor_role", .str m.actorRole),
      ("artifact_id", .str m.artifactId),
      ("case_id", nullOr m.caseId),
      ("correlation_id", nullOr m.correlationId),
      ("event_id", .str m.eventId),
      ("event_type", .str m.eventType),
      ("ip_address", nullOr m.ipAddress),
      ("payload", m.payload.sortKeys),
      ("previous_event_hash", nullOr p),
      ("reason", nullOr m.reason),
      ("timestamp", .str m.timestamp)] := by
  simp only [buildEventContent, Json.sortKeys, Json.sortMembers, nullOr_sortKeys]
  simp [Json.keyLE]

/-- The hashed text of an event determines its event id. -/
theorem eventId_eq_of_dumps_eq {m n : Message} {p q : Option String}
    (h : (buildEventContent m p).dumps = (buildEventContent n q).dumps) :
    m.eventId = n.eventId := by
  have hs := Json.dumps_inj.mp h
  rw [buildEventContent_sortKeys, buildEventContent_sortKeys] at hs
  simp only [Json.obj.injEq, List.cons.injEq, Prod.mk.injEq, Json.str.injEq, true_and] at hs
  exact hs.2.2.2.2.2.1

end ForensicChain.Custody
