import ForensicChain.Custody.Envelope
import ForensicChain.Library.DateTime
import ForensicChain.Library.Numeric

/-!
The event hash and the row that it is stored in. The hash is taken over the texts of a message and
the columns keep values, so that two spellings of one value give equal rows with unequal hashes.
-/
namespace ForensicChain.Custody

/-- What a row keeps besides its id, its arrival and its hash; numbers as `jsonb` keeps them. -/
structure StoredRow where
  eventId : Uuid
  artifactId : Uuid
  caseId : Option String
  actorId : String
  actorRole : String
  eventType : String
  timestamp : Timestamp
  reason : Option String
  ipAddress : Option String
  correlationId : Option Uuid
  payload : Option Kept
  previousEventHash : Option String

def CustodyEvent.stored (e : CustodyEvent) : StoredRow where
  eventId := e.eventId
  artifactId := e.artifactId
  caseId := e.caseId
  actorId := e.actorId
  actorRole := e.actorRole
  eventType := e.eventType
  timestamp := e.timestamp
  reason := e.reason
  ipAddress := e.ipAddress
  correlationId := e.correlationId
  payload := e.payload.map fun payload => payload.value.keep
  previousEventHash := e.previousEventHash

/-- The hash that a message is linked to. -/
def previousHash (s : Store) (m : Message) : Option String :=
  (uuidColumn m.artifactId).bind (getLastEventHash s.events)

/-- The text that is hashed for a message. -/
def hashedText (s : Store) (m : Message) : String :=
  (buildEventContent m (previousHash s m)).dumps

section

variable (fromisoformat : String → Option Timestamp)

/-- Processing the body stores the row `e`. -/
def Persists (s : Store) (id : Nat) (body : Json) (e : CustodyEvent) : Prop :=
  ∃ t, processMessage fromisoformat s id body = some t ∧ t.events = s.events ++ [e]

open Postgres in
/-- What the columns keep of a message. -/
def columnsOf (s : Store) (m : Message) : Option StoredRow := do
  some {
    eventId := ← uuidColumn m.eventId
    artifactId := ← uuidColumn m.artifactId
    caseId := ← nullable (varchar 64) m.caseId
    actorId := ← varchar 64 m.actorId
    actorRole := ← varchar 64 m.actorRole
    eventType := ← varchar 128 m.eventType
    timestamp := ← messageTime fromisoformat m
    reason := ← nullable text m.reason
    ipAddress := ← nullable (varchar 64) m.ipAddress
    correlationId := ← uuidOrNull m.correlationId
    payload := some m.payload.sortKeys.keep
    previousEventHash := ← nullable (varchar 256) (previousHash s m) }

end

/-- Two messages have the same texts wherever a column may keep different ones alike. -/
structure SpelledAlike (s : Store) (m : Message) (t : Store) (n : Message) : Prop where
  eventId : m.eventId = n.eventId
  artifactId : m.artifactId = n.artifactId
  correlationId : m.correlationId = n.correlationId
  timestamp : m.timestamp = n.timestamp
  caseId : m.caseId = n.caseId
  actorId : m.actorId = n.actorId
  actorRole : m.actorRole = n.actorRole
  eventType : m.eventType = n.eventType
  ipAddress : m.ipAddress = n.ipAddress
  payload : m.payload.sortKeys = n.payload.sortKeys
  previousHash : previousHash s m = previousHash t n

variable {fromisoformat : String → Option Timestamp} {s t : Store} {i j : Nat} {body other : Json}
  {m n : Message} {e f : CustodyEvent}

/-- A stored row is inserted for the message of its body. -/
theorem Persists.inserted (h : Persists fromisoformat s i body e) (hm : readMessage body = some m) :
    messageTime fromisoformat m = some e.timestamp ∧
      e.Inserted i m e.timestamp (previousHash s m) (sha256Text (hashedText s m)) := by
  obtain ⟨t, hprocess, hevents⟩ := h
  cases processMessage_eq_some hprocess with
  | duplicate => simp at hevents
  | @stored m' row hb hread htime hins =>
    obtain rfl : m' = m := Option.some.inj (hread.symm.trans hm)
    obtain rfl : row = e := by simpa using hevents
    have hrow := insertCustodyEvent_eq_some hins
    have hprev : previousHash s m' = getLastEventHash s.events row.artifactId := by
      rw [previousHash, hrow.artifactId, Option.bind_some]
    refine ⟨htime, ?_⟩
    rw [hashedText, hprev]
    exact hrow

theorem Persists.payload (h : Persists fromisoformat s i body e)
    (hm : readMessage body = some m) : e.payload = some (.ofJson m.payload) := by
  have hkept := (h.inserted hm).2.payload
  simp only [Jsonb.store] at hkept
  split_ifs at hkept with hnul
  · cases hkept
  · exact (Option.some.inj hkept).symm

theorem Persists.columnsOf (h : Persists fromisoformat s i body e)
    (hm : readMessage body = some m) : columnsOf fromisoformat s m = some e.stored := by
  obtain ⟨htime, hrow⟩ := h.inserted hm
  simp only [Custody.columnsOf, hrow.eventId, hrow.artifactId, hrow.caseId, hrow.actorId,
    hrow.actorRole, hrow.eventType, htime, hrow.reason, hrow.ipAddress, hrow.correlationId,
    hrow.previousEventHash, CustodyEvent.stored, h.payload hm, Option.bind_eq_bind,
    Option.bind_some, Option.map_some, Jsonb.ofJson]

theorem Persists.eventHash (h : Persists fromisoformat s i body e)
    (hm : readMessage body = some m) : e.eventHash = sha256Text (hashedText s m) :=
  Postgres.eq_of_varchar (by simp) (h.inserted hm).2.eventHash

theorem Persists.reason (h : Persists fromisoformat s i body e)
    (hm : readMessage body = some m) : e.reason = m.reason :=
  Postgres.eq_of_nullable (fun _ _ _ => Postgres.eq_of_text) (h.inserted hm).2.reason

/-- The reason is the one text that its column keeps in full. -/
theorem Persists.reason_eq (he : Persists fromisoformat s i body e)
    (hf : Persists fromisoformat t j other f) (hm : readMessage body = some m)
    (hn : readMessage other = some n) (h : e.stored = f.stored) : m.reason = n.reason := by
  rw [← he.reason hm, ← hf.reason hn]
  exact congrArg StoredRow.reason h

theorem nullOr_injective : Function.Injective nullOr := by
  intro a b h
  cases a <;> cases b <;> simp_all [nullOr]

/-- The hashed text has every field of the message and the hash that it is linked to. -/
theorem hashedText_inj :
    hashedText s m = hashedText t n ↔ SpelledAlike s m t n ∧ m.reason = n.reason := by
  rw [hashedText, hashedText, Json.dumps_inj, buildEventContent_sortKeys,
    buildEventContent_sortKeys]
  simp only [Json.obj.injEq, List.cons.injEq, Prod.mk.injEq, Json.str.injEq, true_and, and_true,
    nullOr_injective.eq_iff]
  constructor
  · rintro ⟨hactor, hrole, hart, hcase, hcorr, hevent, htype, hip, hpayload, hprev, hreason, htime⟩
    exact ⟨⟨hevent, hart, hcorr, htime, hcase, hactor, hrole, htype, hip, hpayload, hprev⟩, hreason⟩
  · rintro ⟨h, hreason⟩
    exact ⟨h.actorId, h.actorRole, h.artifactId, h.caseId, h.correlationId, h.eventId, h.eventType,
      h.ipAddress, h.payload, h.previousHash, hreason, h.timestamp⟩

/-- The stored row determines the event hash exactly when messages that are kept alike are
spelled alike. -/
theorem eventHash_determined_iff (he : Persists fromisoformat s i body e)
    (hf : Persists fromisoformat t j other f) (hm : readMessage body = some m)
    (hn : readMessage other = some n) (hcf : CollisionFree {hashedText s m, hashedText t n}) :
    (e.stored = f.stored → e.eventHash = f.eventHash) ↔
      (columnsOf fromisoformat s m = columnsOf fromisoformat t n → SpelledAlike s m t n) := by
  rw [he.columnsOf hm, hf.columnsOf hn, Option.some.injEq, he.eventHash hm, hf.eventHash hn]
  refine forall_congr' fun hstored => ?_
  have hreason := he.reason_eq hf hm hn hstored
  constructor
  · intro hhash
    have htext := hcf (Set.mem_insert _ _) (Set.mem_insert_of_mem _ rfl) hhash
    exact (hashedText_inj.mp htext).1
  · intro hspelled
    rw [hashedText_inj.mpr ⟨hspelled, hreason⟩]

/-- Identifiers and times as they are printed, texts that fit their columns, plain numbers. -/
structure Message.Canonical (fromisoformat : String → Option Timestamp)
    (isoformat : Timestamp → String) (m : Message) : Prop where
  eventId : ∀ u, uuidColumn m.eventId = some u → m.eventId = u.str
  artifactId : ∀ u, uuidColumn m.artifactId = some u → m.artifactId = u.str
  correlationId : ∀ c ∈ m.correlationId, ∀ u, uuidColumn c = some u → c = u.str
  timestamp : ∀ time, messageTime fromisoformat m = some time → m.timestamp = isoformat time
  caseId : ∀ c ∈ m.caseId, Postgres.Verbatim 64 c
  actorId : Postgres.Verbatim 64 m.actorId
  actorRole : Postgres.Verbatim 64 m.actorRole
  eventType : Postgres.Verbatim 128 m.eventType
  ipAddress : ∀ a ∈ m.ipAddress, Postgres.Verbatim 64 a
  payload : m.payload.sortKeys.Plain

/-- The hashes that the consumer stored are short enough to be kept as they are. -/
theorem previousHash_verbatim (hs : (consumer fromisoformat).Reachable s) :
    ∀ h ∈ previousHash s m, Postgres.Verbatim 256 h := by
  intro h hh
  obtain ⟨u, -, hlast⟩ := Option.bind_eq_some_iff.mp hh
  obtain ⟨e, he, rfl⟩ := Option.map_eq_some_iff.mp hlast
  have hsorted := List.mem_of_mem_head? he
  have hmem := List.mem_of_mem_filter ((List.perm_insertionSort _ _).mem_iff.mp hsorted)
  obtain ⟨m, p, -, -, hhash⟩ := (storeInvariant_reachable hs).hashed e hmem
  exact Postgres.verbatim_of_length_le (by simp [hhash, computeEventHash])

theorem correlation_of_canonical {isoformat : Timestamp → String} {c : Option Uuid}
    (h : m.Canonical fromisoformat isoformat) (hc : uuidOrNull m.correlationId = some c) :
    m.correlationId = c.map Uuid.str := by
  cases hm : m.correlationId with
  | none =>
    rw [hm] at hc
    obtain rfl := Option.some.inj hc
    rfl
  | some text =>
    rw [hm] at hc
    obtain ⟨u, hu, rfl⟩ := Option.map_eq_some_iff.mp hc
    rw [h.correlationId text hm u hu, Option.map_some]

/-- Canonical messages that are kept alike are spelled alike. -/
theorem Persists.spelledAlike {isoformat : Timestamp → String}
    (he : Persists fromisoformat s i body e) (hf : Persists fromisoformat t j other f)
    (hm : readMessage body = some m) (hn : readMessage other = some n)
    (hcm : m.Canonical fromisoformat isoformat) (hcn : n.Canonical fromisoformat isoformat)
    (hs : (consumer fromisoformat).Reachable s) (ht : (consumer fromisoformat).Reachable t)
    (h : e.stored = f.stored) : SpelledAlike s m t n := by
  obtain ⟨htime, hrow⟩ := he.inserted hm
  obtain ⟨htime', hrow'⟩ := hf.inserted hn
  simp only [CustodyEvent.stored, StoredRow.mk.injEq] at h
  obtain ⟨hevent, hart, hcase, hactor, hrole, htype, htimes, -, hip, hcorr, hkept, hprev⟩ := h
  constructor
  · rw [hcm.eventId _ hrow.eventId, hcn.eventId _ hrow'.eventId, hevent]
  · rw [hcm.artifactId _ hrow.artifactId, hcn.artifactId _ hrow'.artifactId, hart]
  · rw [correlation_of_canonical hcm hrow.correlationId,
      correlation_of_canonical hcn hrow'.correlationId, hcorr]
  · rw [hcm.timestamp _ htime, hcn.timestamp _ htime', htimes]
  · rw [← Postgres.eq_of_nullable hcm.caseId hrow.caseId, hcase,
      Postgres.eq_of_nullable hcn.caseId hrow'.caseId]
  · rw [← hcm.actorId _ hrow.actorId, hactor, hcn.actorId _ hrow'.actorId]
  · rw [← hcm.actorRole _ hrow.actorRole, hrole, hcn.actorRole _ hrow'.actorRole]
  · rw [← hcm.eventType _ hrow.eventType, htype, hcn.eventType _ hrow'.eventType]
  · rw [← Postgres.eq_of_nullable hcm.ipAddress hrow.ipAddress, hip,
      Postgres.eq_of_nullable hcn.ipAddress hrow'.ipAddress]
  · apply Json.keep_inj hcm.payload hcn.payload
    simpa [he.payload hm, hf.payload hn, Jsonb.ofJson] using hkept
  · rw [← Postgres.eq_of_nullable (previousHash_verbatim hs) hrow.previousEventHash, hprev,
      Postgres.eq_of_nullable (previousHash_verbatim ht) hrow'.previousEventHash]

/-- Of canonical messages the stored row determines the event hash. -/
theorem eventHash_eq_of_canonical {isoformat : Timestamp → String}
    (he : Persists fromisoformat s i body e) (hf : Persists fromisoformat t j other f)
    (hm : readMessage body = some m) (hn : readMessage other = some n)
    (hcm : m.Canonical fromisoformat isoformat) (hcn : n.Canonical fromisoformat isoformat)
    (hs : (consumer fromisoformat).Reachable s) (ht : (consumer fromisoformat).Reachable t)
    (h : e.stored = f.stored) : e.eventHash = f.eventHash := by
  have hspelled := he.spelledAlike hf hm hn hcm hcn hs ht h
  have hreason := he.reason_eq hf hm hn h
  rw [he.eventHash hm, hf.eventHash hn, hashedText_inj.mpr ⟨hspelled, hreason⟩]

def emptyStore : Store := ⟨[], [], []⟩

/-- A downloaded report's event, which the audit reporter dates with `Z`. -/
def datedEnvelope (timestamp : String) : Envelope := downloadedEnvelope (.ofNat 3) timestamp

/-- The row of the event, with the time that its text stands for. -/
def datedEvent (timestamp : String) (time : Timestamp) : CustodyEvent :=
  (datedEnvelope timestamp).event sampleArtifact sampleCorrelation (some "10.0.0.1") 1 time none

def datedMessage (timestamp : String) : Message :=
  (datedEnvelope timestamp).message (some "10.0.0.1")

theorem dated_persists {timestamp : String} {time : Timestamp}
    (ht : fromisoformat (Text.replaceChar 'Z' "+00:00" timestamp) = some time) :
    Persists fromisoformat emptyStore 1 (datedEnvelope timestamp).toJson
      (datedEvent timestamp time) :=
  ⟨_, processMessage_toJson (downloadedEnvelope_fits (.ofNat 3) timestamp) ht rfl rfl
    List.not_mem_nil List.not_mem_nil, rfl⟩

theorem dated_readMessage (timestamp : String) :
    readMessage (datedEnvelope timestamp).toJson = some (datedMessage timestamp) :=
  readMessage_toJson (downloadedEnvelope_fits (.ofNat 3) timestamp).address

/-- The text of the time is in no column. -/
theorem datedEvent_stored (a b : String) (time : Timestamp) :
    (datedEvent a time).stored = (datedEvent b time).stored := by
  simp only [CustodyEvent.stored, datedEvent, Envelope.event, datedEnvelope, downloadedEnvelope]

theorem zulu_persists :
    Persists DateTime.fromisoformat emptyStore 1 (datedEnvelope "2025-01-31T10:20:30Z").toJson
      (datedEvent "2025-01-31T10:20:30Z" 63873915630000000) :=
  dated_persists (by decide +kernel)

theorem offset_persists :
    Persists DateTime.fromisoformat emptyStore 1
      (datedEnvelope "2025-01-31T10:20:30+00:00").toJson
      (datedEvent "2025-01-31T10:20:30+00:00" 63873915630000000) :=
  dated_persists (by decide +kernel)

theorem dated_digests_ne :
    sha256Text (hashedText emptyStore (datedMessage "2025-01-31T10:20:30Z")) ≠
      sha256Text (hashedText emptyStore (datedMessage "2025-01-31T10:20:30+00:00")) := by
  rw [hashedText, hashedText, Json.dumps, Json.dumps, buildEventContent_sortKeys,
    buildEventContent_sortKeys, sha256Text, sha256Text, utf8_ofList, utf8_ofList]
  decide +kernel

/-- The row keeps the instant, the hash is over the text of it. -/
theorem eventHash_not_determined : ∃ e f,
    Persists DateTime.fromisoformat emptyStore 1 (datedEnvelope "2025-01-31T10:20:30Z").toJson e ∧
    Persists DateTime.fromisoformat emptyStore 1
      (datedEnvelope "2025-01-31T10:20:30+00:00").toJson f ∧
    e.stored = f.stored ∧ e.eventHash ≠ f.eventHash := by
  refine ⟨_, _, zulu_persists, offset_persists, datedEvent_stored _ _ _, ?_⟩
  have hz := zulu_persists.eventHash (dated_readMessage _)
  have ho := offset_persists.eventHash (dated_readMessage _)
  intro heq
  exact dated_digests_ne (hz.symm.trans (heq.trans ho))

theorem eventHash_determined_iff_dated :
    ((datedEvent "2025-01-31T10:20:30Z" 63873915630000000).stored =
        (datedEvent "2025-01-31T10:20:30+00:00" 63873915630000000).stored →
      (datedEvent "2025-01-31T10:20:30Z" 63873915630000000).eventHash =
        (datedEvent "2025-01-31T10:20:30+00:00" 63873915630000000).eventHash) ↔
    (columnsOf DateTime.fromisoformat emptyStore (datedMessage "2025-01-31T10:20:30Z") =
        columnsOf DateTime.fromisoformat emptyStore (datedMessage "2025-01-31T10:20:30+00:00") →
      SpelledAlike emptyStore (datedMessage "2025-01-31T10:20:30Z") emptyStore
        (datedMessage "2025-01-31T10:20:30+00:00")) := by
  refine eventHash_determined_iff zulu_persists offset_persists (dated_readMessage _)
    (dated_readMessage _) ?_
  rintro x (rfl | rfl) y (rfl | rfl) hxy
  · rfl
  · exact absurd hxy dated_digests_ne
  · exact absurd hxy.symm dated_digests_ne
  · rfl

end ForensicChain.Custody
