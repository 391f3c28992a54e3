import ForensicChain.Custody.Envelope
import Mathlib.Logic.Function.Basic

/-!
The event pipeline: the outbox of the evidence collector, its workers, the direct publisher of the
audit reporter, the broker and the custody consumer. The three stores share no transaction, so
every step may be followed by a crash, and every call may raise before or after its effect.
-/
namespace ForensicChain.Pipeline

open Custody

/-- A row of `outbox_events`; its payload is an envelope that names the row's event. -/
structure OutboxRow where
  id : Nat
  eventId : Uuid
  payload : Jsonb
  createdAt : Timestamp
  published : Bool
  retryCount : Nat
  lastError : Option String
  named : payload.value.field? "event_id" = some (.str eventId.str)

/-- The row that a handler writes for an event. -/
def outboxRow (id : Nat) (env : Envelope) (createdAt : Timestamp) : OutboxRow where
  id := id
  eventId := env.eventId
  payload := .ofJson env.toJson
  createdAt := createdAt
  published := false
  retryCount := 0
  lastError := none
  named := by
    show env.toJson.sortKeys.field? "event_id" = _
    rw [Envelope.toJson_sortKeys]
    simp [Json.field?]

abbrev WorkerId := Nat

/-- The message's number at the broker. -/
abbrev Tag := Nat

inductive Place
  | queued
  | unacked
  | acked
  | dead
  deriving DecidableEq

structure QueuedMessage where
  body : Json
  xRetryCount : Option Int
  place : Place

/-- `int(message.headers.get("x-retry-count", 0))`. -/
def QueuedMessage.retryCount (m : QueuedMessage) : Int := m.xRetryCount.getD 0

/-- A publish cycle: the ids still to publish, and those tried with their error. The rows stay
locked until it ends. -/
structure Cycle where
  todo : List Nat
  tried : List (Nat × Option String)

def Cycle.rows (c : Cycle) : List Nat := c.todo ++ c.tried.map Prod.fst

/-- Where the loop body of `consume_events` stands. -/
inductive ConsumerPhase
  | idle
  | received (tag : Tag)
  | processed (tag : Tag)
  | failed (tag : Tag)
  | copied (tag copy : Tag)
  | stopped

structure State where
  outbox : List OutboxRow
  cycles : WorkerId → Option Cycle
  broker : Tag → Option QueuedMessage
  store : Store
  consumer : ConsumerPhase

def maxRetries : Int := 3

namespace State

def setCycle (s : State) (w : WorkerId) (c : Option Cycle) : State :=
  { s with cycles := Function.update s.cycles w c }

def put (s : State) (tag : Tag) (m : QueuedMessage) : State :=
  { s with broker := Function.update s.broker tag (some m) }

/-- A message that is published to a number, or not at all. -/
def putAt (s : State) (stored : Option Tag) (m : QueuedMessage) : State :=
  { s with broker := match stored with
      | none => s.broker
      | some tag => Function.update s.broker tag (some m) }

def setConsumer (s : State) (c : ConsumerPhase) : State := { s with consumer := c }

def setStore (s : State) (store : Store) : State := { s with store }

/-- The broker takes back what was delivered on a lost connection. -/
def requeue (s : State) : State :=
  { s with broker := fun tag => (s.broker tag).map fun m =>
      if m.place = .unacked then { m with place := .queued } else m }

/-- Rows that `SKIP LOCKED` does not skip. -/
def Free (s : State) (row : OutboxRow) : Prop :=
  row.published = false ∧ ∀ w c, s.cycles w = some c → row.id ∉ c.rows

/-- `ORDER BY created_at ASC LIMIT 10` over the free rows; ties come in any order, and the rows are
loaded in any order. -/
def Picks (s : State) (ids : List Nat) : Prop :=
  ∃ free sorted : List OutboxRow, (∀ row, row ∈ free ↔ row ∈ s.outbox ∧ s.Free row) ∧ free.Nodup ∧
    sorted.Perm free ∧ sorted.Pairwise (fun r q => r.createdAt ≤ q.createdAt) ∧
    ids.Perm ((sorted.take 10).map OutboxRow.id)

end State

/-- What the commit of a cycle writes to a row. -/
def OutboxRow.record (row : OutboxRow) (tried : List (Nat × Option String)) : OutboxRow :=
  match tried.lookup row.id with
  | none => row
  | some none => { row with published := true }
  | some (some error) => { row with retryCount := row.retryCount + 1, lastError := some error }

inductive Action
  | write (row : OutboxRow)
  | publishEvent (tag : Tag) (env : Envelope)
  | poll (w : WorkerId) (ids : List Nat)
  | publish (w : WorkerId) (tag : Tag)
  | publishRaised (w : WorkerId) (error : String) (stored : Option Tag)
  | commitCycle (w : WorkerId)
  | endCycle (w : WorkerId)
  | deliver (tag : Tag)
  | disconnect
  | receive (tag : Tag)
  | process (id : Nat)
  | processRaised
  | processCommitted (id : Nat)
  | ack
  | ackRaised
  | ackLost
  | retry (copy : Tag)
  | retryRaised (stored : Option Tag)
  | ackCopied
  | reject
  | stop
  | crash

/-- A step of the workers, the broker or the consumer: it brings in no event. -/
def Internal (a : Action) : Prop := (∀ row, a ≠ .write row) ∧ ∀ tag env, a ≠ .publishEvent tag env

def Unused (s : State) (stored : Option Tag) : Prop := ∀ tag ∈ stored, s.broker tag = none

inductive Step (fromisoformat : String → Option Timestamp) : State → Action → State → Prop
  /-- A handler commits an event with the change that it reports. -/
  | write {s} (row : OutboxRow) (hid : ∀ q ∈ s.outbox, q.id ≠ row.id)
      (he : ∀ q ∈ s.outbox, q.eventId ≠ row.eventId) (hp : row.published = false) :
      Step fromisoformat s (.write row) { s with outbox := s.outbox ++ [row] }
  /-- The audit reporter publishes without an outbox. -/
  | publishEvent {s tag} (env : Envelope) (ht : s.broker tag = none) :
      Step fromisoformat s (.publishEvent tag env) (s.put tag ⟨env.toJson, none, .queued⟩)
  | poll {s w ids} (hw : s.cycles w = none) (hp : s.Picks ids) :
      Step fromisoformat s (.poll w ids) (s.setCycle w (some ⟨ids, []⟩))
  | publish {s w tag id todo tried row} (hw : s.cycles w = some ⟨id :: todo, tried⟩)
      (hr : row ∈ s.outbox) (hi : row.id = id) (ht : s.broker tag = none) :
      Step fromisoformat s (.publish w tag)
        ((s.put tag ⟨row.payload.value, none, .queued⟩).setCycle w
          (some ⟨todo, (id, none) :: tried⟩))
  /-- The exception may come after the broker has stored the message. -/
  | publishRaised {s w id todo tried row stored} (error : String)
      (hw : s.cycles w = some ⟨id :: todo, tried⟩) (hr : row ∈ s.outbox) (hi : row.id = id)
      (ht : Unused s stored) :
      Step fromisoformat s (.publishRaised w error stored)
        ((s.putAt stored ⟨row.payload.value, none, .queued⟩).setCycle w
          (some ⟨todo, (id, some error) :: tried⟩))
  | commitCycle {s w tried} (hw : s.cycles w = some ⟨[], tried⟩) :
      Step fromisoformat s (.commitCycle w)
        (({ s with outbox := s.outbox.map fun row => row.record tried } : State).setCycle w none)
  /-- The commit raises, or the worker crashes: the cycle is rolled back. -/
  | endCycle {s w} : Step fromisoformat s (.endCycle w) (s.setCycle w none)
  | deliver {s tag m} (hm : s.broker tag = some m) (hp : m.place = .queued) :
      Step fromisoformat s (.deliver tag) (s.put tag { m with place := .unacked })
  | disconnect {s} : Step fromisoformat s .disconnect s.requeue
  | receive {s tag m} (hc : s.consumer = .idle) (hm : s.broker tag = some m)
      (hp : m.place = .unacked) :
      Step fromisoformat s (.receive tag) (s.setConsumer (.received tag))
  | process {s tag m store id} (hc : s.consumer = .received tag) (hm : s.broker tag = some m)
      (hid : ∀ e ∈ s.store.events, e.id < id)
      (hp : processMessage fromisoformat s.store id m.body = some store) :
      Step fromisoformat s (.process id) ((s.setStore store).setConsumer (.processed tag))
  | processRaised {s tag} (hc : s.consumer = .received tag) :
      Step fromisoformat s .processRaised (s.setConsumer (.failed tag))
  /-- The commit takes effect and raises all the same. -/
  | processCommitted {s tag m store id} (hc : s.consumer = .received tag)
      (hm : s.broker tag = some m) (hid : ∀ e ∈ s.store.events, e.id < id)
      (hp : processMessage fromisoformat s.store id m.body = some store) :
      Step fromisoformat s (.processCommitted id)
        ((s.setStore store).setConsumer (.failed tag))
  | ack {s tag m} (hc : s.consumer = .processed tag) (hm : s.broker tag = some m)
      (hp : m.place = .unacked) :
      Step fromisoformat s .ack ((s.put tag { m with place := .acked }).setConsumer .idle)
  /-- The acknowledgement stands inside the `try`: when it raises, the message is retried. -/
  | ackRaised {s tag} (hc : s.consumer = .processed tag) :
      Step fromisoformat s .ackRaised (s.setConsumer (.failed tag))
  /-- The acknowledgement reaches the broker and raises all the same. -/
  | ackLost {s tag m} (hc : s.consumer = .processed tag) (hm : s.broker tag = some m)
      (hp : m.place = .unacked) :
      Step fromisoformat s .ackLost
        ((s.put tag { m with place := .acked }).setConsumer (.failed tag))
  | retry {s tag copy m} (hc : s.consumer = .failed tag) (hm : s.broker tag = some m)
      (hr : m.retryCount < maxRetries) (ht : s.broker copy = none) :
      Step fromisoformat s (.retry copy)
        ((s.put copy ⟨m.body, some (m.retryCount + 1), .queued⟩).setConsumer (.copied tag copy))
  /-- An exception in the `except` block ends the loop. -/
  | retryRaised {s tag stored m} (hc : s.consumer = .failed tag) (hm : s.broker tag = some m)
      (hr : m.retryCount < maxRetries) (ht : Unused s stored) :
      Step fromisoformat s (.retryRaised stored)
        ((s.putAt stored ⟨m.body, some (m.retryCount + 1), .queued⟩).setConsumer .stopped)
  | ackCopied {s tag copy m} (hc : s.consumer = .copied tag copy) (hm : s.broker tag = some m)
      (hp : m.place = .unacked) :
      Step fromisoformat s .ackCopied ((s.put tag { m with place := .acked }).setConsumer .idle)
  | reject {s tag m} (hc : s.consumer = .failed tag) (hm : s.broker tag = some m)
      (hr : maxRetries ≤ m.retryCount) (hp : m.place = .unacked) :
      Step fromisoformat s .reject ((s.put tag { m with place := .dead }).setConsumer .idle)
  | stop {s} : Step fromisoformat s .stop (s.setConsumer .stopped)
  /-- The consumer process ends at any point and starts again. -/
  | crash {s} : Step fromisoformat s .crash (s.requeue.setConsumer .idle)

/-- Empty stores, no cycle, and a consumer that waits for its first message. -/
def Initial (s : State) : Prop :=
  s.outbox = [] ∧ (∀ w, s.cycles w = none) ∧ (∀ tag, s.broker tag = none) ∧
    s.store = ⟨[], [], []⟩ ∧ s.consumer = .idle

def system (fromisoformat : String → Option Timestamp) : TransitionSystem State Action :=
  ⟨Initial, Step fromisoformat⟩

end ForensicChain.Pipeline
