import ForensicChain.Pipeline.Delivery

/-!
What is true of every event that is written or published stays true of it on its way: the workers
publish the payloads of their rows, and the consumer copies the bodies of its messages.
-/
namespace ForensicChain.Pipeline

open Custody

variable {fromisoformat : String → Option Timestamp} {s t : State} {a : Action} {tag : Tag}
  {m : QueuedMessage} {e : CustodyEvent} {P Q : Json → Prop}

/-- Every payload and every message is one of those. -/
structure Carries (P : Json → Prop) (s : State) : Prop where
  rows : ∀ row ∈ s.outbox, P row.payload.value
  messages : ∀ tag m, s.broker tag = some m → P m.body

theorem Carries.mono (h : Carries P s) (hPQ : ∀ body, P body → Q body) : Carries Q s :=
  ⟨fun row hr => hPQ _ (h.rows row hr), fun tag m hm => hPQ _ (h.messages tag m hm)⟩

theorem carries_initial (h : Initial s) : Carries P s := by
  obtain ⟨ho, _, hb, _⟩ := h
  exact ⟨by simp [ho], by simp [hb]⟩

@[simp]
theorem OutboxRow.record_payload {row : OutboxRow} {tried : List (Nat × Option String)} :
    (row.record tried).payload = row.payload := by
  unfold OutboxRow.record
  split <;> rfl

/-- Only the two publishers bring something new. -/
theorem Carries.step (h : Carries P s) (hs : Step fromisoformat s a t)
    (hwrite : ∀ row, a = .write row → P row.payload.value)
    (hpublish : ∀ tag env, a = .publishEvent tag env → P env.toJson) : Carries P t := by
  have hmessages := h.messages
  cases hs with
  | write row hid he hp =>
    refine ⟨?_, hmessages⟩
    intro q hq
    rcases List.mem_append.mp hq with hq | hq
    · exact h.rows q hq
    · rw [List.mem_singleton.mp hq]
      exact hwrite row rfl
  | publishEvent env ht => exact ⟨h.rows, messages_update hmessages (hpublish _ env rfl)⟩
  | publish hw hr hi ht => exact ⟨h.rows, messages_update hmessages (h.rows _ hr)⟩
  | publishRaised error hw hr hi ht => exact ⟨h.rows, messages_putAt hmessages (h.rows _ hr)⟩
  | commitCycle hw =>
    refine ⟨?_, hmessages⟩
    intro q hq
    obtain ⟨row, hr, rfl⟩ := List.mem_map.mp hq
    rw [OutboxRow.record_payload]
    exact h.rows row hr
  | deliver hm hp | ack hc hm hp | ackLost hc hm hp | ackCopied hc hm hp | reject hc hm hr hp
  | retry hc hm hr ht =>
    have hbody := hmessages _ _ hm
    exact ⟨h.rows, messages_update hmessages hbody⟩
  | retryRaised hc hm hr ht =>
    have hbody := hmessages _ _ hm
    exact ⟨h.rows, messages_putAt hmessages hbody⟩
  | disconnect | crash => exact ⟨h.rows, messages_requeue hmessages fun _ hm _ => hm⟩
  | poll | endCycle | receive | process | processRaised | processCommitted | ackRaised | stop =>
    exact ⟨h.rows, hmessages⟩

/-- The columns of a row that is stored are those of a message. -/
theorem Carries.inserted (h : Carries P s) (hs : Step fromisoformat s a t)
    (he : e ∈ t.store.events) : e ∈ s.store.events ∨
      ∃ body m previous hash, P body ∧ readMessage body = some m ∧
        e.Inserted e.id m e.timestamp previous hash := by
  have hprocessed : ∀ {tag m id store}, s.broker tag = some m →
      processMessage fromisoformat s.store id m.body = some store → e ∈ store.events →
      e ∈ s.store.events ∨ ∃ body m previous hash, P body ∧ readMessage body = some m ∧
        e.Inserted e.id m e.timestamp previous hash := by
    intro tag m id store hm hp he
    cases processMessage_eq_some hp with
    | duplicate => exact .inl he
    | stored hb hread ht hi hnew hu =>
      rcases List.mem_append.mp he with he | he
      · exact .inl he
      · rw [List.mem_singleton.mp he]
        have hrow := insertCustodyEvent_eq_some hi
        exact .inr ⟨m.body, _, _, _, h.messages tag m hm, hread, hrow.id ▸ hrow⟩
  cases hs with
  | process hc hm hid hp => exact hprocessed hm hp he
  | processCommitted hc hm hid hp => exact hprocessed hm hp he
  | _ => exact .inl he

/-- The row holds the artifact and the case of a message. -/
def StoredFrom (P : Json → Prop) (e : CustodyEvent) : Prop :=
  ∃ body m, P body ∧ readMessage body = some m ∧ uuidColumn m.artifactId = some e.artifactId ∧
    Postgres.nullable (Postgres.varchar 64) m.caseId = some e.caseId

/-- What the consumer adds to its table comes from a message. -/
theorem Carries.stored (h : Carries P s) (hs : Step fromisoformat s a t)
    (he : e ∈ t.store.events) : e ∈ s.store.events ∨ StoredFrom P e := by
  rcases h.inserted hs he with hold | ⟨body, m, _, _, hbody, hread, hrow⟩
  · exact .inl hold
  · exact .inr ⟨body, m, hbody, hread, hrow.artifactId, hrow.caseId⟩

/-- The events of the outbox, row by row. -/
def payloads (s : State) : List Jsonb := s.outbox.map OutboxRow.payload

theorem payloads_map_record {outbox : List OutboxRow} {tried : List (Nat × Option String)} :
    (outbox.map fun row => row.record tried).map OutboxRow.payload =
      outbox.map OutboxRow.payload := by
  simp [Function.comp_def]

/-- Rows come in at the end, and keep their payloads. -/
theorem payloads_step (hs : Step fromisoformat s a t) :
    (payloads t = payloads s ∧ ∀ row, a ≠ .write row) ∨
      ∃ row, a = .write row ∧ payloads t = payloads s ++ [row.payload] := by
  cases hs with
  | write row hid he hp => exact .inr ⟨row, rfl, by simp [payloads]⟩
  | commitCycle hw => exact .inl ⟨payloads_map_record, by simp⟩
  | _ => exact .inl ⟨rfl, by simp⟩

theorem payloads_write {row : OutboxRow} (hs : Step fromisoformat s (.write row) t) :
    payloads t = payloads s ++ [row.payload] := by
  rcases payloads_step hs with ⟨_, hne⟩ | ⟨_, hrow, hpay⟩
  · exact (hne _ rfl).elim
  · obtain rfl := Action.write.inj hrow
    exact hpay

end ForensicChain.Pipeline
