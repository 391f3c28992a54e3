import ForensicChain.Library.DateTime
import ForensicChain.Library.Table
import ForensicChain.Pipeline.Runs

/-!
At least once to the consumer, exactly once in its tables. A message leaves the broker only when
its event is processed or another copy of it is there.
-/
namespace ForensicChain.Pipeline

open Custody

variable {fromisoformat : String → Option Timestamp} {s t : State} {a : Action} {tag : Tag}
  {m : QueuedMessage} {u : Uuid} {store : Store}

/-- The body is that of the event. -/
def Names (body : Json) (u : Uuid) : Prop := body.field? "event_id" = some (.str u.str)

/-- The message still waits for the consumer, or for an operator. -/
def Kept (s : State) (tag : Tag) (body : Json) : Prop :=
  ∃ m, s.broker tag = some m ∧ m.body = body ∧ m.place ≠ .acked

/-- The event has reached the broker and is there, or it is stored. -/
def Delivered (s : State) (u : Uuid) : Prop :=
  u ∈ s.store.processed ∨ ∃ tag body, Kept s tag body ∧ Names body u

/-- What the phase of the consumer tells about the messages that it holds. -/
def ConsumerInvariant (s : State) : Prop :=
  match s.consumer with
  | .idle | .received _ | .failed _ | .stopped => True
  | .processed tag => ∃ m, s.broker tag = some m ∧ ∀ u, Names m.body u → u ∈ s.store.processed
  | .copied tag copy => tag ≠ copy ∧ ∃ m, s.broker tag = some m ∧ Kept s copy m.body

/-- A message is dead only with the last retry count, and no count is higher. -/
def CountOk (m : QueuedMessage) : Prop :=
  m.retryCount ≤ maxRetries ∧ (m.place = .dead → m.retryCount = maxRetries)

structure Invariant (s : State) : Prop where
  store : StoreInvariant s.store
  ids : (s.outbox.map OutboxRow.id).Nodup
  known : ∀ w c, s.cycles w = some c → ∀ p ∈ c.tried, p.1 ∈ s.outbox.map OutboxRow.id
  rows : ∀ row ∈ s.outbox, row.published = true → Delivered s row.eventId
  tried : ∀ w c, s.cycles w = some c → ∀ row ∈ s.outbox, (row.id, none) ∈ c.tried →
    Delivered s row.eventId
  counts : ∀ tag m, s.broker tag = some m → CountOk m
  consumer : ConsumerInvariant s

/-- No message is lost, changed or acknowledged. -/
def Frame (b c : Tag → Option QueuedMessage) : Prop :=
  ∀ tag m, b tag = some m →
    ∃ m', c tag = some m' ∧ m'.body = m.body ∧ (m'.place = .acked → m.place = .acked)

variable {b : Tag → Option QueuedMessage}

theorem Frame.refl : Frame b b := fun _ m hm => ⟨m, hm, rfl, id⟩

theorem Frame.update (hb : ∀ m', b tag = some m' → m'.body = m.body) (hp : m.place ≠ .acked) :
    Frame b (Function.update b tag (some m)) := by
  intro k m' hm'
  by_cases hk : k = tag
  · subst hk
    exact ⟨m, by simp, (hb m' hm').symm, fun h => (hp h).elim⟩
  · exact ⟨m', by simpa [hk] using hm', rfl, id⟩

theorem Frame.putNew (hb : b tag = none) (hp : m.place ≠ .acked) :
    Frame b (Function.update b tag (some m)) :=
  .update (by simp [hb]) hp

theorem Frame.putAt {stored : Option Tag} (hs : Unused s stored) (hp : m.place ≠ .acked) :
    Frame s.broker (s.putAt stored m).broker := by
  cases stored with
  | none => exact .refl
  | some tag => exact .putNew (hs tag rfl) hp

/-- The place of a message changes, and is not among the acknowledged ones. -/
theorem Frame.move {place : Place} (hb : b tag = some m) (hp : place ≠ .acked) :
    Frame b (Function.update b tag (some { m with place })) := by
  refine .update ?_ hp
  intro m' hm'
  rw [← Option.some.inj (hb.symm.trans hm')]

theorem Frame.requeue : Frame s.broker s.requeue.broker := by
  intro tag m hm
  by_cases hu : m.place = .unacked
  · exact ⟨{ m with place := .queued }, by simp [State.requeue, hm, hu], rfl, by simp⟩
  · exact ⟨m, by simp [State.requeue, hm, hu], rfl, id⟩

theorem Kept.frame {body : Json} (h : Kept s tag body) (hf : Frame s.broker t.broker) :
    Kept t tag body := by
  obtain ⟨m, hm, hb, hp⟩ := h
  obtain ⟨m', hm', hb', hp'⟩ := hf tag m hm
  exact ⟨m', hm', hb'.trans hb, fun ha => hp (hp' ha)⟩

theorem Delivered.frame (h : Delivered s u) (hf : Frame s.broker t.broker)
    (hp : s.store.processed ⊆ t.store.processed) : Delivered t u := by
  rcases h with h | ⟨tag, body, h, hn⟩
  · exact .inl (hp h)
  · exact .inr ⟨tag, body, h.frame hf, hn⟩

theorem ConsumerInvariant.frame (h : ConsumerInvariant s) (hc : t.consumer = s.consumer)
    (hf : Frame s.broker t.broker) (hp : s.store.processed ⊆ t.store.processed) :
    ConsumerInvariant t := by
  revert h
  unfold ConsumerInvariant
  rw [hc]
  cases s.consumer with
  | processed tag =>
    rintro ⟨m, hm, hn⟩
    obtain ⟨m', hm', hb, _⟩ := hf tag m hm
    exact ⟨m', hm', fun u hu => hp (hn u (hb ▸ hu))⟩
  | copied tag copy =>
    rintro ⟨hne, m, hm, hk⟩
    obtain ⟨m', hm', hb, _⟩ := hf tag m hm
    exact ⟨hne, m', hm', hb ▸ hk.frame hf⟩
  | _ => exact fun _ => trivial

/-- Acknowledging a message loses no event that is stored or has another copy. -/
theorem Delivered.ack (h : Delivered s u) (hm : s.broker tag = some m)
    (hother : Names m.body u → u ∈ s.store.processed ∨
      ∃ copy, copy ≠ tag ∧ Kept s copy m.body) :
    Delivered (s.put tag { m with place := .acked }) u := by
  have hput : ∀ k body, k ≠ tag → Kept s k body →
      Kept (s.put tag { m with place := .acked }) k body := by
    rintro k body hk ⟨m', hm', hrest⟩
    exact ⟨m', by simpa [State.put, hk] using hm', hrest⟩
  rcases h with h | ⟨k, body, hkept, hn⟩
  · exact .inl h
  · by_cases hk : k = tag
    · subst hk
      obtain ⟨m', hm', rfl, _⟩ := hkept
      obtain rfl : m = m' := Option.some.inj (hm.symm.trans hm')
      rcases hother hn with h | ⟨copy, hne, hcopy⟩
      · exact .inl h
      · exact .inr ⟨copy, _, hput copy _ hne hcopy, hn⟩
    · exact .inr ⟨k, body, hput k body hk hkept, hn⟩

/-- A step other than an acknowledgement keeps every message that is in the broker. -/
theorem frame_step (hs : Step fromisoformat s a t)
    (ha : a ≠ .ack ∧ a ≠ .ackLost ∧ a ≠ .ackCopied) : Frame s.broker t.broker := by
  cases hs with
  | write | poll | commitCycle | endCycle | receive | processRaised | ackRaised | stop
  | process | processCommitted => exact .refl
  | publishEvent env ht => exact .putNew ht (by simp)
  | publish hw hr hi ht => exact .putNew ht (by simp)
  | publishRaised error hw hr hi ht => exact .putAt ht (by simp)
  | retry hc hm hr ht => exact .putNew ht (by simp)
  | retryRaised hc hm hr ht => exact .putAt ht (by simp)
  | deliver hm hp => exact .move hm (by simp)
  | reject hc hm hr hp => exact .move hm (by simp)
  | disconnect => exact .requeue
  | crash => exact .requeue
  | ack | ackLost | ackCopied => simp at ha

/-- Nothing that was processed is forgotten. -/
theorem processed_step (hs : Step fromisoformat s a t) :
    s.store.processed ⊆ t.store.processed := by
  cases hs with
  | process hc hm hid hp => exact (processMessage_eq_some hp).processed_subset
  | processCommitted hc hm hid hp => exact (processMessage_eq_some hp).processed_subset
  | _ => exact List.Subset.refl _

/-- No step loses an event that has reached the broker. -/
theorem Invariant.delivered_step (h : Invariant s) (hs : Step fromisoformat s a t)
    (hd : Delivered s u) : Delivered t u := by
  by_cases ha : a ≠ .ack ∧ a ≠ .ackLost ∧ a ≠ .ackCopied
  · exact hd.frame (frame_step hs ha) (processed_step hs)
  · have hcons := h.consumer
    cases hs with
    | ack hc hm hp | ackLost hc hm hp =>
      rw [ConsumerInvariant, hc] at hcons
      obtain ⟨m, hm', hn⟩ := hcons
      obtain rfl := Option.some.inj (hm.symm.trans hm')
      exact hd.ack hm fun hu => .inl (hn _ hu)
    | ackCopied hc hm hp =>
      rw [ConsumerInvariant, hc] at hcons
      obtain ⟨hne, m, hm', hk⟩ := hcons
      obtain rfl := Option.some.inj (hm.symm.trans hm')
      exact hd.ack hm fun _ => .inr ⟨_, hne.symm, hk⟩
    | _ => simp at ha

theorem store_step (h : StoreInvariant s.store) (hs : Step fromisoformat s a t) :
    StoreInvariant t.store := by
  cases hs with
  | process hc hm hid hp => exact h.step hid (processMessage_eq_some hp)
  | processCommitted hc hm hid hp => exact h.step hid (processMessage_eq_some hp)
  | _ => exact h

section
variable {P : QueuedMessage → Prop}

theorem messages_update (h : ∀ tag m, b tag = some m → P m) (hm : P m) :
    ∀ k m', Function.update b tag (some m) k = some m' → P m' :=
  Table.forall_update (fun k _ => h k) hm

theorem messages_putAt {stored : Option Tag} (h : ∀ tag m, s.broker tag = some m → P m)
    (hm : P m) : ∀ k m', (s.putAt stored m).broker k = some m' → P m' := by
  cases stored with
  | none => exact h
  | some tag => exact messages_update h hm

theorem messages_requeue (h : ∀ tag m, s.broker tag = some m → P m)
    (hqueued : ∀ m, P m → m.place = .unacked → P { m with place := .queued }) :
    ∀ tag m, s.requeue.broker tag = some m → P m := by
  intro tag m hm
  obtain ⟨m', hm', rfl⟩ := Option.map_eq_some_iff.mp hm
  split_ifs with hu
  · exact hqueued m' (h tag m' hm') hu
  · exact h tag m' hm'

end

theorem CountOk.fresh {body : Json} : CountOk ⟨body, none, .queued⟩ := by
  simp [CountOk, QueuedMessage.retryCount, maxRetries]

theorem CountOk.copy {body : Json} (hr : m.retryCount < maxRetries) :
    CountOk ⟨body, some (m.retryCount + 1), .queued⟩ := by
  simp only [CountOk, QueuedMessage.retryCount, Option.getD_some, reduceCtorEq, false_implies,
    and_true]
  exact hr

theorem CountOk.requeue (h : CountOk m) : CountOk { m with place := .queued } := by
  have hcount : m.retryCount ≤ maxRetries := h.1
  simpa [CountOk, QueuedMessage.retryCount] using hcount

/-- A copy has a higher count than its original, and only the last one is rejected. -/
theorem counts_step (h : ∀ tag m, s.broker tag = some m → CountOk m)
    (hs : Step fromisoformat s a t) : ∀ tag m, t.broker tag = some m → CountOk m := by
  cases hs with
  | write | poll | commitCycle | endCycle | receive | processRaised | ackRaised | stop
  | process | processCommitted => exact h
  | publishEvent env ht => exact messages_update h .fresh
  | publish hw hr hi ht => exact messages_update h .fresh
  | publishRaised error hw hr hi ht => exact messages_putAt h .fresh
  | retry hc hm hr ht => exact messages_update h (.copy hr)
  | retryRaised hc hm hr ht => exact messages_putAt h (.copy hr)
  | deliver hm hp => exact messages_update h ⟨(h _ _ hm).1, by simp⟩
  | reject hc hm hr hp =>
    exact messages_update h ⟨(h _ _ hm).1, fun _ => le_antisymm (h _ _ hm).1 hr⟩
  | ack hc hm hp | ackLost hc hm hp | ackCopied hc hm hp =>
    exact messages_update h ⟨(h _ _ hm).1, by simp⟩
  | disconnect | crash => exact messages_requeue h fun _ hm _ => hm.requeue

theorem uuid_of_names {body : Json} (h : Names body u) :
    body.field? "event_id" >>= asString >>= uuidColumn = some u := by
  have hfield : body.field? "event_id" = some (.str u.str) := h
  simp [hfield, asString, uuidColumn_str]

/-- What the consumer does next rests on what it did last. -/
theorem consumer_step (h : ConsumerInvariant s) (hs : Step fromisoformat s a t) :
    ConsumerInvariant t := by
  have hproc := processed_step hs
  cases hs with
  | write | poll | commitCycle | endCycle => exact h.frame rfl .refl hproc
  | publishEvent env ht => exact h.frame rfl (.putNew ht (by simp)) hproc
  | publish hw hr hi ht => exact h.frame rfl (.putNew ht (by simp)) hproc
  | publishRaised error hw hr hi ht => exact h.frame rfl (.putAt ht (by simp)) hproc
  | deliver hm hp => exact h.frame rfl (.move hm (by simp)) hproc
  | disconnect => exact h.frame rfl .requeue hproc
  | process hc hm hid hp =>
    refine ⟨_, hm, ?_⟩
    intro u hu
    exact (processMessage_eq_some hp).mem_processed (uuid_of_names hu)
  | retry hc hm hr ht =>
    rename_i tag copy m
    have hne : tag ≠ copy := by
      rintro rfl
      simp [hm] at ht
    refine ⟨hne, m, ?_, ⟨m.body, some (m.retryCount + 1), .queued⟩, ?_, rfl, by simp⟩
    · simpa [State.setConsumer, State.put, hne] using hm
    · simp [State.setConsumer, State.put]
  | receive | processRaised | processCommitted | ack | ackRaised | ackLost | retryRaised
  | ackCopied | reject | stop | crash => trivial

variable {row : OutboxRow} {tried : List (Nat × Option String)}

@[simp]
theorem OutboxRow.record_id : (row.record tried).id = row.id := by
  unfold OutboxRow.record
  split <;> rfl

@[simp]
theorem OutboxRow.record_eventId : (row.record tried).eventId = row.eventId := by
  unfold OutboxRow.record
  split <;> rfl

/-- A cycle marks the rows whose publish returned. -/
theorem OutboxRow.record_published (h : (row.record tried).published = true) :
    row.published = true ∨ (row.id, none) ∈ tried := by
  unfold OutboxRow.record at h
  split at h
  · exact .inl h
  · rename_i hl
    obtain ⟨l, k, rfl, _⟩ := List.lookup_eq_some_iff.mp hl
    exact .inr (by simp)
  · exact .inl h

theorem map_record_ids {outbox : List OutboxRow} :
    (outbox.map fun row => row.record tried).map OutboxRow.id = outbox.map OutboxRow.id := by
  simp [Function.comp_def]

theorem cycles_update {P : Cycle → Prop} {cycles : WorkerId → Option Cycle} {w : WorkerId}
    {new : Option Cycle} (h : ∀ w c, cycles w = some c → P c) (hnew : ∀ c, new = some c → P c) :
    ∀ v c, Function.update cycles w new v = some c → P c := by
  intro v c hc
  by_cases hv : v = w
  · subst hv
    exact hnew c (by simpa using hc)
  · exact h v c (by simpa [hv] using hc)

theorem ids_step (h : (s.outbox.map OutboxRow.id).Nodup) (hs : Step fromisoformat s a t) :
    (t.outbox.map OutboxRow.id).Nodup := by
  cases hs with
  | write row hid he hp =>
    simp only [List.map_append, List.map_cons, List.map_nil]
    apply h.append (List.nodup_singleton _)
    simpa using hid
  | commitCycle hw => exact map_record_ids.symm ▸ h
  | _ => exact h

/-- A cycle has tried only rows of the table. -/
theorem known_step (h : Invariant s) (hs : Step fromisoformat s a t) :
    ∀ w c, t.cycles w = some c → ∀ p ∈ c.tried, p.1 ∈ t.outbox.map OutboxRow.id := by
  have hknown := h.known
  cases hs with
  | write row hid he hp =>
    intro w c hc p hp
    simp only [List.map_append]
    exact List.mem_append_left _ (hknown w c hc p hp)
  | poll hw hp => exact cycles_update hknown (by simp)
  | publish hw hr hi ht | publishRaised error hw hr hi ht =>
    apply cycles_update hknown
    rintro c hc p hp
    obtain rfl := Option.some.inj hc
    rcases List.mem_cons.mp hp with rfl | hp
    · exact hi ▸ List.mem_map_of_mem hr
    · exact hknown _ _ hw p hp
  | commitCycle hw => exact map_record_ids.symm ▸ cycles_update hknown (by simp)
  | endCycle => exact cycles_update hknown (by simp)
  | _ => exact hknown

/-- What a cycle has published is delivered. -/
theorem tried_step (h : Invariant s) (hs : Step fromisoformat s a t) :
    ∀ w c, t.cycles w = some c → ∀ row ∈ t.outbox, (row.id, none) ∈ c.tried →
      Delivered t row.eventId := by
  have hold : ∀ w c, s.cycles w = some c → ∀ row ∈ s.outbox, (row.id, none) ∈ c.tried →
      Delivered t row.eventId :=
    fun w c hc row hr ht => h.delivered_step hs (h.tried w c hc row hr ht)
  cases hs with
  | write row hid he hp =>
    intro w c hc q hq ht
    rcases List.mem_append.mp hq with hq | hq
    · exact hold w c hc q hq ht
    · obtain rfl := List.mem_singleton.mp hq
      obtain ⟨r, hr, he⟩ := List.mem_map.mp (h.known w c hc _ ht)
      exact (hid r hr he).elim
  | poll hw hp => exact cycles_update hold (by simp)
  | publish hw hr hi ht =>
    rename_i w tag id todo tried row
    apply cycles_update hold
    rintro c hc q hq htried
    obtain rfl := Option.some.inj hc
    rcases List.mem_cons.mp htried with he | htried
    · -- the row just published: its message is in the broker
      have hid : q.id = row.id := by simpa [hi] using congrArg Prod.fst he
      obtain rfl := List.inj_on_of_nodup_map h.ids hq hr hid
      exact .inr ⟨tag, q.payload.value, ⟨⟨q.payload.value, none, .queued⟩,
        by simp [State.setCycle, State.put], rfl, by simp⟩, q.named⟩
    · exact hold w _ hw q hq htried
  | publishRaised error hw hr hi ht =>
    apply cycles_update hold
    rintro c hc q hq htried
    obtain rfl := Option.some.inj hc
    rcases List.mem_cons.mp htried with he | htried
    · simp at he
    · exact hold _ _ hw q hq htried
  | commitCycle hw =>
    intro w c hc q hq ht
    obtain ⟨r, hr, rfl⟩ := List.mem_map.mp hq
    simp only [OutboxRow.record_id] at ht
    simp only [OutboxRow.record_eventId]
    exact cycles_update (P := fun c => (r.id, none) ∈ c.tried → Delivered _ r.eventId)
      (fun w c hc ht => hold w c hc r hr ht) (by simp) w c hc ht
  | endCycle => exact cycles_update hold (by simp)
  | _ => exact hold

/-- A row is marked as published only when its event is delivered. -/
theorem rows_step (h : Invariant s) (hs : Step fromisoformat s a t) :
    ∀ row ∈ t.outbox, row.published = true → Delivered t row.eventId := by
  have hold : ∀ row ∈ s.outbox, row.published = true → Delivered t row.eventId :=
    fun row hr hp => h.delivered_step hs (h.rows row hr hp)
  have htried : ∀ w c, s.cycles w = some c → ∀ row ∈ s.outbox, (row.id, none) ∈ c.tried →
      Delivered t row.eventId :=
    fun w c hc row hr ht => h.delivered_step hs (h.tried w c hc row hr ht)
  cases hs with
  | write row hid he hp =>
    intro q hq hpub
    rcases List.mem_append.mp hq with hq | hq
    · exact hold q hq hpub
    · obtain rfl := List.mem_singleton.mp hq
      simp [hp] at hpub
  | commitCycle hw =>
    intro q hq hpub
    obtain ⟨r, hr, rfl⟩ := List.mem_map.mp hq
    rw [OutboxRow.record_eventId]
    rcases OutboxRow.record_published hpub with hpub | ht
    · exact hold r hr hpub
    · exact htried _ _ hw r hr ht
  | _ => exact hold

theorem Invariant.step (h : Invariant s) (hs : Step fromisoformat s a t) : Invariant t where
  store := store_step h.store hs
  ids := ids_step h.ids hs
  known := known_step h hs
  rows := rows_step h hs
  tried := tried_step h hs
  counts := counts_step h.counts hs
  consumer := consumer_step h.consumer hs

theorem invariant_initial (h : Initial s) : Invariant s := by
  obtain ⟨ho, hw, hb, hs, hc⟩ := h
  constructor
  · rw [hs]
    exact ⟨List.Pairwise.nil, List.nodup_nil, rfl, by simp⟩
  · simp [ho]
  · simp [hw]
  · simp [ho]
  · simp [hw]
  · simp [hb]
  · simp [ConsumerInvariant, hc]

theorem invariant_reachable (h : (system fromisoformat).Reachable s) : Invariant s :=
  h.invariant (fun _ => invariant_initial) fun _ _ _ hi hs => hi.step hs

/-- The event has a row in the custody table. -/
def Stored (s : State) (u : Uuid) : Prop := u ∈ s.store.events.map CustodyEvent.eventId

/-- A message of the event stands at the given place. -/
def At (s : State) (place : Place) (u : Uuid) : Prop :=
  ∃ tag m, s.broker tag = some m ∧ m.place = place ∧ Names m.body u

/-- No event is lost and none is stored twice, in any run of the pipeline. -/
theorem no_event_lost_none_doubled (h : (system fromisoformat).Reachable s) :
    (s.store.events.map CustodyEvent.eventId).Nodup ∧
      (∀ row ∈ s.outbox, row.published = false ∨ At s .queued row.eventId ∨
        At s .unacked row.eventId ∨ Stored s row.eventId ∨ At s .dead row.eventId) ∧
      (∀ u, Stored s u ↔ u ∈ s.store.processed) ∧
      ∀ tag m, s.broker tag = some m → m.place = .dead → m.retryCount = maxRetries := by
  have hinv := invariant_reachable h
  refine ⟨hinv.store.eventIds, ?_, ?_, fun tag m hm => (hinv.counts tag m hm).2⟩
  · intro row hr
    cases hp : row.published with
    | false => exact .inl rfl
    | true =>
      right
      rcases hinv.rows row hr hp with hd | ⟨tag, body, ⟨m, hm, rfl, hplace⟩, hn⟩
      · exact .inr (.inr (.inl (by rwa [Stored, ← hinv.store.processed])))
      · cases hpl : m.place with
        | queued => exact .inl ⟨tag, m, hm, hpl, hn⟩
        | unacked => exact .inr (.inl ⟨tag, m, hm, hpl, hn⟩)
        | acked => exact (hplace hpl).elim
        | dead => exact .inr (.inr (.inr ⟨tag, m, hm, hpl, hn⟩))
  · intro u
    rw [hinv.store.processed, Stored]

theorem viewed_neither_lost_nor_doubled :
    ∃ s, (system DateTime.fromisoformat).Reachable s ∧ s.outbox.map OutboxRow.eventId = [viewedId] ∧
      Stored s viewedId ∧ (s.store.events.map CustodyEvent.eventId).Nodup ∧
      ∀ u, Stored s u ↔ u ∈ s.store.processed := by
  have ht : DateTime.fromisoformat
      (Text.replaceChar 'Z' "+00:00" "2025-01-31T10:00:00.500000+00:00") =
        some 63873914400500000 := by decide
  obtain ⟨s, text, hs, ho, hst, _, _⟩ := viewed_run (fun _ _ _ => trivial) ht fun _ _ => trivial
  obtain ⟨hnd, _, hstored, _⟩ := no_event_lost_none_doubled hs
  refine ⟨s, hs, by rw [ho]; rfl, ?_, hnd, hstored⟩
  rw [Stored, hst]
  exact List.mem_singleton_self _

end ForensicChain.Pipeline
