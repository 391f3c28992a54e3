import ForensicChain.Pipeline.Model

/-! Runs without a failure: one event through the outbox, and one message through the consumer. -/
namespace ForensicChain.Pipeline

open Custody TransitionSystem

/-- A step that stores no event. -/
def Quiet (a : Action) : Prop := ∀ id, a ≠ .process id ∧ a ≠ .processCommitted id

variable {fromisoformat : String → Option Timestamp} {s : State} {row : OutboxRow} {tag : Tag}
  {m : QueuedMessage} {store : Store} {ok : State → Action → Prop} {id : Nat}

theorem picks_singleton (ho : s.outbox = [row]) (hw : ∀ w, s.cycles w = none)
    (hp : row.published = false) : s.Picks [row.id] := by
  refine ⟨[row], [row], ?_, List.nodup_singleton _, .refl _, List.pairwise_singleton _ _, .refl _⟩
  intro q
  rw [ho, List.mem_singleton]
  constructor
  · rintro rfl
    exact ⟨rfl, hp, by simp [hw]⟩
  · exact And.left

/-- The only row of the outbox is published and marked. -/
theorem relay_path (hq : ∀ s a, Quiet a → Internal a → ok s a) (ho : s.outbox = [row])
    (hw : ∀ w, s.cycles w = none) (ht : s.broker tag = none) (hp : row.published = false) :
    (system fromisoformat).Path ok s { s with
      outbox := [{ row with published := true }]
      broker := Function.update s.broker tag (some ⟨row.payload.value, none, .queued⟩) } := by
  have hstart : (system fromisoformat).Path ok s s := .refl
  have hpoll := hstart.step (hq _ (.poll 0 [row.id]) (by simp [Quiet])
    (by simp [Internal])) (.poll (hw 0) (picks_singleton ho hw hp))
  have htodo : Function.update s.cycles 0 (some ⟨[row.id], []⟩) 0 = some ⟨[row.id], []⟩ := by simp
  have hrow : row ∈ s.outbox := by simp [ho]
  have hpublish := hpoll.step (hq _ (.publish 0 tag) (by simp [Quiet]) (by simp [Internal]))
    (.publish htodo hrow rfl ht)
  have htried : Function.update (Function.update s.cycles 0 (some ⟨[row.id], []⟩)) 0
      (some ⟨[], [(row.id, none)]⟩) 0 = some ⟨[], [(row.id, none)]⟩ := by simp
  have hcommit := hpublish.step (hq _ (.commitCycle 0) (by simp [Quiet]) (by simp [Internal]))
    (.commitCycle htried)
  have hcycles : Function.update s.cycles 0 none = s.cycles :=
    Function.update_eq_self_iff.mpr (hw 0).symm
  simpa [State.setCycle, State.put, ho, OutboxRow.record, hcycles] using hcommit

theorem relayed (hq : ∀ s a, Quiet a → ok s a) (hs : (system fromisoformat).ReachableWhen ok s)
    (ho : s.outbox = []) (hw : ∀ w, s.cycles w = none) (ht : s.broker tag = none)
    (hp : row.published = false) :
    (system fromisoformat).ReachableWhen ok { s with
      outbox := [{ row with published := true }]
      broker := Function.update s.broker tag (some ⟨row.payload.value, none, .queued⟩) } := by
  have hwrite := hs.step (hq _ (.write row) (by simp [Quiet]))
    (.write row (by simp [ho]) (by simp [ho]) hp)
  have hone : s.outbox ++ [row] = [row] := by simp [ho]
  exact hwrite.path (relay_path (fun s a ha _ => hq s a ha) hone hw ht hp)

/-- A queued message is delivered, processed and acknowledged. -/
theorem consume_path (hq : ∀ s a, Quiet a → Internal a → ok s a) (hc : s.consumer = .idle)
    (hm : s.broker tag = some m) (hp : m.place = .queued) (hid : ∀ e ∈ s.store.events, e.id < id)
    (hstore : processMessage fromisoformat s.store id m.body = some store)
    (hok : ∀ t : State, t.store = s.store → t.consumer = .received tag →
      t.broker tag = some { m with place := .unacked } → ok t (.process id)) :
    (system fromisoformat).Path ok s { s with
      broker := Function.update s.broker tag (some { m with place := .acked })
      store := store } := by
  have hstart : (system fromisoformat).Path ok s s := .refl
  have hdeliver := hstart.step (hq _ (.deliver tag) (by simp [Quiet]) (by simp [Internal]))
    (.deliver hm hp)
  have hput : Function.update s.broker tag (some { m with place := .unacked }) tag =
      some { m with place := .unacked } := by simp
  have hreceive := hdeliver.step (hq _ (.receive tag) (by simp [Quiet]) (by simp [Internal]))
    (.receive hc hput rfl)
  have hprocess := hreceive.step (hok _ rfl rfl hput) (.process rfl hput hid hstore)
  have hack := hprocess.step (hq _ .ack (by simp [Quiet]) (by simp [Internal]))
    (.ack rfl hput rfl)
  simpa [State.put, State.setConsumer, State.setStore, hc] using hack

theorem consumed (hq : ∀ s a, Quiet a → ok s a) (hs : (system fromisoformat).ReachableWhen ok s)
    (hc : s.consumer = .idle) (hm : s.broker tag = some m) (hp : m.place = .queued)
    (hid : ∀ e ∈ s.store.events, e.id < id)
    (hstore : processMessage fromisoformat s.store id m.body = some store)
    (hok : ∀ t : State, t.store = s.store → t.consumer = .received tag →
      t.broker tag = some { m with place := .unacked } → ok t (.process id)) :
    (system fromisoformat).ReachableWhen ok { s with
      broker := Function.update s.broker tag (some { m with place := .acked })
      store := store } :=
  hs.path (consume_path (fun s a ha _ => hq s a ha) hc hm hp hid hstore hok)

/-- An event of a new row reaches the custody table. -/
theorem relayed_consumed (hq : ∀ s a, Quiet a → ok s a)
    (hs : (system fromisoformat).ReachableWhen ok s) (ho : s.outbox = [])
    (hw : ∀ w, s.cycles w = none) (ht : s.broker tag = none) (hp : row.published = false)
    (hc : s.consumer = .idle) (hid : ∀ e ∈ s.store.events, e.id < id)
    (hstore : processMessage fromisoformat s.store id row.payload.value = some store)
    (hok : ∀ t : State, t.store = s.store → t.consumer = .received tag →
      t.broker tag = some ⟨row.payload.value, none, .unacked⟩ → ok t (.process id)) :
    ∃ t, (system fromisoformat).ReachableWhen ok t ∧
      t.outbox = [{ row with published := true }] ∧ t.store = store ∧ t.consumer = .idle ∧
      ∀ k, k ≠ tag → t.broker k = s.broker k := by
  have hput : Function.update s.broker tag (some ⟨row.payload.value, none, .queued⟩) tag =
      some ⟨row.payload.value, none, .queued⟩ := by simp
  have hconsumed := consumed hq (relayed hq hs ho hw ht hp) hc hput rfl hid hstore hok
  refine ⟨_, hconsumed, rfl, rfl, hc, ?_⟩
  intro k hk
  simp [hk]

/-- An event that is published directly reaches the custody table. -/
theorem published_consumed {env : Envelope} (hq : ∀ s a, Quiet a → ok s a)
    (hs : (system fromisoformat).ReachableWhen ok s) (ht : s.broker tag = none)
    (hc : s.consumer = .idle) (hid : ∀ e ∈ s.store.events, e.id < id)
    (hstore : processMessage fromisoformat s.store id env.toJson = some store)
    (hok : ∀ t : State, t.store = s.store → t.consumer = .received tag →
      t.broker tag = some ⟨env.toJson, none, .unacked⟩ → ok t (.process id)) :
    ∃ t, (system fromisoformat).ReachableWhen ok t ∧ t.store = store := by
  have hpublish := hs.step (hq _ (.publishEvent tag env) (by simp [Quiet])) (.publishEvent env ht)
  have hput : Function.update s.broker tag (some ⟨env.toJson, none, .queued⟩) tag =
      some ⟨env.toJson, none, .queued⟩ := by simp
  have hconsumed := consumed hq hpublish hc hput rfl hid hstore hok
  exact ⟨_, hconsumed, rfl⟩

/-- Before the first event. -/
def State.empty : State := ⟨[], fun _ => none, fun _ => none, ⟨[], [], []⟩, .idle⟩

theorem empty_reachable : (system fromisoformat).ReachableWhen ok State.empty :=
  .init ⟨rfl, fun _ => rfl, fun _ => rfl, rfl, rfl⟩

/-- The first row of the outbox becomes the first event of the custody table. -/
theorem stored_path (hp : row.published = false)
    (hstore : processMessage fromisoformat State.empty.store 1 row.payload.value = some store) :
    ∃ p, (system fromisoformat).Path (fun _ a => Internal a)
      { State.empty with outbox := [row] } p ∧ p.store = store ∧ p.consumer = .idle ∧
        p.broker 1 = none := by
  let sent : State := { State.empty with
    outbox := [{ row with published := true }]
    broker := Function.update State.empty.broker 0 (some ⟨row.payload.value, none, .queued⟩) }
  have hrelay : (system fromisoformat).Path (fun _ a => Internal a)
      { State.empty with outbox := [row] } sent :=
    relay_path (fun _ _ _ ha => ha) rfl (fun _ => rfl) rfl hp
  have hconsume := consume_path (fun _ _ _ ha => ha) (show sent.consumer = .idle from rfl)
    (Function.update_self _ _ _) rfl (fun e he => absurd he List.not_mem_nil) hstore
    fun _ _ _ _ => by simp [Internal]
  exact ⟨_, hrelay.trans hconsume, rfl, rfl, rfl⟩

/-- The outbox row of the first event. -/
def viewedRow (timestamp : String) : OutboxRow := outboxRow 1 (viewedEnvelope viewedId timestamp) 0

variable {viewed downloaded : String} {first second : Timestamp}

/-- The state after the first event came through the outbox. -/
theorem viewed_run (hq : ∀ s a, Quiet a → ok s a)
    (ht : fromisoformat (Text.replaceChar 'Z' "+00:00" viewed) = some first)
    (hok : ∀ t : State, t.store = ⟨[], [], []⟩ → ok t (.process 1)) :
    ∃ s text, (system fromisoformat).ReachableWhen ok s ∧
      s.outbox = [{ viewedRow viewed with published := true }] ∧
      s.store = ⟨[viewedEvent viewedId viewed first], [viewedId], [text]⟩ ∧
      s.consumer = .idle ∧ s.broker 1 = none := by
  obtain ⟨text, hp⟩ := viewed_processed viewedId ht
  rw [← processMessage_sortKeys (by simp [viewedEnvelope, Json.sortKeys, Json.sortMembers])] at hp
  have hrow : (viewedRow viewed).published = false := rfl
  have htag : State.empty.broker 0 = none := rfl
  obtain ⟨s, hs, ho, hst, hc, hb⟩ := relayed_consumed hq empty_reachable rfl (fun _ => rfl) htag
    hrow rfl (by simp [State.empty]) hp fun t ht _ _ => hok t ht
  exact ⟨s, text, hs, ho, hst, hc, hb 1 (by decide)⟩

/-- The state after the audit reporter's event followed. -/
theorem downloaded_run (hq : ∀ s a, Quiet a → ok s a)
    (ht : fromisoformat (Text.replaceChar 'Z' "+00:00" viewed) = some first)
    (ht' : fromisoformat (Text.replaceChar 'Z' "+00:00" downloaded) = some second)
    (hok : ∀ t : State, t.store = ⟨[], [], []⟩ → ok t (.process 1))
    (hok' : ∀ t : State, t.store.events = [viewedEvent viewedId viewed first] →
      t.consumer = .received 1 →
      t.broker 1 = some ⟨(downloadedEnvelope downloadedId downloaded).toJson, none, .unacked⟩ →
      ok t (.process 2)) :
    ∃ s, (system fromisoformat).ReachableWhen ok s ∧
      s.store.events = [viewedEvent viewedId viewed first,
        downloadedEvent downloaded second (viewedEvent viewedId viewed first).eventHash] := by
  obtain ⟨s, text, hs, _, hst, hc, hb⟩ := viewed_run hq ht hok
  obtain ⟨store, hstored, hevents⟩ := downloaded_processed text ht'
  have hid : ∀ e ∈ s.store.events, e.id < 2 := by
    rw [hst]
    intro e he
    obtain rfl := List.mem_singleton.mp he
    exact Nat.lt_succ_self 1
  obtain ⟨t, hreach, htst⟩ := published_consumed hq hs hb hc hid (hst ▸ hstored)
    fun t ht hc hb => hok' t (by rw [ht, hst]) hc hb
  exact ⟨t, hreach, htst ▸ hevents⟩

end ForensicChain.Pipeline
