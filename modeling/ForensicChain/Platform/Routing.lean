import ForensicChain.Library.Broker
import ForensicChain.Platform.Documentation

/-!
Where the events go: the services set up the broker each time they connect, and once the custody
service has done so, every event reaches its queue and no other.
-/
namespace ForensicChain.Platform

open Broker (Client Command Exchange Topology)
open Custody (Envelope)

def exchangeName : String := "forensicchain.events"

def dlxName : String := "forensicchain.dlx"

def queueName : String := "custody.events.queue"

def dlqName : String := "custody.events.dlq"

def eventExchange : Exchange := ⟨.topic, true⟩

/-- `_setup_rabbitmq` of the custody service. -/
def custodySetup : List Command := [
  .declareExchange dlxName ⟨.direct, true⟩,
  .declareQueue dlqName ⟨true, []⟩,
  .bind ⟨dlqName, dlxName, dlqName⟩,
  .declareExchange exchangeName eventExchange,
  .declareQueue queueName
    ⟨true, [("x-dead-letter-exchange", dlxName), ("x-dead-letter-routing-key", dlqName)]⟩,
  .bind ⟨queueName, exchangeName, "forensicchain.#"⟩]

/-- The start of `consume_events`, on the same connection. -/
def consumeEventsSetup : List Command := [.getExchange exchangeName, .getQueue queueName]

/-- `_setup_rabbitmq` of the audit reporter. -/
def reporterSetup : List Command := [.declareExchange exchangeName eventExchange]

/-- The start of the outbox worker. -/
def workerSetup : List Command := [.declareExchange exchangeName eventExchange]

def programs : List (List Command) :=
  [custodySetup ++ consumeEventsSetup, reporterSetup, workerSetup]

/-- What the custody service declares. -/
def eventTopology : Topology where
  exchanges name :=
    if name = dlxName then some ⟨.direct, true⟩
    else if name = exchangeName then some eventExchange else none
  queues name :=
    if name = dlqName then some ⟨true, []⟩
    else if name = queueName then
      some ⟨true, [("x-dead-letter-exchange", dlxName), ("x-dead-letter-routing-key", dlqName)]⟩
    else none
  bindings := [⟨dlqName, dlxName, dlqName⟩, ⟨queueName, exchangeName, "forensicchain.#"⟩]

/-- Where a queue sends what is rejected. -/
def deadLetters (t : Topology) (queue : String) : List String :=
  match t.queues queue with
  | none => []
  | some q =>
    match q.arguments.lookup "x-dead-letter-exchange",
        q.arguments.lookup "x-dead-letter-routing-key" with
    | some exchange, some key => t.routes exchange key
    | _, _ => []

variable {fromisoformat : String → Option Timestamp} {keys : HashSign.Signer} {s : State}
  {b b' : Broker.State} {i : Nat} {k : Client} {t : Topology}

theorem programs_planned : ∀ p ∈ programs, ∀ c ∈ p, c.Met eventTopology := by
  simp [programs, custodySetup, consumeEventsSetup, reporterSetup, workerSetup, Command.Met,
    eventTopology, dlxName, dlqName, exchangeName, queueName]

theorem programs_ordered : ∀ p ∈ programs, Broker.wellOrdered [] p = true := by decide

theorem eventTopology_within (h : ∀ c ∈ custodySetup, c.Met t) : eventTopology.Within t where
  exchanges name e he := by
    simp only [eventTopology] at he
    split_ifs at he with hdlx hevents
    · rw [hdlx, ← Option.some.inj he]
      exact h (.declareExchange dlxName ⟨.direct, true⟩) (by simp [custodySetup])
    · rw [hevents, ← Option.some.inj he]
      exact h (.declareExchange exchangeName eventExchange) (by simp [custodySetup])
  queues name q hq := by
    simp only [eventTopology] at hq
    split_ifs at hq with hdlq hqueue
    · rw [hdlq, ← Option.some.inj hq]
      exact h (.declareQueue dlqName ⟨true, []⟩) (by simp [custodySetup])
    · rw [hqueue, ← Option.some.inj hq]
      exact h (.declareQueue queueName _) (by simp [custodySetup])
  bindings binding hbinding := h (.bind binding) (by
    rcases List.mem_cons.mp hbinding with rfl | hlast
    · simp [custodySetup]
    · simp [custodySetup, List.mem_singleton.mp hlast])

/-- Every key that the services use lies under the binding. -/
theorem routes_events {key : String} (h : ∃ kind ∈ eventKinds, kind.2 = key) :
    eventTopology.routes exchangeName key = [queueName] := by
  obtain ⟨kind, hkind, rfl⟩ := h
  have hunder : ∀ kind ∈ eventKinds,
      (Broker.words kind.2).head? = some "forensicchain".toList := by decide
  have htakes : Broker.ExchangeType.topic.takes "forensicchain.#" kind.2 = true :=
    (Broker.matchesTopic_under (by decide) (by decide)).mpr (hunder kind hkind)
  simp [Topology.routes, eventTopology, eventExchange, exchangeName, dlxName, htakes]

theorem routes_dead : eventTopology.routes dlxName dlqName = [dlqName] := by
  simp [Topology.routes, eventTopology, exchangeName, dlxName, dlqName, Broker.ExchangeType.takes]

/-- Once the custody service has set up the broker, then whatever clients come and go: no client is
refused, every event on its way is routed to the queue of the custody service alone, and what that
queue rejects goes to the dead letters alone. -/
theorem events_routed (h : (system fromisoformat keys).Reachable s)
    (hb : (Broker.system programs).Reachable b) (hi : b.clients i = some k)
    (hdone : custodySetup <+: k.done)
    (hp : (Broker.system programs).Path (fun _ _ => True) b b') :
    (∀ j done c rest, b'.clients j = some ⟨done, c :: rest⟩ →
      ∃ t, c.run b'.topology = some t) ∧
    Pipeline.Carries (fun body => ∃ key, body.field? "routing_key" = some (.str key) ∧
      b'.topology.routes exchangeName key = [queueName]) s.pipeline ∧
    deadLetters b'.topology queueName = [dlqName] := by
  have hinv := Broker.invariant_reachable programs_planned programs_ordered hb
  have hinv' := Broker.invariant_reachable programs_planned programs_ordered (hb.path hp)
  have hset : eventTopology.Within b'.topology := eventTopology_within fun c hc =>
    (hinv.met i k hi c (hdone.subset hc)).mono (Broker.within_path hp)
  refine ⟨fun j done c rest hj => hinv'.taken hj, ?_, ?_⟩
  · refine (ofKind_reachable h).mono fun body hbody => ?_
    obtain ⟨kind, hkind, _, hkey⟩ := hbody
    exact ⟨kind.2, hkey, Broker.routes_of_plan hinv'.within hset (routes_events ⟨kind, hkind, rfl⟩)⟩
  · have hqueue := hset.queues queueName _ (by simp [eventTopology, queueName, dlqName]; rfl)
    simp only [deadLetters, hqueue]
    exact Broker.routes_of_plan hinv'.within hset routes_dead

/-- The custody service has come up, and its topology is there. -/
theorem custody_connected : ∃ b k, (Broker.system programs).Reachable b ∧
    b.clients 0 = some k ∧ k.done = custodySetup ++ consumeEventsSetup := by
  have hstart : (Broker.system programs).Reachable ⟨.empty, fun _ => none⟩ :=
    .init ⟨rfl, fun _ => rfl⟩
  have hstep : (Broker.system programs).step ⟨.empty, fun _ => none⟩ (.connect 0) _ :=
    Broker.Step.connect rfl List.mem_cons_self
  have hconnected := hstart.step hstep
  obtain ⟨b, hp, hdone⟩ := Broker.Invariant.finishes programs_planned programs_ordered
    (Broker.invariant_reachable programs_planned programs_ordered hconnected)
    (Function.update_self _ _ _)
  exact ⟨b, _, hconnected.path hp, hdone, rfl⟩

theorem sample_routed : ∃ b b' : Broker.State, (Broker.system programs).Reachable b' ∧
    (Broker.system programs).Path (fun _ _ => True) b b' ∧
    b'.topology.routes exchangeName "forensicchain.evidence.ingested" = [queueName] ∧
    deadLetters b'.topology queueName = [dlqName] := by
  obtain ⟨b, k, hb, hi, hdone⟩ := custody_connected
  have hworker : (Broker.system programs).Path (fun _ _ => True) b _ :=
    .step .refl trivial (Broker.Step.disconnect (i := 0))
  obtain ⟨w, _, hwrote⟩ := sample_written_run
  have hprefix : custodySetup <+: k.done := hdone ▸ List.prefix_append _ _
  obtain ⟨_, hcarried, hdead⟩ := events_routed hwrote hb hi hprefix hworker
  obtain ⟨key, hkey, hroutes⟩ := hcarried.rows _ (List.mem_singleton_self _)
  have hname : (Pipeline.outboxRow 1 sampleIngestion 0).payload.value.field? "routing_key" =
      some (.str "forensicchain.evidence.ingested") := by
    show sampleIngestion.toJson.sortKeys.field? "routing_key" = _
    rw [Envelope.toJson_sortKeys]
    simp [Json.field?, sampleIngestion, Evidence.ingestedEnvelope]
  obtain rfl := Json.str.inj (Option.some.inj (hname.symm.trans hkey))
  exact ⟨b, _, hb.path hworker, hworker, hroutes, hdead⟩

end ForensicChain.Platform
