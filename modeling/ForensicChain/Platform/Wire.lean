import ForensicChain.Custody.Wire
import ForensicChain.Platform.Documentation

/-!
The bodies of the events on the wire. Whatever order the members of an object are written in, the
consumer reads the value that was written, and does with it what the body stands for.
-/
namespace ForensicChain.Platform

open Custody
open Reports (ReportAction ReportRequest ReportStep)

variable {fromisoformat : String → Option Timestamp} {keys : HashSign.Signer} {s t : State}
  {env : Envelope} {body : Json} {o : Option String}

@[simp]
theorem proper_nullOr : (nullOr o).Proper := by
  cases o <;> trivial

/-- The payload of an envelope is all that may be improper. -/
theorem proper_toJson (h : (Json.obj env.payload).Proper) : env.toJson.Proper := by
  have hpayload : (env.payload.map Prod.fst).Nodup ∧ Json.MembersProper env.payload := h
  simp [Envelope.toJson, Json.Proper, Json.MembersProper, hpayload]

theorem payload_of_writes {s t : Evidence.State} (h : Evidence.Writes s t env) :
    (Json.obj env.payload).Proper := by
  cases h with
  | ingested =>
    simp [Evidence.ingestedEnvelope, Json.Proper, Json.MembersProper, JsonNumber.valid_ofNat]
  | requested =>
    simp [Evidence.requestedEnvelope, Evidence.evidenceEnvelope, Json.Proper, Json.MembersProper]
  | outcome => simp [Evidence.outcomeEnvelope, Json.Proper, Json.MembersProper]

theorem Accesses.payload {w : Evidence.World} {a : Access} (h : Accesses w a env) :
    (Json.obj env.payload).Proper := by
  obtain ⟨_, _, _, _, _, rfl, _⟩ := h.event
  simp [Evidence.evidenceEvent, Json.Proper, Json.MembersProper]

theorem Announced.payload {n : Reports.Announcement} (h : Announced n) :
    (Json.obj n.payload).Proper := by
  cases h <;> simp [Reports.generatedAnnouncement, Reports.downloadedAnnouncement,
    Reports.verifiedAnnouncement, Json.Proper, Json.MembersProper]

theorem Brings.proper (h : Brings s t x body)
    (hr : ∀ i r, s.requests i = some r → Announces r) : body.Proper := by
  cases h with
  | written hw ho => exact (Json.proper_sortKeys _).mpr (proper_toJson (payload_of_writes hw))
  | accessed hi ha hp => exact (Json.proper_sortKeys _).mpr (proper_toJson ha.payload)
  | published hi hs =>
    obtain ⟨n, _, _, hn, rfl⟩ := announced_of_published (hr _ _ hi) hs
    exact proper_toJson hn.payload

theorem proper_reachable (h : (system fromisoformat keys).Reachable s) :
    Pipeline.Carries Json.Proper s.pipeline := by
  induction h with
  | init h => exact Pipeline.carries_initial h.2.2.1
  | step hr _ hs ih => exact hs.carries ih fun _ hb => hb.proper (announces_reachable hr)

/-- The outbox and the broker hold nothing that the consumer does not read back. -/
theorem events_read_back (h : (system fromisoformat keys).Reachable s) :
    Pipeline.Carries (ReadBack fromisoformat) s.pipeline :=
  (proper_reachable h).mono fun _ => readBack_of_proper

/-- The event of an ingestion, written in the order of the handler. -/
theorem sample_read_back : ∃ s, ∃ row ∈ s.pipeline.outbox,
    (system DateTime.fromisoformat HashSign.plainKeys).Reachable s ∧
    Json.loads sampleIngestion.toJson.render = some sampleIngestion.toJson ∧
    ∀ store id, processMessage DateTime.fromisoformat store id sampleIngestion.toJson =
      processMessage DateTime.fromisoformat store id row.payload.value := by
  obtain ⟨w, _, hwrote⟩ := sample_written_run
  have hsame : sampleIngestion.toJson.Same (Pipeline.outboxRow 1 sampleIngestion 0).payload.value :=
    (Json.sortKeys_idem _).symm
  have hrow : Pipeline.outboxRow 1 sampleIngestion 0 ∈ [Pipeline.outboxRow 1 sampleIngestion 0] :=
    List.mem_singleton_self _
  obtain ⟨_, hloads, heffect⟩ := (events_read_back hwrote).rows _ hrow _ hsame
  exact ⟨_, _, hrow, hwrote, hloads, heffect⟩

end ForensicChain.Platform
