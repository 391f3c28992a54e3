import ForensicChain.Custody.Order
import ForensicChain.Library.LatestChain

/-!
Which orders of persistence give a valid chain. Every insert is linked to the latest event by
timestamp of what is stored so far, while `_validate_chain` walks the final timeline.
-/
namespace ForensicChain.Custody

open LatestChain

variable {fromisoformat : String → Option Timestamp} {s t : Store} {id : Nat} {body : Json}
  {events : List CustodyEvent} {artifactId : Uuid}

/-- The events of each artifact were linked to the latest one before them. -/
def LinkedOnInsert (events : List CustodyEvent) : Prop :=
  ∀ artifactId, LinkedToLatest CustodyEvent.timestamp CustodyEvent.id
    CustodyEvent.previousEventHash CustodyEvent.eventHash (artifactEvents events artifactId)

theorem getLastEventHash_eq_latestHash : getLastEventHash events artifactId =
    latestHash CustodyEvent.timestamp CustodyEvent.id CustodyEvent.eventHash
      (artifactEvents events artifactId) := rfl

/-- Whatever its timestamp, a new event is linked to the latest of its artifact. -/
theorem LinkedOnInsert.step (h : LinkedOnInsert s.events) (hs : StoreInvariant s)
    (hp : Processed fromisoformat s id body t) : LinkedOnInsert t.events := by
  cases hp with
  | duplicate => exact h
  | stored hb hm ht hi hp hu =>
    intro artifactId
    rw [artifactEvents_concat]
    split_ifs with hart
    · subst hart
      exact .snoc (h _) ((hs.previous_eq hi).trans getLastEventHash_eq_latestHash)
    · exact h artifactId

theorem linkedOnInsert_reachable (h : (consumer fromisoformat).Reachable s) :
    LinkedOnInsert s.events := by
  induction h with
  | init hs =>
    rw [show _ = _ from hs]
    exact fun _ => .nil
  | @step s d t hs _ hstep ih =>
    have hreach : (consumer fromisoformat).Reachable s := hs
    exact ih.step (storeInvariant_reachable hreach) (processMessage_eq_some hstep.2)

/-- The timeline of an artifact is valid if and only if its events were stored in the order of
their timestamps. -/
theorem validateChain_iff_in_time_order (h : (consumer fromisoformat).Reachable s)
    (artifactId : Uuid)
    (hnd : ((artifactEvents s.events artifactId).map CustodyEvent.eventHash).Nodup) :
    validateChain (getTimeline s.events artifactId) = true ↔
      (artifactEvents s.events artifactId).Pairwise fun e f => e.timestamp ≤ f.timestamp := by
  rw [validateChain, validateLinks_eq_true, getTimeline]
  have hids := (storeInvariant_reachable h).ids.sublist
    (List.filter_sublist (p := fun e : CustodyEvent => decide (e.artifactId = artifactId)))
  exact (linkedOnInsert_reachable h artifactId).linked_iff hids hnd

/-- Two events of one artifact, stored one after the other. -/
theorem two_events_reachable {viewed downloaded : String} {first second : Timestamp}
    (hv : fromisoformat (Text.replaceChar 'Z' "+00:00" viewed) = some first)
    (hd : fromisoformat (Text.replaceChar 'Z' "+00:00" downloaded) = some second) :
    ∃ s, (consumer fromisoformat).Reachable s ∧
      artifactEvents s.events sampleArtifact = [viewedEvent viewedId viewed first,
        downloadedEvent downloaded second (viewedEvent viewedId viewed first).eventHash] := by
  obtain ⟨text, hfirst⟩ := viewed_processed viewedId hv
  obtain ⟨store, hsecond, hevents⟩ := downloaded_processed text hd
  have hone : (consumer fromisoformat).Reachable
      ⟨[viewedEvent viewedId viewed first], [viewedId], [text]⟩ :=
    .step (.init rfl) (a := ⟨1, _⟩) ⟨by simp, hfirst⟩
  have hid : ∀ e ∈ [viewedEvent viewedId viewed first], e.id < 2 := by
    simp [viewedEvent, Envelope.event]
  have htwo : (consumer fromisoformat).Reachable store := hone.step (a := ⟨2, _⟩) ⟨hid, hsecond⟩
  refine ⟨store, htwo, ?_⟩
  rw [hevents, artifactEvents, List.filter_eq_self]
  intro e he
  simp only [List.mem_cons, List.not_mem_nil, or_false] at he
  rcases he with rfl | rfl
  · simp [viewedEvent, Envelope.event]
  · simp [downloadedEvent, Envelope.event]

/-- The audit reporter's event, dated a second before the one that it follows. -/
def earlierEvent : CustodyEvent :=
  downloadedEvent "2025-01-31T10:00:00Z" 63873914400000000
    (viewedEvent viewedId "2025-01-31T10:00:01Z" 63873914401000000).eventHash

theorem earlierEvent_hash_ne :
    (viewedEvent viewedId "2025-01-31T10:00:01Z" 63873914401000000).eventHash ≠
      earlierEvent.eventHash := by
  -- sorted and encoded by lemmas, so that the kernel only computes the two digests
  simp only [earlierEvent, viewedEvent, downloadedEvent, Envelope.event, computeEventHash,
    Json.dumps, buildEventContent_sortKeys, sha256Text, utf8_ofList]
  decide +kernel

/-- The timeline walks the two events the other way round. -/
theorem two_events_in_time_order :
    ∃ s, (consumer DateTime.fromisoformat).Reachable s ∧
      (artifactEvents s.events sampleArtifact).length = 2 ∧
      validateChain (getTimeline s.events sampleArtifact) = false := by
  have hv : DateTime.fromisoformat (Text.replaceChar 'Z' "+00:00" "2025-01-31T10:00:01Z") =
      some 63873914401000000 := by decide
  have hd : DateTime.fromisoformat (Text.replaceChar 'Z' "+00:00" "2025-01-31T10:00:00Z") =
      some 63873914400000000 := by decide
  obtain ⟨s, hreach, hevents⟩ := two_events_reachable hv hd
  have hnd : ((artifactEvents s.events sampleArtifact).map CustodyEvent.eventHash).Nodup := by
    rw [hevents]
    exact List.pairwise_pair.mpr earlierEvent_hash_ne
  have hiff := validateChain_iff_in_time_order hreach sampleArtifact hnd
  refine ⟨s, hreach, by rw [hevents]; rfl, ?_⟩
  rw [← Bool.not_eq_true, hiff, hevents]
  decide

end ForensicChain.Custody
