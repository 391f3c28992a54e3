import ForensicChain.Custody.Order
import ForensicChain.Pipeline.Delivery

/-!
Which runs of the pipeline raise no false alarm: those that store the events of each artifact in
the order of their timestamps. Nothing in the pipeline keeps that order.
-/
namespace ForensicChain.Pipeline

open Custody

variable {fromisoformat : String → Option Timestamp} {s t : State} {a : Action}

/-- A step stores no event that is earlier than a stored one of its artifact. -/
def InTimeOrder (fromisoformat : String → Option Timestamp) (s : State) : Action → Prop
  | .process _ | .processCommitted _ => ∀ tag m, s.consumer = .received tag →
      s.broker tag = some m → ArrivesInOrder fromisoformat s.store m.body
  | _ => True

theorem inOrder_step (h : InOrder s.store.events) (hinv : StoreInvariant s.store)
    (ha : InTimeOrder fromisoformat s a) (hs : Step fromisoformat s a t) :
    InOrder t.store.events := by
  cases hs with
  | process hc hm hid hp => exact h.step hinv hid (ha _ _ hc hm) (processMessage_eq_some hp)
  | processCommitted hc hm hid hp =>
    exact h.step hinv hid (ha _ _ hc hm) (processMessage_eq_some hp)
  | _ => exact h

theorem inOrder_reachable
    (h : (system fromisoformat).ReachableWhen (InTimeOrder fromisoformat) s) :
    InOrder s.store.events := by
  induction h with
  | init h =>
    obtain ⟨_, _, _, hst, _⟩ := h
    rw [hst]
    exact fun _ => ⟨List.Pairwise.nil, trivial⟩
  | step hr ha hs ih =>
    exact inOrder_step ih (invariant_reachable hr.reachable).store ha hs

variable {viewed downloaded : String} {first second : Timestamp} {hash : String}

theorem quiet_inTimeOrder (s : State) (a : Action) (h : Quiet a) :
    InTimeOrder fromisoformat s a := by
  cases a with
  | process id => exact ((h id).1 rfl).elim
  | processCommitted id => exact ((h id).2 rfl).elim
  | _ => trivial

theorem inTimeOrder_empty (s : State) (h : s.store = ⟨[], [], []⟩) :
    InTimeOrder fromisoformat s (.process 1) := by
  intro tag m _ _ _ _ _ _ _ _ _ _ _ e he
  simp [h, artifactEvents] at he

/-- The second event arrives in time order when its time is not before the first one's. -/
theorem inTimeOrder_second (htimes : first ≤ second)
    (ht : fromisoformat (Text.replaceChar 'Z' "+00:00" downloaded) = some second) (s : State)
    (he : s.store.events = [viewedEvent viewedId viewed first]) (hc : s.consumer = .received 1)
    (hb : s.broker 1 = some ⟨(downloadedEnvelope downloadedId downloaded).toJson, none, .unacked⟩) :
    InTimeOrder fromisoformat s (.process 2) := by
  intro tag m hc' hb' n artifactId time u hm _ htime _ _ e hmem
  obtain rfl : 1 = tag := by simpa [hc] using hc'
  obtain rfl := Option.some.inj (hb.symm.trans hb')
  have hread := readMessage_toJson (downloadedEnvelope_fits downloadedId downloaded).address
  obtain rfl := Option.some.inj (hread.symm.trans hm)
  obtain rfl : second = time := Option.some.inj (ht.symm.trans htime)
  rw [he] at hmem
  obtain rfl := List.mem_singleton.mp (List.mem_of_mem_filter hmem)
  exact htimes

/-- The two events in the order of their times. -/
theorem getTimeline_two (htimes : first ≤ second) :
    getTimeline [viewedEvent viewedId viewed first, downloadedEvent downloaded second hash]
        sampleArtifact =
      [viewedEvent viewedId viewed first, downloadedEvent downloaded second hash] := by
  have hpair : List.Pairwise Follows
      [viewedEvent viewedId viewed first, downloadedEvent downloaded second hash] := by
    refine List.pairwise_pair.mpr ⟨htimes, ?_⟩
    exact Nat.lt_succ_self 1
  exact OrderBy.insertionSort_asc hpair

/-- The event that came second is read first. -/
theorem getTimeline_two_swapped (htimes : second < first) :
    getTimeline [viewedEvent viewedId viewed first, downloadedEvent downloaded second hash]
        sampleArtifact =
      [downloadedEvent downloaded second hash, viewedEvent viewedId viewed first] := by
  have hnot : ¬ OrderBy.Asc CustodyEvent.timestamp CustodyEvent.id
      (viewedEvent viewedId viewed first) (downloadedEvent downloaded second hash) := by
    rintro (hlt | ⟨heq, _⟩)
    · exact lt_asymm htimes hlt
    · exact htimes.ne' heq
  have hevents : artifactEvents
      [viewedEvent viewedId viewed first, downloadedEvent downloaded second hash] sampleArtifact =
        [viewedEvent viewedId viewed first, downloadedEvent downloaded second hash] := rfl
  rw [getTimeline, hevents]
  simp [hnot]

/-- A reviewer of the case is answered whichever event comes first. -/
theorem mayRead_two {events : List CustodyEvent}
    (h : getTimeline events sampleArtifact =
        [viewedEvent viewedId viewed first, downloadedEvent downloaded second hash] ∨
      getTimeline events sampleArtifact =
        [downloadedEvent downloaded second hash, viewedEvent viewedId viewed first]) :
    MayRead events sampleArtifact (some "reviewer01") ["CASE-2025-001"] := by
  have hcase : ∀ e : CustodyEvent, e.caseId = some "CASE-2025-001" →
      ¬ Missing e.caseId ∧ ¬ Missing (some "reviewer01") ∧
        e.caseId.getD "" ∈ ["CASE-2025-001"] := by
    intro e he
    rw [he]
    decide
  rcases h with h | h
  · exact ⟨_, by rw [h]; rfl, hcase _ rfl⟩
  · exact ⟨_, by rw [h]; rfl, hcase _ rfl⟩

/-- No false alarm on a run that stores the events of each artifact in time order. -/
theorem no_false_alarm_in_time_order
    (h : (system fromisoformat).ReachableWhen (InTimeOrder fromisoformat) s) (artifactId : Uuid)
    (xUserId : Option String) (assigned : List String) (response : TimelineResponse)
    (hr : getCustodyTimeline s.store.events artifactId xUserId assigned = .ok response) :
    response.chainValid = true := by
  obtain ⟨_, hchain⟩ := getCustodyTimeline_chainValid.mp ⟨response, hr, rfl⟩
  rw [← hchain]
  exact (inOrder_reachable h).validateChain artifactId

theorem sample_run_in_time_order :
    ∃ s response, (system DateTime.fromisoformat).ReachableWhen
      (InTimeOrder DateTime.fromisoformat) s ∧ s.store.events.length = 2 ∧
      getCustodyTimeline s.store.events sampleArtifact (some "reviewer01") ["CASE-2025-001"] =
        .ok response ∧ response.chainValid = true := by
  have ht : DateTime.fromisoformat
      (Text.replaceChar 'Z' "+00:00" "2025-01-31T10:00:00.500000+00:00") =
        some 63873914400500000 := by decide
  have ht' : DateTime.fromisoformat (Text.replaceChar 'Z' "+00:00" "2025-01-31T10:00:01Z") =
      some 63873914401000000 := by decide
  obtain ⟨s, hs, he⟩ := downloaded_run quiet_inTimeOrder ht ht' inTimeOrder_empty
    (inTimeOrder_second (by decide) ht')
  have htimeline := (congrArg (getTimeline · sampleArtifact) he).trans (getTimeline_two (by decide))
  have hread := mayRead_two (.inl htimeline)
  obtain ⟨response, hr, _⟩ := getCustodyTimeline_chainValid.mpr ⟨hread, rfl⟩
  refine ⟨s, response, hs, by simp [he], hr, ?_⟩
  exact no_false_alarm_in_time_order hs _ _ _ response hr

/-- The report's whole-second time lies before the microseconds of the event that it follows. -/
theorem report_in_the_same_second_alarms :
    ∃ s response, (system DateTime.fromisoformat).Reachable s ∧
      getCustodyTimeline s.store.events sampleArtifact (some "reviewer01") ["CASE-2025-001"] =
        .ok response ∧ response.chainValid = false := by
  have ht : DateTime.fromisoformat
      (Text.replaceChar 'Z' "+00:00" "2025-01-31T10:00:00.500000+00:00") =
        some 63873914400500000 := by decide
  have ht' : DateTime.fromisoformat (Text.replaceChar 'Z' "+00:00" "2025-01-31T10:00:00Z") =
      some 63873914400000000 := by decide
  obtain ⟨s, hs, he⟩ := downloaded_run (fun _ _ _ => trivial) ht ht' (fun _ _ => trivial)
    fun _ _ _ _ => trivial
  have htimeline := (congrArg (getTimeline · sampleArtifact) he).trans
    (getTimeline_two_swapped (by decide))
  have hread := mayRead_two (.inr htimeline)
  obtain ⟨response, hr, hb⟩ := getCustodyTimeline_chainValid.mpr ⟨hread, rfl⟩
  refine ⟨s, response, hs, hr, ?_⟩
  rw [hb, htimeline]
  rfl

end ForensicChain.Pipeline
