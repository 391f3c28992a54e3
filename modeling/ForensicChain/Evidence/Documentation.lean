import ForensicChain.Evidence.UploadOutcome

/-!
The event of an upload and its row. The row becomes `INGESTED` in the transaction that writes the
event, and whatever raises afterwards, the row keeps what the event tells.
-/
namespace ForensicChain.Evidence

variable {keys : HashSign.Signer} {w w' : World} {u u' : Upload} {s t : State} {x : Action}
  {i : RequestId} {a b : Artifact}

/-- There is no event and the row is not ingested, or there is one and it tells what the row
holds. -/
def Documented (w : World) (u : Upload) : Prop :=
  NotIngested w u ∧ ingestedEvents w u.artifactId = [] ∨
  (∃ a ∈ w.artifacts, a.artifactId = u.artifactId) ∧ ∃ eventId timestamp,
    ∀ a ∈ w.artifacts, a.artifactId = u.artifactId →
      ingestedEvents w u.artifactId = [ingestedEnvelope u a eventId timestamp]

/-- Until its last transaction an upload has no event. -/
def EventInvariant (w : World) (u : Upload) : Prop :=
  match u.phase with
  | .answering | .rejecting _ _ | .removing _ | .responded _ | .stopped => Documented w u
  | _ => NotIngested w u ∧ ingestedEvents w u.artifactId = []

theorem EventInvariant.documented (h : EventInvariant w u) : Documented w u := by
  unfold EventInvariant at h
  split at h
  · exact h
  · exact h
  · exact h
  · exact h
  · exact h
  · exact .inl h

theorem NotIngested.untouched (h : NotIngested w u) (hs : Untouched w w' u.artifactId) :
    NotIngested w' u := fun a ha hid => h a (hs.rows a ha hid) hid

theorem Documented.untouched (h : Documented w u) (hs : Untouched w w' u.artifactId) :
    Documented w' u := by
  rcases h with ⟨hnot, hnone⟩ | ⟨⟨a, ha, hid⟩, eventId, timestamp, hone⟩
  · exact .inl ⟨hnot.untouched hs, hs.events.trans hnone⟩
  · refine .inr ⟨⟨a, hs.kept a ha hid, hid⟩, eventId, timestamp, ?_⟩
    intro b hb hbid
    rw [hs.events]
    exact hone b (hs.rows b hb hbid) hbid

theorem EventInvariant.untouched (h : EventInvariant w u) (hs : Untouched w w' u.artifactId) :
    EventInvariant w' u := by
  unfold EventInvariant at h ⊢
  split at h
  · exact h.untouched hs
  · exact h.untouched hs
  · exact h.untouched hs
  · exact h.untouched hs
  · exact h.untouched hs
  · exact ⟨h.1.untouched hs, hs.events.trans h.2⟩

theorem Saves.notIngested {fileSize : Nat} (h : Saves w u fileSize w') (hn : NotIngested w u) :
    NotIngested w' u := by
  intro b hb hid
  rcases h.rows hb with hb | hrow
  · exact hn b hb hid
  · rw [(Upload.pendingRow_eq_some hrow).2.2.1]
    simp

theorem Saves.outbox {fileSize : Nat} (h : Saves w u fileSize w') : w'.outbox = w.outbox := by
  cases h
  rfl

/-- The transaction that writes the event makes the row what the event tells. -/
theorem Finalizes.documented {hash alg sig record : String}
    (h : Finalizes w u hash alg sig record w') (hn : ingestedEvents w u.artifactId = []) :
    Documented w' u := by
  obtain ⟨b, hb, hbu, _, honly, eventId, timestamp, hout⟩ := h.outbox
  refine .inr ⟨⟨b, hb, hbu⟩, eventId, timestamp, ?_⟩
  intro d hd hdu
  rw [honly d hd hdu, ingestedEvents, hout, List.filter_append, ← ingestedEvents, hn]
  simp [ingestedEnvelope, hbu]

/-- A row that is marked as failed keeps everything that its event tells. -/
theorem Rejects.documented (h : Rejects w u w') (hd : Documented w u) : Documented w' u := by
  obtain ⟨ha, hau⟩ := h
  rename_i a
  rcases hd with ⟨hnot, hnone⟩ | ⟨_, eventId, timestamp, hone⟩
  · refine .inl ⟨?_, hnone⟩
    intro b hb hid
    rcases mem_updateArtifact hb with rfl | ⟨hb, _⟩
    · simp
    · exact hnot b hb hid
  · refine .inr ⟨⟨_, List.mem_map.mpr ⟨a, ha, if_pos rfl⟩, hau⟩, eventId, timestamp, ?_⟩
    intro b hb hid
    rcases mem_updateArtifact hb with rfl | ⟨hb, _⟩
    · exact hone a ha hau
    · exact hone b hb hid

theorem EventInvariant.step {y : UploadAction} (h : EventInvariant w u)
    (hs : UploadStep keys w u y w' u') : EventInvariant w' u' := by
  have hdoc := h.documented
  unfold EventInvariant at h
  cases hs with
  | openFile hp | writeChunk hp | closeFile hp | refresh hp | sign hp | append hp | appended hp =>
    rw [hp] at h
    exact h
  | save hp hw =>
    rw [hp] at h
    exact ⟨hw.notIngested h.1, (ingestedEvents_of_outbox hw.outbox).trans h.2⟩
  | saveRaised error hp hw =>
    rcases hw with rfl | hw
    · exact hdoc
    · rw [hp] at h
      exact .inl ⟨hw.notIngested h.1, (ingestedEvents_of_outbox hw.outbox).trans h.2⟩
  | finalize hp hw =>
    rw [hp] at h
    exact hw.documented h.2
  | finalizeRaised error hp hw =>
    rcases hw with rfl | hw
    · exact hdoc
    · rw [hp] at h
      exact hw.documented h.2
  | reject hp hw =>
    have hfailed := hw.documented hdoc
    rename_i removes error
    cases removes
    · exact hfailed
    · exact hfailed
  | rejectRaised hp hw =>
    rcases hw with rfl | hw
    · exact hdoc
    · exact hw.documented hdoc
  | writeRaised | refreshRaised | signFailed | appendFailed | answer | answerRaised | remove
  | removeRaised | stop => exact hdoc

theorem eventInvariant_reachable (h : (system keys).Reachable s) :
    ∀ i u, s.uploads i = some u → EventInvariant s.world u := by
  induction h with
  | init h => simp [h.2.2.2.2.1]
  | @step s t x hr _ hs ih =>
    have hreach : (system keys).Reachable s := hr
    have hinv := invariant_reachable hreach
    intro i u' hu'
    rcases hs.upload_cases hinv hu' with ⟨hold, hx, _⟩ | ⟨u, y, hx, hold, hstep⟩ |
      ⟨request, id, hw, hf, rfl⟩
    · exact (ih i u' hold).untouched (hs.untouched hinv hold hx)
    · exact (ih i u hold).step hstep
    · rw [hw]
      refine ⟨?_, ingestedEvents_new hreach hf⟩
      intro a ha hid
      obtain ⟨j, u, hu, hau⟩ := hinv.rows a ha
      exact (hf j u hu (hau.symm.trans hid)).elim

/-- An ingested artifact has one event, in the words of its row. -/
theorem event_of_row (h : (system keys).Reachable s) (ha : a ∈ s.world.artifacts)
    (hingested : a.status = .ingested) : ∃ i u eventId timestamp, s.uploads i = some u ∧
      u.artifactId = a.artifactId ∧
      ingestedEvents s.world a.artifactId = [ingestedEnvelope u a eventId timestamp] := by
  obtain ⟨i, u, hu, hau⟩ := (invariant_reachable h).rows a ha
  rcases (eventInvariant_reachable h i u hu).documented with ⟨hnot, _⟩ |
    ⟨_, eventId, timestamp, hone⟩
  · exact (hnot a ha hau hingested).elim
  · exact ⟨i, u, eventId, timestamp, hu, hau.symm, hau ▸ hone a ha hau⟩

/-- An event tells what the row of its artifact holds, and there is no other. -/
theorem row_of_event {env : Custody.Envelope} (h : (system keys).Reachable s)
    (henv : env ∈ s.world.outbox) (htype : env.eventType = "EvidenceIngested") :
    ∃ i u a eventId timestamp, s.uploads i = some u ∧ a ∈ s.world.artifacts ∧
      u.artifactId = a.artifactId ∧ env = ingestedEnvelope u a eventId timestamp ∧
      ingestedEvents s.world a.artifactId = [env] := by
  obtain ⟨i, u, hu, hid⟩ := ingested_owned h env henv htype
  have hmem : env ∈ ingestedEvents s.world u.artifactId :=
    List.mem_filter.mpr ⟨henv, decide_eq_true ⟨htype, hid⟩⟩
  rcases (eventInvariant_reachable h i u hu).documented with ⟨_, hnone⟩ |
    ⟨⟨a, ha, hau⟩, eventId, timestamp, hone⟩
  · simp [hnone] at hmem
  · have hlist := hone a ha hau
    rw [hlist, List.mem_singleton] at hmem
    exact ⟨i, u, a, eventId, timestamp, hu, ha, hau.symm, hmem, by rw [hau, hlist, hmem]⟩

end ForensicChain.Evidence
