import ForensicChain.Evidence.Steps
import ForensicChain.Evidence.UploadRun

/-!
The outcome of an upload: all or nothing, unless a statement raises after its commit. Two recovery
blocks guard a commit together with the refresh after it, and undo what is durable by then.
-/
namespace ForensicChain.Evidence

variable {keys : HashSign.Signer} {w w' : World} {u u' : Upload} {s t : State} {x : Action}
  {i : RequestId} {a : Artifact} {id : Uuid} {answer : Except HttpError UploadResponse}

/-- The `EvidenceIngested` rows of an artifact. -/
def ingestedEvents (w : World) (id : Uuid) : List Custody.Envelope :=
  w.outbox.filter fun env => env.eventType = "EvidenceIngested" ∧ env.artifactId = id.str

/-- The row of the artifact is there and is `INGESTED`. -/
def RowIngested (w : World) (u : Upload) : Prop :=
  (∃ a ∈ w.artifacts, a.artifactId = u.artifactId) ∧
    ∀ a ∈ w.artifacts, a.artifactId = u.artifactId → a.status = .ingested

/-- A row whose file was removed is not left `PENDING`. -/
def NoneDangling (w : World) (u : Upload) : Prop :=
  ∀ a ∈ w.artifacts, a.artifactId = u.artifactId → a.status = .pending → w.files u.path ≠ none

def AllOrNothing (w : World) (u : Upload) (answer : Except HttpError UploadResponse) : Prop :=
  ((∃ r, answer = .ok r) ↔ RowIngested w u ∧ (ingestedEvents w u.artifactId).length = 1) ∧
    ∀ e, answer = .error e →
      NotIngested w u ∧ ingestedEvents w u.artifactId = [] ∧ NoneDangling w u

/-- The statements of the recovery blocks do not raise. -/
def UploadAction.Recovers : UploadAction → Prop
  | .rejectRaised | .removeRaised _ => False
  | _ => True

/-- Nothing raises once a commit has taken effect. -/
def UploadAction.NoneDurableRaises (w : World) : UploadAction → World → Prop
  | .refreshRaised _, _ | .answerRaised _, _ => False
  | .saveRaised _, w' | .finalizeRaised _, w' => w' = w
  | _, _ => True

/-- The steps of a run in which the recovery of the upload works. -/
def Recovering (i : RequestId) (_ : State) (x : Action) (_ : State) : Prop :=
  ∀ y, x = .upload i y → y.Recovers

/-- The steps of a run in which, besides, no statement of the upload raises after its commit. -/
def FailsCleanly (i : RequestId) (s : State) (x : Action) (t : State) : Prop :=
  ∀ y, x = .upload i y → y.Recovers ∧ y.NoneDurableRaises s.world t.world

/-- The rows and events of an artifact are as they were. -/
structure Untouched (w w' : World) (id : Uuid) : Prop extends SameFor w w' id where
  kept : ∀ a ∈ w.artifacts, a.artifactId = id → a ∈ w'.artifacts
  events : ingestedEvents w' id = ingestedEvents w id

theorem ingestedEvents_concat {env : Custody.Envelope} (h : w'.outbox = w.outbox ++ [env])
    (hne : env.eventType = "EvidenceIngested" → env.artifactId ≠ id.str) :
    ingestedEvents w' id = ingestedEvents w id := by
  have hno : ¬ (env.eventType = "EvidenceIngested" ∧ env.artifactId = id.str) :=
    fun he => hne he.1 he.2
  simp [ingestedEvents, h, List.filter_append, hno]

theorem ingestedEvents_of_outbox (h : w'.outbox = w.outbox) :
    ingestedEvents w' id = ingestedEvents w id := by
  rw [ingestedEvents, ingestedEvents, h]

theorem UploadStep.untouched {y : UploadAction} (h : UploadStep keys w u y w' u')
    (hid : id ≠ u.artifactId) : Untouched w w' id := by
  refine ⟨h.sameFor hid, ?_, ?_⟩
  · rintro a ha rfl
    exact h.keeps_row ha hid
  · rcases h.outbox with hout | ⟨b, _, hb, eventId, timestamp, hout⟩
    · exact ingestedEvents_of_outbox hout
    · refine ingestedEvents_concat hout fun _ he => hid ?_
      exact (Uuid.str_injective he).symm.trans hb

theorem VerificationStep.untouched {v v' : Verification} {y : VerificationAction}
    (h : VerificationStep keys w v y w' v') : Untouched w w' id := by
  refine ⟨h.sameFor, ?_, ?_⟩
  · intro a ha _
    rw [h.artifacts]
    exact ha
  · rcases h.outbox with hout | ⟨eventId, timestamp, hout⟩ | ⟨r, recordId, eventId, timestamp, hout⟩
    · exact ingestedEvents_of_outbox hout
    · refine ingestedEvents_concat hout fun he => ?_
      simp [requestedEnvelope, evidenceEnvelope] at he
    · refine ingestedEvents_concat hout fun he => ?_
      simp only [outcomeEnvelope] at he
      split_ifs at he <;> simp at he

theorem Untouched.setLedger {l : Ledger.State} {y : Ledger.Action}
    (h : Ledger.Step w.ledger y l) : Untouched w (w.setLedger l) id :=
  ⟨.setLedger h, fun _ ha _ => ha, rfl⟩

theorem Untouched.refl : Untouched w w id := ⟨.refl, fun _ ha _ => ha, rfl⟩

/-- What is not a step of an upload leaves its row, its file and its events. -/
theorem Step.untouched (h : Step keys s x t) (hi : Invariant s) (hu : s.uploads i = some u)
    (hx : ∀ y, x ≠ .upload i y) : Untouched s.world t.world u.artifactId := by
  cases h with
  | upload hu₀ hs =>
    rename_i j u₀ y w u₁
    refine hs.untouched fun he => ?_
    have hij := hi.ids i j u u₀ hu hu₀ he
    subst hij
    exact hx y rfl
  | verification hv hs => exact hs.untouched
  | admitUpload | admitVerification => exact .refl
  | anchorReport reportId caseId reportHash generatedBy generatedAt hl => exact .setLedger hl
  | ledger ha hl => exact .setLedger hl

/-- Every row of the artifact is `INGESTION_FAILED`. -/
def RowFailed (w : World) (u : Upload) : Prop :=
  ∀ a ∈ w.artifacts, a.artifactId = u.artifactId → a.status = .ingestionFailed

/-- What an upload has achieved, or undone, by the time it is in its phase. -/
def OutcomeInvariant (w : World) (u : Upload) : Prop :=
  match u.phase with
  | .answering | .responded (.ok _) =>
      RowIngested w u ∧ (ingestedEvents w u.artifactId).length = 1
  | .removing _ | .responded (.error _) => RowFailed w u ∧ ingestedEvents w u.artifactId = []
  | .stopped => True
  | _ => ingestedEvents w u.artifactId = []

theorem OutcomeInvariant.frame (h : OutcomeInvariant w u)
    (hs : Untouched w w' u.artifactId) : OutcomeInvariant w' u := by
  have hingested : RowIngested w u → RowIngested w' u := by
    rintro ⟨⟨a, ha, hid⟩, hall⟩
    exact ⟨⟨a, hs.kept a ha hid, hid⟩, fun b hb hbid => hall b (hs.rows b hb hbid) hbid⟩
  have hfailed : RowFailed w u → RowFailed w' u :=
    fun hall b hb hbid => hall b (hs.rows b hb hbid) hbid
  unfold OutcomeInvariant at h ⊢
  rw [hs.events]
  split at h
  · exact ⟨hingested h.1, h.2⟩
  · exact ⟨hingested h.1, h.2⟩
  · exact ⟨hfailed h.1, h.2⟩
  · exact ⟨hfailed h.1, h.2⟩
  · trivial
  · exact h

theorem NoRow.failed (h : NoRow w u) : RowFailed w u := fun a ha hid => (h a ha hid).elim

theorem Rejects.failed (h : Rejects w u w') : RowFailed w' u := by
  obtain ⟨ha, hau⟩ := h
  intro b hb hid
  rcases mem_updateArtifact hb with rfl | ⟨_, hne⟩
  · rfl
  · exact (hne (hid.trans hau.symm)).elim

theorem Finalizes.ingested {hash alg sig record : String} (h : Finalizes w u hash alg sig record w')
    (hn : ingestedEvents w u.artifactId = []) :
    RowIngested w' u ∧ (ingestedEvents w' u.artifactId).length = 1 := by
  obtain ⟨b, hb, hbu, hstatus, honly, eventId, timestamp, hout⟩ := h.outbox
  have hevents : ingestedEvents w' u.artifactId = [ingestedEnvelope u b eventId timestamp] := by
    rw [ingestedEvents, hout, List.filter_append, ← ingestedEvents, hn]
    simp [ingestedEnvelope, hbu]
  refine ⟨⟨⟨b, hb, hbu⟩, ?_⟩, by rw [hevents]; rfl⟩
  intro d hd hdu
  rw [honly d hd hdu]
  exact hstatus

theorem OutcomeInvariant.step {y : UploadAction} (h : OutcomeInvariant w u)
    (hu : UploadInvariant w u) (hs : UploadStep keys w u y w' u') (hr : y.Recovers)
    (hc : y.NoneDurableRaises w w') : OutcomeInvariant w' u' := by
  have hphase := hu.phase
  unfold PhaseInvariant at hphase
  unfold OutcomeInvariant at h
  cases hs with
  | openFile hp | writeChunk hp | closeFile hp | refresh hp | sign hp | append hp | appended hp
  | signFailed error hp =>
    rw [hp] at h
    exact h
  | save hp hw =>
    rw [hp] at h
    cases hw
    exact h
  | appendFailed error hp =>
    rcases hp with hp | hp
    · rw [hp] at h
      exact h
    · rw [hp] at h
      exact h
  | writeRaised error left hp =>
    rcases hp with hp | ⟨rest, fileSize, hp⟩
    · rw [hp] at h hphase
      exact ⟨hphase.1.failed, h⟩
    · rw [hp] at h hphase
      exact ⟨hphase.1.failed, h⟩
  | saveRaised error hp hw =>
    obtain rfl := hc
    rw [hp] at h hphase
    exact ⟨hphase.1.failed, h⟩
  | finalize hp hw =>
    rw [hp] at h
    have hdone := hw.ingested h
    obtain ⟨eventId, timestamp, ha, hau, hb, he⟩ := hw
    exact hdone
  | finalizeRaised error hp hw =>
    obtain rfl := hc
    rw [hp] at h
    exact h
  | answer hp ha hid =>
    rw [hp] at h
    exact h
  | reject hp hw =>
    rename_i removes error
    rw [hp] at h
    have hfailed := hw.failed
    obtain ⟨ha, hau⟩ := hw
    cases removes
    · exact ⟨hfailed, h⟩
    · exact ⟨hfailed, h⟩
  | remove hp =>
    rw [hp] at h
    exact h
  | refreshRaised | answerRaised => exact hc.elim
  | rejectRaised | removeRaised => exact hr.elim
  | stop => trivial

/-- An `EvidenceIngested` event is about the artifact of an upload. -/
theorem ingested_owned (h : (system keys).Reachable s) : ∀ env ∈ s.world.outbox,
    env.eventType = "EvidenceIngested" →
      ∃ j u, s.uploads j = some u ∧ env.artifactId = u.artifactId.str := by
  induction h with
  | init h => simp [h.2.1]
  | @step s t x _ _ hs ih =>
    have hkept : ∀ j u, s.uploads j = some u →
        ∃ u', t.uploads j = some u' ∧ u'.artifactId = u.artifactId := by
      intro j u hu
      rcases hs.upload_next hu with hsame | ⟨y, u', _, hu', hstep⟩
      · exact ⟨u, hsame, rfl⟩
      · exact ⟨u', hu', hstep.identity.1⟩
    have hold : ∀ env ∈ s.world.outbox, env.eventType = "EvidenceIngested" →
        ∃ j u, t.uploads j = some u ∧ env.artifactId = u.artifactId.str := by
      intro env henv htype
      obtain ⟨j, u, hu, hid⟩ := ih env henv htype
      obtain ⟨u', hu', hid'⟩ := hkept j u hu
      exact ⟨j, u', hu', hid'.symm ▸ hid⟩
    intro env henv htype
    rcases hs.outbox with hout | ⟨new, hwrites, hout⟩
    · exact hold env (hout ▸ henv) htype
    · rw [hout, List.mem_append, List.mem_singleton] at henv
      rcases henv with henv | rfl
      · exact hold env henv htype
      · cases hwrites with
        | ingested eventId timestamp hu hb hid =>
          obtain ⟨u', hu', hid'⟩ := hkept _ _ hu
          exact ⟨_, u', hu', congrArg Uuid.str (hid.trans hid'.symm)⟩
        | requested eventId timestamp hv => simp [requestedEnvelope, evidenceEnvelope] at htype
        | outcome r recordId eventId timestamp hv =>
          simp only [outcomeEnvelope] at htype
          split_ifs at htype <;> simp at htype

/-- An artifact that no upload has got has no such event. -/
theorem ingestedEvents_new (h : (system keys).Reachable s)
    (hf : ∀ j u, s.uploads j = some u → u.artifactId ≠ id) : ingestedEvents s.world id = [] := by
  have howned := ingested_owned h
  refine List.filter_eq_nil_iff.mpr ?_
  intro env henv he
  obtain ⟨htype, hid⟩ := of_decide_eq_true he
  obtain ⟨j, u, hu, hown⟩ := howned env henv htype
  exact hf j u hu (Uuid.str_injective (hown.symm.trans hid))

theorem outcome_reachable (h : ((system keys).restrict (FailsCleanly i)).Reachable s) :
    ∀ u, s.uploads i = some u → OutcomeInvariant s.world u := by
  induction h with
  | init h => simp [h.2.2.2.2.1]
  | @step s t x hr _ hs ih =>
    have hreach : ((system keys).restrict (FailsCleanly i)).Reachable s := hr
    have hinv := invariant_reachable hreach.of_restrict
    intro u' hu'
    rcases hs.1.upload_cases hinv hu' with ⟨hold, hx, _⟩ | ⟨u, y, hx, hold, hstep⟩ |
      ⟨request, id, hw, hf, rfl⟩
    · exact (ih u' hold).frame (hs.1.untouched hinv hold hx)
    · obtain ⟨hrecovers, hclean⟩ := hs.2 y hx
      exact (ih u hold).step (hinv.uploads i u hold) hstep hrecovers hclean
    · rw [hw]
      exact ingestedEvents_new hreach.of_restrict hf

/-- An upload whose statements raise before their commits or not at all is all or nothing, to its
client and to the event log, in every run of the system. -/
theorem upload_all_or_nothing (h : ((system keys).restrict (FailsCleanly i)).Reachable s)
    (hu : s.uploads i = some u) (ha : u.phase = .responded answer) :
    AllOrNothing s.world u answer := by
  have hinv := outcome_reachable h u hu
  rw [OutcomeInvariant, ha] at hinv
  cases answer with
  | ok r =>
    refine ⟨⟨fun _ => hinv, fun _ => ⟨r, rfl⟩⟩, ?_⟩
    intro e he
    cases he
  | error e =>
    obtain ⟨hfailed, hevents⟩ := hinv
    refine ⟨⟨?_, ?_⟩, ?_⟩
    · rintro ⟨r, hr⟩
      cases hr
    · rintro ⟨_, hone⟩
      simp [hevents] at hone
    · intro _ _
      refine ⟨?_, hevents, ?_⟩
      · intro a ha hid
        simp [hfailed a ha hid]
      · intro a ha hid hpending
        simp [hfailed a ha hid] at hpending

theorem smooth_failsCleanly {y : UploadAction} (h : SmoothUpload y) :
    y.Recovers ∧ y.NoneDurableRaises w w' := by
  cases y with
  | openFile | writeChunk | closeFile | save | refresh | sign | append | appended | finalize
  | answer => exact ⟨trivial, trivial⟩
  | _ => exact h.elim

theorem smooth_upload (s : State) (j : RequestId) (y : UploadAction) (t : State)
    (h : SmoothUpload y) : FailsCleanly i s (.upload j y) t := by
  intro y' hy
  cases hy
  exact smooth_failsCleanly h

theorem FailsCleanly.recovering (h : FailsCleanly i s x t) : Recovering i s x t :=
  fun y hy => (h y hy).1

/-- The sample upload up to its last refresh. -/
theorem sample_finalized_run {P : State → Action → State → Prop}
    (hP : ∀ s x t, FailsCleanly 0 s x t → P s x t) : ∃ l,
    ((system HashSign.plainKeys).restrict P).Reachable
      ((State.empty.setWorld (sampleDone l)).setUpload 0
        ⟨sampleRequest, sampleId, some 0, .answering⟩) := by
  obtain ⟨view, l, happ⟩ := sample_appended (fun _ _ ha _ => ha) Ledger.startsNone_commitOk
  exact ⟨l, sample_done_run (fun s j y t h => hP _ _ _ (smooth_upload s j y t h))
    (hP _ _ _ (by simp [FailsCleanly]))
    (fun _ _ _ ha => ⟨ha, fun _ => hP _ _ _ (by simp [FailsCleanly])⟩) happ⟩

theorem sample_upload_all : ∃ s u r, ((system HashSign.plainKeys).restrict
    (FailsCleanly 0)).Reachable s ∧ s.uploads 0 = some u ∧ u.phase = .responded (.ok r) ∧
      AllOrNothing s.world u (.ok r) := by
  obtain ⟨l, hdone⟩ := sample_finalized_run (P := FailsCleanly 0) fun _ _ _ h => h
  have hrow : sampleIngested (.ofNat 3) ∈ (sampleDone l).artifacts := List.mem_singleton_self _
  have hanswered := upload_next hdone (.answer rfl hrow rfl) (smooth_upload _ _ _ _ trivial)
  have hhere := State.setUpload_self (State.empty.setWorld (sampleDone l)) 0 ⟨sampleRequest,
    sampleId, some 0, .responded (.ok (uploadResponse (sampleIngested (.ofNat 3))))⟩
  exact ⟨_, _, _, hanswered, hhere, rfl, upload_all_or_nothing hanswered hhere rfl⟩

/-- The refresh after the first commit leaves a `PENDING` row without a file, the one after the
second commit a committed event of a failed ingestion. -/
theorem refresh_undoes_commit :
    (∃ s u e, ((system HashSign.plainKeys).restrict (Recovering 0)).Reachable s ∧
      s.uploads 0 = some u ∧ u.phase = .responded (.error e) ∧ ¬ NoneDangling s.world u) ∧
    ∃ s u e, ((system HashSign.plainKeys).restrict (Recovering 0)).Reachable s ∧
      s.uploads 0 = some u ∧ u.phase = .responded (.error e) ∧
      ingestedEvents s.world u.artifactId ≠ [] := by
  constructor
  · have hsaved : ((system HashSign.plainKeys).restrict (Recovering 0)).Reachable
        ((State.empty.setWorld sampleWorld).setUpload 0
          ⟨sampleRequest, sampleId, none, .refreshing⟩) :=
      sample_saved_run (fun s j y t h => (smooth_upload s j y t h).recovering)
        (by simp [Recovering])
    have hraised := upload_next hsaved (.refreshRaised "connection lost" rfl)
      (by rintro y hy; cases hy; trivial)
    have hremoved := upload_next hraised (.remove rfl) (by rintro y hy; cases hy; trivial)
    refine ⟨_, _, _, hremoved, State.setUpload_self _ _ _, rfl, ?_⟩
    intro hnone
    refine hnone sampleRow (List.mem_singleton_self _) rfl rfl ?_
    simp [State.setUpload, State.setWorld, World.setFile, Upload.path, Upload.next]
  · obtain ⟨l, hdone⟩ := sample_finalized_run (P := Recovering 0) fun _ _ _ h => h.recovering
    have hrow : sampleIngested (.ofNat 3) ∈ (sampleDone l).artifacts := List.mem_singleton_self _
    have hraised := upload_next hdone (.answerRaised "connection lost" rfl)
      (by rintro y hy; cases hy; trivial)
    have hrejected := upload_next hraised (.reject rfl (.mk hrow rfl))
      (by rintro y hy; cases hy; trivial)
    refine ⟨_, _, _, hrejected, State.setUpload_self _ _ _, rfl, ?_⟩
    intro hnone
    have hmem := List.filter_eq_nil_iff.mp hnone _ (List.mem_singleton_self _)
    simp [ingestedEnvelope, sampleIngested, sampleRow, Upload.next] at hmem

end ForensicChain.Evidence
