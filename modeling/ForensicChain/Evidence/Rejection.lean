import ForensicChain.Evidence.AnswerRun
import ForensicChain.Evidence.VerificationInvariant

/-!
Verifications of rejected ingestions. A verification reads the ledger and never the status of the
row, so a proof that is committed for a rejected upload is as good as any other.
-/
namespace ForensicChain.Evidence

variable {keys : HashSign.Signer} {w w' : World} {u u' : Upload} {v : Verification} {s t : State}
  {x : Action} {i j : RequestId} {a : Artifact}

/-- The ledger call of the upload has committed. -/
def Proved (w : World) (u : Upload) : Prop :=
  ∃ call c q, u.call = some call ∧ w.ledger.calls call = some c ∧ c.phase = .committed q

/-- The row of the upload is `INGESTION_FAILED`. -/
def Rejected (w : World) (u : Upload) : Prop :=
  ∃ a ∈ w.artifacts, a.artifactId = u.artifactId ∧ a.status = .ingestionFailed

/-- The upload of the artifact is not rejected once its ledger call has committed, and the call
does not commit once the upload is rejected. -/
def RejectsUnproved (id : Uuid) (s : State) : Action → State → Prop
  | .upload i .reject, _ | .upload i .rejectRaised, _ =>
      ∀ u, s.uploads i = some u → u.artifactId = id → ¬ Proved s.world u
  | .ledger (.commit call), _ => ∀ i u, s.uploads i = some u → u.artifactId = id →
      u.call = some call → ¬ Rejected s.world u
  | _, _ => True

/-- Only a rejection marks a row as failed. -/
theorem UploadStep.rejected {y : UploadAction} (h : UploadStep keys w u y w' u')
    (hr : Rejected w' u) : Rejected w u ∨ y = .reject ∨ y = .rejectRaised := by
  obtain ⟨a, ha, hid, hstatus⟩ := hr
  have hsaves : ∀ {n}, Saves w u n w' → Rejected w u := by
    intro n hw
    rcases hw.rows ha with hold | hnew
    · exact ⟨a, hold, hid, hstatus⟩
    · obtain ⟨_, _, hpending, _⟩ := Upload.pendingRow_eq_some hnew
      simp [hpending] at hstatus
  have hfinalizes : ∀ {hash alg sig record}, Finalizes w u hash alg sig record w' →
      Rejected w u := by
    intro hash alg sig record hw
    obtain ⟨b, _, _, hingested, honly, _⟩ := hw.outbox
    obtain rfl := honly a ha hid
    simp [hingested] at hstatus
  cases h with
  | save hp hw => exact .inl (hsaves hw)
  | finalize hp hw => exact .inl (hfinalizes hw)
  | saveRaised error hp hw =>
    rcases hw with rfl | hw
    · exact .inl ⟨a, ha, hid, hstatus⟩
    · exact .inl (hsaves hw)
  | finalizeRaised error hp hw =>
    rcases hw with rfl | hw
    · exact .inl ⟨a, ha, hid, hstatus⟩
    · exact .inl (hfinalizes hw)
  | reject => exact .inr (.inl rfl)
  | rejectRaised => exact .inr (.inr rfl)
  | _ => exact .inl ⟨a, ha, hid, hstatus⟩

/-- A call of the system commits by a step of the ledger. -/
theorem Step.proved (h : Step keys s x t) {call : Ledger.CallId} {c : Ledger.Call}
    {q : Ledger.LedgerRecord} (hc : t.world.ledger.calls call = some c)
    (hq : c.phase = .committed q) :
    (∃ d, s.world.ledger.calls call = some d ∧ d.phase = .committed q) ∨
      x = .ledger (.commit call) := by
  rcases h.ledger_cases with hl | ⟨a, hcalls, hl⟩
  · exact .inl ⟨c, hl ▸ hc, hq⟩
  · rcases Ledger.committed_of_step hl hc hq with hold | rfl
    · exact .inl hold
    · cases hcalls
      exact .inr rfl

theorem rejected_unproved {id : Uuid}
    (h : ((system keys).restrict (RejectsUnproved id)).Reachable s) :
    ∀ j u, s.uploads j = some u → u.artifactId = id → Rejected s.world u →
      ¬ Proved s.world u := by
  induction h with
  | init h => simp [h.2.2.2.2.1]
  | @step s t x hr _ hs ih =>
    have hreach : ((system keys).restrict (RejectsUnproved id)).Reachable s := hr
    have hinv := invariant_reachable hreach.of_restrict
    rintro j u' hu' hown hrejected ⟨call, c, q, hcall, hc, hq⟩
    rcases hs.1.upload_cases hinv hu' with ⟨hold, _, hsame⟩ | ⟨u, y, rfl, hold, hstep⟩ |
      ⟨request, _, _, _, rfl⟩
    · obtain ⟨a, ha, hid, hstatus⟩ := hrejected
      have hbefore : Rejected s.world u' := ⟨a, hsame.rows a ha hid, hid, hstatus⟩
      rcases hs.1.proved hc hq with ⟨d, hd, hdq⟩ | rfl
      · exact ih j u' hold hown hbefore ⟨call, d, q, hcall, hd, hdq⟩
      · exact hs.2 j u' hold hown hcall hbefore
    · have hown : u.artifactId = id := hstep.identity.1.symm.trans hown
      rcases hstep.ledger_cases with ⟨hl, hkept⟩ | ⟨call', now, hash, alg, sig, _, _, hl, hnew⟩
      · have hproved : Proved s.world u := ⟨call, c, q, hkept.symm.trans hcall, hl ▸ hc, hq⟩
        have hrejected : Rejected t.world u := by
          obtain ⟨a, ha, hid, hstatus⟩ := hrejected
          exact ⟨a, ha, hid.trans hstep.identity.1, hstatus⟩
        rcases hstep.rejected hrejected with hbefore | rfl | rfl
        · exact ih j u hold hown hbefore hproved
        · exact hs.2 u hold hown hproved
        · exact hs.2 u hold hown hproved
      · -- the call has only been started
        obtain rfl := Option.some.inj (hnew.symm.trans hcall)
        obtain rfl := Option.some.inj ((Ledger.start_call hl).symm.trans hc)
        cases hq
    · cases hcall

/-- Where an artifact is not rejected after its proof is committed, nor its proof committed after it
is rejected, no verification of the rejected artifact answers VALID. -/
theorem rejected_never_valid
    (h : ((system keys).restrict (RejectsUnproved a.artifactId)).Reachable s)
    (ha : a ∈ s.world.artifacts) (hf : a.status = .ingestionFailed)
    (hv : s.verifications i = some v) (hid : v.artifact.artifactId = a.artifactId) :
    ∀ r, v.phase.response = some r → r.verificationResult ≠ .valid := by
  intro r hr _
  have hinv := invariant_reachable h.of_restrict
  have hdet := (verificationInvariant_reachable h.of_restrict i v hv).determined hr
  obtain ⟨proof, ⟨q, hq, hevidence, _⟩, _⟩ := hdet.proof
  obtain ⟨j, u, call, c, hu, hau, hcall, hc, hcommitted⟩ := hinv.proof_upload hq hevidence
  have hown : u.artifactId = a.artifactId := hau.trans hid
  have hrejected : Rejected s.world u := ⟨a, ha, hown.symm, hf⟩
  exact rejected_unproved h j u hu hown hrejected ⟨call, c, q, hcall, hc, hcommitted⟩

/-- The row of the sample upload once it is rejected. -/
def sampleFailed : Artifact := { sampleRow with status := .ingestionFailed }

theorem sampleFailed_row : requestedArtifact [sampleFailed] sampleVerification.artifactId =
    .ok sampleFailed := by
  have hparse : Uuid.parse sampleVerification.artifactId = some sampleId := Uuid.parse_str _
  rw [requestedArtifact, hparse]
  rfl

theorem sampleFailed_access : checkAccess ["forensic_analyst", "legal_reviewer"] sampleFailed
    sampleVerification.actor [] = .ok () := by rfl

/-- The hash-sign service was down: there is no proof, and the verification ends with 404. -/
theorem unsigned_never_valid : ∃ s v,
    ((system HashSign.plainKeys).restrict (RejectsUnproved sampleId)).Reachable s ∧
      sampleFailed ∈ s.world.artifacts ∧ s.verifications 0 = some v ∧
      v.phase = .responded (.error ⟨404, "Failed to fetch proof: Proof record not found"⟩) ∧
      ∀ r, v.phase.response = some r → r.verificationResult ≠ .valid := by
  have hsmooth : ∀ s j y t, SmoothUpload y → RejectsUnproved sampleId s (.upload j y) t := by
    intro s j y t hy
    cases y with
    | reject | rejectRaised => exact hy.elim
    | _ => trivial
  have hverifies : ∀ s j y t, RowsRead y → RejectsUnproved sampleId s (.verification j y) t :=
    fun _ _ _ _ _ => trivial
  have hsaved : ((system HashSign.plainKeys).restrict (RejectsUnproved sampleId)).Reachable
      ((State.empty.setWorld sampleWorld).setUpload 0
        ⟨sampleRequest, sampleId, none, .refreshing⟩) :=
    sample_saved_run hsmooth trivial
  have hrefreshed := upload_next hsaved (.refresh rfl) trivial
  have hfailed := upload_next hrefreshed (.signFailed "unavailable" rfl) trivial
  have hrejected := upload_next hfailed (.reject rfl (.mk (List.mem_singleton_self sampleRow) rfl))
    (by
      rintro u hu _ ⟨call, c, q, hcall, _⟩
      obtain rfl := Option.some.inj ((State.setUpload_self _ _ _).symm.trans hu)
      cases hcall)
  obtain ⟨_, hopened, hempty⟩ := opened_run hverifies 0 (.ofNat 6) hrejected rfl sampleFailed_row
    sampleFailed_access (fun _ _ hv => by cases hv) (fun _ => trivial)
  obtain ⟨_, hcopied, hfile⟩ := copied_run hverifies hopened hempty (by decide)
  have hreads := HashSign.reads_readBlocks (by decide : 0 < 65536) sampleVerification.content
  have hhashed := hcopied.next hverifies (.recompute rfl hfile hreads) (by simp [RowsRead]) rfl
  have hmissing := hhashed.next hverifies (.fetchFailed "Proof record not found" rfl)
    (by simp [RowsRead]) rfl
  have hcleaned := hmissing.next hverifies (.clean rfl) (by simp [RowsRead]) rfl
  have hrow : sampleFailed ∈ (sampleWorld.updateArtifact sampleFailed).artifacts :=
    List.mem_singleton_self _
  refine ⟨_, _, hcleaned.reach, hcleaned.artifacts ▸ hrow, hcleaned.here, rfl, ?_⟩
  exact rejected_never_valid hcleaned.reach (hcleaned.artifacts ▸ hrow) rfl hcleaned.here rfl

/-- The caller of the ledger gave up, the ledger went on: the rejected upload is answered VALID. -/
theorem timed_out_append_valid : ∃ s v r, (system HashSign.plainKeys).Reachable s ∧
    sampleFailed ∈ s.world.artifacts ∧ sampleFailed.status = .ingestionFailed ∧
    s.verifications 0 = some v ∧ v.artifact = sampleFailed ∧ v.phase = .responded (.ok r) ∧
    r.verificationResult = .valid := by
  obtain ⟨view, l, happ⟩ := sample_appended (fun _ _ ha _ => ha) Ledger.startsNone_commitOk
  have hrecords : l.records = [sampleRecord] := happ.records
  have hsaved : ((system HashSign.plainKeys).restrict fun _ _ _ => True).Reachable
      ((State.empty.setWorld sampleWorld).setUpload 0
        ⟨sampleRequest, sampleId, none, .refreshing⟩) :=
    sample_saved_run (fun _ _ _ _ _ => trivial) trivial
  have hcalled := appending_run (fun _ _ _ _ _ => trivial) "2025-01-01T00:00:00+00:00" hsaved
    (by simp [sampleWorld, sampleRequest, World.setFile, World.addArtifact])
    (rfl : sampleWorld.ledger.calls 0 = none)
  have hfailed := upload_next hcalled (.appendFailed "Deadline Exceeded" (.inr rfl)) trivial
  have hrejected := upload_next hfailed
    (.reject rfl (.mk (List.mem_singleton_self sampleRow) rfl)) trivial
  have hcommitted : ((system HashSign.plainKeys).restrict fun _ _ _ => True).Reachable _ :=
    ledger_next (w := sampleWorld.updateArtifact sampleFailed) hrejected happ.path
      fun _ _ _ ha => ⟨ha, trivial⟩
  have hproof : proofData (Ledger.getProofByArtifactId (.ok l.records)
      sampleVerification.artifactId) = .ok ⟨sha256 [], sha256 [], (Uuid.ofNat 3).str⟩ := by
    rw [hrecords]
    exact sample_proof
  have hchain :
      (Ledger.validateLedgerChain (.ok l.records) "CASE-2025-001").chainValid = true := by
    rw [hrecords]
    exact sample_chain
  obtain ⟨s, hs⟩ := answered_run (fun _ _ _ _ _ => trivial) 0 (.ofNat 6) hcommitted rfl
    sampleFailed_row sampleFailed_access (fun _ _ hv => by cases hv) (fun _ => trivial) (by decide)
    hproof
  refine ⟨s, _, _, hs.reach.of_restrict, ?_, rfl, hs.here, rfl, rfl, ?_⟩
  · rw [hs.artifacts]
    exact List.mem_singleton_self _
  · exact determineResult_valid.mpr ⟨hchain, by simp [HashSign.plainKeys], rfl⟩

end ForensicChain.Evidence
