import ForensicChain.Evidence.Ingestion

/-!
What one step of the ingestion system does, seen from a request, from the ledger and from the
rows: a request moves by its own steps, and the others leave what it relies on.
-/
namespace ForensicChain.Evidence

variable {keys : HashSign.Signer} {w w' : World} {u u' : Upload} {v v' : Verification}
  {s t : State} {x : Action} {i j : RequestId} {a : Artifact} {path : String}

theorem Finalizes.rows {hash alg sig record : String} (h : Finalizes w u hash alg sig record w')
    (ha : a ∈ w'.artifacts) :
    ∃ b ∈ w.artifacts, b.artifactId = a.artifactId ∧ b.caseId = a.caseId := by
  obtain ⟨eventId, timestamp, hb, hbu, hingest, he⟩ := h
  rename_i b c
  have hingested := Artifact.ingest_eq_some hingest
  rcases mem_updateArtifact ha with rfl | ⟨ha, _⟩
  · exact ⟨b, hb, hingested.artifactId.symm, hingested.caseId.symm⟩
  · exact ⟨a, ha, rfl, rfl⟩

theorem Rejects.rows (h : Rejects w u w') (ha : a ∈ w'.artifacts) :
    ∃ b ∈ w.artifacts, b.artifactId = a.artifactId ∧ b.caseId = a.caseId := by
  obtain ⟨hb, hbu⟩ := h
  rcases mem_updateArtifact ha with rfl | ⟨ha, _⟩
  · exact ⟨_, hb, rfl, rfl⟩
  · exact ⟨a, ha, rfl, rfl⟩

theorem Saves.rows {fileSize : Nat} (h : Saves w u fileSize w') (ha : a ∈ w'.artifacts) :
    a ∈ w.artifacts ∨ u.pendingRow fileSize = some a := by
  obtain ⟨hb, hk⟩ := h
  rcases List.mem_append.mp ha with ha | ha
  · exact .inl ha
  · rw [List.mem_singleton.mp ha]
    exact .inr hb

/-- A row keeps its id and its case from the insert on. -/
theorem UploadStep.rows {y : UploadAction} (h : UploadStep keys w u y w' u')
    (ha : a ∈ w'.artifacts) :
    (∃ b ∈ w.artifacts, b.artifactId = a.artifactId ∧ b.caseId = a.caseId) ∨
      ∃ fileSize, u.pendingRow fileSize = some a := by
  have hkept : a ∈ w.artifacts →
      ∃ b ∈ w.artifacts, b.artifactId = a.artifactId ∧ b.caseId = a.caseId :=
    fun h => ⟨a, h, rfl, rfl⟩
  cases h with
  | save hp hw => exact (hw.rows ha).imp hkept fun h => ⟨_, h⟩
  | finalize hp hw => exact .inl (hw.rows ha)
  | reject hp hw => exact .inl (hw.rows ha)
  | saveRaised error hp hw =>
    rcases hw with rfl | hw
    · exact .inl (hkept ha)
    · exact (hw.rows ha).imp hkept fun h => ⟨_, h⟩
  | finalizeRaised error hp hw =>
    rcases hw with rfl | hw
    · exact .inl (hkept ha)
    · exact .inl (hw.rows ha)
  | rejectRaised hp hw =>
    rcases hw with rfl | hw
    · exact .inl (hkept ha)
    · exact .inl (hw.rows ha)
  | _ => exact .inl (hkept ha)

theorem UploadStep.files {y : UploadAction} (h : UploadStep keys w u y w' u')
    (hp : path ≠ u.path) : w'.files path = w.files path := by
  cases h with
  | openFile | writeChunk | writeRaised | remove | removeRaised =>
    simp [World.setFile, Function.update_of_ne hp]
  | save hp hw | finalize hp hw | reject hp hw =>
    cases hw
    rfl
  | saveRaised error hp hw | finalizeRaised error hp hw | rejectRaised hp hw =>
    rcases hw with rfl | hw
    · rfl
    · cases hw
      rfl
  | _ => rfl

/-- The rows of the other uploads are left as they are. -/
theorem UploadStep.keeps_row {y : UploadAction} (h : UploadStep keys w u y w' u')
    (ha : a ∈ w.artifacts) (hid : a.artifactId ≠ u.artifactId) : a ∈ w'.artifacts := by
  have hsaves : ∀ {n w₁}, Saves w u n w₁ → a ∈ w₁.artifacts := by
    rintro _ _ ⟨_, _⟩
    exact List.mem_append_left _ ha
  have hfinalizes : ∀ {hash alg sig record w₁}, Finalizes w u hash alg sig record w₁ →
      a ∈ w₁.artifacts := by
    rintro _ _ _ _ _ ⟨eventId, timestamp, _, hbu, hb, _⟩
    refine List.mem_map.mpr ⟨a, ha, if_neg ?_⟩
    rw [(Artifact.ingest_eq_some hb).artifactId, hbu]
    exact hid
  have hrejects : ∀ {w₁}, Rejects w u w₁ → a ∈ w₁.artifacts := by
    rintro _ ⟨_, hbu⟩
    refine List.mem_map.mpr ⟨a, ha, if_neg ?_⟩
    rw [hbu]
    exact hid
  cases h with
  | save hp hw => exact hsaves hw
  | finalize hp hw => exact hfinalizes hw
  | reject hp hw => exact hrejects hw
  | saveRaised error hp hw =>
    rcases hw with rfl | hw
    · exact ha
    · exact hsaves hw
  | finalizeRaised error hp hw =>
    rcases hw with rfl | hw
    · exact ha
    · exact hfinalizes hw
  | rejectRaised hp hw =>
    rcases hw with rfl | hw
    · exact ha
    · exact hrejects hw
  | _ => exact ha

theorem Finalizes.outbox {hash alg sig record : String} (h : Finalizes w u hash alg sig record w') :
    ∃ b ∈ w'.artifacts, b.artifactId = u.artifactId ∧ b.status = .ingested ∧
      (∀ d ∈ w'.artifacts, d.artifactId = u.artifactId → d = b) ∧
      ∃ eventId timestamp, w'.outbox = w.outbox ++ [ingestedEnvelope u b eventId timestamp] := by
  obtain ⟨eventId, timestamp, ha, hau, hb, he⟩ := h
  rename_i a b
  have hingested := Artifact.ingest_eq_some hb
  have hid := hingested.artifactId
  refine ⟨b, List.mem_map.mpr ⟨a, ha, if_pos hid.symm⟩, hid.trans hau, hingested.status, ?_,
    eventId, timestamp, rfl⟩
  intro d hd hdu
  rcases mem_updateArtifact hd with rfl | ⟨_, hne⟩
  · rfl
  · exact (hne (hdu.trans (hid.trans hau).symm)).elim

/-- An upload writes the event of its own row, and no other. -/
theorem UploadStep.outbox {y : UploadAction} (h : UploadStep keys w u y w' u') :
    w'.outbox = w.outbox ∨ ∃ b ∈ w'.artifacts, b.artifactId = u.artifactId ∧
      ∃ eventId timestamp, w'.outbox = w.outbox ++ [ingestedEnvelope u b eventId timestamp] := by
  have hfinalizes : ∀ {hash alg sig record}, Finalizes w u hash alg sig record w' →
      ∃ b ∈ w'.artifacts, b.artifactId = u.artifactId ∧
        ∃ eventId timestamp, w'.outbox = w.outbox ++ [ingestedEnvelope u b eventId timestamp] := by
    intro hash alg sig record hw
    obtain ⟨b, hb, hbu, _, _, hout⟩ := hw.outbox
    exact ⟨b, hb, hbu, hout⟩
  cases h with
  | finalize hp hw => exact .inr (hfinalizes hw)
  | finalizeRaised error hp hw =>
    rcases hw with rfl | hw
    · exact .inl rfl
    · exact .inr (hfinalizes hw)
  | save hp hw | reject hp hw =>
    cases hw
    exact .inl rfl
  | saveRaised error hp hw | rejectRaised hp hw =>
    rcases hw with rfl | hw
    · exact .inl rfl
    · cases hw
      exact .inl rfl
  | _ => exact .inl rfl

theorem VerificationStep.files {y : VerificationAction} (h : VerificationStep keys w v y w' v')
    (hp : path ≠ v.path) : w'.files path = w.files path := by
  cases h with
  | openFile | copyChunk | copyRaised | clean => simp [World.setFile, Function.update_of_ne hp]
  | announce eventId timestamp hp hw | report eventId timestamp hp hw =>
    rcases hw with rfl | rfl <;> rfl
  | _ => rfl

theorem VerificationStep.artifacts {y : VerificationAction}
    (h : VerificationStep keys w v y w' v') : w'.artifacts = w.artifacts := by
  cases h with
  | announce eventId timestamp hp hw | report eventId timestamp hp hw =>
    rcases hw with rfl | rfl <;> rfl
  | _ => rfl

/-- A verification writes that it was asked for, and its outcome. -/
theorem VerificationStep.outbox {y : VerificationAction} (h : VerificationStep keys w v y w' v') :
    w'.outbox = w.outbox ∨
    (∃ eventId timestamp, w'.outbox = w.outbox ++ [requestedEnvelope v eventId timestamp]) ∨
    ∃ r recordId eventId timestamp,
      w'.outbox = w.outbox ++ [outcomeEnvelope v r recordId eventId timestamp] := by
  cases h with
  | announce eventId timestamp hp hw =>
    rcases hw with rfl | rfl
    · exact .inr (.inl ⟨eventId, timestamp, rfl⟩)
    · exact .inl rfl
  | report eventId timestamp hp hw =>
    rcases hw with rfl | rfl
    · exact .inr (.inr ⟨_, _, eventId, timestamp, rfl⟩)
    · exact .inl rfl
  | _ => exact .inl rfl

theorem VerificationStep.identity {y : VerificationAction}
    (h : VerificationStep keys w v y w' v') : v'.request = v.request ∧
      v'.artifact = v.artifact ∧ v'.verificationId = v.verificationId := by
  cases h <;> exact ⟨rfl, rfl, rfl⟩

/-- The ledger action in a step of the system. -/
inductive Calls (s : State) : Action → Ledger.Action → Prop
  | upload {i u call now hash alg sig} (hu : s.uploads i = some u)
      (hp : u.phase = .hashed hash alg sig) :
      Calls s (.upload i (.append call now)) (.start call (u.proofArgs hash sig now))
  | verification {i v call now r} (hv : s.verifications i = some v) (hp : v.phase = .recording r) :
      Calls s (.verification i (.record call now)) (.start call (v.recordArgs r now))
  | report {call} (reportId : Uuid) (caseId reportHash generatedBy generatedAt : String) :
      Calls s (.anchorReport call)
        (.start call (reportArgs reportId caseId reportHash generatedBy generatedAt))
  | served {a : Ledger.Action} (ha : ∀ call args, a ≠ .start call args) : Calls s (.ledger a) a

theorem Step.ledger_cases (h : Step keys s x t) : t.world.ledger = s.world.ledger ∨
    ∃ a, Calls s x a ∧ Ledger.Step s.world.ledger a t.world.ledger := by
  cases h with
  | admitUpload | admitVerification => exact .inl rfl
  | upload hu hs =>
    rcases hs.ledger_cases with ⟨hl, _⟩ | ⟨call, now, hash, alg, sig, rfl, hp, hl, _⟩
    · exact .inl hl
    · exact .inr ⟨_, .upload hu hp, hl⟩
  | verification hv hs =>
    rcases hs.ledger_cases with hl | ⟨call, now, r, rfl, hp, hl⟩
    · exact .inl hl
    · exact .inr ⟨_, .verification hv hp, hl⟩
  | anchorReport reportId caseId reportHash generatedBy generatedAt hl =>
    exact .inr ⟨_, .report reportId caseId reportHash generatedBy generatedAt, hl⟩
  | ledger ha hl => exact .inr ⟨_, .served ha, hl⟩

theorem Step.grows (h : Step keys s x t) : Ledger.Grows s.world.ledger t.world.ledger := by
  rcases h.ledger_cases with hl | ⟨a, _, hl⟩
  · rw [hl]
    exact .refl
  · exact Ledger.grows_step hl

/-- The runs of the system are runs of the ledger, with the calls that its users make. -/
theorem ledger_run {P : State → Action → State → Prop}
    {ok : Ledger.State → Ledger.Action → Prop} (h : ((system keys).restrict P).Reachable s)
    (hok : ∀ s x t a, ((system keys).restrict P).Reachable s → P s x t → Calls s x a →
      Ledger.Step s.world.ledger a t.world.ledger → ok s.world.ledger a) :
    Ledger.system.ReachableWhen ok s.world.ledger := by
  induction h with
  | init h => exact .init h.2.2.2.1
  | step hr _ hs ih =>
    rcases hs.1.ledger_cases with hl | ⟨a, hcalls, hl⟩
    · rw [hl]
      exact ih
    · exact ih.step (hok _ _ _ a hr hs.2 hcalls hl) hl

/-- The events that a step of the system may write. -/
inductive Writes (s t : State) : Custody.Envelope → Prop
  | ingested {i u b} (eventId : Uuid) (timestamp : String) (hu : s.uploads i = some u)
      (hb : b ∈ t.world.artifacts) (hid : b.artifactId = u.artifactId) :
      Writes s t (ingestedEnvelope u b eventId timestamp)
  | requested {i : RequestId} {v : Verification} (eventId : Uuid) (timestamp : String)
      (hv : s.verifications i = some v) : Writes s t (requestedEnvelope v eventId timestamp)
  | outcome {i : RequestId} {v : Verification} (r : VerificationResponse) (recordId : String)
      (eventId : Uuid) (timestamp : String) (hv : s.verifications i = some v) :
      Writes s t (outcomeEnvelope v r recordId eventId timestamp)

theorem Step.outbox (h : Step keys s x t) : t.world.outbox = s.world.outbox ∨
    ∃ env, Writes s t env ∧ t.world.outbox = s.world.outbox ++ [env] := by
  cases h with
  | upload hu hs =>
    rcases hs.outbox with hout | ⟨b, hb, hid, eventId, timestamp, hout⟩
    · exact .inl hout
    · exact .inr ⟨_, .ingested eventId timestamp hu hb hid, hout⟩
  | verification hv hs =>
    rcases hs.outbox with hout | ⟨eventId, timestamp, hout⟩ |
      ⟨r, recordId, eventId, timestamp, hout⟩
    · exact .inl hout
    · exact .inr ⟨_, .requested eventId timestamp hv, hout⟩
    · exact .inr ⟨_, .outcome r recordId eventId timestamp hv, hout⟩
  | _ => exact .inl rfl

/-- An upload is as it was, with all that is its own, or it has made a step, or it is new. -/
theorem Step.upload_cases (h : Step keys s x t) (hi : Invariant s) (hu : t.uploads j = some u') :
    (s.uploads j = some u' ∧ (∀ y, x ≠ .upload j y) ∧ SameFor s.world t.world u'.artifactId) ∨
    (∃ u y, x = .upload j y ∧ s.uploads j = some u ∧ UploadStep keys s.world u y t.world u') ∨
    ∃ request id, t.world = s.world ∧ (∀ k u, s.uploads k = some u → u.artifactId ≠ id) ∧
      u' = ⟨request, id, none, .opening⟩ := by
  cases h with
  | admitUpload hi hc hf =>
    rcases Table.update_some hu with ⟨_, rfl⟩ | ⟨_, hold⟩
    · exact .inr (.inr ⟨_, _, rfl, hf, rfl⟩)
    · exact .inl ⟨hold, by simp, .refl⟩
  | upload hu₀ hs =>
    rename_i i u y w u₁
    rcases Table.update_some hu with ⟨rfl, rfl⟩ | ⟨hj, hold⟩
    · exact .inr (.inl ⟨u, y, rfl, hu₀, hs⟩)
    · refine .inl ⟨hold, by simp [Ne.symm hj], hs.sameFor ?_⟩
      intro he
      exact hj (hi.ids j i u' u hold hu₀ he)
  | admitVerification => exact .inl ⟨hu, by simp, .refl⟩
  | verification hv hs => exact .inl ⟨hu, by simp, hs.sameFor⟩
  | anchorReport reportId caseId reportHash generatedBy generatedAt hl =>
    exact .inl ⟨hu, by simp, .setLedger hl⟩
  | ledger ha hl => exact .inl ⟨hu, by simp, .setLedger hl⟩

/-- An upload that is there stays as it is, or makes a step. -/
theorem Step.upload_next (h : Step keys s x t) (hu : s.uploads j = some u) :
    t.uploads j = some u ∨ ∃ y u', x = .upload j y ∧ t.uploads j = some u' ∧
      UploadStep keys s.world u y t.world u' := by
  cases h with
  | admitUpload hi hc hf => exact .inl (Table.update_of_free hi hu)
  | upload hu₀ hs =>
    rename_i i u₀ y w u₁
    by_cases hj : j = i
    · subst hj
      obtain rfl := Option.some.inj (hu₀.symm.trans hu)
      exact .inr ⟨y, u₁, rfl, by simp [State.setUpload], hs⟩
    · exact .inl (by simpa [State.setUpload, State.setWorld, Function.update_of_ne hj] using hu)
  | _ => exact .inl hu

/-- A property of every upload is kept if the steps of an upload keep it and those of the others
cannot break it. -/
theorem Step.uploads_keep {Inv : World → Upload → Prop} (h : Step keys s x t) (hi : Invariant s)
    (hinv : ∀ j u, s.uploads j = some u → Inv s.world u)
    (hnew : ∀ request id, Inv s.world ⟨request, id, none, .opening⟩)
    (hown : ∀ j u y u', x = .upload j y → s.uploads j = some u → Inv s.world u →
      UploadStep keys s.world u y t.world u' → Inv t.world u')
    (hothers : ∀ u, Inv s.world u → SameFor s.world t.world u.artifactId → Inv t.world u) :
    ∀ j u, t.uploads j = some u → Inv t.world u := by
  intro j u' hu
  rcases h.upload_cases hi hu with ⟨hold, _, hsame⟩ | ⟨u, y, hx, hold, hs⟩ |
    ⟨request, id, hw, _, rfl⟩
  · exact hothers u' (hinv j u' hold) hsame
  · exact hown j u y u' hx hold (hinv j u hold) hs
  · rw [hw]
    exact hnew request id

/-- The temporary file is as it was, and the ledger has lost nothing. -/
structure Undisturbed (w w' : World) (v : Verification) : Prop where
  file : w'.files v.path = w.files v.path
  ledger : Ledger.Grows w.ledger w'.ledger

theorem tempPath_verificationId {text text' : String} {m n : Uuid}
    (h : tempPath text m = tempPath text' n) : m = n := by
  have hlist := congrArg String.toList h
  simp only [tempPath, String.toList_append, List.append_cancel_right_eq] at hlist
  apply Uuid.str_injective
  apply String.toList_injective
  exact List.append_inj_right' hlist (by simp [String.length_toList, Uuid.str_length])

/-- Different verifications work on different files. -/
def VerificationsApart (s : State) : Prop :=
  ∀ i j v v', s.verifications i = some v → s.verifications j = some v' →
    v.verificationId = v'.verificationId → i = j

theorem Step.verification_cases (h : Step keys s x t) (hi : VerificationsApart s)
    (hv : t.verifications j = some v') :
    (s.verifications j = some v' ∧ Undisturbed s.world t.world v') ∨
    (∃ v y, x = .verification j y ∧ s.verifications j = some v ∧
      VerificationStep keys s.world v y t.world v') ∨
    ∃ request artifact id, t.world = s.world ∧
      requestedArtifact s.world.artifacts request.artifactId = .ok artifact ∧
      v' = ⟨request, artifact, id, none, .announcing⟩ := by
  have hgrows := h.grows
  cases h with
  | admitVerification hi ha hc hf =>
    rcases Table.update_some hv with ⟨_, rfl⟩ | ⟨_, hold⟩
    · exact .inr (.inr ⟨_, _, _, rfl, ha, rfl⟩)
    · exact .inl ⟨hold, rfl, .refl⟩
  | verification hv₀ hs =>
    rename_i i v y w v₁
    rcases Table.update_some hv with ⟨rfl, rfl⟩ | ⟨hj, hold⟩
    · exact .inr (.inl ⟨v, y, rfl, hv₀, hs⟩)
    · refine .inl ⟨hold, hs.files ?_, hgrows⟩
      intro he
      exact hj (hi j i v' v hold hv₀ (tempPath_verificationId he))
  | admitUpload => exact .inl ⟨hv, rfl, .refl⟩
  | upload hu hs => exact .inl ⟨hv, hs.files (tempPath_ne_storagePath _ _ _), hgrows⟩
  | anchorReport reportId caseId reportHash generatedBy generatedAt hl =>
    exact .inl ⟨hv, rfl, hgrows⟩
  | ledger ha hl => exact .inl ⟨hv, rfl, hgrows⟩

theorem VerificationsApart.step (hi : VerificationsApart s) (h : Step keys s x t) :
    VerificationsApart t := by
  cases h with
  | admitVerification hnone ha hc hf => exact Table.Apart.update hi fun j v _ hv => hf j v hv
  | verification hv hs => exact Table.Apart.update_same hi hv hs.identity.2.2
  | _ => exact hi

theorem verificationsApart_reachable (h : (system keys).Reachable s) : VerificationsApart s := by
  refine h.invariant ?_ fun _ _ _ hi hs => hi.step hs
  rintro s ⟨_, _, _, _, _, hnone⟩
  simp [VerificationsApart, hnone]

/-- A verification that is there stays as it is, or makes a step. -/
theorem Step.verification_next (h : Step keys s x t) (hv : s.verifications j = some v) :
    t.verifications j = some v ∨ ∃ y v', x = .verification j y ∧ t.verifications j = some v' ∧
      VerificationStep keys s.world v y t.world v' := by
  cases h with
  | admitVerification hi ha hc hf => exact .inl (Table.update_of_free hi hv)
  | verification hv₀ hs =>
    rename_i i v₀ y w v₁
    by_cases hj : j = i
    · subst hj
      obtain rfl := Option.some.inj (hv₀.symm.trans hv)
      exact .inr ⟨y, v₁, rfl, by simp [State.setVerification], hs⟩
    · exact .inl
        (by simpa [State.setVerification, State.setWorld, Function.update_of_ne hj] using hv)
  | _ => exact .inl hv

/-- A property of every verification is kept if the steps of a verification keep it and those of
the others cannot break it. -/
theorem Step.verifications_keep {Inv : World → Verification → Prop} (h : Step keys s x t)
    (hi : VerificationsApart s) (hinv : ∀ j v, s.verifications j = some v → Inv s.world v)
    (hnew : ∀ request artifact id,
      requestedArtifact s.world.artifacts request.artifactId = .ok artifact →
      Inv s.world ⟨request, artifact, id, none, .announcing⟩)
    (hown : ∀ j v y v', x = .verification j y → s.verifications j = some v → Inv s.world v →
      VerificationStep keys s.world v y t.world v' → Inv t.world v')
    (hothers : ∀ v, Inv s.world v → Undisturbed s.world t.world v → Inv t.world v) :
    ∀ j v, t.verifications j = some v → Inv t.world v := by
  intro j v' hv
  rcases h.verification_cases hi hv with ⟨hold, hsame⟩ | ⟨v, y, hx, hold, hs⟩ |
    ⟨request, artifact, id, hw, ha, rfl⟩
  · exact hothers v' (hinv j v' hold) hsame
  · exact hown j v y v' hx hold (hinv j v hold) hs
  · rw [hw]
    exact hnew request artifact id ha

end ForensicChain.Evidence
