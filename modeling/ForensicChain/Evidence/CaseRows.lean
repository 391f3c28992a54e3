import ForensicChain.Evidence.Access
import ForensicChain.Evidence.VerificationInvariant

/-!
The case of an artifact. Rows are inserted and rewritten but never removed, and a row keeps its id
and its case; what the collector says of an artifact in its events is said of that case.
-/
namespace ForensicChain.Evidence

variable {keys : HashSign.Signer} {w w' : World} {u u' : Upload} {v : Verification}
  {s t : State} {x : Action} {i : RequestId} {a b : Artifact} {artifacts rows : List Artifact}
  {env : Custody.Envelope} {id : Uuid} {c : String}

/-- A row of the artifact names the case. -/
def CaseOf (artifacts : List Artifact) (id : Uuid) (caseId : String) : Prop :=
  ∃ a ∈ artifacts, a.artifactId = id ∧ a.caseId = caseId

/-- Every artifact has one case, as its column keeps it. -/
structure CaseRows (artifacts : List Artifact) : Prop where
  one : ∀ id c d, CaseOf artifacts id c → CaseOf artifacts id d → c = d
  fits : ∀ a ∈ artifacts, Postgres.varchar 64 a.caseId = some a.caseId

/-- No artifact loses its case or gets a second one. -/
structure KeepsCases (artifacts rows : List Artifact) : Prop where
  cases : ∀ {id c}, CaseOf artifacts id c → CaseOf rows id c
  rows : CaseRows rows

/-- The event carries the case of the artifact that a `uuid` column reads from it. -/
def Attributed (artifacts : List Artifact) (artifactId : String) (caseId : Option String) : Prop :=
  ∃ c, caseId = some c ∧ ∀ id, Custody.uuidColumn artifactId = some id → CaseOf artifacts id c

theorem CaseOf.mem (ha : a ∈ artifacts) : CaseOf artifacts a.artifactId a.caseId :=
  ⟨a, ha, rfl, rfl⟩

theorem CaseRows.fit (h : CaseRows artifacts) (hc : CaseOf artifacts id c) :
    Postgres.varchar 64 c = some c := by
  obtain ⟨a, ha, _, rfl⟩ := hc
  exact h.fits a ha

theorem CaseRows.addArtifact (h : CaseRows w.artifacts)
    (hnew : ∀ b ∈ w.artifacts, b.artifactId ≠ a.artifactId)
    (hfit : Postgres.varchar 64 a.caseId = some a.caseId) :
    KeepsCases w.artifacts (w.addArtifact a).artifacts := by
  have hcases : ∀ id c, CaseOf (w.addArtifact a).artifacts id c →
      CaseOf w.artifacts id c ∨ a.artifactId = id ∧ a.caseId = c := by
    rintro id c ⟨b, hb, hid, hc⟩
    rcases List.mem_append.mp hb with hb | hb
    · exact .inl ⟨b, hb, hid, hc⟩
    · obtain rfl := List.mem_singleton.mp hb
      exact .inr ⟨hid, hc⟩
  have hold : ∀ c, ¬ CaseOf w.artifacts a.artifactId c := by
    rintro c ⟨b, hb, hid, _⟩
    exact hnew b hb hid
  refine ⟨?_, ?_, ?_⟩
  · rintro id c ⟨b, hb, hrest⟩
    exact ⟨b, List.mem_append_left _ hb, hrest⟩
  · intro id c d hc hd
    rcases hcases id c hc with hc | ⟨rfl, rfl⟩
    · rcases hcases id d hd with hd | ⟨rfl, rfl⟩
      · exact h.one id c d hc hd
      · exact (hold c hc).elim
    · rcases hcases _ d hd with hd | ⟨_, rfl⟩
      · exact (hold d hd).elim
      · rfl
  · intro b hb
    rcases List.mem_append.mp hb with hb | hb
    · exact h.fits b hb
    · rw [List.mem_singleton.mp hb]
      exact hfit

theorem CaseRows.updateArtifact (h : CaseRows w.artifacts) (ha : a ∈ w.artifacts)
    (hid : b.artifactId = a.artifactId) (hcase : b.caseId = a.caseId) :
    KeepsCases w.artifacts (w.updateArtifact b).artifacts := by
  have hback : ∀ id c, CaseOf (w.updateArtifact b).artifacts id c → CaseOf w.artifacts id c := by
    rintro id c ⟨d, hd, hrest⟩
    rcases mem_updateArtifact hd with rfl | ⟨hd, _⟩
    · rw [hid, hcase] at hrest
      exact ⟨a, ha, hrest⟩
    · exact ⟨d, hd, hrest⟩
  refine ⟨?_, ?_, ?_⟩
  · rintro id c ⟨d, hd, rfl, rfl⟩
    by_cases hdb : d.artifactId = b.artifactId
    · have hsame : d.caseId = b.caseId := by
        rw [hcase]
        exact h.one _ _ _ (.mem hd) (hdb.trans hid ▸ .mem ha)
      exact ⟨b, List.mem_map.mpr ⟨d, hd, if_pos hdb⟩, hdb.symm, hsame.symm⟩
    · exact ⟨d, List.mem_map.mpr ⟨d, hd, if_neg hdb⟩, rfl, rfl⟩
  · intro id c d hc hd
    exact h.one id c d (hback id c hc) (hback id d hd)
  · intro d hd
    rcases mem_updateArtifact hd with rfl | ⟨hd, _⟩
    · rw [hcase]
      exact h.fits a ha
    · exact h.fits d hd

theorem UploadStep.keepsCases {y : UploadAction} (h : UploadStep keys w u y w' u')
    (hw : CaseRows w.artifacts) : KeepsCases w.artifacts w'.artifacts := by
  have hrefl : KeepsCases w.artifacts w.artifacts := ⟨id, hw⟩
  have hsaves : ∀ {n w₁}, Saves w u n w₁ → KeepsCases w.artifacts w₁.artifacts := by
    rintro n _ ⟨ha, hk⟩
    obtain ⟨_, _, _, _, hcase⟩ := Upload.pendingRow_eq_some ha
    exact hw.addArtifact hk (Postgres.varchar_stored hcase)
  have hfinalizes : ∀ {hash alg sig record w₁}, Finalizes w u hash alg sig record w₁ →
      KeepsCases w.artifacts w₁.artifacts := by
    rintro _ _ _ _ _ ⟨eventId, timestamp, ha, _, hb, _⟩
    have hingested := Artifact.ingest_eq_some hb
    exact hw.updateArtifact ha hingested.artifactId hingested.caseId
  have hrejects : ∀ {w₁}, Rejects w u w₁ → KeepsCases w.artifacts w₁.artifacts := by
    rintro _ ⟨ha, _⟩
    exact hw.updateArtifact ha rfl rfl
  cases h with
  | save hp hs => exact hsaves hs
  | finalize hp hs => exact hfinalizes hs
  | reject hp hs => exact hrejects hs
  | saveRaised error hp hs =>
    rcases hs with rfl | hs
    · exact hrefl
    · exact hsaves hs
  | finalizeRaised error hp hs =>
    rcases hs with rfl | hs
    · exact hrefl
    · exact hfinalizes hs
  | rejectRaised hp hs =>
    rcases hs with rfl | hs
    · exact hrefl
    · exact hrejects hs
  | _ => exact hrefl

theorem Step.keepsCases (h : Step keys s x t) (hs : CaseRows s.world.artifacts) :
    KeepsCases s.world.artifacts t.world.artifacts := by
  cases h with
  | upload hu hstep => exact hstep.keepsCases hs
  | verification hv hstep =>
    have hrows := hstep.artifacts
    exact ⟨fun hc => hrows ▸ hc, hrows ▸ hs⟩
  | _ => exact ⟨id, hs⟩

theorem caseRows_reachable (h : (system keys).Reachable s) : CaseRows s.world.artifacts := by
  refine h.invariant ?_ fun s a t hi hs => (hs.keepsCases hi).rows
  rintro s ⟨hrows, _⟩
  refine ⟨?_, by simp [hrows]⟩
  rintro id c d ⟨a, ha, _⟩
  simp [hrows] at ha

/-- Every spelling that a `uuid` column takes is one of `uuid.UUID`, for the same artifact. -/
theorem attributed_of_parse {text : String} (hid : Uuid.parse text = some id)
    (hc : CaseOf artifacts id c) : Attributed artifacts text (some c) := by
  refine ⟨c, rfl, ?_⟩
  intro other hother
  obtain rfl : id = other := Option.some.inj (hid.symm.trans (Custody.uuidColumn_parse hother))
  exact hc

theorem Attributed.mono {text : String} {caseId : Option String}
    (h : Attributed artifacts text caseId)
    (hcases : ∀ {id c}, CaseOf artifacts id c → CaseOf rows id c) :
    Attributed rows text caseId := by
  obtain ⟨c, hc, hall⟩ := h
  exact ⟨c, hc, fun id hid => hcases (hall id hid)⟩

/-- A verification works on the row that its request names. -/
theorem verified_case_reachable (h : (system keys).Reachable s) :
    ∀ i v, s.verifications i = some v →
      Uuid.parse v.request.artifactId = some v.artifact.artifactId ∧
        CaseOf s.world.artifacts v.artifact.artifactId v.artifact.caseId := by
  induction h with
  | init h => simp [h.2.2.2.2.2]
  | @step s t x hr _ hs ih =>
    have hreach : (system keys).Reachable s := hr
    have hkeeps := hs.keepsCases (caseRows_reachable hreach)
    intro i v' hv
    rcases hs.verification_cases (verificationsApart_reachable hreach) hv with ⟨hold, _⟩ |
      ⟨v, y, _, hold, hstep⟩ | ⟨request, artifact, id, hw, ha, rfl⟩
    · exact (ih i v' hold).imp_right hkeeps.cases
    · obtain ⟨hrequest, hartifact, _⟩ := hstep.identity
      rw [hrequest, hartifact]
      exact (ih i v hold).imp_right hkeeps.cases
    · obtain ⟨hmem, hparse⟩ := requestedArtifact_ok ha
      exact ⟨hparse, hkeeps.cases (.mem hmem)⟩

/-- Uploads and verifications write events under the case of their artifact. -/
theorem Writes.attributed (h : Writes s t env) (hs : (system keys).Reachable s)
    (hkeeps : KeepsCases s.world.artifacts t.world.artifacts) :
    Attributed t.world.artifacts env.artifactId env.caseId := by
  cases h with
  | ingested eventId timestamp hu hb hid => exact attributed_of_parse (Uuid.parse_str _) (.mem hb)
  | requested eventId timestamp hv | outcome r recordId eventId timestamp hv =>
    obtain ⟨hparse, hcase⟩ := verified_case_reachable hs _ _ hv
    exact attributed_of_parse hparse (hkeeps.cases hcase)

end ForensicChain.Evidence
