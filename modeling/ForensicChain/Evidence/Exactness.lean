import ForensicChain.Auth.Lookup
import ForensicChain.Evidence.AnswerRun
import ForensicChain.Evidence.VerificationInvariant
import ForensicChain.Ledger.CommitOrder

/-!
Verifications of an untampered system. The proof record of an artifact is that of its upload, with
the signed hash of the uploaded bytes, and the chain of its case is accepted at every moment.
-/
namespace ForensicChain.Evidence

variable {keys : HashSign.Signer} {w w' : World} {u u' : Upload} {v v' : Verification}
  {s t : State} {x : Action} {i j : RequestId} {r r' : VerificationResponse} {caseId : String}

/-- A list of case numbers that the auth service may have answered with. -/
def Assigned (assigned : List String) : Prop :=
  ∃ bcrypt db username, (Auth.system bcrypt).Reachable db ∧
    assigned = (Auth.getAssignedCaseNumbers db username).getD []

/-- The services do what they do: the case numbers are those of the auth service, a report is of an
artifact, the clock goes on between two appends to a case, and the ledger's database answers when
the chain is checked for the given verification. -/
def Untampered (i : RequestId) (s : State) : Action → State → Prop
  | .admitUpload _ _ assigned _, _ => Assigned assigned
  | .anchorReport call, t => ∀ c, t.world.ledger.calls call = some c →
      c.args.caseId = "" ∨ ∃ a ∈ s.world.artifacts, a.caseId = c.args.caseId
  | .ledger (.commit call), _ => ∀ c q, s.world.ledger.calls call = some c →
      c.phase = .advanced q → ∀ p ∈ Ledger.caseRecords s.world.ledger.records c.args.caseId,
        p.createdAt < q.createdAt
  | .verification j (.validate db), _ => j = i → ∃ records, db = .ok records
  | _, _ => True

theorem caseNumber_of_assigned {assigned : List String} (h : Assigned assigned)
    (hc : caseId ∈ assigned) : Auth.matchesCaseNumber caseId = true := by
  obtain ⟨bcrypt, db, username, hdb, rfl⟩ := h
  have hkeys := Auth.keys_reachable hdb
  cases hlist : Auth.getAssignedCaseNumbers db username with
  | none => simp [hlist] at hc
  | some numbers =>
    rw [hlist, Option.getD_some] at hc
    obtain ⟨e, _, he⟩ := Option.bind_eq_some_iff.mp hlist
    cases e with
    | userAssignments name =>
      obtain ⟨a, _, _, _, c, hmem, _, _, hnumber⟩ := (Auth.mem_userAssignments he).mp hc
      exact hnumber ▸ hkeys.numbers c hmem
    | caseByNumber number =>
      obtain ⟨rfl, _⟩ := Auth.caseByNumber_answers he
      simp at hc
    | document =>
      cases he
      simp at hc
    | unanswered => cases he

/-- Every case id is a case number. -/
structure CaseNumbers (s : State) : Prop where
  uploads : ∀ i u, s.uploads i = some u → Auth.matchesCaseNumber u.request.caseId = true
  rows : ∀ a ∈ s.world.artifacts, Auth.matchesCaseNumber a.caseId = true
  verifications : ∀ i v, s.verifications i = some v →
    Auth.matchesCaseNumber v.artifact.caseId = true

theorem CaseNumbers.step (h : CaseNumbers s) (hs : Step keys s x t) (hx : Untampered i s x t) :
    CaseNumbers t := by
  cases hs with
  | admitUpload hi hc hf =>
    exact ⟨Table.forall_update (fun j _ => h.uploads j) (caseNumber_of_assigned hx hc), h.rows,
      h.verifications⟩
  | upload hu hs =>
    rename_i k u y w u'
    have hcase := h.uploads k u hu
    refine ⟨Table.forall_update (fun j _ => h.uploads j) ?_, ?_, h.verifications⟩
    · rw [hs.identity.2]
      exact hcase
    · intro a ha
      rcases hs.rows ha with ⟨b, hb, _, hcaseId⟩ | ⟨fileSize, hrow⟩
      · exact hcaseId ▸ h.rows b hb
      · obtain ⟨_, _, _, _, hkept⟩ := Upload.pendingRow_eq_some hrow
        rw [Auth.verbatim_caseNumber hcase _ hkept]
        exact hcase
  | admitVerification hi ha hc hf =>
    exact ⟨h.uploads, h.rows, Table.forall_update (fun j _ => h.verifications j)
      (h.rows _ (requestedArtifact_ok ha).1)⟩
  | verification hv hs =>
    rename_i k v y w v'
    refine ⟨h.uploads, ?_, Table.forall_update (fun j _ => h.verifications j) ?_⟩
    · intro a ha
      exact h.rows a (hs.artifacts ▸ ha)
    · rw [hs.identity.2.1]
      exact h.verifications k v hv
  | anchorReport => exact ⟨h.uploads, h.rows, h.verifications⟩
  | ledger => exact ⟨h.uploads, h.rows, h.verifications⟩

theorem caseNumbers_reachable (h : ((system keys).restrict (Untampered i)).Reachable s) :
    CaseNumbers s := by
  refine h.invariant ?_ fun _ _ _ hc hs => hc.step hs.1 hs.2
  rintro s ⟨hrows, _, _, _, huploads, hverifications⟩
  exact ⟨by simp [huploads], by simp [hrows], by simp [hverifications]⟩

/-- A case number is not blank. -/
theorem strip_caseNumber_ne (h : Auth.matchesCaseNumber caseId = true) :
    Text.strip caseId ≠ "" := by
  intro hblank
  rcases Auth.strip_caseNumber h with ⟨hself, _⟩ | ⟨hpush, _⟩
  · rw [← hself, hblank] at h
    exact absurd h (by decide)
  · rw [hpush, hblank] at h
    exact absurd h (by decide)

/-- The runs of the ledger commit the records of a case in the order in which they are read. -/
theorem ledger_ordered (h : ((system keys).restrict (Untampered i)).Reachable s) :
    Ledger.system.ReachableWhen Ledger.OrderedSteps s.world.ledger := by
  refine ledger_run h ?_
  intro s x t a hr hx hcalls hl
  have hcases := caseNumbers_reachable hr
  cases hcalls with
  | upload hu hp => exact ⟨Auth.verbatim_caseNumber (hcases.uploads _ _ hu), trivial⟩
  | verification hv hp =>
    exact ⟨Auth.verbatim_caseNumber (hcases.verifications _ _ hv), trivial⟩
  | report reportId caseId reportHash generatedBy generatedAt =>
    refine ⟨?_, trivial⟩
    rcases hx _ (Ledger.start_call hl) with hempty | ⟨a, ha, hcase⟩
    · rw [Ledger.VerbatimCase, hempty]
      decide
    · rw [Ledger.VerbatimCase, ← hcase]
      exact Auth.verbatim_caseNumber (hcases.rows a ha)
  | served ha =>
    refine ⟨Ledger.verbatimCase_of_ne_start ha, ?_⟩
    cases a with
    | commit call =>
      intro c q hc hq p hp
      exact .inl (hx c q hc hq p hp)
    | _ => trivial

/-- The chain of a case number is accepted. -/
theorem chain_accepted (h : ((system keys).restrict (Untampered i)).Reachable s)
    (hc : Auth.matchesCaseNumber caseId = true) :
    (Ledger.validateLedgerChain (.ok s.world.ledger.records) caseId).chainValid = true := by
  have hrun := ledger_ordered h
  rw [Ledger.validate_of_inReadOrder (Ledger.inReadOrder_reachable hrun)
    (Ledger.invariant_reachable (hrun.mono Ledger.OrderedSteps.verbatim)) (strip_caseNumber_ne hc)]

/-- The check of the chain has not failed for the given verification. -/
theorem answered_chainValid (h : ((system keys).restrict (Untampered i)).Reachable s) :
    ∀ v r, s.verifications i = some v → v.phase.response = some r → r.ledgerChainValid = true := by
  induction h with
  | init h => simp [h.2.2.2.2.2]
  | @step s t x hr _ hs ih =>
    have hreach : ((system keys).restrict (Untampered i)).Reachable s := hr
    intro v' r hv' hresponse
    rcases hs.1.verification_cases (verificationsApart_reachable hreach.of_restrict) hv' with
      ⟨hold, _⟩ | ⟨v, y, hx, hold, hstep⟩ | ⟨request, artifact, id, _, _, rfl⟩
    · exact ih v' r hold hresponse
    · rcases hstep.response hresponse with hbefore | ⟨db, hy, hdb, hvalid⟩
      · exact ih v r hold hbefore
      · subst hx hy
        obtain ⟨records, rfl⟩ := hs.2 rfl
        rw [hvalid, hdb records rfl]
        exact chain_accepted hr ((caseNumbers_reachable hr).verifications i v hold)
    · cases hresponse

/-- What the upload has signed, and what it appends, is the hash of its content. -/
structure Signed (keys : HashSign.Signer) (w : World) (u : Upload) : Prop where
  received : ∀ hash alg sig, u.phase = .hashed hash alg sig → sig = keys.signHash hash
  call : ∀ call, u.call = some call → ∃ c now, w.ledger.calls call = some c ∧
    c.args = u.proofArgs (sha256 u.request.content)
      (keys.signHash (sha256 u.request.content)) now

/-- An upload has a signature only from the service that signs the hash. -/
theorem UploadStep.received {y : UploadAction} {hash alg sig : String}
    (h : UploadStep keys w u y w' u') (hp : u'.phase = .hashed hash alg sig) :
    sig = keys.signHash hash := by
  cases h with
  | sign =>
    cases hp
    rfl
  | reject =>
    rename_i removes error hphase hw
    cases removes <;> cases hp
  | _ => cases hp

theorem Signed.step {y : UploadAction} (h : Signed keys w u) (hu : UploadInvariant w u)
    (hs : UploadStep keys w u y w' u') : Signed keys w' u' := by
  obtain ⟨hid, hrequest⟩ := hs.identity
  refine ⟨fun hash alg sig hp => hs.received hp, ?_⟩
  intro call hcall
  rcases hs.ledger_cases with ⟨hl, hkept⟩ | ⟨call', now, hash, alg, sig, _, hp, hl, hnew⟩
  · obtain ⟨c, now, hc, hargs⟩ := h.call call (hkept.symm.trans hcall)
    refine ⟨c, now, hl ▸ hc, ?_⟩
    rw [hargs, Upload.proofArgs, Upload.proofArgs, hid, hrequest]
  · obtain rfl := Option.some.inj (hnew.symm.trans hcall)
    have hphase := hu.phase
    rw [PhaseInvariant, hp] at hphase
    refine ⟨_, now, Ledger.start_call hl, ?_⟩
    rw [h.received hash alg sig hp, hphase.2.2.2, Upload.proofArgs, Upload.proofArgs, hid, hrequest]

theorem signed_reachable (h : (system keys).Reachable s) :
    ∀ j u, s.uploads j = some u → Signed keys s.world u := by
  induction h with
  | init h => simp [h.2.2.2.2.1]
  | step hr _ hs ih =>
    have hinv := invariant_reachable hr
    refine hs.uploads_keep hinv ih ?_ ?_ ?_
    · intro request id
      exact ⟨by simp, by simp⟩
    · intro j u y u' _ hu hsigned hstep
      exact hsigned.step (hinv.uploads j u hu) hstep
    · intro u hsigned hsame
      refine ⟨hsigned.received, ?_⟩
      intro call hcall
      obtain ⟨c, now, hc, hargs⟩ := hsigned.call call hcall
      obtain ⟨c', hc', hargs', _⟩ := hsame.ledger.calls call c hc
      exact ⟨c', now, hc', hargs'.trans hargs⟩

/-- A proof record holds the signed hash of the uploaded bytes. -/
theorem proof_record (h : (system keys).Reachable s) {q : Ledger.LedgerRecord} {id : Uuid}
    (hq : q ∈ s.world.ledger.records) (hproof : Ledger.IsEvidenceProof id q) :
    ∃ j u, s.uploads j = some u ∧ u.artifactId = id ∧
      q.hashValue = some (sha256 u.request.content) ∧
      q.signatureValue = some (keys.signHash (sha256 u.request.content)) := by
  have hinv := invariant_reachable h
  obtain ⟨j, u, call, c, hu, hid, hcall, hc, hphase⟩ := hinv.proof_upload hq hproof
  obtain ⟨c', now, hc', hargs⟩ := (signed_reachable h j u hu).call call hcall
  obtain rfl := Option.some.inj (hc.symm.trans hc')
  have hsound := hinv.ledger.calls call c hc
  simp only [Ledger.Call.Sound, hphase, hargs] at hsound
  refine ⟨j, u, hu, hid, ?_, ?_⟩
  · rw [Postgres.eq_of_nullable_some hsound.hashValue]
    exact Ledger.varchar_sha256 _
  · obtain ⟨sig, hsig, hkept⟩ := Option.map_eq_some_iff.mp hsound.signatureValue
    rw [← hkept, Postgres.eq_of_text hsig]
    rfl

/-- The verdict over the submitted bytes. -/
def exactResult (uploaded submitted : List UInt8) : VerificationResult :=
  if submitted = uploaded then .valid else .tampered

/-- The members of a payload say the same as the response. -/
def Tells (members : List (String × Json)) (r : VerificationResponse) : Prop :=
  members.lookup "verification_result" = some (.str r.verificationResult.text) ∧
    members.lookup "original_hash" = some (.str r.originalHash) ∧
    members.lookup "current_hash" = some (.str r.currentHash)

/-- The answer is exact, the ledger record and the event say the same, and no other answer comes. -/
structure ExactOutcome (keys : HashSign.Signer) (s : State) (i : RequestId) (v : Verification)
    (r : VerificationResponse) : Prop where
  verdict : ∃ j u, s.uploads j = some u ∧ u.artifactId = v.artifact.artifactId ∧
    r.verificationResult = exactResult u.request.content v.request.content ∧
    r.originalHash = sha256 u.request.content ∧ r.currentHash = sha256 v.request.content
  record : ∀ call c q, v.call = some call → s.world.ledger.calls call = some c →
    c.phase = .committed q → ∃ members, q.rawPayload = Jsonb.ofJson (.obj members) ∧
      Tells members r
  event : ∀ y t, Step keys s (.verification i y) t → t.world.outbox = s.world.outbox ∨
    ∃ env, t.world.outbox = s.world.outbox ++ [env] ∧
      (env.eventType = "VerificationPassed" ↔ r.verificationResult = .valid) ∧
      (env.eventType = "VerificationFailed" ↔ r.verificationResult ≠ .valid) ∧
      Tells env.payload r
  final : ∀ t, (system keys).Path (fun _ _ => True) s t → ∀ v' r', t.verifications i = some v' →
    v'.phase.response = some r' → r' = r

theorem exact_verdict (h : (system keys).Reachable s)
    (hkeys : ∀ hash, keys.verifySignature hash (keys.signHash hash) = true)
    (hdet : Determined keys s.world v r) (hvalid : r.ledgerChainValid = true)
    (hcf : ∀ j u, s.uploads j = some u → sha256 v.request.content = sha256 u.request.content →
      v.request.content = u.request.content) :
    ∃ j u, s.uploads j = some u ∧ u.artifactId = v.artifact.artifactId ∧
      r.verificationResult = exactResult u.request.content v.request.content ∧
      r.originalHash = sha256 u.request.content ∧ r.currentHash = sha256 v.request.content := by
  obtain ⟨proof, ⟨q, hq, hevidence, rfl⟩, horiginal, hsig⟩ := hdet.proof
  obtain ⟨j, u, hu, hid, hhash, hsigned⟩ := proof_record h hq hevidence
  have hcurrent := hdet.currentHash
  have horiginal : r.originalHash = sha256 u.request.content := by rw [horiginal, hhash]; rfl
  have hsig : r.signatureValid = true := by
    rw [hsig, hhash, hsigned]
    exact hkeys _
  refine ⟨j, u, hu, hid, ?_, horiginal, hcurrent⟩
  rw [hdet.verdict, hvalid, hsig, hcurrent, horiginal]
  by_cases hcontent : v.request.content = u.request.content
  · simp [determineResult, exactResult, hcontent]
  · have hne : sha256 v.request.content ≠ sha256 u.request.content :=
      fun he => hcontent (hcf j u hu he)
    simp [determineResult, exactResult, hcontent, hne]

theorem tells_recordArgs (v : Verification) (r : VerificationResponse) (now : String) :
    ∃ members, (v.recordArgs r now).rawPayload = .obj members ∧ Tells members r :=
  ⟨_, rfl, rfl, rfl, rfl⟩

theorem outcomeEnvelope_tells (v : Verification) (r : VerificationResponse)
    (recordId : String) (eventId : Uuid) (timestamp : String) :
    ((outcomeEnvelope v r recordId eventId timestamp).eventType = "VerificationPassed" ↔
      r.verificationResult = .valid) ∧
    ((outcomeEnvelope v r recordId eventId timestamp).eventType = "VerificationFailed" ↔
      r.verificationResult ≠ .valid) ∧
    Tells (outcomeEnvelope v r recordId eventId timestamp).payload r := by
  refine ⟨?_, ?_, rfl, rfl, rfl⟩
  · unfold outcomeEnvelope
    by_cases hv : r.verificationResult = .valid <;> simp [hv]
  · unfold outcomeEnvelope
    by_cases hv : r.verificationResult = .valid <;> simp [hv]

/-- Once the response is determined, a verification writes one event at most, about it. -/
theorem VerificationStep.outcome {y : VerificationAction} (h : VerificationStep keys w v y w' v')
    (hr : v.phase.response = some r) : w'.outbox = w.outbox ∨ ∃ recordId eventId timestamp,
      w'.outbox = w.outbox ++ [outcomeEnvelope v r recordId eventId timestamp] := by
  cases h with
  | report eventId timestamp hp hw =>
    rw [hp] at hr
    obtain rfl := Option.some.inj hr
    rcases hw with rfl | rfl
    · exact .inr ⟨_, eventId, timestamp, rfl⟩
    · exact .inl rfl
  | announce eventId timestamp hp hw =>
    rw [hp] at hr
    cases hr
  | _ => exact .inl rfl

/-- On an untampered system the answer of a verification is VALID for the uploaded bytes and
TAMPERED for all others, whatever the other requests do between its steps, and its ledger record
and its event agree with it. -/
theorem verification_exact (h : ((system keys).restrict (Untampered i)).Reachable s)
    (hkeys : ∀ hash, keys.verifySignature hash (keys.signHash hash) = true)
    (hv : s.verifications i = some v) (hr : v.phase.response = some r)
    (hcf : ∀ j u, s.uploads j = some u → sha256 v.request.content = sha256 u.request.content →
      v.request.content = u.request.content) : ExactOutcome keys s i v r := by
  have hreach := h.of_restrict
  have hdet := (verificationInvariant_reachable hreach i v hv).determined hr
  refine ⟨?_, ?_, ?_, ?_⟩
  · exact exact_verdict hreach hkeys hdet (answered_chainValid h v r hv hr) hcf
  · intro call c q hcall hc hq
    obtain ⟨c', now, hc', hargs⟩ := hdet.call call hcall
    obtain rfl := Option.some.inj (hc.symm.trans hc')
    have hkept := Ledger.payloadsKept_reachable (ledger_ordered h).reachable call c q hc hq
    obtain ⟨members, hmembers, htells⟩ := tells_recordArgs v r now
    exact ⟨members, by rw [hkept, hargs, hmembers], htells⟩
  · intro y t hs
    cases hs with
    | verification hv₀ hstep =>
      obtain rfl := Option.some.inj (hv.symm.trans hv₀)
      rcases hstep.outcome hr with hsame | ⟨recordId, eventId, timestamp, hnew⟩
      · exact .inl hsame
      · obtain ⟨hpassed, hfailed, htells⟩ := outcomeEnvelope_tells v r recordId eventId timestamp
        exact .inr ⟨_, hnew, hpassed, hfailed, htells⟩
  · intro t hp v' r' hv' hr'
    exact response_final hp hv hr hv' hr'

theorem sample_assigned : Assigned ["CASE-2025-001"] := by
  refine ⟨Auth.plainBcrypt, Auth.assignedDb, "investigator01",
    Auth.assigned_run (.init Auth.seeded_initial) fun _ _ => ⟨trivial, trivial⟩, ?_⟩
  decide +kernel

/-- The ledger's part in an untampered run of one upload. -/
def ClockGoesOn (l : Ledger.State) (a : Ledger.Action) : Prop :=
  (∀ j b, a ≠ .start j b) ∧ ∀ call, a = .commit call → ∀ c q, l.calls call = some c →
    c.phase = .advanced q → ∀ p ∈ Ledger.caseRecords l.records c.args.caseId,
      p.createdAt < q.createdAt

theorem sample_untampered_run : ∃ l, l.records = [sampleRecord] ∧
    ((system HashSign.plainKeys).restrict (Untampered 0)).Reachable
      ((State.empty.setWorld (sampleDone l)).setUpload 0
        ⟨sampleRequest, sampleId, some 0, .answering⟩) := by
  have hclock : ∀ l a, (∀ j b, a ≠ .start j b) → (∀ j, a ≠ .commit j) → ClockGoesOn l a :=
    fun _ _ ha hc => ⟨ha, fun call he => (hc call he).elim⟩
  have hcommit : Ledger.CommitOk ClockGoesOn sampleWorld.ledger 0 sampleArgs sampleRecord := by
    intro l writes hrecords hcall
    refine ⟨by simp, ?_⟩
    intro call he c q hc hp p hmem
    have hnone : l.records = [] := hrecords
    simp [Ledger.caseRecords, hnone] at hmem
  obtain ⟨view, l, happ⟩ := sample_appended hclock hcommit
  refine ⟨l, happ.records, ?_⟩
  refine sample_done_run (fun _ _ _ _ _ => trivial) sample_assigned ?_ happ
  intro l a l' ha
  refine ⟨ha.1, ?_⟩
  intro u
  cases a with
  | commit call => exact ha.2 call rfl
  | _ => trivial

theorem sample_verification_exact : ∃ s v r,
    ((system HashSign.plainKeys).restrict (Untampered 0)).Reachable s ∧
      s.verifications 0 = some v ∧ v.phase = .responded (.ok r) ∧
      ExactOutcome HashSign.plainKeys s 0 v r := by
  obtain ⟨l, hrecords, hdone⟩ := sample_untampered_run
  have hproof : proofData (Ledger.getProofByArtifactId (.ok l.records)
      sampleVerification.artifactId) = .ok ⟨sha256 [], sha256 [], (Uuid.ofNat 3).str⟩ := by
    rw [hrecords]
    exact sample_proof
  have hreads : ∀ s i y t, RowsRead y → Untampered 0 s (.verification i y) t := by
    intro s i y t hy
    cases y with
    | validate db => exact fun _ => hy db rfl
    | _ => trivial
  have hrow : requestedArtifact (sampleDone l).artifacts sampleVerification.artifactId =
      .ok (sampleIngested (.ofNat 3)) := by
    have hparse : Uuid.parse sampleVerification.artifactId = some sampleId := Uuid.parse_str _
    rw [requestedArtifact, hparse]
    rfl
  have haccess : checkAccess ["forensic_analyst", "legal_reviewer"] (sampleIngested (.ofNat 3))
      sampleVerification.actor [] = .ok () := by rfl
  have hentry : ∀ t, Untampered 0 ((State.empty.setWorld (sampleDone l)).setUpload 0
      ⟨sampleRequest, sampleId, some 0, .answering⟩)
      (.admitVerification 0 sampleVerification [] (.ofNat 6)) t := fun _ => trivial
  obtain ⟨s, hs⟩ := answered_run hreads 0 (.ofNat 6) hdone rfl hrow haccess (by simp [State.empty,
    State.setUpload, State.setWorld]) hentry (by decide) hproof
  refine ⟨s, _, _, hs.reach, hs.here, rfl, ?_⟩
  refine verification_exact hs.reach (by simp [HashSign.plainKeys]) hs.here rfl ?_
  intro j u hu _
  rw [hs.uploads] at hu
  have hj : j = 0 := by
    by_contra hne
    simp [State.setUpload, State.setWorld, State.empty, Function.update_of_ne hne] at hu
  subst hj
  obtain rfl : _ = u := by simpa [State.setUpload] using hu
  rfl

end ForensicChain.Evidence
