import ForensicChain.Evidence.Steps

/-!
What a verification knows at each of its statements: its temporary file holds the submitted bytes,
and the verdict is one over their hash and over a proof record of the artifact.
-/
namespace ForensicChain.Evidence

variable {keys : HashSign.Signer} {w w' : World} {v v' : Verification} {s t : State}
  {i : RequestId} {r : VerificationResponse}

/-- The proof data are those of a record of the artifact. -/
def Fetched (w : World) (v : Verification) (proof : ProofData) : Prop :=
  ∃ q ∈ w.ledger.records, Ledger.IsEvidenceProof v.artifact.artifactId q ∧
    proof = ⟨q.hashValue.getD "", q.signatureValue.getD "", q.recordId.str⟩

/-- What stands behind a response, and what the ledger call of the verification says of it. -/
structure Determined (keys : HashSign.Signer) (w : World) (v : Verification)
    (r : VerificationResponse) : Prop where
  proof : ∃ proof, Fetched w v proof ∧ r.originalHash = proof.hashValue ∧
    r.signatureValid = keys.verifySignature proof.hashValue proof.signatureValue
  currentHash : r.currentHash = sha256 v.request.content
  verdict : r.verificationResult =
    determineResult r.ledgerChainValid r.signatureValid r.currentHash r.originalHash
  call : ∀ call, v.call = some call → ∃ c now, w.ledger.calls call = some c ∧
    c.args = v.recordArgs r now

/-- The response that the verification has determined. -/
def VerificationPhase.response : VerificationPhase → Option VerificationResponse
  | .recording r | .awaiting r | .reporting r _ | .cleaning (.ok r) | .responded (.ok r) => some r
  | _ => none

def VerificationPhaseInvariant (keys : HashSign.Signer) (w : World) (v : Verification) : Prop :=
  match v.phase with
  | .announcing | .opening => v.call = none
  | .copying rest => v.call = none ∧ ∃ written,
      w.files v.path = some written ∧ written ++ rest = v.request.content
  | .hashing => v.call = none ∧ w.files v.path = some v.request.content
  | .fetching currentHash => v.call = none ∧ currentHash = sha256 v.request.content
  | .checking currentHash proof => v.call = none ∧ currentHash = sha256 v.request.content ∧
      Fetched w v proof
  | .validating currentHash proof isSigValid => v.call = none ∧
      currentHash = sha256 v.request.content ∧ Fetched w v proof ∧
      isSigValid = keys.verifySignature proof.hashValue proof.signatureValue
  | phase => ∀ r, phase.response = some r → Determined keys w v r

structure VerificationInvariant (keys : HashSign.Signer) (w : World) (v : Verification) :
    Prop where
  artifact : Uuid.parse v.request.artifactId = some v.artifact.artifactId
  phase : VerificationPhaseInvariant keys w v

theorem Fetched.frame {proof : ProofData} (h : Fetched w v proof)
    (hl : Ledger.Grows w.ledger w'.ledger) : Fetched w' v proof := by
  obtain ⟨q, hq, hproof⟩ := h
  exact ⟨q, hl.records hq, hproof⟩

theorem Determined.frame (h : Determined keys w v r) (hl : Ledger.Grows w.ledger w'.ledger) :
    Determined keys w' v r where
  proof := by
    obtain ⟨proof, hfetched, hrest⟩ := h.proof
    exact ⟨proof, hfetched.frame hl, hrest⟩
  currentHash := h.currentHash
  verdict := h.verdict
  call call hcall := by
    obtain ⟨c, now, hc, hargs⟩ := h.call call hcall
    obtain ⟨c', hc', hargs', _⟩ := hl.calls call c hc
    exact ⟨c', now, hc', hargs'.trans hargs⟩

theorem VerificationInvariant.frame (h : VerificationInvariant keys w v)
    (hs : Undisturbed w w' v) : VerificationInvariant keys w' v := by
  refine ⟨h.artifact, ?_⟩
  have hphase := h.phase
  unfold VerificationPhaseInvariant at hphase ⊢
  split at hphase
  · exact hphase
  · exact hphase
  · obtain ⟨hcall, written, hw, hrest⟩ := hphase
    exact ⟨hcall, written, hs.file.trans hw, hrest⟩
  · exact ⟨hphase.1, hs.file.trans hphase.2⟩
  · exact hphase
  · exact ⟨hphase.1, hphase.2.1, hphase.2.2.frame hs.ledger⟩
  · exact ⟨hphase.1, hphase.2.1, hphase.2.2.1.frame hs.ledger, hphase.2.2.2⟩
  · exact fun r hr => (hphase r hr).frame hs.ledger

/-- Going on with the same response, and with nothing new in the ledger. -/
theorem Determined.next (h : Determined keys w v r) (hl : Ledger.Grows w.ledger w'.ledger)
    (phase : VerificationPhase) : Determined keys w' (v.next phase) r :=
  ⟨(h.frame hl).proof, h.currentHash, h.verdict, (h.frame hl).call⟩

/-- A phase carries one response at most. -/
theorem Determined.of_some (h : Determined keys w v r) :
    ∀ r', some r = some r' → Determined keys w v r' := by
  rintro _ hr
  obtain rfl := Option.some.inj hr
  exact h

/-- What the ledger answers is a record of the artifact. -/
theorem fetched_of_answer {db : Except String (List Ledger.LedgerRecord)} {proof : ProofData}
    (hid : Uuid.parse v.request.artifactId = some v.artifact.artifactId) (hdb : ReadsLedger w db)
    (hr : proofData (Ledger.getProofByArtifactId db v.request.artifactId) = .ok proof) :
    Fetched w v proof := by
  cases db with
  | error e => simp [Ledger.getProofByArtifactId, proofData, Ledger.proofFailure] at hr
  | ok records =>
    obtain ⟨q, hq, hproof⟩ := (getProof_ok hid).mp hr
    obtain ⟨hmem, hevidence⟩ := Ledger.servedProof_mem hq
    exact ⟨q, hdb records rfl ▸ hmem, hevidence, hproof⟩

theorem VerificationInvariant.step {y : VerificationAction} (h : VerificationInvariant keys w v)
    (hs : VerificationStep keys w v y w' v') : VerificationInvariant keys w' v' := by
  have hid := h.artifact
  have hphase := h.phase
  refine ⟨by rw [hs.identity.1, hs.identity.2.1]; exact hid, ?_⟩
  unfold VerificationPhaseInvariant at hphase
  cases hs with
  | announce eventId timestamp hp hw =>
    rw [hp] at hphase
    exact hphase
  | openFile hp =>
    rw [hp] at hphase
    exact ⟨hphase, [], by simp [World.setFile, Verification.path, Verification.next], rfl⟩
  | copyChunk hp hc hl hf =>
    rename_i chunk rest written
    rw [hp] at hphase
    obtain ⟨hcall, _, hw, hrest⟩ := hphase
    obtain rfl := Option.some.inj (hf.symm.trans hw)
    have hnext : written ++ chunk ++ rest = v.request.content := by
      rw [List.append_assoc, hrest]
    exact ⟨hcall, written ++ chunk, by simp [World.setFile, Verification.path, Verification.next],
      hnext⟩
  | closeFile hp =>
    rw [hp] at hphase
    obtain ⟨hcall, written, hw, hrest⟩ := hphase
    rw [List.append_nil] at hrest
    subst hrest
    exact ⟨hcall, hw⟩
  | recompute hp hf hb =>
    rw [hp] at hphase
    obtain ⟨hcall, hw⟩ := hphase
    obtain rfl := Option.some.inj (hf.symm.trans hw)
    exact ⟨hcall, hb.hexdigest⟩
  | fetch db hp hdb hr =>
    rw [hp] at hphase
    exact ⟨hphase.1, hphase.2, fetched_of_answer hid hdb hr⟩
  | check hp =>
    rw [hp] at hphase
    exact ⟨hphase.1, hphase.2.1, hphase.2.2, rfl⟩
  | validate db hp hdb =>
    rw [hp] at hphase
    obtain ⟨hcall, hcurrent, hfetched, hsig⟩ := hphase
    rintro r hr
    obtain rfl := Option.some.inj hr
    refine ⟨⟨_, hfetched, rfl, hsig⟩, hcurrent, rfl, ?_⟩
    intro call hc
    simp [Verification.next, hcall] at hc
  | record hp hl =>
    rename_i call now r l
    rw [hp] at hphase
    have hgrows : Ledger.Grows w.ledger (w.setLedger l).ledger := Ledger.grows_step hl
    have hdet := (hphase r rfl).frame hgrows
    rintro r' hr
    obtain rfl := Option.some.inj hr
    refine ⟨hdet.proof, hdet.currentHash, hdet.verdict, ?_⟩
    intro call' hcall
    obtain rfl := Option.some.inj hcall
    cases hl
    exact ⟨_, now, Function.update_self _ _ _, rfl⟩
  | recorded hp hv hc hr hs =>
    rw [hp] at hphase
    exact ((hphase _ rfl).next .refl _).of_some
  | recordFailed hp =>
    rename_i r
    have hdet : Determined keys w v r := by
      rcases hp with hp | hp
      · rw [hp] at hphase
        exact hphase r rfl
      · rw [hp] at hphase
        exact hphase r rfl
    exact (hdet.next .refl _).of_some
  | report eventId timestamp hp hw =>
    rw [hp] at hphase
    have hgrows : Ledger.Grows w.ledger w'.ledger := by
      rcases hw with rfl | rfl <;> exact .refl
    exact ((hphase _ rfl).next hgrows _).of_some
  | clean hp =>
    rename_i answer
    rw [hp] at hphase
    cases answer with
    | error e => exact fun r hr => by cases hr
    | ok r =>
      have hgrows : Ledger.Grows w.ledger (w.setFile v.path none).ledger := .refl
      exact ((hphase r rfl).next hgrows _).of_some
  | copyRaised | recomputeFailed | fetchFailed | checkFailed | validateFailed | cleanRaised
  | stop => exact fun r hr => by cases hr

theorem VerificationInvariant.determined (h : VerificationInvariant keys w v)
    (hr : v.phase.response = some r) : Determined keys w v r := by
  have hphase := h.phase
  unfold VerificationPhaseInvariant at hphase
  cases hp : v.phase with
  | announcing | opening | copying | hashing | fetching | checking | validating =>
    simp [hp, VerificationPhase.response] at hr
  | recording | awaiting | reporting | cleaning | responded | stopped =>
    rw [hp] at hphase hr
    exact hphase r hr

/-- A response is determined once, by the check of the chain. -/
theorem VerificationStep.response {y : VerificationAction} (h : VerificationStep keys w v y w' v')
    (hr : v'.phase.response = some r) : v.phase.response = some r ∨ ∃ db, y = .validate db ∧
      ReadsLedger w db ∧
      r.ledgerChainValid = (Ledger.validateLedgerChain db v.artifact.caseId).chainValid := by
  cases h with
  | validate db hp hdb =>
    obtain rfl := Option.some.inj hr
    exact .inr ⟨db, rfl, hdb, rfl⟩
  | record hp hl | recorded hp hv hc hr' hs | report eventId timestamp hp hw =>
    rw [hp]
    exact .inl hr
  | recordFailed hp =>
    rcases hp with hp | hp <;> rw [hp] <;> exact .inl hr
  | clean hp =>
    rename_i answer
    rw [hp]
    cases answer with
    | ok q => exact .inl hr
    | error e => cases hr
  | _ => cases hr

/-- The verification has determined the response, or it has no answer to give any more. -/
def VerificationPhase.Settled (r : VerificationResponse) : VerificationPhase → Prop
  | .recording q | .awaiting q | .reporting q _ | .cleaning (.ok q) | .responded (.ok q) => q = r
  | .cleaning (.error _) | .responded (.error _) | .stopped => True
  | _ => False

theorem settled_of_response {phase : VerificationPhase} (h : phase.response = some r) :
    phase.Settled r := by
  cases phase with
  | recording q | awaiting q | reporting q => exact Option.some.inj h
  | cleaning answer | responded answer =>
    cases answer with
    | ok q => exact Option.some.inj h
    | error e => trivial
  | stopped => trivial
  | _ => cases h

theorem VerificationPhase.Settled.response {phase : VerificationPhase} {q : VerificationResponse}
    (h : phase.Settled r) (hq : phase.response = some q) : q = r := by
  cases phase with
  | recording | awaiting | reporting => exact (Option.some.inj hq).symm.trans h
  | cleaning answer | responded answer =>
    cases answer with
    | ok p => exact (Option.some.inj hq).symm.trans h
    | error e => cases hq
  | _ => cases hq

theorem VerificationStep.settled {y : VerificationAction} (h : VerificationStep keys w v y w' v')
    (hr : v.phase.Settled r) : v'.phase.Settled r := by
  cases h with
  | record hp hl | recorded hp hv hc hr' hs | report eventId timestamp hp hw =>
    rw [hp] at hr
    exact hr
  | recordFailed hp =>
    rcases hp with hp | hp <;> rw [hp] at hr <;> exact hr
  | clean hp =>
    rename_i answer
    rw [hp] at hr
    cases answer with
    | ok q => exact hr
    | error e => trivial
  | copyRaised | recomputeFailed | fetchFailed | checkFailed | validateFailed | cleanRaised
  | stop => trivial
  | announce eventId timestamp hp | openFile hp | copyChunk hp | closeFile hp | recompute hp
  | fetch db hp | check hp | validate db hp =>
    rw [hp] at hr
    exact hr.elim

/-- The answer that a verification has determined is the only one that it may ever give. -/
theorem response_final {ok : State → Action → Prop} (hp : (system keys).Path ok s t)
    (hv : s.verifications i = some v) (hr : v.phase.response = some r)
    (hv' : t.verifications i = some v') {q : VerificationResponse}
    (hq : v'.phase.response = some q) : q = r := by
  have hsettled : ∃ d, t.verifications i = some d ∧ d.phase.Settled r := by
    clear hv'
    induction hp with
    | refl => exact ⟨v, hv, settled_of_response hr⟩
    | step _ _ hs ih =>
      obtain ⟨d, hd, hset⟩ := ih
      rcases hs.verification_next hd with hsame | ⟨y, d', _, hd', hstep⟩
      · exact ⟨d, hsame, hset⟩
      · exact ⟨d', hd', hstep.settled hset⟩
  obtain ⟨d, hd, hset⟩ := hsettled
  obtain rfl := Option.some.inj (hd.symm.trans hv')
  exact hset.response hq

theorem verificationInvariant_reachable (h : (system keys).Reachable s) :
    ∀ i v, s.verifications i = some v → VerificationInvariant keys s.world v := by
  induction h with
  | init h => simp [h.2.2.2.2.2]
  | step hr _ hs ih =>
    refine hs.verifications_keep (verificationsApart_reachable hr) ih ?_ ?_ ?_
    · intro request artifact id ha
      exact ⟨(requestedArtifact_ok ha).2, rfl⟩
    · intro j v y v' _ _ hinv hstep
      exact hinv.step hstep
    · intro v hinv hsame
      exact hinv.frame hsame

end ForensicChain.Evidence
