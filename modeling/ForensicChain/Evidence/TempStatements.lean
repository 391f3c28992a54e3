import ForensicChain.Evidence.Steps
import ForensicChain.Evidence.TempInvariant

/-!
The temporary files between the awaits against the statements of `verify_evidence`: whatever a
verification does statement by statement, its request does between two awaits, with the same file.
-/
namespace ForensicChain.Evidence

variable {keys : HashSign.Signer} {w w' : World} {t : TempTree} {v v' : Verification}
  {q : TempRequest} {y : VerificationAction} {s s' : State} {z : TempState} {x : Action}

/-- The await that a statement comes after. Until the `finally` block is done, the request has not
gone on from the await that it came from. -/
def At (phase : TempPhase) : VerificationPhase → Prop
  | .announcing | .opening => phase = .authorizing
  | .copying rest => phase = .reading [] rest
  | .hashing => phase = .calling .recomputeHash
  | .fetching _ => phase = .calling .getProofByArtifact
  | .checking _ _ => phase = .calling .verifySignature
  | .validating _ _ _ => phase = .calling .validateLedgerChain
  | .recording _ | .awaiting _ | .reporting _ _ | .cleaning (.ok _) =>
      phase = .calling .appendVerificationRecord
  | .cleaning (.error _) => ∀ ending, phase ≠ .ended ending
  | .responded (.ok _) => phase = .ended .answered
  | .responded (.error _) => phase = .ended .raised
  | .stopped => False

/-- The block that removes the file has been reached. -/
def VerificationPhase.Cleaning : VerificationPhase → Prop
  | .cleaning _ => True
  | _ => False

/-- The request of a verification, with its file as it is in the tree. -/
structure Mirrors (w : World) (t : TempTree) (v : Verification) (q : TempRequest) : Prop where
  artifactId : q.artifactId = v.request.artifactId
  verificationId : q.verificationId = v.verificationId
  content : q.content = v.request.content
  phase : At q.phase v.phase
  file : q.HasFile → ¬ v.phase.Cleaning → q.file t = w.files v.path

/-- The statements that a process runs as long as it is not stopped and can remove its files. -/
def Graceful (_ : State) (x : Action) (_ : State) : Prop :=
  ∀ i, x ≠ .verification i .stop ∧ x ≠ .verification i .cleanRaised

/-- Both name one file. -/
theorem Mirrors.path (hm : Mirrors w t v q) :
    v.path = storageBase ++ "/tmp/" ++ q.tempDir ++ "/" ++ q.fileName := by
  rw [TempRequest.tempDir, TempRequest.fileName, hm.artifactId, hm.verificationId,
    Verification.path, tempPath]
  simp only [String.append_assoc]

/-- A statement in the middle of a step. -/
theorem Mirrors.stay (hm : Mirrors w t v q) {phase : VerificationPhase}
    {call : Option Ledger.CallId} (hp : At q.phase phase) (hv : ¬ v.phase.Cleaning)
    (hw : w'.files v.path = w.files v.path) : Mirrors w' t { v with call, phase } q :=
  ⟨hm.artifactId, hm.verificationId, hm.content, hp,
    fun hfile _ => (hm.file hfile hv).trans hw.symm⟩

/-- A statement that fails: the request is still to be cleaned up. -/
theorem Mirrors.fail (hm : Mirrors w t v q) {e : HttpError} (hp : q.InProgress) :
    Mirrors w' t (v.next (.cleaning (.error e))) q :=
  ⟨hm.artifactId, hm.verificationId, hm.content, hp, fun _ hc => (hc trivial).elim⟩

theorem Mirrors.failCall (hm : Mirrors w t v q) {call : RemoteCall} {e : HttpError}
    (hq : q.phase = .calling call) : Mirrors w' t (v.next (.cleaning (.error e))) q :=
  hm.fail (.of_hasFile (.inr ⟨call, hq⟩))

/-- A statement that ends a step. -/
theorem Mirrors.advance (hm : Mirrors w t v q) {u : TempTree} {phase : VerificationPhase}
    {phase' : TempPhase} (hp : At phase' phase)
    (hf : (q.next phase').HasFile → q.file u = w'.files v.path) :
    Mirrors w' u (v.next phase) (q.next phase') :=
  ⟨hm.artifactId, hm.verificationId, hm.content, hp, fun hfile _ => hf hfile⟩

/-- A call returns, and the next one is awaited. -/
theorem Mirrors.returned (hm : Mirrors w t v q) {call next : RemoteCall}
    {phase : VerificationPhase} (hq : q.phase = .calling call) (hn : call.next = some next)
    (hf : call = .recomputeHash → ∃ bytes, w.files v.path = some bytes)
    (hv : ¬ v.phase.Cleaning) (hp : At (.calling next) phase) :
    ∃ a u r, TempStep t q a u r ∧ Mirrors w u (v.next phase) r := by
  have hfile := hm.file (.inr ⟨call, hq⟩) hv
  refine ⟨_, t, _, .returned hq hn ?_, hm.advance hp fun _ => hfile⟩
  intro hcall
  obtain ⟨bytes, hbytes⟩ := hf hcall
  exact ⟨bytes, hfile.trans hbytes⟩

/-- The `finally` block ends a step. -/
theorem Mirrors.finish (hm : Mirrors w t v q) {u : TempTree} {ending : Ending}
    {answer : Except HttpError VerificationResponse}
    (hp : At (.ended ending) (.responded answer)) :
    Mirrors w' u (v.next (.responded answer)) (q.next (.ended ending)) := by
  refine hm.advance hp fun hfile => ?_
  rcases hfile with ⟨_, _, hended⟩ | ⟨_, hended⟩ <;> cases hended

/-- Each statement is a step of the request, or it is in the middle of one. -/
theorem VerificationStep.mirrored (hs : VerificationStep keys w v y w' v') (hm : Mirrors w t v q)
    (hstop : y ≠ .stop) (hraised : y ≠ .cleanRaised) :
    Mirrors w' t v' q ∨ ∃ a u r, TempStep t q a u r ∧ Mirrors w' u v' r := by
  have hat := hm.phase
  have hnotCleaning : ∀ {phase}, v.phase = phase → ¬ phase.Cleaning → ¬ v.phase.Cleaning := by
    rintro _ rfl h
    exact h
  cases hs with
  | announce eventId timestamp hp hw =>
    rw [hp] at hat
    refine .inl (hm.stay hat (hnotCleaning hp id) ?_)
    rcases hw with rfl | rfl <;> rfl
  | openFile hp =>
    rw [hp] at hat
    obtain ⟨u, hu⟩ := q.openFile_makeDir t
    refine .inr ⟨_, u, _, .openFile hat hu, hm.advance (by rw [hm.content]; rfl) fun _ => ?_⟩
    exact (FileTree.read_write_self hu).trans (by simp [World.setFile])
  | copyChunk hp hc hl hf =>
    rename_i chunk rest written
    rw [hp] at hat
    have hfile : q.file t = some written :=
      (hm.file (.inl ⟨_, _, hat⟩) (hnotCleaning hp id)).trans hf
    have hbuffer : [] ++ chunk = chunk ++ [] := (List.append_nil chunk).symm
    refine .inr ⟨_, _, _, .write hat hc hl hbuffer, hm.advance rfl fun _ => ?_⟩
    rw [TempRequest.file_append, hfile]
    simp [World.setFile]
  | closeFile hp =>
    rw [hp] at hat
    have hfile := hm.file (.inl ⟨_, _, hat⟩) (hnotCleaning hp id)
    refine .inr ⟨_, _, _, .closeFile hat, hm.advance rfl fun _ => ?_⟩
    rw [TempRequest.file_append, hfile]
    simp
  | copyRaised left hp =>
    refine .inl (hm.fail ?_)
    rcases hp with hp | ⟨rest, hp⟩ <;> rw [hp] at hat
    · exact .of_authorizing hat
    · exact .of_hasFile (.inl ⟨_, _, hat⟩)
  | recompute hp hf hb =>
    rw [hp] at hat
    exact .inr (hm.returned hat rfl (fun _ => ⟨_, hf⟩) (hnotCleaning hp id) rfl)
  | recomputeFailed error hp =>
    rw [hp] at hat
    exact .inl (hm.failCall hat)
  | fetch db hp =>
    rw [hp] at hat
    exact .inr (hm.returned hat rfl (by simp) (hnotCleaning hp id) rfl)
  | fetchFailed error hp =>
    rw [hp] at hat
    exact .inl (hm.failCall hat)
  | check hp =>
    rw [hp] at hat
    exact .inr (hm.returned hat rfl (by simp) (hnotCleaning hp id) rfl)
  | checkFailed error hp =>
    rw [hp] at hat
    exact .inl (hm.failCall hat)
  | validate db hp =>
    rw [hp] at hat
    exact .inr (hm.returned hat rfl (by simp) (hnotCleaning hp id) rfl)
  | validateFailed error hp =>
    rw [hp] at hat
    exact .inl (hm.failCall hat)
  | record hp hl =>
    rw [hp] at hat
    exact .inl (hm.stay hat (hnotCleaning hp id) rfl)
  | recorded hp hv hc hr hsuccess =>
    rw [hp] at hat
    exact .inl (hm.stay hat (hnotCleaning hp id) rfl)
  | recordFailed hp =>
    rcases hp with hp | hp <;> rw [hp] at hat <;>
      exact .inl (hm.stay hat (hnotCleaning hp id) rfl)
  | report eventId timestamp hp hw =>
    rw [hp] at hat
    refine .inl (hm.stay hat (hnotCleaning hp id) ?_)
    rcases hw with rfl | rfl <;> rfl
  | clean hp =>
    rename_i answer
    rw [hp] at hat
    right
    cases answer with
    | ok r => exact ⟨_, _, _, .answer hat rfl, hm.finish rfl⟩
    | error e =>
      cases hq : q.phase with
      | authorizing => exact ⟨_, _, _, .openRaised hq, hm.finish rfl⟩
      | reading buffered rest =>
        exact ⟨_, _, _, .raised (.inl ⟨_, _, hq⟩), hm.finish rfl⟩
      | calling call => exact ⟨_, _, _, .raised (.inr ⟨_, hq⟩), hm.finish rfl⟩
      | ended ending => exact (hat ending hq).elim
  | cleanRaised => exact (hraised rfl).elim
  | stop => exact (hstop rfl).elim

/-- The verifications of a state are the requests of the other, each with its file. -/
def Mirrored (s : State) (z : TempState) : Prop :=
  ∀ i, Option.Rel (Mirrors s.world z.tree) (s.verifications i) (z.requests i)

theorem rel_imp {α β : Type} {R S : α → β → Prop} {a : Option α} {b : Option β}
    (h : Option.Rel R a b) (hrs : ∀ x y, a = some x → b = some y → R x y → S x y) :
    Option.Rel S a b := by
  cases h with
  | some hr => exact .some (hrs _ _ rfl rfl hr)
  | none => exact .none

theorem Mirrors.frame (hm : Mirrors w t v q) {u : TempTree}
    (hw : w'.files v.path = w.files v.path) (hu : q.file u = q.file t) : Mirrors w' u v q :=
  ⟨hm.artifactId, hm.verificationId, hm.content, hm.phase,
    fun hfile hc => hu.trans ((hm.file hfile hc).trans hw.symm)⟩

/-- Steps that no verification makes, and that leave the temporary files alone. -/
theorem Mirrored.frame (hm : Mirrored s z) (hv : s'.verifications = s.verifications)
    (hw : ∀ v : Verification, s'.world.files v.path = s.world.files v.path) : Mirrored s' z := by
  intro i
  rw [hv]
  exact rel_imp (hm i) fun v _ _ _ h => h.frame (hw v) rfl

theorem Mirrored.of_some (hm : Mirrored s z) {i : RequestId} (hv : s.verifications i = some v) :
    ∃ q, z.requests i = some q ∧ Mirrors s.world z.tree v q := by
  have hi := hm i
  rw [hv] at hi
  cases hq : z.requests i <;> rw [hq] at hi <;> cases hi
  rename_i q h
  exact ⟨q, rfl, h⟩

theorem Mirrored.of_request (hm : Mirrored s z) {i : RequestId} (hq : z.requests i = some q) :
    ∃ v, s.verifications i = some v ∧ Mirrors s.world z.tree v q := by
  have hi := hm i
  rw [hq] at hi
  cases hv : s.verifications i <;> rw [hv] at hi <;> cases hi
  rename_i v h
  exact ⟨v, rfl, h⟩

/-- One verification goes on, and the others keep what they have. -/
theorem Mirrored.update (hm : Mirrored s z) {i : RequestId} {u : TempTree} {r : TempRequest}
    (hnext : Mirrors w u v r) (hothers : ∀ j v q, j ≠ i → s.verifications j = some v →
      z.requests j = some q → Mirrors s.world z.tree v q → Mirrors w u v q) :
    Mirrored ((s.setWorld w).setVerification i v) (TempState.setRequest ⟨u, z.requests⟩ i r) := by
  intro j
  by_cases hj : j = i
  · subst hj
    simpa [State.setVerification, State.setWorld, TempState.setRequest] using
      Option.Rel.some hnext
  · simp only [State.setVerification, State.setWorld, TempState.setRequest,
      Function.update_of_ne hj]
    exact rel_imp (hm j) fun v q hv hq h => hothers j v q hj hv hq h

theorem Mirrored.step (hm : Mirrored s z) (ha : VerificationsApart s) (hs : Step keys s x s')
    (hg : Graceful s x s') : Mirrored s' z ∨ ∃ b u, tempSystem.step z b u ∧ Mirrored s' u := by
  cases hs with
  | admitUpload => exact .inl (hm.frame rfl fun _ => rfl)
  | upload hu hs =>
    exact .inl (hm.frame rfl fun v => hs.files (tempPath_ne_storagePath _ _ _))
  | @admitVerification i request assigned artifact verificationId hi hart hc hf =>
    have hfree : z.requests i = none := by
      cases hq : z.requests i with
      | none => rfl
      | some q =>
        obtain ⟨v, hv, _⟩ := hm.of_request hq
        rw [hi] at hv
        cases hv
    have hfresh : ∀ j q, z.requests j = some q → q.verificationId ≠ verificationId := by
      intro j q hq
      obtain ⟨v, hv, hvq⟩ := hm.of_request hq
      rw [hvq.verificationId]
      exact hf j v hv
    refine .inr ⟨_, _, .arrive request.content hfree (requestedArtifact_ok hart).2 hfresh, ?_⟩
    refine hm.update ⟨rfl, rfl, rfl, rfl, ?_⟩ fun _ _ _ _ _ _ h => h
    rintro (⟨_, _, hp⟩ | ⟨_, hp⟩) <;> cases hp
  | @verification i v y w v' hv hs =>
    obtain ⟨q, hq, hvq⟩ := hm.of_some hv
    -- another verification has another file, in the world and in the tree
    have hpath : ∀ j v₁, j ≠ i → s.verifications j = some v₁ → v₁.path ≠ v.path := by
      intro j v₁ hj hv₁ he
      exact hj (ha j i v₁ v hv₁ hv (tempPath_verificationId he))
    rcases hs.mirrored hvq (fun hy => (hg i).1 (congrArg _ hy))
      (fun hy => (hg i).2 (congrArg _ hy)) with hsame | ⟨a, u, r, hstep, hnext⟩
    · have hz : TempState.setRequest ⟨z.tree, z.requests⟩ i q = z := by
        simp [TempState.setRequest, ← hq]
      rw [← hz]
      left
      refine hm.update hsame fun j v₁ q₁ hj hv₁ _ h => ?_
      exact h.frame (hs.files (hpath j v₁ hj hv₁)) rfl
    · refine .inr ⟨_, _, .resume hq hstep, hm.update hnext fun j v₁ q₁ hj hv₁ _ h => ?_⟩
      refine h.frame (hs.files (hpath j v₁ hj hv₁)) (hstep.read_of_ne ?_)
      rintro ⟨_, hname⟩
      have hid := TempRequest.fileName_inj.mp hname
      rw [h.verificationId, hvq.verificationId] at hid
      exact hj (ha j i v₁ v hv₁ hv hid)
  | anchorReport => exact .inl (hm.frame rfl fun _ => rfl)
  | ledger => exact .inl (hm.frame rfl fun _ => rfl)

/-- What verifications do to their files statement by statement, requests do between awaits. -/
theorem mirrored_reachable (h : ((system keys).restrict Graceful).Reachable s) :
    ∃ z, tempSystem.Reachable z ∧ Mirrored s z := by
  apply h.simulated
  · rintro s ⟨_, _, _, _, _, hnone⟩
    refine ⟨⟨∅, fun _ => none⟩, ⟨rfl, fun _ => rfl⟩, fun i => ?_⟩
    rw [hnone i]
    exact .none
  · rintro s x s' z hr ⟨hs, hg⟩ hm
    exact hm.step (verificationsApart_reachable hr.of_restrict) hs hg

end ForensicChain.Evidence
