import ForensicChain.Evidence.VerificationRun
import ForensicChain.Ledger.Provenance

/-!
What an upload keeps. It owns one artifact id, and with it one row, one file and at most one ledger
call; it removes the file only while the row is not ingested. Nobody else touches any of them.
-/
namespace ForensicChain.Evidence

variable {keys : HashSign.Signer} {w w' : World} {u u' : Upload}
  {a b : Artifact} {id : Uuid}

/-- The columns of the row are those of the request. -/
def SavedRow (u : Upload) (a : Artifact) : Prop :=
  a.fileSize = u.request.content.length ∧ a.storagePath = u.path ∧
    Postgres.varchar 64 u.request.caseId = some a.caseId

def NoRow (w : World) (u : Upload) : Prop := ∀ a ∈ w.artifacts, a.artifactId ≠ u.artifactId

def NotIngested (w : World) (u : Upload) : Prop :=
  ∀ a ∈ w.artifacts, a.artifactId = u.artifactId → a.status ≠ .ingested

def PendingRow (w : World) (u : Upload) : Prop :=
  ∀ a ∈ w.artifacts, a.artifactId = u.artifactId → SavedRow u a ∧ a.status ≠ .ingested

def FileWritten (w : World) (u : Upload) : Prop := w.files u.path = some u.request.content

/-- The ledger call of the upload is one for its artifact. -/
def CallKnown (w : World) (u : Upload) : Prop :=
  ∀ call, u.call = some call → ∃ c hash sig now, w.ledger.calls call = some c ∧
    c.args = u.proofArgs hash sig now

/-- The ledger call of the upload has the given hash and signature. -/
def Appending (w : World) (u : Upload) (hash sig : String) (P : Ledger.Call → Prop) : Prop :=
  ∃ call c now, u.call = some call ∧ w.ledger.calls call = some c ∧
    c.args = u.proofArgs hash sig now ∧ P c

/-- The record of the ledger call of the upload is the one that the row names. -/
def RecordBacks (w : World) (u : Upload) (a : Artifact) : Prop :=
  ∃ call c r, u.call = some call ∧ w.ledger.calls call = some c ∧ c.phase = .committed r ∧
    a.ledgerRecordId = some r.recordId ∧ r.caseId = a.caseId ∧ r.hashValue = a.hashValue ∧
    r.signatureValue = a.signatureValue

/-- The row, the file and the record of an upload agree. -/
def Backed (w : World) (u : Upload) (a : Artifact) : Prop :=
  FileWritten w u ∧ SavedRow u a ∧ a.hashValue = some (sha256 u.request.content) ∧ RecordBacks w u a

def PhaseInvariant (w : World) (u : Upload) : Prop :=
  match u.phase with
  | .opening => NoRow w u ∧ u.call = none
  | .writing rest fileSize => NoRow w u ∧ u.call = none ∧ ∃ written,
      w.files u.path = some written ∧ written ++ rest = u.request.content ∧
        fileSize = written.length
  | .saving fileSize => NoRow w u ∧ u.call = none ∧ FileWritten w u ∧
      fileSize = u.request.content.length
  | .refreshing | .hashing => PendingRow w u ∧ u.call = none ∧ FileWritten w u
  | .hashed hash _ _ => PendingRow w u ∧ u.call = none ∧ FileWritten w u ∧
      hash = sha256 u.request.content
  | .appending hash _ sig => PendingRow w u ∧ FileWritten w u ∧
      hash = sha256 u.request.content ∧ Appending w u hash sig fun _ => True
  | .finalizing hash _ sig record => PendingRow w u ∧ FileWritten w u ∧
      hash = sha256 u.request.content ∧ Appending w u hash sig fun c =>
        ∃ r, c.phase = .committed r ∧ record = r.recordId.str
  | .rejecting removes _ => removes = true → NotIngested w u
  | .removing _ => NotIngested w u
  | .answering | .responded _ | .stopped => True

structure UploadInvariant (w : World) (u : Upload) : Prop where
  phase : PhaseInvariant w u
  call : CallKnown w u
  backed : ∀ a ∈ w.artifacts, a.artifactId = u.artifactId → a.status = .ingested → Backed w u a

theorem NoRow.notIngested (h : NoRow w u) : NotIngested w u := fun a ha hid => (h a ha hid).elim

theorem PendingRow.notIngested (h : PendingRow w u) : NotIngested w u :=
  fun a ha hid => (h a ha hid).2

/-- Nothing of the given artifact has changed. -/
structure SameFor (w w' : World) (id : Uuid) : Prop where
  rows : ∀ a ∈ w'.artifacts, a.artifactId = id → a ∈ w.artifacts
  file : w'.files (storagePath id) = w.files (storagePath id)
  ledger : Ledger.Grows w.ledger w'.ledger

theorem SameFor.refl : SameFor w w id := ⟨fun _ ha _ => ha, rfl, .refl⟩

theorem SameFor.setFile {path : String} {content : Option (List UInt8)}
    (h : storagePath id ≠ path) : SameFor w (w.setFile path content) id :=
  ⟨fun _ ha _ => ha, by simp [World.setFile, h], .refl⟩

theorem SameFor.setLedger {l : Ledger.State} {x : Ledger.Action}
    (h : Ledger.Step w.ledger x l) : SameFor w (w.setLedger l) id :=
  ⟨fun _ ha _ => ha, rfl, Ledger.grows_step h⟩

theorem mem_updateArtifact (h : a ∈ (w.updateArtifact b).artifacts) :
    a = b ∨ a ∈ w.artifacts ∧ a.artifactId ≠ b.artifactId := by
  obtain ⟨c, hc, rfl⟩ := List.mem_map.mp h
  by_cases hcb : c.artifactId = b.artifactId
  · exact .inl (if_pos hcb)
  · rw [if_neg hcb]
    exact .inr ⟨hc, hcb⟩

theorem SameFor.updateArtifact (h : b.artifactId ≠ id) : SameFor w (w.updateArtifact b) id := by
  refine ⟨?_, rfl, .refl⟩
  rintro a ha rfl
  rcases mem_updateArtifact ha with rfl | ⟨ha, _⟩
  · exact (h rfl).elim
  · exact ha

theorem SameFor.emits {env : Custody.Envelope} (h : Emits w env w') : SameFor w w' id := by
  rcases h with rfl | rfl
  · exact ⟨fun _ ha _ => ha, rfl, .refl⟩
  · exact .refl

theorem Upload.pendingRow_eq_some {fileSize : Nat} (h : u.pendingRow fileSize = some a) :
    a.artifactId = u.artifactId ∧ a.fileSize = fileSize ∧ a.status = .pending ∧
      Postgres.varchar 1024 u.path = some a.storagePath ∧
      Postgres.varchar 64 u.request.caseId = some a.caseId := by
  simp only [Upload.pendingRow, bind, Option.bind_eq_some_iff, Option.some.injEq] at h
  obtain ⟨_, _, _, hcase, _, _, _, _, _, hpath, _, _, _, _, rfl⟩ := h
  exact ⟨rfl, rfl, rfl, hpath, hcase⟩

/-- What marking a row as ingested sets, and what it keeps. -/
structure Artifact.IngestedAs (a b : Artifact) (hash sig record : String) : Prop where
  recordId : ∃ recordId, Uuid.parse record = some recordId ∧ b.ledgerRecordId = some recordId
  hashValue : b.hashValue = Postgres.varchar 256 hash
  signatureValue : b.signatureValue = Postgres.text sig
  status : b.status = .ingested
  artifactId : b.artifactId = a.artifactId
  caseId : b.caseId = a.caseId
  fileSize : b.fileSize = a.fileSize
  storagePath : b.storagePath = a.storagePath

theorem Artifact.ingest_eq_some {hash alg sig record : String}
    (h : a.ingest hash alg sig record = some b) : a.IngestedAs b hash sig record := by
  simp only [Artifact.ingest, bind, Option.bind_eq_some_iff, Option.some.injEq] at h
  obtain ⟨_, hh, _, _, _, hs, recordId, hr, rfl⟩ := h
  exact ⟨⟨recordId, hr, rfl⟩, hh.symm, hs.symm, rfl, rfl, rfl, rfl, rfl⟩

theorem Saves.sameFor {fileSize : Nat} (h : Saves w u fileSize w') (hid : id ≠ u.artifactId) :
    SameFor w w' id := by
  obtain ⟨ha, hk⟩ := h
  rename_i a
  refine ⟨?_, rfl, .refl⟩
  rintro b hb rfl
  rcases List.mem_append.mp hb with hb | hb
  · exact hb
  · obtain rfl := List.mem_singleton.mp hb
    exact (hid (Upload.pendingRow_eq_some ha).1).elim

theorem Finalizes.sameFor {hash alg sig record : String}
    (h : Finalizes w u hash alg sig record w') (hid : id ≠ u.artifactId) : SameFor w w' id := by
  obtain ⟨eventId, timestamp, ha, hau, hb, he⟩ := h
  rename_i a b
  have hsame : SameFor w (w.updateArtifact b) id :=
    .updateArtifact (by rw [(Artifact.ingest_eq_some hb).artifactId, hau]; exact hid.symm)
  exact ⟨hsame.rows, hsame.file, hsame.ledger⟩

theorem Rejects.sameFor (h : Rejects w u w') (hid : id ≠ u.artifactId) : SameFor w w' id := by
  obtain ⟨ha, hau⟩ := h
  exact .updateArtifact (by rw [hau]; exact hid.symm)

/-- An upload touches only what belongs to its own artifact. -/
theorem UploadStep.sameFor {x : UploadAction} (h : UploadStep keys w u x w' u')
    (hid : id ≠ u.artifactId) : SameFor w w' id := by
  have hpath : storagePath id ≠ u.path := fun he => hid (storagePath_injective he)
  cases h with
  | openFile | writeChunk | writeRaised | remove | removeRaised => exact .setFile hpath
  | closeFile | refresh | refreshRaised | sign | signFailed | appended | appendFailed | answer
  | answerRaised | stop => exact .refl
  | save hp hw => exact hw.sameFor hid
  | append hp hl => exact .setLedger hl
  | finalize hp hw => exact hw.sameFor hid
  | reject hp hw => exact hw.sameFor hid
  | saveRaised error hp hw | finalizeRaised error hp hw | rejectRaised hp hw =>
    rcases hw with rfl | hw
    · exact .refl
    · exact hw.sameFor hid

/-- A verification touches nothing of any artifact. -/
theorem VerificationStep.sameFor {v v' : Verification} {x : VerificationAction}
    (h : VerificationStep keys w v x w' v') : SameFor w w' id := by
  have hpath : storagePath id ≠ v.path := (tempPath_ne_storagePath _ _ _).symm
  cases h with
  | announce eventId timestamp hp hw | report eventId timestamp hp hw => exact .emits hw
  | openFile | copyChunk | copyRaised | clean => exact .setFile hpath
  | record hp hl => exact .setLedger hl
  | closeFile | recompute | recomputeFailed | fetch | fetchFailed | check | checkFailed | validate
  | validateFailed | recorded | recordFailed | cleanRaised | stop => exact .refl

theorem CallKnown.frame (h : CallKnown w u) (hl : Ledger.Grows w.ledger w'.ledger) :
    CallKnown w' u := by
  intro call hcall
  obtain ⟨c, hash, sig, now, hc, hargs⟩ := h call hcall
  obtain ⟨c', hc', hargs', _⟩ := hl.calls call c hc
  exact ⟨c', hash, sig, now, hc', hargs'.trans hargs⟩

theorem Appending.frame {hash sig : String} {P : Ledger.Call → Prop}
    (h : Appending w u hash sig P) (hl : Ledger.Grows w.ledger w'.ledger)
    (hP : ∀ c c', (∀ r, c.phase = .committed r → c'.phase = .committed r) → P c → P c') :
    Appending w' u hash sig P := by
  obtain ⟨call, c, now, hcall, hc, hargs, hp⟩ := h
  obtain ⟨c', hc', hargs', hphase⟩ := hl.calls call c hc
  exact ⟨call, c', now, hcall, hc', hargs'.trans hargs, hP c c' hphase hp⟩

theorem PhaseInvariant.frame (h : PhaseInvariant w u) (hs : SameFor w w' u.artifactId) :
    PhaseInvariant w' u := by
  have hno : NoRow w u → NoRow w' u := fun h a ha hid => h a (hs.rows a ha hid) hid
  have hpending : PendingRow w u → PendingRow w' u := fun h a ha hid => h a (hs.rows a ha hid) hid
  have hnot : NotIngested w u → NotIngested w' u := fun h a ha hid => h a (hs.rows a ha hid) hid
  have hfile : FileWritten w u → FileWritten w' u := fun h => hs.file.trans h
  unfold PhaseInvariant at h ⊢
  split at h
  · exact ⟨hno h.1, h.2⟩
  · obtain ⟨hn, hc, written, hw, hrest⟩ := h
    exact ⟨hno hn, hc, written, hs.file.trans hw, hrest⟩
  · exact ⟨hno h.1, h.2.1, hfile h.2.2.1, h.2.2.2⟩
  · exact ⟨hpending h.1, h.2.1, hfile h.2.2⟩
  · exact ⟨hpending h.1, h.2.1, hfile h.2.2⟩
  · exact ⟨hpending h.1, h.2.1, hfile h.2.2.1, h.2.2.2⟩
  · exact ⟨hpending h.1, hfile h.2.1, h.2.2.1, h.2.2.2.frame hs.ledger fun _ _ _ => id⟩
  · refine ⟨hpending h.1, hfile h.2.1, h.2.2.1, h.2.2.2.frame hs.ledger ?_⟩
    rintro c c' hphase ⟨r, hr, hrecord⟩
    exact ⟨r, hphase r hr, hrecord⟩
  · exact fun hr => hnot (h hr)
  · exact hnot h
  · trivial
  · trivial
  · trivial

theorem Backed.frame (h : Backed w u a) (hs : SameFor w w' u.artifactId) : Backed w' u a := by
  obtain ⟨hfile, hrow, hhash, call, c, r, hcall, hc, hr, hback⟩ := h
  obtain ⟨c', hc', _, hphase⟩ := hs.ledger.calls call c hc
  exact ⟨hs.file.trans hfile, hrow, hhash, call, c', r, hcall, hc', hphase r hr, hback⟩

theorem UploadInvariant.frame (h : UploadInvariant w u) (hs : SameFor w w' u.artifactId) :
    UploadInvariant w' u where
  phase := h.phase.frame hs
  call := h.call.frame hs.ledger
  backed a ha hid hi := (h.backed a (hs.rows a ha hid) hid hi).frame hs

theorem UploadInvariant.quiet (hphase : PhaseInvariant w u) (hcall : CallKnown w u)
    (hn : NotIngested w u) : UploadInvariant w u :=
  ⟨hphase, hcall, fun a ha hid hi => (hn a ha hid hi).elim⟩

/-- Moving on without an effect on what is shared. -/
theorem UploadInvariant.next {phase : UploadPhase} (h : UploadInvariant w u)
    (hphase : PhaseInvariant w (u.next phase)) : UploadInvariant w (u.next phase) :=
  ⟨hphase, h.call, h.backed⟩

theorem storagePath_length (artifactId : Uuid) : (storagePath artifactId).length = 67 := by
  simp only [storagePath, String.length_append, Uuid.str_length]
  decide

theorem Saves.pendingRow (h : Saves w u u.request.content.length w') (hn : NoRow w u) :
    PendingRow w' u := by
  obtain ⟨ha, hk⟩ := h
  rename_i a
  obtain ⟨_, hsize, hstatus, hpath, hcase⟩ := Upload.pendingRow_eq_some ha
  intro b hb hid
  rcases List.mem_append.mp hb with hb | hb
  · exact (hn b hb hid).elim
  · obtain rfl := List.mem_singleton.mp hb
    refine ⟨⟨hsize, ?_, hcase⟩, by simp [hstatus]⟩
    exact Postgres.eq_of_varchar (by rw [Upload.path, storagePath_length]; decide) hpath

theorem Rejects.notIngested (h : Rejects w u w') : NotIngested w' u := by
  obtain ⟨ha, hau⟩ := h
  intro b hb hid
  rcases mem_updateArtifact hb with rfl | ⟨_, hne⟩
  · simp
  · exact (hne (hid.trans hau.symm)).elim

/-- The row that is marked as ingested names the committed record, with the same columns. -/
theorem Finalizes.backed {hash alg sig record : String}
    (h : Finalizes w u hash alg sig record w') (hprov : Ledger.Provenance w.ledger)
    (hrow : PendingRow w u) (hfile : FileWritten w u) (hhash : hash = sha256 u.request.content)
    (happ : Appending w u hash sig fun c =>
      ∃ r, c.phase = .committed r ∧ record = r.recordId.str) :
    ∀ b ∈ w'.artifacts, b.artifactId = u.artifactId → Backed w' u b := by
  obtain ⟨eventId, timestamp, ha, hau, hb, he⟩ := h
  rename_i a b
  obtain ⟨⟨recordId, hparse, hrecord⟩, hbh, hbs, _, hid, hcase, hsize, hpath⟩ :=
    Artifact.ingest_eq_some hb
  obtain ⟨call, c, now, hcall, hc, hargs, r, hr, rfl⟩ := happ
  obtain ⟨⟨hasize, hapath, hacase⟩, _⟩ := hrow a ha hau
  rw [Uuid.parse_str] at hparse
  obtain rfl := Option.some.inj hparse
  have hsound := hprov.calls call c hc
  simp only [Ledger.Call.Sound, hr, hargs] at hsound
  have hrcase : r.caseId = a.caseId := by
    have hr64 : Postgres.varchar 64 u.request.caseId = some r.caseId := hsound.caseId
    exact Option.some.inj (hr64.symm.trans hacase)
  have hrhash : r.hashValue = b.hashValue :=
    (Postgres.eq_of_nullable_some hsound.hashValue).trans hbh.symm
  have hrsig : r.signatureValue = b.signatureValue :=
    (Postgres.eq_of_nullable_some hsound.signatureValue).trans hbs.symm
  have hbhash : b.hashValue = some (sha256 u.request.content) := by
    rw [hbh, hhash, Ledger.varchar_sha256]
  intro d hd hdu
  rcases mem_updateArtifact hd with rfl | ⟨_, hne⟩
  · exact ⟨hfile, ⟨hsize.trans hasize, hpath.trans hapath, hcase ▸ hacase⟩, hbhash, call, c, r,
      hcall, hc, hr, hrecord, hrcase.trans hcase.symm, hrhash, hrsig⟩
  · exact (hne (hdu.trans (hid.trans hau).symm)).elim

/-- Once the row is marked as ingested, only that it is backed is left to show. -/
theorem UploadInvariant.finalized {hash alg sig record : String} {phase : UploadPhase}
    (h : UploadInvariant w u) (hw : Finalizes w u hash alg sig record w')
    (hphase : PhaseInvariant w' (u.next phase))
    (hback : ∀ b ∈ w'.artifacts, b.artifactId = u.artifactId → Backed w' u b) :
    UploadInvariant w' (u.next phase) := by
  refine ⟨hphase, ?_, fun b hb hid _ => hback b hb hid⟩
  obtain ⟨eventId, timestamp, ha, hau, hb, he⟩ := hw
  exact h.call

/-- A request keeps its artifact id and its content, and makes at most one ledger call. -/
theorem UploadStep.identity {x : UploadAction} (h : UploadStep keys w u x w' u') :
    u'.artifactId = u.artifactId ∧ u'.request = u.request := by
  cases h <;> exact ⟨rfl, rfl⟩

/-- The invariant of an upload over its own steps. -/
theorem UploadInvariant.step {x : UploadAction} (h : UploadInvariant w u)
    (hprov : Ledger.Provenance w.ledger) (hs : UploadStep keys w u x w' u') :
    UploadInvariant w' u' := by
  have hphase := h.phase
  unfold PhaseInvariant at hphase
  cases hs with
  | openFile hp =>
    rw [hp] at hphase
    obtain ⟨hn, hc⟩ := hphase
    refine .quiet ⟨hn, hc, [], ?_, rfl, rfl⟩ h.call hn.notIngested
    simp [World.setFile, Upload.path, Upload.next]
  | writeChunk hp hne hl hf =>
    rename_i chunk rest written fileSize
    rw [hp] at hphase
    obtain ⟨hn, hc, _, hw, hrest, hsize⟩ := hphase
    obtain rfl := Option.some.inj (hf.symm.trans hw)
    have hnext : written ++ chunk ++ rest = u.request.content := by
      rw [List.append_assoc, hrest]
    refine .quiet ⟨hn, hc, written ++ chunk, ?_, hnext, by simp [hsize]⟩ h.call hn.notIngested
    simp [World.setFile, Upload.path, Upload.next]
  | closeFile hp =>
    rw [hp] at hphase
    obtain ⟨hn, hc, written, hw, hrest, hsize⟩ := hphase
    rw [List.append_nil] at hrest
    subst hrest
    exact h.next ⟨hn, hc, hw, hsize⟩
  | writeRaised error left hp =>
    have hn : NoRow w u := by
      rcases hp with hp | ⟨rest, fileSize, hp⟩
      · rw [hp] at hphase
        exact hphase.1
      · rw [hp] at hphase
        exact hphase.1
    exact .quiet hn.notIngested h.call hn.notIngested
  | save hp hw =>
    rw [hp] at hphase
    obtain ⟨hn, hc, hf, rfl⟩ := hphase
    have hrow := hw.pendingRow hn
    obtain ⟨ha, hk⟩ := hw
    exact .quiet ⟨hrow, hc, hf⟩ h.call hrow.notIngested
  | saveRaised error hp hw =>
    rw [hp] at hphase
    obtain ⟨hn, hc, hf, rfl⟩ := hphase
    rcases hw with rfl | hw
    · exact h.next hn.notIngested
    · have hrow := hw.pendingRow hn
      obtain ⟨ha, hk⟩ := hw
      exact .quiet hrow.notIngested h.call hrow.notIngested
  | refresh hp =>
    rw [hp] at hphase
    exact h.next hphase
  | refreshRaised error hp =>
    rw [hp] at hphase
    exact h.next hphase.1.notIngested
  | sign hp hf hb =>
    rw [hp] at hphase
    obtain ⟨hrow, hc, hw⟩ := hphase
    obtain rfl := Option.some.inj (hf.symm.trans hw)
    exact h.next ⟨hrow, hc, hw, hb.hexdigest⟩
  | signFailed error hp =>
    rw [hp] at hphase
    exact h.next fun _ => hphase.1.notIngested
  | append hp hl =>
    rename_i call now hash alg sig l
    rw [hp] at hphase
    obtain ⟨hrow, _, hw, hhash⟩ := hphase
    have hc : l.calls call = some ⟨u.proofArgs hash sig now, .opened, []⟩ := by
      cases hl
      simp
    refine .quiet ⟨hrow, hw, hhash, call, _, now, rfl, hc, rfl, trivial⟩ ?_ hrow.notIngested
    rintro call' hcall'
    obtain rfl := Option.some.inj hcall'
    exact ⟨_, hash, sig, now, hc, rfl⟩
  | appended hp hu hc hr hsuccess =>
    rename_i call c response hash alg sig
    rw [hp] at hphase
    obtain ⟨hrow, hw, hhash, call', c', now, hcall, hc', hargs, _⟩ := hphase
    obtain rfl := Option.some.inj (hu.symm.trans hcall)
    obtain rfl := Option.some.inj (hc.symm.trans hc')
    obtain ⟨r, hcommitted, hrecord⟩ := Ledger.Call.response_success hr hsuccess
    exact h.next ⟨hrow, hw, hhash, call, c, now, hcall, hc, hargs, r, hcommitted, hrecord⟩
  | appendFailed error hp => exact h.next (by simp [PhaseInvariant, Upload.next])
  | finalize hp hw =>
    rw [hp] at hphase
    obtain ⟨hrow, hf, hhash, happ⟩ := hphase
    exact h.finalized hw trivial (hw.backed hprov hrow hf hhash happ)
  | finalizeRaised error hp hw =>
    rw [hp] at hphase
    obtain ⟨hrow, hf, hhash, happ⟩ := hphase
    rcases hw with rfl | hw
    · exact h.next (by simp [PhaseInvariant, Upload.next])
    · exact h.finalized hw (by simp [PhaseInvariant, Upload.next])
        (hw.backed hprov hrow hf hhash happ)
  | answer hp ha hid => exact h.next trivial
  | answerRaised error hp => exact h.next (by simp [PhaseInvariant, Upload.next])
  | reject hp hw =>
    rename_i removes error
    have hn := hw.notIngested
    obtain ⟨ha, hau⟩ := hw
    refine .quiet ?_ h.call hn
    cases removes
    · trivial
    · exact hn
  | rejectRaised hp hw =>
    rcases hw with rfl | hw
    · exact h.next trivial
    · have hn := hw.notIngested
      obtain ⟨ha, hau⟩ := hw
      exact .quiet trivial h.call hn
  | remove hp =>
    rw [hp] at hphase
    exact .quiet trivial h.call hphase
  | removeRaised left hp =>
    rw [hp] at hphase
    exact .quiet trivial h.call hphase
  | stop => exact h.next trivial

end ForensicChain.Evidence
