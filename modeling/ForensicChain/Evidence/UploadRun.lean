import ForensicChain.Evidence.System
import ForensicChain.Ledger.SoloAppend

/-! An upload that meets no failure and no other request, from its admission to its answer. -/
namespace ForensicChain.Evidence

variable {keys : HashSign.Signer} {P : State → Action → State → Prop} {s : State} {w w' : World}
  {u u' : Upload} {i : RequestId}

/-- The statements of an upload that do not fail, up to its answer. -/
def SmoothUpload : UploadAction → Prop
  | .openFile | .writeChunk _ | .closeFile | .save | .refresh | .sign _ | .append _ _ | .appended
  | .finalize | .answer => True
  | _ => False

/-- One step of the only request that is under way. -/
theorem upload_next {x : UploadAction}
    (h : ((system keys).restrict P).Reachable ((s.setWorld w).setUpload i u))
    (hs : UploadStep keys w u x w' u')
    (hP : P ((s.setWorld w).setUpload i u) (.upload i x) ((s.setWorld w').setUpload i u')) :
    ((system keys).restrict P).Reachable ((s.setWorld w').setUpload i u') := by
  have hu : ((s.setWorld w).setUpload i u).uploads i = some u := by simp [State.setUpload]
  have hstep := Step.upload hu hs
  have heq : (((s.setWorld w).setUpload i u).setWorld w').setUpload i u' =
      (s.setWorld w').setUpload i u' := by
    simp [State.setUpload, State.setWorld]
  rw [heq] at hstep
  exact h.step ⟨hstep, hP⟩

/-- The ledger takes the call of the request to its end. -/
theorem ledger_next {ok : Ledger.State → Ledger.Action → Prop} {l l' : Ledger.State}
    (h : ((system keys).restrict P).Reachable ((s.setWorld (w.setLedger l)).setUpload i u))
    (hp : Ledger.system.Path ok l l')
    (hok : ∀ l a l', ok l a → (∀ j b, a ≠ .start j b) ∧
      P ((s.setWorld (w.setLedger l)).setUpload i u) (.ledger a)
        ((s.setWorld (w.setLedger l')).setUpload i u)) :
    ((system keys).restrict P).Reachable ((s.setWorld (w.setLedger l')).setUpload i u) := by
  have hpath : ((system keys).restrict P).Path (fun _ _ => True)
      ((s.setWorld (w.setLedger l)).setUpload i u) ((s.setWorld (w.setLedger l')).setUpload i u) :=
    hp.map (f := fun l => (s.setWorld (w.setLedger l)).setUpload i u)
      fun l a l' ha hs => ⟨_, trivial, .ledger (hok l a l' ha).1 hs, (hok l a l' ha).2⟩
  exact h.path hpath

section
variable (hP : ∀ s i x t, SmoothUpload x → P s (.upload i x) t)
include hP

/-- The file is written, in one chunk, and the row is there. -/
theorem saved_run {request : UploadRequest} {assigned : List String} {id : Uuid} {row : Artifact}
    (h : ((system keys).restrict P).Reachable s) (hi : s.uploads i = none)
    (hf : ∀ j u, s.uploads j = some u → u.artifactId ≠ id) (hc : request.caseId ∈ assigned)
    (hentry : P s (.admitUpload i request assigned id)
      (s.setUpload i ⟨request, id, none, .opening⟩))
    (hrow : (⟨request, id, none, .saving request.content.length⟩ : Upload).pendingRow
      request.content.length = some row)
    (hchunk : request.content.length ≤ 1024 * 1024)
    (hnew : ∀ a ∈ s.world.artifacts, a.artifactId ≠ row.artifactId) :
    ((system keys).restrict P).Reachable ((s.setWorld
      ((s.world.setFile (storagePath id) (some request.content)).addArtifact row)).setUpload i
        ⟨request, id, none, .refreshing⟩) := by
  have hentered : ((system keys).restrict P).Reachable
      ((s.setWorld s.world).setUpload i ⟨request, id, none, .opening⟩) :=
    h.step ⟨.admitUpload hi hc hf, hentry⟩
  have hopen : ((system keys).restrict P).Reachable ((s.setWorld
      (s.world.setFile (storagePath id) (some []))).setUpload i
        ⟨request, id, none, .writing request.content 0⟩) :=
    upload_next hentered (.openFile rfl) (hP _ _ _ _ trivial)
  have hwritten : ((system keys).restrict P).Reachable ((s.setWorld
      (s.world.setFile (storagePath id) (some request.content))).setUpload i
        ⟨request, id, none, .writing [] request.content.length⟩) := by
    by_cases hne : request.content = []
    · simpa [hne] using hopen
    · have hphase : UploadPhase.writing request.content 0 =
          .writing (request.content ++ []) 0 := by rw [List.append_nil]
      have hfile : (s.world.setFile (storagePath id) (some [])).files (storagePath id) =
          some [] := by simp [World.setFile]
      have hwrite := upload_next hopen (.writeChunk hphase hne hchunk hfile) (hP _ _ _ _ trivial)
      simpa [World.setFile, Upload.next, Upload.path] using hwrite
  have hclosed := upload_next hwritten (.closeFile rfl) (hP _ _ _ _ trivial)
  exact upload_next hclosed (.save rfl (.mk hrow hnew)) (hP _ _ _ _ trivial)

/-- The file is signed, and the call has reached the ledger. -/
theorem appending_run {request : UploadRequest} {id : Uuid} {call : Ledger.CallId}
    (now : String)
    (h : ((system keys).restrict P).Reachable
      ((s.setWorld w).setUpload i ⟨request, id, none, .refreshing⟩))
    (hfile : w.files (storagePath id) = some request.content)
    (hcall : w.ledger.calls call = none) :
    ((system keys).restrict P).Reachable ((s.setWorld (w.setLedger (w.ledger.startCall call
      ((⟨request, id, none, .hashing⟩ : Upload).proofArgs (sha256 request.content)
        (keys.signHash (sha256 request.content)) now)))).setUpload i
        ⟨request, id, some call, .appending (sha256 request.content) "SHA-256"
          (keys.signHash (sha256 request.content))⟩) := by
  have hreads := HashSign.reads_readBlocks (by decide : 0 < 65536) request.content
  have hhash := hreads.hexdigest
  have hrefreshed := upload_next h (.refresh rfl) (hP _ _ _ _ trivial)
  have hsigned := upload_next hrefreshed (.sign rfl hfile hreads) (hP _ _ _ _ trivial)
  rw [hhash] at hsigned
  exact upload_next hsigned (.append rfl (.start _ hcall)) (hP _ _ _ _ trivial)

/-- The file is signed, the ledger appends the record, and the row is marked. -/
theorem ingested_run {ok : Ledger.State → Ledger.Action → Prop} {request : UploadRequest}
    {id : Uuid} {call : Ledger.CallId} {now : String} {row row' : Artifact}
    {view : String → Option (Option String)} {r : Ledger.LedgerRecord} {l : Ledger.State}
    (eventId : Uuid) (timestamp : String)
    (h : ((system keys).restrict P).Reachable
      ((s.setWorld w).setUpload i ⟨request, id, none, .refreshing⟩))
    (hfile : w.files (storagePath id) = some request.content)
    (hcall : w.ledger.calls call = none)
    (happ : Ledger.Appended ok w.ledger call
      ((⟨request, id, none, .hashing⟩ : Upload).proofArgs (sha256 request.content)
        (keys.signHash (sha256 request.content)) now) view r l)
    (hok : ∀ l a l', ok l a → (∀ j b, a ≠ .start j b) ∧ ∀ u,
      P ((s.setWorld (w.setLedger l)).setUpload i u) (.ledger a)
        ((s.setWorld (w.setLedger l')).setUpload i u))
    (hrow : row ∈ w.artifacts) (hid : row.artifactId = id)
    (hrow' : row.ingest (sha256 request.content) "SHA-256"
      (keys.signHash (sha256 request.content)) r.recordId.str = some row')
    (hevent : (ingestedEnvelope ⟨request, id, some call, .answering⟩ row' eventId
      timestamp).toJson.hasNul = false) :
    ((system keys).restrict P).Reachable ((s.setWorld (((w.setLedger l).updateArtifact
      row').addEvent (ingestedEnvelope ⟨request, id, some call, .answering⟩ row' eventId
        timestamp))).setUpload i ⟨request, id, some call, .answering⟩) := by
  have hstart := appending_run hP now h hfile hcall
  have hdone := ledger_next hstart happ.path
    fun l a l' ha => ⟨(hok l a l' ha).1, (hok l a l' ha).2 _⟩
  have happended := upload_next hdone (.appended rfl rfl happ.call rfl rfl) (hP _ _ _ _ trivial)
  exact upload_next happended (.finalize rfl (.mk eventId timestamp hrow hid hrow' hevent))
    (hP _ _ _ _ trivial)

end

def sampleRequest : UploadRequest where
  actor := ⟨"investigator01", "investigator"⟩
  ipAddress := some "10.0.0.1"
  correlationId := .ofNat 2
  fileName := "disk.img"
  content := []
  caseId := "CASE-2025-001"
  artifactType := "disk_image"
  description := none

def sampleId : Uuid := .ofNat 1

/-- Before the first request. -/
def State.empty : State :=
  ⟨⟨[], [], fun _ => none, ⟨[], fun _ => none, fun _ => none, fun _ => none⟩⟩, fun _ => none,
    fun _ => none⟩

theorem empty_reachable : ((system keys).restrict P).Reachable State.empty := by
  refine .init ⟨rfl, rfl, fun _ => rfl, ?_, fun _ => rfl, fun _ => rfl⟩
  exact ⟨rfl, fun _ => rfl, fun _ => rfl, fun _ => rfl⟩

def sampleRow : Artifact where
  artifactId := sampleId
  caseId := "CASE-2025-001"
  fileName := "disk.img"
  fileSize := 0
  artifactType := "disk_image"
  storagePath := storagePath sampleId
  description := none
  uploadedBy := "investigator01"
  status := .pending
  hashValue := none
  hashAlgorithm := none
  signatureValue := none
  ledgerRecordId := none
  correlationId := some (.ofNat 2)

theorem sampleRow_pending : (⟨sampleRequest, sampleId, none, .saving 0⟩ : Upload).pendingRow 0 =
    some sampleRow := by
  have hcase : Postgres.varchar 64 "CASE-2025-001" = some "CASE-2025-001" := by decide
  have hname : Postgres.varchar 512 "disk.img" = some "disk.img" := by decide
  have htype : Postgres.varchar 64 "disk_image" = some "disk_image" := by decide
  have hpath : Postgres.varchar 1024 (storagePath sampleId) = some (storagePath sampleId) := by
    decide +kernel
  have hactor : Postgres.varchar 64 "investigator01" = some "investigator01" := by decide
  simp [Upload.pendingRow, Upload.path, sampleRequest, hcase, hname, htype, hpath, hactor,
    Postgres.nullable, guard]
  rfl

/-- The row of the empty file, once it is ingested with the given record. -/
def sampleIngested (recordId : Uuid) : Artifact :=
  { sampleRow with
    hashValue := some (sha256 [])
    hashAlgorithm := some "SHA-256"
    signatureValue := some (sha256 [])
    ledgerRecordId := some recordId
    status := .ingested }

def sampleArgs : Ledger.AppendArgs :=
  (⟨sampleRequest, sampleId, none, .hashing⟩ : Upload).proofArgs (sha256 []) (sha256 [])
    "2025-01-01T00:00:00+00:00"

def sampleRecord : Ledger.LedgerRecord := Ledger.newRecord sampleArgs sampleId none (.ofNat 3) 0

/-- The file and the row of the sample upload are there. -/
def sampleWorld : World :=
  (State.empty.world.setFile (storagePath sampleId) (some [])).addArtifact sampleRow

theorem text_sha256_nil : Postgres.text (sha256 []) = some (sha256 []) := by decide +kernel

theorem sample_saved_run (hP : ∀ s i x t, SmoothUpload x → P s (.upload i x) t)
    (hentry : P State.empty (.admitUpload 0 sampleRequest ["CASE-2025-001"] sampleId)
      (State.empty.setUpload 0 ⟨sampleRequest, sampleId, none, .opening⟩)) :
    ((system keys).restrict P).Reachable ((State.empty.setWorld sampleWorld).setUpload 0
      ⟨sampleRequest, sampleId, none, .refreshing⟩) :=
  saved_run hP empty_reachable rfl (by simp [State.empty]) (List.mem_singleton_self _) hentry
    sampleRow_pending (by decide) (by simp [State.empty])

theorem sample_appended {ok : Ledger.State → Ledger.Action → Prop}
    (hok : ∀ s a, (∀ j b, a ≠ .start j b) → (∀ j, a ≠ .commit j) → ok s a)
    (hcommit : Ledger.CommitOk ok sampleWorld.ledger 0 sampleArgs sampleRecord) :
    ∃ view l, Ledger.Appended ok sampleWorld.ledger 0 sampleArgs view sampleRecord l := by
  have hfits : sampleArgs.Fits "CASE-2025-001" :=
    Ledger.Client.appendProof_fits (by decide +kernel) (by decide) (Ledger.varchar_sha256 _)
      text_sha256_nil (by decide)
  obtain ⟨l, happ⟩ := Ledger.solo_append hok 0 (.ofNat 3) 0 hcommit (fun _ => rfl) hfits
    (Uuid.parse_str sampleId) rfl rfl (by simp [sampleWorld, State.empty, World.setFile,
      World.addArtifact])
  exact ⟨_, l, happ⟩

/-- The world once the sample upload is committed, over the ledger that it leaves. -/
def sampleDone (l : Ledger.State) : World :=
  ((sampleWorld.setLedger l).updateArtifact (sampleIngested (.ofNat 3))).addEvent
    (ingestedEnvelope ⟨sampleRequest, sampleId, some 0, .answering⟩ (sampleIngested (.ofNat 3))
      (.ofNat 4) "2025-01-01T00:00:01+00:00")

theorem sample_done_run {ok : Ledger.State → Ledger.Action → Prop} {l : Ledger.State}
    {view : String → Option (Option String)}
    (hP : ∀ s i x t, SmoothUpload x → P s (.upload i x) t)
    (hentry : P State.empty (.admitUpload 0 sampleRequest ["CASE-2025-001"] sampleId)
      (State.empty.setUpload 0 ⟨sampleRequest, sampleId, none, .opening⟩))
    (hok : ∀ l a l', ok l a → (∀ j b, a ≠ .start j b) ∧ ∀ u,
      P ((State.empty.setWorld (sampleWorld.setLedger l)).setUpload 0 u) (.ledger a)
        ((State.empty.setWorld (sampleWorld.setLedger l')).setUpload 0 u))
    (happ : Ledger.Appended ok sampleWorld.ledger 0 sampleArgs view sampleRecord l) :
    ((system HashSign.plainKeys).restrict P).Reachable
      ((State.empty.setWorld (sampleDone l)).setUpload 0
        ⟨sampleRequest, sampleId, some 0, .answering⟩) := by
  have hingest : sampleRow.ingest (sha256 []) "SHA-256" (sha256 []) (Uuid.ofNat 3).str =
      some (sampleIngested (.ofNat 3)) := by
    have halg : Postgres.varchar 32 "SHA-256" = some "SHA-256" := by decide
    simp only [Artifact.ingest, Ledger.varchar_sha256, halg, text_sha256_nil, Uuid.parse_str,
      Option.bind_eq_bind, Option.bind_some]
    rfl
  have hevent : (ingestedEnvelope ⟨sampleRequest, sampleId, some 0, .answering⟩
      (sampleIngested (.ofNat 3)) (.ofNat 4) "2025-01-01T00:00:01+00:00").toJson.hasNul =
        false := by
    decide +kernel
  exact ingested_run hP (.ofNat 4) "2025-01-01T00:00:01+00:00" (sample_saved_run hP hentry)
    (by simp [sampleWorld, sampleRequest, World.setFile, World.addArtifact]) rfl happ
    hok (List.mem_append_right _ (List.mem_singleton_self sampleRow))
    rfl hingest hevent

theorem sample_ingested_run : ∃ s a, (system HashSign.plainKeys).Reachable s ∧
    a ∈ s.world.artifacts ∧ a.status = .ingested := by
  obtain ⟨view, l, happ⟩ := sample_appended (fun _ _ ha _ => ha) Ledger.startsNone_commitOk
  have hdone := sample_done_run (P := fun _ _ _ => True) (fun _ _ _ _ _ => trivial) trivial
    (fun _ _ _ ha => ⟨ha, fun _ => trivial⟩) happ
  exact ⟨_, sampleIngested (.ofNat 3), hdone.of_restrict, List.mem_singleton_self _, rfl⟩

end ForensicChain.Evidence
