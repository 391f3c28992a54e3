import ForensicChain.Evidence.Access
import ForensicChain.Evidence.UploadRun

/-!
The access rule of the evidence collector, which its handlers write four times: `list_evidence` as a
filter of its query, and `get_evidence`, `verify_evidence` and `download_evidence` as checks of one
row.
-/
namespace ForensicChain.Evidence

/-- A row of `artifacts` with the time of its upload. -/
structure ArtifactRow extends Artifact where
  uploadedAt : Timestamp

/-- The table; `artifact_id` is its key. -/
structure ArtifactTable where
  rows : List ArtifactRow
  ids : (rows.map fun row => row.artifactId).Nodup

def ArtifactTable.artifacts (t : ArtifactTable) : List Artifact :=
  t.rows.map ArtifactRow.toArtifact

/-- What both handlers answer of a row. -/
structure EvidenceRecord extends EvidenceOut where
  uploadedAt : Timestamp

def evidenceRecord (row : ArtifactRow) : EvidenceRecord where
  toEvidenceOut := evidenceOut row.toArtifact
  uploadedAt := row.uploadedAt

/-- The filter that the role puts on the query. -/
def roleFilter (actor : Actor) (assigned : List String) (row : ArtifactRow) : Bool :=
  if actor.actorRole = "investigator" then row.uploadedBy = actor.actorId
  else if actor.actorRole ∈ ["forensic_analyst", "legal_reviewer"] then row.caseId ∈ assigned
  else true

/-- `if case_id:`. -/
def caseFilter (caseId : Option String) (row : ArtifactRow) : Bool :=
  caseId.getD "" = "" || row.caseId = caseId.getD ""

/-- A query over the table: `ORDER BY uploaded_at DESC`, ties in any order. -/
def ArtifactTable.Answers (t : ArtifactTable)
    (query : (ArtifactRow → Bool) → List ArtifactRow) : Prop :=
  ∀ p, (query p).Perm (t.rows.filter p) ∧
    (query p).Pairwise fun r q => q.uploadedAt ≤ r.uploadedAt

/-- A row of the answer; a legal reviewer sees neither hash nor signature. -/
def listRecord (actor : Actor) (row : ArtifactRow) : EvidenceRecord :=
  if actor.actorRole = "legal_reviewer" then
    { evidenceRecord row with hashValue := none, signatureValue := none }
  else evidenceRecord row

def listEvidence (query : (ArtifactRow → Bool) → List ArtifactRow) (assigned : List String)
    (actor : Actor) (caseId : Option String) : Except HttpError (List EvidenceRecord) :=
  if actor.actorRole = "admin" then .error ⟨403, "Forbidden"⟩
  else if actor.actorRole ∈ ["forensic_analyst", "legal_reviewer"] ∧ assigned = [] then .ok []
  else .ok ((query fun row => roleFilter actor assigned row && caseFilter caseId row).map
    (listRecord actor))

def getEvidence (t : ArtifactTable) (assigned : List String) (eventId : Uuid) (timestamp : String)
    (request : DownloadRequest) : Except HttpError (EvidenceRecord × Custody.Envelope) :=
  match Uuid.parse request.artifactId with
  | none => .error ⟨400, "Invalid artifact ID format"⟩
  | some id =>
    match t.rows.find? fun row => row.artifactId = id with
    | none => .error ⟨404, "Artifact not found"⟩
    | some row => do
      let (out, env) ← viewArtifact assigned eventId timestamp request row.toArtifact
      return ({ toEvidenceOut := out, uploadedAt := row.uploadedAt }, env)

/-- The request for another artifact. -/
def DownloadRequest.about (request : DownloadRequest) (artifactId : String) : DownloadRequest :=
  { request with artifactId }

/-- What the four handlers answer to one caller fits together. -/
structure HandlersAgree (t : ArtifactTable) (w : World) (assigned : List String) (eventId : Uuid)
    (timestamp : String) (request : DownloadRequest) : Prop where
  /-- The list has the records of the artifacts that are shown one by one, and no others. -/
  listed : ∀ query, t.Answers query →
    ((listEvidence query assigned request.actor none).toOption.getD []).Perm
      (t.rows.filterMap fun row => (getEvidence t assigned eventId timestamp
        (request.about row.artifactId.str)).toOption.map Prod.fst)
  verified : ∀ reads artifactId response,
    verifyEvidence t.artifacts assigned reads request.actor artifactId = .ok response →
      ∃ answer, getEvidence t assigned eventId timestamp (request.about artifactId) = .ok answer
  downloaded : ∀ artifactId file,
    downloadEvidence { w with artifacts := t.artifacts } assigned eventId timestamp
      (request.about artifactId) = .ok file →
      ∃ answer, getEvidence t assigned eventId timestamp (request.about artifactId) = .ok answer

/-- No artifact makes a difference: none is there for an admin, none shows a hash or a signature to
a legal reviewer, and none has a file that a legal reviewer gets without its case. -/
def NoneAffected (t : ArtifactTable) (w : World) (assigned : List String) (actor : Actor) : Prop :=
  (actor.actorRole = "admin" → t.rows = []) ∧
    (actor.actorRole = "legal_reviewer" → ∀ row ∈ t.rows,
      (row.caseId ∈ assigned → row.hashValue = none ∧ row.signatureValue = none) ∧
      (row.caseId ∉ assigned → ∀ file, storedFile w row.toArtifact ≠ .ok file))

variable {t : ArtifactTable} {w : World} {assigned : List String} {eventId : Uuid}
  {timestamp text : String} {request : DownloadRequest} {actor : Actor} {row : ArtifactRow}
  {artifact : Artifact} {query : (ArtifactRow → Bool) → List ArtifactRow}

theorem checkAccess_ok {caseRoles : List String} {u : Unit} :
    checkAccess caseRoles artifact actor assigned = .ok u ↔
      if actor.actorRole = "investigator" then artifact.uploadedBy = actor.actorId
      else actor.actorRole ∈ caseRoles → artifact.caseId ∈ assigned := by
  unfold checkAccess
  split_ifs <;> simp_all

theorem roleFilter_iff : roleFilter actor assigned row = true ↔
    checkAccess ["forensic_analyst", "legal_reviewer"] row.toArtifact actor assigned = .ok () := by
  rw [checkAccess_ok]
  unfold roleFilter
  split_ifs <;> simp_all

/-- The rows that `get_evidence` shows to a caller. -/
def Shown (actor : Actor) (assigned : List String) (row : ArtifactRow) : Prop :=
  actor.actorRole ≠ "admin" ∧ roleFilter actor assigned row = true

theorem requestedArtifact_row (h : requestedArtifact t.artifacts text = .ok artifact) :
    ∃ row ∈ t.rows, row.toArtifact = artifact ∧ Uuid.parse text = some row.artifactId := by
  obtain ⟨hmem, hid⟩ := requestedArtifact_ok h
  obtain ⟨row, hrow, rfl⟩ := List.mem_map.mp hmem
  exact ⟨row, hrow, rfl, hid⟩

theorem find_row (hrow : row ∈ t.rows) :
    (t.rows.find? fun q => q.artifactId = row.artifactId) = some row := by
  cases hfound : t.rows.find? fun q => q.artifactId = row.artifactId with
  | none => simpa using List.find?_eq_none.mp hfound row hrow
  | some q =>
    have hkey : q.artifactId = row.artifactId := by simpa using List.find?_some hfound
    rw [List.inj_on_of_nodup_map t.ids (List.mem_of_find?_eq_some hfound) hrow hkey]

/-- A row is shown by its id, with all its fields, or refused. -/
theorem getEvidence_row (assigned : List String) (eventId : Uuid) (timestamp : String)
    (request : DownloadRequest) (hrow : row ∈ t.rows)
    (hid : Uuid.parse text = some row.artifactId) :
    (Shown request.actor assigned row → ∃ env, getEvidence t assigned eventId timestamp
      (request.about text) = .ok (evidenceRecord row, env)) ∧
    (¬ Shown request.actor assigned row → ∃ e, getEvidence t assigned eventId timestamp
      (request.about text) = .error e) := by
  have hget : getEvidence t assigned eventId timestamp (request.about text) = (do
      let (out, env) ← viewArtifact assigned eventId timestamp (request.about text) row.toArtifact
      return ({ toEvidenceOut := out, uploadedAt := row.uploadedAt }, env)) := by
    simp only [getEvidence, DownloadRequest.about, hid, find_row hrow]
  have hview : viewArtifact assigned eventId timestamp (request.about text) row.toArtifact =
      if request.actor.actorRole = "admin" then .error ⟨403, "Forbidden"⟩ else do
        checkAccess ["forensic_analyst", "legal_reviewer"] row.toArtifact request.actor assigned
        return (evidenceOut row.toArtifact, evidenceEvent eventId timestamp text row.caseId
          request.actor request.correlationId "EvidenceViewed" "forensicchain.evidence.viewed"
          "Evidence metadata accessed" request.ipAddress) := rfl
  rw [hget, hview, Shown, roleFilter_iff]
  by_cases hadmin : request.actor.actorRole = "admin"
  · rw [if_pos hadmin]
    exact ⟨fun h => (h.1 hadmin).elim, fun _ => ⟨_, rfl⟩⟩
  · rw [if_neg hadmin]
    cases hcheck : checkAccess ["forensic_analyst", "legal_reviewer"] row.toArtifact request.actor
        assigned with
    | error e => exact ⟨fun h => by simp at h, fun _ => ⟨e, rfl⟩⟩
    | ok _ => exact ⟨fun _ => ⟨_, rfl⟩, fun h => (h ⟨hadmin, rfl⟩).elim⟩

theorem getEvidence_ok (hrow : row ∈ t.rows) (hid : Uuid.parse text = some row.artifactId) :
    (∃ answer, getEvidence t assigned eventId timestamp (request.about text) = .ok answer) ↔
      Shown request.actor assigned row := by
  obtain ⟨hshown, hrefused⟩ := getEvidence_row assigned eventId timestamp request hrow hid
  constructor
  · rintro ⟨answer, hanswer⟩
    by_contra hnot
    obtain ⟨e, he⟩ := hrefused hnot
    cases hanswer.symm.trans he
  · intro h
    obtain ⟨env, henv⟩ := hshown h
    exact ⟨_, henv⟩

/-- The artifacts that `get_evidence` answers, one by one. -/
theorem answered_rows : (t.rows.filterMap fun row => (getEvidence t assigned eventId timestamp
      (request.about row.artifactId.str)).toOption.map Prod.fst) =
    if request.actor.actorRole = "admin" then []
    else (t.rows.filter (roleFilter request.actor assigned)).map evidenceRecord := by
  have hone : ∀ row ∈ t.rows, (getEvidence t assigned eventId timestamp
      (request.about row.artifactId.str)).toOption.map Prod.fst =
        if request.actor.actorRole ≠ "admin" ∧ roleFilter request.actor assigned row = true then
          some (evidenceRecord row) else none := by
    intro row hrow
    obtain ⟨hshown, hrefused⟩ := getEvidence_row assigned eventId timestamp request hrow
      (Uuid.parse_str _)
    split_ifs with h
    · obtain ⟨env, henv⟩ := hshown h
      simp [henv, Except.toOption]
    · obtain ⟨e, he⟩ := hrefused h
      simp [he, Except.toOption]
  rw [List.filterMap_congr hone]
  split_ifs with hadmin
  · simp [hadmin]
  · rw [← List.filterMap_eq_map, List.filterMap_filter]
    simp [hadmin]

theorem listEvidence_admin (h : actor.actorRole = "admin") :
    (listEvidence query assigned actor none).toOption.getD [] = [] := by
  simp [listEvidence, h, Except.toOption]

/-- What `list_evidence` answers without a case. -/
theorem listEvidence_rows (hquery : t.Answers query) (h : actor.actorRole ≠ "admin") :
    ((listEvidence query assigned actor none).toOption.getD []).Perm
      ((t.rows.filter (roleFilter actor assigned)).map (listRecord actor)) := by
  by_cases hempty : actor.actorRole ∈ ["forensic_analyst", "legal_reviewer"] ∧ assigned = []
  · have hnone : t.rows.filter (roleFilter actor assigned) = [] := by
      refine List.filter_eq_nil_iff.mpr fun row _ => ?_
      have hinvestigator : actor.actorRole ≠ "investigator" := by
        intro he
        simp [he] at hempty
      simp [roleFilter, hinvestigator, hempty.1, hempty.2]
    rw [hnone]
    simp [listEvidence, h, hempty, Except.toOption]
  · have hall : (fun row => roleFilter actor assigned row && caseFilter none row) =
        roleFilter actor assigned := by
      funext row
      simp [caseFilter]
    have hlist : listEvidence query assigned actor none =
        .ok ((query (roleFilter actor assigned)).map (listRecord actor)) := by
      rw [listEvidence, if_neg h, if_neg hempty, hall]
    rw [hlist]
    exact (hquery _).1.map _

/-- Every filter has an answer. -/
theorem ArtifactTable.exists_answers (t : ArtifactTable) : ∃ query, t.Answers query := by
  refine ⟨fun p => (t.rows.filter p).insertionSort fun r q => q.uploadedAt ≤ r.uploadedAt,
    fun p => ⟨List.perm_insertionSort _ _, ?_⟩⟩
  have htotal : Std.Total fun r q : ArtifactRow => q.uploadedAt ≤ r.uploadedAt :=
    ⟨fun r q => le_total _ _⟩
  have htrans : IsTrans ArtifactRow fun r q => q.uploadedAt ≤ r.uploadedAt :=
    ⟨fun _ _ _ hab hbc => le_trans hbc hab⟩
  exact List.pairwise_insertionSort _ _

/-- The list withholds what `get_evidence` shows to a legal reviewer. -/
theorem listed_iff : (∀ query, t.Answers query →
    ((listEvidence query assigned request.actor none).toOption.getD []).Perm
      (t.rows.filterMap fun row => (getEvidence t assigned eventId timestamp
        (request.about row.artifactId.str)).toOption.map Prod.fst)) ↔
    (request.actor.actorRole = "legal_reviewer" → ∀ row ∈ t.rows, row.caseId ∈ assigned →
      row.hashValue = none ∧ row.signatureValue = none) := by
  rw [answered_rows]
  by_cases hadmin : request.actor.actorRole = "admin"
  · simp [hadmin, listEvidence_admin]
  · rw [if_neg hadmin]
    by_cases hlegal : request.actor.actorRole = "legal_reviewer"
    · constructor
      · intro h _ row hrow hcase
        obtain ⟨query, hquery⟩ := t.exists_answers
        have hperm := (listEvidence_rows hquery hadmin).symm.trans (h query hquery)
        have hshown : row ∈ t.rows.filter (roleFilter request.actor assigned) :=
          List.mem_filter.mpr ⟨hrow, by simp [roleFilter, hlegal, hcase]⟩
        have hmem := hperm.mem_iff.mpr (List.mem_map_of_mem hshown)
        obtain ⟨q, _, hq⟩ := List.mem_map.mp hmem
        rw [listRecord, if_pos hlegal] at hq
        have hhash : none = row.hashValue := congrArg (fun r => r.hashValue) hq
        have hsignature : none = row.signatureValue := congrArg (fun r => r.signatureValue) hq
        exact ⟨hhash.symm, hsignature.symm⟩
      · intro h query hquery
        refine (listEvidence_rows hquery hadmin).trans (.of_eq ?_)
        refine List.map_congr_left fun row hrow => ?_
        obtain ⟨hmem, hfilter⟩ := List.mem_filter.mp hrow
        have hcase : row.caseId ∈ assigned := by simpa [roleFilter, hlegal] using hfilter
        obtain ⟨hhash, hsignature⟩ := h hlegal row hmem hcase
        rw [listRecord, if_pos hlegal]
        simp [evidenceRecord, evidenceOut, hhash, hsignature]
    · have hsame : listRecord request.actor = evidenceRecord := by
        funext row
        rw [listRecord, if_neg hlegal]
      refine iff_of_true (fun query hquery => ?_) (fun h => (hlegal h).elim)
      rw [← hsame]
      exact listEvidence_rows hquery hadmin

theorem requestedArtifact_of_row (hrow : row ∈ t.rows)
    (hid : Uuid.parse text = some row.artifactId) :
    requestedArtifact t.artifacts text = .ok row.toArtifact := by
  have hfind : findArtifact t.artifacts row.artifactId = some row.toArtifact := by
    rw [findArtifact, ArtifactTable.artifacts, List.find?_map]
    exact congrArg (Option.map ArtifactRow.toArtifact) (find_row hrow)
  simp [requestedArtifact, hid, hfind]

/-- `verify_evidence` lets an admin through. -/
theorem verified_iff : (∀ reads artifactId response,
    verifyEvidence t.artifacts assigned reads request.actor artifactId = .ok response →
      ∃ answer, getEvidence t assigned eventId timestamp (request.about artifactId) =
        .ok answer) ↔ (request.actor.actorRole = "admin" → t.rows = []) := by
  constructor
  · intro h hadmin
    by_contra hne
    obtain ⟨row, hrow⟩ := List.exists_mem_of_ne_nil _ hne
    let reads : RemoteReads :=
      ⟨.ok "", fun _ => .ok ⟨"", "", ""⟩, fun _ _ => .ok true, fun _ => .ok true⟩
    have hid := Uuid.parse_str row.artifactId
    have hcheck : checkAccess ["forensic_analyst", "legal_reviewer"] row.toArtifact request.actor
        assigned = .ok () := by
      rw [checkAccess_ok]
      simp [hadmin]
    have hverify : ∃ response, verifyEvidence t.artifacts assigned reads request.actor
        row.artifactId.str = .ok response := by
      rw [verifyEvidence, requestedArtifact_of_row hrow hid]
      simp only [bind_ok]
      exact ⟨_, _, rfl, (), hcheck, rfl⟩
    obtain ⟨response, hverify⟩ := hverify
    exact ((getEvidence_ok hrow hid).mp (h reads _ response hverify)).1 hadmin
  · intro h reads artifactId response hverify
    obtain ⟨artifact, hreq, hverify⟩ := bind_ok.mp hverify
    obtain ⟨_, hcheck, _⟩ := bind_ok.mp hverify
    obtain ⟨row, hrow, rfl, hid⟩ := requestedArtifact_row hreq
    refine (getEvidence_ok hrow hid).mpr ⟨fun hadmin => ?_, roleFilter_iff.mpr hcheck⟩
    simp [h hadmin] at hrow

/-- What `download_evidence` asks of a row. -/
theorem downloadEvidence_row (hrow : row ∈ t.rows) (hid : Uuid.parse text = some row.artifactId) :
    (∃ answer, downloadEvidence { w with artifacts := t.artifacts } assigned eventId timestamp
      (request.about text) = .ok answer) ↔
      checkAccess ["forensic_analyst"] row.toArtifact request.actor assigned = .ok () ∧
        ∃ file, storedFile w row.toArtifact = .ok file := by
  have hreq : requestedArtifact t.artifacts (request.about text).artifactId =
      .ok row.toArtifact := requestedArtifact_of_row hrow hid
  simp only [downloadEvidence, downloadArtifact, hreq, bind_ok]
  constructor
  · rintro ⟨_, _, hsame, _, hcheck, file, hfile, _⟩
    obtain rfl := Except.ok.inj hsame
    exact ⟨hcheck, file, hfile⟩
  · rintro ⟨hcheck, file, hfile⟩
    exact ⟨_, _, rfl, (), hcheck, file, hfile, rfl⟩

/-- `download_evidence` does not ask for the case of a legal reviewer. -/
theorem downloaded_iff (hadmin : request.actor.actorRole = "admin" → t.rows = []) :
    (∀ artifactId file, downloadEvidence { w with artifacts := t.artifacts } assigned eventId
      timestamp (request.about artifactId) = .ok file → ∃ answer, getEvidence t assigned eventId
        timestamp (request.about artifactId) = .ok answer) ↔
    (request.actor.actorRole = "legal_reviewer" → ∀ row ∈ t.rows, row.caseId ∉ assigned →
      ∀ file, storedFile w row.toArtifact ≠ .ok file) := by
  constructor
  · intro h hlegal row hrow hcase file hfile
    have hid := Uuid.parse_str row.artifactId
    have hcheck : checkAccess ["forensic_analyst"] row.toArtifact request.actor assigned =
        .ok () := by
      rw [checkAccess_ok]
      simp [hlegal]
    obtain ⟨answer, hdownload⟩ := (downloadEvidence_row hrow hid).mpr ⟨hcheck, file, hfile⟩
    obtain ⟨_, hshown⟩ := (getEvidence_ok hrow hid).mp (h _ answer hdownload)
    simp [roleFilter, hlegal, hcase] at hshown
  · intro h artifactId answer hdownload
    obtain ⟨artifact, hreq, _⟩ := bind_ok.mp hdownload
    obtain ⟨row, hrow, rfl, hid⟩ := requestedArtifact_row hreq
    obtain ⟨hcheck, file, hfile⟩ := (downloadEvidence_row hrow hid).mp ⟨answer, hdownload⟩
    refine (getEvidence_ok hrow hid).mpr ⟨fun he => by simp [hadmin he] at hrow, ?_⟩
    rw [roleFilter_iff]
    rw [checkAccess_ok] at hcheck ⊢
    by_cases hlegal : request.actor.actorRole = "legal_reviewer"
    · have hcase : row.caseId ∈ assigned := by
        by_contra hnot
        exact h hlegal row hrow hnot file hfile
      simp [hlegal, hcase]
    · simpa [hlegal] using hcheck

/-- The handlers agree on what a caller may see if and only if nothing is there that they treat
differently. -/
theorem handlersAgree_iff : HandlersAgree t w assigned eventId timestamp request ↔
    NoneAffected t w assigned request.actor := by
  constructor
  · rintro ⟨hlisted, hverified, hdownloaded⟩
    have hadmin := verified_iff.mp hverified
    refine ⟨hadmin, fun hlegal row hrow => ⟨?_, ?_⟩⟩
    · exact listed_iff.mp hlisted hlegal row hrow
    · exact (downloaded_iff hadmin).mp hdownloaded hlegal row hrow
  · rintro ⟨hadmin, hlegal⟩
    exact ⟨listed_iff.mpr fun h row hrow => (hlegal h row hrow).1, verified_iff.mpr hadmin,
      (downloaded_iff hadmin).mpr fun h row hrow => (hlegal h row hrow).2⟩

/-- An ingested artifact. -/
def ingestedTable : ArtifactTable where
  rows := [{ toArtifact := sampleIngested (.ofNat 3), uploadedAt := 0 }]
  ids := List.nodup_singleton _

def reviewerRequest : DownloadRequest where
  actor := ⟨"reviewer01", "legal_reviewer"⟩
  correlationId := .ofNat 2
  ipAddress := none
  artifactId := sampleId.str

/-- A legal reviewer of the case gets the hash from `get_evidence`, and not from the list. -/
theorem reviewer_gets_withheld_hash : ¬ HandlersAgree ingestedTable sampleWorld ["CASE-2025-001"]
    (.ofNat 5) "2025-01-31T10:00:00+00:00" reviewerRequest := by
  rintro ⟨hlisted, _, _⟩
  have hcase : (sampleIngested (.ofNat 3)).caseId ∈ ["CASE-2025-001"] := List.mem_singleton_self _
  obtain ⟨hhash, _⟩ := listed_iff.mp hlisted rfl _ (List.mem_singleton_self _) hcase
  cases hhash

end ForensicChain.Evidence
