import ForensicChain.Evidence.Download
import ForensicChain.Evidence.Verification

/-!
The read endpoints of the evidence collector, once the row is loaded: `get_evidence`,
`download_evidence` and, for the other services, `get_artifact_case`.
-/
namespace ForensicChain.Evidence

structure EvidenceOut where
  artifactId : String
  caseId : String
  fileName : String
  fileSize : Nat
  artifactType : String
  description : Option String
  hashAlgorithm : Option String
  hashValue : Option String
  signatureValue : Option String
  ledgerRecordId : Option String
  uploadedBy : String
  status : ArtifactStatus

def evidenceOut (a : Artifact) : EvidenceOut where
  artifactId := a.artifactId.str
  caseId := a.caseId
  fileName := a.fileName
  fileSize := a.fileSize
  artifactType := a.artifactType
  description := a.description
  hashAlgorithm := a.hashAlgorithm
  hashValue := a.hashValue
  signatureValue := a.signatureValue
  ledgerRecordId := a.ledgerRecordId.map Uuid.str
  uploadedBy := a.uploadedBy
  status := a.status

/-- `get_evidence` after its query: the answer, and the event that it writes. -/
def viewArtifact (assigned : List String) (eventId : Uuid) (timestamp : String)
    (request : DownloadRequest) (artifact : Artifact) :
    Except HttpError (EvidenceOut × Custody.Envelope) :=
  if request.actor.actorRole = "admin" then .error ⟨403, "Forbidden"⟩
  else do
    checkAccess ["forensic_analyst", "legal_reviewer"] artifact request.actor assigned
    return (evidenceOut artifact, evidenceEvent eventId timestamp request.artifactId
      artifact.caseId request.actor request.correlationId "EvidenceViewed"
      "forensicchain.evidence.viewed" "Evidence metadata accessed" request.ipAddress)

/-- `get_artifact_case`, of the internal routes. -/
def getArtifactCase (artifacts : List Artifact) (artifactId : String) : Except HttpError String :=
  match Uuid.parse artifactId with
  | none => .error ⟨400, "Invalid artifact ID"⟩
  | some id =>
    match findArtifact artifacts id with
    | none => .error ⟨404, "Artifact not found"⟩
    | some artifact => .ok artifact.caseId

/-- The `artifact_id` of a path that `^/internal/artifacts/(?P<artifact_id>[^/]+)/case$` matches. -/
def caseRoute (path : List Char) : Option String :=
  UrlPath.routeParam "/internal/artifacts/" "/case" path

variable {w : World} {assigned : List String} {eventId : Uuid} {timestamp caseId : String}
  {request : DownloadRequest} {artifact : Artifact} {artifacts : List Artifact}
  {env : Custody.Envelope}

theorem viewArtifact_ok {out : EvidenceOut}
    (h : viewArtifact assigned eventId timestamp request artifact = .ok (out, env)) :
    env.artifactId = request.artifactId ∧ env.caseId = some artifact.caseId := by
  unfold viewArtifact at h
  split_ifs at h
  obtain ⟨_, _, hout⟩ := bind_ok.mp h
  obtain ⟨_, rfl⟩ := Prod.mk.inj (Except.ok.inj hout)
  exact ⟨rfl, rfl⟩

theorem downloadArtifact_ok {file : FileResponse}
    (h : downloadArtifact w assigned eventId timestamp request artifact = .ok (file, env)) :
    env.artifactId = request.artifactId ∧ env.caseId = some artifact.caseId := by
  obtain ⟨_, _, h⟩ := bind_ok.mp h
  obtain ⟨_, _, hout⟩ := bind_ok.mp h
  obtain ⟨_, rfl⟩ := Prod.mk.inj (Except.ok.inj hout)
  exact ⟨rfl, rfl⟩

theorem getArtifactCase_ok {text : String} (h : getArtifactCase artifacts text = .ok caseId) :
    ∃ a ∈ artifacts, Uuid.parse text = some a.artifactId ∧ a.caseId = caseId := by
  unfold getArtifactCase at h
  split at h
  · cases h
  · rename_i id hid
    split at h
    · cases h
    · rename_i a hfound
      have hkey : a.artifactId = id := by simpa using List.find?_some hfound
      exact ⟨a, List.mem_of_find?_eq_some hfound, by rw [hid, hkey], Except.ok.inj h⟩

end ForensicChain.Evidence
