import ForensicChain.Evidence.World
import ForensicChain.Library.UrlPath

/-! `download_evidence`, and the route under which the evidence collector serves it. -/
namespace ForensicChain.Evidence

structure DownloadRequest where
  actor : Actor
  correlationId : Uuid
  ipAddress : Option String
  artifactId : String

structure FileResponse where
  content : List UInt8
  mediaType : String
  filename : String

/-- The envelope of `_write_evidence_event_outbox`. -/
def evidenceEvent (eventId : Uuid) (timestamp artifactId caseId : String) (actor : Actor)
    (corrId : Uuid) (eventType routingKey reason : String) (ipAddress : Option String) :
    Custody.Envelope where
  eventId := eventId
  eventType := eventType
  routingKey := routingKey
  artifactId := artifactId
  caseId := some caseId
  actorId := actor.actorId
  actorRole := actor.actorRole
  timestamp := timestamp
  correlationId := corrId.str
  reason := reason
  payload := [("ip_address", Custody.nullOr ipAddress)]

/-- The file that `FileResponse` sends. -/
def storedFile (w : World) (artifact : Artifact) : Except HttpError FileResponse :=
  match if artifact.storagePath = "" then none else w.files artifact.storagePath with
  | none => .error ⟨404, "Evidence file not found on storage"⟩
  | some content => .ok ⟨content, "application/octet-stream", artifact.fileName⟩

/-- `download_evidence` after its query. -/
def downloadArtifact (w : World) (assigned : List String) (eventId : Uuid) (timestamp : String)
    (request : DownloadRequest) (artifact : Artifact) :
    Except HttpError (FileResponse × Custody.Envelope) := do
  checkAccess ["forensic_analyst"] artifact request.actor assigned
  let file ← storedFile w artifact
  return (file, evidenceEvent eventId timestamp request.artifactId artifact.caseId request.actor
    request.correlationId "EvidenceDownloaded" "forensicchain.evidence.downloaded"
    "Evidence file downloaded" request.ipAddress)

/-- The answer, and the event that is written to the outbox before it. -/
def downloadEvidence (w : World) (assigned : List String) (eventId : Uuid) (timestamp : String)
    (request : DownloadRequest) : Except HttpError (FileResponse × Custody.Envelope) := do
  let artifact ← requestedArtifact w.artifacts request.artifactId
  downloadArtifact w assigned eventId timestamp request artifact

/-- The `artifact_id` of a path that `^/evidence/(?P<artifact_id>[^/]+)/download$` matches. -/
def downloadRoute (path : List Char) : Option String :=
  let rest := path.drop "/evidence/".length
  let text := rest.takeWhile (· ≠ '/')
  if "/evidence/".toList.isPrefixOf path ∧ text ≠ [] ∧
      (rest.dropWhile (· ≠ '/') = "/download".toList ∨
        rest.dropWhile (· ≠ '/') = "/download\n".toList) then
    some (String.ofList text)
  else none

variable {w : World} {assigned : List String} {eventId : Uuid} {timestamp text : String}
  {artifact : Artifact} {path : List Char}

theorem storedFile_ok {file : FileResponse} : storedFile w artifact = .ok file ↔
    artifact.storagePath ≠ "" ∧ ∃ content, w.files artifact.storagePath = some content ∧
      file = ⟨content, "application/octet-stream", artifact.fileName⟩ := by
  unfold storedFile
  by_cases hp : artifact.storagePath = ""
  · simp [hp]
  · cases hf : w.files artifact.storagePath with
    | none => simp [hp]
    | some content => simp [hp, eq_comm]

/-- The access check asks nothing of a role that it does not name. -/
theorem checkAccess_other {caseRoles : List String} {actor : Actor}
    (hi : actor.actorRole ≠ "investigator") (hr : actor.actorRole ∉ caseRoles) :
    checkAccess caseRoles artifact actor assigned = .ok () := by
  rw [checkAccess, if_neg hi, if_neg hr]

/-- For the other roles, nothing stands between an artifact and its file. -/
theorem downloadEvidence_other (request : DownloadRequest)
    (hi : request.actor.actorRole ≠ "investigator")
    (hf : request.actor.actorRole ≠ "forensic_analyst") :
    (∃ answer, downloadEvidence w assigned eventId timestamp request = .ok answer) ↔
      ∃ artifact content, requestedArtifact w.artifacts request.artifactId = .ok artifact ∧
        artifact.storagePath ≠ "" ∧ w.files artifact.storagePath = some content := by
  have hcheck : ∀ artifact, checkAccess ["forensic_analyst"] artifact request.actor assigned =
      .ok () := fun artifact => checkAccess_other hi (by simpa using hf)
  simp only [downloadEvidence, downloadArtifact, bind_ok, storedFile_ok, hcheck]
  constructor
  · rintro ⟨_, artifact, hreq, _, _, _, ⟨hpath, content, hfile, _⟩, _⟩
    exact ⟨artifact, content, hreq, hpath, hfile⟩
  · rintro ⟨artifact, content, hreq, hpath, hfile⟩
    exact ⟨_, artifact, hreq, (), trivial, _, ⟨hpath, content, hfile, rfl⟩, rfl⟩

theorem downloadRoute_iff : downloadRoute path = some text ↔
    text ≠ "" ∧ '/' ∉ text.toList ∧ ∃ ending ∈ [[], ['\n']],
      path = "/evidence/".toList ++ (text.toList ++ ("/download".toList ++ ending)) := by
  have hroute : downloadRoute path = UrlPath.routeParam "/evidence/" "/download" path := rfl
  rw [hroute]
  exact UrlPath.routeParam_iff rfl

end ForensicChain.Evidence
