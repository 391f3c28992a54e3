import ForensicChain.Ledger.Models

/-! Rows, callers and error answers of the evidence collector. -/
namespace ForensicChain

/-- An `HTTPException`. -/
structure HttpError where
  statusCode : Nat
  detail : String
  deriving DecidableEq

/-- The caller, from the headers that the gateway sets. -/
structure Actor where
  actorId : String
  actorRole : String

namespace Evidence

inductive ArtifactStatus
  | pending
  | ingested
  | ingestionFailed
  deriving DecidableEq

/-- A row of `artifacts`. -/
structure Artifact where
  artifactId : Uuid
  caseId : String
  fileName : String
  fileSize : Nat
  artifactType : String
  storagePath : String
  description : Option String
  uploadedBy : String
  status : ArtifactStatus
  hashValue : Option String
  hashAlgorithm : Option String
  signatureValue : Option String
  ledgerRecordId : Option Uuid
  correlationId : Option Uuid

/-- `db.query(Artifact).filter(Artifact.artifact_id == artifact_uuid).first()`. -/
def findArtifact (artifacts : List Artifact) (artifactId : Uuid) : Option Artifact :=
  artifacts.find? fun a => a.artifactId = artifactId

/-- The row of the id in a request path. -/
def requestedArtifact (artifacts : List Artifact) (artifactId : String) :
    Except HttpError Artifact :=
  match Uuid.parse artifactId with
  | none => .error ⟨400, "Invalid artifact ID format"⟩
  | some id =>
    match findArtifact artifacts id with
    | none => .error ⟨404, "Artifact not found"⟩
    | some artifact => .ok artifact

/-- An investigator reads what is theirs; the given roles read what is in their cases. -/
def checkAccess (caseRoles : List String) (artifact : Artifact) (actor : Actor)
    (assigned : List String) : Except HttpError Unit :=
  if actor.actorRole = "investigator" then
    if artifact.uploadedBy ≠ actor.actorId then
      .error ⟨403, "Access denied: not the owner of this artifact"⟩
    else .ok ()
  else if actor.actorRole ∈ caseRoles then
    if artifact.caseId ∉ assigned then .error ⟨403, "Not assigned to this case"⟩ else .ok ()
  else .ok ()

theorem bind_ok {ε α β : Type} {x : Except ε α} {f : α → Except ε β} {b : β} :
    (x >>= f) = .ok b ↔ ∃ a, x = .ok a ∧ f a = .ok b := by
  cases x <;> simp [bind, Except.bind]

@[simp]
theorem requestedArtifact_self (artifact : Artifact) :
    requestedArtifact [artifact] artifact.artifactId.str = .ok artifact := by
  simp [requestedArtifact, Uuid.parse_str, findArtifact]

theorem requestedArtifact_ok {artifacts : List Artifact} {artifactId : String}
    {artifact : Artifact} (h : requestedArtifact artifacts artifactId = .ok artifact) :
    artifact ∈ artifacts ∧ Uuid.parse artifactId = some artifact.artifactId := by
  unfold requestedArtifact at h
  split at h
  · cases h
  · rename_i id hid
    split at h
    · cases h
    · rename_i found hfound
      cases h
      have hkey : artifact.artifactId = id := by simpa using List.find?_some hfound
      exact ⟨List.mem_of_find?_eq_some hfound, by rw [hid, hkey]⟩

end Evidence

end ForensicChain
