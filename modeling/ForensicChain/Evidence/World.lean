import ForensicChain.Custody.Envelope
import ForensicChain.Evidence.Models
import ForensicChain.Ledger.Servicer

/-!
What the requests of the evidence collector share: the rows of its database, the files of the
storage volume, and the ledger service.
-/
namespace ForensicChain.Evidence

/-- `EVIDENCE_STORAGE_PATH`. -/
def storageBase : String := "/evidence-storage"

/-- `STORAGE_BASE/{artifact_id}/original.bin`. -/
def storagePath (artifactId : Uuid) : String :=
  storageBase ++ "/" ++ artifactId.str ++ "/original.bin"

/-- `STORAGE_BASE/tmp/{artifact_id}/{verification_id}.bin`, with the id as it stands in the URL. -/
def tempPath (artifactId : String) (verificationId : Uuid) : String :=
  storageBase ++ "/tmp/" ++ artifactId ++ "/" ++ verificationId.str ++ ".bin"

theorem storagePath_injective : Function.Injective storagePath := by
  intro u v h
  have hlist := congrArg String.toList h
  simp only [storagePath, String.toList_append, List.append_cancel_right_eq,
    List.append_cancel_left_eq] at hlist
  exact Uuid.str_injective (String.toList_injective hlist)

/-- No verification works on the file of an artifact. -/
theorem tempPath_ne_storagePath (text : String) (verificationId artifactId : Uuid) :
    tempPath text verificationId ≠ storagePath artifactId := by
  intro h
  have hlist := congrArg String.toList h
  simp only [tempPath, storagePath, String.toList_append, List.append_assoc,
    List.append_cancel_left_eq] at hlist
  have ht : 't' ∉ artifactId.str.toList := Uuid.str_notMem _ (by decide) (by decide)
  cases hu : artifactId.str.toList with
  | nil =>
    have hlen := artifactId.str_length
    simp [← String.length_toList, hu] at hlen
  | cons c cs =>
    rw [hu] at hlist
    have hc : 't' = c := (List.cons.inj (List.cons.inj hlist).2).1
    rw [hu, ← hc] at ht
    exact ht List.mem_cons_self

/-- Committed rows, files, and the ledger. -/
structure World where
  artifacts : List Artifact
  outbox : List Custody.Envelope
  files : String → Option (List UInt8)
  ledger : Ledger.State

namespace World

def setFile (w : World) (path : String) (content : Option (List UInt8)) : World :=
  { w with files := Function.update w.files path content }

def addArtifact (w : World) (a : Artifact) : World := { w with artifacts := w.artifacts ++ [a] }

/-- `UPDATE artifacts … WHERE artifact_id = …`. -/
def updateArtifact (w : World) (a : Artifact) : World :=
  { w with artifacts := w.artifacts.map fun b => if b.artifactId = a.artifactId then a else b }

def addEvent (w : World) (env : Custody.Envelope) : World := { w with outbox := w.outbox ++ [env] }

def setLedger (w : World) (l : Ledger.State) : World := { w with ledger := l }

end World

end ForensicChain.Evidence
