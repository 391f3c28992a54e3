import ForensicChain.Evidence.VerificationRun

/-!
The ingestion system: any number of uploads, verifications and report anchors over one database,
one storage volume and one ledger, which goes on with its calls whether or not their callers wait.
-/
namespace ForensicChain.Evidence

abbrev RequestId := Nat

structure State where
  world : World
  uploads : RequestId → Option Upload
  verifications : RequestId → Option Verification

namespace State

def setUpload (s : State) (i : RequestId) (u : Upload) : State :=
  { s with uploads := Function.update s.uploads i (some u) }

def setVerification (s : State) (i : RequestId) (v : Verification) : State :=
  { s with verifications := Function.update s.verifications i (some v) }

def setWorld (s : State) (w : World) : State := { s with world := w }

@[simp]
theorem setUpload_self (s : State) (i : RequestId) (u : Upload) :
    (s.setUpload i u).uploads i = some u := Function.update_self _ _ _

@[simp]
theorem setVerification_self (s : State) (i : RequestId) (v : Verification) :
    (s.setVerification i v).verifications i = some v := Function.update_self _ _ _

end State

/-- The arguments of the ledger call that a report makes. -/
def reportArgs (reportId : Uuid) (caseId reportHash generatedBy generatedAt : String) :
    Ledger.AppendArgs :=
  Ledger.appendProofRecord (Ledger.Client.appendReportProof reportId.str (some caseId) reportHash
    generatedBy generatedAt)

inductive Action
  | admitUpload (i : RequestId) (request : UploadRequest) (assigned : List String)
      (artifactId : Uuid)
  | upload (i : RequestId) (a : UploadAction)
  | admitVerification (i : RequestId) (request : VerificationRequest) (assigned : List String)
      (verificationId : Uuid)
  | verification (i : RequestId) (a : VerificationAction)
  | anchorReport (call : Ledger.CallId)
  | ledger (a : Ledger.Action)

inductive Step (keys : HashSign.Signer) : State → Action → State → Prop
  /-- The case is assigned to the caller; `uuid4` values are fresh. -/
  | admitUpload {s i request assigned artifactId} (hi : s.uploads i = none)
      (hc : request.caseId ∈ assigned)
      (hf : ∀ j u, s.uploads j = some u → u.artifactId ≠ artifactId) :
      Step keys s (.admitUpload i request assigned artifactId)
        (s.setUpload i ⟨request, artifactId, none, .opening⟩)
  | upload {s i u a w u'} (hu : s.uploads i = some u) (hs : UploadStep keys s.world u a w u') :
      Step keys s (.upload i a) ((s.setWorld w).setUpload i u')
  | admitVerification {s i request assigned artifact verificationId} (hi : s.verifications i = none)
      (ha : requestedArtifact s.world.artifacts request.artifactId = .ok artifact)
      (hc : checkAccess ["forensic_analyst", "legal_reviewer"] artifact request.actor assigned =
        .ok ())
      (hf : ∀ j v, s.verifications j = some v → v.verificationId ≠ verificationId) :
      Step keys s (.admitVerification i request assigned verificationId)
        (s.setVerification i ⟨request, artifact, verificationId, none, .announcing⟩)
  | verification {s i v a w v'} (hv : s.verifications i = some v)
      (hs : VerificationStep keys s.world v a w v') :
      Step keys s (.verification i a) ((s.setWorld w).setVerification i v')
  | anchorReport {s call l} (reportId : Uuid) (caseId reportHash generatedBy generatedAt : String)
      (hl : Ledger.Step s.world.ledger
        (.start call (reportArgs reportId caseId reportHash generatedBy generatedAt)) l) :
      Step keys s (.anchorReport call) (s.setWorld (s.world.setLedger l))
  /-- The ledger service goes on with a call that it has received. -/
  | ledger {s a l} (ha : ∀ call args, a ≠ .start call args) (hl : Ledger.Step s.world.ledger a l) :
      Step keys s (.ledger a) (s.setWorld (s.world.setLedger l))

/-- Empty stores and no request. -/
def Initial (s : State) : Prop :=
  s.world.artifacts = [] ∧ s.world.outbox = [] ∧ (∀ path, s.world.files path = none) ∧
    Ledger.Initial s.world.ledger ∧ (∀ i, s.uploads i = none) ∧ ∀ i, s.verifications i = none

def system (keys : HashSign.Signer) : TransitionSystem State Action := ⟨Initial, Step keys⟩

end ForensicChain.Evidence
