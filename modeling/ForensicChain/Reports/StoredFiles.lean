import ForensicChain.Ledger.Models
import ForensicChain.Reports.RequestInvariant

/-!
The files of the reports. As long as no report id is drawn twice, only the request that has drawn an
id touches its file, so what is read for a row later is what was hashed for it.
-/
namespace ForensicChain.Reports

open Evidence (RequestId)

/-- The file of an id has the hash. -/
def HasFile (w : World) (reportId : Uuid) (hash : String) : Prop :=
  ∃ content, w.files (storagePath reportId) = some content ∧ sha256 content = hash

/-- The row tells the path of its id, and the file has the row's hash. -/
structure Backed (w : World) (report : Report) : Prop where
  path : report.storagePath = some (storagePath report.reportId)
  file : HasFile w report.reportId report.reportHash

/-- The id is that of no row and of no report that is still to be inserted. -/
def Unused (w : World) (requests : RequestId → Option ReportRequest) (reportId : Uuid) : Prop :=
  (∀ report ∈ w.rows, report.reportId ≠ reportId) ∧
    ∀ i r caseId id hash path, requests i = some r → r.phase = .inserting caseId id hash path →
      id ≠ reportId

/-- The answer tells of a row that the call names, and the content has the hash of the row. -/
def AnswerSound (rows : List Report) (call : ReportCall) : ReportAnswer → Prop
  | .file content _ => ∃ report ∈ rows, call.Names report ∧ sha256 content = report.reportHash
  | .verified out => ∃ report ∈ rows, call.Names report ∧ out.storedHash = report.reportHash ∧
      out.currentHash = report.reportHash ∧ out.reportValid = true
  | _ => True

/-- What a request relies on: the file of its own report, and a sound answer. -/
def FileInvariant (w : World) (r : ReportRequest) : Prop :=
  match r.phase with
  | .inserting _ reportId hash path => path = storagePath reportId ∧ HasFile w reportId hash
  | .publishing _ answer | .responded (.ok answer) => AnswerSound w.rows r.call answer
  | _ => True

/-- The file that a step writes or removes. -/
def ReportAction.draws : ReportAction → Option Uuid
  | .build reportId _ | .buildFailed reportId _ => some reportId
  | _ => none

variable {artifacts : List Evidence.Artifact} {w w' : World} {r r' : ReportRequest}
  {x : ReportAction} {published : Option Custody.Envelope} {report : Report} {reportId : Uuid}
  {hash : String} {rows rows' : List Report} {call : ReportCall} {answer : ReportAnswer}

theorem storagePath_ne {a b : Uuid} (h : a ≠ b) : storagePath a ≠ storagePath b := by
  intro he
  have hlist := congrArg String.toList he
  simp only [storagePath, String.toList_append, List.append_assoc, List.append_cancel_left_eq,
    List.append_cancel_right_eq] at hlist
  exact h (Uuid.str_injective (String.toList_inj.mp hlist))

theorem reportFile_of_backed (h : Backed w report) :
    ∃ content, reportFile w report = some content ∧ sha256 content = report.reportHash := by
  obtain ⟨content, hfile, hhash⟩ := h.file
  have hne : storagePath report.reportId ≠ "" := by
    intro he
    have hlist := congrArg String.toList he
    simp [storagePath] at hlist
  exact ⟨content, by simp [reportFile, h.path, hne, hfile], hhash⟩

/-- A step leaves the files of all ids but the drawn one. -/
theorem HasFile.step (h : HasFile w reportId hash)
    (hs : ReportStep artifacts w r x w' published r') (hx : x.draws ≠ some reportId) :
    HasFile w' reportId hash := by
  obtain ⟨content, hfile, hhash⟩ := h
  refine ⟨content, ?_, hhash⟩
  cases hs with
  | build id pdf hp =>
    have hne : reportId ≠ id := fun he => hx (congrArg some he.symm)
    simpa [World.setFile, Function.update_of_ne (storagePath_ne hne)] using hfile
  | buildFailed id error hp =>
    have hne : reportId ≠ id := fun he => hx (congrArg some he.symm)
    simpa [World.setFile, Function.update_of_ne (storagePath_ne hne)] using hfile
  | insert hp hc hw =>
    cases hw
    exact hfile
  | insertRaised hp hc hw =>
    rcases hw with rfl | hw
    · exact hfile
    · cases hw
      exact hfile
  | _ => exact hfile

theorem AnswerSound.mono (h : AnswerSound rows call answer) (hrows : rows ⊆ rows') :
    AnswerSound rows' call answer := by
  cases answer with
  | file | verified =>
    obtain ⟨report, hmem, hrest⟩ := h
    exact ⟨report, hrows hmem, hrest⟩
  | _ => trivial

/-- A step of another request leaves the file and the answer alone. -/
theorem FileInvariant.frame {q : ReportRequest} (h : FileInvariant w q)
    (hrows : w.rows ⊆ w'.rows)
    (hfile : ∀ caseId id hash path, q.phase = .inserting caseId id hash path →
      HasFile w id hash → HasFile w' id hash) : FileInvariant w' q := by
  unfold FileInvariant at h ⊢
  split at h
  · exact ⟨h.1, hfile _ _ _ _ ‹_› h.2⟩
  · exact h.mono hrows
  · exact h.mono hrows
  · trivial

/-- A row is inserted with the hash of the file that was built for it. -/
theorem Inserts.backed {artifactId caseId path : String}
    (h : Inserts w r artifactId caseId reportId hash path report w')
    (hr : path = storagePath reportId ∧ HasFile w reportId hash) : Backed w' report := by
  obtain ⟨generatedAt, hrow, hk⟩ := h
  obtain ⟨hid, _, _, hhash, hpath⟩ := insertReport_eq_some hrow
  obtain ⟨rfl, content, hfile, rfl⟩ := hr
  obtain rfl := hid
  exact ⟨hpath, content, hfile, Option.some.inj ((Ledger.varchar_sha256 _).symm.trans hhash)⟩

/-- The rows stay backed, and the new one is. -/
theorem ReportStep.backed (hs : ReportStep artifacts w r x w' published r')
    (hrows : ∀ report ∈ w.rows, Backed w report) (hr : FileInvariant w r)
    (hx : ∀ report ∈ w.rows, x.draws ≠ some report.reportId) :
    ∀ report ∈ w'.rows, Backed w' report := by
  have hold : ∀ report ∈ w.rows, Backed w' report := fun report hmem =>
    ⟨(hrows report hmem).path, (hrows report hmem).file.step hs (hx report hmem)⟩
  rcases hs.rows with hsame | ⟨artifactId, caseId, id, hash, path, new, hp, _, hins⟩
  · rw [hsame]
    exact hold
  · have hnew : Backed w' new := by
      rw [FileInvariant, hp] at hr
      exact hins.backed hr
    cases hins
    intro report hmem
    rcases List.mem_append.mp hmem with hmem | hmem
    · exact hold report hmem
    · exact List.mem_singleton.mp hmem ▸ hnew

/-- A request that makes a step keeps what it relies on; what it reads is the file of its row. -/
theorem FileInvariant.step (h : FileInvariant w r) (hreq : RequestInvariant artifacts w.rows r)
    (hrows : ∀ report ∈ w.rows, Backed w report)
    (hs : ReportStep artifacts w r x w' published r') : FileInvariant w' r' := by
  have hread : ∀ report content, report ∈ w.rows → reportFile w report = some content →
      sha256 content = report.reportHash := by
    intro report content hmem hfile
    obtain ⟨stored, hstored, hhash⟩ := reportFile_of_backed (hrows report hmem)
    rwa [Option.some.inj (hfile.symm.trans hstored)]
  unfold FileInvariant at h
  unfold RequestInvariant at hreq
  cases hs with
  | build id pdf hp => exact ⟨rfl, pdf, by simp [World.setFile], rfl⟩
  | assign assigned hp | check assigned hp =>
    unfold FileInvariant ReportRequest.authorise
    split_ifs <;> cases r.call <;> trivial
  | readDownload hp hc hf =>
    rw [hp] at hreq
    exact ⟨_, hreq.1, hreq.2.1, hread _ _ hreq.1 hf⟩
  | readVerify verifiedAt hp hc hf =>
    rw [hp] at hreq
    have hhash := hread _ _ hreq.1 hf
    exact ⟨_, hreq.1, hreq.2.1, rfl, hhash, decide_eq_true hhash⟩
  | publish eventId timestamp hp =>
    rw [hp] at h
    exact h
  | _ => trivial

end ForensicChain.Reports
