import ForensicChain.Reports.Generation

/-!
When report generation is all or nothing. What comes after `build_report` removes no file and takes
back no row, and a file that `build_report` leaves is removed only where the cleanup looks for it.
-/
namespace ForensicChain.Reports

variable {g : Generation} {c : Calls} {s t : Stores} {pdf : List UInt8} {data : ReportData}
  {α : Type} {e : Raised} {text : String}

/-- The file that the run writes. -/
def Generation.file (g : Generation) : String := g.locate g.storagePath

/-- No row and no file has the id that was drawn. -/
structure Fresh (g : Generation) (s : Stores) : Prop where
  rows : ∀ q ∈ s.world.rows, q.reportId ≠ g.reportId
  file : s.world.files g.file = none

/-- The property that is asked of a run: a report that is there as a whole, or nothing of it. -/
def AllOrNothing (g : Generation) : Except HttpError ReportOut × Stores → Prop
  | (.ok _, s) =>
    (∃ report ∈ s.world.rows, report.reportId = g.reportId ∧ ∃ path content,
      report.storagePath = some path ∧ s.world.files (g.locate path) = some content ∧
        sha256 content = report.reportHash) ∧
    ∃ env ∈ s.published, env.eventType = "ReportGenerated" ∧
      ("report_id", .str g.reportId.str) ∈ env.payload
  | (.error _, s) => (∀ q ∈ s.world.rows, q.reportId ≠ g.reportId) ∧ s.world.files g.file = none

/-- The caller is let through to the report. -/
def Admitted (c : Calls) (caseId : String) : Prop :=
  c.caseId = some caseId ∧ caseId ≠ "" ∧ caseId ∈ c.assigned

/-- The services answer, and the document comes out. -/
def Rendered (g : Generation) (c : Calls) (data : ReportData) (pdf : List UInt8) : Prop :=
  fetchData g c = .ok data ∧ c.render data = .ok pdf ∧ c.mkdir = .ok ()

def FileOutcome.Leaves : FileOutcome → Prop
  | .returns => True
  | .raises left _ => left.isSome

def WriteOutcome.TakesEffect : WriteOutcome → Prop
  | .returns => True
  | .raises tookEffect _ => tookEffect

/-- `build_report` comes to write the file, and something of it is there afterwards. -/
def LeavesFile (g : Generation) (c : Calls) : Prop :=
  (∃ data pdf, Rendered g c data pdf) ∧ c.writeBytes.Leaves

/-- `build_report` returns. -/
def Builds (g : Generation) (c : Calls) (pdf : List UInt8) : Prop :=
  ∃ data, Rendered g c data pdf ∧ c.writeBytes = .returns ∧
    ∃ anchored, c.appendReportProof (reportProof g data (sha256 pdf)) = .ok anchored

/-- The cleanup works, and looks where the file was written. -/
def Cleans (g : Generation) (c : Calls) : Prop :=
  g.locate g.candidate = g.file ∧ c.existsCandidate = .ok () ∧ c.unlink.TakesEffect

/-- What comes after `build_report` returns. -/
def Completes (g : Generation) (c : Calls) (caseId : String) (pdf : List UInt8) : Prop :=
  c.flush = .ok () ∧ (∃ report, insertReport g.reportId g.artifactId caseId g.actor.actorId
    g.generatedAt (sha256 pdf) g.storagePath g.corrId = some report) ∧
    c.commit = .returns ∧ c.refresh = .ok () ∧ c.publish = .returns

/-- Whoever is let through: nothing fails once the report is built, and where it is not built, no
file was left or the cleanup removes it. -/
def Whole (g : Generation) (c : Calls) : Prop :=
  ∀ caseId, Admitted c caseId →
    (∀ pdf, Builds g c pdf → Completes g c caseId pdf) ∧
      ((∀ pdf, ¬ Builds g c pdf) → LeavesFile g c → Cleans g c)

@[simp]
theorem run_ofCall_ok {a : α} : (ofCall (.ok a)).run s = .ok a s := rfl

@[simp]
theorem run_ofCall_error : (ofCall (.error text) : Run α).run s = .error (.other text) s := rfl

@[simp]
theorem run_throw_raised : (throw e : Run α).run s = .error e s := rfl

@[simp]
theorem run_map {β : Type} {f : α → β} {x : Run α} : (f <$> x).run s = match x.run s with
    | .ok a t => .ok (f a) t
    | .error e t => .error e t := by
  show EStateM.map f x s = _
  unfold EStateM.map EStateM.run
  cases x s <;> rfl

@[simp]
theorem run_perform_returns {effect : Stores → Stores} :
    (WriteOutcome.returns.perform effect).run s = .ok () (effect s) := rfl

theorem files_setFile {file path : String} {content : Option (List UInt8)} :
    (s.setFile file content).world.files path = if path = file then content
      else s.world.files path := by
  simp [Stores.setFile, World.setFile, Function.update_apply]

/-- A write that takes effect, whether or not it raises. -/
theorem WriteOutcome.run_perform (o : WriteOutcome) (effect : Stores → Stores) (s : Stores) :
    ∃ t, ((o.perform effect).run s = .ok () t ∨ ∃ e, (o.perform effect).run s = .error e t) ∧
      (o.TakesEffect ∧ t = effect s ∨ ¬ o.TakesEffect ∧ t = s) := by
  match o with
  | .returns => exact ⟨_, .inl rfl, .inl ⟨trivial, rfl⟩⟩
  | .raises true text => exact ⟨_, .inr ⟨_, rfl⟩, .inl ⟨rfl, rfl⟩⟩
  | .raises false text => exact ⟨_, .inr ⟨_, rfl⟩, .inr ⟨nofun, rfl⟩⟩

/-- The cleanup takes the file away, or nothing. -/
theorem removeCandidate_spec (g : Generation) (c : Calls) (s : Stores) :
    ∃ t, ((removeCandidate g c).run s = .ok () t ∨
        ∃ e, (removeCandidate g c).run s = .error e t) ∧
      (t = s ∨ t = s.setFile (g.locate g.candidate) none) ∧
      (t.world.files g.file = none ↔ s.world.files g.file = none ∨ Cleans g c) := by
  unfold removeCandidate
  cases hexists : c.existsCandidate with
  | error text =>
    refine ⟨s, .inr ⟨_, rfl⟩, .inl rfl, ?_⟩
    simp [Cleans, hexists]
  | ok _ =>
    cases hfile : s.world.files (g.locate g.candidate) with
    | none =>
      refine ⟨s, .inl (by simp [hfile]), .inl rfl, ?_⟩
      constructor
      · exact .inl
      · rintro (hnone | ⟨hsame, _⟩)
        · exact hnone
        · rwa [← hsame]
    | some content =>
      obtain ⟨t, hrun, heffect⟩ := c.unlink.run_perform (·.setFile (g.locate g.candidate) none) s
      refine ⟨t, by simpa [hfile] using hrun, heffect.symm.imp And.right And.right, ?_⟩
      rcases heffect with ⟨hunlink, rfl⟩ | ⟨hunlink, rfl⟩
      · by_cases hsame : g.locate g.candidate = g.file
        · simp [files_setFile, Cleans, hsame, hexists, hunlink]
        · simp [files_setFile, Cleans, hsame, Ne.symm hsame]
      · simp [Cleans, hunlink]

theorem Rendered.unique {data' : ReportData} {pdf' : List UInt8} (h : Rendered g c data pdf)
    (h' : Rendered g c data' pdf') : data' = data ∧ pdf' = pdf := by
  obtain ⟨hfetch, hrender, _⟩ := h
  obtain ⟨hfetch', hrender', _⟩ := h'
  obtain rfl : data' = data := Except.ok.inj (hfetch'.symm.trans hfetch)
  exact ⟨rfl, Except.ok.inj (hrender'.symm.trans hrender)⟩

theorem Builds.unique {pdf' : List UInt8} (h : Builds g c pdf') (h' : Builds g c pdf) :
    pdf' = pdf := by
  obtain ⟨_, hr, _⟩ := h
  obtain ⟨_, hr', _⟩ := h'
  exact (hr'.unique hr).2

/-- Before the document is there, nothing is written. -/
theorem buildReport_not_rendered (h : ¬ ∃ data pdf, Rendered g c data pdf) :
    ∃ e, (buildReport g c).run s = .error e s := by
  unfold buildReport
  cases hfetch : fetchData g c with
  | error e => exact ⟨e, rfl⟩
  | ok data =>
    cases hrender : c.render data with
    | error text => exact ⟨.other text, by simp [ofFetch, hrender]⟩
    | ok pdf =>
      cases hmkdir : c.mkdir with
      | error text => exact ⟨.other text, by simp [ofFetch, hrender]⟩
      | ok _ => exact (h ⟨data, pdf, hfetch, hrender, hmkdir⟩).elim

/-- What `build_report` does to the file, and to nothing else. -/
theorem buildReport_spec (g : Generation) (c : Calls) (s : Stores) :
    (∃ pdf, Builds g c pdf ∧ (buildReport g c).run s =
      .ok (pdf, sha256 pdf, g.storagePath) (s.setFile g.file (some pdf))) ∨
    (∀ pdf, ¬ Builds g c pdf) ∧
      ((¬ LeavesFile g c ∧ ∃ e, (buildReport g c).run s = .error e s) ∨
        LeavesFile g c ∧ ∃ text left, (buildReport g c).run s =
          .error (.other text) (s.setFile g.file (some left))) := by
  by_cases h : ∃ data pdf, Rendered g c data pdf
  · obtain ⟨data, pdf, hr⟩ := h
    have hbuilds : ∀ pdf', Builds g c pdf' → c.writeBytes = .returns ∧
        ∃ anchored, c.appendReportProof (reportProof g data (sha256 pdf)) = .ok anchored := by
      rintro pdf' ⟨data', hr', hwrite, hanchor⟩
      obtain ⟨rfl, rfl⟩ := hr.unique hr'
      exact ⟨hwrite, hanchor⟩
    have hleaves : LeavesFile g c ↔ c.writeBytes.Leaves := and_iff_right ⟨data, pdf, hr⟩
    obtain ⟨hfetch, hrender, hmkdir⟩ := id hr
    have hrun : (buildReport g c).run s = (do
        c.writeBytes.perform g.file pdf
        let _ ← ofCall (c.appendReportProof (reportProof g data (sha256 pdf)))
        return (pdf, sha256 pdf, g.storagePath) : Run _).run s := by
      simp [buildReport, hfetch, hrender, hmkdir, ofFetch, Generation.file]
    cases hwrite : c.writeBytes with
    | returns =>
      cases hanchor : c.appendReportProof (reportProof g data (sha256 pdf)) with
      | ok anchored =>
        refine .inl ⟨pdf, ⟨data, hr, hwrite, anchored, hanchor⟩, ?_⟩
        rw [hrun, hwrite, hanchor]
        rfl
      | error text =>
        refine .inr ⟨?_, .inr ⟨hleaves.mpr (by rw [hwrite]; trivial), text, pdf, ?_⟩⟩
        · intro pdf' hb
          obtain ⟨_, anchored, hok⟩ := hbuilds pdf' hb
          cases hanchor.symm.trans hok
        · rw [hrun, hwrite, hanchor]
          rfl
    | raises left text =>
      have hnot : ∀ pdf', ¬ Builds g c pdf' := by
        intro pdf' hb
        cases hwrite.symm.trans (hbuilds pdf' hb).1
      refine .inr ⟨hnot, ?_⟩
      cases left with
      | none =>
        refine .inl ⟨by simp [hleaves, hwrite, FileOutcome.Leaves], .other text, ?_⟩
        rw [hrun, hwrite]
        rfl
      | some left =>
        refine .inr ⟨by simp [hleaves, hwrite, FileOutcome.Leaves], text, left, ?_⟩
        rw [hrun, hwrite]
        rfl
  · obtain ⟨e, hrun⟩ := buildReport_not_rendered (s := s) h
    refine .inr ⟨?_, .inl ⟨fun hl => h hl.1, e, hrun⟩⟩
    rintro pdf ⟨data, hr, _⟩
    exact h ⟨data, pdf, hr⟩

theorem run_buildOrClean : (buildOrClean g c).run s = match (buildReport g c).run s with
    | .ok built t => .ok built t
    | .error (.http error) t => .error (.http error) t
    | .error (.other text) t => (do
        removeCandidate g c
        throw (.http ⟨503, "Report generation failed: " ++ text⟩) : Run _).run t := by
  show EStateM.tryCatch (buildReport g c) _ s = _
  unfold EStateM.tryCatch EStateM.run
  cases buildReport g c s with
  | ok => rfl
  | error e => cases e <;> rfl

/-- With the `except` blocks, a file that `build_report` leaves is there unless it is cleaned up. -/
theorem buildOrClean_spec (hfile : s.world.files g.file = none) :
    (∃ pdf, Builds g c pdf ∧ (buildOrClean g c).run s =
      .ok (pdf, sha256 pdf, g.storagePath) (s.setFile g.file (some pdf))) ∨
    ∃ e t, (buildOrClean g c).run s = .error e t ∧ (∀ pdf, ¬ Builds g c pdf) ∧
      t.world.rows = s.world.rows ∧
      (t.world.files g.file = none ↔ (LeavesFile g c → Cleans g c)) := by
  have hother : ∀ text u, (buildReport g c).run s = .error (.other text) u →
      u.world.rows = s.world.rows → (u.world.files g.file = none ↔ ¬ LeavesFile g c) →
      ∃ e t, (buildOrClean g c).run s = .error e t ∧ t.world.rows = s.world.rows ∧
        (t.world.files g.file = none ↔ (LeavesFile g c → Cleans g c)) := by
    intro text u hrun hrows hleft
    obtain ⟨t, hclean, hsame, hremoved⟩ := removeCandidate_spec g c u
    have hfinal : t.world.files g.file = none ↔ (LeavesFile g c → Cleans g c) := by
      rw [hremoved, hleft, imp_iff_not_or]
    have hkept : t.world.rows = s.world.rows := by
      rcases hsame with rfl | rfl
      · exact hrows
      · exact hrows
    rw [run_buildOrClean, hrun]
    rcases hclean with hclean | ⟨e, hclean⟩
    · exact ⟨.http ⟨503, "Report generation failed: " ++ text⟩, t, by simp [hclean], hkept, hfinal⟩
    · exact ⟨e, t, by simp [hclean], hkept, hfinal⟩
  rcases buildReport_spec g c s with ⟨pdf, hb, hrun⟩ | ⟨hnot, ⟨hleaves, e, hrun⟩ |
    ⟨hleaves, text, left, hrun⟩⟩
  · exact .inl ⟨pdf, hb, by rw [run_buildOrClean, hrun]⟩
  · cases e with
    | http error =>
      exact .inr ⟨_, s, by rw [run_buildOrClean, hrun], hnot, rfl, by simp [hfile, hleaves]⟩
    | other text =>
      obtain ⟨e, t, hrun, hrows, hfinal⟩ := hother text s hrun rfl (iff_of_true hfile hleaves)
      exact .inr ⟨e, t, hrun, hnot, hrows, hfinal⟩
  · have hthere : (s.setFile g.file (some left)).world.files g.file ≠ none := by
      simp [files_setFile]
    obtain ⟨e, t, hrun, hrows, hfinal⟩ := hother text _ hrun rfl
      (iff_of_false hthere fun hnone => hnone hleaves)
    exact .inr ⟨e, t, hrun, hnot, hrows, hfinal⟩

/-- The row, the transaction, the refresh and the event. -/
def finish (g : Generation) (c : Calls) (caseId reportHash path : String) : Run ReportOut := do
  let report ← flushReport g c caseId reportHash path
  c.commit.perform .commit
  ofCall c.refresh
  c.publish.perform (·.publish (generatedEnvelope g report))
  return reportOut report

theorem generateReport_admitted {caseId : String} (h : Admitted c caseId) :
    (generateReport g c).run s = (do
      let (_, reportHash, path) ← buildOrClean g c
      finish g c caseId reportHash path : Run _).run s := by
  obtain ⟨hcase, hne, hin⟩ := h
  simp [generateReport, finish, hcase, hne, hin]

theorem generateReport_refused (h : ∀ caseId, ¬ Admitted c caseId) :
    ∃ e, (generateReport g c).run s = .error e s := by
  unfold generateReport
  by_cases hne : c.caseId.getD "" = ""
  · exact ⟨.http ⟨404, "Artifact not found"⟩, by simp [hne]⟩
  · by_cases hin : c.caseId.getD "" ∈ c.assigned
    · cases hcase : c.caseId with
      | none => simp [hcase] at hne
      | some caseId =>
        have hne' : caseId ≠ "" := by simpa [hcase] using hne
        have hin' : caseId ∈ c.assigned := by simpa [hcase] using hin
        exact (h caseId ⟨hcase, hne', hin'⟩).elim
    · exact ⟨.http ⟨403, "Not assigned to this case"⟩, by simp [hne, hin]⟩

theorem flushReport_eq {caseId hash path : String} {report : Report} (hflush : c.flush = .ok ())
    (hrow : insertReport g.reportId g.artifactId caseId g.actor.actorId g.generatedAt hash path
      g.corrId = some report)
    (hrows : ∀ q ∈ s.world.rows, q.reportId ≠ g.reportId) :
    (flushReport g c caseId hash path).run s = .ok report { s with session := some report } := by
  have hkey := (insertReport_eq_some hrow).reportId
  have hfree : ¬ ∃ q ∈ s.world.rows, q.reportId = report.reportId := by
    rintro ⟨q, hq, he⟩
    exact hrows q hq (he.trans hkey)
  simp only [flushReport, hflush, hrow, EStateM.run_bind, run_ofCall_ok, EStateM.run_get, hfree,
    if_false]
  rfl

/-- A write that raises keeps what it does not touch. -/
theorem WriteOutcome.run_raises {o : WriteOutcome} (h : o ≠ .returns) (effect : Stores → Stores)
    (s : Stores) (hfiles : ∀ s, (effect s).world.files = s.world.files) :
    ∃ e t, (o.perform effect).run s = .error e t ∧ t.world.files = s.world.files := by
  match o with
  | .returns => exact (h rfl).elim
  | .raises true text => exact ⟨_, _, rfl, hfiles s⟩
  | .raises false text => exact ⟨_, _, rfl, rfl⟩

theorem finish_completes {caseId : String} (h : Completes g c caseId pdf)
    (hrows : ∀ q ∈ s.world.rows, q.reportId ≠ g.reportId) :
    ∃ report, insertReport g.reportId g.artifactId caseId g.actor.actorId g.generatedAt
        (sha256 pdf) g.storagePath g.corrId = some report ∧
      (finish g c caseId (sha256 pdf) g.storagePath).run s = .ok (reportOut report)
        (({ s with session := some report } : Stores).commit.publish
          (generatedEnvelope g report)) := by
  obtain ⟨hflush, ⟨report, hrow⟩, hcommit, hrefresh, hpublish⟩ := h
  refine ⟨report, hrow, ?_⟩
  simp [finish, flushReport_eq hflush hrow hrows, hcommit, hrefresh, hpublish]

/-- If one of the calls after `build_report` fails, the file stays. -/
theorem finish_fails {caseId : String} (h : ¬ Completes g c caseId pdf)
    (hrows : ∀ q ∈ s.world.rows, q.reportId ≠ g.reportId) :
    ∃ e t, (finish g c caseId (sha256 pdf) g.storagePath).run s = .error e t ∧
      t.world.files = s.world.files := by
  cases hflush : c.flush with
  | error text => exact ⟨.other text, s, by simp [finish, flushReport, hflush], rfl⟩
  | ok _ =>
    cases hrow : insertReport g.reportId g.artifactId caseId g.actor.actorId g.generatedAt
        (sha256 pdf) g.storagePath g.corrId with
    | none => exact ⟨.other "DataError", s, by simp [finish, flushReport, hflush, hrow], rfl⟩
    | some report =>
      have hrun := flushReport_eq hflush hrow hrows
      by_cases hcommit : c.commit = .returns
      · cases hrefresh : c.refresh with
        | error text =>
          exact ⟨.other text, ({ s with session := some report } : Stores).commit,
            by simp [finish, hrun, hcommit, hrefresh], rfl⟩
        | ok _ =>
          have hpublish : c.publish ≠ .returns := fun hp =>
            h ⟨hflush, ⟨report, hrow⟩, hcommit, hrefresh, hp⟩
          obtain ⟨e, t, hraised, hfiles⟩ := WriteOutcome.run_raises hpublish
            (·.publish (generatedEnvelope g report))
            ({ s with session := some report } : Stores).commit fun _ => rfl
          refine ⟨e, t, ?_, hfiles⟩
          simp [finish, hrun, hcommit, hrefresh, hraised]
      · obtain ⟨e, t, hraised, hfiles⟩ := WriteOutcome.run_raises hcommit .commit
          { s with session := some report } fun _ => rfl
        exact ⟨e, t, by simp [finish, hrun, hraised], hfiles⟩

theorem respond_error {r : EStateM.Result Raised Stores ReportOut} (h : r = .error e t) :
    ∃ error, respond r = (.error error, { t with session := none }) := by
  rw [h]
  cases e with
  | http error => exact ⟨error, rfl⟩
  | other => exact ⟨_, rfl⟩

/-- What is there after every call has returned. -/
theorem allOrNothing_of_completes {caseId : String} {report : Report}
    (hrow : insertReport g.reportId g.artifactId caseId g.actor.actorId g.generatedAt
      (sha256 pdf) g.storagePath g.corrId = some report) :
    AllOrNothing g (respond (.ok (reportOut report)
      (({ s.setFile g.file (some pdf) with session := some report } : Stores).commit.publish
        (generatedEnvelope g report)))) := by
  obtain ⟨hid, _, _, hcolumn, hpath⟩ := insertReport_eq_some hrow
  have hhash : report.reportHash = sha256 pdf :=
    Option.some.inj (hcolumn.symm.trans (Ledger.varchar_sha256 _))
  refine ⟨⟨report, ?_, hid, g.storagePath, pdf, hpath, ?_, hhash.symm⟩, ?_⟩
  · simp [Stores.commit, Stores.publish]
  · show (s.setFile g.file (some pdf)).world.files g.file = _
    simp [files_setFile]
  · refine ⟨generatedEnvelope g report, ?_, rfl, ?_⟩
    · simp [Stores.publish]
    · show _ ∈ (generatedAnnouncement g.artifactId report g.ipAddress).payload
      rw [generatedAnnouncement, hid]
      exact List.mem_cons_self

theorem allOrNothing_error (h : (generateReport g c).run s = .error e t) :
    AllOrNothing g (serveGenerate g c s) ↔
      (∀ q ∈ t.world.rows, q.reportId ≠ g.reportId) ∧ t.world.files g.file = none := by
  obtain ⟨error, hresponse⟩ := respond_error h
  rw [serveGenerate, hresponse]
  rfl

variable {caseId : String}

/-- Once the report is built, everything else has to go well. -/
theorem allOrNothing_built (hs : Fresh g s) (ha : Admitted c caseId) (hb : Builds g c pdf) :
    AllOrNothing g (serveGenerate g c s) ↔ Completes g c caseId pdf := by
  have hrun := generateReport_admitted (g := g) (s := s) ha
  rcases buildOrClean_spec (c := c) hs.file with ⟨pdf', hb', hbuild⟩ | ⟨_, _, _, hnot, _⟩
  · obtain rfl : pdf' = pdf := hb'.unique hb
    simp only [EStateM.run_bind, hbuild] at hrun
    by_cases hdone : Completes g c caseId pdf'
    · obtain ⟨report, hrow, hfinish⟩ := finish_completes (s := s.setFile g.file (some pdf')) hdone
        hs.rows
      rw [hfinish] at hrun
      rw [serveGenerate, hrun]
      exact iff_of_true (allOrNothing_of_completes hrow) hdone
    · obtain ⟨e, t, hfails, hfiles⟩ := finish_fails (s := s.setFile g.file (some pdf')) hdone
        hs.rows
      rw [hfails] at hrun
      refine (allOrNothing_error hrun).trans (iff_of_false ?_ hdone)
      rintro ⟨_, hnone⟩
      rw [hfiles, files_setFile] at hnone
      simp at hnone
  · exact (hnot pdf hb).elim

/-- When `build_report` raises, no file may be left. -/
theorem allOrNothing_unbuilt (hs : Fresh g s) (ha : Admitted c caseId)
    (hnot : ∀ pdf, ¬ Builds g c pdf) :
    AllOrNothing g (serveGenerate g c s) ↔ (LeavesFile g c → Cleans g c) := by
  have hrun := generateReport_admitted (g := g) (s := s) ha
  rcases buildOrClean_spec (c := c) hs.file with ⟨pdf, hb, _⟩ | ⟨e, t, hbuild, _, hsame, hleft⟩
  · exact (hnot pdf hb).elim
  · simp only [EStateM.run_bind, hbuild] at hrun
    rw [allOrNothing_error hrun, ← hleft, hsame]
    exact and_iff_right hs.rows

/-- A run of `generate_report` is all or nothing if and only if nothing fails once the report is
built, and a file that is left by a failure before is found and removed. -/
theorem allOrNothing_iff (hs : Fresh g s) : AllOrNothing g (serveGenerate g c s) ↔ Whole g c := by
  by_cases hadmitted : ∃ caseId, Admitted c caseId
  · obtain ⟨caseId, ha⟩ := hadmitted
    have hone : Whole g c ↔ (∀ pdf, Builds g c pdf → Completes g c caseId pdf) ∧
        ((∀ pdf, ¬ Builds g c pdf) → LeavesFile g c → Cleans g c) := by
      refine ⟨fun h => h caseId ha, fun h other hother => ?_⟩
      obtain rfl := Option.some.inj (ha.1.symm.trans hother.1)
      exact h
    rw [hone]
    by_cases hbuilds : ∃ pdf, Builds g c pdf
    · obtain ⟨pdf, hb⟩ := hbuilds
      rw [allOrNothing_built hs ha hb]
      refine ⟨fun h => ⟨fun pdf' hb' => ?_, fun hnot => (hnot pdf hb).elim⟩, fun h => h.1 pdf hb⟩
      rwa [hb'.unique hb]
    · have hnot := not_exists.mp hbuilds
      rw [allOrNothing_unbuilt hs ha hnot]
      exact ⟨fun h => ⟨fun pdf hb => (hnot pdf hb).elim, fun _ => h⟩, fun h => h.2 hnot⟩
  · obtain ⟨e, hrun⟩ := generateReport_refused (g := g) (s := s) (not_exists.mp hadmitted)
    refine (allOrNothing_error hrun).trans (iff_of_true ⟨hs.rows, hs.file⟩ ?_)
    intro caseId ha
    exact (hadmitted ⟨caseId, ha⟩).elim

/-- The file of the default configuration is the candidate of the cleanup. -/
theorem storagePath_default (h : g.reportStoragePath = "/report-storage") :
    g.storagePath = g.candidate := by
  have hroot : pathRoot "/report-storage".toList = ['/'] := by decide
  have hparts : pathParts "/report-storage".toList = ["report-storage".toList] := by decide
  have hjoin : ∀ a b : List Char, List.intercalate ['/'] ([a] ++ [b]) = a ++ ('/' :: b) := by
    intro a b
    simp [List.intercalate]
  have hfront : ("/report-storage/" ++ g.reportId.str).toList =
      "/report-storage/".toList ++ g.reportId.str.toList := String.toList_append
  apply String.toList_injective
  rw [Generation.storagePath, Generation.candidate, h, pathChild, hroot, hparts, hjoin,
    String.toList_ofList]
  calc ['/'] ++ ("report-storage".toList ++ '/' :: (g.reportId.str ++ ".pdf").toList)
      = "/report-storage/".toList ++ (g.reportId.str ++ ".pdf").toList := rfl
    _ = "/report-storage/".toList ++ (g.reportId.str.toList ++ ".pdf".toList) := by
      rw [String.toList_append]
    _ = ("/report-storage/" ++ g.reportId.str).toList ++ ".pdf".toList := by
      rw [hfront, List.append_assoc]
    _ = (storagePath g.reportId).toList := String.toList_append.symm

/-- Every call before the last one returns. -/
def smoothCalls (publish : WriteOutcome) : Calls where
  caseId := some "CASE-2025-001"
  assigned := ["CASE-2025-001"]
  artifact := .ok (.obj [("case_id", .str "CASE-2025-001")])
  int _ := .error "no number"
  noObject _ := "no object"
  proof := .ok none
  timeline := .ok (.arr [])
  validation := .ok .null
  records := .ok (.arr [])
  render _ := .ok []
  mkdir := .ok ()
  writeBytes := .returns
  appendReportProof _ := .ok (true, "", "")
  existsCandidate := .ok ()
  unlink := .returns
  flush := .ok ()
  commit := .returns
  refresh := .ok ()
  publish := publish

def sampleGeneration : Generation where
  artifactId := Custody.sampleArtifact.str
  actor := ⟨"reviewer01", "legal_reviewer"⟩
  corrId := Custody.sampleCorrelation.str
  ipAddress := none
  reportStoragePath := "/report-storage"
  locate := id
  reportId := .ofNat 5
  startedAt := "2025-01-31T10:00:00+00:00"
  generatedAt := 0
  eventId := .ofNat 6
  publishedAt := "2025-01-31T10:00:00Z"

def emptyStores : Stores := ⟨⟨[], fun _ => none⟩, none, []⟩

theorem emptyStores_fresh : Fresh g emptyStores := ⟨nofun, rfl⟩

/-- The row of the sample is one that the table takes. -/
theorem sample_row : ∃ report, insertReport sampleGeneration.reportId sampleGeneration.artifactId
    "CASE-2025-001" sampleGeneration.actor.actorId sampleGeneration.generatedAt (sha256 [])
    sampleGeneration.storagePath sampleGeneration.corrId = some report := by
  have hart : Postgres.uuid sampleGeneration.artifactId = some Custody.sampleArtifact := by decide
  have hcorr : Postgres.uuid sampleGeneration.corrId = some Custody.sampleCorrelation := by decide
  have hcase : Postgres.varchar 64 "CASE-2025-001" = some "CASE-2025-001" := by decide
  have hactor : Postgres.varchar 64 sampleGeneration.actor.actorId = some "reviewer01" := by decide
  have hpath : (Postgres.text sampleGeneration.storagePath).isSome := by decide
  obtain ⟨path, hpath⟩ := Option.isSome_iff_exists.mp hpath
  simp [insertReport, hart, hcorr, hcase, hactor, hpath, Ledger.varchar_sha256]

theorem smooth_admitted {publish : WriteOutcome} :
    Admitted (smoothCalls publish) "CASE-2025-001" :=
  ⟨rfl, by decide, List.mem_singleton_self _⟩

theorem smooth_builds {publish : WriteOutcome} :
    Builds sampleGeneration (smoothCalls publish) [] := by
  have hdata : ∃ data, fetchData sampleGeneration (smoothCalls publish) = .ok data :=
    ⟨_, by simp [fetchData, readFileSize, smoothCalls, Json.field?]; rfl⟩
  obtain ⟨data, hdata⟩ := hdata
  exact ⟨data, ⟨hdata, rfl, rfl⟩, rfl, _, rfl⟩

theorem smooth_completes : Completes sampleGeneration (smoothCalls .returns) "CASE-2025-001" [] :=
  ⟨rfl, sample_row, rfl, rfl, rfl⟩

theorem smooth_run_whole : AllOrNothing sampleGeneration
    (serveGenerate sampleGeneration (smoothCalls .returns) emptyStores) := by
  rw [allOrNothing_iff emptyStores_fresh]
  intro caseId ha
  obtain rfl := Option.some.inj (smooth_admitted.1.symm.trans ha.1)
  refine ⟨fun pdf hb => ?_, fun hnot => (hnot [] smooth_builds).elim⟩
  obtain rfl := smooth_builds.unique hb
  exact smooth_completes

/-- The exchange cannot be reached: the answer is an error, and the row and the file stay. -/
theorem unpublished_report_stays :
    Fresh sampleGeneration emptyStores ∧ ¬ AllOrNothing sampleGeneration
      (serveGenerate sampleGeneration (smoothCalls (.raises false "no connection"))
        emptyStores) := by
  refine ⟨emptyStores_fresh, ?_⟩
  rw [allOrNothing_built emptyStores_fresh smooth_admitted smooth_builds]
  rintro ⟨_, _, _, _, hpublish⟩
  cases hpublish

end ForensicChain.Reports
