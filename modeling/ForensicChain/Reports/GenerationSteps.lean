import ForensicChain.Reports.AllOrNothing
import Mathlib.Logic.Relation

/-!
In the default configuration, and where the cleanup works, a run of `generate_report` goes through
the steps of a report request.
-/
namespace ForensicChain.Reports

open Relation

/-- A request, the stores that it works on, and what the exchange has taken. -/
structure Serving where
  world : World
  published : List Custody.Envelope
  request : ReportRequest

def Serving.Moves (artifacts : List Evidence.Artifact) (x y : Serving) : Prop :=
  ∃ action event, ReportStep artifacts x.world x.request action y.world event y.request ∧
    y.published = x.published ++ event.toList

variable {artifacts : List Evidence.Artifact} {g : Generation} {c : Calls} {s t : Stores}
  {caseId : String} {pdf : List UInt8} {w : World} {published : List Custody.Envelope}
  {x : Serving} {result : EStateM.Result Raised Stores ReportOut}

/-- The request has come to its answer, which is that of the run. -/
def Reaches (artifacts : List Evidence.Artifact) (x : Serving)
    (result : EStateM.Result Raised Stores ReportOut) : Prop :=
  ∃ r, ReflTransGen (Serving.Moves artifacts) x
      ⟨(respond result).2.world, (respond result).2.published, r⟩ ∧
    r.phase = .responded ((respond result).1.map ReportAnswer.generated)

/-- The request once its caller is let through. -/
def Generation.admitted (g : Generation) (c : Calls) (phase : ReportPhase) : ReportRequest :=
  { g.request with assigned := some c.assigned, phase }

theorem Reaches.head {y : Serving} (h : Serving.Moves artifacts x y)
    (hr : Reaches artifacts y result) : Reaches artifacts x result := by
  obtain ⟨r, hpath, hphase⟩ := hr
  exact ⟨r, .head h hpath, hphase⟩

theorem reaches_crash {text : String} {r : ReportRequest}
    (h : Serving.Moves artifacts x ⟨t.world, t.published, r.crash⟩) :
    Reaches artifacts x (.error (.other text) t) :=
  ⟨_, .single h, rfl⟩

theorem reaches_fail {r : ReportRequest} {error : HttpError}
    (h : Serving.Moves artifacts x ⟨t.world, t.published, r⟩)
    (hr : r.phase = .responded (.error error)) :
    Reaches artifacts x (.error (.http error) t) :=
  ⟨_, .single h, hr⟩

/-- The refused requests, and those that are let through. -/
theorem admission (hcase : ArtifactCaseId artifacts g.artifactId c.caseId) :
    (∃ caseId, Admitted c caseId ∧ ReflTransGen (Serving.Moves artifacts)
      ⟨s.world, s.published, g.request⟩
      ⟨s.world, s.published, g.admitted c (.building caseId)⟩) ∨
    Reaches artifacts ⟨s.world, s.published, g.request⟩ ((generateReport g c).run s) := by
  have hphase : g.request.phase = .resolving g.artifactId := rfl
  by_cases hne : c.caseId.getD "" = ""
  · right
    have hrun : (generateReport g c).run s = .error (.http ⟨404, "Artifact not found"⟩) s := by
      simp [generateReport, hne]
    have hmissing : c.caseId = none ∨ c.caseId = some "" := by
      cases hcase : c.caseId with
      | none => exact .inl rfl
      | some caseId => exact .inr (by simpa [hcase] using hne)
    rw [hrun]
    exact reaches_fail (r := g.request.fail 404 "Artifact not found")
      ⟨_, none, .resolveMissing hphase hcase hmissing, by simp⟩ rfl
  · obtain ⟨caseId, hsome⟩ : ∃ caseId, c.caseId = some caseId := by
      cases hcase : c.caseId with
      | none => simp [hcase] at hne
      | some caseId => exact ⟨caseId, rfl⟩
    have hne' : caseId ≠ "" := by simpa [hsome] using hne
    have hresolve : Serving.Moves artifacts ⟨s.world, s.published, g.request⟩
        ⟨s.world, s.published, g.request.next (.authorising caseId)⟩ :=
      ⟨_, none, .resolve hphase (hsome ▸ hcase) hne', by simp⟩
    have hassign : Serving.Moves artifacts
        ⟨s.world, s.published, g.request.next (.authorising caseId)⟩
        ⟨s.world, s.published, (g.request.next (.authorising caseId)).authorise c.assigned
          (some caseId) (.building caseId)⟩ :=
      ⟨_, none, .assign c.assigned rfl, by simp⟩
    by_cases hin : caseId ∈ c.assigned
    · left
      refine ⟨caseId, ⟨hsome, hne', hin⟩, .head hresolve (.single ?_)⟩
      have hcaseIn : CaseIn (some caseId) c.assigned := ⟨caseId, hin, rfl⟩
      rw [ReportRequest.authorise, if_pos hcaseIn] at hassign
      exact hassign
    · right
      have hrun : (generateReport g c).run s =
          .error (.http ⟨403, "Not assigned to this case"⟩) s := by
        simp [generateReport, hsome, hne', hin]
      have hcaseIn : ¬ CaseIn (some caseId) c.assigned := by
        rintro ⟨d, hd, he⟩
        exact hin (Option.some.inj he ▸ hd)
      rw [ReportRequest.authorise, if_neg hcaseIn] at hassign
      rw [hrun]
      exact Reaches.head hresolve (reaches_fail hassign rfl)

/-- The request when the report is built. -/
def Generation.inserting (g : Generation) (c : Calls) (caseId reportHash : String) :
    ReportRequest :=
  g.admitted c (.inserting caseId g.reportId reportHash g.storagePath)

/-- The transaction raises, with its row committed or not. -/
theorem transaction_raised {text hash : String} (report : Report)
    (hw : t.world = s.world ∨ Inserts s.world (g.inserting c caseId hash) g.artifactId caseId
      g.reportId hash g.storagePath report t.world)
    (hpublished : t.published = s.published) :
    Reaches artifacts ⟨s.world, s.published, g.inserting c caseId hash⟩
      (.error (.other text) t) :=
  reaches_crash ⟨_, none, .insertRaised rfl rfl hw, by simp [hpublished]⟩

/-- The event of a committed row: the exchange takes it or not, and the call returns or not. -/
theorem publish_reaches {hash : String} (report : Report) (t : Stores) :
    Reaches artifacts ⟨t.world, t.published, (g.inserting c caseId hash).next
        (.publishing (generatedAnnouncement g.artifactId report g.ipAddress)
          (.generated (reportOut report)))⟩ ((do
      c.publish.perform (·.publish (generatedEnvelope g report))
      return reportOut report : Run _).run t) := by
  cases c.publish with
  | returns => exact ⟨_, .single ⟨_, _, .publish g.eventId g.publishedAt rfl, rfl⟩, rfl⟩
  | raises tookEffect text =>
    cases tookEffect with
    | false => exact reaches_crash ⟨_, none, .publishRaised rfl nofun, (List.append_nil _).symm⟩
    | true =>
      refine reaches_crash ⟨_, some (generatedEnvelope g report), .publishRaised rfl ?_, rfl⟩
      intro env he
      exact ⟨g.eventId, g.publishedAt, (Option.some.inj he).symm⟩

theorem finish_reaches (hrows : ∀ q ∈ s.world.rows, q.reportId ≠ g.reportId) :
    Reaches artifacts ⟨s.world, s.published, g.inserting c caseId (sha256 pdf)⟩
      ((finish g c caseId (sha256 pdf) g.storagePath).run s) := by
  -- the row that is named by a step in which nothing is inserted
  let absent : Report := ⟨g.reportId, g.reportId, none, "", 0, "", "", none, none⟩
  cases hflush : c.flush with
  | error text =>
    have hrun : (finish g c caseId (sha256 pdf) g.storagePath).run s = .error (.other text) s := by
      simp [finish, flushReport, hflush]
    rw [hrun]
    exact transaction_raised absent (.inl rfl) rfl
  | ok _ =>
    cases hrow : insertReport g.reportId g.artifactId caseId g.actor.actorId g.generatedAt
        (sha256 pdf) g.storagePath g.corrId with
    | none =>
      have hrun : (finish g c caseId (sha256 pdf) g.storagePath).run s =
          .error (.other "DataError") s := by
        simp [finish, flushReport, hflush, hrow]
      rw [hrun]
      exact transaction_raised absent (.inl rfl) rfl
    | some report =>
      have hflushed := flushReport_eq hflush hrow hrows
      have hkey := (insertReport_eq_some hrow).reportId
      have hins : Inserts s.world (g.inserting c caseId (sha256 pdf)) g.artifactId caseId
          g.reportId (sha256 pdf) g.storagePath report (s.world.addReport report) :=
        ⟨g.generatedAt, hrow, fun q hq => hkey ▸ hrows q hq⟩
      have hinsert : Serving.Moves artifacts
          ⟨s.world, s.published, g.inserting c caseId (sha256 pdf)⟩
          ⟨s.world.addReport report, s.published, (g.inserting c caseId (sha256 pdf)).next
            (.publishing (generatedAnnouncement g.artifactId report g.ipAddress)
              (.generated (reportOut report)))⟩ :=
        ⟨_, none, .insert rfl rfl hins, by simp⟩
      cases hcommit : c.commit with
      | raises tookEffect text =>
        cases tookEffect with
        | false =>
          have hrun : (finish g c caseId (sha256 pdf) g.storagePath).run s =
              .error (.other text) { s with session := some report } := by
            simp [finish, hflushed, hcommit, WriteOutcome.perform]
          rw [hrun]
          exact transaction_raised report (.inl rfl) rfl
        | true =>
          have hrun : (finish g c caseId (sha256 pdf) g.storagePath).run s =
              .error (.other text) ({ s with session := some report } : Stores).commit := by
            simp [finish, hflushed, hcommit, WriteOutcome.perform]
          rw [hrun]
          exact transaction_raised report (.inr hins) rfl
      | returns =>
        cases hrefresh : c.refresh with
        | error text =>
          have hrun : (finish g c caseId (sha256 pdf) g.storagePath).run s =
              .error (.other text) ({ s with session := some report } : Stores).commit := by
            simp [finish, hflushed, hcommit, hrefresh]
          rw [hrun]
          exact transaction_raised report (.inr hins) rfl
        | ok _ =>
          have hrun : (finish g c caseId (sha256 pdf) g.storagePath).run s = (do
              c.publish.perform (·.publish (generatedEnvelope g report))
              return reportOut report : Run _).run
                ({ s with session := some report } : Stores).commit := by
            simp [finish, hflushed, hcommit, hrefresh]
          rw [hrun]
          refine Reaches.head hinsert ?_
          exact publish_reaches report ({ s with session := some report } : Stores).commit

/-- The cleanup removes the file, if there is one. -/
theorem removeCandidate_works (hexists : c.existsCandidate = .ok ()) (hunlink : c.unlink = .returns)
    (hsame : g.locate g.candidate = g.file) :
    (removeCandidate g c).run s = .ok () (s.setFile g.file none) := by
  unfold removeCandidate
  cases hfile : s.world.files g.file with
  | none =>
    have hupdate : Function.update s.world.files g.file none = s.world.files :=
      Function.update_eq_self_iff.mpr hfile.symm
    have hset : s.setFile g.file none = s := by
      simp [Stores.setFile, World.setFile, hupdate]
    simp [hexists, hsame, hfile, hset]
  | some content => simp [hexists, hsame, hfile, hunlink]

theorem setFile_setFile {file : String} {a b : Option (List UInt8)} :
    (s.setFile file a).setFile file b = s.setFile file b := by
  simp [Stores.setFile, World.setFile]

/-- `build_report` raises, and the `except` block answers. -/
theorem building_failed (artifacts : List Evidence.Artifact) (caseId : String) {text : String}
    {u : Stores} (hexists : c.existsCandidate = .ok ()) (hunlink : c.unlink = .returns)
    (hsame : g.locate g.candidate = g.file) (hfile : g.file = storagePath g.reportId)
    (hbuild : (buildReport g c).run s = .error (.other text) u)
    (hclean : u.setFile g.file none = s.setFile g.file none) :
    ∃ error, (buildOrClean g c).run s = .error (.http error) (s.setFile g.file none) ∧
      Reaches artifacts ⟨s.world, s.published, g.admitted c (.building caseId)⟩
        (.error (.http error) (s.setFile g.file none)) := by
  refine ⟨⟨503, "Report generation failed: " ++ text⟩, ?_, ?_⟩
  · rw [run_buildOrClean, hbuild]
    simp [removeCandidate_works hexists hunlink hsame, hclean]
  · have hstep : ReportStep artifacts s.world (g.admitted c (.building caseId))
        (.buildFailed g.reportId text) (s.world.setFile (storagePath g.reportId) none) none
        ((g.admitted c (.building caseId)).fail 503 ("Report generation failed: " ++ text)) :=
      .buildFailed g.reportId text rfl
    rw [← hfile] at hstep
    exact reaches_fail ⟨_, none, hstep, (List.append_nil _).symm⟩ rfl

theorem building_reaches (artifacts : List Evidence.Artifact) (caseId : String)
    (hexists : c.existsCandidate = .ok ()) (hunlink : c.unlink = .returns)
    (hsame : g.locate g.candidate = g.file) (hdefault : g.storagePath = storagePath g.reportId)
    (hfile : g.file = storagePath g.reportId) (hs : Fresh g s) :
    Reaches artifacts ⟨s.world, s.published, g.admitted c (.building caseId)⟩ ((do
      let (_, reportHash, path) ← buildOrClean g c
      finish g c caseId reportHash path : Run _).run s) := by
  rcases buildReport_spec g c s with ⟨pdf, _, hbuild⟩ | ⟨_, ⟨_, e, hbuild⟩ |
    ⟨_, text, left, hbuild⟩⟩
  · have hrun : (buildOrClean g c).run s =
        .ok (pdf, sha256 pdf, g.storagePath) (s.setFile g.file (some pdf)) := by
      rw [run_buildOrClean, hbuild]
    have hstep : ReportStep artifacts s.world (g.admitted c (.building caseId))
        (.build g.reportId pdf) (s.world.setFile g.file (some pdf)) none
        (g.inserting c caseId (sha256 pdf)) := by
      rw [hfile, Generation.inserting, hdefault]
      exact .build g.reportId pdf rfl
    have hrows : ∀ q ∈ (s.setFile g.file (some pdf)).world.rows, q.reportId ≠ g.reportId := hs.rows
    have hmove : Serving.Moves artifacts
        ⟨s.world, s.published, g.admitted c (.building caseId)⟩
        ⟨(s.setFile g.file (some pdf)).world, s.published, g.inserting c caseId (sha256 pdf)⟩ :=
      ⟨_, none, hstep, (List.append_nil _).symm⟩
    simp only [EStateM.run_bind, hrun]
    exact Reaches.head hmove (finish_reaches hrows)
  · cases e with
    | http error =>
      have hrun : (buildOrClean g c).run s = .error (.http error) s := by
        rw [run_buildOrClean, hbuild]
      have hstep : ReportStep artifacts s.world (g.admitted c (.building caseId))
          (.buildRaised error) s.world none
          ((g.admitted c (.building caseId)).next (.responded (.error error))) :=
        .buildRaised error rfl
      simp only [EStateM.run_bind, hrun]
      exact reaches_fail ⟨_, none, hstep, (List.append_nil _).symm⟩ rfl
    | other text =>
      obtain ⟨error, hrun, hreaches⟩ := building_failed artifacts caseId hexists hunlink hsame
        hfile hbuild rfl
      simpa only [EStateM.run_bind, hrun] using hreaches
  · obtain ⟨error, hrun, hreaches⟩ := building_failed artifacts caseId hexists hunlink hsame hfile
      hbuild setFile_setFile
    simpa only [EStateM.run_bind, hrun] using hreaches

/-- A run is a request that goes from step to step to the same answer, and leaves the same. -/
theorem generateReport_reaches (hcase : ArtifactCaseId artifacts g.artifactId c.caseId)
    (hpath : g.reportStoragePath = "/report-storage") (hlocate : g.locate g.candidate = g.candidate)
    (hexists : c.existsCandidate = .ok ()) (hunlink : c.unlink = .returns) (hs : Fresh g s) :
    Reaches artifacts ⟨s.world, s.published, g.request⟩ ((generateReport g c).run s) := by
  have hdefault : g.storagePath = storagePath g.reportId := storagePath_default hpath
  have hfile : g.file = storagePath g.reportId := by
    rw [Generation.file, hdefault]
    exact hlocate
  have hsame : g.locate g.candidate = g.file := hlocate.trans hfile.symm
  rcases admission (s := s) hcase with ⟨caseId, ha, hadmitted⟩ | hrefused
  · have hrest := building_reaches artifacts caseId hexists hunlink hsame hdefault hfile hs
    rw [← generateReport_admitted ha] at hrest
    obtain ⟨r, hpath, hphase⟩ := hrest
    exact ⟨r, hadmitted.trans hpath, hphase⟩
  · exact hrefused

end ForensicChain.Reports
