import ForensicChain.Evidence.CaseRows
import ForensicChain.Reports.Requests

/-!
A report carries the case of its artifact, and a request that goes on after its check is one of a
caller who is assigned to the case.
-/
namespace ForensicChain.Reports

open Evidence (CaseOf CaseRows Attributed attributed_of_parse)

variable {artifacts artifacts' : List Evidence.Artifact} {w w' : World}
  {reports reports' : List Report}
  {r r' : ReportRequest} {x : ReportAction} {published : Option Custody.Envelope} {report : Report}
  {c : String}

/-- The row names the case of its artifact. -/
def Placed (artifacts : List Evidence.Artifact) (report : Report) : Prop :=
  ∃ c, report.caseId = some c ∧ CaseOf artifacts report.artifactId c

/-- Every report has its own id and the case of its artifact. -/
structure Consistent (artifacts : List Evidence.Artifact) (rows : List Report) : Prop where
  ids : (rows.map Report.reportId).Nodup
  placed : ∀ report ∈ rows, Placed artifacts report

def ReportCall.artifactId : ReportCall → Option String
  | .generate artifactId | .listByArtifact artifactId => some artifactId
  | _ => none

def ReportCall.reportId : ReportCall → Option String
  | .metadata reportId | .download reportId | .verify reportId => some reportId
  | _ => none

/-- The call is about the row. -/
def ReportCall.Names (call : ReportCall) (report : Report) : Prop :=
  ∃ reportId, call.reportId = some reportId ∧ Postgres.uuid reportId = some report.reportId

/-- The case is that of the artifact that the call is about. -/
def Resolved (artifacts : List Evidence.Artifact) (r : ReportRequest) (caseId : String) : Prop :=
  ∀ artifactId id, r.call.artifactId = some artifactId → Postgres.uuid artifactId = some id →
    CaseOf artifacts id caseId

/-- The case is in the list that was returned for the caller. -/
def Granted (r : ReportRequest) (caseId : Option String) : Prop :=
  ∃ assigned, r.assigned = some assigned ∧ CaseIn caseId assigned

theorem Granted.caseIn {caseId : Option String} {assigned : List String} (h : Granted r caseId)
    (ha : r.assigned = some assigned) : CaseIn caseId assigned := by
  obtain ⟨list, hlist, hin⟩ := h
  obtain rfl := Option.some.inj (ha.symm.trans hlist)
  exact hin

/-- Whatever the answer tells of a report, its case was granted. -/
def Inside (rows : List Report) (r : ReportRequest) : ReportAnswer → Prop
  | .generated out | .metadata out => Granted r out.caseId
  | .reports outs => (∃ assigned, r.assigned = some assigned) ∧ ∀ out ∈ outs, Granted r out.caseId
  | .file _ _ | .verified _ => ∃ report ∈ rows, r.call.Names report ∧ Granted r report.caseId

def RequestInvariant (artifacts : List Evidence.Artifact) (rows : List Report)
    (r : ReportRequest) : Prop :=
  match r.phase with
  | .resolving artifactId => r.call.artifactId = some artifactId
  | .authorising caseId => Resolved artifacts r caseId
  | .building caseId | .inserting caseId _ _ _ | .listing caseId =>
      Resolved artifacts r caseId ∧ Granted r (some caseId)
  | .loading reportId => r.call.reportId = some reportId
  | .checking report => report ∈ rows ∧ r.call.Names report
  | .reading report => report ∈ rows ∧ r.call.Names report ∧ Granted r report.caseId
  | .publishing n answer => Attributed artifacts n.artifactId n.caseId ∧ Inside rows r answer
  | .responded (.ok answer) => Inside rows r answer
  | .responded (.error _) | .stopped => True

theorem Inside.mono {answer : ReportAnswer} (h : Inside reports r answer)
    (hrows : reports ⊆ reports') : Inside reports' r answer := by
  cases answer with
  | file | verified =>
    obtain ⟨report, hmem, hrest⟩ := h
    exact ⟨report, hrows hmem, hrest⟩
  | _ => exact h

theorem Resolved.mono (h : Resolved artifacts r c)
    (hcases : ∀ {id c}, CaseOf artifacts id c → CaseOf artifacts' id c) :
    Resolved artifacts' r c := fun text id ht hid => hcases (h text id ht hid)

/-- A request relies on cases that do not change and on rows that stay. -/
theorem RequestInvariant.mono (h : RequestInvariant artifacts reports r)
    (hcases : ∀ {id c}, CaseOf artifacts id c → CaseOf artifacts' id c)
    (hrows : reports ⊆ reports') : RequestInvariant artifacts' reports' r := by
  unfold RequestInvariant at h ⊢
  split at h
  · exact h
  · exact h.mono hcases
  · exact h.imp_left fun h => h.mono hcases
  · exact h.imp_left fun h => h.mono hcases
  · exact h.imp_left fun h => h.mono hcases
  · exact h
  · exact ⟨hrows h.1, h.2⟩
  · exact ⟨hrows h.1, h.2⟩
  · exact ⟨h.1.mono hcases, h.2.mono hrows⟩
  · exact h.mono hrows
  · trivial
  · trivial

theorem Placed.mono (h : Placed artifacts report)
    (hcases : ∀ {id c}, CaseOf artifacts id c → CaseOf artifacts' id c) :
    Placed artifacts' report := by
  obtain ⟨c, hc, hcase⟩ := h
  exact ⟨c, hc, hcases hcase⟩

/-- Rows only come in, by the insert of a new report. -/
theorem ReportStep.rows (h : ReportStep artifacts w r x w' published r') : w'.rows = w.rows ∨
    ∃ artifactId caseId reportId reportHash path report,
      r.phase = .inserting caseId reportId reportHash path ∧ r.call = .generate artifactId ∧
      Inserts w r artifactId caseId reportId reportHash path report w' := by
  cases h with
  | insert hp hc hw => exact .inr ⟨_, _, _, _, _, _, hp, hc, hw⟩
  | insertRaised hp hc hw =>
    rcases hw with rfl | hw
    · exact .inl rfl
    · exact .inr ⟨_, _, _, _, _, _, hp, hc, hw⟩
  | _ => exact .inl rfl

/-- The new row has the case that was resolved for its artifact. -/
theorem Inserts.placed {artifactId caseId reportHash path : String} {reportId : Uuid}
    (h : Inserts w r artifactId caseId reportId reportHash path report w')
    (hrows : CaseRows artifacts) (hc : r.call = .generate artifactId)
    (hres : Resolved artifacts r caseId) :
    report.caseId = some caseId ∧ CaseOf artifacts report.artifactId caseId := by
  obtain ⟨generatedAt, hr, hk⟩ := h
  obtain ⟨_, hart, ⟨d, hcase, hd⟩, _, _⟩ := insertReport_eq_some hr
  have hown : CaseOf artifacts report.artifactId caseId :=
    hres artifactId report.artifactId (by rw [hc]; rfl) hart
  obtain rfl : d = caseId := Option.some.inj (hcase.symm.trans (hrows.fit hown))
  exact ⟨hd, hown⟩

theorem ReportCall.authorised_cases (call : ReportCall) :
    call.authorised c = .building c ∨ call.authorised c = .listing c := by
  cases call with
  | generate => exact .inl rfl
  | _ => exact .inr rfl

theorem ReportCall.granted_cases (call : ReportCall) : call.granted report = .reading report ∨
    call.granted report = .responded (.ok (.metadata (reportOut report))) := by
  cases call with
  | metadata => exact .inr rfl
  | _ => exact .inl rfl

theorem ReportStep.consistent (h : ReportStep artifacts w r x w' published r')
    (hrows : CaseRows artifacts) (hw : Consistent artifacts w.rows)
    (hr : RequestInvariant artifacts w.rows r) :
    Consistent artifacts w'.rows ∧ w.rows ⊆ w'.rows := by
  rcases h.rows with hsame | ⟨artifactId, caseId, reportId, hash, path, report, hp, hc, hins⟩
  · rw [hsame]
    exact ⟨hw, List.Subset.refl _⟩
  · rw [RequestInvariant, hp] at hr
    obtain ⟨hcase, hown⟩ := hins.placed hrows hc hr.1
    obtain ⟨generatedAt, hrow, hk⟩ := hins
    refine ⟨⟨?_, ?_⟩, List.subset_append_left _ _⟩
    · simp only [World.addReport, List.map_append, List.map_cons, List.map_nil]
      exact hw.ids.append (List.nodup_singleton _) (by simpa using hk)
    · intro q hq
      rcases List.mem_append.mp hq with hq | hq
      · exact hw.placed q hq
      · rw [List.mem_singleton.mp hq]
        exact ⟨caseId, hcase, hown⟩

theorem RequestInvariant.authorise {assigned : List String} {caseId : Option String}
    {phase : ReportPhase}
    (h : CaseIn caseId assigned →
      RequestInvariant artifacts reports { r with assigned := some assigned, phase := phase }) :
    RequestInvariant artifacts reports (r.authorise assigned caseId phase) := by
  unfold ReportRequest.authorise
  split_ifs with hc
  · exact h hc
  · trivial

/-- A request that makes a step keeps what it relies on. -/
theorem RequestInvariant.step (h : RequestInvariant artifacts w.rows r)
    (hrows : CaseRows artifacts) (hw : Consistent artifacts w.rows)
    (hs : ReportStep artifacts w r x w' published r') : RequestInvariant artifacts w'.rows r' := by
  unfold RequestInvariant at h
  cases hs with
  | resolve hp hc hne =>
    rename_i text caseId
    rw [hp] at h
    intro text' id ht hid
    obtain rfl := Option.some.inj (h.symm.trans ht)
    exact hc.artifact hid
  | assign assigned hp =>
    rename_i caseId
    rw [hp] at h
    refine .authorise fun hin => ?_
    unfold RequestInvariant
    rcases r.call.authorised_cases with hphase | hphase <;> rw [hphase]
    · exact ⟨h, assigned, rfl, hin⟩
    · exact ⟨h, assigned, rfl, hin⟩
  | build reportId pdf hp =>
    rw [hp] at h
    exact h
  | insert hp hc hins =>
    rw [hp] at h
    obtain ⟨hcase, hown⟩ := hins.placed hrows hc h.1
    obtain ⟨generatedAt, hrow, hk⟩ := hins
    have hart := (insertReport_eq_some hrow).artifactId
    have hgranted : Granted r (reportOut _).caseId := hcase.symm ▸ h.2
    refine ⟨?_, hgranted⟩
    rw [generatedAnnouncement, hcase]
    exact attributed_of_parse (Postgres.uuid_eq_some hart).2 hown
  | list hp hc hf =>
    rw [hp] at h
    obtain ⟨id, hid, hperm, _⟩ := hf
    obtain ⟨hresolved, assigned, hassigned, hin⟩ := h
    refine ⟨⟨assigned, hassigned⟩, ?_⟩
    intro out hout
    obtain ⟨report, hmem, rfl⟩ := List.mem_map.mp hout
    obtain ⟨hrow, hart⟩ := List.mem_filter.mp (hperm.mem_iff.mp hmem)
    obtain rfl : report.artifactId = id := of_decide_eq_true hart
    obtain ⟨d, hd, hplaced⟩ := hw.placed report hrow
    have hown := hresolved _ _ (by rw [hc]; rfl) hid
    obtain rfl := hrows.one _ _ _ hplaced hown
    have hgranted : CaseIn report.caseId assigned := by
      rw [hd]
      exact hin
    exact ⟨assigned, hassigned, hgranted⟩
  | load hp hr =>
    rw [hp] at h
    obtain ⟨hmem, hid⟩ := getReport_eq_some hr
    exact ⟨hmem, _, h, hid⟩
  | check assigned hp =>
    rename_i report
    rw [hp] at h
    refine .authorise fun hin => ?_
    unfold RequestInvariant
    rcases r.call.granted_cases with hphase | hphase <;> rw [hphase]
    · exact ⟨h.1, h.2, assigned, rfl, hin⟩
    · exact ⟨assigned, rfl, hin⟩
  | readDownload hp hc hf | readVerify verifiedAt hp hc hf =>
    rw [hp] at h
    obtain ⟨hmem, hnames, hgranted⟩ := h
    obtain ⟨d, hd, hplaced⟩ := hw.placed _ hmem
    refine ⟨?_, _, hmem, hnames, hgranted⟩
    first | rw [downloadedAnnouncement, hd] | rw [verifiedAnnouncement, hd]
    exact attributed_of_parse (Uuid.parse_str _) hplaced
  | publish eventId timestamp hp =>
    rw [hp] at h
    exact h.2
  | resolveMissing | buildRaised | buildFailed | insertRaised | loadMissing | readMissing
  | publishRaised | raised | stop => trivial

/-- What is published of a report is said of the case of its artifact. -/
theorem RequestInvariant.event {env : Custody.Envelope} (h : RequestInvariant artifacts w.rows r)
    (hs : ReportStep artifacts w r x w' (some env) r') :
    Attributed artifacts env.artifactId env.caseId := by
  unfold RequestInvariant at h
  cases hs with
  | publish eventId timestamp hp =>
    rw [hp] at h
    exact h.1
  | publishRaised hp he =>
    obtain ⟨eventId, timestamp, rfl⟩ := he env rfl
    rw [hp] at h
    exact h.1

end ForensicChain.Reports
