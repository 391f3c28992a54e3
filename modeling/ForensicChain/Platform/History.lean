import ForensicChain.Custody.Timeline
import ForensicChain.Platform.Documentation

/-!
What is on record stays on record, whatever the services do next: the ledger, the outbox, the
custody table and the reports only grow, and the row and the file of an upload that has ended stay
as they are.
-/
namespace ForensicChain.Platform

open Custody
open Evidence (Artifact RequestId Upload UploadAction UploadStep World)
open Pipeline (payloads)

variable {fromisoformat : String → Option Timestamp} {keys : HashSign.Signer} {s t u : State}
  {x : Action} {w w' : World} {v v' : Upload} {i : RequestId} {id : Uuid} {artifactId : Uuid}

/-- The handler has answered, or its process has ended. -/
def Ended (v : Upload) : Prop := (∃ answer, v.phase = .responded answer) ∨ v.phase = .stopped

/-- Rows and file of an artifact are the same. -/
structure Frozen (w w' : World) (id : Uuid) : Prop where
  rows : ∀ a : Artifact, a.artifactId = id → (a ∈ w'.artifacts ↔ a ∈ w.artifacts)
  file : w'.files (Evidence.storagePath id) = w.files (Evidence.storagePath id)

theorem Frozen.refl : Frozen w w id := ⟨fun _ _ => Iff.rfl, rfl⟩

theorem Frozen.trans {w'' : World} (h : Frozen w w' id) (h' : Frozen w' w'' id) :
    Frozen w w'' id :=
  ⟨fun a ha => (h'.rows a ha).trans (h.rows a ha), h'.file.trans h.file⟩

theorem Ended.step {y : UploadAction} (h : Ended v) (hs : UploadStep keys w v y w' v') :
    w' = w ∧ Ended v' := by
  have hnot : ∀ phase, v.phase = phase → (∀ answer, phase ≠ .responded answer) →
      phase ≠ .stopped → False := by
    rintro _ rfl hresponded hstopped
    rcases h with ⟨answer, ha⟩ | ha
    · exact hresponded answer ha
    · exact hstopped ha
  cases hs with
  | stop => exact ⟨rfl, .inr rfl⟩
  | writeRaised _ _ hp =>
    rcases hp with hp | ⟨_, _, hp⟩ <;> exact (hnot _ hp (by simp) (by simp)).elim
  | appendFailed _ hp => rcases hp with hp | hp <;> exact (hnot _ hp (by simp) (by simp)).elim
  | _ => exact (hnot _ ‹_› (by simp) (by simp)).elim

/-- The upload of another artifact leaves rows and file. -/
theorem frozen_of_upload {y : UploadAction} (hs : UploadStep keys w v y w' v')
    (hid : id ≠ v.artifactId) : Frozen w w' id := by
  have hsame := hs.sameFor hid
  refine ⟨fun a ha => ⟨fun hmem => hsame.rows a hmem ha, fun hmem => ?_⟩, hsame.file⟩
  exact hs.keeps_row hmem (ha ▸ hid)

/-- What a step leaves of an upload that has ended. -/
structure Settled (s t : Evidence.State) (i : RequestId) (v : Upload) : Prop where
  upload : ∃ v', t.uploads i = some v' ∧ Ended v' ∧ v'.artifactId = v.artifactId
  frozen : Frozen s.world t.world v.artifactId

theorem settled_step {s t : Evidence.State} {x : Evidence.Action} (hi : Evidence.Invariant s)
    (hs : Evidence.Step keys s x t) (hv : s.uploads i = some v) (he : Ended v) :
    Settled s t i v := by
  have hkept : t.uploads i = some v → ∃ v', t.uploads i = some v' ∧ Ended v' ∧
      v'.artifactId = v.artifactId := fun h => ⟨v, h, he, rfl⟩
  cases hs with
  | admitUpload hnone hc hf => exact ⟨hkept (Table.update_of_free hnone hv), .refl⟩
  | @upload j r y w r' hr hs =>
    by_cases hj : i = j
    · subst hj
      obtain rfl := Option.some.inj (hr.symm.trans hv)
      obtain ⟨rfl, he'⟩ := he.step hs
      exact ⟨⟨r', by simp, he', hs.identity.1⟩, .refl⟩
    · have hid : v.artifactId ≠ r.artifactId := fun h => hj (hi.ids i j v r hv hr h)
      refine ⟨hkept ?_, frozen_of_upload hs hid⟩
      simpa [Evidence.State.setUpload, Evidence.State.setWorld, Function.update_of_ne hj] using hv
  | verification hr hs =>
    have hrows := hs.artifacts
    exact ⟨hkept hv, fun _ _ => by rw [← hrows]; exact Iff.rfl, hs.sameFor.file⟩
  | admitVerification => exact ⟨hkept hv, .refl⟩
  | anchorReport _ _ _ _ _ hl | ledger _ hl => exact ⟨hkept hv, fun _ _ => Iff.rfl, rfl⟩

theorem records_step {s t : Evidence.State} {x : Evidence.Action}
    (hs : Evidence.Step keys s x t) : s.world.ledger.records <+: t.world.ledger.records := by
  rcases hs.ledger_cases with hsame | ⟨_, _, hl⟩
  · exact hsame ▸ List.prefix_refl _
  · cases Ledger.step_effect hl with
    | quiet _ _ hrecords =>
      exact hrecords ▸ List.prefix_refl _
    | commit _ _ hrecords =>
      rw [hrecords]
      exact List.prefix_append _ _

theorem payloads_prefix {p q : Pipeline.State} {a : Pipeline.Action}
    (hs : Pipeline.Step fromisoformat p a q) : payloads p <+: payloads q := by
  rcases Pipeline.payloads_step hs with ⟨hsame, _⟩ | ⟨row, _, hrows⟩
  · exact hsame ▸ List.prefix_refl _
  · rw [hrows]
    exact List.prefix_append _ _

theorem events_prefix {p q : Pipeline.State} {a : Pipeline.Action}
    (hs : Pipeline.Step fromisoformat p a q) : p.store.events <+: q.store.events := by
  cases hs with
  | process _ _ _ hp | processCommitted _ _ _ hp =>
    cases processMessage_eq_some hp with
    | duplicate => exact List.prefix_refl _
    | stored => exact List.prefix_append _ _
  | _ => exact List.prefix_refl _

theorem reports_prefix {artifacts : List Artifact} {w w' : Reports.World}
    {r r' : Reports.ReportRequest} {a : Reports.ReportAction} {published : Option Envelope}
    (hs : Reports.ReportStep artifacts w r a w' published r') : w.rows <+: w'.rows := by
  cases hs with
  | insert _ _ hw =>
    cases hw
    exact List.prefix_append _ _
  | insertRaised _ _ hw =>
    rcases hw with rfl | hw
    · exact List.prefix_refl _
    · cases hw
      exact List.prefix_append _ _
  | _ => exact List.prefix_refl _

/-- The later state still has what was on record in the earlier one. -/
structure Kept (s t : State) : Prop where
  records : s.evidence.world.ledger.records <+: t.evidence.world.ledger.records
  payloads : payloads s.pipeline <+: payloads t.pipeline
  events : s.pipeline.store.events <+: t.pipeline.store.events
  reports : s.reports.rows <+: t.reports.rows
  uploads : ∀ i v, s.evidence.uploads i = some v → Ended v → Settled s.evidence t.evidence i v

theorem Kept.refl (s : State) : Kept s s where
  records := List.prefix_refl _
  payloads := List.prefix_refl _
  events := List.prefix_refl _
  reports := List.prefix_refl _
  uploads _ v hv he := ⟨⟨v, hv, he, rfl⟩, .refl⟩

theorem Kept.trans (h : Kept s t) (h' : Kept t u) : Kept s u where
  records := h.records.trans h'.records
  payloads := h.payloads.trans h'.payloads
  events := h.events.trans h'.events
  reports := h.reports.trans h'.reports
  uploads i v hv he := by
    obtain ⟨⟨v', hv', he', hid⟩, hfrozen⟩ := h.uploads i v hv he
    obtain ⟨⟨v'', hv'', he'', hid'⟩, hfrozen'⟩ := h'.uploads i v' hv' he'
    exact ⟨⟨v'', hv'', he'', hid'.trans hid⟩, hfrozen.trans (hid ▸ hfrozen')⟩

theorem kept_step (hr : (system fromisoformat keys).Reachable s)
    (hs : Step fromisoformat keys s x t) : Kept s t := by
  have hsame := Kept.refl s
  have huploads := fun {e} {y} (hs : Evidence.Step keys s.evidence y e) i v =>
    settled_step (i := i) (v := v) (Evidence.invariant_reachable (evidence_reachable hr)) hs
  cases hs with
  | evidence hs => exact { hsame with records := records_step hs, uploads := huploads hs }
  | evidenceWrites id createdAt hs ho hp =>
    exact {
      records := records_step hs
      payloads := payloads_prefix hp
      events := events_prefix hp
      reports := hsame.reports
      uploads := huploads hs }
  | access id createdAt hi ha hp =>
    exact { hsame with payloads := payloads_prefix hp, events := events_prefix hp }
  | pipeline ha hp =>
    exact { hsame with payloads := payloads_prefix hp, events := events_prefix hp }
  | report hi hs => exact { hsame with reports := reports_prefix hs }
  | reportPublishes tag hi hs hp =>
    exact {
      records := hsame.records
      payloads := payloads_prefix hp
      events := events_prefix hp
      reports := reports_prefix hs
      uploads := hsame.uploads }
  | load | endAccess | admitReport => exact { hsame with }

theorem kept_path (h : (system fromisoformat keys).Reachable s)
    (hp : (system fromisoformat keys).Path (fun _ _ => True) s t) : Kept s t :=
  hp.invariant_of_reachable h (.refl s) fun _ _ _ hr hk hs => hk.trans (kept_step hr hs)

/-- Whatever the services do: no record of the ledger, event of the outbox or report is ever taken
back or changed, a custody timeline only gains events, and the row and the file of an upload that
has ended stay as they are. -/
theorem history_kept (h : (system fromisoformat keys).Reachable s)
    (hp : (system fromisoformat keys).Path (fun _ _ => True) s t) :
    s.evidence.world.ledger.records <+: t.evidence.world.ledger.records ∧
    payloads s.pipeline <+: payloads t.pipeline ∧
    (∀ artifactId, (getTimeline s.pipeline.store.events artifactId).Sublist
      (getTimeline t.pipeline.store.events artifactId)) ∧
    s.reports.rows <+: t.reports.rows ∧
    ∀ i v, s.evidence.uploads i = some v → Ended v →
      Frozen s.evidence.world t.evidence.world v.artifactId := by
  have hkept := kept_path h hp
  refine ⟨hkept.records, hkept.payloads, fun artifactId => ?_, hkept.reports,
    fun i v hv he => (hkept.uploads i v hv he).frozen⟩
  exact OrderBy.insertionSort_sublist (hkept.events.sublist.filter _)

/-- The pipeline alone goes on. -/
theorem pipeline_path {ok : Pipeline.State → Pipeline.Action → Prop} {p : Pipeline.State}
    (hok : ∀ q a, ok q a → Pipeline.Internal a)
    (hp : (Pipeline.system fromisoformat).Path ok s.pipeline p) :
    (system fromisoformat keys).Path (fun _ _ => True) s (s.setPipeline p) := by
  induction hp with
  | refl => exact .refl
  | step _ ha hs ih => exact ih.step trivial (.pipeline (hok _ _ ha) hs)

/-- The event of an ingestion is still in the outbox once the custody table shows it. -/
theorem sample_history : ∃ s t : State,
    (system DateTime.fromisoformat HashSign.plainKeys).Reachable s ∧
    getTimeline s.pipeline.store.events Evidence.sampleId = [] ∧
    getTimeline t.pipeline.store.events Evidence.sampleId = [sampleIngestionEvent] ∧
    [.ofJson sampleIngestion.toJson] <+: payloads t.pipeline := by
  obtain ⟨w, _, hwrote⟩ := sample_written_run
  obtain ⟨text, hstored⟩ := sampleIngestion_processed
  obtain ⟨p, hpath, hstore, _⟩ := Pipeline.stored_path rfl hstored
  let u := (State.ofEvidence w).setPipeline
    { Pipeline.State.empty with outbox := [Pipeline.outboxRow 1 sampleIngestion 0] }
  have hrun : (system DateTime.fromisoformat HashSign.plainKeys).Path (fun _ _ => True) u
      (u.setPipeline p) := pipeline_path (fun _ _ => id) hpath
  refine ⟨_, _, hwrote, rfl, ?_, (history_kept hwrote hrun).2.1⟩
  show getTimeline p.store.events _ = _
  rw [hstore]
  exact getTimeline_singleton rfl

end ForensicChain.Platform
