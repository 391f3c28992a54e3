import ForensicChain.Evidence.UploadInvariant
import ForensicChain.Evidence.UploadRun
import ForensicChain.Ledger.Proof
import ForensicChain.Library.Table

/-!
An ingested artifact is backed by its ledger record and its file, in every run: the uploads have
different artifact ids, and only uploads append records of the proof kind.
-/
namespace ForensicChain.Evidence

variable {keys : HashSign.Signer} {w w' : World} {u u' : Upload} {v v' : Verification}
  {s t : State} {id : Uuid}

/-- The record type that only uploads append. -/
def IsProofCall (args : Ledger.AppendArgs) : Prop := args.recordType = "EVIDENCE_PROOF_CREATED"

structure Invariant (s : State) : Prop where
  ledger : Ledger.Provenance s.world.ledger
  ids : ∀ i j u v, s.uploads i = some u → s.uploads j = some v → u.artifactId = v.artifactId → i = j
  rows : ∀ a ∈ s.world.artifacts, ∃ i u, s.uploads i = some u ∧ a.artifactId = u.artifactId
  calls : ∀ call c, s.world.ledger.calls call = some c → IsProofCall c.args →
    ∃ i u, s.uploads i = some u ∧ u.call = some call
  uploads : ∀ i u, s.uploads i = some u → UploadInvariant s.world u

/-- A step that brings no row and no call of the proof kind. -/
theorem Invariant.setWorld (h : Invariant s) (hs : ∀ id, SameFor s.world w id)
    (hprov : Ledger.Provenance w.ledger)
    (hcalls : ∀ call c, w.ledger.calls call = some c → IsProofCall c.args →
      ∃ d, s.world.ledger.calls call = some d ∧ d.args = c.args) :
    Invariant (s.setWorld w) where
  ledger := hprov
  ids := h.ids
  rows a ha := h.rows a ((hs a.artifactId).rows a ha rfl)
  calls call c hc hp := by
    obtain ⟨d, hd, hargs⟩ := hcalls call c hc hp
    exact h.calls call d hd (hargs ▸ hp)
  uploads i u hu := (h.uploads i u hu).frame (hs u.artifactId)

theorem Invariant.startCall (h : Invariant s) {l : Ledger.State} {call : Ledger.CallId}
    {args : Ledger.AppendArgs} (hl : Ledger.Step s.world.ledger (.start call args) l)
    (hp : ¬ IsProofCall args) : Invariant (s.setWorld (s.world.setLedger l)) := by
  apply h.setWorld (fun _ => .setLedger hl) (h.ledger.step hl)
  intro k c hc hproof
  rcases Ledger.call_of_start hl hc with hc | ⟨_, rfl⟩
  · exact ⟨c, hc, rfl⟩
  · exact (hp hproof).elim

/-- A verification starts its call with the response that it has determined. -/
theorem VerificationStep.ledger_cases {y : VerificationAction}
    (h : VerificationStep keys w v y w' v') : w'.ledger = w.ledger ∨ ∃ call now r,
      y = .record call now ∧ v.phase = .recording r ∧
      Ledger.Step w.ledger (.start call (v.recordArgs r now)) w'.ledger := by
  cases h with
  | record hp hl => exact .inr ⟨_, _, _, rfl, hp, hl⟩
  | announce eventId timestamp hp hw | report eventId timestamp hp hw =>
    rcases hw with rfl | rfl <;> exact .inl rfl
  | _ => exact .inl rfl

theorem Verification.not_isProofCall (v : Verification) (r : VerificationResponse) (now : String) :
    ¬ IsProofCall (v.recordArgs r now) := by
  simp [IsProofCall, Verification.recordArgs, Ledger.appendVerificationRecord,
    Ledger.Client.appendVerificationRecord]

theorem Invariant.verification (h : Invariant s) {i : RequestId} {x : VerificationAction}
    (hs : VerificationStep keys s.world v x w v') :
    Invariant ((s.setWorld w).setVerification i v') := by
  have hworld : Invariant (s.setWorld w) := by
    rcases hs.ledger_cases with hl | ⟨call, now, r, _, _, hl⟩
    · refine h.setWorld (fun _ => hs.sameFor) (hl ▸ h.ledger) ?_
      intro k c hc _
      exact ⟨c, hl ▸ hc, rfl⟩
    · apply h.setWorld (fun _ => hs.sameFor) (h.ledger.step hl)
      intro k c hc hproof
      rcases Ledger.call_of_start hl hc with hc | ⟨_, rfl⟩
      · exact ⟨c, hc, rfl⟩
      · exact (v.not_isProofCall r now hproof).elim
  exact ⟨hworld.ledger, hworld.ids, hworld.rows, hworld.calls, hworld.uploads⟩

/-- An upload starts its call with the hash and the signature that it has received. -/
theorem UploadStep.ledger_cases {y : UploadAction} (h : UploadStep keys w u y w' u') :
    (w'.ledger = w.ledger ∧ u'.call = u.call) ∨
      ∃ call now hash alg sig, y = .append call now ∧ u.phase = .hashed hash alg sig ∧
        Ledger.Step w.ledger (.start call (u.proofArgs hash sig now)) w'.ledger ∧
        u'.call = some call := by
  cases h with
  | append hp hl => exact .inr ⟨_, _, _, _, _, rfl, hp, hl, rfl⟩
  | save hp hw | finalize hp hw | reject hp hw =>
    cases hw
    exact .inl ⟨rfl, rfl⟩
  | saveRaised error hp hw | finalizeRaised error hp hw | rejectRaised hp hw =>
    rcases hw with rfl | hw
    · exact .inl ⟨rfl, rfl⟩
    · cases hw
      exact .inl ⟨rfl, rfl⟩
  | _ => exact .inl ⟨rfl, rfl⟩

/-- An upload leaves the ledger, or starts its only call there. -/
theorem UploadStep.ledger {x : UploadAction} (hu : UploadInvariant w u)
    (h : UploadStep keys w u x w' u') : (w'.ledger = w.ledger ∧ u'.call = u.call) ∨
      ∃ call args, Ledger.Step w.ledger (.start call args) w'.ledger ∧ u.call = none ∧
        u'.call = some call := by
  rcases h.ledger_cases with hsame | ⟨call, now, hash, alg, sig, _, hp, hl, hcall⟩
  · exact .inl hsame
  · have hphase := hu.phase
    rw [PhaseInvariant, hp] at hphase
    exact .inr ⟨call, _, hl, hphase.2.1, hcall⟩

theorem Invariant.upload (h : Invariant s) {i : RequestId} {x : UploadAction}
    (hi : s.uploads i = some u) (hs : UploadStep keys s.world u x w u') :
    Invariant ((s.setWorld w).setUpload i u') := by
  have hu := h.uploads i u hi
  obtain ⟨hid, _⟩ := hs.identity
  have hledger := hs.ledger hu
  -- every upload is still there, with its id and its call
  have hkept : ∀ j v, s.uploads j = some v →
      ∃ v', Function.update s.uploads i (some u') j = some v' ∧
        v'.artifactId = v.artifactId ∧ ∀ call, v.call = some call → v'.call = some call := by
    intro j v hv
    by_cases hj : j = i
    · subst hj
      obtain rfl := Option.some.inj (hi.symm.trans hv)
      refine ⟨u', by simp, hid, ?_⟩
      intro call hcall
      rcases hledger with ⟨_, hc⟩ | ⟨_, _, _, hnone, _⟩
      · exact hc.trans hcall
      · simp [hnone] at hcall
    · exact ⟨v, by simp [Function.update_of_ne hj, hv], rfl, fun _ => id⟩
  refine ⟨?_, Table.Apart.update_same h.ids hi hid, ?_, ?_, ?_⟩
  · rcases hledger with ⟨hl, _⟩ | ⟨_, _, hl, _, _⟩
    · exact hl ▸ h.ledger
    · exact h.ledger.step hl
  · intro a ha
    by_cases hau : a.artifactId = u.artifactId
    · exact ⟨i, u', by simp [State.setUpload], hau.trans hid.symm⟩
    · obtain ⟨j, v, hv, hav⟩ := h.rows a ((hs.sameFor hau).rows a ha rfl)
      obtain ⟨v', hv', hid', _⟩ := hkept j v hv
      exact ⟨j, v', hv', hav.trans hid'.symm⟩
  · intro call c hc hp
    have hold : ∀ d, s.world.ledger.calls call = some d → IsProofCall d.args →
        ∃ j v, Function.update s.uploads i (some u') j = some v ∧ v.call = some call := by
      intro d hd hpd
      obtain ⟨j, v, hv, hcall⟩ := h.calls call d hd hpd
      obtain ⟨v', hv', _, hcall'⟩ := hkept j v hv
      exact ⟨j, v', hv', hcall' call hcall⟩
    rcases hledger with ⟨hl, _⟩ | ⟨_, _, hl, _, hcall⟩
    · exact hold c (hl ▸ hc) hp
    · rcases Ledger.call_of_start hl hc with hc | ⟨rfl, _⟩
      · exact hold c hc hp
      · exact ⟨i, u', by simp [State.setUpload], hcall⟩
  · refine Table.forall_update ?_ (hu.step h.ledger hs)
    intro j hj v hv
    refine (h.uploads j v hv).frame (hs.sameFor ?_)
    intro he
    exact hj (h.ids j i v u hv hi he)

theorem Invariant.admitUpload (h : Invariant s) {i : RequestId} {request : UploadRequest}
    (hi : s.uploads i = none) (hf : ∀ j u, s.uploads j = some u → u.artifactId ≠ id) :
    Invariant (s.setUpload i ⟨request, id, none, .opening⟩) := by
  have hkept : ∀ j v, s.uploads j = some v →
      (s.setUpload i ⟨request, id, none, .opening⟩).uploads j = some v :=
    fun j v hv => Table.update_of_free hi hv
  have hrow : NoRow s.world ⟨request, id, none, .opening⟩ := by
    intro a ha hid
    obtain ⟨j, v, hv, hav⟩ := h.rows a ha
    exact hf j v hv (hav.symm.trans hid)
  refine ⟨h.ledger, Table.Apart.update h.ids fun j v _ hv => hf j v hv, ?_, ?_, ?_⟩
  · intro a ha
    obtain ⟨j, v, hv, hav⟩ := h.rows a ha
    exact ⟨j, v, hkept j v hv, hav⟩
  · intro call c hc hp
    obtain ⟨j, v, hv, hcall⟩ := h.calls call c hc hp
    exact ⟨j, v, hkept j v hv, hcall⟩
  · exact Table.forall_update (fun j _ => h.uploads j)
      (.quiet ⟨hrow, rfl⟩ (by simp [CallKnown]) hrow.notIngested)

theorem Invariant.step {x : Action} (h : Invariant s) (hs : Step keys s x t) : Invariant t := by
  cases hs with
  | admitUpload hi hc hf => exact h.admitUpload hi hf
  | upload hu hs => exact h.upload hu hs
  | admitVerification hi ha hc hf => exact ⟨h.ledger, h.ids, h.rows, h.calls, h.uploads⟩
  | verification hv hs => exact h.verification hs
  | anchorReport reportId caseId reportHash generatedBy generatedAt hl =>
    apply h.startCall hl
    simp [IsProofCall, reportArgs, Ledger.appendProofRecord, Ledger.Client.appendReportProof]
  | ledger ha hl =>
    exact h.setWorld (fun _ => .setLedger hl) (h.ledger.step hl) fun call c hc _ =>
      Ledger.call_of_step hl ha hc

theorem invariant_reachable (h : (system keys).Reachable s) : Invariant s := by
  refine h.invariant ?_ fun _ _ _ hi hs => hi.step hs
  rintro s ⟨hrows, _, _, hl, hu, _⟩
  refine ⟨Ledger.provenance_initial hl, ?_, ?_, ?_, ?_⟩
  · simp [hu]
  · simp [hrows]
  · simp [hl.2.2.2]
  · simp [hu]

/-- The proof record of an artifact is that of the ledger call of its upload. -/
theorem Invariant.proof_upload (h : Invariant s) {q : Ledger.LedgerRecord}
    (hq : q ∈ s.world.ledger.records) (hproof : Ledger.IsEvidenceProof id q) :
    ∃ j v call c, s.uploads j = some v ∧ v.artifactId = id ∧ v.call = some call ∧
      s.world.ledger.calls call = some c ∧ c.phase = .committed q := by
  obtain ⟨k, d, hd, hdq⟩ := h.ledger.records q hq
  have hsound := h.ledger.calls k d hd
  simp only [Ledger.Call.Sound, hdq] at hsound
  have htype : IsProofCall d.args := by
    have hlt : q.recordType.length < 64 := by
      rw [hproof.2]
      decide
    exact (Postgres.eq_of_varchar_lt hlt hsound.recordType).symm.trans hproof.2
  obtain ⟨j, v, hv, hvcall⟩ := h.calls k d hd htype
  obtain ⟨d', hash, sig, now, hd', hargs⟩ := (h.uploads j v hv).call k hvcall
  obtain rfl := Option.some.inj (hd.symm.trans hd')
  -- the call names the artifact of its upload
  have hparse : Uuid.parse v.artifactId.str = some q.artifactId := by
    have hart := hsound.artifactId
    rwa [hargs] at hart
  rw [Uuid.parse_str] at hparse
  exact ⟨j, v, k, d, hv, (Option.some.inj hparse).trans hproof.1, hvcall, hd, hdq⟩

theorem Invariant.proof_unique (h : Invariant s) {i : RequestId} {call : Ledger.CallId}
    {c : Ledger.Call} {r q : Ledger.LedgerRecord} (hi : s.uploads i = some u)
    (hcall : u.call = some call) (hc : s.world.ledger.calls call = some c)
    (hr : c.phase = .committed r) (hq : q ∈ s.world.ledger.records)
    (hproof : Ledger.IsEvidenceProof u.artifactId q) : q = r := by
  obtain ⟨j, v, k, d, hv, hvu, hvcall, hd, hdq⟩ := h.proof_upload hq hproof
  obtain rfl := h.ids j i v u hv hi hvu
  obtain rfl := Option.some.inj (hv.symm.trans hi)
  obtain rfl := Option.some.inj (hvcall.symm.trans hcall)
  obtain rfl := Option.some.inj (hd.symm.trans hc)
  exact Ledger.Phase.committed.inj (hdq.symm.trans hr)

/-- In every run, an ingested artifact has exactly one proof record, with the same columns, and its
file holds the uploaded bytes that were hashed. -/
theorem ingested_artifact_backed (h : (system keys).Reachable s) :
    ∀ a ∈ s.world.artifacts, a.status = .ingested → ∃ r i u,
      s.world.ledger.records.filter (Ledger.IsEvidenceProof a.artifactId) = [r] ∧
      a.ledgerRecordId = some r.recordId ∧ r.caseId = a.caseId ∧ r.hashValue = a.hashValue ∧
      r.signatureValue = a.signatureValue ∧
      s.uploads i = some u ∧ u.artifactId = a.artifactId ∧
      s.world.files a.storagePath = some u.request.content ∧
      a.fileSize = u.request.content.length ∧ a.hashValue = some (sha256 u.request.content) := by
  intro a ha hingested
  have hinv := invariant_reachable h
  obtain ⟨i, u, hi, hau⟩ := hinv.rows a ha
  obtain ⟨hfile, ⟨hsize, hpath, _⟩, hhash, call, c, r, hcall, hc, hr, hrecord, hcase, hrh, hrs⟩ :=
    (hinv.uploads i u hi).backed a ha hau hingested
  have hmem : r ∈ s.world.ledger.records := hinv.ledger.committed call c r hc hr
  have hproof : Ledger.IsEvidenceProof a.artifactId r := by
    obtain ⟨c', hash, sig, now, hc', hargs⟩ := (hinv.uploads i u hi).call call hcall
    obtain rfl := Option.some.inj (hc.symm.trans hc')
    have hsound := hinv.ledger.calls call c hc
    simp only [Ledger.Call.Sound, hr, hargs] at hsound
    have hart : Uuid.parse u.artifactId.str = some r.artifactId := hsound.artifactId
    rw [Uuid.parse_str] at hart
    refine ⟨(Option.some.inj hart).symm.trans hau.symm, ?_⟩
    exact Postgres.eq_of_varchar (n := 64) (by decide) hsound.recordType
  have hnodup : (s.world.ledger.records.filter (Ledger.IsEvidenceProof a.artifactId)).Nodup :=
    (List.Nodup.of_map _ hinv.ledger.recordIds).filter _
  have hone : s.world.ledger.records.filter (Ledger.IsEvidenceProof a.artifactId) = [r] := by
    refine List.perm_singleton.mp
      ((List.perm_ext_iff_of_nodup hnodup (List.nodup_singleton r)).mpr ?_)
    intro q
    rw [List.mem_filter, List.mem_singleton]
    constructor
    · rintro ⟨hq, hqp⟩
      exact hinv.proof_unique hi hcall hc hr hq (hau ▸ of_decide_eq_true hqp)
    · rintro rfl
      exact ⟨hmem, decide_eq_true hproof⟩
  exact ⟨r, i, u, hone, hrecord, hcase, hrh, hrs, hi, hau.symm, hpath ▸ hfile, hsize, hhash⟩

theorem sample_artifact_backed : ∃ s a r u, (system HashSign.plainKeys).Reachable s ∧
    a ∈ s.world.artifacts ∧ a.status = .ingested ∧
    s.world.ledger.records.filter (Ledger.IsEvidenceProof a.artifactId) = [r] ∧
    a.ledgerRecordId = some r.recordId ∧ r.hashValue = a.hashValue ∧
    s.world.files a.storagePath = some (Upload.request u).content := by
  obtain ⟨s, a, hs, ha, hingested⟩ := sample_ingested_run
  obtain ⟨r, i, u, hone, hrecord, _, hhash, _, _, _, hfile, _⟩ :=
    ingested_artifact_backed hs a ha hingested
  exact ⟨s, a, r, u, hs, ha, hingested, hone, hrecord, hhash, hfile⟩

end ForensicChain.Evidence
