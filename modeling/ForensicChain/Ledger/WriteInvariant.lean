import ForensicChain.Ledger.Client
import ForensicChain.Ledger.SoloAppend
import ForensicChain.Library.Table

/-!
The write invariant of the ledger. A call that has read the head of its case holds the lock of
the case's state row until it ends, so the head it read is still the last one at its commit.
-/
namespace ForensicChain.Ledger

variable {s t : State} {i j : CallId} {c d : Call} {a : Action} {key : String}
  {p : Option String}

/-- A lock taken on a free row takes none from another call. -/
theorem State.lock_of_held (hf : s.Free i key) (hij : j ≠ i) {k : String}
    (hk : s.locks k = some j) : (s.lock i key).locks k = some j := by
  have hne : k ≠ key := by
    rintro rfl
    rcases hf with hf | hf <;> simp_all
  simpa [State.lock, Function.update, hne] using hk

theorem State.unlock_of_held (hij : j ≠ i) {k : String} (hk : s.locks k = some j) :
    (s.unlock i).locks k = some j := by
  simp [State.unlock, hk, hij]

/-- The chain of a case is sound and its state row names the last record. -/
def CaseInvariant (s : State) (caseId : String) : Prop :=
  Chained (caseRecords s.records caseId) ∧
    (s.heads caseId).join = lastHash (caseRecords s.records caseId)

/-- A record that continues the chain of a case from its present head. -/
def Extends (s : State) (caseId : String) (r : LedgerRecord) : Prop :=
  r.caseId = caseId ∧ r.previousRecordHash = lastHash (caseRecords s.records caseId) ∧
    r.HashesMatch

/-- The state row of the call's case is committed, or the call has inserted it itself. -/
def RowKnown (s : State) (i : CallId) (c : Call) : Prop :=
  (c.writes = [] ∧ (s.heads c.args.caseId).isSome) ∨
    (c.writes = [(c.args.caseId, none)] ∧ s.locks c.args.caseId = some i ∧
      s.heads c.args.caseId = none)

/-- What a call relies on between two of its statements. -/
def CallInvariant (s : State) (i : CallId) (c : Call) : Prop :=
  match c.phase with
  | .opened | .committed _ | .failed _ => c.writes = []
  | .ensured => RowKnown s i c
  | .locked previous => RowKnown s i c ∧ s.locks c.args.caseId = some i ∧
      previous = lastHash (caseRecords s.records c.args.caseId)
  | .built r => RowKnown s i c ∧ s.locks c.args.caseId = some i ∧ Extends s c.args.caseId r
  | .advanced r => s.locks c.args.caseId = some i ∧ Extends s c.args.caseId r ∧
      c.writes.lookup c.args.caseId = some (some r.recordHash) ∧
      ∀ w ∈ c.writes, w.1 = c.args.caseId

structure Invariant (s : State) : Prop where
  cases : ∀ caseId, CaseInvariant s caseId
  calls : ∀ i c, s.calls i = some c →
    Postgres.Verbatim 64 c.args.caseId ∧ CallInvariant s i c

/-- The steps by which a call with a case id that its column keeps as given may start. -/
def VerbatimCase : State → Action → Prop
  | _, .start _ args => Postgres.Verbatim 64 args.caseId
  | _, _ => True

/-- A call relies only on the row that it holds, and on a committed row staying. -/
theorem CallInvariant.frame (h : CallInvariant s i c)
    (hheld : s.locks c.args.caseId = some i → t.locks c.args.caseId = some i ∧
      t.heads c.args.caseId = s.heads c.args.caseId ∧
      caseRecords t.records c.args.caseId = caseRecords s.records c.args.caseId)
    (hrow : (s.heads c.args.caseId).isSome → (t.heads c.args.caseId).isSome) :
    CallInvariant t i c := by
  have hknown : RowKnown s i c → RowKnown t i c := by
    rintro (⟨hw, hh⟩ | ⟨hw, hl, hh⟩)
    · exact .inl ⟨hw, hrow hh⟩
    · exact .inr ⟨hw, (hheld hl).1, (hheld hl).2.1.trans hh⟩
  unfold CallInvariant at h ⊢
  split at h
  · exact h
  · exact h
  · exact h
  · exact hknown h
  · obtain ⟨hk, hl, hp⟩ := h
    obtain ⟨hl', _, hr⟩ := hheld hl
    exact ⟨hknown hk, hl', hr ▸ hp⟩
  · obtain ⟨hk, hl, hx⟩ := h
    obtain ⟨hl', _, hr⟩ := hheld hl
    exact ⟨hknown hk, hl', by simpa only [Extends, hr] using hx⟩
  · obtain ⟨hl, hx, hw⟩ := h
    obtain ⟨hl', _, hr⟩ := hheld hl
    exact ⟨hl', by simpa only [Extends, hr] using hx, hw⟩

/-- A step that commits nothing keeps the cases; it has to account for its own call only. -/
theorem Invariant.of_local (h : Invariant s) (hrec : t.records = s.records)
    (hheads : t.heads = s.heads) (hcalls : t.calls = Function.update s.calls i (some c))
    (hlocks : ∀ j k, j ≠ i → s.locks k = some j → t.locks k = some j)
    (hv : Postgres.Verbatim 64 c.args.caseId) (hc : CallInvariant t i c) : Invariant t := by
  constructor
  · intro caseId
    simpa only [CaseInvariant, hrec, hheads] using h.cases caseId
  · rw [hcalls]
    refine Table.forall_update (fun j hij d hd => ?_) ⟨hv, hc⟩
    obtain ⟨hvd, hinv⟩ := h.calls j d hd
    refine ⟨hvd, hinv.frame ?_ ?_⟩
    · intro hl
      exact ⟨hlocks j _ hij hl, by rw [hheads], by rw [hrec]⟩
    · rw [hheads]
      exact id

/-- The call sees its state row, and the row names the head of the case. -/
theorem RowKnown.visible (h : RowKnown s i c)
    (hc : (s.heads c.args.caseId).join = p) : s.visible c c.args.caseId = some p := by
  rcases h with ⟨hw, hh⟩ | ⟨hw, _, hh⟩
  · obtain ⟨head, hh⟩ := Option.isSome_iff_exists.mp hh
    simpa [State.visible, hw, hh] using hc
  · simpa [State.visible, hw, hh] using hc

theorem RowKnown.lock (h : RowKnown s i c) : RowKnown (s.lock i c.args.caseId) i c := by
  rcases h with h | ⟨hw, _, hh⟩
  · exact .inl h
  · exact .inr ⟨hw, by simp [State.lock], hh⟩

theorem newRecord_extends (args : AppendArgs) (artifactId recordId : Uuid) (now : Timestamp) :
    Extends s args.caseId (newRecord args artifactId (lastHash (caseRecords s.records args.caseId))
      recordId now) :=
  ⟨rfl, rfl, newRecord_hashesMatch _ _ _ _ _⟩

theorem Invariant.commit (h : Invariant s) {r stored : LedgerRecord} (hi : s.calls i = some c)
    (hp : c.phase = .advanced r) (hs : r.store = some stored) :
    Invariant (((s.publish c stored).unlock i).setCall i
      { c with phase := .committed stored, writes := [] }) := by
  obtain ⟨hv, hinv⟩ := h.calls i c hi
  simp only [CallInvariant, hp] at hinv
  obtain ⟨hl, ⟨hcase, hprev, hmatch⟩, hlook, hkeys⟩ := hinv
  obtain ⟨hchain, hhead⟩ := h.cases c.args.caseId
  have hstored : stored.caseId = c.args.caseId :=
    hv _ (hcase ▸ (LedgerRecord.store_eq_some hs).caseId)
  obtain ⟨hrh, hpr, hmatch'⟩ := hmatch.store (hprev ▸ hchain.digestOrNone) hs
  have hother : ∀ k, k ≠ c.args.caseId → c.writes.lookup k = none := by
    intro k hk
    rw [List.lookup_eq_none_iff]
    intro w hw
    simpa [hkeys w hw] using hk
  have hrecords : ∀ k, caseRecords (s.records ++ [stored]) k =
      if k = c.args.caseId then caseRecords s.records k ++ [stored]
      else caseRecords s.records k := by
    intro k
    rw [caseRecords_concat, hstored]
  constructor
  · intro k
    by_cases hk : k = c.args.caseId
    · subst hk
      simp only [CaseInvariant, State.setCall_records, State.setCall_heads, State.unlock_records,
        State.unlock_heads, State.publish, hrecords, if_true, hlook, lastHash_concat, hrh,
        chained_concat]
      exact ⟨⟨hchain, hpr.trans hprev, hmatch'⟩, rfl⟩
    · simpa [CaseInvariant, State.publish, hrecords, hk, hother k hk] using h.cases k
  · rw [State.setCall_calls]
    refine Table.forall_update (fun j hij d hd => ?_) ⟨hv, rfl⟩
    obtain ⟨hvd, hdinv⟩ := h.calls j d hd
    refine ⟨hvd, hdinv.frame ?_ ?_⟩
    · -- another call holds another row, which this commit does not touch
      intro hlj
      have hne : d.args.caseId ≠ c.args.caseId := by
        intro he
        rw [he, hl] at hlj
        exact hij (Option.some.inj hlj).symm
      refine ⟨State.unlock_of_held hij hlj, ?_, ?_⟩
      · simp [State.publish, hother _ hne]
      · simp [State.publish, hrecords, hne]
    · intro hsome
      simp only [State.setCall_heads, State.unlock_heads, State.publish]
      cases c.writes.lookup d.args.caseId <;> simp [hsome]

theorem invariant_step (h : Invariant s) (ha : VerbatimCase s a) (hs : Step s a t) :
    Invariant t := by
  cases hs with
  | start args hi => exact h.of_local rfl rfl rfl (fun _ _ _ => id) ha rfl
  | ensureConflict hi hp hk hh =>
    obtain ⟨hv, hinv⟩ := h.calls _ _ hi
    obtain rfl := hv _ hk
    simp only [CallInvariant, hp] at hinv
    exact h.of_local rfl rfl rfl (fun _ _ _ => id) hv (.inl ⟨hinv, by simp [hh]⟩)
  | ensureInsert hi hp hk hh hl =>
    obtain ⟨hv, hinv⟩ := h.calls _ _ hi
    obtain rfl := hv _ hk
    refine h.of_local rfl rfl rfl (fun j k hij => State.lock_of_held (.inl hl) hij) hv
      (.inr ⟨rfl, by simp [State.lock], hh⟩)
  | selectRow hi hp hv hl =>
    obtain ⟨hvb, hinv⟩ := h.calls _ _ hi
    simp only [CallInvariant, hp] at hinv
    have hhead := hinv.visible (h.cases _).2
    obtain rfl := Option.some.inj (hv.symm.trans hhead)
    exact h.of_local rfl rfl rfl (fun j k hij => State.lock_of_held hl hij) hvb
      ⟨hinv.lock, by simp [State.lock], rfl⟩
  | selectNothing hi hp hv =>
    have hinv := (h.calls _ _ hi).2
    simp only [CallInvariant, hp] at hinv
    simp [hinv.visible (h.cases _).2] at hv
  | build recordId now hi hp ha =>
    obtain ⟨hvb, hinv⟩ := h.calls _ _ hi
    simp only [CallInvariant, hp] at hinv
    obtain ⟨hk, hl, rfl⟩ := hinv
    exact h.of_local rfl rfl rfl (fun _ _ _ => id) hvb ⟨hk, hl, newRecord_extends _ _ _ _⟩
  | advanceRow hi hp hv hl =>
    obtain ⟨hvb, hinv⟩ := h.calls _ _ hi
    simp only [CallInvariant, hp] at hinv
    obtain ⟨hk, hlock, hx⟩ := hinv
    refine h.of_local rfl rfl rfl (fun j k hij => State.lock_of_held hl hij) hvb
      ⟨by simp [State.lock], hx, by simp, ?_⟩
    intro w hw
    rcases List.mem_cons.mp hw with rfl | hw
    · rfl
    · rcases hk with ⟨he, _⟩ | ⟨he, _, _⟩ <;> simp_all
  | advanceNothing hi hp hv =>
    have hinv := (h.calls _ _ hi).2
    simp only [CallInvariant, hp] at hinv
    simp [hinv.1.visible (h.cases _).2] at hv
  | commit hi hp hs hk => exact h.commit hi hp hs
  | fail error hi hp =>
    exact h.of_local rfl rfl rfl (fun j k hij => State.unlock_of_held hij) (h.calls _ _ hi).1 rfl

theorem invariant_initial (h : Initial s) : Invariant s := by
  obtain ⟨hr, hh, _, hc⟩ := h
  constructor
  · intro caseId
    simp [CaseInvariant, Chained, HashChain.Linked, lastHash, HashChain.head, caseRecords, hr, hh]
  · intro i c hi
    simp [hc] at hi

theorem invariant_reachable (h : system.ReachableWhen VerbatimCase s) : Invariant s :=
  h.invariant (fun _ => invariant_initial) (fun _ _ _ ha hi => invariant_step hi ha)

/-- No step writes a record or a state row of another case than its call's. -/
theorem step_frame (h : Invariant s) (hs : Step s a t) (hc : t.calls a.call = some c)
    (hne : key ≠ c.args.caseId) :
    caseRecords t.records key = caseRecords s.records key ∧ t.heads key = s.heads key := by
  cases hs with
  | commit hi hp hs hk =>
    rename_i c₀ r stored
    obtain rfl : _ = c := by simpa [Action.call] using hc
    obtain ⟨hv, hinv⟩ := h.calls _ _ hi
    simp only [CallInvariant, hp] at hinv
    obtain ⟨_, ⟨hcase, _, _⟩, _, hkeys⟩ := hinv
    have hstored : stored.caseId = c₀.args.caseId :=
      hv _ (hcase ▸ (LedgerRecord.store_eq_some hs).caseId)
    have hlook : c₀.writes.lookup key = none := by
      rw [List.lookup_eq_none_iff]
      intro w hw
      simpa [hkeys w hw] using hne
    constructor
    · simp [State.publish, caseRecords, hstored, Ne.symm hne]
    · simp [State.publish, hlook]
  | _ => exact ⟨rfl, rfl⟩

theorem verbatimCase_of_ne_start (h : ∀ j b, a ≠ .start j b) : VerbatimCase s a := by
  cases a with
  | start j b => exact (h j b rfl).elim
  | _ => trivial

/-- The head of a chain fits its column. -/
theorem Chained.lastHash_stored {rs : List LedgerRecord} (h : Chained rs) :
    Postgres.nullable (Postgres.varchar 256) (lastHash rs) = some (lastHash rs) := by
  cases hl : lastHash rs with
  | none => rfl
  | some d =>
    obtain ⟨r, hr, rfl⟩ := HashChain.head_mem hl
    simp only [Postgres.nullable, (h.2 r hr).2, computeRecordHash, varchar_sha256Text,
      Option.map_some]

/-- An append that meets no other continues the chain of its case. -/
theorem solo_append_verbatim {ok : State → Action → Prop} {args : AppendArgs} {artifactId : Uuid}
    (hverbatim : ∀ s a, ok s a → VerbatimCase s a)
    (hok : ∀ s a, (∀ j b, a ≠ .start j b) → (∀ j, a ≠ .commit j) → ok s a) (i : CallId)
    (recordId : Uuid) (now : Timestamp) (h : system.ReachableWhen ok s)
    (hstart : ok s (.start i args))
    (hcommit : CommitOk ok s i args
      (newRecord args artifactId (lastHash (caseRecords s.records args.caseId)) recordId now))
    (hl : ∀ k, s.locks k = none) (hi : s.calls i = none) (hf : args.Fits args.caseId)
    (ha : Uuid.parse args.artifactId = some artifactId)
    (hfresh : ∀ q ∈ s.records, q.recordId ≠ recordId) :
    ∃ t view, system.ReachableWhen ok t ∧ Appended ok s i args view
      (newRecord args artifactId (lastHash (caseRecords s.records args.caseId)) recordId now)
      t := by
  obtain ⟨hchain, hhead⟩ := (invariant_reachable (h.mono hverbatim)).cases args.caseId
  have hp : previousOf s.heads args.caseId args.caseId =
      lastHash (caseRecords s.records args.caseId) := by
    simpa [previousOf] using hhead
  obtain ⟨t, ht⟩ := solo_append hok i recordId now hcommit hl hf ha hp hchain.lastHash_stored hfresh
  exact ⟨t, _, ht.reach h hi hstart, ht⟩

/-- Empty tables. -/
def State.empty : State := ⟨[], fun _ => none, fun _ => none, fun _ => none⟩

theorem initial_empty : Initial .empty :=
  ⟨rfl, fun _ => rfl, fun _ => rfl, fun _ => rfl⟩

/-- The request of an evidence proof. -/
def proofArgs (artifactId : Uuid) (caseId hashValue signatureValue : String) : AppendArgs :=
  appendProofRecord (Client.appendProof artifactId.str caseId hashValue signatureValue
    "2025-01-01T00:00:00+00:00")

theorem proofArgs_fits {caseId h f key : String} (a : Uuid)
    (hc : Postgres.varchar 64 caseId = some key)
    (hh : Postgres.varchar 256 h = some h) (hf : Postgres.text f = some f) :
    (proofArgs a caseId h f).Fits key :=
  Client.appendProof_fits (by simp [Postgres.text, Uuid.str_notMem_nul]) hc hh hf (by decide)

/-- Two evidence proofs of one case, appended one after the other, at any times. -/
theorem two_proofs_run {ok : State → Action → Prop}
    (hverbatim : ∀ s a, ok s a → VerbatimCase s a)
    (hok : ∀ s a, (∀ j b, a ≠ .start j b) → (∀ j, a ≠ .commit j) → ok s a)
    (hstart : ∀ s i args, Postgres.Verbatim 64 args.caseId → ok s (.start i args))
    (caseId h k : String) {f g : String} (a b : Uuid) {r q : LedgerRecord}
    (first second : Timestamp)
    (hc : Postgres.varchar 64 caseId = some caseId)
    (hh : Postgres.varchar 256 h = some h) (hf : Postgres.text f = some f)
    (hk : Postgres.varchar 256 k = some k) (hg : Postgres.text g = some g)
    (m n : Uuid) (hne : m ≠ n) (hr : r = newRecord (proofArgs a caseId h f) a none m first)
    (hq : q = newRecord (proofArgs b caseId k g) b (some r.recordHash) n second)
    (hcommit : CommitOk ok .empty 0 (proofArgs a caseId h f) r)
    (hcommit' : ∀ s, s.records = [r] → CommitOk ok s 1 (proofArgs b caseId k g) q) :
    ∃ s, system.ReachableWhen ok s ∧ (∀ k, s.locks k = none) ∧ s.records = [r, q] := by
  have hverb : Postgres.Verbatim 64 caseId := by
    intro key hkey
    exact Option.some.inj (hkey.symm.trans hc)
  have hfits₁ : (proofArgs a caseId h f).Fits (proofArgs a caseId h f).caseId :=
    proofArgs_fits a hc hh hf
  have hfits₂ : (proofArgs b caseId k g).Fits (proofArgs b caseId k g).caseId :=
    proofArgs_fits b hc hk hg
  obtain ⟨s, _, hreach, hs⟩ := solo_append_verbatim hverbatim hok 0 m first (.init initial_empty)
    (hstart _ _ _ hverb) (hr ▸ hcommit) (fun _ => rfl) rfl hfits₁ (Uuid.parse_str a)
    (by simp [State.empty])
  have hrecords : s.records = [r] := by
    rw [hr]
    exact hs.records
  have hlast : lastHash (caseRecords s.records (proofArgs b caseId k g).caseId) =
      some r.recordHash := by
    have hcase : caseRecords s.records (proofArgs b caseId k g).caseId = [r] := by
      rw [hrecords]
      exact List.filter_eq_self.mpr (by simp [hr, newRecord, proofArgs, appendProofRecord,
        Client.appendProof])
    rw [hcase]
    rfl
  obtain ⟨t, _, hreach', ht⟩ := solo_append_verbatim hverbatim hok 1 n second hreach
    (hstart _ _ _ hverb) (hlast ▸ hq ▸ hcommit' s hrecords) hs.unlocked (hs.others 1 (by simp))
    hfits₂ (Uuid.parse_str b) (by simp [hrecords, hr, newRecord, hne])
  refine ⟨t, hreach', ht.unlocked, ?_⟩
  rw [ht.records, hlast, hrecords, hq]
  rfl

theorem two_proofs_reachable (caseId h k : String) {f g : String} (a b : Uuid)
    (hc : Postgres.varchar 64 caseId = some caseId)
    (hh : Postgres.varchar 256 h = some h) (hf : Postgres.text f = some f)
    (hk : Postgres.varchar 256 k = some k) (hg : Postgres.text g = some g)
    (m n : Uuid) (hne : m ≠ n) :
    ∃ s r q, system.ReachableWhen VerbatimCase s ∧ (∀ k, s.locks k = none) ∧
      s.records = [r, q] ∧ r = newRecord (proofArgs a caseId h f) a none m 0 ∧
      q = newRecord (proofArgs b caseId k g) b (some r.recordHash) n 1 := by
  obtain ⟨s, hreach, hl, hrecords⟩ := two_proofs_run (fun _ _ => id)
    (fun _ _ ha _ => verbatimCase_of_ne_start ha) (fun _ _ _ => id) caseId h k a b 0 1 hc hh hf hk
    hg m n hne rfl rfl (fun _ _ _ _ => trivial) (fun _ _ _ _ _ _ => trivial)
  exact ⟨s, _, _, hreach, hl, hrecords, rfl, rfl⟩

/-- The write invariant, in every run whose calls give case ids that their column keeps as given. -/
theorem ledger_write_invariant (h : system.ReachableWhen VerbatimCase s) :
    (∀ caseId, CaseInvariant s caseId) ∧
      ∀ a t c, system.step s a t → t.calls a.call = some c → ∀ caseId, caseId ≠ c.args.caseId →
        caseRecords t.records caseId = caseRecords s.records caseId ∧
          t.heads caseId = s.heads caseId :=
  ⟨(invariant_reachable h).cases, fun _ _ _ hs hc _ hne =>
    step_frame (invariant_reachable h) hs hc hne⟩

theorem two_proofs_write_invariant :
    ∃ s r q, s.records = [r, q] ∧ q.previousRecordHash = some r.recordHash ∧
      ∀ caseId, CaseInvariant s caseId := by
  have hempty : Postgres.text "" = some "" := by decide
  obtain ⟨s, r, q, hs, _, hr, _, hq⟩ := two_proofs_reachable "CASE-2025-001" "" ""
    ⟨1, by decide⟩ ⟨2, by decide⟩ (by decide) (by decide) hempty (by decide) hempty
    ⟨3, by decide⟩ ⟨4, by decide⟩ (by decide)
  exact ⟨s, r, q, hr, hq ▸ rfl, (ledger_write_invariant hs).1⟩

/-- A case id of 64 letters and a space after them. -/
def paddedCase : String := String.ofList (List.replicate 64 'a' ++ [' '])

/-- The padded id as its column keeps it. -/
def cutCase : String := String.ofList (List.replicate 64 'a')

theorem varchar_paddedCase : Postgres.varchar 64 paddedCase = some cutCase := by decide +kernel

theorem paddedCase_ne : paddedCase ≠ cutCase := by decide +kernel

/-- An append on the padded id starts a chain, and leaves the row of the cut id at NULL. -/
theorem padded_append (i : CallId) (a recordId : Uuid) (h : system.Reachable s)
    (hl : ∀ k, s.locks k = none) (hi : s.calls i = none) (hh : s.heads paddedCase = none)
    (hk : (s.heads cutCase).join = none) (hfresh : ∀ q ∈ s.records, q.recordId ≠ recordId) :
    ∃ t, system.Reachable t ∧ Appended (fun _ _ => True) s i (proofArgs a paddedCase "" "")
      (Function.update s.heads cutCase (some none))
      { newRecord (proofArgs a paddedCase "" "") a none recordId 0 with caseId := cutCase } t := by
  have hempty : Postgres.text "" = some "" := by decide
  have hfits : (proofArgs a paddedCase "" "").Fits cutCase :=
    proofArgs_fits a varchar_paddedCase (by decide) hempty
  have hany : ∀ (s : State) (b : Action), (∀ j args, b ≠ .start j args) →
      (∀ j, b ≠ .commit j) → (fun _ _ => True : State → Action → Prop) s b :=
    fun _ _ _ _ => trivial
  obtain ⟨t, ht⟩ := solo_append hany i recordId 0 (fun _ _ _ _ => trivial) hl hfits
    (Uuid.parse_str a) (previousOf_of_ne paddedCase_ne hh) rfl hfresh
  rw [show (proofArgs a paddedCase "" "").caseId = paddedCase from rfl,
    headsAfter_of_ne paddedCase_ne hh, hk] at ht
  exact ⟨t, ht.reach h hi trivial, ht⟩

/-- The records and the state row of the padded case are kept under its first 64 letters, where no
append looks for them: the second record starts a chain again, and the row stays at NULL. -/
theorem padded_case_forks :
    ∃ s r q, system.Reachable s ∧ s.records = [r, q] ∧ r.caseId = cutCase ∧ q.caseId = cutCase ∧
      q.previousRecordHash = none ∧ s.heads cutCase = some none ∧ ¬ CaseInvariant s cutCase := by
  obtain ⟨s, hreach, hs⟩ := padded_append 0 ⟨1, by decide⟩ ⟨3, by decide⟩ (.init initial_empty)
    (fun _ => rfl) rfl rfl rfl (by simp [State.empty])
  have hrecords := hs.records
  have hne : ∀ q ∈ s.records, q.recordId ≠ ⟨4, by decide⟩ := by
    simp [hrecords, State.empty, newRecord]
  obtain ⟨t, hreach', ht⟩ := padded_append 1 ⟨2, by decide⟩ ⟨4, by decide⟩ hreach hs.unlocked
    (hs.others 1 (by simp)) (by simp [hs.heads, State.empty, Function.update_of_ne paddedCase_ne])
    (by simp [hs.heads]) hne
  refine ⟨t, _, _, hreach', ht.records.trans (by rw [hrecords]; rfl), rfl, rfl, rfl,
    by simp [ht.heads], ?_⟩
  rintro ⟨⟨hlink, _⟩, _⟩
  simp [caseRecords, ht.records, hrecords, State.empty, HashChain.Linked, newRecord] at hlink

end ForensicChain.Ledger
