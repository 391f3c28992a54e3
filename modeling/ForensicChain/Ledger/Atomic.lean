import ForensicChain.Ledger.Atomicity
import ForensicChain.Library.Refinement

/-!
The ledger as its clients see it: an append takes effect all at once, between its request and its
answer. The servicer, whose appends interleave statement by statement, refines it.
-/
namespace ForensicChain.Ledger

/-- A call as its client sees it. -/
structure ClientCall where
  args : AppendArgs
  response : Option ProofRecordResponse

/-- The committed records, and the calls without their transactions. -/
structure AtomicState where
  records : List LedgerRecord
  calls : CallId → Option ClientCall

def AtomicState.setCall (s : AtomicState) (i : CallId) (c : ClientCall) : AtomicState :=
  { s with calls := Function.update s.calls i (some c) }

inductive AtomicAction
  | start (i : CallId) (args : AppendArgs)
  | append (i : CallId)
  | fail (i : CallId) (error : String)

/-- What the servicer returns when an append raised. -/
def failedResponse (args : AppendArgs) (error : String) : ProofRecordResponse where
  recordId := ""
  artifactId := args.artifactId
  recordType := args.recordType
  payloadHash := ""
  previousRecordHash := ""
  recordHash := ""
  createdAt := none
  success := false
  errorMessage := error

inductive AtomicStep : AtomicState → AtomicAction → AtomicState → Prop
  | start {s i} (args : AppendArgs) (hi : s.calls i = none) :
      AtomicStep s (.start i args) (s.setCall i ⟨args, none⟩)
  /-- The record continues the chain of its case as it is at this instant. -/
  | append {s i args artifactId r stored} (recordId : Uuid) (now : Timestamp)
      (hi : s.calls i = some ⟨args, none⟩) (ha : Uuid.parse args.artifactId = some artifactId)
      (hr : r = newRecord args artifactId (lastHash (caseRecords s.records args.caseId))
        recordId now)
      (hs : r.store = some stored) (hk : ∀ q ∈ s.records, q.recordId ≠ stored.recordId) :
      AtomicStep s (.append i)
        (({ s with records := s.records ++ [stored] }).setCall i
          ⟨args, some (appendedResponse args r)⟩)
  | fail {s i args} (error : String) (hi : s.calls i = some ⟨args, none⟩) :
      AtomicStep s (.fail i error) (s.setCall i ⟨args, some (failedResponse args error)⟩)

/-- No record and no call. -/
def atomic : TransitionSystem AtomicState AtomicAction :=
  ⟨fun s => s.records = [] ∧ ∀ i, s.calls i = none, AtomicStep⟩

def Call.client (c : Call) : ClientCall := ⟨c.args, c.response⟩

def State.client (s : State) : AtomicState := ⟨s.records, fun i => (s.calls i).map Call.client⟩

/-- Requests and answers are seen; the statements before the commit are not. -/
def clientAction : Action → Option AtomicAction
  | .start i args => some (.start i args)
  | .commit i => some (.append i)
  | .fail i error => some (.fail i error)
  | _ => none

variable {s t u : State} {i j : CallId} {c d : Call} {a : Action} {as : List Action}
  {args : AppendArgs} {r q stored : LedgerRecord}

theorem client_calls (hi : s.calls i = some c) : s.client.calls i = some c.client := by
  simp [State.client, hi]

theorem client_setCall : (s.setCall i c).client = s.client.setCall i c.client := by
  simp only [State.client, AtomicState.setCall, State.setCall, AtomicState.mk.injEq, true_and]
  funext k
  by_cases hk : k = i <;> simp [Function.update, hk]

/-- A client sees nothing of a statement that leaves its call unanswered. -/
theorem client_unseen (hrec : t.records = s.records)
    (hcalls : t.calls = Function.update s.calls i (some d)) (hi : s.calls i = some c)
    (hd : d.client = c.client) : t.client = s.client := by
  simp only [State.client, hrec, hcalls, AtomicState.mk.injEq, true_and]
  funext k
  by_cases hk : k = i <;> simp [Function.update, hk, hi, hd]

/-- A call that is under way is unanswered. -/
theorem Phase.Running.client (h : c.phase.Running) : c.client = ⟨c.args, none⟩ := by
  unfold Call.client Call.response
  split <;> simp_all [Phase.Running]

/-- The record of a call that is about to commit continues its case from the present head. -/
theorem built_at_head (hinv : Invariant s) (hprov : Provenance s) (hi : s.calls i = some c)
    (hp : c.phase = .advanced r) :
    ∃ artifactId recordId now, Uuid.parse c.args.artifactId = some artifactId ∧
      r = newRecord c.args artifactId (lastHash (caseRecords s.records c.args.caseId)) recordId
        now := by
  have hsound := hprov.calls i c hi
  have hcall := (hinv.calls i c hi).2
  simp only [Call.Sound, hp] at hsound
  simp only [CallInvariant, hp] at hcall
  obtain ⟨artifactId, previous, recordId, now, ha, rfl⟩ := hsound
  have hprevious : previous = _ := hcall.2.1.2.1
  exact ⟨artifactId, recordId, now, ha, by rw [hprevious]⟩

/-- Every statement is an atomic append, a request, a failure, or nothing at all. -/
theorem step_follows (hinv : Invariant s) (hprov : Provenance s) (hs : Step s a t) :
    atomic.Follows State.client clientAction s a t := by
  have hrunning : ∀ {c : Call} {phase : Phase}, c.phase = phase → phase.Running →
      c.client = ⟨c.args, none⟩ := by
    intro c phase hp h
    exact Phase.Running.client (hp ▸ h)
  cases hs with
  | start args hi =>
    rename_i i
    simp only [TransitionSystem.Follows, clientAction, client_setCall]
    exact AtomicStep.start args (by simp [State.client, hi])
  | ensureConflict hi hp | ensureInsert hi hp | selectRow hi hp | selectNothing hi hp
  | build _ _ hi hp | advanceRow hi hp | advanceNothing hi hp =>
    exact client_unseen rfl rfl hi (hrunning hp trivial).symm
  | @commit i c r stored hi hp hstore hk =>
    obtain ⟨artifactId, recordId, now, ha, hr⟩ := built_at_head hinv hprov hi hp
    have hchain := (hinv.cases c.args.caseId).1
    have hbuilt : BuiltFrom c.args r :=
      ⟨artifactId, _, recordId, now, ha, hchain.lastHash_stored, hr⟩
    have hclient : (⟨c.args, .committed stored, []⟩ : Call).client =
        ⟨c.args, some (appendedResponse c.args r)⟩ := by
      rw [Call.client, hbuilt.response_eq hstore]
    simp only [TransitionSystem.Follows, clientAction, client_setCall, hclient]
    have hcall := (client_calls hi).trans (congrArg some (hrunning hp trivial))
    exact AtomicStep.append recordId now hcall ha hr hstore hk
  | fail error hi hp =>
    have hcall := (client_calls hi).trans (congrArg some hp.client)
    simp only [TransitionSystem.Follows, clientAction, client_setCall]
    exact AtomicStep.fail error hcall

/-- What was committed since `u`, the record of call `j` among it. -/
def CommittedSince (u : State) (j : CallId) (s : State) : Prop :=
  ∃ more, s.records = u.records ++ more ∧
    ∀ c q, s.calls j = some c → c.phase = .committed q → q ∈ more

theorem committedSince_step (h : CommittedSince u j s) (hs : Step s a t) :
    CommittedSince u j t := by
  obtain ⟨more, hrec, hmore⟩ := h
  cases step_effect hs with
  | quiet c' hcalls hsame hquiet =>
    refine ⟨more, hsame.trans hrec, fun c q hc hq => ?_⟩
    rw [hcalls] at hc
    rcases Table.update_some hc with ⟨_, rfl⟩ | ⟨_, hold⟩
    · exact (hquiet q hq).elim
    · exact hmore c q hold hq
  | @commit stored c' hcalls hadded hcommitted _ =>
    refine ⟨more ++ [stored], by rw [hadded, hrec, List.append_assoc], fun c q hc hq => ?_⟩
    rw [hcalls] at hc
    rw [List.mem_append]
    rcases Table.update_some hc with ⟨_, rfl⟩ | ⟨_, hold⟩
    · obtain rfl := Phase.committed.inj (hcommitted.symm.trans hq)
      exact .inr (List.mem_singleton_self _)
    · exact .inl (hmore c q hold hq)

theorem committed_path {ok : State → Action → Prop} (h : system.Path ok u t)
    (hi : u.calls i = some c) (hr : c.phase = .committed r) :
    ∃ d, t.calls i = some d ∧ d.phase = .committed r := by
  induction h with
  | refl => exact ⟨c, hi, hr⟩
  | step _ _ hs ih =>
    obtain ⟨d, hd, hp⟩ := ih
    obtain ⟨e, he, _, hkept⟩ := (grows_step hs).calls i d hd
    exact ⟨e, he, hkept r hp⟩

/-- An append that was answered before another began has its record before the other's. -/
theorem answered_before {ok : State → Action → Prop} {as : List Action} (h : system.Trace ok s as t)
    (hprov : ∀ {bs u}, system.Trace ok s bs u → Provenance u)
    (has : [.commit i, .start j args].Sublist as) (hi : t.calls i = some c)
    (hr : c.phase = .committed r) (hj : t.calls j = some d) (hq : d.phase = .committed q) :
    [r, q].Sublist t.records := by
  obtain ⟨xs, ys, rfl, hcommit, hstart⟩ := List.cons_sublist_iff.mp has
  obtain ⟨xs₁, xs₂, rfl⟩ := List.append_of_mem hcommit
  obtain ⟨ys₁, ys₂, rfl⟩ := List.append_of_mem (List.singleton_sublist.mp hstart)
  rw [← List.append_assoc] at h
  obtain ⟨u, v, hu, hok, hs, hv⟩ := h.step_of_split
  rw [List.append_assoc, List.cons_append] at hu
  obtain ⟨w, x, _, _, hc, hx⟩ := hu.step_of_split
  -- the record of `i` is in the table when `j` begins
  have hold : r ∈ u.records := by
    cases hc with
    | @commit i c₀ r₀ stored _ _ _ _ =>
      obtain ⟨e, he, hp⟩ := committed_path hx.path (Function.update_self _ _ _) rfl
      have hrest : system.Path ok u t := .trans (.step .refl hok hs) hv.path
      obtain ⟨e', he', hp'⟩ := committed_path hrest he hp
      obtain rfl := Option.some.inj (he'.symm.trans hi)
      obtain rfl := Phase.committed.inj (hp'.symm.trans hr)
      exact (hprov hu).committed _ _ _ he hp
  -- and the record of `j` comes after all that are
  have hsince : CommittedSince u j t := by
    have hfree : CommittedSince u j u := by
      refine ⟨[], by simp, fun e p he => ?_⟩
      cases hs with
      | start _ hnone => simp [hnone] at he
    exact hv.path.invariant (committedSince_step hfree hs) fun _ _ _ _ => committedSince_step
  obtain ⟨more, hrec, hmore⟩ := hsince
  rw [hrec]
  exact (List.singleton_sublist.mpr hold).append (List.singleton_sublist.mpr (hmore d q hj hq))

/-- Every run of the servicer is one in which each append takes effect at a single instant
between its request and its answer, and is answered as it would be there. -/
theorem appends_linearizable (h₀ : Initial s) (h : system.Trace VerbatimCase s as t) :
    atomic.Trace (fun _ _ => True) s.client (as.filterMap clientAction) t.client ∧
      ∀ i j args c d r q, [.commit i, .start j args].Sublist as → t.calls i = some c →
        c.phase = .committed r → t.calls j = some d → d.phase = .committed q →
          [r, q].Sublist t.records := by
  have hinit : Invariant s ∧ Provenance s := ⟨invariant_initial h₀, provenance_initial h₀⟩
  have hkept : ∀ u a v, VerbatimCase u a → Invariant u ∧ Provenance u → system.step u a v →
      Invariant v ∧ Provenance v :=
    fun _ _ _ ha hboth hs => ⟨invariant_step hboth.1 ha hs, hboth.2.step hs⟩
  constructor
  · exact h.refines hinit hkept fun _ _ _ _ hboth hs => step_follows hboth.1 hboth.2 hs
  · intro i j args c d r q has hi hr hj hq
    exact answered_before h (fun hu => (hu.path.invariant hinit hkept).2) has hi hr hj hq

theorem two_proofs_linearizable :
    ∃ (s t : State) (as : List Action) (r q : LedgerRecord), Initial s ∧ t.records = [r, q] ∧
      q.previousRecordHash = some r.recordHash ∧
      atomic.Trace (fun _ _ => True) s.client (as.filterMap clientAction) t.client := by
  have hempty : Postgres.text "" = some "" := by decide
  obtain ⟨t, r, q, hreach, _, hr, _, hq⟩ := two_proofs_reachable "CASE-2025-001" "" ""
    (.ofNat 1) (.ofNat 2) (by decide) (by decide) hempty (by decide) hempty (.ofNat 3) (.ofNat 4)
    (by decide)
  obtain ⟨s, as, h₀, h⟩ := hreach.trace
  exact ⟨s, t, as, r, q, h₀, hr, hq ▸ rfl, (appends_linearizable h₀ h).1⟩

end ForensicChain.Ledger
