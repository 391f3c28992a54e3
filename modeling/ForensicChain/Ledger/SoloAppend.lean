import ForensicChain.Ledger.Servicer

/-! Appends that meet no other call: one call taken from its start to its commit. -/
namespace ForensicChain.Ledger

variable {s t : State} {i : CallId} {args : AppendArgs} {ok : State → Action → Prop}
  {view : String → Option (Option String)} {key : String} {previous : Option String}
  {artifactId recordId : Uuid} {now : Timestamp} {r stored : LedgerRecord}

/-- Every column takes the arguments as they are given, but for the case id, kept as `key`. -/
structure AppendArgs.Fits (args : AppendArgs) (key : String) : Prop where
  caseId : Postgres.varchar 64 args.caseId = some key
  recordType : Postgres.varchar 64 args.recordType = some args.recordType
  hashAlgorithm : Postgres.nullable (Postgres.varchar 32) args.hashAlgorithm =
    some args.hashAlgorithm
  hashValue : Postgres.nullable (Postgres.varchar 256) args.hashValue = some args.hashValue
  signatureAlgorithm : Postgres.nullable (Postgres.varchar 32) args.signatureAlgorithm =
    some args.signatureAlgorithm
  signatureValue : Postgres.nullable Postgres.text args.signatureValue = some args.signatureValue
  signerId : Postgres.nullable (Postgres.varchar 128) args.signerId = some args.signerId
  rawPayload : args.rawPayload.hasNul = false

theorem hasNul_ofJson (j : Json) : (Jsonb.ofJson j).value.hasNul = j.hasNul :=
  Json.hasNul_sortKeys j

theorem newRecord_store (h : args.Fits key)
    (hd : Postgres.nullable (Postgres.varchar 256) previous = some previous) :
    (newRecord args artifactId previous recordId now).store =
      some { newRecord args artifactId previous recordId now with caseId := key } := by
  have hnul := (hasNul_ofJson args.rawPayload).trans h.rawPayload
  simp only [LedgerRecord.store, newRecord, createHashChainEntry, computePayloadHash,
    computeRecordHash, varchar_sha256Text, h.caseId, h.recordType, h.hashAlgorithm, h.hashValue,
    h.signatureAlgorithm, h.signatureValue, h.signerId, hd, hnul, guard, if_true,
    Option.bind_eq_bind, Option.bind_some, Option.pure_def]

/-- The state after a call has come in. -/
def State.startCall (s : State) (i : CallId) (args : AppendArgs) : State :=
  s.setCall i ⟨args, .opened, []⟩

/-- Call `i` is under way in `t`, alone since `s`; `view` is what it sees of `ledger_state`. -/
structure Solo (ok : State → Action → Prop) (s : State) (i : CallId) (args : AppendArgs)
    (phase : Phase) (view : String → Option (Option String)) (t : State) : Prop where
  path : system.Path ok (s.startCall i args) t
  records : t.records = s.records
  heads : t.heads = s.heads
  free : ∀ key, t.Free i key
  others : ∀ j, j ≠ i → t.calls j = s.calls j
  call : ∃ writes, t.calls i = some ⟨args, phase, writes⟩ ∧
    ∀ key, (writes.lookup key).or (s.heads key) = view key

theorem State.lock_free (h : ∀ k, s.Free i k) (k : String) : (s.lock i key).Free i k := by
  by_cases hk : k = key
  · exact .inr (by simp [State.lock, hk])
  · simpa [State.Free, State.lock, hk] using h k

/-- A step of the call itself that commits nothing. -/
theorem Solo.next {phase phase' : Phase} {view' : String → Option (Option String)} {t' : State}
    {c : Call} {a : Action} (h : Solo ok s i args phase view t) (hok : ok t a)
    (hs : Step t a t') (hrec : t'.records = t.records) (hheads : t'.heads = t.heads)
    (hfree : ∀ k, t'.Free i k) (hcalls : t'.calls = Function.update t.calls i (some c))
    (hc : c.args = args ∧ c.phase = phase')
    (hview : ∀ k, (c.writes.lookup k).or (s.heads k) = view' k) :
    Solo ok s i args phase' view' t' := by
  obtain ⟨rfl, rfl⟩ := hc
  refine ⟨h.path.step hok hs, hrec.trans h.records, hheads.trans h.heads, hfree, ?_,
    c.writes, ?_, hview⟩
  · intro j hj
    rw [hcalls, Function.update_of_ne hj, h.others j hj]
  · simp [hcalls]

theorem Solo.start (hl : ∀ k, s.locks k = none) :
    Solo ok s i args .opened s.heads (s.startCall i args) := by
  refine ⟨.refl, rfl, rfl, fun k => .inl (hl k), ?_, [], by simp [State.startCall], by simp⟩
  intro j hj
  simp [State.startCall, Function.update_of_ne hj]

section

variable (hok : ∀ s a, (∀ j b, a ≠ .start j b) → (∀ j, a ≠ .commit j) → ok s a)

include hok

theorem Solo.ensure (h : Solo ok s i args .opened s.heads t) (hl : ∀ k, t.locks k = none)
    (hw : ∀ c, t.calls i = some c → c.writes = [])
    (hk : Postgres.varchar 64 args.caseId = some key) :
    ∃ t', Solo ok s i args .ensured
      (Function.update s.heads key (some (s.heads key).join)) t' := by
  obtain ⟨writes, hi, _⟩ := h.call
  obtain rfl : writes = [] := hw _ hi
  cases hh : s.heads key with
  | some head =>
    refine ⟨_, h.next (hok _ _ (by simp) (by simp)) (.ensureConflict hi rfl hk (h.heads ▸ hh)) rfl
      rfl h.free rfl ⟨rfl, rfl⟩ ?_⟩
    intro k
    by_cases hkey : k = key <;> simp [Function.update, hkey, hh]
  | none =>
    refine ⟨_, h.next (hok _ _ (by simp) (by simp))
      (.ensureInsert hi rfl hk (h.heads ▸ hh) (hl key)) rfl rfl (State.lock_free h.free) rfl
      ⟨rfl, rfl⟩ ?_⟩
    intro k
    by_cases hkey : k = key
    · simp [hkey, hh]
    · simp [Function.update, List.lookup_cons, hkey, beq_false_of_ne hkey]

theorem Solo.select (h : Solo ok s i args .ensured view t) :
    ∃ t', Solo ok s i args (.locked (view args.caseId).join) view t' := by
  obtain ⟨writes, hi, hview⟩ := h.call
  have hv : t.visible ⟨args, .ensured, writes⟩ args.caseId = view args.caseId := by
    rw [State.visible, h.heads, hview]
  cases hh : view args.caseId with
  | some head =>
    exact ⟨_, h.next (hok _ _ (by simp) (by simp)) (.selectRow hi rfl (hv.trans hh) (h.free _)) rfl
      rfl (State.lock_free h.free) rfl ⟨rfl, rfl⟩ hview⟩
  | none =>
    exact ⟨_, h.next (hok _ _ (by simp) (by simp)) (.selectNothing hi rfl (hv.trans hh)) rfl rfl
      h.free rfl ⟨rfl, rfl⟩ hview⟩

theorem Solo.build (recordId : Uuid) (now : Timestamp)
    (h : Solo ok s i args (.locked previous) view t)
    (ha : Uuid.parse args.artifactId = some artifactId) :
    ∃ t', Solo ok s i args (.built (newRecord args artifactId previous recordId now)) view t' := by
  obtain ⟨writes, hi, hview⟩ := h.call
  exact ⟨_, h.next (hok _ _ (by simp) (by simp)) (.build recordId now hi rfl ha) rfl rfl h.free rfl
    ⟨rfl, rfl⟩ hview⟩

theorem Solo.advance (h : Solo ok s i args (.built r) view t) :
    ∃ t', Solo ok s i args (.advanced r) (if (view args.caseId).isSome then
      Function.update view args.caseId (some (some r.recordHash)) else view) t' := by
  obtain ⟨writes, hi, hview⟩ := h.call
  have hv : t.visible ⟨args, .built r, writes⟩ args.caseId = view args.caseId := by
    rw [State.visible, h.heads, hview]
  cases hh : view args.caseId with
  | some head =>
    refine ⟨_, h.next (hok _ _ (by simp) (by simp)) (.advanceRow hi rfl (hv.trans hh) (h.free _))
      rfl rfl (State.lock_free h.free) rfl ⟨rfl, rfl⟩ ?_⟩
    intro k
    by_cases hkey : k = args.caseId
    · simp [hkey]
    · simp [Function.update, List.lookup_cons, hkey, beq_false_of_ne hkey, ← hview]
  | none =>
    exact ⟨_, h.next (hok _ _ (by simp) (by simp)) (.advanceNothing hi rfl (hv.trans hh)) rfl rfl
      h.free rfl ⟨rfl, rfl⟩ hview⟩

/-- The end of a call that met no other: one record more, and the rows as the call saw them. -/
structure Appended (ok : State → Action → Prop) (s : State) (i : CallId) (args : AppendArgs)
    (view : String → Option (Option String)) (r : LedgerRecord) (t : State) : Prop where
  path : system.Path ok (s.startCall i args) t
  records : t.records = s.records ++ [r]
  heads : t.heads = view
  unlocked : ∀ key, t.locks key = none
  call : t.calls i = some ⟨args, .committed r, []⟩
  others : ∀ j, j ≠ i → t.calls j = s.calls j

omit hok in
theorem Solo.commit (h : Solo ok s i args (.advanced r) view t) (hs : r.store = some stored)
    (hfresh : ∀ q ∈ s.records, q.recordId ≠ stored.recordId) (hcommit : ok t (.commit i)) :
    ∃ t', Appended ok s i args view stored t' := by
  obtain ⟨writes, hi, hview⟩ := h.call
  refine ⟨_, h.path.step hcommit (.commit hi rfl hs (h.records ▸ hfresh)), ?_, ?_, ?_, by simp, ?_⟩
  · simp [State.publish, h.records]
  · funext k
    simp [State.publish, h.heads, hview]
  · intro k
    rcases h.free k with hf | hf <;> simp [State.unlock, State.publish, hf]
  · intro j hj
    simp [Function.update_of_ne hj, State.publish, h.others j hj]

/-- The rows after an append: the given id's row is there under `key`, and the id names the head. -/
def headsAfter (heads : String → Option (Option String)) (caseId key recordHash : String) :
    String → Option (Option String) :=
  let ensured := Function.update heads key (some (heads key).join)
  if (ensured caseId).isSome then Function.update ensured caseId (some (some recordHash))
  else ensured

/-- The previous hash that the call reads once the row under `key` is there. -/
def previousOf (heads : String → Option (Option String)) (caseId key : String) : Option String :=
  (Function.update heads key (some (heads key).join) caseId).join

/-- The condition on the commit of a call, stated over what the call then is. -/
def CommitOk (ok : State → Action → Prop) (s : State) (i : CallId) (args : AppendArgs)
    (r : LedgerRecord) : Prop :=
  ∀ t writes, t.records = s.records → t.calls i = some ⟨args, .advanced r, writes⟩ →
    ok t (.commit i)

/-- The step starts no further call. -/
def StartsNone (_ : State) (a : Action) : Prop := ∀ j b, a ≠ .start j b

omit hok in
theorem startsNone_commitOk {r : LedgerRecord} : CommitOk StartsNone s i args r := by
  intro t writes _ _ j b
  simp

/-- A call that meets no other commits the row that its columns keep. -/
theorem solo_append_stored (i : CallId) (recordId : Uuid) (now : Timestamp)
    (hcommit : CommitOk ok s i args (newRecord args artifactId previous recordId now))
    (hl : ∀ k, s.locks k = none) (hk : Postgres.varchar 64 args.caseId = some key)
    (ha : Uuid.parse args.artifactId = some artifactId)
    (hp : previousOf s.heads args.caseId key = previous)
    (hs : (newRecord args artifactId previous recordId now).store = some stored)
    (hfresh : ∀ q ∈ s.records, q.recordId ≠ stored.recordId) :
    ∃ t, Appended ok s i args (headsAfter s.heads args.caseId key
        (newRecord args artifactId previous recordId now).recordHash) stored t := by
  subst hp
  have opened : Solo ok s i args .opened s.heads (s.startCall i args) := Solo.start hl
  obtain ⟨_, ensured⟩ := Solo.ensure hok opened hl (by simp [State.startCall]) hk
  obtain ⟨_, locked⟩ := Solo.select hok ensured
  obtain ⟨_, built⟩ := Solo.build hok recordId now locked ha
  obtain ⟨t, advanced⟩ := Solo.advance hok built
  obtain ⟨writes, hi, _⟩ := advanced.call
  exact advanced.commit hs hfresh (hcommit t writes advanced.records hi)

theorem solo_append (i : CallId) (recordId : Uuid) (now : Timestamp)
    (hcommit : CommitOk ok s i args (newRecord args artifactId previous recordId now))
    (hl : ∀ k, s.locks k = none) (hf : args.Fits key)
    (ha : Uuid.parse args.artifactId = some artifactId)
    (hp : previousOf s.heads args.caseId key = previous)
    (hd : Postgres.nullable (Postgres.varchar 256) previous = some previous)
    (hfresh : ∀ q ∈ s.records, q.recordId ≠ recordId) :
    ∃ t, Appended ok s i args (headsAfter s.heads args.caseId key
        (newRecord args artifactId previous recordId now).recordHash)
      { newRecord args artifactId previous recordId now with caseId := key } t :=
  solo_append_stored hok i recordId now hcommit hl hf.caseId ha hp (newRecord_store hf hd) hfresh

end

/-- A run that takes the call from its start to its end goes on from any run. -/
theorem Appended.reach (h : Appended ok s i args view r t) (hs : system.ReachableWhen ok s)
    (hi : s.calls i = none) (hstart : ok s (.start i args)) : system.ReachableWhen ok t :=
  (hs.step hstart (.start args hi)).path h.path

/-- An id that is stored under another one has no row to read or to update. -/
theorem headsAfter_of_ne {heads : String → Option (Option String)} {caseId recordHash : String}
    (hk : caseId ≠ key) (hh : heads caseId = none) :
    headsAfter heads caseId key recordHash =
      Function.update heads key (some (heads key).join) := by
  simp [headsAfter, Function.update_of_ne hk, hh]

theorem previousOf_of_ne {heads : String → Option (Option String)} {caseId : String}
    (hk : caseId ≠ key) (hh : heads caseId = none) : previousOf heads caseId key = none := by
  simp [previousOf, Function.update_of_ne hk, hh]

end ForensicChain.Ledger
