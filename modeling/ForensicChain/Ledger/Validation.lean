import ForensicChain.Ledger.WriteInvariant
import ForensicChain.Library.OrderBy

/-!
`ValidateLedgerChain`. The loop accepts exactly the rows that form a chain from NULL in the order
in which they are read; such rows are fixed by the hash of the last one.
-/
namespace ForensicChain.Ledger

structure ValidateLedgerResponse where
  chainValid : Bool
  checkedRecords : Nat
  errorMessage : String

/-- The text of an optional string in an f-string. -/
def pyText : Option String → String
  | none => "None"
  | some s => s

/-- The rows of a case as the validator reads them: `ORDER BY created_at ASC, record_id ASC`. -/
def readCase (records : List LedgerRecord) (caseId : String) : List LedgerRecord :=
  (caseRecords records caseId).insertionSort
    (OrderBy.Asc LedgerRecord.createdAt fun r => r.recordId.value)

/-- The loop of the validator, with `expected_prev_hash` and `checked_records`. -/
def validateRecords (expectedPrevHash : Option String) (checkedRecords : Nat) :
    List LedgerRecord → ValidateLedgerResponse
  | [] => ⟨true, checkedRecords, ""⟩
  | record :: records =>
    if record.previousRecordHash ≠ expectedPrevHash then
      ⟨false, checkedRecords, "Broken chain at record " ++ record.recordId.str ++
        ": expected prev_hash " ++ pyText expectedPrevHash ++ ", got " ++
        pyText record.previousRecordHash⟩
    else if computePayloadHash record.rawPayload.value ≠ record.payloadHash then
      ⟨false, checkedRecords, "Corrupted payload hash at record " ++ record.recordId.str⟩
    else if computeRecordHash (computePayloadHash record.rawPayload.value)
        record.previousRecordHash ≠ record.recordHash then
      ⟨false, checkedRecords, "Corrupted record hash at record " ++ record.recordId.str⟩
    else validateRecords (some record.recordHash) (checkedRecords + 1) records

/-- `ValidateLedgerChain`; the database gives its rows or raises. -/
def validateLedgerChain (db : Except String (List LedgerRecord)) (requestCaseId : String) :
    ValidateLedgerResponse :=
  let caseId := Text.strip requestCaseId
  if caseId = "" then ⟨false, 0, "case_id is required for chain validation"⟩
  else match db with
    | .error e => ⟨false, 0, e⟩
    | .ok records => validateRecords none 0 (readCase records caseId)

variable {rs qs : List LedgerRecord} {p : Option String} {n : Nat} {s : State} {caseId : String}

theorem validateRecords_chainValid : (validateRecords p n rs).chainValid = true ↔
    HashChain.Linked LedgerRecord.previousRecordHash LedgerRecord.recordHash p rs ∧
      ∀ r ∈ rs, r.HashesMatch := by
  induction rs generalizing p n with
  | nil => simp [validateRecords, HashChain.Linked]
  | cons r rs ih =>
    simp only [validateRecords, HashChain.Linked, List.forall_mem_cons, LedgerRecord.HashesMatch]
    split_ifs with hprev hpay hrec
    · simp [hprev]
    · simp [Ne.symm hpay]
    · rw [← not_not.mp hpay]
      simp [Ne.symm hrec]
    · rw [ih, ← not_not.mp hpay, not_not.mp hprev, ← not_not.mp hrec, not_not.mp hprev]
      simp [LedgerRecord.HashesMatch]

/-- When the loop accepts, it has counted every row and has no error to tell. -/
theorem validateRecords_eq (h : (validateRecords p n rs).chainValid = true) :
    validateRecords p n rs = ⟨true, n + rs.length, ""⟩ := by
  induction rs generalizing p n with
  | nil => rfl
  | cons r rs ih =>
    unfold validateRecords at h ⊢
    split_ifs at h ⊢
    rw [ih h, List.length_cons]
    congr 1
    omega

theorem validateLedgerChain_chainValid {records : List LedgerRecord} :
    (validateLedgerChain (.ok records) caseId).chainValid = true ↔
      Text.strip caseId ≠ "" ∧ Chained (readCase records (Text.strip caseId)) := by
  unfold validateLedgerChain
  by_cases hc : Text.strip caseId = ""
  · simp [hc]
  · simp [hc, validateRecords_chainValid, Chained]

/-- The record hash over a payload and the hash before it. -/
def link (payload : Jsonb) (previous : Option String) : String :=
  computeRecordHash (computePayloadHash payload.value) previous

/-- What the hashes of a row are computed from. -/
def LedgerRecord.entry (r : LedgerRecord) : Jsonb × Option String :=
  (r.rawPayload, r.previousRecordHash)

/-- The texts that are hashed when the rows are checked or written. -/
def hashedTexts (entries : List (Jsonb × Option String)) : Set String :=
  {t | ∃ e ∈ entries, t = e.1.dumps ∨ t = dataToHash (computePayloadHash e.1.value) e.2}

/-- The rows that appending the payloads to an empty case gives. -/
def payloadChain (payloads : List Jsonb) : List (Jsonb × Option String) :=
  HashChain.chain link none payloads

/-- The record hash that appending the payloads to an empty case ends at. -/
def chainHead (payloads : List Jsonb) : Option String :=
  HashChain.head (HashChain.rowHash link) none (payloadChain payloads)

theorem digestOrNone_of_mem_chain {payloads : List Jsonb} {e : Jsonb × Option String}
    (h : e ∈ payloadChain payloads) : DigestOrNone e.2 := by
  intro d hd
  rcases HashChain.snd_of_mem_chain h with hn | ⟨c, q, hq⟩
  · simp [hn] at hd
  · obtain rfl : link c q = d := by simpa [hq] using hd
    exact computeRecordHash_length _ _

theorem entry_eq_of_link_eq {a b : Jsonb × Option String} {S : Set String}
    (hcf : CollisionFree S) (ha : hashedTexts [a] ⊆ S) (hb : hashedTexts [b] ⊆ S)
    (hda : DigestOrNone a.2) (hdb : DigestOrNone b.2)
    (h : HashChain.rowHash link a = HashChain.rowHash link b) : a = b := by
  have htext := hcf (ha ⟨a, by simp, .inr rfl⟩) (hb ⟨b, by simp, .inr rfl⟩) h
  obtain ⟨hpayload, hprev⟩ := dataToHash_inj (computePayloadHash_length _)
    (computePayloadHash_length _) hda hdb htext
  have hdumps := hcf (ha ⟨a, by simp, .inl rfl⟩) (hb ⟨b, by simp, .inl rfl⟩) hpayload
  exact Prod.ext (Jsonb.dumps_injective hdumps) hprev

theorem chainHead_inj {l m : List Jsonb}
    (hcf : CollisionFree (hashedTexts (payloadChain l) ∪ hashedTexts (payloadChain m)))
    (h : chainHead l = chainHead m) : l = m := by
  refine HashChain.eq_of_head_chain ?_ h
  intro a ha b hb hab
  refine entry_eq_of_link_eq hcf ?_ ?_ (digestOrNone_of_mem_chain ha)
    (digestOrNone_of_mem_chain hb) hab
  · rintro t ⟨e, he, ht⟩
    obtain rfl := List.mem_singleton.mp he
    exact .inl ⟨e, ha, ht⟩
  · rintro t ⟨e, he, ht⟩
    obtain rfl := List.mem_singleton.mp he
    exact .inr ⟨e, hb, ht⟩

theorem Chained.recordHash_eq (h : Chained rs) :
    ∀ r ∈ rs, r.recordHash = link r.rawPayload r.previousRecordHash := by
  intro r hr
  rw [(h.2 r hr).2, (h.2 r hr).1]
  rfl

theorem Chained.entries (h : Chained rs) :
    rs.map LedgerRecord.entry = payloadChain (rs.map LedgerRecord.rawPayload) :=
  HashChain.map_eq_chain h.1 h.recordHash_eq

theorem Chained.lastHash (h : Chained rs) :
    lastHash rs = chainHead (rs.map LedgerRecord.rawPayload) :=
  HashChain.head_eq_head_chain h.1 h.recordHash_eq

theorem lastHash_eq_getLast (h : rs ≠ []) : lastHash rs = some (rs.getLast h).recordHash := by
  obtain ⟨l, r, rfl⟩ := List.eq_nil_or_concat' rs |>.resolve_left h
  simp [Ledger.lastHash]

/-- Two lists of rows that the loop accepts and that end in one record hash carry the same
payloads. -/
theorem ledger_head_commits (hr : rs ≠ []) (hq : qs ≠ [])
    (hrv : (validateRecords none 0 rs).chainValid = true)
    (hqv : (validateRecords none 0 qs).chainValid = true)
    (hcf : CollisionFree (hashedTexts (rs.map LedgerRecord.entry) ∪
      hashedTexts (qs.map LedgerRecord.entry)))
    (hh : (rs.getLast hr).recordHash = (qs.getLast hq).recordHash) :
    rs.length = qs.length ∧ rs.map LedgerRecord.rawPayload = qs.map LedgerRecord.rawPayload := by
  have hrc : Chained rs := validateRecords_chainValid.mp hrv
  have hqc : Chained qs := validateRecords_chainValid.mp hqv
  have hheads : chainHead (rs.map LedgerRecord.rawPayload) =
      chainHead (qs.map LedgerRecord.rawPayload) := by
    rw [← hrc.lastHash, ← hqc.lastHash, lastHash_eq_getLast hr, lastHash_eq_getLast hq, hh]
  rw [hrc.entries, hqc.entries] at hcf
  have hpayloads := chainHead_inj hcf hheads
  refine ⟨?_, hpayloads⟩
  simpa using congrArg List.length hpayloads

/-- The smallest row that the loop accepts: an empty payload and no previous hash. -/
def bareRecord (recordId : Uuid) : LedgerRecord :=
  newRecord ⟨.obj [], "", "CASE-2025-001", "", none, none, none, none, none⟩ recordId none
    recordId 0

theorem bareRecord_chained (recordId : Uuid) : Chained [bareRecord recordId] := by
  refine ⟨⟨rfl, trivial⟩, ?_⟩
  intro r hr
  rw [List.mem_singleton.mp hr]
  exact newRecord_hashesMatch _ _ _ _ _

/-- The proofs of two artifacts of one case, appended one after the other under any record ids. -/
def firstProof (recordId : Uuid) : LedgerRecord :=
  newRecord (proofArgs (.ofNat 1) "CASE-2025-001" "" "") (.ofNat 1) none recordId 0

def secondProof (recordId : Uuid) : LedgerRecord :=
  newRecord (proofArgs (.ofNat 2) "CASE-2025-001" "" "") (.ofNat 2)
    (some (firstProof recordId).recordHash) recordId 1

/-- What a row stores for its entry does not depend on its id. -/
theorem firstProof_recordHash (m n : Uuid) :
    (firstProof m).recordHash = (firstProof n).recordHash := rfl

theorem proofs_chained (m n : Uuid) : Chained [firstProof m, secondProof n] := by
  refine ⟨⟨rfl, firstProof_recordHash n m ▸ rfl, trivial⟩, ?_⟩
  intro r hr
  simp only [List.mem_cons, List.not_mem_nil, or_false] at hr
  rcases hr with rfl | rfl <;> exact newRecord_hashesMatch _ _ _ _ _

/-- The members of a proof's payload in the order in which they are hashed. -/
theorem appendProofRecord_sortKeys (request : ProofRecordRequest) :
    (appendProofRecord request).rawPayload.sortKeys = .obj [
      ("artifact_id", .str request.artifactId),
      ("case_id", .str request.caseId),
      ("created_at", .str request.createdAt),
      ("hash_algorithm", .str request.hashAlgorithm),
      ("hash_value", .str request.hashValue),
      ("record_type", .str request.recordType),
      ("signature_algorithm", .str request.signatureAlgorithm),
      ("signature_value", .str request.signatureValue),
      ("signer_id", .str request.signerId)] := by
  simp only [appendProofRecord, Json.sortKeys, Json.sortMembers]
  simp [Json.keyLE]

/-- The four texts that are hashed for the two proofs. -/
def proofTexts : List String :=
  [firstProof (.ofNat 0), secondProof (.ofNat 0)].flatMap fun r =>
    [r.rawPayload.dumps, dataToHash (computePayloadHash r.rawPayload.value) r.previousRecordHash]

theorem proofTexts_digests : (proofTexts.map sha256Text).Nodup := by
  -- sorted and encoded by lemmas, so that the kernel only computes the four digests
  simp only [proofTexts, List.flatMap_cons, List.flatMap_nil, List.append_nil, List.map_cons,
    List.map_append, List.map_nil, firstProof, secondProof, newRecord, createHashChainEntry,
    computePayloadHash_ofJson, Jsonb.dumps_ofJson]
  simp only [computePayloadHash, computeRecordHash, Json.dumps, proofArgs,
    appendProofRecord_sortKeys, sha256Text, utf8_ofList]
  decide +kernel

theorem proofTexts_collisionFree : CollisionFree {t | t ∈ proofTexts} :=
  fun _ ht _ hu h => List.inj_on_of_nodup_map proofTexts_digests ht hu h

theorem hashedTexts_proofs (m n : Uuid) :
    hashedTexts ([firstProof m, secondProof n].map LedgerRecord.entry) ⊆ {t | t ∈ proofTexts} := by
  rintro t ⟨e, he, ht⟩
  simp only [List.map_cons, List.map_nil, List.mem_cons, List.not_mem_nil, or_false] at he
  show t ∈ [_, _, _, _]
  rcases he with rfl | rfl <;> rcases ht with rfl | rfl
  · exact .head _
  · exact .tail _ (.head _)
  · exact .tail _ (.tail _ (.head _))
  · exact .tail _ (.tail _ (.tail _ (.head _)))

/-- Two tables with the same two proofs in rows of their own end in one hash. -/
theorem proof_heads_commit :
    [firstProof (.ofNat 3), secondProof (.ofNat 4)].length =
        [firstProof (.ofNat 5), secondProof (.ofNat 6)].length ∧
      [firstProof (.ofNat 3), secondProof (.ofNat 4)].map LedgerRecord.rawPayload =
        [firstProof (.ofNat 5), secondProof (.ofNat 6)].map LedgerRecord.rawPayload := by
  refine ledger_head_commits (by simp) (by simp)
    (validateRecords_chainValid.mpr (proofs_chained _ _))
    (validateRecords_chainValid.mpr (proofs_chained _ _))
    (proofTexts_collisionFree.mono (Set.union_subset (hashedTexts_proofs _ _)
      (hashedTexts_proofs _ _))) ?_
  rfl

/-- The payloads appended to a case, in the order of their commits. -/
def appendedPayloads (s : State) (caseId : String) : List Jsonb :=
  (caseRecords s.records caseId).map LedgerRecord.rawPayload

/-- The payloads that the validator checks when it is asked for a case. -/
def checkedPayloads (records : List LedgerRecord) (caseId : String) : List Jsonb :=
  (readCase records (Text.strip caseId)).map LedgerRecord.rawPayload

/-- Whatever was done to the rows: the validator accepts no other history than the appended one. -/
def DetectsChange (s : State) (caseId : String) (records : List LedgerRecord) : Prop :=
  (validateLedgerChain (.ok records) caseId).chainValid = true →
    checkedPayloads records caseId = appendedPayloads s caseId

/-- The rows that are there for the case, if they form a chain, end at the hash of the appends. -/
def EndsAtHead (s : State) (caseId : String) (records : List LedgerRecord) : Prop :=
  Text.strip caseId ≠ "" → Chained (readCase records (Text.strip caseId)) →
    lastHash (readCase records (Text.strip caseId)) = chainHead (appendedPayloads s caseId)

theorem chainHead_appendedPayloads (h : system.ReachableWhen VerbatimCase s) :
    chainHead (appendedPayloads s caseId) = (s.heads caseId).join := by
  obtain ⟨hchain, hhead⟩ := (invariant_reachable h).cases caseId
  rw [hhead, hchain.lastHash, appendedPayloads]

/-- The validator detects a change if and only if the rows left do not form a chain of their own
that ends elsewhere than at the recorded head. -/
theorem validation_detects_iff {records : List LedgerRecord}
    (hcf : CollisionFree (hashedTexts (payloadChain (appendedPayloads s caseId)) ∪
      hashedTexts ((readCase records (Text.strip caseId)).map LedgerRecord.entry))) :
    (DetectsChange s caseId records ↔ EndsAtHead s caseId records) ∧
      (system.ReachableWhen VerbatimCase s →
        chainHead (appendedPayloads s caseId) = (s.heads caseId).join) := by
  refine ⟨?_, chainHead_appendedPayloads⟩
  constructor
  · intro h hc hchain
    have hpayloads := h (validateLedgerChain_chainValid.mpr ⟨hc, hchain⟩)
    rw [hchain.lastHash, ← hpayloads, checkedPayloads]
  · intro h hvalid
    obtain ⟨hc, hchain⟩ := validateLedgerChain_chainValid.mp hvalid
    rw [hchain.entries] at hcf
    refine (chainHead_inj hcf ?_).symm
    rw [← h hc hchain, hchain.lastHash]

theorem readCase_singleton {r : LedgerRecord} (hr : r.caseId = caseId) :
    readCase [r] caseId = [r] := by
  simp [readCase, caseRecords, hr]

theorem hashedTexts_row {r : LedgerRecord} (hr : r ∈ rs) :
    hashedTexts [r.entry] ⊆ hashedTexts (rs.map LedgerRecord.entry) := by
  rintro t ⟨e, he, ht⟩
  obtain rfl := List.mem_singleton.mp he
  exact ⟨r.entry, List.mem_map_of_mem hr, ht⟩

/-- The two proofs have hashes of their own. -/
theorem proofs_recordHash_ne (m n : Uuid) :
    (firstProof m).recordHash ≠ (secondProof n).recordHash := by
  intro h
  have hchain := proofs_chained m n
  have hdigest : ∀ r ∈ [firstProof m, secondProof n], DigestOrNone r.entry.2 := by
    intro r hr
    exact digestOrNone_of_mem_chain (hchain.entries ▸ List.mem_map_of_mem hr)
  have htexts : ∀ r ∈ [firstProof m, secondProof n], hashedTexts [r.entry] ⊆ {t | t ∈ proofTexts} :=
    fun r hr => (hashedTexts_row hr).trans (hashedTexts_proofs m n)
  have hfirst : firstProof m ∈ [firstProof m, secondProof n] := by simp
  have hsecond : secondProof n ∈ [firstProof m, secondProof n] := by simp
  rw [hchain.recordHash_eq _ hfirst, hchain.recordHash_eq _ hsecond] at h
  have hentries := entry_eq_of_link_eq proofTexts_collisionFree (htexts _ hfirst)
    (htexts _ hsecond) (hdigest _ hfirst) (hdigest _ hsecond) h
  exact Option.some_ne_none _ (congrArg Prod.snd hentries).symm

theorem proofs_reachable (m n : Uuid) (hne : m ≠ n) : ∃ s,
    system.ReachableWhen VerbatimCase s ∧ s.records = [firstProof m, secondProof n] := by
  have hempty : Postgres.text "" = some "" := by decide
  obtain ⟨s, r, q, hs, _, hrecords, hr, hq⟩ := two_proofs_reachable "CASE-2025-001" "" ""
    (.ofNat 1) (.ofNat 2) (by decide) (by decide) hempty (by decide) hempty m n hne
  refine ⟨s, hs, ?_⟩
  rw [hrecords, hq, hr]
  rfl

theorem readCase_proofs (m n : Uuid) :
    readCase [firstProof m, secondProof n] (Text.strip "CASE-2025-001") =
      [firstProof m, secondProof n] := by
  have hcase : caseRecords [firstProof m, secondProof n] (Text.strip "CASE-2025-001") =
      [firstProof m, secondProof n] :=
    List.filter_eq_self.mpr (by simp [firstProof, secondProof, newRecord, proofArgs,
      appendProofRecord, Client.appendProof]; decide)
  have horder : OrderBy.Asc LedgerRecord.createdAt (fun r => r.recordId.value) (firstProof m)
      (secondProof n) := .inl (show (0 : Timestamp) < 1 by decide)
  rw [readCase, hcase]
  simp [horder]

/-- Of two appended proofs, the table as it is shows no change, and without the second neither. -/
theorem second_proof_missed : ∃ s, s.records = [firstProof (.ofNat 3), secondProof (.ofNat 4)] ∧
    chainHead (appendedPayloads s "CASE-2025-001") = (s.heads "CASE-2025-001").join ∧
    DetectsChange s "CASE-2025-001" s.records ∧
    ¬ DetectsChange s "CASE-2025-001" [firstProof (.ofNat 3)] := by
  obtain ⟨s, hs, hrecords⟩ := proofs_reachable (.ofNat 3) (.ofNat 4) (by decide)
  have happended : appendedPayloads s "CASE-2025-001" =
      [firstProof (.ofNat 3), secondProof (.ofNat 4)].map LedgerRecord.rawPayload := by
    rw [appendedPayloads, hrecords]
    rfl
  have hread := readCase_proofs (.ofNat 3) (.ofNat 4)
  have hchain := proofs_chained (.ofNat 3) (.ofNat 4)
  have hfirst : readCase [firstProof (.ofNat 3)] (Text.strip "CASE-2025-001") =
      [firstProof (.ofNat 3)] := readCase_singleton (by decide)
  have htexts : hashedTexts (payloadChain (appendedPayloads s "CASE-2025-001")) ⊆
      {t | t ∈ proofTexts} := by
    rw [happended, ← hchain.entries]
    exact hashedTexts_proofs _ _
  have hhead : chainHead (appendedPayloads s "CASE-2025-001") =
      some (secondProof (.ofNat 4)).recordHash := by
    rw [happended, ← hchain.lastHash]
    rfl
  have hall : hashedTexts ((readCase s.records (Text.strip "CASE-2025-001")).map
      LedgerRecord.entry) ⊆ {t | t ∈ proofTexts} := by
    rw [hrecords, hread]
    exact hashedTexts_proofs _ _
  have hcf := proofTexts_collisionFree.mono (Set.union_subset htexts hall)
  refine ⟨s, hrecords, (validation_detects_iff hcf).2 hs,
    (validation_detects_iff hcf).1.mpr fun _ _ => ?_, fun hdetects => ?_⟩
  · rw [hrecords, hread, hhead]
    rfl
  · have hone : hashedTexts ([firstProof (.ofNat 3)].map LedgerRecord.entry) ⊆
        {t | t ∈ proofTexts} :=
      (hashedTexts_row List.mem_cons_self).trans (hashedTexts_proofs (.ofNat 3) (.ofNat 4))
    have hends := (validation_detects_iff (proofTexts_collisionFree.mono
      (Set.union_subset htexts (by rw [hfirst]; exact hone)))).1.mp hdetects (by decide)
      (hfirst.symm ▸ ⟨⟨rfl, trivial⟩, fun r hr => hchain.2 r (by simp_all)⟩)
    rw [hfirst, hhead] at hends
    exact proofs_recordHash_ne _ _ (Option.some.inj hends)

/-- A case of two records whose last one was deleted is accepted, with the first payload only. -/
theorem truncation_accepted :
    ∃ s r q, system.ReachableWhen VerbatimCase s ∧ s.records = [r, q] ∧
      ¬ DetectsChange s "CASE-2025-001" [r] := by
  have hempty : Postgres.text "" = some "" := by decide
  obtain ⟨s, r, q, hs, _, hr, hrec, hq⟩ := two_proofs_reachable "CASE-2025-001" "" ""
    ⟨1, by decide⟩ ⟨2, by decide⟩ (by decide) (by decide) hempty (by decide) hempty
    ⟨3, by decide⟩ ⟨4, by decide⟩ (by decide)
  refine ⟨s, r, q, hs, hr, ?_⟩
  have hcase : r.caseId = "CASE-2025-001" := hrec ▸ rfl
  have hread : readCase [r] (Text.strip "CASE-2025-001") = [r] :=
    readCase_singleton (hcase.trans (by decide))
  have hchain : Chained [r] := by
    refine ⟨⟨hrec ▸ rfl, trivial⟩, ?_⟩
    intro x hx
    rw [List.mem_singleton.mp hx, hrec]
    exact newRecord_hashesMatch _ _ _ _ _
  intro h
  have hlen := congrArg List.length
    (h (validateLedgerChain_chainValid.mpr ⟨by decide, hread.symm ▸ hchain⟩))
  have hcount : (caseRecords s.records "CASE-2025-001").length = 2 := by
    rw [hr, hq, hrec]
    simp [caseRecords, newRecord, proofArgs, appendProofRecord, Client.appendProof]
  simp [checkedPayloads, appendedPayloads, hread, hcount] at hlen

end ForensicChain.Ledger
