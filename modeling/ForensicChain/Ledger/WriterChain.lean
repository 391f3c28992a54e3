import ForensicChain.Ledger.Validation
import Mathlib.Order.Bounds.Basic

/-!
The writer's side of the chain: `create_hash_chain_entry` folded over the payloads. The loop of the
validator accepts what the fold gives and nothing else, and stops where the rows leave the fold.
-/
namespace ForensicChain.Ledger

/-- `payload_hash`, `previous_record_hash` and `record_hash` of a row. -/
def LedgerRecord.columns (r : LedgerRecord) : String × Option String × String :=
  (r.payloadHash, r.previousRecordHash, r.recordHash)

/-- The columns that an append after `previousRecordHash` fills in. -/
def entryColumns (rawPayload : Jsonb) (previousRecordHash : Option String) :
    String × Option String × String :=
  let (payloadHash, recordHash) := createHashChainEntry rawPayload.value previousRecordHash
  (payloadHash, previousRecordHash, recordHash)

/-- The columns of one append after the other, each from the record hash of the one before. -/
def foldEntries : Option String → List Jsonb → List (String × Option String × String)
  | _, [] => []
  | previousRecordHash, rawPayload :: rawPayloads =>
    let columns := entryColumns rawPayload previousRecordHash
    columns :: foldEntries (some columns.2.2) rawPayloads

/-- The rows carry the columns that appending their payloads after `p` gives. -/
def WrittenAfter (p : Option String) (rs : List LedgerRecord) : Prop :=
  rs.map LedgerRecord.columns = foldEntries p (rs.map LedgerRecord.rawPayload)

variable {rs : List LedgerRecord} {r : LedgerRecord} {p : Option String} {n : Nat}

theorem writtenAfter_nil : WrittenAfter p [] := rfl

theorem writtenAfter_cons : WrittenAfter p (r :: rs) ↔
    r.columns = entryColumns r.rawPayload p ∧ WrittenAfter (some r.recordHash) rs := by
  simp only [WrittenAfter, List.map_cons, foldEntries, List.cons.injEq]
  refine and_congr_right fun h => ?_
  rw [← h]
  rfl

/-- The three checks of the loop compare a row with the columns of an append. -/
theorem columns_eq_entryColumns : r.columns = entryColumns r.rawPayload p ↔
    r.previousRecordHash = p ∧ computePayloadHash r.rawPayload.value = r.payloadHash ∧
      computeRecordHash (computePayloadHash r.rawPayload.value) r.previousRecordHash =
        r.recordHash := by
  simp only [LedgerRecord.columns, entryColumns, createHashChainEntry, Prod.mk.injEq]
  constructor
  · rintro ⟨hpay, rfl, hrec⟩
    exact ⟨rfl, hpay.symm, hrec.symm⟩
  · rintro ⟨rfl, hpay, hrec⟩
    exact ⟨hpay.symm, rfl, hrec.symm⟩

theorem validateRecords_cons (h : r.columns = entryColumns r.rawPayload p) :
    validateRecords p n (r :: rs) = validateRecords (some r.recordHash) (n + 1) rs := by
  obtain ⟨hprev, hpay, hrec⟩ := columns_eq_entryColumns.mp h
  rw [validateRecords, if_neg (not_not.mpr hprev), if_neg (not_not.mpr hpay),
    if_neg (not_not.mpr hrec)]

/-- The loop stops at the first row that no append would have written there. -/
theorem validateRecords_stop (h : r.columns ≠ entryColumns r.rawPayload p) :
    (validateRecords p n (r :: rs)).chainValid = false ∧
      (validateRecords p n (r :: rs)).checkedRecords = n := by
  unfold validateRecords
  split_ifs with hprev hpay hrec
  · exact ⟨rfl, rfl⟩
  · exact ⟨rfl, rfl⟩
  · exact ⟨rfl, rfl⟩
  · have hr := columns_eq_entryColumns.mpr ⟨not_not.mp hprev, not_not.mp hpay, not_not.mp hrec⟩
    exact absurd hr h

theorem validateRecords_writtenAfter :
    (validateRecords p n rs).chainValid = true ↔ WrittenAfter p rs := by
  induction rs generalizing p n with
  | nil => simp [validateRecords, writtenAfter_nil]
  | cons r rs ih =>
    rw [writtenAfter_cons]
    by_cases h : r.columns = entryColumns r.rawPayload p
    · rw [validateRecords_cons h, ih]
      simp [h]
    · simp [(validateRecords_stop h).1, h]

/-- The lengths of the prefixes that are written after `p`. -/
def writtenPrefixes (p : Option String) (rs : List LedgerRecord) : Set Nat :=
  {k | k ≤ rs.length ∧ WrittenAfter p (rs.take k)}

theorem zero_mem_writtenPrefixes : 0 ∈ writtenPrefixes p rs :=
  ⟨Nat.zero_le _, writtenAfter_nil⟩

theorem succ_mem_writtenPrefixes {k : Nat} : k + 1 ∈ writtenPrefixes p (r :: rs) ↔
    r.columns = entryColumns r.rawPayload p ∧ k ∈ writtenPrefixes (some r.recordHash) rs := by
  simp only [writtenPrefixes, Set.mem_ofPred_eq, List.take_succ_cons, writtenAfter_cons,
    List.length_cons, Nat.add_le_add_iff_right]
  tauto

/-- Past its start the counter is the length of the longest written prefix. -/
theorem checkedRecords_isGreatest (p : Option String) (n : Nat) (rs : List LedgerRecord) :
    ∃ k, (validateRecords p n rs).checkedRecords = n + k ∧
      IsGreatest (writtenPrefixes p rs) k := by
  induction rs generalizing p n with
  | nil => exact ⟨0, rfl, zero_mem_writtenPrefixes, fun k hk => hk.1⟩
  | cons r rs ih =>
    by_cases h : r.columns = entryColumns r.rawPayload p
    · obtain ⟨k, hcount, hmem, hmax⟩ := ih (p := some r.recordHash) (n := n + 1)
      refine ⟨k + 1, ?_, succ_mem_writtenPrefixes.mpr ⟨h, hmem⟩, ?_⟩
      · rw [validateRecords_cons h, hcount]
        omega
      · rintro (_ | j) hj
        · exact Nat.zero_le _
        · exact Nat.succ_le_succ (hmax (succ_mem_writtenPrefixes.mp hj).2)
    · refine ⟨0, (validateRecords_stop h).2, zero_mem_writtenPrefixes, ?_⟩
      rintro (_ | j) hj
      · exact Nat.le_refl 0
      · exact absurd (succ_mem_writtenPrefixes.mp hj).1 h

/-- The validator accepts the rows that the writer gives, and otherwise counts the longest prefix
of them that the writer gives. -/
theorem validator_accepts_written (rs : List LedgerRecord) :
    ((validateRecords none 0 rs).chainValid = true ↔ WrittenAfter none rs) ∧
      ((validateRecords none 0 rs).chainValid = false →
        IsGreatest (writtenPrefixes none rs) (validateRecords none 0 rs).checkedRecords) ∧
      ((validateRecords none 0 rs).chainValid = true →
        (validateRecords none 0 rs).checkedRecords = rs.length) := by
  refine ⟨validateRecords_writtenAfter, ?_, ?_⟩
  · intro _
    obtain ⟨k, hcount, hk⟩ := checkedRecords_isGreatest none 0 rs
    rwa [hcount, Nat.zero_add]
  · intro h
    rw [validateRecords_eq h, Nat.zero_add]

end ForensicChain.Ledger
