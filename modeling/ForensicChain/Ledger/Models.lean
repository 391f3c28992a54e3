import ForensicChain.Ledger.HashChain
import ForensicChain.Library.Postgres
import ForensicChain.Library.Uuid

/-! Requests, responses and rows of the immutable ledger. -/
namespace ForensicChain

/-- An instant, in microseconds. -/
abbrev Timestamp := Int

namespace Ledger

structure ProofRecordRequest where
  artifactId : String
  caseId : String
  recordType : String
  hashAlgorithm : String
  hashValue : String
  signatureAlgorithm : String
  signatureValue : String
  signerId : String
  createdAt : String

structure VerificationRecordRequest where
  artifactId : String
  caseId : String
  recordType : String
  verificationResult : String
  originalHash : String
  currentHash : String
  verifiedBy : String
  verifiedAt : String

structure ProofRecordResponse where
  recordId : String
  artifactId : String
  recordType : String
  payloadHash : String
  previousRecordHash : String
  recordHash : String
  createdAt : Option Timestamp
  success : Bool
  errorMessage : String

/-- A row of `ledger_records`. -/
structure LedgerRecord where
  recordId : Uuid
  artifactId : Uuid
  caseId : String
  recordType : String
  hashAlgorithm : Option String
  hashValue : Option String
  signatureAlgorithm : Option String
  signatureValue : Option String
  signerId : Option String
  payloadHash : String
  previousRecordHash : Option String
  recordHash : String
  rawPayload : Jsonb
  createdAt : Timestamp

open Postgres in
/-- The row as its columns keep it. -/
def LedgerRecord.store (r : LedgerRecord) : Option LedgerRecord := do
  let caseId ← varchar 64 r.caseId
  let recordType ← varchar 64 r.recordType
  let hashAlgorithm ← nullable (varchar 32) r.hashAlgorithm
  let hashValue ← nullable (varchar 256) r.hashValue
  let signatureAlgorithm ← nullable (varchar 32) r.signatureAlgorithm
  let signatureValue ← nullable text r.signatureValue
  let signerId ← nullable (varchar 128) r.signerId
  let payloadHash ← varchar 256 r.payloadHash
  let previousRecordHash ← nullable (varchar 256) r.previousRecordHash
  let recordHash ← varchar 256 r.recordHash
  guard (r.rawPayload.value.hasNul = false)
  some { r with
    caseId, recordType, hashAlgorithm, hashValue, signatureAlgorithm, signatureValue, signerId,
    payloadHash, previousRecordHash, recordHash }

open Postgres in
/-- What storing a row does to each of its columns. -/
structure LedgerRecord.StoredAs (r stored : LedgerRecord) : Prop where
  caseId : varchar 64 r.caseId = some stored.caseId
  recordType : varchar 64 r.recordType = some stored.recordType
  hashAlgorithm : nullable (varchar 32) r.hashAlgorithm = some stored.hashAlgorithm
  hashValue : nullable (varchar 256) r.hashValue = some stored.hashValue
  signatureAlgorithm : nullable (varchar 32) r.signatureAlgorithm = some stored.signatureAlgorithm
  signatureValue : nullable text r.signatureValue = some stored.signatureValue
  signerId : nullable (varchar 128) r.signerId = some stored.signerId
  payloadHash : varchar 256 r.payloadHash = some stored.payloadHash
  previousRecordHash :
    nullable (varchar 256) r.previousRecordHash = some stored.previousRecordHash
  recordHash : varchar 256 r.recordHash = some stored.recordHash
  noNul : r.rawPayload.value.hasNul = false
  recordId : stored.recordId = r.recordId
  artifactId : stored.artifactId = r.artifactId
  rawPayload : stored.rawPayload = r.rawPayload
  createdAt : stored.createdAt = r.createdAt

theorem LedgerRecord.store_eq_some {r stored : LedgerRecord} (h : r.store = some stored) :
    r.StoredAs stored := by
  simp only [store, bind, Option.bind_eq_some_iff, Option.some.injEq] at h
  obtain ⟨c, hc, t, ht, ha, hha, v, hv, sa, hsa, sv, hsv, si, hsi, ph, hph, pr, hpr, rh, hrh, _,
    hguard, rfl⟩ := h
  have hnul : r.rawPayload.value.hasNul = false := by
    by_contra hne
    simp [guard, hne] at hguard
  exact ⟨hc, ht, hha, hv, hsa, hsv, hsi, hph, hpr, hrh, hnul, rfl, rfl, rfl, rfl⟩

/-- A digest fits its column. -/
theorem varchar_sha256 (bytes : List UInt8) :
    Postgres.varchar 256 (sha256 bytes) = some (sha256 bytes) := by
  refine Postgres.varchar_eq_self ?_ (by simp [sha256_length])
  intro hc
  have hhex := sha256_hex bytes _ hc
  revert hhex
  decide

theorem varchar_sha256Text (text : String) :
    Postgres.varchar 256 (sha256Text text) = some (sha256Text text) := varchar_sha256 _

/-- The rows of one case. -/
def caseRecords (records : List LedgerRecord) (caseId : String) : List LedgerRecord :=
  records.filter fun r => r.caseId = caseId

/-- The hash of the last of the rows. -/
def lastHash (rs : List LedgerRecord) : Option String :=
  HashChain.head LedgerRecord.recordHash none rs

/-- Both hashes of a row are those of its payload and its previous hash. -/
def LedgerRecord.HashesMatch (r : LedgerRecord) : Prop :=
  r.payloadHash = computePayloadHash r.rawPayload.value ∧
    r.recordHash = computeRecordHash r.payloadHash r.previousRecordHash

/-- A row whose hashes match is stored with the hashes that it was built with. -/
theorem LedgerRecord.HashesMatch.store {r r' : LedgerRecord} (h : r.HashesMatch)
    (hp : DigestOrNone r.previousRecordHash) (hs : r.store = some r') :
    r'.recordHash = r.recordHash ∧ r'.previousRecordHash = r.previousRecordHash ∧
      r'.HashesMatch := by
  have hstored := store_eq_some hs
  have hph : r'.payloadHash = r.payloadHash :=
    Postgres.eq_of_varchar (by rw [h.1]; simp) hstored.payloadHash
  have hrh : r'.recordHash = r.recordHash :=
    Postgres.eq_of_varchar (by rw [h.2]; simp) hstored.recordHash
  have hpr : r'.previousRecordHash = r.previousRecordHash := by
    apply Postgres.eq_of_nullable _ hstored.previousRecordHash
    intro d hd u hu
    have hlen := hp d hd
    exact Postgres.eq_of_varchar (by omega) hu
  refine ⟨hrh, hpr, ?_⟩
  rw [HashesMatch, hph, hrh, hpr, hstored.rawPayload]
  exact h

theorem caseRecords_concat {records : List LedgerRecord} {r : LedgerRecord} {k : String} :
    caseRecords (records ++ [r]) k =
      if k = r.caseId then caseRecords records k ++ [r] else caseRecords records k := by
  by_cases hk : k = r.caseId
  · simp [caseRecords, hk]
  · simp [caseRecords, hk, Ne.symm hk]

/-- One unforked chain from NULL, in the order of the list. -/
def Chained (rs : List LedgerRecord) : Prop :=
  HashChain.Linked LedgerRecord.previousRecordHash LedgerRecord.recordHash none rs ∧
    ∀ r ∈ rs, r.HashesMatch

theorem chained_concat {rs : List LedgerRecord} {r : LedgerRecord} :
    Chained (rs ++ [r]) ↔ Chained rs ∧ r.previousRecordHash = lastHash rs ∧ r.HashesMatch := by
  simp only [Chained, HashChain.linked_concat, lastHash, List.mem_append, List.mem_singleton,
    or_imp, forall_and, forall_eq]
  tauto

theorem lastHash_concat {rs : List LedgerRecord} {r : LedgerRecord} :
    lastHash (rs ++ [r]) = some r.recordHash := HashChain.head_concat

/-- The head of a chain is a digest. -/
theorem Chained.digestOrNone {rs : List LedgerRecord} (h : Chained rs) :
    DigestOrNone (lastHash rs) := by
  intro d hd
  obtain ⟨r, hr, rfl⟩ := HashChain.head_mem hd
  rw [(h.2 r hr).2, computeRecordHash_length]

end Ledger

end ForensicChain
