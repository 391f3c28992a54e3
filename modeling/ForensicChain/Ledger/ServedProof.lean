import ForensicChain.Ledger.Proof
import ForensicChain.Ledger.SoloAppend
import ForensicChain.Ledger.Validation

/-!
The proof that is served and the proof that was chained. The hashes of a row cover its payload;
`GetProofByArtifactId` answers from the columns beside it, which no check reads.
-/
namespace ForensicChain.Ledger

/-- The columns of a row repeat what its payload says; NULL counts as the empty text. -/
structure LedgerRecord.RepeatsPayload (r : LedgerRecord) : Prop where
  artifactId : ∃ t, r.rawPayload.value.field? "artifact_id" = some (.str t) ∧
    Uuid.parse t = some r.artifactId
  hashAlgorithm : r.rawPayload.value.field? "hash_algorithm" =
    some (.str (r.hashAlgorithm.getD ""))
  hashValue : r.rawPayload.value.field? "hash_value" = some (.str (r.hashValue.getD ""))
  signatureAlgorithm : r.rawPayload.value.field? "signature_algorithm" =
    some (.str (r.signatureAlgorithm.getD ""))
  signatureValue : r.rawPayload.value.field? "signature_value" =
    some (.str (r.signatureValue.getD ""))
  signerId : r.rawPayload.value.field? "signer_id" = some (.str (r.signerId.getD ""))

/-- The values of a response are those of the same names in a payload. -/
structure ArtifactIntegrityProofResponse.Says (response : ArtifactIntegrityProofResponse)
    (payload : Json) : Prop where
  artifactId : ∃ t, payload.field? "artifact_id" = some (.str t) ∧
    (Uuid.parse t).isSome ∧ Uuid.parse t = Uuid.parse response.artifactId
  hashAlgorithm : payload.field? "hash_algorithm" = some (.str response.hashAlgorithm)
  hashValue : payload.field? "hash_value" = some (.str response.hashValue)
  signatureAlgorithm : payload.field? "signature_algorithm" =
    some (.str response.signatureAlgorithm)
  signatureValue : payload.field? "signature_value" = some (.str response.signatureValue)
  signerId : payload.field? "signer_id" = some (.str response.signerId)

/-- The row that `GetProofByArtifactId` answers from. -/
def proofRow (records : List LedgerRecord) (artifactId : String) : Option LedgerRecord :=
  (Uuid.parse artifactId).bind (servedProof records)

/-- Once the case is found valid, a proof of the case says what the payload of its row says. -/
def ServedAsChained (records : List LedgerRecord) (caseId artifactId : String) : Prop :=
  (validateLedgerChain (.ok records) caseId).chainValid = true →
    (getProofByArtifactId (.ok records) artifactId).success = true →
      ∀ record, proofRow records artifactId = some record → record.caseId = caseId →
        (getProofByArtifactId (.ok records) artifactId).Says record.rawPayload.value

variable {records rs : List LedgerRecord} {r : LedgerRecord} {caseId artifactId key : String}
  {request : ProofRecordRequest}

theorem getProof_of_proofRow (h : proofRow records artifactId = some r) :
    getProofByArtifactId (.ok records) artifactId = proofResponse r := by
  obtain ⟨u, hu, hr⟩ := Option.bind_eq_some_iff.mp h
  simp [getProofByArtifactId, hu, hr]

theorem proofResponse_says : (proofResponse r).Says r.rawPayload.value ↔ r.RepeatsPayload := by
  constructor
  · rintro ⟨⟨t, ht, _, hparse⟩, halg, hval, hsalg, hsval, hsigner⟩
    exact ⟨⟨t, ht, hparse.trans (Uuid.parse_str _)⟩, halg, hval, hsalg, hsval, hsigner⟩
  · rintro ⟨⟨t, ht, hparse⟩, halg, hval, hsalg, hsval, hsigner⟩
    refine ⟨⟨t, ht, by simp [hparse], ?_⟩, halg, hval, hsalg, hsval, hsigner⟩
    exact hparse.trans (Uuid.parse_str _).symm

/-- The served proof is the chained one unless the rows of the case chain and the served row, one
of theirs, has a column that does not repeat its payload. -/
theorem served_as_chained_iff (records : List LedgerRecord) (caseId artifactId : String) :
    ServedAsChained records caseId artifactId ↔
      (Text.strip caseId ≠ "" → Chained (readCase records (Text.strip caseId)) →
        ∀ record, proofRow records artifactId = some record → record.caseId = caseId →
          record.RepeatsPayload) := by
  constructor
  · intro h hc hchain record hrow hcase
    have hsays := h (validateLedgerChain_chainValid.mpr ⟨hc, hchain⟩)
      (by rw [getProof_of_proofRow hrow]; rfl) record hrow hcase
    rwa [getProof_of_proofRow hrow, proofResponse_says] at hsays
  · intro h hvalid _ record hrow hcase
    obtain ⟨hc, hchain⟩ := validateLedgerChain_chainValid.mp hvalid
    rw [getProof_of_proofRow hrow, proofResponse_says]
    exact h hc hchain record hrow hcase

theorem proofPayload_sortKeys : (appendProofRecord request).rawPayload.sortKeys = .obj [
    ("artifact_id", .str request.artifactId),
    ("case_id", .str request.caseId),
    ("created_at", .str request.createdAt),
    ("hash_algorithm", .str request.hashAlgorithm),
    ("hash_value", .str request.hashValue),
    ("record_type", .str request.recordType),
    ("signature_algorithm", .str request.signatureAlgorithm),
    ("signature_value", .str request.signatureValue),
    ("signer_id", .str request.signerId)] := by
  simp only [appendProofRecord, Json.sortKeys, Json.sortMembers]
  simp [Json.keyLE]

/-- Where the columns take the request as it is given, the row repeats its payload. -/
theorem repeatsPayload_of_append {u recordId : Uuid} {previous : Option String} {now : Timestamp}
    (hu : Uuid.parse request.artifactId = some u) (hf : (appendProofRecord request).Fits key)
    (hd : Postgres.nullable (Postgres.varchar 256) previous = some previous)
    (hs : (newRecord (appendProofRecord request) u previous recordId now).store = some r) :
    r.RepeatsPayload := by
  rw [newRecord_store hf hd, Option.some.injEq] at hs
  subst hs
  refine ⟨⟨request.artifactId, ?_, hu⟩, ?_, ?_, ?_, ?_, ?_⟩ <;>
    · simp only [newRecord, Jsonb.ofJson, proofPayload_sortKeys]
      simp [Json.field?, appendProofRecord]

/-- A rewrite of columns that the validator does not read. -/
structure KeepsChainColumns (f : LedgerRecord → LedgerRecord) : Prop where
  payloadHash : ∀ r, (f r).payloadHash = r.payloadHash
  previousRecordHash : ∀ r, (f r).previousRecordHash = r.previousRecordHash
  recordHash : ∀ r, (f r).recordHash = r.recordHash
  rawPayload : ∀ r, (f r).rawPayload = r.rawPayload

/-- Rows that chain still do after such a rewrite. -/
theorem Chained.rewrite {f : LedgerRecord → LedgerRecord} (hf : KeepsChainColumns f)
    (h : Chained rs) : Chained (rs.map f) := by
  have hlinked : ∀ p,
      HashChain.Linked LedgerRecord.previousRecordHash LedgerRecord.recordHash p (rs.map f) ↔
        HashChain.Linked LedgerRecord.previousRecordHash LedgerRecord.recordHash p rs := by
    clear h
    induction rs with
    | nil => exact fun _ => Iff.rfl
    | cons r rs ih =>
      intro p
      simp only [List.map_cons, HashChain.Linked, hf.previousRecordHash, hf.recordHash, ih]
  refine ⟨(hlinked none).mpr h.1, ?_⟩
  intro q hq
  obtain ⟨r, hr, rfl⟩ := List.mem_map.mp hq
  rw [LedgerRecord.HashesMatch, hf.payloadHash, hf.previousRecordHash, hf.recordHash,
    hf.rawPayload]
  exact h.2 r hr

/-- A proof as the evidence collector appends it to an empty case. -/
def originalProof : LedgerRecord :=
  newRecord (appendProofRecord ⟨(Uuid.ofNat 1).str, "CASE-2025-001", "EVIDENCE_PROOF_CREATED",
    "SHA-256", "original", "RSA-PSS-SHA256", "signature", "forensic-key-001", ""⟩) (.ofNat 1) none
    (.ofNat 2) 0

def rewriteHashValue (r : LedgerRecord) : LedgerRecord := { r with hashValue := some "rewritten" }

theorem originalProof_chained : Chained [originalProof] := by
  refine ⟨⟨rfl, trivial⟩, ?_⟩
  intro r hr
  rw [List.mem_singleton.mp hr]
  exact newRecord_hashesMatch _ _ _ _ _

/-- The case of a rewritten proof is valid, and the rewritten hash is served. -/
theorem rewritten_proof_served :
    ¬ ServedAsChained [rewriteHashValue originalProof] "CASE-2025-001" (Uuid.ofNat 1).str := by
  have hread : readCase [rewriteHashValue originalProof] (Text.strip "CASE-2025-001") =
      [rewriteHashValue originalProof] := readCase_singleton (by decide)
  have hchain : Chained [rewriteHashValue originalProof] :=
    originalProof_chained.rewrite (f := rewriteHashValue)
      ⟨fun _ => rfl, fun _ => rfl, fun _ => rfl, fun _ => rfl⟩
  have hrow : proofRow [rewriteHashValue originalProof] (Uuid.ofNat 1).str =
      some (rewriteHashValue originalProof) := by
    rw [proofRow, Uuid.parse_str, Option.bind_some]
    rfl
  intro h
  have hsays := h (validateLedgerChain_chainValid.mpr ⟨by decide, hread.symm ▸ hchain⟩)
    (by rw [getProof_of_proofRow hrow]; rfl) _ hrow rfl
  rw [getProof_of_proofRow hrow, proofResponse_says] at hsays
  have hvalue := hsays.hashValue
  simp only [rewriteHashValue, originalProof, newRecord, Jsonb.ofJson, proofPayload_sortKeys]
    at hvalue
  simp [Json.field?] at hvalue

end ForensicChain.Ledger
