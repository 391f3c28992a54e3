import ForensicChain.Library.HashChain
import ForensicChain.Library.Json
import ForensicChain.Library.Sha256

/-! The hashes of a ledger record: one over its payload, one linking it to the record before. -/
namespace ForensicChain.Ledger

def computePayloadHash (rawPayload : Json) : String := sha256Text rawPayload.dumps

/-- `data_to_hash`: an empty previous hash counts as none. -/
def dataToHash (payloadHash : String) (previousRecordHash : Option String) : String :=
  match previousRecordHash with
  | some p => if p = "" then payloadHash ++ "GENESIS" else payloadHash ++ p
  | none => payloadHash ++ "GENESIS"

def computeRecordHash (payloadHash : String) (previousRecordHash : Option String) : String :=
  sha256Text (dataToHash payloadHash previousRecordHash)

def createHashChainEntry (rawPayload : Json) (previousRecordHash : Option String) :
    String × String :=
  let payloadHash := computePayloadHash rawPayload
  (payloadHash, computeRecordHash payloadHash previousRecordHash)

@[simp]
theorem computePayloadHash_length (j : Json) : (computePayloadHash j).length = 64 :=
  sha256Text_length _

@[simp]
theorem computeRecordHash_length (h : String) (p : Option String) :
    (computeRecordHash h p).length = 64 := sha256Text_length _

/-- The stored form of a payload has the hash of the payload itself. -/
theorem computePayloadHash_ofJson (j : Json) :
    computePayloadHash (Jsonb.ofJson j).value = computePayloadHash j :=
  congrArg sha256Text (Jsonb.dumps_ofJson j)

/-- A previous hash as the chain has them: none at the start, else a digest. -/
def DigestOrNone (p : Option String) : Prop := ∀ h ∈ p, h.length = 64

theorem dataToHash_some {h p : String} (hp : p.length = 64) : dataToHash h (some p) = h ++ p := by
  have hne : p ≠ "" := by
    rintro rfl
    simp at hp
  simp [dataToHash, hne]

/-- Payload hash and previous hash can be read off the text, which is never the genesis form. -/
theorem dataToHash_inj {h k : String} {p q : Option String} (hh : h.length = 64)
    (hk : k.length = 64) (hp : DigestOrNone p) (hq : DigestOrNone q)
    (he : dataToHash h p = dataToHash k q) : h = k ∧ p = q := by
  have cancel : ∀ a b : String, h ++ a = k ++ b → h = k ∧ a = b := by
    intro a b hab
    have hl : h.toList ++ a.toList = k.toList ++ b.toList := by
      rw [← String.toList_append, ← String.toList_append, hab]
    obtain ⟨h1, h2⟩ := List.append_inj hl (by simp [String.length_toList, hh, hk])
    exact ⟨String.toList_inj.mp h1, String.toList_inj.mp h2⟩
  have genesis_ne : ∀ a : String, a.length = 64 → a ≠ "GENESIS" := by
    rintro a ha rfl
    exact absurd ha (by decide)
  cases p with
  | none =>
    cases q with
    | none => exact ⟨(cancel _ _ he).1, rfl⟩
    | some q =>
      rw [dataToHash_some (hq q rfl)] at he
      exact absurd (cancel _ _ he).2.symm (genesis_ne q (hq q rfl))
  | some p =>
    rw [dataToHash_some (hp p rfl)] at he
    cases q with
    | none => exact absurd (cancel _ _ he).2 (genesis_ne p (hp p rfl))
    | some q =>
      rw [dataToHash_some (hq q rfl)] at he
      obtain ⟨h1, h2⟩ := cancel _ _ he
      exact ⟨h1, by rw [h2]⟩

end ForensicChain.Ledger
