import ForensicChain.Library.Sha256

/-! The hash-sign service: the hash of a file, read in blocks, and the signature over it. -/
namespace ForensicChain.HashSign

/-- The blocks that `f.read(n)` returns until it returns nothing. -/
def readBlocks (n : Nat) : Nat → List UInt8 → List (List UInt8)
  | 0, _ => []
  | _, [] => []
  | fuel + 1, bytes => bytes.take n :: readBlocks n fuel (bytes.drop n)

/-- The blocks that reads of at most `n` bytes may return until one returns nothing. -/
structure Reads (n : Nat) (bytes : List UInt8) (blocks : List (List UInt8)) : Prop where
  flatten : blocks.flatten = bytes
  block : ∀ b ∈ blocks, b ≠ [] ∧ b.length ≤ n

/-- A `hashlib.sha256()` object after the given updates. -/
def hexdigest (updates : List (List UInt8)) : String := sha256 updates.flatten

/-- `compute_sha256`, with what the file system has at the path. -/
def computeSha256 (filePath : String) (content : Option (List UInt8)) : Except String String :=
  match content with
  | none => .error ("File not found: " ++ filePath)
  | some bytes => .ok (hexdigest (readBlocks 65536 bytes.length bytes))

theorem readBlocks_flatten {n : Nat} (hn : 0 < n) {fuel : Nat} {bytes : List UInt8}
    (h : bytes.length ≤ fuel) : (readBlocks n fuel bytes).flatten = bytes := by
  induction fuel generalizing bytes with
  | zero =>
    rw [List.eq_nil_of_length_eq_zero (Nat.le_zero.mp h)]
    rfl
  | succ fuel ih =>
    cases bytes with
    | nil => rfl
    | cons b bytes =>
      have hrest : ((b :: bytes).drop n).length ≤ fuel := by
        simp only [List.length_drop, List.length_cons] at h ⊢
        omega
      rw [readBlocks, List.flatten_cons, ih hrest, List.take_append_drop]
      simp

/-- However the file is read, the hash is that of its content. -/
theorem Reads.hexdigest {n : Nat} {bytes : List UInt8} {blocks : List (List UInt8)}
    (h : Reads n bytes blocks) : hexdigest blocks = sha256 bytes := by
  rw [HashSign.hexdigest, h.flatten]

theorem readBlocks_block {n : Nat} (hn : 0 < n) {fuel : Nat} {bytes : List UInt8} :
    ∀ b ∈ readBlocks n fuel bytes, b ≠ [] ∧ b.length ≤ n := by
  induction fuel generalizing bytes with
  | zero => simp [readBlocks]
  | succ fuel ih =>
    cases bytes with
    | nil => simp [readBlocks]
    | cons b bytes =>
      intro c hc
      rcases List.mem_cons.mp hc with rfl | hc
      · refine ⟨?_, List.length_take_le _ _⟩
        simp only [ne_eq, List.take_eq_nil_iff, reduceCtorEq, or_false]
        omega
      · exact ih c hc

/-- Full blocks are one way of reading. -/
theorem reads_readBlocks {n : Nat} (hn : 0 < n) (bytes : List UInt8) :
    Reads n bytes (readBlocks n bytes.length bytes) :=
  ⟨readBlocks_flatten hn le_rfl, readBlocks_block hn⟩

/-- The blocks do not matter: the hash is that of the whole content. -/
theorem computeSha256_some (filePath : String) (bytes : List UInt8) :
    computeSha256 filePath (some bytes) = .ok (sha256 bytes) := by
  rw [computeSha256, (reads_readBlocks (by decide) bytes).hexdigest]

/-- The key pair of the service. RSA and Base64 are not part of the repository. -/
structure Signer where
  signHash : String → String
  verifySignature : String → String → Bool

/-- `ComputeAndSignHash`: the hash and the signature. -/
def Signer.computeAndSignHash (keys : Signer) (filePath : String)
    (content : Option (List UInt8)) : Except String (String × String) := do
  let hashHex ← computeSha256 filePath content
  return (hashHex, keys.signHash hashHex)

/-- Whatever blocks the reads return, the answer is the hash over them and its signature. -/
theorem Signer.computeAndSignHash_reads (keys : Signer) {n : Nat} {bytes : List UInt8}
    {blocks : List (List UInt8)} (h : Reads n bytes blocks) (filePath : String) :
    keys.computeAndSignHash filePath (some bytes) =
      .ok (HashSign.hexdigest blocks, keys.signHash (HashSign.hexdigest blocks)) := by
  rw [Signer.computeAndSignHash, computeSha256_some, h.hexdigest]
  rfl

/-- A stand-in for the key pair: the signature of a hash is the hash. -/
def plainKeys : Signer := ⟨id, fun hash signature => signature == hash⟩

end ForensicChain.HashSign
