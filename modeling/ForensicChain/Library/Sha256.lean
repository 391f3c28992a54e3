import Mathlib.Data.List.Basic
import Mathlib.Data.Set.Function
import Mathlib.Data.String.Basic

/-! SHA-256 over bytes, as the hexadecimal text of the digest. -/
namespace Sha256

def word (n : Nat) : Nat := n % 2 ^ 32

def rotr (x n : Nat) : Nat := word ((x >>> n) ||| (x <<< (32 - n)))

/-- Round constants: fractional parts of the cube roots of the first 64 primes. -/
def roundConstants : List Nat :=
  [0x428a2f98, 0x71374491, 0xb5c0fbcf, 0xe9b5dba5, 0x3956c25b, 0x59f111f1, 0x923f82a4, 0xab1c5ed5,
   0xd807aa98, 0x12835b01, 0x243185be, 0x550c7dc3, 0x72be5d74, 0x80deb1fe, 0x9bdc06a7, 0xc19bf174,
   0xe49b69c1, 0xefbe4786, 0x0fc19dc6, 0x240ca1cc, 0x2de92c6f, 0x4a7484aa, 0x5cb0a9dc, 0x76f988da,
   0x983e5152, 0xa831c66d, 0xb00327c8, 0xbf597fc7, 0xc6e00bf3, 0xd5a79147, 0x06ca6351, 0x14292967,
   0x27b70a85, 0x2e1b2138, 0x4d2c6dfc, 0x53380d13, 0x650a7354, 0x766a0abb, 0x81c2c92e, 0x92722c85,
   0xa2bfe8a1, 0xa81a664b, 0xc24b8b70, 0xc76c51a3, 0xd192e819, 0xd6990624, 0xf40e3585, 0x106aa070,
   0x19a4c116, 0x1e376c08, 0x2748774c, 0x34b0bcb5, 0x391c0cb3, 0x4ed8aa4a, 0x5b9cca4f, 0x682e6ff3,
   0x748f82ee, 0x78a5636f, 0x84c87814, 0x8cc70208, 0x90befffa, 0xa4506ceb, 0xbef9a3f7, 0xc67178f2]

/-- The eight working words. -/
structure Words where
  a : Nat
  b : Nat
  c : Nat
  d : Nat
  e : Nat
  f : Nat
  g : Nat
  h : Nat

def initial : Words :=
  ⟨0x6a09e667, 0xbb67ae85, 0x3c6ef372, 0xa54ff53a, 0x510e527f, 0x9b05688c, 0x1f83d9ab, 0x5be0cd19⟩

def round (s : Words) (k w : Nat) : Words :=
  let s1 := rotr s.e 6 ^^^ rotr s.e 11 ^^^ rotr s.e 25
  let ch := (s.e &&& s.f) ^^^ ((2 ^ 32 - 1 - s.e) &&& s.g)
  let t1 := s.h + s1 + ch + k + w
  let s0 := rotr s.a 2 ^^^ rotr s.a 13 ^^^ rotr s.a 22
  let maj := (s.a &&& s.b) ^^^ (s.a &&& s.c) ^^^ (s.b &&& s.c)
  ⟨word (t1 + s0 + maj), s.a, s.b, s.c, word (s.d + t1), s.e, s.f, s.g⟩

/-- The next schedule word, from the last sixteen (latest first). -/
def nextWord (ws : List Nat) : Nat :=
  let w2 := ws.getD 1 0
  let w15 := ws.getD 14 0
  word (ws.getD 15 0 + (rotr w15 7 ^^^ rotr w15 18 ^^^ (w15 >>> 3)) +
    ws.getD 6 0 + (rotr w2 17 ^^^ rotr w2 19 ^^^ (w2 >>> 10)))

/-- The schedule words still to come, `n` of them, after the latest sixteen. -/
def extend : Nat → List Nat → List Nat
  | 0, _ => []
  | n + 1, ws => nextWord ws :: extend n (nextWord ws :: ws.take 15)

def compress (s : Words) (block : List Nat) : Words :=
  let t := (roundConstants.zip (block ++ extend 48 block.reverse)).foldl
    (fun s kw => round s kw.1 kw.2) s
  ⟨word (s.a + t.a), word (s.b + t.b), word (s.c + t.c), word (s.d + t.d),
    word (s.e + t.e), word (s.f + t.f), word (s.g + t.g), word (s.h + t.h)⟩

/-- Big-endian bytes of a number. -/
def toBytes : Nat → Nat → List Nat
  | 0, _ => []
  | k + 1, n => toBytes k (n / 256) ++ [n % 256]

def pad (bytes : List Nat) : List Nat :=
  bytes ++ 0x80 :: List.replicate ((119 - bytes.length % 64) % 64) 0 ++ toBytes 8 (8 * bytes.length)

/-- Big-endian 32-bit words of a list of bytes. -/
def toWords : List Nat → List Nat
  | a :: b :: c :: d :: rest => (((a * 256 + b) * 256 + c) * 256 + d) :: toWords rest
  | _ => []

/-- One compression for each of `n` blocks of sixteen words. -/
def blocks : Nat → Words → List Nat → Words
  | 0, s, _ => s
  | n + 1, s, ws => blocks n (compress s (ws.take 16)) (ws.drop 16)

def digest (message : List UInt8) : Words :=
  let padded := pad (message.map UInt8.toNat)
  blocks (padded.length / 64) initial (toWords padded)

def hex8 (n : Nat) : List Char :=
  [Nat.digitChar (n / 2 ^ 28 % 16), Nat.digitChar (n / 2 ^ 24 % 16),
    Nat.digitChar (n / 2 ^ 20 % 16), Nat.digitChar (n / 2 ^ 16 % 16),
    Nat.digitChar (n / 2 ^ 12 % 16), Nat.digitChar (n / 2 ^ 8 % 16),
    Nat.digitChar (n / 2 ^ 4 % 16), Nat.digitChar (n % 16)]

def Words.hex (s : Words) : List Char :=
  hex8 s.a ++ hex8 s.b ++ hex8 s.c ++ hex8 s.d ++ hex8 s.e ++ hex8 s.f ++ hex8 s.g ++ hex8 s.h

theorem hex8_length (n : Nat) : (hex8 n).length = 8 := rfl

theorem Words.hex_length (s : Words) : s.hex.length = 64 := by
  simp only [Words.hex, List.length_append, hex8_length]

def hexChars : List Char :=
  ['0', '1', '2', '3', '4', '5', '6', '7', '8', '9', 'a', 'b', 'c', 'd', 'e', 'f']

theorem digitChar_mem_hexChars (n : Nat) : Nat.digitChar (n % 16) ∈ hexChars := by
  have hall : ∀ k : Fin 16, Nat.digitChar k ∈ hexChars := by decide
  exact hall ⟨n % 16, Nat.mod_lt n (by omega)⟩

theorem hex8_mem (n : Nat) : ∀ c ∈ hex8 n, c ∈ hexChars := by
  intro c hc
  simp only [hex8, List.mem_cons, List.not_mem_nil, or_false] at hc
  rcases hc with rfl | rfl | rfl | rfl | rfl | rfl | rfl | rfl <;> exact digitChar_mem_hexChars _

theorem Words.hex_mem (s : Words) : ∀ c ∈ s.hex, c ∈ hexChars := by
  intro c hc
  simp only [Words.hex, List.mem_append] at hc
  rcases hc with ((((((hc | hc) | hc) | hc) | hc) | hc) | hc) | hc <;> exact hex8_mem _ c hc

end Sha256

/-- `hashlib.sha256(message).hexdigest()`. -/
@[irreducible]
def sha256 (message : List UInt8) : String := String.ofList (Sha256.digest message).hex

/-- `text.encode("utf-8")`. -/
def utf8 (s : String) : List UInt8 := s.toByteArray.data.toList

theorem utf8_ofList (cs : List Char) :
    utf8 (String.ofList cs) = cs.flatMap String.utf8EncodeChar := by
  simp [utf8, String.toByteArray_ofList, List.utf8Encode]

/-- The digest of a text. -/
def sha256Text (s : String) : String := sha256 (utf8 s)

theorem sha256_length (message : List UInt8) : (sha256 message).length = 64 := by
  unfold sha256
  rw [String.length_ofList, Sha256.Words.hex_length]

theorem sha256_hex (message : List UInt8) : ∀ c ∈ (sha256 message).toList, c ∈ Sha256.hexChars := by
  unfold sha256
  rw [String.toList_ofList]
  exact Sha256.Words.hex_mem _

@[simp]
theorem sha256Text_length (s : String) : (sha256Text s).length = 64 := sha256_length _

/-- No two of the texts in `S` have the same digest. -/
def CollisionFree (S : Set String) : Prop := Set.InjOn sha256Text S

theorem CollisionFree.mono {S T : Set String} (h : CollisionFree T) (hst : S ⊆ T) :
    CollisionFree S := Set.InjOn.mono hst h
