import ForensicChain.Library.Json
import Mathlib.Algebra.Ring.Int.Defs
import Mathlib.Data.List.TakeWhile

/-!
What a `jsonb` column keeps of a number: a decimal value and how many decimals it is shown with.
An exponent and the sign of a zero are lost.
-/

/-- The value `coefficient / 10 ^ scale`, shown with `scale` decimals. -/
structure Numeric where
  coefficient : Int
  scale : Nat
deriving DecidableEq

namespace Numeric

/-- A number of decimals below zero is made up by zeros of the coefficient. -/
def ofDecimals (coefficient decimals : Int) : Numeric :=
  if 0 ≤ decimals then ⟨coefficient, decimals.toNat⟩ else ⟨coefficient * 10 ^ (-decimals).toNat, 0⟩

/-- The exponent that ends a number, 0 without one. -/
def exponent : List Char → Int
  | 'e' :: '-' :: ds | 'E' :: '-' :: ds => -(Nat.ofDigitChars 10 ds 0 : Int)
  | 'e' :: '+' :: ds | 'E' :: '+' :: ds | 'e' :: ds | 'E' :: ds => Nat.ofDigitChars 10 ds 0
  | _ => 0

/-- The digits after the point, and what follows them. -/
def decimals : List Char → List Char × List Char
  | '.' :: cs => (cs.takeWhile Char.isDigit, cs.dropWhile Char.isDigit)
  | cs => ([], cs)

def readUnsigned (cs : List Char) : Numeric :=
  let (ds, rest) := decimals (cs.dropWhile Char.isDigit)
  ofDecimals (Nat.ofDigitChars 10 (cs.takeWhile Char.isDigit ++ ds) 0)
    (ds.length - exponent rest)

/-- The value of a number as it is written in JSON. -/
def read : List Char → Numeric
  | '-' :: cs => ⟨-(readUnsigned cs).coefficient, (readUnsigned cs).scale⟩
  | cs => readUnsigned cs

example : read ['1', 'e', '+', '2'] = read ['1', '0', '0'] := by decide

example : read ['-', '0', '.', '0'] = read ['0', '.', '0'] := by decide

example : read ['1', '.', '0'] ≠ read ['1'] := by decide

/-- A natural number in decimal digits is read as it is. -/
theorem read_toDigits (n : Nat) : read (Nat.toDigits 10 n) = ⟨n, 0⟩ := by
  have hdigits : ∀ c ∈ Nat.toDigits 10 n, c.isDigit := by
    intro c hc
    exact Nat.isDigit_of_mem_toDigits (by decide) le_rfl hc
  have hsign : ∀ cs, Nat.toDigits 10 n ≠ '-' :: cs := by
    intro cs hcs
    have hminus := hdigits '-' (by simp [hcs])
    exact absurd hminus (by decide)
  have htake : (Nat.toDigits 10 n).takeWhile Char.isDigit = Nat.toDigits 10 n :=
    List.takeWhile_eq_self_iff.mpr hdigits
  have hdrop : (Nat.toDigits 10 n).dropWhile Char.isDigit = [] :=
    List.dropWhile_eq_nil_iff.mpr hdigits
  rw [read.eq_2 _ hsign]
  simp [readUnsigned, htake, hdrop, decimals, exponent, ofDecimals]

end Numeric

/-- A JSON value with its numbers as a `jsonb` column keeps them. -/
inductive Kept where
  | null
  | bool (b : Bool)
  | num (n : Numeric)
  | str (s : String)
  | arr (items : List Kept)
  | obj (members : List (String × Kept))

namespace Json

mutual

def keep : Json → Kept
  | .null => .null
  | .bool b => .bool b
  | .num n => .num (Numeric.read n.text)
  | .str s => .str s
  | .arr xs => .arr (keepItems xs)
  | .obj kvs => .obj (keepMembers kvs)

def keepItems : List Json → List Kept
  | [] => []
  | x :: xs => keep x :: keepItems xs

def keepMembers : List (String × Json) → List (String × Kept)
  | [] => []
  | (k, v) :: kvs => (k, keep v) :: keepMembers kvs

end

mutual

/-- Every number of the value is a natural number in decimal digits. -/
def Plain : Json → Prop
  | .num n => ∃ k, n = JsonNumber.ofNat k
  | .arr xs => ItemsPlain xs
  | .obj kvs => MembersPlain kvs
  | .null | .bool _ | .str _ => True

def ItemsPlain : List Json → Prop
  | [] => True
  | x :: xs => Plain x ∧ ItemsPlain xs

def MembersPlain : List (String × Json) → Prop
  | [] => True
  | (_, v) :: kvs => Plain v ∧ MembersPlain kvs

end

mutual

/-- Nothing is lost of a value whose numbers are plain. -/
theorem keep_inj : ∀ {j k : Json}, Plain j → Plain k → keep j = keep k → j = k
  | .num m, .num n, hj, hk, h => by
    obtain ⟨a, rfl⟩ := hj
    obtain ⟨b, rfl⟩ := hk
    simp only [keep, JsonNumber.ofNat, Numeric.read_toDigits, Kept.num.injEq, Numeric.mk.injEq,
      Int.natCast_inj, and_true] at h
    rw [h]
  | .arr xs, .arr ys, hj, hk, h => by
    simp only [keep, Kept.arr.injEq] at h
    rw [keepItems_inj hj hk h]
  | .obj kvs, .obj kws, hj, hk, h => by
    simp only [keep, Kept.obj.injEq] at h
    rw [keepMembers_inj hj hk h]
  | .null, k, _, _, h => by cases k <;> simp_all [keep]
  | .bool b, k, _, _, h => by cases k <;> simp_all [keep]
  | .str s, k, _, _, h => by cases k <;> simp_all [keep]

theorem keepItems_inj : ∀ {xs ys : List Json}, ItemsPlain xs → ItemsPlain ys →
    keepItems xs = keepItems ys → xs = ys
  | [], [], _, _, _ => rfl
  | x :: xs, y :: ys, hxs, hys, h => by
    simp only [keepItems, List.cons.injEq] at h
    rw [keep_inj hxs.1 hys.1 h.1, keepItems_inj hxs.2 hys.2 h.2]

theorem keepMembers_inj : ∀ {kvs kws : List (String × Json)}, MembersPlain kvs →
    MembersPlain kws → keepMembers kvs = keepMembers kws → kvs = kws
  | [], [], _, _, _ => rfl
  | (k, v) :: kvs, (l, w) :: kws, hkvs, hkws, h => by
    simp only [keepMembers, List.cons.injEq, Prod.mk.injEq] at h
    rw [h.1.1, keep_inj hkvs.1 hkws.1 h.1.2, keepMembers_inj hkvs.2 hkws.2 h.2]

end

end Json
