import Mathlib.Data.List.Basic

/-!
UTF-8 over bytes that are numbers below 256: the encoding of a text, and the decoding that puts
U+FFFD in place of what is malformed.
-/
namespace Utf8

def encodeChar (c : Char) : List Nat :=
  let n := c.toNat
  if n < 0x80 then [n]
  else if n < 0x800 then [0xc0 + n / 0x40, 0x80 + n % 0x40]
  else if n < 0x10000 then [0xe0 + n / 0x1000, 0x80 + n / 0x40 % 0x40, 0x80 + n % 0x40]
  else [0xf0 + n / 0x40000, 0x80 + n / 0x1000 % 0x40, 0x80 + n / 0x40 % 0x40, 0x80 + n % 0x40]

def encode (cs : List Char) : List Nat := cs.flatMap encodeChar

/-- The bits of a lead byte, and the ranges of the bytes that may follow it. -/
def lead (b : Nat) : Option (Nat × List (Nat × Nat)) :=
  let any := (0x80, 0xbf)
  if 0xc2 ≤ b ∧ b ≤ 0xdf then some (b - 0xc0, [any])
  else if b = 0xe0 then some (0, [(0xa0, 0xbf), any])
  else if b = 0xed then some (0xd, [(0x80, 0x9f), any])
  else if 0xe1 ≤ b ∧ b ≤ 0xef then some (b - 0xe0, [any, any])
  else if b = 0xf0 then some (0, [(0x90, 0xbf), any, any])
  else if 0xf1 ≤ b ∧ b ≤ 0xf3 then some (b - 0xf0, [any, any, any])
  else if b = 0xf4 then some (4, [(0x80, 0x8f), any, any])
  else none

/-- The code point, unless a byte is out of its range or missing, and the bytes that are left. -/
def readTail (code : Nat) : List (Nat × Nat) → List Nat → Option Nat × List Nat
  | [], bs => (some code, bs)
  | _ :: _, [] => (none, [])
  | (low, high) :: ranges, b :: bs =>
    if low ≤ b ∧ b ≤ high then readTail (code * 0x40 + (b - 0x80)) ranges bs else (none, b :: bs)

/-- `bytes.decode("utf-8", errors="replace")`. -/
def decodeReplace : Nat → List Nat → List Char
  | 0, _ => []
  | _, [] => []
  | fuel + 1, b :: bs =>
    if b < 0x80 then Char.ofNat b :: decodeReplace fuel bs
    else
      match lead b with
      | none => '\ufffd' :: decodeReplace fuel bs
      | some (code, ranges) =>
        match readTail code ranges bs with
        | (some n, rest) => Char.ofNat n :: decodeReplace fuel rest
        | (none, rest) => '\ufffd' :: decodeReplace fuel rest

def decode (bytes : List Nat) : List Char := decodeReplace bytes.length bytes

example : decode [0x61, 0xc3, 0xa9, 0xe2, 0x82, 0x28, 0xff] =
    ['a', 'é', '\ufffd', '(', '\ufffd'] := by
  decide

variable {c : Char} {cs : List Char} {bs : List Nat} {fuel : Nat}

/-- ASCII in front is read as it stands, whatever follows. -/
theorem decode_append (hcs : ∀ c ∈ cs, c.toNat < 0x80) :
    decode (cs.map Char.toNat ++ bs) = cs ++ decode bs := by
  induction cs with
  | nil => rfl
  | cons c cs ih =>
    have hhead : c.toNat < 0x80 := hcs c List.mem_cons_self
    have htail := ih fun d hd => hcs d (List.mem_cons_of_mem c hd)
    rw [List.map_cons, List.cons_append, decode, List.length_cons, decodeReplace, if_pos hhead,
      Char.ofNat_toNat]
    exact congrArg (c :: ·) htail

/-- A character of Latin-1 is read back from its one or two bytes. -/
theorem decodeReplace_encodeChar (hc : c.toNat < 256) :
    decodeReplace (fuel + 1) (encodeChar c ++ bs) = c :: decodeReplace fuel bs := by
  by_cases hascii : c.toNat < 0x80
  · simp [encodeChar, hascii, decodeReplace]
  · have hlead : lead (0xc0 + c.toNat / 0x40) = some (c.toNat / 0x40, [(0x80, 0xbf)]) := by
      have hrange : 0xc2 ≤ 0xc0 + c.toNat / 0x40 ∧ 0xc0 + c.toNat / 0x40 ≤ 0xdf := by omega
      rw [lead, if_pos hrange, Nat.add_sub_cancel_left]
    have htail : readTail (c.toNat / 0x40) [(0x80, 0xbf)] ((0x80 + c.toNat % 0x40) :: bs) =
        (some c.toNat, bs) := by
      have hrange : 0x80 ≤ 0x80 + c.toNat % 0x40 ∧ 0x80 + c.toNat % 0x40 ≤ 0xbf := by omega
      have hcode : c.toNat / 0x40 * 0x40 + (0x80 + c.toNat % 0x40 - 0x80) = c.toNat := by omega
      simp only [readTail, if_pos hrange, hcode]
    have hlarge : ¬ 0xc0 + c.toNat / 0x40 < 0x80 := by omega
    have htwo : c.toNat < 0x800 := by omega
    simp only [encodeChar, if_neg hascii, if_pos htwo, List.cons_append, List.nil_append,
      decodeReplace, if_neg hlarge, hlead, htail, Char.ofNat_toNat]

theorem encodeChar_length_pos : 0 < (encodeChar c).length := by
  simp only [encodeChar]
  split_ifs <;> simp

theorem decodeReplace_encode (hcs : ∀ c ∈ cs, c.toNat < 256) (hfuel : cs.length ≤ fuel) :
    decodeReplace fuel (encode cs) = cs := by
  induction cs generalizing fuel with
  | nil => cases fuel <;> rfl
  | cons c cs ih =>
    cases fuel with
    | zero => simp at hfuel
    | succ fuel =>
      have hhead := hcs c List.mem_cons_self
      have htail := ih (fun d hd => hcs d (List.mem_cons_of_mem c hd))
        (Nat.le_of_succ_le_succ hfuel)
      rw [encode, List.flatMap_cons, decodeReplace_encodeChar hhead]
      exact congrArg (c :: ·) htail

/-- A Latin-1 text is what its UTF-8 bytes decode to. -/
theorem decode_encode (hcs : ∀ c ∈ cs, c.toNat < 256) : decode (encode cs) = cs := by
  apply decodeReplace_encode hcs
  induction cs with
  | nil => exact Nat.zero_le _
  | cons c cs ih =>
    have hhead : 0 < (encodeChar c).length := encodeChar_length_pos
    have htail := ih fun d hd => hcs d (List.mem_cons_of_mem c hd)
    rw [encode, List.flatMap_cons, List.length_append, List.length_cons]
    simp only [encode] at htail
    omega

end Utf8
