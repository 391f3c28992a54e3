import ForensicChain.Library.UrlPath
import ForensicChain.Library.Utf8
import Mathlib.Data.List.TakeWhile

/-!
The path of a URL on its way from the text that a client builds it from to the text that a server
routes: cut off at `?` or `#`, rid of dot segments (RFC 3986), percent-encoded, and decoded again.
-/
namespace Url

/-- A client refuses a URL with an ASCII character that is not printable. -/
def isAcceptable (c : Char) : Bool := 128 ≤ c.toNat || (32 ≤ c.toNat && c.toNat ≠ 127)

/-- The segments that are left, with those already passed in reverse. -/
def resolve (passed : List (List Char)) : List (List Char) → List (List Char)
  | [] => passed.reverse
  | [last] =>
    if last = ['.'] then ([] :: passed).reverse
    else if last = ['.', '.'] then ([] :: passed.tail).reverse
    else (last :: passed).reverse
  | segment :: segments =>
    if segment = ['.'] then resolve passed segments
    else if segment = ['.', '.'] then resolve passed.tail segments
    else resolve (segment :: passed) segments

/-- `remove_dot_segments`, of a path that begins with a slash. -/
def removeDotSegments (path : List Char) : List Char :=
  UrlPath.join (resolve [] (path.drop 1 |>.splitOn '/'))

example : removeDotSegments "/a/b/c/./../../g".toList = "/a/g".toList := by decide

example : removeDotSegments "/a/../../b/..".toList = "/".toList := by decide

/-- The characters of a path that are not encoded. -/
def isSafe (c : Char) : Bool := c.isAlphanum || "-._~!$&'()*+,;=:/[]@".toList.contains c

def isHex (c : Char) : Bool := (Uuid.hexVal c).isSome

def upperHex (n : Nat) : Char := (Nat.digitChar n).toUpper

/-- `%XX` for a byte. -/
def percentByte (b : Nat) : List Char := ['%', upperHex (b / 16), upperHex (b % 16)]

/-- Escapes that are there stay; other characters that are not safe are encoded. -/
def quote : List Char → List Char
  | [] => []
  | '%' :: a :: b :: cs =>
    if isHex a && isHex b then '%' :: a :: b :: quote cs else percentByte 37 ++ quote (a :: b :: cs)
  | c :: cs =>
    if isSafe c then c :: quote cs else (Utf8.encodeChar c).flatMap percentByte ++ quote cs

/-- The bytes of a quoted text. -/
def unquoteToBytes : List Char → List Nat
  | [] => []
  | '%' :: a :: b :: cs =>
    match Uuid.hexVal a, Uuid.hexVal b with
    | some x, some y => (x * 16 + y) :: unquoteToBytes cs
    | _, _ => 37 :: unquoteToBytes (a :: b :: cs)
  | c :: cs => Utf8.encodeChar c ++ unquoteToBytes cs

/-- `unquote(text)`. -/
def unquote (cs : List Char) : List Char := Utf8.decode (unquoteToBytes cs)

/-- The path that a client requests for the part of a URL after its authority; `none` is an
invalid URL. -/
def requestPath (rest : List Char) : Option (List Char) :=
  if rest.all isAcceptable then some (quote (removeDotSegments (UrlPath.rawPath rest))) else none

/-- Encoded or not, the character stands for itself in the path of a URL. -/
structure Verbatim (c : Char) : Prop where
  latin : c.toNat < 256
  acceptable : isAcceptable c = true
  noEscape : c ≠ '%'
  noQuery : c ≠ '?'
  noFragment : c ≠ '#'

instance : DecidablePred Verbatim := fun c => decidable_of_iff
  (c.toNat < 256 ∧ isAcceptable c = true ∧ c ≠ '%' ∧ c ≠ '?' ∧ c ≠ '#')
  ⟨fun ⟨hlatin, hok, hsep⟩ => ⟨hlatin, hok, hsep.1, hsep.2.1, hsep.2.2⟩,
    fun h => ⟨h.latin, h.acceptable, h.noEscape, h.noQuery, h.noFragment⟩⟩

variable {c : Char} {cs path name : List Char} {segments passed : List (List Char)}

theorem hexVal_upperHex {n : Nat} (hn : n < 16) : Uuid.hexVal (upperHex n) = some n := by
  have hall : ∀ k : Fin 16, Uuid.hexVal (upperHex k) = some k.val := by decide
  exact hall ⟨n, hn⟩

/-- A byte is read back from its escape. -/
theorem unquoteToBytes_percentByte {b : Nat} (hb : b < 256) :
    unquoteToBytes (percentByte b ++ cs) = b :: unquoteToBytes cs := by
  have hhigh : b / 16 < 16 := by omega
  have hlow : b % 16 < 16 := by omega
  have hsum : b / 16 * 16 + b % 16 = b := by omega
  simp only [percentByte, List.cons_append, List.nil_append, unquoteToBytes, hexVal_upperHex hhigh,
    hexVal_upperHex hlow, hsum]

theorem unquoteToBytes_percentBytes {bytes : List Nat} (hb : ∀ b ∈ bytes, b < 256) :
    unquoteToBytes (bytes.flatMap percentByte ++ cs) = bytes ++ unquoteToBytes cs := by
  induction bytes with
  | nil => rfl
  | cons b bytes ih =>
    rw [List.flatMap_cons, List.append_assoc, unquoteToBytes_percentByte (hb b List.mem_cons_self),
      ih fun x hx => hb x (List.mem_cons_of_mem b hx), List.cons_append]

theorem quote_cons (hc : c ≠ '%') : quote (c :: cs) =
    if isSafe c then c :: quote cs else (Utf8.encodeChar c).flatMap percentByte ++ quote cs := by
  rw [quote.eq_3 _ _ (fun _ _ _ he _ => hc he)]

theorem unquoteToBytes_cons (hc : c ≠ '%') :
    unquoteToBytes (c :: cs) = Utf8.encodeChar c ++ unquoteToBytes cs := by
  rw [unquoteToBytes.eq_3 _ _ (fun _ _ _ he _ => hc he)]

theorem encodeChar_lt (hc : c.toNat < 0x800) : ∀ b ∈ Utf8.encodeChar c, b < 256 := by
  intro b hb
  simp only [Utf8.encodeChar] at hb
  split_ifs at hb
  · simp only [List.mem_singleton] at hb
    omega
  · simp only [List.mem_cons, List.not_mem_nil, or_false] at hb
    omega

/-- Without an escape, what is quoted is unquoted to the same bytes. -/
theorem unquoteToBytes_quote (hcs : ∀ c ∈ cs, Verbatim c) :
    unquoteToBytes (quote cs) = Utf8.encode cs := by
  induction cs with
  | nil => rfl
  | cons c cs ih =>
    have hlatin := (hcs c List.mem_cons_self).latin
    have hpercent := (hcs c List.mem_cons_self).noEscape
    have htail := ih fun d hd => hcs d (List.mem_cons_of_mem c hd)
    have hbytes := encodeChar_lt (c := c) (by omega)
    rw [quote_cons hpercent, Utf8.encode, List.flatMap_cons]
    split_ifs
    · rw [unquoteToBytes_cons hpercent, htail, Utf8.encode]
    · rw [unquoteToBytes_percentBytes hbytes, htail, Utf8.encode]

theorem unquote_quote (hcs : ∀ c ∈ cs, Verbatim c) : unquote (quote cs) = cs := by
  rw [unquote, unquoteToBytes_quote hcs, Utf8.decode_encode fun c hc => (hcs c hc).latin]

theorem resolve_plain (hne : segments ≠ [])
    (h : ∀ segment ∈ segments, segment ≠ ['.'] ∧ segment ≠ ['.', '.']) :
    resolve passed segments = passed.reverse ++ segments := by
  induction segments generalizing passed with
  | nil => exact (hne rfl).elim
  | cons segment segments ih =>
    obtain ⟨hdot, hdots⟩ := h segment List.mem_cons_self
    have htail := fun t ht => h t (List.mem_cons_of_mem segment ht)
    cases segments with
    | nil => simp [resolve, hdot, hdots]
    | cons next segments => simp [resolve, hdot, hdots, ih (by simp) htail]

theorem join_splitOn : UrlPath.join (cs.splitOn '/') = '/' :: cs := by
  induction cs with
  | nil => rfl
  | cons c cs ih =>
    rw [List.splitOn_cons_eq_if_modifyHead]
    cases hsplit : cs.splitOn '/' with
    | nil => exact (List.splitOn_ne_nil '/' cs hsplit).elim
    | cons s ss =>
      rw [hsplit, UrlPath.join_cons] at ih
      by_cases hc : c = '/'
      · simp [hc, UrlPath.join_cons, List.cons.inj ih]
      · simp [hc, UrlPath.join_cons, List.cons.inj ih]

/-- A path of verbatim characters without dot segments is only quoted. -/
theorem requestPath_verbatim (hcs : ∀ c ∈ path, Verbatim c) (hpath : path = '/' :: cs)
    (hdots : ∀ segment ∈ cs.splitOn '/', segment ≠ ['.'] ∧ segment ≠ ['.', '.']) :
    requestPath path = some (quote path) := by
  have hok : path.all isAcceptable = true := List.all_eq_true.mpr fun c hc => (hcs c hc).acceptable
  have hraw : UrlPath.rawPath path = path := by
    rw [UrlPath.rawPath, List.takeWhile_eq_self_iff]
    intro c hc
    exact decide_eq_true ⟨(hcs c hc).noQuery, (hcs c hc).noFragment⟩
  have hresolve : removeDotSegments path = path := by
    simp only [removeDotSegments, hpath, List.drop_one, List.tail_cons]
    rw [resolve_plain (List.splitOn_ne_nil '/' cs) hdots, List.reverse_nil, List.nil_append,
      join_splitOn]
  rw [requestPath, if_pos hok, hraw, hresolve]

end Url
