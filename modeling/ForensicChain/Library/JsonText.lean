import ForensicChain.Library.Json
import Mathlib.Data.Bool.AllAny
import Mathlib.Data.List.TakeWhile

/-!
`json.loads`: the value of a text, or `none` where it raises. Surrogates that form no pair, `NaN`
and the infinities have no value here, and there is no limit to the depth. The text that is
written for a value is read back as that value.

A number keeps the text that it was read from. Python writes the same text again for an integer
other than `-0`, and for a float in the form of its `repr`; `-0`, `1E2` and `1.50` become `0`,
`100.0` and `1.5` there.
-/

namespace JsonNumber

/-- `0` or digits that do not begin with `0`, with the rest of the text. -/
def scanInt : List Char → Option (List Char × List Char)
  | c :: cs =>
    if c = '0' then some (['0'], cs)
    else if c.isDigit then some (c :: cs.takeWhile Char.isDigit, cs.dropWhile Char.isDigit)
    else none
  | [] => none

def scanSign : List Char → List Char × List Char
  | '-' :: cs => (['-'], cs)
  | cs => ([], cs)

/-- A point is part of the number if a digit follows it. -/
def scanFrac : List Char → List Char × List Char
  | '.' :: cs =>
    if cs.takeWhile Char.isDigit = [] then ([], '.' :: cs)
    else ('.' :: cs.takeWhile Char.isDigit, cs.dropWhile Char.isDigit)
  | cs => ([], cs)

def scanExpSign : List Char → List Char × List Char
  | '+' :: cs => (['+'], cs)
  | '-' :: cs => (['-'], cs)
  | cs => ([], cs)

/-- An `e` is part of the number if it has digits. -/
def scanExp : List Char → List Char × List Char
  | c :: cs =>
    let (sign, ds) := scanExpSign cs
    if (c = 'e' ∨ c = 'E') ∧ ds.takeWhile Char.isDigit ≠ [] then
      (c :: (sign ++ ds.takeWhile Char.isDigit), ds.dropWhile Char.isDigit)
    else ([], c :: cs)
  | [] => ([], [])

/-- The text of the number that a text begins with. -/
def scanText (cs : List Char) : Option (List Char × List Char) := do
  let (sign, cs) := scanSign cs
  let (int, cs) ← scanInt cs
  let (frac, cs) := scanFrac cs
  let (exp, cs) := scanExp cs
  some (sign ++ int ++ frac ++ exp, cs)

def ofText (text : List Char) : Option JsonNumber :=
  if h : text ≠ [] ∧ (text.all fun c => c ∈ numberChars) = true then
    some ⟨text, h.1, List.all_iff_forall_prop.mp h.2⟩
  else none

def scan (cs : List Char) : Option (JsonNumber × List Char) := do
  let (text, cs) ← scanText cs
  (ofText text).map (·, cs)

/-- The whole text is that of a number. -/
def Valid (n : JsonNumber) : Prop := scanText n.text = some (n.text, [])

variable {cs ds t r s : List Char}

/-- A rest that does not go on with a digit. -/
def DigitEnd (r : List Char) : Prop := ∀ c ∈ r.head?, ¬ c.isDigit

theorem DigitEnd.takeWhile (hr : DigitEnd r) (hds : ∀ c ∈ ds, c.isDigit) :
    (ds ++ r).takeWhile Char.isDigit = ds := by
  rw [List.takeWhile_append_of_pos hds]
  cases r with
  | nil => simp
  | cons c r => simp [hr c rfl]

theorem DigitEnd.dropWhile (hr : DigitEnd r) (hds : ∀ c ∈ ds, c.isDigit) :
    (ds ++ r).dropWhile Char.isDigit = r := by
  rw [List.dropWhile_append_of_pos hds]
  cases r with
  | nil => simp
  | cons c r => simp [hr c rfl]

theorem isDigit_of_mem_takeWhile {c : Char} (hc : c ∈ cs.takeWhile Char.isDigit) : c.isDigit :=
  List.mem_takeWhile_imp hc

/-! Each part of a number is read again from the text that it was read as. -/

theorem scanSign_prefix (h : scanSign cs = (t, s)) (hr : ∀ c ∈ r.head?, c ≠ '-') :
    scanSign (t ++ r) = (t, r) := by
  unfold scanSign at h
  split at h
  · obtain ⟨rfl, _⟩ := Prod.mk.inj h
    rfl
  · obtain ⟨rfl, _⟩ := Prod.mk.inj h
    cases r with
    | nil => rfl
    | cons c r =>
      have hc := hr c rfl
      simp [scanSign, hc]

theorem scanInt_prefix (h : scanInt cs = some (t, s)) (hr : DigitEnd r) :
    scanInt (t ++ r) = some (t, r) := by
  cases cs with
  | nil => simp [scanInt] at h
  | cons c cs =>
    simp only [scanInt] at h
    split_ifs at h with hzero hdigit
    · obtain ⟨rfl, _⟩ := Prod.mk.inj (Option.some.inj h)
      rfl
    · obtain ⟨rfl, _⟩ := Prod.mk.inj (Option.some.inj h)
      have hds : ∀ d ∈ cs.takeWhile Char.isDigit, d.isDigit := fun _ => isDigit_of_mem_takeWhile
      simp only [List.cons_append, scanInt, if_neg hzero, if_pos hdigit, hr.takeWhile hds,
        hr.dropWhile hds]

theorem scanInt_head (h : scanInt cs = some (t, s)) : ∃ c ds, t = c :: ds ∧ c.isDigit := by
  cases cs with
  | nil => simp [scanInt] at h
  | cons c cs =>
    simp only [scanInt] at h
    split_ifs at h with hzero hdigit
    · exact ⟨'0', [], (Prod.mk.inj (Option.some.inj h)).1.symm, by decide⟩
    · exact ⟨c, _, (Prod.mk.inj (Option.some.inj h)).1.symm, hdigit⟩

theorem scanFrac_prefix (h : scanFrac cs = (t, s)) (hr : DigitEnd r)
    (hpoint : ∀ c ∈ r.head?, c ≠ '.') : scanFrac (t ++ r) = (t, r) := by
  have hnone : scanFrac r = ([], r) := by
    cases r with
    | nil => rfl
    | cons c r =>
      have hc := hpoint c rfl
      simp [scanFrac, hc]
  unfold scanFrac at h
  split at h
  · split_ifs at h with hdigits
    · obtain ⟨rfl, _⟩ := Prod.mk.inj h
      exact hnone
    · rename_i ds
      obtain ⟨rfl, _⟩ := Prod.mk.inj h
      have hds : ∀ d ∈ ds.takeWhile Char.isDigit, d.isDigit := fun _ => isDigit_of_mem_takeWhile
      simp only [List.cons_append, scanFrac, hr.takeWhile hds, hr.dropWhile hds, if_neg hdigits]
  · obtain ⟨rfl, _⟩ := Prod.mk.inj h
    exact hnone

theorem scanFrac_head (h : scanFrac cs = (t, s)) : ∀ c ∈ t.head?, c = '.' := by
  unfold scanFrac at h
  split at h
  · split_ifs at h
    · obtain ⟨rfl, _⟩ := Prod.mk.inj h
      simp
    · obtain ⟨rfl, _⟩ := Prod.mk.inj h
      simp
  · obtain ⟨rfl, _⟩ := Prod.mk.inj h
    simp

theorem scanExpSign_prefix (h : scanExpSign cs = (t, s)) (hr : ∀ c ∈ r.head?, c ≠ '+' ∧ c ≠ '-') :
    scanExpSign (t ++ r) = (t, r) := by
  unfold scanExpSign at h
  split at h
  · obtain ⟨rfl, _⟩ := Prod.mk.inj h
    rfl
  · obtain ⟨rfl, _⟩ := Prod.mk.inj h
    rfl
  · obtain ⟨rfl, _⟩ := Prod.mk.inj h
    cases r with
    | nil => rfl
    | cons c r =>
      have hc := hr c rfl
      simp [scanExpSign, hc]

theorem scanExp_prefix (h : scanExp cs = (t, s)) (hr : Json.NumberEnd r) :
    scanExp (t ++ r) = (t, r) := by
  have hnone : scanExp r = ([], r) := by
    cases r with
    | nil => rfl
    | cons c r =>
      have hc : ¬ (c = 'e' ∨ c = 'E') := by
        rintro (rfl | rfl)
        · exact hr 'e' rfl (by decide)
        · exact hr 'E' rfl (by decide)
      simp [scanExp, hc]
  cases cs with
  | nil =>
    obtain ⟨rfl, _⟩ := Prod.mk.inj h
    exact hnone
  | cons c cs =>
    obtain ⟨sign, ds, hsign⟩ : ∃ sign ds, scanExpSign cs = (sign, ds) := ⟨_, _, rfl⟩
    simp only [scanExp, hsign] at h
    split_ifs at h with hc
    · obtain ⟨rfl, _⟩ := Prod.mk.inj h
      have hdigits : DigitEnd r := fun d hd hdigit => hr d hd (isDigit_mem_numberChars hdigit)
      have hall : ∀ d ∈ ds.takeWhile Char.isDigit, d.isDigit := fun _ => isDigit_of_mem_takeWhile
      have hhead : ∀ d ∈ (ds.takeWhile Char.isDigit ++ r).head?, d ≠ '+' ∧ d ≠ '-' := by
        obtain ⟨d, ds', hd⟩ := List.exists_cons_of_ne_nil hc.2
        have hdigit := hall d (by simp [hd])
        rw [hd]
        rintro _ ⟨⟩
        constructor <;> rintro rfl <;> exact absurd hdigit (by decide)
      simp only [List.cons_append, List.append_assoc, scanExp, scanExpSign_prefix hsign hhead,
        hdigits.takeWhile hall, hdigits.dropWhile hall, if_pos hc]
    · obtain ⟨rfl, _⟩ := Prod.mk.inj h
      exact hnone

theorem scanExp_head (h : scanExp cs = (t, s)) : ∀ c ∈ t.head?, c = 'e' ∨ c = 'E' := by
  cases cs with
  | nil =>
    obtain ⟨rfl, _⟩ := Prod.mk.inj h
    simp
  | cons c cs =>
    simp only [scanExp] at h
    split_ifs at h with hc
    · obtain ⟨rfl, _⟩ := Prod.mk.inj h
      simpa using hc.1
    · obtain ⟨rfl, _⟩ := Prod.mk.inj h
      simp

theorem head_append {p : Char → Prop} (ht : ∀ c ∈ t.head?, p c) (hr : ∀ c ∈ r.head?, p c) :
    ∀ c ∈ (t ++ r).head?, p c := by
  cases t with
  | nil => simpa using hr
  | cons d t => simpa using ht

/-- What is read as a number is read as the same number whatever follows it. -/
theorem scanText_prefix (h : scanText cs = some (t, s)) (hr : Json.NumberEnd r) :
    scanText (t ++ r) = some (t, r) := by
  obtain ⟨sign, ds, hsign⟩ : ∃ sign ds, scanSign cs = (sign, ds) := ⟨_, _, rfl⟩
  simp only [scanText, hsign, Option.bind_eq_bind, Option.bind_eq_some_iff] at h
  obtain ⟨⟨int, ds⟩, hint, h⟩ := h
  obtain ⟨frac, es, hfrac⟩ : ∃ frac es, scanFrac ds = (frac, es) := ⟨_, _, rfl⟩
  obtain ⟨exp, es, hexp⟩ : ∃ exp es', scanExp es = (exp, es') := ⟨_, _, rfl⟩
  simp only [hfrac, hexp] at h
  obtain ⟨rfl, _⟩ := Prod.mk.inj (Option.some.inj h)
  have hend : ∀ d ∈ r.head?, ¬ d.isDigit ∧ d ≠ '.' := by
    intro d hd
    refine ⟨fun hdigit => hr d hd (isDigit_mem_numberChars hdigit), ?_⟩
    rintro rfl
    exact hr '.' hd (by decide)
  have hafter : ∀ d ∈ (exp ++ r).head?, ¬ d.isDigit ∧ d ≠ '.' := by
    refine head_append (fun d hd => ?_) hend
    rcases scanExp_head hexp d hd with rfl | rfl <;> decide
  have hdigits : DigitEnd (frac ++ (exp ++ r)) := by
    refine head_append (fun d hd => ?_) fun d hd => (hafter d hd).1
    rw [scanFrac_head hfrac d hd]
    decide
  have hminus : ∀ d ∈ (int ++ (frac ++ (exp ++ r))).head?, d ≠ '-' := by
    obtain ⟨c, cs, rfl, hdigit⟩ := scanInt_head hint
    rintro _ ⟨⟩ rfl
    exact absurd hdigit (by decide)
  simp only [scanText, List.append_assoc, scanSign_prefix hsign hminus, scanInt_prefix hint hdigits,
    scanFrac_prefix hfrac (fun d hd => (hafter d hd).1) (fun d hd => (hafter d hd).2),
    scanExp_prefix hexp hr, Option.bind_eq_bind, Option.bind_some]

theorem Valid.scan {n : JsonNumber} (h : n.Valid) (hr : Json.NumberEnd r) :
    scan (n.text ++ r) = some (n, r) := by
  have htext : ofText n.text = some n :=
    dif_pos ⟨n.nonempty, List.all_iff_forall_prop.mpr n.digits⟩
  simp [JsonNumber.scan, scanText_prefix h hr, htext]

theorem valid_of_scan {n : JsonNumber} (h : scan cs = some (n, s)) : n.Valid := by
  simp only [scan, Option.bind_eq_bind, Option.bind_eq_some_iff, Option.map_eq_some_iff] at h
  obtain ⟨⟨text, rest⟩, htext, m, hm, h⟩ := h
  obtain ⟨rfl, rfl⟩ := Prod.mk.inj h
  unfold ofText at hm
  split_ifs at hm
  obtain rfl := Option.some.inj hm
  have hprefix := scanText_prefix htext (r := []) (by simp [Json.NumberEnd])
  simpa [Valid] using hprefix

theorem head_toDigits (n : Nat) : ∃ c ds, Nat.toDigits 10 n = c :: ds ∧ (c = '0' → n = 0) := by
  induction n using Nat.strong_induction_on with
  | h n ih =>
    by_cases hlt : n < 10
    · have hall : ∀ k : Fin 10, Nat.digitChar k = '0' → k = 0 := by decide
      refine ⟨_, [], Nat.toDigits_of_lt_base hlt, ?_⟩
      intro hzero
      simpa [Fin.ext_iff] using hall ⟨n, hlt⟩ hzero
    · obtain ⟨c, ds, hcons, hzero⟩ := ih (n / 10) (by omega)
      refine ⟨c, ds ++ [Nat.digitChar (n % 10)], ?_, ?_⟩
      · rw [Nat.toDigits_of_base_le (by decide) (by omega), hcons, List.cons_append]
      · intro hc
        have := hzero hc
        omega

/-- A natural number has no leading zero. -/
theorem valid_ofNat (n : Nat) : (JsonNumber.ofNat n).Valid := by
  have hdigits : ∀ c ∈ Nat.toDigits 10 n, c.isDigit := by
    intro c hc
    exact Nat.isDigit_of_mem_toDigits (by decide) le_rfl hc
  obtain ⟨c, ds, hcons, hzero⟩ := head_toDigits n
  by_cases hn : n = 0
  · subst hn
    rfl
  have hdigit : c.isDigit := hdigits c (by simp [hcons])
  have hminus : c ≠ '-' := by
    rintro rfl
    exact absurd hdigit (by decide)
  have hne : c ≠ '0' := fun hc => hn (hzero hc)
  have hall : ∀ d ∈ ds, d.isDigit := fun d hd => hdigits d (by simp [hcons, hd])
  have hsign : scanSign (c :: ds) = ([], c :: ds) := by simp [scanSign, hminus]
  have hint : scanInt (c :: ds) = some (c :: ds, []) := by
    simp [scanInt, hne, hdigit, List.takeWhile_eq_self_iff.mpr hall,
      List.dropWhile_eq_nil_iff.mpr hall]
  simp [Valid, JsonNumber.ofNat, hcons, scanText, hsign, hint, scanFrac, scanExp]

end JsonNumber

namespace Json

def hexDigit (c : Char) : Option Nat :=
  if '0' ≤ c ∧ c ≤ '9' then some (c.toNat - 48)
  else if 'a' ≤ c ∧ c ≤ 'f' then some (c.toNat - 87)
  else if 'A' ≤ c ∧ c ≤ 'F' then some (c.toNat - 55)
  else none

/-- Four hexadecimal digits. -/
def scanUnit : List Char → Option (Nat × List Char)
  | a :: b :: c :: d :: cs => do
    some (((← hexDigit a) * 16 + (← hexDigit b)) * 256 + ((← hexDigit c) * 16 + (← hexDigit d)), cs)
  | _ => none

/-- The escapes of one character. -/
def backslash : Char → Option Char
  | '"' => some '"'
  | '\\' => some '\\'
  | '/' => some '/'
  | 'b' => some '\x08'
  | 'f' => some '\x0c'
  | 'n' => some '\n'
  | 'r' => some '\r'
  | 't' => some '\t'
  | _ => none

/-- The second half of a surrogate pair. -/
def scanLow (high : Nat) : List Char → Option (Char × List Char)
  | '\\' :: 'u' :: cs => do
    let (low, cs) ← scanUnit cs
    if 0xdc00 ≤ low ∧ low ≤ 0xdfff then
      some (Char.ofNat (0x10000 + (high - 0xd800) * 0x400 + (low - 0xdc00)), cs)
    else none
  | _ => none

/-- What follows a backslash. -/
def scanEscape : List Char → Option (Char × List Char)
  | 'u' :: cs => do
    let (unit, cs) ← scanUnit cs
    if 0xd800 ≤ unit ∧ unit ≤ 0xdbff then scanLow unit cs
    else if 0xdc00 ≤ unit ∧ unit ≤ 0xdfff then none
    else some (Char.ofNat unit, cs)
  | c :: cs => (backslash c).map (·, cs)
  | [] => none

/-- The characters up to the closing quote; a control character must be escaped. -/
def scanChars : Nat → List Char → Option (List Char × List Char)
  | 0, _ => none
  | _, [] => none
  | fuel + 1, c :: cs =>
    if c = '"' then some ([], cs)
    else if c = '\\' then do
      let (d, cs) ← scanEscape cs
      let (ds, cs) ← scanChars fuel cs
      some (d :: ds, cs)
    else if c.toNat < 0x20 then none
    else do
      let (ds, cs) ← scanChars fuel cs
      some (c :: ds, cs)

/-- A string after its opening quote. -/
def scanString (cs : List Char) : Option (String × List Char) := do
  let (ds, cs) ← scanChars cs.length cs
  some (String.ofList ds, cs)

def isSpace (c : Char) : Bool := c = ' ' || c = '\t' || c = '\n' || c = '\r'

def skipSpace (cs : List Char) : List Char := cs.dropWhile isSpace

/-- `d[k] = v`: a key keeps its place, and has the last of its values. -/
def setMember (kvs : List (String × Json)) (k : String) (v : Json) : List (String × Json) :=
  if k ∈ kvs.map Prod.fst then kvs.map fun kv => if kv.1 = k then (k, v) else kv
  else kvs ++ [(k, v)]

mutual

/-- `scan_once`. -/
def scanValue : Nat → List Char → Option (Json × List Char)
  | 0, _ => none
  | fuel + 1, cs =>
    match cs with
    | '"' :: cs => (scanString cs).map fun (s, cs) => (.str s, cs)
    | '{' :: cs =>
      match skipSpace cs with
      | '}' :: cs => some (.obj [], cs)
      | cs => (scanMembers fuel [] cs).map fun (kvs, cs) => (.obj kvs, cs)
    | '[' :: cs =>
      match skipSpace cs with
      | ']' :: cs => some (.arr [], cs)
      | cs => (scanItems fuel cs).map fun (xs, cs) => (.arr xs, cs)
    | 'n' :: 'u' :: 'l' :: 'l' :: cs => some (.null, cs)
    | 't' :: 'r' :: 'u' :: 'e' :: cs => some (.bool true, cs)
    | 'f' :: 'a' :: 'l' :: 's' :: 'e' :: cs => some (.bool false, cs)
    | cs => (JsonNumber.scan cs).map fun (n, cs) => (.num n, cs)

/-- The items of an array, from the first or from one after a comma. -/
def scanItems : Nat → List Char → Option (List Json × List Char)
  | 0, _ => none
  | fuel + 1, cs => do
    let (x, cs) ← scanValue fuel cs
    match skipSpace cs with
    | ']' :: cs => some ([x], cs)
    | ',' :: cs => do
      let (xs, cs) ← scanItems fuel (skipSpace cs)
      some (x :: xs, cs)
    | _ => none

/-- The members of an object after those of `kvs`. -/
def scanMembers : Nat → List (String × Json) → List Char → Option (List (String × Json) × List Char)
  | 0, _, _ => none
  | fuel + 1, kvs, cs =>
    match cs with
    | '"' :: cs => do
      let (k, cs) ← scanString cs
      match skipSpace cs with
      | ':' :: cs => do
        let (v, cs) ← scanValue fuel (skipSpace cs)
        match skipSpace cs with
        | '}' :: cs => some (setMember kvs k v, cs)
        | ',' :: cs => scanMembers fuel (setMember kvs k v) (skipSpace cs)
        | _ => none
      | _ => none
    | _ => none

end

/-- `json.loads` of a text. -/
def loads (text : List Char) : Option Json :=
  if text.head? = some '\ufeff' then none
  else do
    let (j, cs) ← scanValue text.length (skipSpace text)
    if skipSpace cs = [] then some j else none

mutual

/-- The keys of every object are distinct, and its numbers are JSON numbers. -/
def Proper : Json → Prop
  | .num n => n.Valid
  | .arr xs => ItemsProper xs
  | .obj kvs => (kvs.map Prod.fst).Nodup ∧ MembersProper kvs
  | .null | .bool _ | .str _ => True

def ItemsProper : List Json → Prop
  | [] => True
  | x :: xs => Proper x ∧ ItemsProper xs

def MembersProper : List (String × Json) → Prop
  | [] => True
  | (_, v) :: kvs => Proper v ∧ MembersProper kvs

end

variable {cs ds r s : List Char} {c : Char} {n fuel : Nat} {j : Json} {xs : List Json}
  {kvs : List (String × Json)} {k : String} {v : Json}

theorem hexDigit_digitChar (h : n < 16) : hexDigit (Nat.digitChar n) = some n := by
  have hall : ∀ k : Fin 16, hexDigit (Nat.digitChar k) = some k.val := by decide
  exact hall ⟨n, h⟩

theorem scanUnit_hex4 (h : n < 0x10000) : scanUnit (hex4 n ++ r) = some (n, r) := by
  have hdigit : ∀ k, hexDigit (Nat.digitChar (k % 16)) = some (k % 16) :=
    fun k => hexDigit_digitChar (Nat.mod_lt _ (by decide))
  have hsum : (n / 4096 % 16 * 16 + n / 256 % 16) * 256 + (n / 16 % 16 * 16 + n % 16) = n := by
    omega
  simp [hex4, scanUnit, hdigit, hsum]

theorem scanEscape_pair (high low : Nat) (hh : high < 0x400) (hl : low < 0x400) :
    scanEscape ('u' :: (hex4 (0xd800 + high) ++ '\\' :: 'u' :: (hex4 (0xdc00 + low) ++ r))) =
      some (Char.ofNat (0x10000 + high * 0x400 + low), r) := by
  have hhigh : 0xd800 ≤ 0xd800 + high ∧ 0xd800 + high ≤ 0xdbff := by omega
  have hlow : 0xdc00 ≤ 0xdc00 + low ∧ 0xdc00 + low ≤ 0xdfff := by omega
  simp only [scanEscape, scanUnit_hex4 (show 0xd800 + high < 0x10000 by omega),
    Option.bind_eq_bind, Option.bind_some, if_pos hhigh, scanLow,
    scanUnit_hex4 (show 0xdc00 + low < 0x10000 by omega), if_pos hlow, Nat.add_sub_cancel_left]

theorem scanEscape_unit (h : n < 0x10000) (hs : ¬ (0xd800 ≤ n ∧ n ≤ 0xdfff)) :
    scanEscape ('u' :: (hex4 n ++ r)) = some (Char.ofNat n, r) := by
  have hhigh : ¬ (0xd800 ≤ n ∧ n ≤ 0xdbff) := by omega
  have hlow : ¬ (0xdc00 ≤ n ∧ n ≤ 0xdfff) := by omega
  simp only [scanEscape, scanUnit_hex4 h, Option.bind_eq_bind, Option.bind_some, if_neg hhigh,
    if_neg hlow]

/-- One character after the other is read back. -/
theorem scanChars_escapeChar : scanChars (fuel + 1) (escapeChar c ++ r) =
    (scanChars fuel r).map fun p => (c :: p.1, p.2) := by
  have hescape : ∀ es, scanEscape (es ++ r) = some (c, r) →
      scanChars (fuel + 1) ('\\' :: (es ++ r)) =
        (scanChars fuel r).map fun p => (c :: p.1, p.2) := by
    intro es hes
    simp [scanChars, hes, Option.map_eq_bind]
  have hlt : c.toNat < 0x110000 ∧ ¬ (0xd800 ≤ c.toNat ∧ c.toNat ≤ 0xdfff) := by
    rcases c.valid with hv | hv <;> simp only [Char.toNat] <;> omega
  unfold escapeChar
  split_ifs with h1 h2 h3 h4 h5 h6 h7 h8 h9
  · subst c; exact hescape _ rfl
  · subst c; exact hescape _ rfl
  · subst c; exact hescape _ rfl
  · subst c; exact hescape _ rfl
  · subst c; exact hescape _ rfl
  · subst c; exact hescape _ rfl
  · subst c; exact hescape _ rfl
  · have hprintable : ¬ c.toNat < 0x20 := by
      have hspace : (' ').toNat ≤ c.toNat := h8.1
      simpa using hspace
    simp [scanChars, h1, h2, hprintable, Option.map_eq_bind]
  · apply hescape ('u' :: hex4 c.toNat)
    rw [List.cons_append, scanEscape_unit h9 hlt.2, Char.ofNat_toNat]
  · have hpair := scanEscape_pair (r := r) ((c.toNat - 0x10000) / 1024)
      ((c.toNat - 0x10000) % 1024) (by omega) (by omega)
    have hvalue : 0x10000 + (c.toNat - 0x10000) / 1024 * 0x400 + (c.toNat - 0x10000) % 1024 =
        c.toNat := by omega
    rw [hvalue, Char.ofNat_toNat] at hpair
    have hes := hescape ('u' :: hex4 (0xd800 + (c.toNat - 0x10000) / 1024) ++
      '\\' :: 'u' :: hex4 (0xdc00 + (c.toNat - 0x10000) % 1024)) (by simpa using hpair)
    simpa using hes

theorem scanChars_escaped (h : ds.length < fuel) :
    scanChars fuel (ds.flatMap escapeChar ++ '"' :: r) = some (ds, r) := by
  induction ds generalizing fuel with
  | nil =>
    cases fuel with
    | zero => simp at h
    | succ fuel => simp [scanChars]
  | cons d ds ih =>
    cases fuel with
    | zero => simp at h
    | succ fuel =>
      rw [List.flatMap_cons, List.append_assoc, scanChars_escapeChar,
        ih (by simpa using h)]
      rfl

theorem escapeChar_ne_nil : escapeChar c ≠ [] := by
  unfold escapeChar
  split_ifs <;> simp

theorem length_le_escaped : ds.length ≤ (ds.flatMap escapeChar).length := by
  induction ds with
  | nil => simp
  | cons d ds ih =>
    have hpos : 0 < (escapeChar d).length := List.length_pos_iff.mpr escapeChar_ne_nil
    rw [List.flatMap_cons, List.length_append, List.length_cons]
    omega

/-- A quoted string is read back after its opening quote. -/
theorem scanString_quote : scanString (k.toList.flatMap escapeChar ++ '"' :: r) = some (k, r) := by
  have hlen : k.toList.length ≤ (k.toList.flatMap escapeChar).length := length_le_escaped
  rw [scanString, scanChars_escaped (by
    rw [List.length_append, List.length_cons]
    omega)]
  simp

theorem skipSpace_cons (h : isSpace c = false) : skipSpace (c :: cs) = c :: cs := by
  simp [skipSpace, h]

theorem isSpace_startChar : isSpace (startChar j) = false := by
  cases j with
  | num n =>
    have hall : (numberChars.all fun c => !isSpace c) = true := by decide
    simpa using List.all_eq_true.mp hall _ (startChar_num n)
  | bool b => cases b <;> rfl
  | null | str _ | arr _ | obj _ => rfl

@[simp]
theorem skipSpace_render : skipSpace (render j ++ r) = render j ++ r := by
  obtain ⟨cs, hcs⟩ := render_eq_cons j
  rw [hcs, List.cons_append, skipSpace_cons isSpace_startChar]

theorem scanValue_number (hc : c ∈ numberChars) : scanValue (fuel + 1) (c :: cs) =
    (JsonNumber.scan (c :: cs)).map fun p => (.num p.1, p.2) := by
  have hne : ∀ d : Char, d ∉ numberChars → c ≠ d := fun d hd he => hd (he ▸ hc)
  have hquote := hne '"' (by decide)
  have hbrace := hne '{' (by decide)
  have hbracket := hne '[' (by decide)
  have hn := hne 'n' (by decide)
  have ht := hne 't' (by decide)
  have hf := hne 'f' (by decide)
  rw [scanValue.eq_def]
  split <;> simp_all

theorem setMember_new (h : k ∉ kvs.map Prod.fst) : setMember kvs k v = kvs ++ [(k, v)] :=
  if_neg h

mutual

/-- The text of a proper value is read back, whatever follows it. -/
theorem scanValue_render : ∀ (j : Json) (fuel : Nat) {r : List Char}, j.Proper → NumberEnd r →
    (render j).length ≤ fuel → scanValue fuel (render j ++ r) = some (j, r)
  | j, 0, r, _, _, hfuel => by
    obtain ⟨cs, hcs⟩ := render_eq_cons j
    simp [hcs] at hfuel
  | .null, fuel + 1, r, _, _, _ => rfl
  | .bool true, fuel + 1, r, _, _, _ => rfl
  | .bool false, fuel + 1, r, _, _, _ => rfl
  | .num n, fuel + 1, r, hj, hr, _ => by
    obtain ⟨c, cs, hn⟩ := List.exists_cons_of_ne_nil n.nonempty
    have hscan := JsonNumber.Valid.scan hj hr
    rw [hn, List.cons_append] at hscan
    rw [render, hn, List.cons_append, scanValue_number (n.digits c (by simp [hn])), hscan]
    rfl
  | .str k, fuel + 1, r, _, _, _ => by
    simp only [render, quote, List.cons_append, List.append_assoc, List.nil_append, scanValue,
      scanString_quote, Option.map_some]
  | .arr [], fuel + 1, r, _, _, _ => rfl
  | .arr (x :: xs), fuel + 1, r, hj, _, hfuel => by
    obtain ⟨hx, hxs⟩ := hj
    obtain ⟨cs, hcs⟩ := render_eq_cons x
    simp only [render, List.length_cons, List.length_append, Nat.add_le_add_iff_right] at hfuel
    have hpos : 0 < (render x).length := by simp [hcs]
    obtain ⟨fuel, rfl⟩ : ∃ n, fuel = n + 1 := ⟨fuel - 1, by omega⟩
    have htail : 0 < (renderItems xs).length := by cases xs <;> simp [renderItems]
    have hfirst := scanValue_render x fuel hx (numberEnd_renderItems xs r) (by omega)
    have hitems := scanItems_render xs hxs hfirst (by omega)
    have hspace : skipSpace (render x ++ (renderItems xs ++ r)) = startChar x ::
        (cs ++ (renderItems xs ++ r)) := by rw [skipSpace_render, hcs, List.cons_append]
    rw [hcs, List.cons_append] at hitems
    simp only [render, List.cons_append, List.append_assoc, scanValue, hspace]
    split
    · rename_i hclose
      exact absurd (List.cons.inj hclose).1 (startChar_ne_bracket x)
    · rw [hitems]
      rfl
  | .obj [], fuel + 1, r, _, _, _ => rfl
  | .obj ((k, v) :: kvs), fuel + 1, r, hj, _, hfuel => by
    obtain ⟨hkeys, hv, hkvs⟩ := hj
    simp only [render, quote, List.length_cons, List.length_append] at hfuel
    obtain ⟨fuel, rfl⟩ : ∃ n, fuel = n + 1 := ⟨fuel - 1, by omega⟩
    have hfirst := scanValue_render v fuel hv (numberEnd_renderMembers kvs r) (by omega)
    have hmembers := scanMembers_render kvs [] (k := k) hkvs hfirst skipSpace_render
      (by simpa using hkeys) (by omega)
    have hspace : skipSpace (quote k ++ ':' :: ' ' :: (render v ++ (renderMembers kvs ++ r))) =
        quote k ++ ':' :: ' ' :: (render v ++ (renderMembers kvs ++ r)) := skipSpace_cons rfl
    simp only [render, List.cons_append, List.append_assoc, scanValue, hspace]
    change (scanMembers (fuel + 1) [] (quote k ++ ':' :: ' ' ::
      (render v ++ (renderMembers kvs ++ r)))).map _ = _
    rw [hmembers]
    rfl

/-- The items of an array are read one after the other. -/
theorem scanItems_render : ∀ (xs : List Json) {x : Json} {cs r : List Char} {fuel : Nat},
    ItemsProper xs → scanValue fuel cs = some (x, renderItems xs ++ r) →
    (renderItems xs).length ≤ fuel → scanItems (fuel + 1) cs = some (x :: xs, r)
  | [], x, cs, r, fuel, _, hx, _ => by
    simp [scanItems, hx, renderItems, skipSpace_cons, isSpace]
  | y :: ys, x, cs, r, fuel, hxs, hx, hfuel => by
    obtain ⟨hy, hys⟩ := hxs
    simp only [renderItems, List.length_cons, List.length_append] at hfuel
    obtain ⟨fuel, rfl⟩ : ∃ n, fuel = n + 1 := ⟨fuel - 1, by omega⟩
    have hfirst := scanValue_render y fuel hy (numberEnd_renderItems ys r) (by omega)
    have hitems := scanItems_render ys hys hfirst (by omega)
    have hspace : skipSpace (' ' :: (render y ++ (renderItems ys ++ r))) =
        render y ++ (renderItems ys ++ r) := skipSpace_render
    rw [scanItems, hx]
    simp only [renderItems, List.cons_append, List.append_assoc, Option.bind_eq_bind,
      Option.bind_some, skipSpace_cons (show isSpace ',' = false from rfl), hspace, hitems]

/-- The members of an object are read one after the other. -/
theorem scanMembers_render : ∀ (kvs done : List (String × Json))
    {k : String} {v : Json} {cs r : List Char} {fuel : Nat}, MembersProper kvs →
    scanValue fuel cs = some (v, renderMembers kvs ++ r) → skipSpace cs = cs →
    ((done ++ (k, v) :: kvs).map Prod.fst).Nodup → (renderMembers kvs).length ≤ fuel →
    scanMembers (fuel + 1) done (quote k ++ ':' :: ' ' :: cs) = some (done ++ (k, v) :: kvs, r)
  | [], done, k, v, cs, r, fuel, _, hv, hcs, hkeys, _ => by
    have hspace : skipSpace (' ' :: cs) = cs := hcs
    have hnew : k ∉ done.map Prod.fst := by
      simp only [List.map_append, List.map_cons, List.map_nil] at hkeys
      exact fun hk => (List.disjoint_of_nodup_append hkeys) hk List.mem_cons_self
    simp [quote, scanMembers, scanString_quote, skipSpace_cons, isSpace, hspace, hv, renderMembers,
      setMember_new hnew]
  | (l, w) :: kvs, done, k, v, cs, r, fuel, hkvs, hv, hcs, hkeys, hfuel => by
    obtain ⟨hw, hkvs⟩ := hkvs
    simp only [renderMembers, quote, List.length_cons, List.length_append] at hfuel
    obtain ⟨fuel, rfl⟩ : ∃ n, fuel = n + 1 := ⟨fuel - 1, by omega⟩
    have hspace : skipSpace (' ' :: cs) = cs := hcs
    have hnew : k ∉ done.map Prod.fst := by
      simp only [List.map_append, List.map_cons] at hkeys
      exact fun hk => (List.disjoint_of_nodup_append hkeys) hk List.mem_cons_self
    have hfirst := scanValue_render w fuel hw (numberEnd_renderMembers kvs r) (by omega)
    have hmembers := scanMembers_render kvs (done ++ [(k, v)]) (k := l) hkvs hfirst
      skipSpace_render (by simpa using hkeys) (by omega)
    have hnext : skipSpace (' ' :: (quote l ++ ':' :: ' ' ::
        (render w ++ (renderMembers kvs ++ r)))) =
        quote l ++ ':' :: ' ' :: (render w ++ (renderMembers kvs ++ r)) := rfl
    rw [show quote k ++ ':' :: ' ' :: cs = '"' :: (k.toList.flatMap escapeChar ++
      '"' :: ':' :: ' ' :: cs) by simp [quote], scanMembers, scanString_quote]
    simp only [renderMembers, List.cons_append, List.append_assoc, Option.bind_eq_bind,
      Option.bind_some, skipSpace_cons (show isSpace ':' = false from rfl), hspace, hv,
      skipSpace_cons (show isSpace ',' = false from rfl), hnext, setMember_new hnew, hmembers,
      List.nil_append]

end

theorem startChar_ne_mark : startChar j ≠ '\ufeff' := by
  cases j with
  | num n =>
    intro h
    have hn := startChar_num n
    rw [h] at hn
    exact absurd hn (by decide)
  | bool b => cases b <;> decide
  | null | str _ | arr _ | obj _ => simp [startChar]

/-- `json.loads(json.dumps(value))` is the value. -/
theorem loads_render (h : j.Proper) : loads (render j) = some j := by
  have hend : NumberEnd [] := by simp [NumberEnd]
  have hvalue := scanValue_render j _ h hend le_rfl
  have hspace : skipSpace (render j) = render j := by
    simpa using skipSpace_render (j := j) (r := [])
  rw [List.append_nil] at hvalue
  have hmark : ¬ (render j).head? = some '\ufeff' := by
    obtain ⟨ds, hds⟩ := render_eq_cons j
    rw [hds, List.head?_cons]
    exact fun h => startChar_ne_mark (Option.some.inj h)
  have hrest : skipSpace [] = [] := rfl
  simp [loads, hmark, hspace, hvalue, hrest]

theorem keys_setMember : (setMember kvs k v).map Prod.fst =
    if k ∈ kvs.map Prod.fst then kvs.map Prod.fst else kvs.map Prod.fst ++ [k] := by
  unfold setMember
  split
  · rw [List.map_map]
    apply List.map_congr_left
    intro kv _
    by_cases hk : kv.1 = k <;> simp [hk]
  · simp

theorem nodup_setMember (h : (kvs.map Prod.fst).Nodup) :
    ((setMember kvs k v).map Prod.fst).Nodup := by
  rw [keys_setMember]
  split
  · exact h
  · rename_i hk
    exact h.append (List.nodup_singleton k) (by simpa using hk)

theorem membersProper_iff : MembersProper kvs ↔ ∀ kv ∈ kvs, kv.2.Proper := by
  induction kvs with
  | nil => simp [MembersProper]
  | cons kv kvs ih => simp [MembersProper, ih]

theorem membersProper_setMember (h : MembersProper kvs) (hv : v.Proper) :
    MembersProper (setMember kvs k v) := by
  rw [membersProper_iff] at h ⊢
  intro kv hkv
  unfold setMember at hkv
  split_ifs at hkv
  · obtain ⟨kw, hkw, rfl⟩ := List.mem_map.mp hkv
    by_cases hk : kw.1 = k
    · simpa [hk] using hv
    · simpa [hk] using h kw hkw
  · rcases List.mem_append.mp hkv with hkv | hkv
    · exact h kv hkv
    · rw [List.mem_singleton.mp hkv]
      exact hv

/-- What the three scanners give with a fuel. -/
structure ScansProper (fuel : Nat) : Prop where
  value : ∀ {cs j r}, scanValue fuel cs = some (j, r) → j.Proper
  items : ∀ {cs xs r}, scanItems fuel cs = some (xs, r) → ItemsProper xs
  members : ∀ {cs done kvs r}, (done.map Prod.fst).Nodup → MembersProper done →
    scanMembers fuel done cs = some (kvs, r) → (kvs.map Prod.fst).Nodup ∧ MembersProper kvs

theorem scansProper : ∀ fuel, ScansProper fuel
  | 0 => ⟨by simp [scanValue], by simp [scanItems], by simp [scanMembers]⟩
  | fuel + 1 => by
    have ih := scansProper fuel
    refine ⟨?_, ?_, ?_⟩
    · intro cs j r h
      rw [scanValue.eq_def] at h
      simp only at h
      split at h
      · obtain ⟨p, _, hp⟩ := Option.map_eq_some_iff.mp h
        obtain ⟨rfl, _⟩ := Prod.mk.inj hp
        trivial
      · split at h
        · obtain ⟨rfl, _⟩ := Prod.mk.inj (Option.some.inj h)
          exact ⟨List.nodup_nil, trivial⟩
        · obtain ⟨p, hkvs, hp⟩ := Option.map_eq_some_iff.mp h
          obtain ⟨rfl, _⟩ := Prod.mk.inj hp
          exact ih.members (by simp) (by trivial) hkvs
      · split at h
        · obtain ⟨rfl, _⟩ := Prod.mk.inj (Option.some.inj h)
          trivial
        · obtain ⟨p, hxs, hp⟩ := Option.map_eq_some_iff.mp h
          obtain ⟨rfl, _⟩ := Prod.mk.inj hp
          exact ih.items hxs
      · obtain ⟨rfl, _⟩ := Prod.mk.inj (Option.some.inj h)
        trivial
      · obtain ⟨rfl, _⟩ := Prod.mk.inj (Option.some.inj h)
        trivial
      · obtain ⟨rfl, _⟩ := Prod.mk.inj (Option.some.inj h)
        trivial
      · obtain ⟨p, hn, hp⟩ := Option.map_eq_some_iff.mp h
        obtain ⟨rfl, _⟩ := Prod.mk.inj hp
        exact JsonNumber.valid_of_scan hn
    · intro cs xs r h
      simp only [scanItems, Option.bind_eq_bind, Option.bind_eq_some_iff] at h
      obtain ⟨⟨x, cs⟩, hx, h⟩ := h
      split at h
      · obtain ⟨rfl, _⟩ := Prod.mk.inj (Option.some.inj h)
        exact ⟨ih.value hx, trivial⟩
      · obtain ⟨⟨ys, cs⟩, hys, h⟩ := Option.bind_eq_some_iff.mp h
        obtain ⟨rfl, _⟩ := Prod.mk.inj (Option.some.inj h)
        exact ⟨ih.value hx, ih.items hys⟩
      · simp at h
    · intro cs done kvs r hkeys hdone h
      rw [scanMembers.eq_def] at h
      simp only at h
      split at h
      · obtain ⟨⟨k, cs⟩, _, h⟩ := Option.bind_eq_some_iff.mp h
        simp only at h
        split at h
        · obtain ⟨⟨v, cs⟩, hv, h⟩ := Option.bind_eq_some_iff.mp h
          have hproper := membersProper_setMember (k := k) hdone (ih.value hv)
          simp only at h
          split at h
          · obtain ⟨rfl, _⟩ := Prod.mk.inj (Option.some.inj h)
            exact ⟨nodup_setMember hkeys, hproper⟩
          · exact ih.members (nodup_setMember hkeys) hproper h
          · simp at h
        · simp at h
      · simp at h

theorem loads_eq_some {text : List Char} (h : loads text = some j) :
    ∃ r, scanValue text.length (skipSpace text) = some (j, r) ∧ skipSpace r = [] := by
  unfold loads at h
  split_ifs at h
  obtain ⟨⟨k, r⟩, hvalue, h⟩ := Option.bind_eq_some_iff.mp h
  simp only at h
  split_ifs at h with hspace
  obtain rfl := Option.some.inj h
  exact ⟨r, hvalue, hspace⟩

/-- What a text is read as has distinct keys and JSON numbers. -/
theorem proper_of_loads {text : List Char} (h : loads text = some j) : j.Proper := by
  obtain ⟨r, hvalue, _⟩ := loads_eq_some h
  exact (scansProper _).value hvalue

example : loads ['\n', '{', '"', 'a', '"', ':', '[', '-', '1', '.', '5', 'e', '3', ' ', ']', '}'] =
    some (.obj [("a", .arr [.num ⟨['-', '1', '.', '5', 'e', '3'], by decide,
      List.all_iff_forall_prop.mp (by decide)⟩])]) := by
  rfl

/-- The last value of a key counts. -/
example : loads ['{', '"', 'a', '"', ':', '1', ',', '"', 'a', '"', ':', '2', '}'] =
    some (.obj [("a", .num (.ofNat 2))]) := by
  rfl

/-- Its byte in UTF-8 is the character itself, and is not zero. -/
def Ascii (c : Char) : Prop := 0 < c.toNat ∧ c.toNat < 0x80

instance : DecidablePred Ascii := fun _ => inferInstanceAs (Decidable (_ ∧ _))

theorem ascii_of_number (hc : c ∈ numberChars) : Ascii c := by
  have hall : (numberChars.all fun c => Ascii c) = true := by decide
  exact List.all_iff_forall_prop.mp hall c hc

theorem ascii_hex4 : ∀ c ∈ hex4 n, Ascii c := by
  have hall : ∀ k : Fin 16, Ascii (Nat.digitChar k) := by decide
  have hdigit : ∀ k, Ascii (Nat.digitChar (k % 16)) :=
    fun k => hall ⟨k % 16, Nat.mod_lt _ (by decide)⟩
  simp [hex4, hdigit]

theorem ascii_escapeChar : ∀ d ∈ escapeChar c, Ascii d := by
  unfold escapeChar
  split_ifs with h1 h2 h3 h4 h5 h6 h7 h8 h9
  · exact List.all_iff_forall_prop.mp (by decide)
  · exact List.all_iff_forall_prop.mp (by decide)
  · exact List.all_iff_forall_prop.mp (by decide)
  · exact List.all_iff_forall_prop.mp (by decide)
  · exact List.all_iff_forall_prop.mp (by decide)
  · exact List.all_iff_forall_prop.mp (by decide)
  · exact List.all_iff_forall_prop.mp (by decide)
  · obtain ⟨hlow, hhigh⟩ : (' ').toNat ≤ c.toNat ∧ c.toNat ≤ ('~').toNat := h8
    intro d hd
    rw [List.mem_singleton.mp hd]
    exact ⟨Nat.lt_of_lt_of_le (by decide) hlow, Nat.lt_of_le_of_lt hhigh (by decide)⟩
  · simp only [List.forall_mem_cons]
    exact ⟨by decide, by decide, ascii_hex4⟩
  · simp only [List.cons_append, List.forall_mem_cons, List.forall_mem_append]
    exact ⟨by decide, by decide, ascii_hex4, by decide, by decide, ascii_hex4⟩

theorem ascii_quote : ∀ c ∈ quote k, Ascii c := by
  simp only [quote, List.forall_mem_cons, List.forall_mem_append, List.mem_flatMap]
  refine ⟨by decide, ?_, by decide, by simp⟩
  rintro c ⟨d, _, hc⟩
  exact ascii_escapeChar c hc

mutual

/-- `ensure_ascii`. -/
theorem ascii_render : ∀ j : Json, ∀ c ∈ render j, Ascii c
  | .null | .bool true | .bool false | .arr [] | .obj [] => by
    simp only [render]
    exact List.all_iff_forall_prop.mp (by decide)
  | .num n => fun _ hc => ascii_of_number (n.digits _ hc)
  | .str s => ascii_quote
  | .arr (x :: xs) => by
    simp only [render, List.forall_mem_cons, List.forall_mem_append]
    exact ⟨by decide, ascii_render x, ascii_renderItems xs⟩
  | .obj ((k, v) :: kvs) => by
    simp only [render, List.forall_mem_cons, List.forall_mem_append]
    exact ⟨by decide, ascii_quote, by decide, by decide, ascii_render v, ascii_renderMembers kvs⟩

theorem ascii_renderItems : ∀ xs : List Json, ∀ c ∈ renderItems xs, Ascii c
  | [] => by
    simp only [renderItems]
    exact List.all_iff_forall_prop.mp (by decide)
  | x :: xs => by
    simp only [renderItems, List.forall_mem_cons, List.forall_mem_append]
    exact ⟨by decide, by decide, ascii_render x, ascii_renderItems xs⟩

theorem ascii_renderMembers : ∀ kvs : List (String × Json), ∀ c ∈ renderMembers kvs, Ascii c
  | [] => by
    simp only [renderMembers]
    exact List.all_iff_forall_prop.mp (by decide)
  | (k, v) :: kvs => by
    simp only [renderMembers, List.forall_mem_cons, List.forall_mem_append]
    exact ⟨by decide, by decide, ascii_quote, by decide, by decide, ascii_render v,
      ascii_renderMembers kvs⟩

end

/-- The values with the members of their objects in any order. -/
def Same (j k : Json) : Prop := j.sortKeys = k.sortKeys

theorem sortMembers_eq_map : sortMembers kvs = kvs.map fun kv => (kv.1, kv.2.sortKeys) := by
  induction kvs with
  | nil => rfl
  | cons kv kvs ih => rw [sortMembers, ih, List.map_cons]

theorem nodup_sorted : (((sortMembers kvs).insertionSort keyLE).map Prod.fst).Nodup ↔
    (kvs.map Prod.fst).Nodup := by
  have hperm := (List.perm_insertionSort keyLE (sortMembers kvs)).map Prod.fst
  rw [hperm.nodup_iff, sortMembers_eq_map, List.map_map]
  rfl

mutual

theorem proper_sortKeys : ∀ j : Json, j.sortKeys.Proper ↔ j.Proper
  | .null | .bool _ | .num _ | .str _ => by simp only [sortKeys]
  | .arr xs => by
    simp only [sortKeys, Proper]
    exact itemsProper_sortItems xs
  | .obj kvs => by
    have hmem : MembersProper ((sortMembers kvs).insertionSort keyLE) ↔
        MembersProper (sortMembers kvs) := by
      rw [membersProper_iff, membersProper_iff]
      simp only [(List.perm_insertionSort keyLE (sortMembers kvs)).mem_iff]
    simp only [sortKeys, Proper]
    rw [nodup_sorted, hmem, membersProper_sortMembers kvs]

theorem itemsProper_sortItems : ∀ xs : List Json, ItemsProper (sortItems xs) ↔ ItemsProper xs
  | [] => Iff.rfl
  | x :: xs => by
    rw [sortItems, ItemsProper, ItemsProper, proper_sortKeys x, itemsProper_sortItems xs]

theorem membersProper_sortMembers : ∀ kvs : List (String × Json),
    MembersProper (sortMembers kvs) ↔ MembersProper kvs
  | [] => Iff.rfl
  | (k, v) :: kvs => by
    rw [sortMembers, MembersProper, MembersProper, proper_sortKeys v, membersProper_sortMembers kvs]

end

theorem Same.proper {k : Json} (h : Same j k) (hk : k.Proper) : j.Proper := by
  rw [← proper_sortKeys, show j.sortKeys = k.sortKeys from h, proper_sortKeys]
  exact hk

/-- With distinct keys, the member of a key is found wherever it stands. -/
theorem find?_perm {kvs kws : List (String × Json)} (h : kvs.Perm kws)
    (hkeys : (kvs.map Prod.fst).Nodup) :
    kvs.find? (fun kv => kv.1 == k) = kws.find? (fun kv => kv.1 == k) := by
  apply Option.ext
  intro kv
  have hiff : ∀ {ms : List (String × Json)}, (ms.map Prod.fst).Nodup →
      (ms.find? (fun kv => kv.1 == k) = some kv ↔ kv ∈ ms ∧ kv.1 = k) := by
    intro ms hms
    refine ⟨fun hf => ⟨List.mem_of_find?_eq_some hf, by simpa using List.find?_some hf⟩, ?_⟩
    rintro ⟨hmem, hk⟩
    have hsome : (ms.find? fun kv => kv.1 == k).isSome :=
      List.find?_isSome.mpr ⟨kv, hmem, by simpa using hk⟩
    obtain ⟨kw, hkw⟩ := Option.isSome_iff_exists.mp hsome
    rw [hkw]
    have hkey : kw.1 = k := by simpa using List.find?_some hkw
    exact congrArg some
      (List.inj_on_of_nodup_map hms (List.mem_of_find?_eq_some hkw) hmem (hkey.trans hk.symm))
  rw [hiff hkeys, hiff ((h.map Prod.fst).nodup_iff.mp hkeys), h.mem_iff]

theorem field?_sortKeys (h : j.Proper) : j.sortKeys.field? k = (j.field? k).map sortKeys := by
  cases j with
  | obj kvs =>
    have hperm := List.perm_insertionSort keyLE (sortMembers kvs)
    simp only [sortKeys, field?]
    rw [find?_perm hperm (nodup_sorted.mpr h.1), sortMembers_eq_map, List.find?_map]
    simp [Function.comp_def]
  | _ => simp only [sortKeys, field?, Option.map_none]

/-- What a key holds does not depend on the order. -/
theorem Same.field? {l : Json} (h : Same j l) (hj : j.Proper) (hl : l.Proper) (k : String) :
    (j.field? k).map sortKeys = (l.field? k).map sortKeys := by
  rw [← field?_sortKeys hj, ← field?_sortKeys hl, show j.sortKeys = l.sortKeys from h]

theorem Proper.field? {l : Json} (h : j.Proper) (hf : j.field? k = some l) : l.Proper := by
  cases j with
  | obj kvs =>
    obtain ⟨kv, hkv, rfl⟩ := Option.map_eq_some_iff.mp hf
    exact membersProper_iff.mp h.2 kv (List.mem_of_find?_eq_some hkv)
  | _ => simp [Json.field?] at hf

end Json
