import ForensicChain.Library.Text

/-! UUIDs with their canonical text and the texts that `uuid.UUID` reads. -/

structure Uuid where
  value : Nat
  lt : value < 2 ^ 128
  deriving DecidableEq

namespace Uuid

/-- The UUID whose number is `n`, modulo `2 ^ 128`. -/
def ofNat (n : Nat) : Uuid := ⟨n % 2 ^ 128, Nat.mod_lt n (by decide)⟩

/-- The last `k` hexadecimal digits of `n`, most significant first. -/
def hexDigits : Nat → Nat → List Char
  | 0, _ => []
  | k + 1, n => hexDigits k (n / 16) ++ [Nat.digitChar (n % 16)]

def hexVal (c : Char) : Option Nat :=
  if '0' ≤ c ∧ c ≤ '9' then some (c.toNat - 48)
  else if 'a' ≤ c ∧ c ≤ 'f' then some (c.toNat - 87)
  else if 'A' ≤ c ∧ c ≤ 'F' then some (c.toNat - 55)
  else none

/-- `int(digits, 16)` of a list of hexadecimal digits. -/
def readHex (acc : Nat) : List Char → Option Nat
  | [] => some acc
  | c :: cs => (hexVal c).bind fun d => readHex (acc * 16 + d) cs

/-- A digit of `int(text, 16)`, of whatever script. -/
def digitVal (c : Char) : Option Nat :=
  hexVal c <|> (Text.decimalZeros.find? fun base => base ≤ c.toNat && c.toNat < base + 10).map
    (c.toNat - ·)

/-- Digits, with single underscores between them. -/
def readDigits (acc : Nat) : List Char → Option Nat
  | [] => some acc
  | '_' :: c :: cs => (digitVal c).bind fun d => readDigits (acc * 16 + d) cs
  | c :: cs => (digitVal c).bind fun d => readDigits (acc * 16 + d) cs

/-- The whitespace that `int` skips; the separators 28 to 31 are not among it. -/
def isIntSpace (c : Char) : Bool := Text.isSpace c && !(28 ≤ c.toNat && c.toNat ≤ 31)

def dropPlus : List Char → List Char
  | '+' :: cs => cs
  | cs => cs

/-- An underscore may stand after the `0x`. -/
def dropBase : List Char → List Char
  | zero :: x :: cs =>
    if digitVal zero = some 0 ∧ (x = 'x' ∨ x = 'X') then
      if cs.head? = some '_' then cs.tail else cs
    else zero :: x :: cs
  | cs => cs

/-- `int(text, 16)` of a text without a minus sign; `none` is a ValueError. -/
def readInt (cs : List Char) : Option Nat :=
  let cs := ((cs.dropWhile isIntSpace).reverse.dropWhile isIntSpace).reverse
  match dropBase (dropPlus cs) with
  | [] => none
  | c :: cs => (digitVal c).bind fun d => readDigits d cs

/-- `hex.replace(word, "")`. -/
def remove (word : List Char) (fuel : Nat) (cs : List Char) : List Char :=
  match fuel, cs with
  | 0, cs => cs
  | _, [] => []
  | fuel + 1, c :: cs =>
    if word.isPrefixOf (c :: cs) then remove word fuel ((c :: cs).drop word.length)
    else c :: remove word fuel cs

/-- `hex.strip("{}")`. -/
def stripBraces (cs : List Char) : List Char :=
  ((cs.dropWhile (fun c => c = '{' ∨ c = '}')).reverse.dropWhile
    (fun c => c = '{' ∨ c = '}')).reverse

/-- `str(u)`. -/
def str (u : Uuid) : String :=
  let ds := hexDigits 32 u.value
  String.ofList (ds.take 8 ++ '-' :: ((ds.drop 8).take 4) ++ '-' :: ((ds.drop 12).take 4) ++
    '-' :: ((ds.drop 16).take 4) ++ '-' :: ds.drop 20)

/-- `uuid.UUID(text)`; `none` is a ValueError. -/
def parse (s : String) : Option Uuid :=
  let cs := remove "urn:".toList s.length s.toList
  let cs := remove "uuid:".toList s.length cs
  let cs := (stripBraces cs).filter (· ≠ '-')
  if cs.length = 32 then
    (readInt cs).bind fun n => if h : n < 2 ^ 128 then some ⟨n, h⟩ else none
  else none

example : readInt "0x_1_f ".toList = some 31 := by decide

theorem hexVal_toNat {c : Char} (h : (hexVal c).isSome) :
    (48 ≤ c.toNat ∧ c.toNat ≤ 57) ∨ (65 ≤ c.toNat ∧ c.toNat ≤ 70) ∨
      (97 ≤ c.toNat ∧ c.toNat ≤ 102) := by
  have hle : ∀ a b : Char, a ≤ b ↔ a.toNat ≤ b.toNat := fun a b => by
    rw [Char.le_def, UInt32.le_iff_toNat_le]
    rfl
  simp only [hexVal, hle] at h
  split_ifs at h with h0 h1 h2
  · exact .inl h0
  · exact .inr (.inr h1)
  · exact .inr (.inl h2)
  · simp at h

theorem hexVal_digitChar (n : Nat) : hexVal (Nat.digitChar (n % 16)) = some (n % 16) := by
  have hall : ∀ k : Fin 16, hexVal (Nat.digitChar k) = some k.val := by decide
  exact hall ⟨n % 16, Nat.mod_lt n (by omega)⟩

theorem readHex_concat (acc : Nat) (cs : List Char) (c : Char) :
    readHex acc (cs ++ [c]) = (readHex acc cs).bind fun a => (hexVal c).map (a * 16 + ·) := by
  induction cs generalizing acc with
  | nil => cases h : hexVal c <;> simp [readHex, h]
  | cons d cs ih =>
    cases h : hexVal d with
    | none => simp [readHex, h]
    | some v => simpa [readHex, h] using ih (acc * 16 + v)

theorem readHex_hexDigits (k n : Nat) : readHex 0 (hexDigits k n) = some (n % 16 ^ k) := by
  induction k generalizing n with
  | zero => simp [hexDigits, readHex, Nat.mod_one]
  | succ k ih =>
    rw [hexDigits, readHex_concat, ih, hexVal_digitChar, Option.bind_some, Option.map_some,
      Nat.pow_succ', Nat.mod_mul]
    congr 1
    omega

theorem hexDigits_length (k n : Nat) : (hexDigits k n).length = k := by
  induction k generalizing n with
  | zero => rfl
  | succ k ih => simp [hexDigits, ih]

theorem hexDigits_hexVal (k n : Nat) : ∀ c ∈ hexDigits k n, (hexVal c).isSome := by
  induction k generalizing n with
  | zero => simp [hexDigits]
  | succ k ih =>
    intro c hc
    rcases List.mem_append.mp hc with hc | hc
    · exact ih _ c hc
    · rw [List.mem_singleton.mp hc, hexVal_digitChar]
      rfl

theorem remove_of_notMem {w : Char} {word : List Char} {fuel : Nat} {cs : List Char}
    (h : w ∉ cs) : remove (w :: word) fuel cs = cs := by
  induction cs generalizing fuel with
  | nil => cases fuel <;> rfl
  | cons c cs ih =>
    cases fuel with
    | zero => rfl
    | succ fuel =>
      rw [List.mem_cons, not_or] at h
      simp [remove, h.1, ih h.2]

theorem dropWhile_braces {cs : List Char} (h1 : '{' ∉ cs) (h2 : '}' ∉ cs) :
    cs.dropWhile (fun c => c = '{' ∨ c = '}') = cs := by
  cases cs with
  | nil => rfl
  | cons d ds =>
    apply List.dropWhile_cons_of_neg
    rw [decide_eq_true_iff]
    rintro (rfl | rfl)
    · exact h1 List.mem_cons_self
    · exact h2 List.mem_cons_self

theorem stripBraces_of_notMem {cs : List Char} (h1 : '{' ∉ cs) (h2 : '}' ∉ cs) :
    stripBraces cs = cs := by
  rw [stripBraces, dropWhile_braces h1 h2, dropWhile_braces (by simpa using h1) (by simpa using h2),
    List.reverse_reverse]

theorem stripBraces_braced {cs : List Char} (h1 : '{' ∉ cs) (h2 : '}' ∉ cs) (hne : cs ≠ []) :
    stripBraces ('{' :: cs ++ ['}']) = cs := by
  have hfront : ('{' :: cs ++ ['}']).dropWhile (fun c => c = '{' ∨ c = '}') = cs ++ ['}'] := by
    cases cs with
    | nil => exact (hne rfl).elim
    | cons d ds =>
      have hd : ¬ (d = '{' ∨ d = '}') := by
        rintro (rfl | rfl)
        · exact h1 List.mem_cons_self
        · exact h2 List.mem_cons_self
      simp [hd]
  rw [stripBraces, hfront, List.reverse_concat, List.dropWhile_cons_of_pos (by decide),
    dropWhile_braces (by simpa using h1) (by simpa using h2), List.reverse_reverse]

theorem digitVal_of_hexVal {c : Char} {d : Nat} (h : hexVal c = some d) : digitVal c = some d := by
  simp [digitVal, h]

theorem hexVal_of_readHex {acc n : Nat} {cs : List Char} (h : readHex acc cs = some n) :
    ∀ c ∈ cs, (hexVal c).isSome := by
  induction cs generalizing acc with
  | nil => simp
  | cons c cs ih =>
    obtain ⟨d, hd, hrest⟩ := Option.bind_eq_some_iff.mp h
    intro e he
    rcases List.mem_cons.mp he with rfl | he
    · simp [hd]
    · exact ih hrest e he

theorem readDigits_of_readHex {acc n : Nat} {cs : List Char} (h : readHex acc cs = some n) :
    readDigits acc cs = some n := by
  induction cs generalizing acc with
  | nil => exact h
  | cons c cs ih =>
    obtain ⟨d, hd, hrest⟩ := Option.bind_eq_some_iff.mp h
    have hc : c ≠ '_' := by
      rintro rfl
      cases hd
    rw [readDigits.eq_3 _ _ _ (fun _ _ he _ => hc he), digitVal_of_hexVal hd, Option.bind_some,
      ih hrest]

/-- A hexadecimal digit is no space. -/
theorem isIntSpace_of_hexVal {c : Char} (h : (hexVal c).isSome) : isIntSpace c = false := by
  have hcode := hexVal_toNat h
  rw [← Bool.not_eq_true]
  intro hspace
  have hmem := Text.mem_spaceCodes (Bool.and_eq_true_iff.mp hspace).1
  simp only [Text.spaceCodes, List.mem_cons, List.not_mem_nil, or_false] at hmem
  omega

theorem dropWhile_space {cs : List Char} (h : ∀ c ∈ cs, (hexVal c).isSome) :
    cs.dropWhile isIntSpace = cs := by
  cases cs with
  | nil => rfl
  | cons c cs =>
    exact List.dropWhile_cons_of_neg (by simp [isIntSpace_of_hexVal (h c List.mem_cons_self)])

/-- Plain digits are read as they stand. -/
theorem readInt_of_readHex {n : Nat} {cs : List Char} (hne : cs ≠ []) (h : readHex 0 cs = some n) :
    readInt cs = some n := by
  have hhex := hexVal_of_readHex h
  have hstrip : ((cs.dropWhile isIntSpace).reverse.dropWhile isIntSpace).reverse = cs := by
    rw [dropWhile_space hhex, dropWhile_space fun c hc => hhex c (List.mem_reverse.mp hc),
      List.reverse_reverse]
  have hplus : dropPlus cs = cs := by
    cases cs with
    | nil => rfl
    | cons c cs =>
      have hc : c ≠ '+' := by
        rintro rfl
        exact absurd (hhex '+' List.mem_cons_self) (by decide)
      exact dropPlus.eq_2 _ fun _ he => hc (List.cons.inj he).1
  have hbase : dropBase cs = cs := by
    match cs, hhex with
    | [], _ | [_], _ => rfl
    | zero :: x :: cs, hhex =>
      have hx : ¬ (x = 'x' ∨ x = 'X') := by
        have hsome := hhex x (List.mem_cons_of_mem _ List.mem_cons_self)
        rintro (rfl | rfl) <;> exact absurd hsome (by decide)
      simp [dropBase, hx]
  simp only [readInt, hstrip, hplus, hbase]
  cases cs with
  | nil => exact (hne rfl).elim
  | cons c cs =>
    obtain ⟨d, hd, hrest⟩ := Option.bind_eq_some_iff.mp h
    rw [Nat.zero_mul, Nat.zero_add] at hrest
    show (digitVal c).bind (fun d => readDigits d cs) = some n
    rw [digitVal_of_hexVal hd, Option.bind_some, readDigits_of_readHex hrest]

/-- Hexadecimal digits and hyphens, in braces or not, are read as the number of the digits. -/
theorem parse_of_digits {s : String} {cs : List Char} {n : Nat}
    (hs : s.toList = cs ∨ s.toList = '{' :: cs ++ ['}'])
    (hcs : ∀ c ∈ cs, c = '-' ∨ (hexVal c).isSome) (hlen : (cs.filter (· ≠ '-')).length = 32)
    (hn : readHex 0 (cs.filter (· ≠ '-')) = some n) (h : n < 2 ^ 128) :
    parse s = some ⟨n, h⟩ := by
  have hout : ∀ c, c ≠ '-' → hexVal c = none → c ∉ cs := by
    intro c hhyphen hval hc
    rcases hcs c hc with h | h
    · exact hhyphen h
    · simp [hval] at h
  have hu : 'u' ∉ s.toList := by
    have hplain := hout 'u' (by decide) (by decide)
    rcases hs with hs | hs <;> simp [hs, hplain]
  have hopen := hout '{' (by decide) (by decide)
  have hclose := hout '}' (by decide) (by decide)
  have hne : cs ≠ [] := by
    rintro rfl
    cases hlen
  have hstrip : stripBraces s.toList = cs := by
    rcases hs with hs | hs
    · rw [hs, stripBraces_of_notMem hopen hclose]
    · rw [hs, stripBraces_braced hopen hclose hne]
  have hdigits : cs.filter (· ≠ '-') ≠ [] := by
    intro he
    rw [he] at hlen
    cases hlen
  unfold parse
  rw [show "urn:".toList = ['u', 'r', 'n', ':'] from rfl,
    show "uuid:".toList = ['u', 'u', 'i', 'd', ':'] from rfl]
  simp only [remove_of_notMem hu, hstrip, hlen, if_true, readInt_of_readHex hdigits hn,
    Option.bind_some, dif_pos h]

theorem str_toList_mem (u : Uuid) : ∀ c ∈ u.str.toList, c = '-' ∨ (hexVal c).isSome := by
  have hd := hexDigits_hexVal 32 u.value
  intro c hc
  simp only [str, String.toList_ofList, List.mem_append, List.mem_cons] at hc
  rcases hc with (((hc | hc | hc) | hc | hc) | hc | hc) | hc | hc
  · exact .inr (hd c (List.mem_of_mem_take hc))
  · exact .inl hc
  · exact .inr (hd c (List.mem_of_mem_drop (List.mem_of_mem_take hc)))
  · exact .inl hc
  · exact .inr (hd c (List.mem_of_mem_drop (List.mem_of_mem_take hc)))
  · exact .inl hc
  · exact .inr (hd c (List.mem_of_mem_drop (List.mem_of_mem_take hc)))
  · exact .inl hc
  · exact .inr (hd c (List.mem_of_mem_drop hc))

theorem str_notMem (u : Uuid) {c : Char} (h1 : c ≠ '-') (h2 : hexVal c = none) :
    c ∉ u.str.toList := by
  intro hc
  rcases str_toList_mem u c hc with h | h
  · exact h1 h
  · simp [h2] at h

theorem str_notMem_nul (u : Uuid) : '\x00' ∉ u.str.toList := str_notMem u (by decide) (by decide)

theorem filter_str (u : Uuid) : u.str.toList.filter (· ≠ '-') = hexDigits 32 u.value := by
  have hd : ∀ ds : List Char, (∀ c ∈ ds, c ∈ hexDigits 32 u.value) →
      ds.filter (· ≠ '-') = ds := by
    intro ds hds
    rw [List.filter_eq_self]
    intro c hc
    have hv := hexDigits_hexVal 32 u.value c (hds c hc)
    rw [decide_eq_true_iff]
    rintro rfl
    exact absurd hv (by decide)
  simp only [str, String.toList_ofList, List.filter_append, List.filter_cons_of_neg, ne_eq,
    not_true_eq_false, decide_false, Bool.false_eq_true, not_false_eq_true]
  rw [hd _ (fun c hc => List.mem_of_mem_take hc),
    hd _ (fun c hc => List.mem_of_mem_drop (List.mem_of_mem_take hc)),
    hd _ (fun c hc => List.mem_of_mem_drop (List.mem_of_mem_take hc)),
    hd _ (fun c hc => List.mem_of_mem_drop (List.mem_of_mem_take hc)),
    hd _ (fun c hc => List.mem_of_mem_drop hc)]
  simp only [List.append_assoc]
  have hj : ∀ a : Nat, ((hexDigits 32 u.value).drop a).take 4 ++
      (hexDigits 32 u.value).drop (a + 4) = (hexDigits 32 u.value).drop a := by
    intro a
    rw [← List.drop_drop, List.take_append_drop]
  rw [hj 16, hj 12, hj 8, List.take_append_drop]

theorem str_length (u : Uuid) : u.str.length = 36 := by
  have hlen : ∀ ds : List Char, ds.length = 32 →
      (String.ofList (ds.take 8 ++ '-' :: ((ds.drop 8).take 4) ++ '-' :: ((ds.drop 12).take 4) ++
        '-' :: ((ds.drop 16).take 4) ++ '-' :: ds.drop 20)).length = 36 := by
    intro ds hds
    rw [String.length_ofList]
    simp only [List.length_append, List.length_cons, List.length_take, List.length_drop, hds]
    rfl
  exact hlen _ (hexDigits_length 32 u.value)

theorem readHex_filter_str (u : Uuid) :
    readHex 0 (u.str.toList.filter (· ≠ '-')) = some u.value := by
  have hlt : u.value % 16 ^ 32 = u.value := Nat.mod_eq_of_lt u.lt
  rw [filter_str, readHex_hexDigits, hlt]

/-- `uuid.UUID(str(u)) == u`. -/
theorem parse_str (u : Uuid) : parse u.str = some u := by
  have hlen : (u.str.toList.filter (· ≠ '-')).length = 32 := by
    rw [filter_str, hexDigits_length]
  exact parse_of_digits (.inl rfl) (str_toList_mem u) hlen (readHex_filter_str u) u.lt

theorem str_injective : Function.Injective str := by
  intro u v h
  have hp := congrArg parse h
  rw [parse_str, parse_str] at hp
  exact Option.some.inj hp

/-- Neither a digit nor any of the signs and spaces that `uuid.UUID` passes over. -/
def isForeign (c : Char) : Bool :=
  digitVal c = none && !isIntSpace c && c ∉ "urn:uuid:{}-+_xX".toList

variable {c : Char} {cs : List Char}

theorem mem_dropWhile {p : Char → Bool} (hp : p c = false) (hc : c ∈ cs) : c ∈ cs.dropWhile p := by
  induction cs with
  | nil => exact hc
  | cons d ds ih =>
    by_cases hd : p d
    · rw [List.dropWhile_cons_of_pos hd]
      have hne : c ≠ d := by
        rintro rfl
        simp [hp] at hd
      exact ih ((List.mem_cons.mp hc).resolve_left hne)
    · rwa [List.dropWhile_cons_of_neg hd]

theorem mem_stripped {p : Char → Bool} (hp : p c = false) (hc : c ∈ cs) :
    c ∈ ((cs.dropWhile p).reverse.dropWhile p).reverse :=
  List.mem_reverse.mpr (mem_dropWhile hp (List.mem_reverse.mpr (mem_dropWhile hp hc)))

theorem mem_remove {word : List Char} {fuel : Nat} (hw : c ∉ word) (hc : c ∈ cs) :
    c ∈ remove word fuel cs := by
  induction fuel generalizing cs with
  | zero => exact hc
  | succ fuel ih =>
    cases cs with
    | nil => exact hc
    | cons d ds =>
      rw [remove]
      split_ifs with hpre
      · obtain ⟨rest, hrest⟩ := List.isPrefixOf_iff_prefix.mp hpre
        rw [← hrest] at hc ⊢
        rw [List.drop_left]
        exact ih ((List.mem_append.mp hc).resolve_left hw)
      · rcases List.mem_cons.mp hc with rfl | hc
        · exact List.mem_cons_self
        · exact List.mem_cons_of_mem _ (ih hc)

theorem readDigits_foreign (hc : isForeign c) (hmem : c ∈ cs) (acc : Nat) :
    readDigits acc cs = none := by
  simp only [isForeign, Bool.and_eq_true, decide_eq_true_eq] at hc
  have hdigit := hc.1.1
  have hsign : c ≠ '_' := by
    rintro rfl
    exact absurd hc.2 (by decide)
  induction acc, cs using readDigits.induct with
  | case1 acc => simp at hmem
  | case2 acc d ds ih =>
    rw [readDigits, Option.bind_eq_none_iff]
    intro n hn
    have hne : c ≠ d := by
      rintro rfl
      simp [hdigit] at hn
    exact ih n (by simpa [hsign, hne] using hmem)
  | case3 acc d ds hd ih =>
    rw [readDigits.eq_3 _ _ _ hd, Option.bind_eq_none_iff]
    intro n hn
    have hne : c ≠ d := by
      rintro rfl
      simp [hdigit] at hn
    exact ih n ((List.mem_cons.mp hmem).resolve_left hne)

theorem mem_dropPlus (hc : c ≠ '+') (hmem : c ∈ cs) : c ∈ dropPlus cs := by
  unfold dropPlus
  split
  · exact (List.mem_cons.mp hmem).resolve_left hc
  · exact hmem

theorem mem_dropBase (hdigit : digitVal c = none) (hx : c ≠ 'x' ∧ c ≠ 'X' ∧ c ≠ '_')
    (hmem : c ∈ cs) : c ∈ dropBase cs := by
  unfold dropBase
  split
  · rename_i zero x ds
    by_cases hbase : digitVal zero = some 0 ∧ (x = 'x' ∨ x = 'X')
    · have hzero : c ≠ zero := by
        rintro rfl
        simp [hdigit] at hbase
      have hne : c ≠ x := by
        rintro rfl
        exact hbase.2.elim hx.1 hx.2.1
      have hds : c ∈ ds := by simpa [hzero, hne] using hmem
      rw [if_pos hbase]
      split_ifs with hhead
      · cases ds with
        | nil => exact hds
        | cons d ds =>
          obtain rfl := Option.some.inj hhead
          exact (List.mem_cons.mp hds).resolve_left hx.2.2
      · exact hds
    · rwa [if_neg hbase]
  · exact hmem

theorem readInt_foreign (hc : isForeign c) (hmem : c ∈ cs) : readInt cs = none := by
  have hparts := hc
  simp only [isForeign, Bool.and_eq_true, decide_eq_true_eq, Bool.not_eq_true'] at hparts
  obtain ⟨⟨hdigit, hspace⟩, hsigns⟩ := hparts
  have hne : ∀ d ∈ "urn:uuid:{}-+_xX".toList, c ≠ d := fun d hd he => hsigns (he ▸ hd)
  have hrest := mem_dropBase hdigit ⟨hne _ (by decide), hne _ (by decide), hne _ (by decide)⟩
    (mem_dropPlus (hne _ (by decide)) (mem_stripped hspace hmem))
  unfold readInt
  dsimp only
  split
  · rfl
  · rename_i d ds hds
    rw [hds] at hrest
    rw [Option.bind_eq_none_iff]
    intro n hn
    have hd : c ≠ d := by
      rintro rfl
      simp [hdigit] at hn
    exact readDigits_foreign hc ((List.mem_cons.mp hrest).resolve_left hd) n

/-- A text with a foreign character is refused. -/
theorem notMem_of_parse {s : String} {u : Uuid} (hc : isForeign c) (h : parse s = some u) :
    c ∉ s.toList := by
  intro hmem
  have hparts := hc
  simp only [isForeign, Bool.and_eq_true, decide_eq_true_eq] at hparts
  have hne : ∀ d ∈ "urn:uuid:{}-+_xX".toList, c ≠ d := fun d hd he => hparts.2 (he ▸ hd)
  have hurn : c ∉ "urn:".toList := fun hc => hparts.2 (List.mem_append_left _ hc)
  have huuid : c ∉ "uuid:".toList := fun hc => hparts.2
    (List.mem_append_right "urn:".toList (List.mem_append_left "{}-+_xX".toList hc))
  unfold parse at h
  dsimp only at h
  split_ifs at h
  obtain ⟨n, hn, _⟩ := Option.bind_eq_some_iff.mp h
  rw [readInt_foreign hc] at hn
  · cases hn
  · refine List.mem_filter.mpr ⟨mem_stripped ?_ (mem_remove huuid (mem_remove hurn hmem)), ?_⟩
    · simp [hne '{' (by decide), hne '}' (by decide)]
    · simpa using hne '-' (by decide)

end Uuid
