import Mathlib.Data.List.Sort
import Mathlib.Data.String.Basic

/-! JSON values and their ASCII text with sorted keys; the text determines the value. -/

/-- The characters of a JSON number. -/
def numberChars : List Char :=
  ['0', '1', '2', '3', '4', '5', '6', '7', '8', '9', '+', '-', '.', 'e', 'E']

/-- A number, kept as the text that is written for it. -/
structure JsonNumber where
  text : List Char
  nonempty : text ≠ []
  digits : ∀ c ∈ text, c ∈ numberChars

theorem isDigit_mem_numberChars {c : Char} (h : c.isDigit) : c ∈ numberChars := by
  obtain ⟨h0, h9⟩ : 48 ≤ c.toNat ∧ c.toNat ≤ 57 := Char.isDigit_iff_toNat.mp h
  have hall : ∀ k : Fin 10, Char.ofNat (48 + k) ∈ numberChars := by decide
  have hc := hall ⟨c.toNat - 48, by omega⟩
  rwa [Nat.add_sub_cancel' h0, Char.ofNat_toNat] at hc

/-- A natural number in decimal digits. -/
def JsonNumber.ofNat (n : Nat) : JsonNumber where
  text := Nat.toDigits 10 n
  nonempty := Nat.toDigits_ne_nil
  digits _ hc := isDigit_mem_numberChars (Nat.isDigit_of_mem_toDigits (by decide) le_rfl hc)

inductive Json where
  | null
  | bool (b : Bool)
  | num (n : JsonNumber)
  | str (s : String)
  | arr (items : List Json)
  | obj (members : List (String × Json))

namespace Json

mutual

/-- Some string or key has the character NUL, which PostgreSQL cannot store. -/
def hasNul : Json → Bool
  | .str s => s.toList.contains '\x00'
  | .arr xs => itemsHaveNul xs
  | .obj kvs => membersHaveNul kvs
  | .null | .bool _ | .num _ => false

def itemsHaveNul : List Json → Bool
  | [] => false
  | x :: xs => hasNul x || itemsHaveNul xs

def membersHaveNul : List (String × Json) → Bool
  | [] => false
  | (k, v) :: kvs => (k.toList.contains '\x00' || hasNul v) || membersHaveNul kvs

end

/-- `d[key]`, with `none` for a missing key or a value that is no object. -/
def field? (j : Json) (key : String) : Option Json :=
  match j with
  | .obj kvs => (kvs.find? (fun kv => kv.1 == key)).map Prod.snd
  | _ => none

/-- Members compare by key alone. -/
def keyLE (a b : String × Json) : Prop := a.1 ≤ b.1

instance : DecidableRel keyLE := fun a b => inferInstanceAs (Decidable (a.1 ≤ b.1))

instance : Std.Total keyLE := ⟨fun a b => le_total a.1 b.1⟩

instance : IsTrans (String × Json) keyLE := ⟨fun _ _ _ => le_trans⟩

mutual

/-- The value with the members of every object in the order of their keys. -/
def sortKeys : Json → Json
  | .arr xs => .arr (sortItems xs)
  | .obj kvs => .obj ((sortMembers kvs).insertionSort keyLE)
  | .null => .null
  | .bool b => .bool b
  | .num n => .num n
  | .str s => .str s

def sortItems : List Json → List Json
  | [] => []
  | x :: xs => sortKeys x :: sortItems xs

def sortMembers : List (String × Json) → List (String × Json)
  | [] => []
  | (k, v) :: kvs => (k, sortKeys v) :: sortMembers kvs

end

def hex4 (n : Nat) : List Char :=
  [Nat.digitChar (n / 4096 % 16), Nat.digitChar (n / 256 % 16),
    Nat.digitChar (n / 16 % 16), Nat.digitChar (n % 16)]

/-- `json.dumps` with `ensure_ascii`: short escapes, `\uXXXX`, or a surrogate pair. -/
def escapeChar (c : Char) : List Char :=
  if c = '"' then ['\\', '"']
  else if c = '\\' then ['\\', '\\']
  else if c = '\n' then ['\\', 'n']
  else if c = '\r' then ['\\', 'r']
  else if c = '\t' then ['\\', 't']
  else if c = '\x0c' then ['\\', 'f']
  else if c = '\x08' then ['\\', 'b']
  else if ' ' ≤ c ∧ c ≤ '~' then [c]
  else if c.toNat < 0x10000 then '\\' :: 'u' :: hex4 c.toNat
  else '\\' :: 'u' :: hex4 (0xd800 + (c.toNat - 0x10000) / 1024) ++
    '\\' :: 'u' :: hex4 (0xdc00 + (c.toNat - 0x10000) % 1024)

def quote (s : String) : List Char :=
  '"' :: (s.toList.flatMap escapeChar ++ ['"'])

mutual

/-- The text of a value, with the separators `", "` and `": "`. -/
def render : Json → List Char
  | .null => ['n', 'u', 'l', 'l']
  | .bool true => ['t', 'r', 'u', 'e']
  | .bool false => ['f', 'a', 'l', 's', 'e']
  | .num n => n.text
  | .str s => quote s
  | .arr [] => ['[', ']']
  | .arr (x :: xs) => '[' :: (render x ++ renderItems xs)
  | .obj [] => ['{', '}']
  | .obj ((k, v) :: kvs) => '{' :: (quote k ++ ':' :: ' ' :: (render v ++ renderMembers kvs))

def renderItems : List Json → List Char
  | [] => [']']
  | x :: xs => ',' :: ' ' :: (render x ++ renderItems xs)

def renderMembers : List (String × Json) → List Char
  | [] => ['}']
  | (k, v) :: kvs => ',' :: ' ' :: (quote k ++ ':' :: ' ' :: (render v ++ renderMembers kvs))

end

/-- `json.dumps(value, sort_keys=True)`. -/
def dumps (j : Json) : String := String.ofList (render j.sortKeys)

def hexValue (c : Char) : Nat := if c.toNat < 58 then c.toNat - 48 else c.toNat - 87

def unitValue (a b c d : Char) : Nat :=
  ((hexValue a * 16 + hexValue b) * 16 + hexValue c) * 16 + hexValue d

/-- The characters of the short escapes. -/
def shortEscape (c : Char) : Char :=
  if c = 'n' then '\n' else if c = 'r' then '\r' else if c = 't' then '\t'
  else if c = 'f' then '\x0c' else if c = 'b' then '\x08' else c

/-- One character of a JSON string and what follows it; `none` at the closing quote. -/
def readChar : List Char → Option (Char × List Char)
  | '"' :: _ => none
  | '\\' :: 'u' :: a :: b :: c :: d :: rest =>
    let n := unitValue a b c d
    if 0xd800 ≤ n ∧ n < 0xdc00 then
      match rest with
      | '\\' :: 'u' :: e :: f :: g :: h :: rest =>
        some (Char.ofNat (0x10000 + (n - 0xd800) * 1024 + (unitValue e f g h - 0xdc00)), rest)
      | _ => none
    else some (Char.ofNat n, rest)
  | '\\' :: e :: rest => some (shortEscape e, rest)
  | c :: rest => some (c, rest)
  | [] => none

theorem hexValue_digitChar {n : Nat} (h : n < 16) : hexValue (Nat.digitChar n) = n := by
  have hall : ∀ k : Fin 16, hexValue (Nat.digitChar k) = k := by decide
  exact hall ⟨n, h⟩

theorem readChar_hex4 {n : Nat} (hn : n < 0x10000) (hs : ¬ (0xd800 ≤ n ∧ n < 0xdc00))
    (rest : List Char) :
    readChar ('\\' :: 'u' :: (hex4 n ++ rest)) = some (Char.ofNat n, rest) := by
  have hv : unitValue (Nat.digitChar (n / 4096 % 16)) (Nat.digitChar (n / 256 % 16))
      (Nat.digitChar (n / 16 % 16)) (Nat.digitChar (n % 16)) = n := by
    unfold unitValue
    repeat rw [hexValue_digitChar (Nat.mod_lt _ (by omega))]
    omega
  simp only [hex4, List.cons_append, List.nil_append, readChar, hv, if_neg hs]

theorem readChar_surrogates {hi lo : Nat} (hh : hi < 1024) (hl : lo < 1024) (rest : List Char) :
    readChar ('\\' :: 'u' ::
        (hex4 (0xd800 + hi) ++ ('\\' :: 'u' :: (hex4 (0xdc00 + lo) ++ rest)))) =
      some (Char.ofNat (0x10000 + hi * 1024 + lo), rest) := by
  have hv : ∀ n, n < 0x10000 → unitValue (Nat.digitChar (n / 4096 % 16))
      (Nat.digitChar (n / 256 % 16)) (Nat.digitChar (n / 16 % 16))
      (Nat.digitChar (n % 16)) = n := by
    intro n hn
    unfold unitValue
    repeat rw [hexValue_digitChar (Nat.mod_lt _ (by omega))]
    omega
  simp only [hex4, List.cons_append, List.nil_append, readChar,
    hv _ (show 0xd800 + hi < 0x10000 by omega), hv _ (show 0xdc00 + lo < 0x10000 by omega)]
  rw [if_pos (by omega), Nat.add_sub_cancel_left, Nat.add_sub_cancel_left]

theorem readChar_escapeChar (c : Char) (rest : List Char) :
    readChar (escapeChar c ++ rest) = some (c, rest) := by
  unfold escapeChar
  split_ifs with h1 h2 h3 h4 h5 h6 h7 h8 h9
  · subst c; rfl
  · subst c; rfl
  · subst c; rfl
  · subst c; rfl
  · subst c; rfl
  · subst c; rfl
  · subst c; rfl
  · simp [readChar, h2]
  · have hv := c.valid
    have hs : ¬ (0xd800 ≤ c.toNat ∧ c.toNat < 0xdc00) := by
      rcases hv with hv | hv <;> simp only [Char.toNat] <;> omega
    simpa using readChar_hex4 h9 hs rest
  · have hlt : c.toNat < 0x110000 := by
      rcases c.valid with hv | hv <;> simp only [Char.toNat] <;> omega
    simp only [List.cons_append, List.append_assoc]
    rw [readChar_surrogates (by omega) (by omega)]
    rw [show 0x10000 + (c.toNat - 0x10000) / 1024 * 1024 + (c.toNat - 0x10000) % 1024 = c.toNat by
      omega, Char.ofNat_toNat]

theorem readChar_closing (rest : List Char) : readChar ('"' :: rest) = none := rfl

theorem escaped_cancel {cs ds s t : List Char}
    (h : cs.flatMap escapeChar ++ '"' :: s = ds.flatMap escapeChar ++ '"' :: t) :
    cs = ds ∧ s = t := by
  induction cs generalizing ds with
  | nil =>
    cases ds with
    | nil => simpa using h
    | cons d ds =>
      have hr := congrArg readChar h
      simp [List.append_assoc, readChar_escapeChar, readChar_closing] at hr
  | cons c cs ih =>
    cases ds with
    | nil =>
      have hr := congrArg readChar h
      simp [List.append_assoc, readChar_escapeChar, readChar_closing] at hr
    | cons d ds =>
      have hr := congrArg readChar h
      simp only [List.flatMap_cons, List.append_assoc, readChar_escapeChar, Option.some.injEq,
        Prod.mk.injEq] at hr
      obtain ⟨rfl, hrest⟩ := hr
      obtain ⟨rfl, hst⟩ := ih hrest
      exact ⟨rfl, hst⟩

theorem quote_cancel {a b : String} {s t : List Char} (h : quote a ++ s = quote b ++ t) :
    a = b ∧ s = t := by
  simp only [quote, List.cons_append, List.append_assoc, List.nil_append, List.cons.injEq,
    true_and] at h
  obtain ⟨hab, hst⟩ := escaped_cancel h
  exact ⟨String.toList_inj.mp hab, hst⟩

/-- A rest that cannot continue a number. -/
def NumberEnd (s : List Char) : Prop := ∀ c ∈ s.head?, c ∉ numberChars

theorem number_cancel {a b s t : List Char} (ha : ∀ c ∈ a, c ∈ numberChars)
    (hb : ∀ c ∈ b, c ∈ numberChars) (hs : NumberEnd s) (ht : NumberEnd t)
    (h : a ++ s = b ++ t) : a = b ∧ s = t := by
  induction a generalizing b with
  | nil =>
    cases b with
    | nil => exact ⟨rfl, h⟩
    | cons d b =>
      rw [List.nil_append] at h
      subst h
      exact (hs d rfl (hb d (List.mem_cons_self))).elim
  | cons c a ih =>
    cases b with
    | nil =>
      rw [List.nil_append] at h
      subst h
      exact (ht c rfl (ha c (List.mem_cons_self))).elim
    | cons d b =>
      simp only [List.cons_append, List.cons.injEq] at h
      obtain ⟨rfl, hst⟩ := ih (fun x hx => ha x (List.mem_cons_of_mem _ hx))
        (fun x hx => hb x (List.mem_cons_of_mem _ hx)) h.2
      exact ⟨by rw [h.1], hst⟩

theorem numberEnd_cons {c : Char} {s : List Char} (h : c ∉ numberChars) : NumberEnd (c :: s) := by
  intro d hd
  obtain rfl : c = d := by simpa using hd
  exact h

theorem numberEnd_renderItems (xs : List Json) (s : List Char) :
    NumberEnd (renderItems xs ++ s) := by
  cases xs <;> exact numberEnd_cons (by decide)

theorem numberEnd_renderMembers (kvs : List (String × Json)) (s : List Char) :
    NumberEnd (renderMembers kvs ++ s) := by
  rcases kvs with _ | ⟨⟨k, v⟩, kvs⟩ <;> exact numberEnd_cons (by decide)

/-- The first character tells the kind of a value. -/
def startChar : Json → Char
  | .null => 'n'
  | .bool true => 't'
  | .bool false => 'f'
  | .num n => n.text.headD '0'
  | .str _ => '"'
  | .arr _ => '['
  | .obj _ => '{'

theorem render_eq_cons (j : Json) : ∃ cs, render j = startChar j :: cs := by
  match j with
  | .null | .bool true | .bool false | .str _ | .arr [] | .arr (_ :: _) | .obj [] =>
    exact ⟨_, by simp only [render, quote, startChar]; rfl⟩
  | .obj ((_, _) :: _) => exact ⟨_, by simp only [render, startChar]; rfl⟩
  | .num n =>
    obtain ⟨c, cs, hn⟩ := List.exists_cons_of_ne_nil n.nonempty
    exact ⟨cs, by simp [render, startChar, hn]⟩

theorem startChar_num (n : JsonNumber) : startChar (.num n) ∈ numberChars := by
  obtain ⟨c, cs, hn⟩ := List.exists_cons_of_ne_nil n.nonempty
  simpa [startChar, hn] using n.digits c (by simp [hn])

theorem startChar_ne_bracket (j : Json) : startChar j ≠ ']' := by
  cases j with
  | num n =>
    intro h
    have hn := startChar_num n
    rw [h] at hn
    revert hn
    decide
  | bool b => cases b <;> decide
  | null | str _ | arr _ | obj _ => simp [startChar]

theorem startChar_eq {j k : Json} {s t : List Char} (h : render j ++ s = render k ++ t) :
    startChar j = startChar k := by
  obtain ⟨cs, hj⟩ := render_eq_cons j
  obtain ⟨ds, hk⟩ := render_eq_cons k
  rw [hj, hk] at h
  exact (List.cons.inj h).1

/-- A number shares its first character with numbers only. -/
theorem eq_num_of_startChar {n : JsonNumber} {k : Json}
    (h : startChar (.num n) = startChar k) : ∃ m, k = .num m := by
  have hn := startChar_num n
  rw [h] at hn
  cases k with
  | num m => exact ⟨m, rfl⟩
  | bool b => cases b <;> exact absurd hn (by decide)
  | null | str _ | arr _ | obj _ => exact absurd hn (by simp only [startChar]; decide)

mutual

theorem render_cancel : ∀ {j k : Json} {s t : List Char}, NumberEnd s → NumberEnd t →
    render j ++ s = render k ++ t → j = k ∧ s = t
  | .num n, k, s, t, hs, ht, h => by
    obtain ⟨m, rfl⟩ := eq_num_of_startChar (startChar_eq h)
    obtain ⟨hnm, hst⟩ := number_cancel n.digits m.digits hs ht h
    exact ⟨by cases n; cases m; simp_all, hst⟩
  | .null, k, s, t, hs, ht, h => by
    have hc := startChar_eq h
    cases k with
    | null => simpa [render] using h
    | bool b => cases b <;> simp [startChar] at hc
    | num m => exact (eq_num_of_startChar hc.symm).elim (fun _ hm => nomatch hm)
    | str _ | arr _ | obj _ => simp [startChar] at hc
  | .bool b, k, s, t, hs, ht, h => by
    have hc := startChar_eq h
    cases k with
    | bool c => cases b <;> cases c <;> simp_all [render, startChar]
    | num m => exact (eq_num_of_startChar hc.symm).elim (fun _ hm => nomatch hm)
    | null | str _ | arr _ | obj _ => cases b <;> simp [startChar] at hc
  | .str a, k, s, t, hs, ht, h => by
    have hc := startChar_eq h
    cases k with
    | str b =>
      obtain ⟨rfl, hst⟩ := quote_cancel (by simpa only [render] using h)
      exact ⟨rfl, hst⟩
    | num m => exact (eq_num_of_startChar hc.symm).elim (fun _ hm => nomatch hm)
    | bool b => cases b <;> simp [startChar] at hc
    | null | arr _ | obj _ => simp [startChar] at hc
  | .arr xs, k, s, t, hs, ht, h => by
    have hc := startChar_eq h
    cases k with
    | arr ys =>
      match xs, ys with
      | [], [] => simpa [render] using h
      | [], y :: ys =>
        obtain ⟨cs, hy⟩ := render_eq_cons y
        simp [render, hy, (startChar_ne_bracket y).symm] at h
      | x :: xs, [] =>
        obtain ⟨cs, hx⟩ := render_eq_cons x
        simp [render, hx, startChar_ne_bracket x] at h
      | x :: xs, y :: ys =>
        simp only [render, List.cons_append, List.append_assoc, List.cons.injEq, true_and] at h
        obtain ⟨rfl, hrest⟩ := render_cancel (numberEnd_renderItems xs s)
          (numberEnd_renderItems ys t) h
        obtain ⟨rfl, hst⟩ := renderItems_cancel hrest
        exact ⟨rfl, hst⟩
    | num m => exact (eq_num_of_startChar hc.symm).elim (fun _ hm => nomatch hm)
    | bool b => cases b <;> simp [startChar] at hc
    | null | str _ | obj _ => simp [startChar] at hc
  | .obj kvs, k, s, t, hs, ht, h => by
    have hc := startChar_eq h
    cases k with
    | obj kws =>
      match kvs, kws with
      | [], [] => simpa [render] using h
      | [], (_, _) :: _ => simp [render, quote] at h
      | (_, _) :: _, [] => simp [render, quote] at h
      | (k, v) :: kvs, (l, w) :: kws =>
        simp only [render, List.cons_append, List.append_assoc, List.cons.injEq, true_and] at h
        obtain ⟨rfl, hval⟩ := quote_cancel h
        simp only [List.cons.injEq, true_and] at hval
        obtain ⟨rfl, hrest⟩ := render_cancel (numberEnd_renderMembers kvs s)
          (numberEnd_renderMembers kws t) hval
        obtain ⟨rfl, hst⟩ := renderMembers_cancel hrest
        exact ⟨rfl, hst⟩
    | num m => exact (eq_num_of_startChar hc.symm).elim (fun _ hm => nomatch hm)
    | bool b => cases b <;> simp [startChar] at hc
    | null | str _ | arr _ => simp [startChar] at hc

theorem renderItems_cancel : ∀ {xs ys : List Json} {s t : List Char},
    renderItems xs ++ s = renderItems ys ++ t → xs = ys ∧ s = t
  | [], [], s, t, h => by simpa [renderItems] using h
  | [], _ :: _, s, t, h => by simp [renderItems] at h
  | _ :: _, [], s, t, h => by simp [renderItems] at h
  | x :: xs, y :: ys, s, t, h => by
    simp only [renderItems, List.cons_append, List.append_assoc, List.cons.injEq, true_and] at h
    obtain ⟨rfl, hrest⟩ := render_cancel (numberEnd_renderItems xs s)
      (numberEnd_renderItems ys t) h
    obtain ⟨rfl, hst⟩ := renderItems_cancel hrest
    exact ⟨rfl, hst⟩

theorem renderMembers_cancel : ∀ {kvs kws : List (String × Json)} {s t : List Char},
    renderMembers kvs ++ s = renderMembers kws ++ t → kvs = kws ∧ s = t
  | [], [], s, t, h => by simpa [renderMembers] using h
  | [], (_, _) :: _, s, t, h => by simp [renderMembers] at h
  | (_, _) :: _, [], s, t, h => by simp [renderMembers] at h
  | (k, v) :: kvs, (l, w) :: kws, s, t, h => by
    simp only [renderMembers, List.cons_append, List.append_assoc, List.cons.injEq, true_and] at h
    obtain ⟨rfl, hval⟩ := quote_cancel h
    simp only [List.cons.injEq, true_and] at hval
    obtain ⟨rfl, hrest⟩ := render_cancel (numberEnd_renderMembers kvs s)
      (numberEnd_renderMembers kws t) hval
    obtain ⟨rfl, hst⟩ := renderMembers_cancel hrest
    exact ⟨rfl, hst⟩

end

theorem render_injective : Function.Injective render := by
  intro j k h
  have hn : NumberEnd [] := by simp [NumberEnd]
  exact (render_cancel (s := []) (t := []) hn hn (by simpa using h)).1

/-- Two values have one text exactly when they are equal up to the order of object members. -/
theorem dumps_inj {j k : Json} : dumps j = dumps k ↔ j.sortKeys = k.sortKeys := by
  simp [dumps, String.ofList_inj, render_injective.eq_iff]

theorem sortMembers_of_fixed {kvs : List (String × Json)}
    (h : ∀ kv ∈ kvs, kv.2.sortKeys = kv.2) : sortMembers kvs = kvs := by
  induction kvs with
  | nil => rfl
  | cons kv kvs ih =>
    obtain ⟨k, v⟩ := kv
    rw [sortMembers, ih (fun kv hkv => h kv (List.mem_cons_of_mem _ hkv)),
      show v.sortKeys = v from h (k, v) List.mem_cons_self]

mutual

theorem sortKeys_idem : ∀ j : Json, j.sortKeys.sortKeys = j.sortKeys
  | .null | .bool _ | .num _ | .str _ => by simp only [sortKeys]
  | .arr xs => by simp only [sortKeys, sortItems_idem xs]
  | .obj kvs => by
    have hfix : sortMembers ((sortMembers kvs).insertionSort keyLE) =
        (sortMembers kvs).insertionSort keyLE := by
      apply sortMembers_of_fixed
      intro kv hkv
      exact sortMembers_fixed kvs kv ((List.perm_insertionSort keyLE _).mem_iff.mp hkv)
    simp only [sortKeys, hfix, (List.pairwise_insertionSort keyLE _).insertionSort_eq]

theorem sortItems_idem : ∀ xs : List Json, sortItems (sortItems xs) = sortItems xs
  | [] => rfl
  | x :: xs => by simp only [sortItems, sortKeys_idem x, sortItems_idem xs]

theorem sortMembers_fixed : ∀ kvs : List (String × Json),
    ∀ kv ∈ sortMembers kvs, kv.2.sortKeys = kv.2
  | [], kv, h => by simp [sortMembers] at h
  | (k, v) :: kvs, kv, h => by
    rw [sortMembers, List.mem_cons] at h
    rcases h with rfl | h
    · exact sortKeys_idem v
    · exact sortMembers_fixed kvs kv h

end

theorem membersHaveNul_eq_any (kvs : List (String × Json)) :
    membersHaveNul kvs = kvs.any fun kv => kv.1.toList.contains '\x00' || kv.2.hasNul := by
  induction kvs with
  | nil => rfl
  | cons kv kvs ih => rw [membersHaveNul, ih, List.any_cons]

mutual

theorem hasNul_sortKeys : ∀ j : Json, j.sortKeys.hasNul = j.hasNul
  | .null | .bool _ | .num _ | .str _ => by simp only [sortKeys]
  | .arr xs => by simp only [sortKeys, hasNul, itemsHaveNul_sortItems xs]
  | .obj kvs => by
    have hperm := List.perm_insertionSort keyLE (sortMembers kvs)
    rw [sortKeys, hasNul, hasNul, membersHaveNul_eq_any, hperm.any_eq, ← membersHaveNul_eq_any,
      membersHaveNul_sortMembers kvs]

theorem itemsHaveNul_sortItems : ∀ xs : List Json, itemsHaveNul (sortItems xs) = itemsHaveNul xs
  | [] => rfl
  | x :: xs => by
    simp only [sortItems, itemsHaveNul, hasNul_sortKeys x, itemsHaveNul_sortItems xs]

theorem membersHaveNul_sortMembers : ∀ kvs : List (String × Json),
    membersHaveNul (sortMembers kvs) = membersHaveNul kvs
  | [] => rfl
  | (k, v) :: kvs => by
    simp only [sortMembers, membersHaveNul, hasNul_sortKeys v, membersHaveNul_sortMembers kvs]

end

end Json

/-- A stored JSON value: objects have no order of their own, so it is kept with sorted keys. -/
structure Jsonb where
  value : Json
  sorted : value.sortKeys = value

namespace Jsonb

def ofJson (j : Json) : Jsonb := ⟨j.sortKeys, j.sortKeys_idem⟩

/-- What a `jsonb` column keeps of a value; `none` is an error. -/
def store (j : Json) : Option Jsonb := if j.hasNul then none else some (ofJson j)

@[ext]
theorem ext {a b : Jsonb} (h : a.value = b.value) : a = b := by
  cases a; cases b; simp_all

/-- `json.dumps(value, sort_keys=True)` of a stored value. -/
def dumps (a : Jsonb) : String := a.value.dumps

theorem dumps_injective : Function.Injective dumps := by
  intro a b h
  have hs := Json.dumps_inj.mp h
  rw [a.sorted, b.sorted] at hs
  exact ext hs

/-- Storing a value does not change its text. -/
theorem dumps_ofJson (j : Json) : (ofJson j).dumps = j.dumps := by
  simp only [dumps, ofJson, Json.dumps, Json.sortKeys_idem]

end Jsonb
