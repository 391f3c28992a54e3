import ForensicChain.Library.Uuid

/-!
What PostgreSQL keeps of a text. A value longer than its `varchar` column is refused, unless
everything past the limit is spaces: then it is cut to the limit without an error. A `uuid` column
reads its own spellings.
-/
namespace Postgres

/-- The stored value of a `text` column; `none` is an error. -/
def text (s : String) : Option String :=
  if '\x00' ∈ s.toList then none else some s

/-- The stored value of a `varchar(n)` column; `none` is an error. -/
def varchar (n : Nat) (s : String) : Option String :=
  if '\x00' ∈ s.toList then none
  else if s.length ≤ n then some s
  else if (s.toList.drop n).all (· = ' ') then some (String.ofList (s.toList.take n))
  else none

/-- A nullable column keeps NULL. -/
def nullable (store : String → Option String) : Option String → Option (Option String)
  | none => some none
  | some s => (store s).map some

/-- A `varchar(n)` column keeps the value as it is given, if it takes it at all. -/
def Verbatim (n : Nat) (s : String) : Prop := ∀ t, varchar n s = some t → t = s

instance (n : Nat) (s : String) : Decidable (Verbatim n s) :=
  match h : varchar n s with
  | none => isTrue (by simp [Verbatim, h])
  | some t => decidable_of_iff (t = s) (by simp [Verbatim, h])

/-- A hyphen may stand after every second byte, but not at the end. -/
def skipHyphen (left : Nat) : List Char → List Char
  | '-' :: cs => if left % 2 = 0 ∧ 0 < left then cs else '-' :: cs
  | cs => cs

/-- So many bytes of two digits each, and what follows them. -/
def readBytes (acc : Nat) : Nat → List Char → Option (Nat × List Char)
  | 0, cs => some (acc, cs)
  | left + 1, a :: b :: cs => do
    let x ← Uuid.hexVal a
    let y ← Uuid.hexVal b
    readBytes ((acc * 16 + x) * 16 + y) left (skipHyphen left cs)
  | _ + 1, _ => none

/-- The value of a text in a `uuid` column; `none` is an error. Braces around it may stay. -/
def uuid (s : String) : Option Uuid :=
  let (digits, ending) : List Char × List Char :=
    match s.toList with
    | '{' :: cs => (cs, ['}'])
    | cs => (cs, [])
  (readBytes 0 16 digits).bind fun (n, rest) =>
    if h : n < 2 ^ 128 ∧ rest = ending then some ⟨n, h.1⟩ else none

example : (uuid "{0000000000000000-0000000000000001}").isSome := by decide

example : uuid "00-000000000000000000000000000001" = none := by decide

variable {n : Nat} {s t : String}

theorem varchar_eq_self (hn : '\x00' ∉ s.toList) (hs : s.length ≤ n) : varchar n s = some s := by
  rw [varchar, if_neg hn, if_pos hs]

theorem notMem_of_varchar (h : varchar n s = some t) : '\x00' ∉ s.toList := by
  unfold varchar at h
  split_ifs at h <;> assumption

theorem notMem_of_text (h : text s = some t) : '\x00' ∉ s.toList := by
  unfold text at h
  split_ifs at h
  assumption

theorem eq_of_text (h : text s = some t) : t = s := by
  unfold text at h
  split_ifs at h
  exact (Option.some.inj h).symm

theorem verbatim_of_length_le (h : s.length ≤ n) : Verbatim n s := by
  intro t ht
  unfold varchar at ht
  split_ifs at ht with h0
  exact (Option.some.inj ht).symm

theorem eq_of_varchar (hs : s.length ≤ n) (h : varchar n s = some t) : t = s :=
  verbatim_of_length_le hs t h

/-- A value that does not fill its column was not cut. -/
theorem eq_of_varchar_lt (ht : t.length < n) (h : varchar n s = some t) : t = s := by
  unfold varchar at h
  split_ifs at h with h0 h1 h2
  · exact (Option.some.inj h).symm
  · rw [← Option.some.inj h, String.length_ofList, List.length_take, String.length_toList] at ht
    omega

/-- What a column keeps, it keeps again as it is. -/
theorem varchar_stored (h : varchar n s = some t) : varchar n t = some t := by
  have hnul := notMem_of_varchar h
  unfold varchar at h
  split_ifs at h with hlen
  · obtain rfl := Option.some.inj h
    exact varchar_eq_self hnul hlen
  · rw [← Option.some.inj h]
    apply varchar_eq_self
    · rw [String.toList_ofList]
      exact fun hc => hnul (List.mem_of_mem_take hc)
    · simp [String.length_ofList, List.length_take]

theorem eq_of_nullable_some {store : String → Option String} {b : Option String}
    (h : nullable store (some s) = some b) : b = store s := by
  obtain ⟨t, ht, rfl⟩ := Option.map_eq_some_iff.mp h
  exact ht.symm

theorem eq_of_nullable {store : String → Option String} {a b : Option String}
    (hs : ∀ s ∈ a, ∀ t, store s = some t → t = s) (h : nullable store a = some b) : b = a := by
  cases a with
  | none => exact (Option.some.inj h).symm
  | some s =>
    obtain ⟨t, ht, rfl⟩ := Option.map_eq_some_iff.mp h
    rw [hs s rfl t ht]

/-- What is skipped are hyphens. -/
theorem skipHyphen_eq (left : Nat) (cs : List Char) :
    ∃ hyphens, cs = hyphens ++ skipHyphen left cs ∧ ∀ c ∈ hyphens, c = '-' := by
  by_cases hcs : ∃ rest, cs = '-' :: rest
  · obtain ⟨rest, rfl⟩ := hcs
    by_cases hleft : left % 2 = 0 ∧ 0 < left
    · exact ⟨['-'], by simp [skipHyphen, hleft], by simp⟩
    · exact ⟨[], by simp [skipHyphen, hleft], by simp⟩
  · refine ⟨[], ?_, by simp⟩
    rw [List.nil_append, skipHyphen.eq_2]
    rintro rest rfl
    exact hcs ⟨rest, rfl⟩

theorem readBytes_eq_some {acc left n : Nat} {cs rest : List Char}
    (h : readBytes acc left cs = some (n, rest)) :
    ∃ ds, cs = ds ++ rest ∧ (∀ c ∈ ds, c = '-' ∨ (Uuid.hexVal c).isSome) ∧
      (ds.filter (· ≠ '-')).length = 2 * left ∧
      Uuid.readHex acc (ds.filter (· ≠ '-')) = some n := by
  induction left generalizing acc cs with
  | zero =>
    obtain ⟨rfl, rfl⟩ := Prod.mk.inj (Option.some.inj h)
    exact ⟨[], rfl, by simp, rfl, rfl⟩
  | succ left ih =>
    match cs, h with
    | a :: b :: cs, h =>
      simp only [readBytes, bind, Option.bind_eq_some_iff] at h
      obtain ⟨x, hx, y, hy, h⟩ := h
      obtain ⟨hyphens, hcs, hall⟩ := skipHyphen_eq left cs
      obtain ⟨ds, hds, hchars, hlen, hread⟩ := ih h
      have hne : ∀ c z, Uuid.hexVal c = some z → c ≠ '-' := by
        rintro c z hc rfl
        cases hc
      have hnone : hyphens.filter (· ≠ '-') = [] := by
        rw [List.filter_eq_nil_iff]
        intro c hc
        simp [hall c hc]
      have hfilter : (a :: b :: (hyphens ++ ds)).filter (· ≠ '-') =
          a :: b :: ds.filter (· ≠ '-') := by
        rw [List.filter_cons_of_pos (by simp [hne a x hx]),
          List.filter_cons_of_pos (by simp [hne b y hy]), List.filter_append, hnone,
          List.nil_append]
      refine ⟨a :: b :: (hyphens ++ ds), ?_, ?_, ?_, ?_⟩
      · rw [hcs, hds]
        simp
      · intro c hc
        rcases List.mem_cons.mp hc with rfl | hc
        · exact .inr (by simp [hx])
        · rcases List.mem_cons.mp hc with rfl | hc
          · exact .inr (by simp [hy])
          · exact (List.mem_append.mp hc).elim (fun hc => .inl (hall c hc)) (hchars c)
      · rw [hfilter, List.length_cons, List.length_cons, hlen]
        omega
      · rw [hfilter, Uuid.readHex, hx, Option.bind_some, Uuid.readHex, hy, Option.bind_some, hread]

/-- What a `uuid` column takes consists of digits and hyphens, in braces or not, and `uuid.UUID`
reads the same from it. -/
theorem uuid_eq_some {u : Uuid} (h : uuid s = some u) :
    (∀ c ∈ s.toList, c ∈ ['-', '{', '}'] ∨ (Uuid.hexVal c).isSome) ∧ Uuid.parse s = some u := by
  have hread : ∀ cs ending, (readBytes 0 16 cs).bind (fun (n, rest) =>
      if h : n < 2 ^ 128 ∧ rest = ending then some (⟨n, h.1⟩ : Uuid) else none) = some u →
      ∃ ds, cs = ds ++ ending ∧ (∀ c ∈ ds, c = '-' ∨ (Uuid.hexVal c).isSome) ∧
        (ds.filter (· ≠ '-')).length = 32 ∧
        Uuid.readHex 0 (ds.filter (· ≠ '-')) = some u.value := by
    intro cs ending h
    obtain ⟨⟨n, rest⟩, hbytes, hif⟩ := Option.bind_eq_some_iff.mp h
    dsimp only at hif
    split_ifs at hif with hn
    obtain rfl := Option.some.inj hif
    obtain ⟨ds, hcs, hchars, hlen, hval⟩ := readBytes_eq_some hbytes
    exact ⟨ds, hn.2 ▸ hcs, hchars, hlen, hval⟩
  have hplain : ∀ ds : List Char, (∀ c ∈ ds, c = '-' ∨ (Uuid.hexVal c).isSome) →
      ∀ c ∈ ds, c ∈ ['-', '{', '}'] ∨ (Uuid.hexVal c).isSome := by
    intro ds hds c hc
    exact (hds c hc).imp_left fun he => by simp [he]
  unfold uuid at h
  split at h
  rename_i digits ending hmatch
  split at hmatch
  · rename_i cs hs
    obtain ⟨rfl, rfl⟩ := Prod.mk.inj hmatch
    obtain ⟨ds, rfl, hchars, hlen, hval⟩ := hread _ _ h
    refine ⟨?_, Uuid.parse_of_digits (.inr (by simpa using hs)) hchars hlen hval u.lt⟩
    rw [hs]
    intro c hc
    simp only [List.mem_cons, List.mem_append, List.not_mem_nil, or_false] at hc
    rcases hc with rfl | hc | rfl
    · exact .inl (by simp)
    · exact hplain ds hchars c hc
    · exact .inl (by simp)
  · rename_i cs hs
    obtain ⟨rfl, rfl⟩ := Prod.mk.inj hmatch
    obtain ⟨ds, hcs, hchars, hlen, hval⟩ := hread _ _ h
    rw [List.append_nil] at hcs
    refine ⟨?_, Uuid.parse_of_digits (.inl hcs) hchars hlen hval u.lt⟩
    rw [hcs]
    exact hplain ds hchars

end Postgres
