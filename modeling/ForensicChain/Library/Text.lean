import Mathlib.Data.List.Basic
import Mathlib.Data.String.Basic

/-! Methods of Python's `str`. -/
namespace Text

/-- The characters that `str.isspace` accepts. -/
def isSpace (c : Char) : Bool :=
  (9 ≤ c.toNat && c.toNat ≤ 13) || (28 ≤ c.toNat && c.toNat ≤ 32) || c.toNat = 0x85 ||
    c.toNat = 0xa0 || c.toNat = 0x1680 || (0x2000 ≤ c.toNat && c.toNat ≤ 0x200a) ||
    c.toNat = 0x2028 || c.toNat = 0x2029 || c.toNat = 0x202f || c.toNat = 0x205f ||
    c.toNat = 0x3000

/-- `s.strip()`. -/
def strip (s : String) : String :=
  String.ofList ((s.toList.dropWhile isSpace).reverse.dropWhile isSpace).reverse

/-- The code points of the decimal zeros; the other nine digits follow each of them. -/
def decimalZeros : List Nat :=
  [0x30, 0x660, 0x6f0, 0x7c0, 0x966, 0x9e6, 0xa66, 0xae6, 0xb66, 0xbe6, 0xc66, 0xce6, 0xd66,
    0xde6, 0xe50, 0xed0, 0xf20, 0x1040, 0x1090, 0x17e0, 0x1810, 0x1946, 0x19d0, 0x1a80, 0x1a90,
    0x1b50, 0x1bb0, 0x1c40, 0x1c50, 0xa620, 0xa8d0, 0xa900, 0xa9d0, 0xa9f0, 0xaa50, 0xabf0,
    0xff10, 0x104a0, 0x10d30, 0x11066, 0x110f0, 0x11136, 0x111d0, 0x112f0, 0x11450, 0x114d0,
    0x11650, 0x116c0, 0x11730, 0x118e0, 0x11950, 0x11c50, 0x11d50, 0x11da0, 0x11f50, 0x16a60,
    0x16ac0, 0x16b50, 0x1d7ce, 0x1d7d8, 0x1d7e2, 0x1d7ec, 0x1d7f6, 0x1e140, 0x1e2f0, 0x1e4f0,
    0x1e950, 0x1fbf0]

/-- The characters that `\d` matches: the decimal digits of every script. -/
def isDecimal (c : Char) : Bool :=
  decimalZeros.any fun base => base ≤ c.toNat && c.toNat < base + 10

/-- `s.replace(c, by)` for a single character `c`. -/
def replaceChar (c : Char) (by_ s : String) : String :=
  String.ofList (s.toList.flatMap fun d => if d = c then by_.toList else [d])

/-- `s.startswith(pre)`. -/
def startsWith (pre s : String) : Bool := pre.toList.isPrefixOf s.toList

/-- `s.removeprefix(pre)`. -/
def removePrefix (pre s : String) : String :=
  if startsWith pre s then String.ofList (s.toList.drop pre.length) else s

/-- `s.upper()`; letters outside ASCII stay as they are. -/
def upper (s : String) : String := String.ofList (s.toList.map Char.toUpper)

theorem startsWith_append (pre s : String) : startsWith pre (pre ++ s) = true := by
  simp [startsWith]

theorem startsWith_iff {pre s : String} : startsWith pre s = true ↔ ∃ rest, s = pre ++ rest := by
  constructor
  · intro h
    obtain ⟨cs, hcs⟩ := List.isPrefixOf_iff_prefix.mp h
    exact ⟨String.ofList cs, by rw [← String.toList_inj, String.toList_append,
      String.toList_ofList, hcs]⟩
  · rintro ⟨rest, rfl⟩
    exact startsWith_append pre rest

theorem removePrefix_append (pre s : String) : removePrefix pre (pre ++ s) = s := by
  rw [removePrefix, startsWith_append, if_pos rfl, String.toList_append, ← String.length_toList,
    List.drop_left, String.ofList_toList]

theorem removePrefix_cases (pre s : String) :
    s = pre ++ removePrefix pre s ∨ s = removePrefix pre s := by
  by_cases h : startsWith pre s = true
  · obtain ⟨rest, rfl⟩ := startsWith_iff.mp h
    exact .inl (by rw [removePrefix_append])
  · exact .inr (by rw [removePrefix, if_neg h])

/-- What stands before the first separator, and what stands after it, can be told from a text. -/
theorem append_cons_inj {c : Char} {x y r s : List Char} (hx : c ∉ x) (hy : c ∉ y)
    (h : x ++ c :: r = y ++ c :: s) : x = y ∧ r = s := by
  induction x generalizing y with
  | nil =>
    cases y with
    | nil => exact ⟨rfl, (List.cons.inj h).2⟩
    | cons d y => exact (hy ((List.cons.inj h).1 ▸ List.mem_cons_self)).elim
  | cons d x ih =>
    cases y with
    | nil => exact (hx ((List.cons.inj h).1 ▸ List.mem_cons_self)).elim
    | cons e y =>
      obtain ⟨rfl, htail⟩ := List.cons.inj h
      obtain ⟨rfl, hr⟩ := ih (fun hc => hx (List.mem_cons_of_mem d hc))
        (fun hc => hy (List.mem_cons_of_mem d hc)) htail
      exact ⟨rfl, hr⟩

/-- The code points of the characters that `str.isspace` accepts. -/
def spaceCodes : List Nat :=
  [9, 10, 11, 12, 13, 28, 29, 30, 31, 32, 0x85, 0xa0, 0x1680, 0x2000, 0x2001, 0x2002, 0x2003,
    0x2004, 0x2005, 0x2006, 0x2007, 0x2008, 0x2009, 0x200a, 0x2028, 0x2029, 0x202f, 0x205f, 0x3000]

theorem mem_spaceCodes {c : Char} (h : isSpace c = true) : c.toNat ∈ spaceCodes := by
  simp only [isSpace, Bool.or_eq_true, Bool.and_eq_true, decide_eq_true_eq] at h
  simp only [spaceCodes, List.mem_cons, List.not_mem_nil, or_false]
  omega

/-- A decimal digit is no space. -/
theorem isSpace_of_isDecimal {c : Char} (h : isDecimal c = true) : isSpace c = false := by
  have hapart : ∀ base ∈ decimalZeros, ∀ n ∈ spaceCodes, ¬ (base ≤ n ∧ n < base + 10) := by decide
  rw [← Bool.not_eq_true]
  intro hspace
  obtain ⟨base, hbase, hc⟩ := List.any_eq_true.mp h
  exact hapart base hbase _ (mem_spaceCodes hspace) (by simpa using hc)

/-- A text with no space at either end is stripped of nothing. -/
theorem strip_eq_self {s : String} {first last : Char} {cs ds : List Char}
    (hfirst : s.toList = first :: cs) (hlast : s.toList = ds ++ [last])
    (hf : isSpace first = false) (hl : isSpace last = false) : strip s = s := by
  have hfront : s.toList.dropWhile isSpace = s.toList := by
    rw [hfirst, List.dropWhile_cons_of_neg (by simp [hf])]
  have hback : s.toList.reverse.dropWhile isSpace = s.toList.reverse := by
    rw [hlast, List.reverse_concat, List.dropWhile_cons_of_neg (by simp [hl])]
  rw [strip, hfront, hback, List.reverse_reverse, String.ofList_toList]

/-- A space at the end goes. -/
theorem strip_push {s : String} {c : Char} (hne : s.toList ≠ []) (hf : ∀ d ∈ s.toList.head?,
    isSpace d = false) (hc : isSpace c = true) : strip (s.push c) = strip s := by
  cases hs : s.toList with
  | nil => exact (hne hs).elim
  | cons d ds =>
    have hd : isSpace d = false := hf d (by simp [hs])
    have hpush : (s.push c).toList = d :: (ds ++ [c]) := by rw [String.toList_push, hs]; rfl
    rw [strip, strip, hpush, hs, List.dropWhile_cons_of_neg (by simp [hd]),
      List.dropWhile_cons_of_neg (by simp [hd]), ← List.cons_append, List.reverse_concat,
      List.dropWhile_cons_of_pos hc]

end Text
