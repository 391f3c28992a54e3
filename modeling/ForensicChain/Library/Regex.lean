import Mathlib.Data.List.Basic
import Mathlib.Data.String.Basic

/-!
Regular expressions of the kind that URL rules are written in: characters, optional characters,
runs of characters other than a given one, and the end of the text.
-/
namespace Regex

inductive Item
  | char (c : Char)
  | opt (c : Char)
  | someNot (c : Char)
  | finish
  deriving DecidableEq

/-- The items of a pattern without its `^`. -/
def items : List Char → List Item
  | [] => []
  | '[' :: '^' :: c :: ']' :: '+' :: cs => .someNot c :: items cs
  | c :: '?' :: cs => .opt c :: items cs
  | ['$'] => [.finish]
  | c :: cs => .char c :: items cs

/-- `re.match` starts at the beginning, so that a leading `^` adds nothing. -/
def parse (pattern : String) : List Item :=
  match pattern.toList with
  | '^' :: cs => items cs
  | cs => items cs

/-- One or more characters other than `c`, and then what `k` accepts. -/
def runSomeNot (c : Char) (k : List Char → Bool) : List Char → Bool
  | [] => false
  | d :: ds => d ≠ c && (k ds || runSomeNot c k ds)

/-- `$` also stands before a newline at the end. -/
def run : List Item → List Char → Bool
  | [], _ => true
  | .char _ :: _, [] => false
  | .char c :: is, d :: ds => d = c && run is ds
  | .opt _ :: is, [] => run is []
  | .opt c :: is, d :: ds => run is (d :: ds) || (d = c && run is ds)
  | .someNot c :: is, ds => runSomeNot c (run is) ds
  | .finish :: is, ds => (ds = [] || ds = ['\n']) && run is ds

/-- `re.match(pattern, s) is not None`. -/
def isMatch (pattern : String) (s : List Char) : Bool := run (parse pattern) s

variable {c : Char} {cs s : List Char} {is : List Item} {pattern : String}

theorem run_chars :
    run (cs.map .char ++ is) s = true ↔ ∃ rest, s = cs ++ rest ∧ run is rest = true := by
  induction cs generalizing s with
  | nil => simp
  | cons d cs ih =>
    cases s with
    | nil => simp [run]
    | cons e s =>
      simp only [List.map_cons, List.cons_append, run, Bool.and_eq_true, decide_eq_true_eq, ih,
        List.cons.injEq]
      constructor
      · rintro ⟨rfl, rest, rfl, hrest⟩
        exact ⟨rest, ⟨rfl, rfl⟩, hrest⟩
      · rintro ⟨rest, ⟨rfl, rfl⟩, hrest⟩
        exact ⟨rfl, rest, rfl, hrest⟩

theorem run_someNot : run (.someNot c :: is) s = true ↔
    ∃ x rest, s = x ++ rest ∧ x ≠ [] ∧ c ∉ x ∧ run is rest = true := by
  rw [run]
  induction s with
  | nil => simp [runSomeNot]
  | cons d s ih =>
    simp only [runSomeNot, Bool.and_eq_true, Bool.or_eq_true, decide_eq_true_eq, ih]
    constructor
    · rintro ⟨hd, hrun | ⟨x, rest, rfl, _, hx, hrest⟩⟩
      · exact ⟨[d], s, rfl, by simp, by simp [Ne.symm hd], hrun⟩
      · exact ⟨d :: x, rest, rfl, by simp, by simp [Ne.symm hd, hx], hrest⟩
    · rintro ⟨x, rest, hs, hne, hx, hrest⟩
      cases x with
      | nil => exact (hne rfl).elim
      | cons e x =>
        obtain ⟨rfl, rfl⟩ := List.cons.inj hs
        rw [List.mem_cons, not_or] at hx
        refine ⟨Ne.symm hx.1, ?_⟩
        by_cases hxe : x = []
        · exact .inl (by simpa [hxe] using hrest)
        · exact .inr ⟨x, rest, rfl, hxe, hx.2, hrest⟩

theorem run_opt : run (.opt c :: is) s = true ↔
    run is s = true ∨ ∃ rest, s = c :: rest ∧ run is rest = true := by
  cases s with
  | nil => simp [run]
  | cons d s =>
    simp only [run, Bool.or_eq_true, Bool.and_eq_true, decide_eq_true_eq, List.cons.injEq]
    constructor
    · rintro (h | ⟨rfl, h⟩)
      · exact .inl h
      · exact .inr ⟨s, ⟨rfl, rfl⟩, h⟩
    · rintro (h | ⟨rest, ⟨rfl, rfl⟩, h⟩)
      · exact .inl h
      · exact .inr ⟨rfl, h⟩

theorem run_finish : run [.finish] s = true ↔ s = [] ∨ s = ['\n'] := by
  simp [run]

theorem run_opt_finish :
    run [.opt c, .finish] s = true ↔ s ∈ [[], ['\n'], [c], [c, '\n']] := by
  rw [run_opt, run_finish]
  constructor
  · rintro ((rfl | rfl) | ⟨rest, rfl, h⟩)
    · simp
    · simp
    · rcases run_finish.mp h with rfl | rfl <;> simp
  · intro h
    simp only [List.mem_cons, List.not_mem_nil, or_false] at h
    rcases h with rfl | rfl | rfl | rfl <;> simp [run]

/-- The plain characters that a pattern starts with. -/
def front : List Item → List Char
  | .char c :: is => c :: front is
  | _ => []

theorem front_prefix (h : run is s = true) : front is <+: s := by
  induction is generalizing s with
  | nil => exact List.nil_prefix
  | cons i is ih =>
    cases i with
    | char c =>
      cases s with
      | nil => cases h
      | cons d s =>
        simp only [run, Bool.and_eq_true, decide_eq_true_eq] at h
        obtain ⟨rfl, h⟩ := h
        exact List.cons_prefix_cons.mpr ⟨rfl, ih h⟩
    | opt c => exact List.nil_prefix
    | someNot c => exact List.nil_prefix
    | finish => exact List.nil_prefix

/-- A pattern of plain characters accepts what starts with them. -/
theorem isMatch_chars (h : parse pattern = cs.map .char) : isMatch pattern s = true ↔ cs <+: s := by
  rw [isMatch, h, ← List.append_nil (cs.map _), run_chars]
  simp [run, List.prefix_iff_exists_eq_append]

end Regex
