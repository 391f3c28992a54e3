import ForensicChain.Library.Postgres
import ForensicChain.Library.Text

/-!
The case numbers that `create_case` accepts, and what `strip` does to them. The `$` of the pattern
also stands before a newline at the end.
-/
namespace ForensicChain.Auth

/-- `re.match(r"^CASE-\d{4}-\d{3}$", s)`. -/
def matchesCaseNumber (s : String) : Bool :=
  match s.toList with
  | 'C' :: 'A' :: 'S' :: 'E' :: '-' :: a :: b :: c :: d :: '-' :: x :: y :: z :: rest =>
    [a, b, c, d, x, y, z].all Text.isDecimal && (rest = [] || rest = ['\n'])
  | _ => false

example : matchesCaseNumber "CASE-2025-001" = true := by decide

example : matchesCaseNumber "CASE-2025-001\n" = true := by decide

variable {s : String}

/-- An accepted number begins with a letter and its last digit ends it, but for a newline. -/
theorem matchesCaseNumber_shape (h : matchesCaseNumber s = true) :
    ∃ cs z rest, s.toList = 'C' :: cs ++ z :: rest ∧ cs.length = 11 ∧
      Text.isDecimal z = true ∧ (rest = [] ∨ rest = ['\n']) ∧ '\x00' ∉ cs ∧ '\n' ∉ cs := by
  unfold matchesCaseNumber at h
  split at h
  · rename_i a b c d x y z rest hs
    simp only [List.all_cons, List.all_nil, Bool.and_true, Bool.and_eq_true, Bool.or_eq_true,
      decide_eq_true_eq] at h
    obtain ⟨⟨ha, hb, hc, hd, hx, hy, hz⟩, hrest⟩ := h
    have hno : ∀ e, Text.isDecimal e = false → e ∉ ['A', 'S', 'E', '-'] →
        e ∉ ['A', 'S', 'E', '-', a, b, c, d, '-', x, y] := by
      intro e he hmem
      simp only [List.mem_cons, List.not_mem_nil, or_false, not_or] at hmem ⊢
      refine ⟨hmem.1, hmem.2.1, hmem.2.2.1, hmem.2.2.2, ?_, ?_, ?_, ?_, hmem.2.2.2, ?_, ?_⟩ <;>
        · rintro rfl
          simp_all
    exact ⟨['A', 'S', 'E', '-', a, b, c, d, '-', x, y], z, rest, by rw [hs]; rfl, rfl, hz, hrest,
      hno _ (by decide) (by decide), hno _ (by decide) (by decide)⟩
  · cases h

theorem length_caseNumber (h : matchesCaseNumber s = true) : s.length ≤ 14 := by
  obtain ⟨cs, z, rest, hs, hcs, _, hrest, _⟩ := matchesCaseNumber_shape h
  rw [← String.length_toList, hs]
  rcases hrest with rfl | rfl <;> simp [hcs]

/-- A column of 64 characters keeps an accepted number as it is given. -/
theorem verbatim_caseNumber (h : matchesCaseNumber s = true) : Postgres.Verbatim 64 s := by
  have hlen := length_caseNumber h
  exact Postgres.verbatim_of_length_le (by omega)

theorem notMem_nul_caseNumber (h : matchesCaseNumber s = true) : '\x00' ∉ s.toList := by
  obtain ⟨cs, z, rest, hs, _, hz, hrest, hnul, _⟩ := matchesCaseNumber_shape h
  have hz0 : '\x00' ≠ z := by
    rintro rfl
    exact absurd hz (by decide)
  rw [hs]
  rcases hrest with rfl | rfl <;> simp [hnul, hz0]

/-- The number without the newline that the pattern lets through. -/
theorem strip_caseNumber (h : matchesCaseNumber s = true) :
    (Text.strip s = s ∧ s.toList.getLast? ≠ some '\n') ∨
      (s = (Text.strip s).push '\n' ∧ s.toList.getLast? = some '\n') := by
  obtain ⟨cs, z, rest, hs, _, hz, hrest, _⟩ := matchesCaseNumber_shape h
  have hspace := Text.isSpace_of_isDecimal hz
  have hself : ∀ t : String, t.toList = 'C' :: cs ++ [z] → Text.strip t = t := by
    intro t ht
    have hfirst : t.toList = 'C' :: (cs ++ [z]) := ht
    exact Text.strip_eq_self hfirst ht (by decide) hspace
  rcases hrest with rfl | rfl
  · refine .inl ⟨hself s hs, ?_⟩
    rw [hs, List.getLast?_concat]
    rintro he
    cases he
    exact absurd hz (by decide)
  · have hlast : s.toList = ('C' :: cs ++ [z]) ++ ['\n'] := by
      rw [hs, List.append_assoc]
      rfl
    have hpush : s = (String.ofList ('C' :: cs ++ [z])).push '\n' := by
      rw [← String.toList_inj, hlast, String.toList_push, String.toList_ofList]
    refine .inr ⟨?_, by rw [hlast, List.getLast?_concat]⟩
    rw [hpush, Text.strip_push (by simp) (by simp [Text.isSpace]) (by decide),
      hself _ (by simp)]

end ForensicChain.Auth
