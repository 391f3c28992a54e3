import ForensicChain.Library.UrlPath

/-!
Route templates of a web framework, literal segments and parameters of one segment each, and what
resolving dot segments may do to a path that fits one.
-/
namespace RouteTemplate

open UrlPath

inductive Segment
  | lit (text : String)
  | param
  deriving DecidableEq

/-- The match is anchored by `$`, which also stands before a last newline. -/
def fits : List Segment → List (List Char) → Bool
  | [], [] => true
  | [.lit text], [s] => s = text.toList || s = text.toList ++ ['\n']
  | .lit text :: t, s :: segments => s = text.toList && fits t segments
  | .param :: t, s :: segments => s ≠ [] && fits t segments
  | _, _ => false

def fitsPath (t : List Segment) : List Char → Bool
  | '/' :: cs => fits t (cs.splitOn '/')
  | _ => false

/-- The values of the parameters of a template, for segments that fit it. -/
def params : List Segment → List (List Char) → List String
  | .lit _ :: t, _ :: segments => params t segments
  | .param :: t, s :: segments => String.ofList s :: params t segments
  | _, _ => []

/-- A segment that is not a dot segment and not empty, even with a newline behind it. -/
def Literal (text : String) : Bool := text ∉ ["", ".", ".."]

/-- No prefix of the template has more parameters than `depth` and its literals together: filled
with dot segments, the parameters do not lead out of what `depth` segments stand under. -/
def stays : Nat → List Segment → Bool
  | _, [] => true
  | depth, .lit text :: t => Literal text && stays (depth + 1) t
  | 0, .param :: _ => false
  | depth + 1, .param :: t => stays depth t

variable {t : List Segment} {text : String} {segments l : List (List Char)}
  {s first path cs : List Char} {out : List (List Char)} {depth : Nat}

theorem literal_spec (h : Literal text = true) (hs : s = text.toList ∨ s = text.toList ++ ['\n']) :
    s ≠ [] ∧ s ≠ ['.'] ∧ s ≠ ['.', '.'] := by
  have hne : text.toList ≠ [] ∧ text.toList ≠ ['.'] ∧ text.toList ≠ ['.', '.'] := by
    simp only [Literal, List.mem_cons, List.not_mem_nil, or_false, not_or, decide_eq_true_eq,
      ← String.toList_inj] at h
    exact h
  rcases hs with rfl | rfl
  · exact hne
  · have hlast : ∀ l : List Char, text.toList ++ ['\n'] = l ++ ['.'] → False := by
      intro l he
      have := (List.append_inj' he rfl).2
      exact absurd this (by decide)
    exact ⟨by simp, fun he => hlast [] he, fun he => hlast ['.'] he⟩

theorem fits_lit (h : fits (.lit text :: t) (s :: segments) = true) :
    (s = text.toList ∨ s = text.toList ++ ['\n']) ∧ fits t segments = true := by
  cases t with
  | nil =>
    cases segments with
    | nil => simpa [fits] using h
    | cons next segments => simp [fits] at h
  | cons segment t =>
    simp only [fits, Bool.and_eq_true, decide_eq_true_eq] at h
    exact ⟨.inl h.1, h.2⟩

theorem fits_param (h : fits (.param :: t) (s :: segments) = true) : fits t segments = true := by
  simp only [fits, Bool.and_eq_true] at h
  exact h.2

theorem fits_cons {segment : Segment} (h : fits (segment :: t) segments = true) :
    ∃ s rest, segments = s :: rest := by
  cases segments with
  | nil => cases segment <;> cases t <;> simp [fits] at h
  | cons s rest => exact ⟨s, rest, rfl⟩

theorem head_splitOn (cs : List Char) :
    ∃ s segments, cs.splitOn '/' = s :: segments ∧ s <+: cs := by
  induction cs with
  | nil => exact ⟨[], [], by simp, List.nil_prefix⟩
  | cons c cs ih =>
    obtain ⟨s, segments, hs, hp⟩ := ih
    by_cases hc : c = '/'
    · exact ⟨[], _, by rw [hc, splitOn_slash], List.nil_prefix⟩
    · refine ⟨c :: s, segments, ?_, List.cons_prefix_cons.mpr ⟨rfl, hp⟩⟩
      rw [List.splitOn_cons_eq_if_modifyHead, if_neg (by simpa using hc), hs,
        List.modifyHead_cons]

/-- A path starts with the first literal of the template that it fits. -/
theorem front_of_fitsPath (h : fitsPath (.lit text :: t) path = true) :
    '/' :: text.toList <+: path := by
  unfold fitsPath at h
  split at h
  · rename_i cs
    obtain ⟨s, segments, hs, hp⟩ := head_splitOn cs
    rw [hs] at h
    have htext : text.toList <+: s := by
      rcases (fits_lit h).1 with rfl | rfl
      · exact List.prefix_rfl
      · exact List.prefix_append _ _
    exact List.cons_prefix_cons.mpr ⟨rfl, htext.trans hp⟩
  · cases h

/-- Resolving what fits a template that stays below `first` does not pass `first`. -/
theorem resolve_stays (hstays : stays depth t = true) (hfits : fits t segments = true)
    (hdepth : depth ≤ l.length) (h : resolve (l ++ [first]) segments = some out) :
    ∃ rest, out = first :: rest := by
  induction t generalizing depth segments l with
  | nil =>
    cases segments with
    | nil =>
      obtain rfl := Option.some.inj h
      exact ⟨l.reverse, by simp⟩
    | cons s segments => simp [fits] at hfits
  | cons segment t ih =>
    obtain ⟨s, segments, rfl⟩ := fits_cons hfits
    cases segment with
    | lit text =>
      simp only [stays, Bool.and_eq_true] at hstays
      obtain ⟨hs, hrest⟩ := fits_lit hfits
      obtain ⟨hne, hdot, hdots⟩ := literal_spec hstays.1 hs
      cases segments with
      | nil =>
        simp only [resolve, hdot, hdots, if_false, Option.some.injEq] at h
        exact ⟨l.reverse ++ [s], by simp [← h]⟩
      | cons next segments =>
        simp only [resolve, hne, hdot, hdots, or_self, if_false] at h
        exact ih (l := s :: l) hstays.2 hrest (by simpa using hdepth) h
    | param =>
      cases depth with
      | zero => simp [stays] at hstays
      | succ depth =>
        cases l with
        | nil => simp at hdepth
        | cons p l =>
          -- a parameter may be a dot segment, and takes away one segment at most
          have hdepth' : depth ≤ l.length := by simpa using hdepth
          have hrest := fits_param hfits
          simp only [stays] at hstays
          cases segments with
          | nil =>
            simp only [resolve, List.cons_append, List.tail?_cons, Option.map_some] at h
            split_ifs at h
            · exact ⟨l.reverse ++ [p, []], by simp [← Option.some.inj h]⟩
            · exact ⟨l.reverse ++ [[]], by simp [← Option.some.inj h]⟩
            · exact ⟨l.reverse ++ [p, s], by simp [← Option.some.inj h]⟩
          | cons next segments =>
            simp only [resolve, List.cons_append, List.tail?_cons, Option.bind_some] at h
            split_ifs at h
            · exact ih (l := p :: l) hstays hrest (by simp; omega) h
            · exact ih hstays hrest hdepth' h
            · exact ih (l := s :: p :: l) hstays hrest (by simp; omega) h

/-- A path that fits a template that stays below its first literal keeps it when its dot segments
are resolved. -/
theorem resolved_front (hlit : Literal text = true) (hstays : stays 0 t = true)
    (hfits : fits (.lit text :: t) (cs.splitOn '/') = true)
    (h : resolve [] (cs.splitOn '/') = some out) : '/' :: text.toList <+: join out := by
  obtain ⟨s, segments, hsplit, _⟩ := head_splitOn cs
  rw [hsplit] at hfits h
  obtain ⟨hs, hrest⟩ := fits_lit hfits
  obtain ⟨hne, hdot, hdots⟩ := literal_spec hlit hs
  have hout : ∃ rest, out = s :: rest := by
    cases segments with
    | nil =>
      simp only [resolve, hdot, hdots, if_false, Option.some.injEq] at h
      exact ⟨[], by simp [← h]⟩
    | cons next segments =>
      simp only [resolve, hne, hdot, hdots, or_self, if_false] at h
      exact resolve_stays (l := []) hstays hrest (by simp) h
  obtain ⟨rest, rfl⟩ := hout
  have htext : text.toList <+: s := by
    rcases hs with rfl | rfl
    · exact List.prefix_rfl
    · exact List.prefix_append _ _
  rw [join_cons]
  exact List.cons_prefix_cons.mpr ⟨rfl, htext.trans (List.prefix_append _ _)⟩

end RouteTemplate
