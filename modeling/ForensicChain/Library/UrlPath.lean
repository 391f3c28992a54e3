import ForensicChain.Library.Utf8
import ForensicChain.Library.Uuid
import Mathlib.Data.List.TakeWhile

/-!
The path of a request target as a proxy sees it: percent-encodings decoded, adjacent slashes merged
and dot segments resolved. A character stands for one byte.
-/
namespace UrlPath

/-- `none` is a malformed encoding, or a NUL. -/
def percentDecode : List Char → Option (List Char)
  | [] => some []
  | '%' :: a :: b :: cs => do
    let x ← Uuid.hexVal a
    let y ← Uuid.hexVal b
    let rest ← percentDecode cs
    if x * 16 + y = 0 then none else some (Char.ofNat (x * 16 + y) :: rest)
  | '%' :: _ => none
  | c :: cs => (percentDecode cs).map (c :: ·)

/-- The segments that are left, with those already passed in reverse; `none` is above the root. -/
def resolve (passed : List (List Char)) : List (List Char) → Option (List (List Char))
  | [] => some passed.reverse
  | [last] =>
    if last = ['.'] then some ([] :: passed).reverse
    else if last = ['.', '.'] then passed.tail?.map fun rest => ([] :: rest).reverse
    else some (last :: passed).reverse
  | segment :: segments =>
    if segment = [] ∨ segment = ['.'] then resolve passed segments
    else if segment = ['.', '.'] then passed.tail?.bind fun rest => resolve rest segments
    else resolve (segment :: passed) segments

/-- The target without its query and fragment. -/
def rawPath (target : List Char) : List Char := target.takeWhile fun c => c ≠ '?' ∧ c ≠ '#'

/-- The text of a path, as the service that it names reads it. -/
def text (path : List Char) : List Char := Utf8.decode (path.map Char.toNat)

/-- The parameter of a path that `^{front}(?P<text>[^/]+){back}$` matches. -/
def routeParam (front back : String) (path : List Char) : Option String :=
  let rest := path.drop front.length
  let text := rest.takeWhile (· ≠ '/')
  if front.toList.isPrefixOf path ∧ text ≠ [] ∧ (rest.dropWhile (· ≠ '/') = back.toList ∨
      rest.dropWhile (· ≠ '/') = back.toList ++ ['\n']) then some (String.ofList text)
  else none

/-- The path of its segments. -/
def join (segments : List (List Char)) : List Char := segments.flatMap fun segment => '/' :: segment

/-- The normalised path; `none` is a bad request. -/
def normalize (target : List Char) : Option (List Char) :=
  match rawPath target with
  | '/' :: cs => do
    let decoded ← percentDecode cs
    let segments ← resolve [] (decoded.splitOn '/')
    some (join segments)
  | _ => none

example : normalize "/api/evidence/../custody//a%2Fb/.?q".toList =
    some "/api/custody/a/b/".toList := by decide

/-- No percent-encoding and no dot segment. -/
def Plain (target : List Char) : Prop :=
  '%' ∉ rawPath target ∧
    ∀ segment ∈ (rawPath target).splitOn '/', segment ≠ ['.'] ∧ segment ≠ ['.', '.']

/-- What is left of segments without dots: an empty one goes, unless it is the last. -/
def merge : List (List Char) → List (List Char)
  | [] => []
  | [last] => [last]
  | segment :: next :: segments =>
    if segment = [] then merge (next :: segments) else segment :: merge (next :: segments)

variable {cs s target path : List Char} {segments passed : List (List Char)}

theorem percentDecode_plain (h : '%' ∉ cs) : percentDecode cs = some cs := by
  induction cs with
  | nil => rfl
  | cons c cs ih =>
    rw [List.mem_cons, not_or] at h
    have hc : c ≠ '%' := Ne.symm h.1
    rw [percentDecode.eq_4 _ _ (fun _ _ _ he _ => hc he) hc, ih h.2, Option.map_some]

theorem resolve_plain (hne : segments ≠ [])
    (h : ∀ segment ∈ segments, segment ≠ ['.'] ∧ segment ≠ ['.', '.']) :
    resolve passed segments = some (passed.reverse ++ merge segments) := by
  induction segments generalizing passed with
  | nil => exact (hne rfl).elim
  | cons segment segments ih =>
    obtain ⟨hdot, hdots⟩ := h segment List.mem_cons_self
    have htail := fun t ht => h t (List.mem_cons_of_mem segment ht)
    cases segments with
    | nil => simp [resolve, merge, hdot, hdots]
    | cons next segments =>
      by_cases hempty : segment = []
      · simp [resolve, merge, hempty, ih (by simp) htail]
      · simp [resolve, merge, hempty, hdot, hdots, ih (by simp) htail]

theorem splitOn_slash : ('/' :: cs).splitOn '/' = [] :: cs.splitOn '/' := by
  rw [List.splitOn_cons_eq_if_modifyHead, if_pos (by simp)]

theorem splitOn_append (hs : '/' ∉ s) :
    (s ++ cs).splitOn '/' = (cs.splitOn '/').modifyHead (s ++ ·) := by
  induction s with
  | nil => cases h : cs.splitOn '/' <;> simp [h]
  | cons c s ih =>
    rw [List.mem_cons, not_or] at hs
    rw [List.cons_append, List.splitOn_cons_eq_if_modifyHead,
      if_neg (by simpa using Ne.symm hs.1), ih hs.2]
    cases cs.splitOn '/' <;> rfl

/-- The path of a plain target is only rid of double slashes. -/
theorem normalize_plain (h : Plain target) (hn : normalize target = some path) :
    ∃ cs, rawPath target = '/' :: cs ∧ path = join (merge (cs.splitOn '/')) := by
  unfold normalize at hn
  split at hn
  · rename_i cs hraw
    rw [Plain, hraw, splitOn_slash, List.mem_cons, not_or] at h
    obtain ⟨⟨_, hpercent⟩, hdots⟩ := h
    have hsegments := fun s hs => hdots s (List.mem_cons_of_mem [] hs)
    rw [percentDecode_plain hpercent] at hn
    simp only [Option.bind_eq_bind, Option.bind_some,
      resolve_plain (List.splitOn_ne_nil '/' cs) hsegments, List.reverse_nil, List.nil_append,
      Option.some.injEq] at hn
    exact ⟨cs, hraw, hn.symm⟩
  · cases hn

theorem join_cons {segment : List Char} :
    join (segment :: segments) = '/' :: (segment ++ join segments) := by
  simp [join]

theorem merge_cons (hs : s ≠ []) : merge (s :: segments) = s :: merge segments := by
  cases segments with
  | nil => rfl
  | cons next segments => rw [merge, if_neg hs]

/-- What a path starts with stays when slashes are merged. -/
theorem join_prefix (hs : ∀ s ∈ segments, s ≠ [] ∧ '/' ∉ s) (h : join segments <+: '/' :: cs) :
    join segments <+: join (merge (cs.splitOn '/')) := by
  induction segments generalizing cs with
  | nil => exact List.nil_prefix
  | cons s segments ih =>
    obtain ⟨hne, hslash⟩ := hs s List.mem_cons_self
    rw [join_cons, List.cons_prefix_cons] at h
    obtain ⟨_, rest, rfl⟩ := h
    cases segments with
    | nil =>
      cases hrest : rest.splitOn '/' with
      | nil => exact (List.splitOn_ne_nil '/' rest hrest).elim
      | cons r rs =>
        have hsr : s ++ r ≠ [] := by simp [hne]
        have hnil : join [] = [] := rfl
        rw [join_cons, hnil, List.append_nil, splitOn_append hslash, hrest, List.modifyHead_cons,
          merge_cons hsr, join_cons, List.append_assoc]
        exact List.cons_prefix_cons.mpr ⟨rfl, List.prefix_append s _⟩
    | cons t segments =>
      have hcs : s ++ join (t :: segments) ++ rest =
          s ++ '/' :: (t ++ join segments ++ rest) := by simp [join_cons]
      rw [hcs, List.splitOn_append_cons_self_of_not_mem hslash, merge_cons hne, join_cons,
        join_cons]
      refine List.cons_prefix_cons.mpr ⟨rfl, (List.prefix_append_right_inj s).mpr ?_⟩
      exact ih (fun u hu => hs u (List.mem_cons_of_mem s hu)) ⟨rest, by simp [join_cons]⟩

theorem rawPath_prefix (hs : '?' ∉ s ∧ '#' ∉ s) (h : s <+: target) : s <+: rawPath target := by
  obtain ⟨rest, rfl⟩ := h
  have hpos : ∀ c ∈ s, decide (c ≠ '?' ∧ c ≠ '#') = true := by
    intro c hc
    exact decide_eq_true ⟨fun he => hs.1 (he ▸ hc), fun he => hs.2 (he ▸ hc)⟩
  rw [rawPath, List.takeWhile_append_of_pos hpos]
  exact List.prefix_append s _

/-- The normalised path of a plain target starts as the target does. -/
theorem normalize_prefix (h : Plain target) (hn : normalize target = some path)
    (hs : ∀ s ∈ segments, s ≠ [] ∧ '/' ∉ s) (hq : '?' ∉ join segments ∧ '#' ∉ join segments)
    (hp : join segments <+: target) : join segments <+: path := by
  obtain ⟨cs, hraw, rfl⟩ := normalize_plain h hn
  exact join_prefix hs (hraw ▸ rawPath_prefix hq hp)

/-- A segment that stands in a target as it is. -/
structure PlainSegment (s : List Char) : Prop where
  nonempty : s ≠ []
  dot : s ≠ ['.'] ∧ s ≠ ['.', '.']
  chars : ∀ c ∈ s, c ≠ '/' ∧ c ≠ '%' ∧ c ≠ '?' ∧ c ≠ '#'

theorem splitOn_join (hs : ∀ t ∈ s :: segments, '/' ∉ t) :
    (s ++ join segments).splitOn '/' = s :: segments := by
  induction segments generalizing s with
  | nil =>
    have hslash := hs s List.mem_cons_self
    have happ : (s ++ []).splitOn '/' = ([].splitOn '/').modifyHead (s ++ ·) :=
      splitOn_append hslash
    simpa [join] using happ
  | cons t segments ih =>
    have hslash := hs s List.mem_cons_self
    rw [join_cons, List.splitOn_append_cons_self_of_not_mem hslash,
      ih fun u hu => hs u (List.mem_cons_of_mem s hu)]

theorem merge_nonempty (h : ∀ s ∈ segments, s ≠ []) : merge segments = segments := by
  induction segments with
  | nil => rfl
  | cons s segments ih =>
    rw [merge_cons (h s List.mem_cons_self), ih fun t ht => h t (List.mem_cons_of_mem s ht)]

theorem mem_join {c : Char} (h : c ∈ join segments) : c = '/' ∨ ∃ s ∈ segments, c ∈ s := by
  obtain ⟨s, hs, hc⟩ := List.mem_flatMap.mp h
  rcases List.mem_cons.mp hc with hc | hc
  · exact .inl hc
  · exact .inr ⟨s, hs, hc⟩

/-- A path of plain segments is normal, whatever is asked behind it. -/
theorem normalize_join {query : List Char} (hne : segments ≠ [])
    (hs : ∀ s ∈ segments, PlainSegment s) (hq : ∀ c ∈ query.head?, c = '?') :
    normalize (join segments ++ query) = some (join segments) := by
  have hchars : ∀ c ∈ join segments, c ≠ '%' ∧ c ≠ '?' ∧ c ≠ '#' := by
    intro c hc
    rcases mem_join hc with rfl | ⟨s, hmem, hc⟩
    · decide
    · exact ((hs s hmem).chars c hc).2
  have hraw : rawPath (join segments ++ query) = join segments := by
    rw [rawPath, List.takeWhile_append_of_pos fun c hc => decide_eq_true (hchars c hc).2]
    cases query with
    | nil => simp
    | cons c query => simp [hq c rfl]
  obtain ⟨s, rest, rfl⟩ := List.exists_cons_of_ne_nil hne
  have hpercent : '%' ∉ s ++ join rest := by
    intro hmem
    have hmem' : '%' ∈ join (s :: rest) := by
      rw [join_cons]
      exact List.mem_cons_of_mem _ hmem
    exact (hchars '%' hmem').1 rfl
  have hsplit : (s ++ join rest).splitOn '/' = s :: rest :=
    splitOn_join fun t ht hslash => ((hs t ht).chars '/' hslash).1 rfl
  rw [normalize, hraw, join_cons]
  simp only [Option.bind_eq_bind, percentDecode_plain hpercent, Option.bind_some, hsplit,
    resolve_plain (List.cons_ne_nil s rest) fun t ht => (hs t ht).dot, List.reverse_nil,
    List.nil_append, merge_nonempty fun t ht => (hs t ht).nonempty, join_cons]

theorem text_append (hs : ∀ c ∈ s, c.toNat < 0x80) : text (s ++ cs) = s ++ text cs := by
  rw [text, List.map_append, Utf8.decode_append hs]
  rfl

theorem routeParam_iff {front back text : String} (hback : back.toList.head? = some '/') :
    routeParam front back path = some text ↔ text ≠ "" ∧ '/' ∉ text.toList ∧
      ∃ ending ∈ [[], ['\n']],
        path = front.toList ++ (text.toList ++ (back.toList ++ ending)) := by
  have hlen : front.length = front.toList.length := by rw [String.length_toList]
  constructor
  · intro h
    simp only [routeParam] at h
    split_ifs at h with hif
    obtain ⟨hpre, hne, hend⟩ := hif
    obtain ⟨rest, rfl⟩ := List.isPrefixOf_iff_prefix.mp hpre
    rw [hlen, List.drop_left] at h hne hend
    obtain rfl := Option.some.inj h
    have hsplit := List.takeWhile_append_dropWhile (p := (· ≠ '/')) (l := rest)
    rw [String.toList_ofList]
    refine ⟨by simpa [String.ext_iff] using hne, ?_, ?_⟩
    · intro hmem
      simpa using List.mem_takeWhile_imp hmem
    · rcases hend with hend | hend
      · exact ⟨[], by simp, by rw [List.append_nil, ← hend, hsplit]⟩
      · exact ⟨['\n'], by simp, by rw [← hend, hsplit]⟩
  · rintro ⟨hne, hslash, ending, hend, rfl⟩
    have hpos : ∀ c ∈ text.toList, decide (c ≠ '/') = true := by
      intro c hc
      exact decide_eq_true fun he => hslash (he ▸ hc)
    have hstop : (back.toList ++ ending).dropWhile (· ≠ '/') = back.toList ++ ending ∧
        (back.toList ++ ending).takeWhile (· ≠ '/') = [] := by
      cases hb : back.toList with
      | nil => simp [hb] at hback
      | cons c cs =>
        obtain rfl : c = '/' := by simpa [hb] using hback
        simp
    have hverb : back.toList ++ ending = back.toList ∨
        back.toList ++ ending = back.toList ++ ['\n'] := by
      rcases List.mem_pair.mp hend with rfl | rfl <;> simp
    have hstart := List.isPrefixOf_iff_prefix.mpr (List.prefix_append front.toList
      (text.toList ++ (back.toList ++ ending)))
    simp only [routeParam, hlen, List.drop_left, List.takeWhile_append_of_pos hpos,
      List.dropWhile_append_of_pos hpos, hstop, hstart, List.append_nil, ne_eq,
      String.ofList_toList, hverb, String.toList_eq_nil_iff, hne, not_false_eq_true, and_self,
      if_true]

end UrlPath
