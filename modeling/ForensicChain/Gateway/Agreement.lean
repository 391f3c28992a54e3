import ForensicChain.Gateway.Nginx
import ForensicChain.Gateway.Rbac

/-!
Custody timelines and reports are for legal reviewers, and the services behind the gateway leave
that to `validate`. It decides on the target as it was sent, nginx on the normalised path.
-/
namespace ForensicChain.Gateway

/-- What the rules let others than legal reviewers do. -/
inductive AdmitsOther : String → List Char → Prop
  | evidence {uri} (h : "/evidence".toList <+: uri) : AdmitsOther "GET" uri
  | cases {uri} (h : "/cases".toList <+: uri) : AdmitsOther "GET" uri
  | upload {ending} (h : ending ∈ endings) : AdmitsOther "POST" ("/evidence".toList ++ ending)
  | verify {id ending} (hne : id ≠ []) (hid : '/' ∉ id) (h : ending ∈ endings) :
      AdmitsOther "POST" ("/evidence/".toList ++ id ++ "/verify".toList ++ ending)
  | admin {method uri} (hm : method ∈ ["GET", "POST", "PATCH", "DELETE"])
      (h : "/admin".toList <+: uri) : AdmitsOther method uri

/-- Whoever `validate` lets through to custody timelines or reports is a legal reviewer. -/
def Agrees (target method : String) : Prop :=
  ∀ decodeAccessToken corrId authorization identity,
    validate decodeAccessToken corrId authorization (some target) (some method) = .ok identity →
    RoutedTo .custody target ∨ RoutedTo .report target → identity.userRole = "legal_reviewer"

variable {role method uri target : String}

theorem admitsOther_of_isAuthorized (h : isAuthorized role method uri = true)
    (hr : role ≠ "legal_reviewer") : AdmitsOther method uri.toList := by
  obtain ⟨rule, hmem, happ, hrole⟩ := applies_of_isAuthorized h
  simp only [Rule.applies, Bool.and_eq_true, decide_eq_true_eq] at happ
  obtain ⟨rfl, hm⟩ := happ
  simp only [rules, List.mem_cons, List.not_mem_nil, or_false] at hmem
  -- one case for each rule; those of legal reviewers alone contradict the role
  rcases hmem with rfl | rfl | rfl | rfl | rfl | rfl | rfl | rfl | rfl | rfl | rfl | rfl | rfl
  · obtain ⟨ending, hend, heq⟩ := upload_matches.mp hm
    exact heq ▸ .upload hend
  · obtain ⟨id, ending, hne, hid, hend, heq⟩ := (action_matches verify_parse).mp hm
    exact heq ▸ .verify hne hid hend
  · obtain ⟨id, ending, _, _, _, heq⟩ := (action_matches download_parse).mp hm
    refine .evidence (heq ▸ ?_)
    rw [List.append_assoc, List.append_assoc]
    exact List.IsPrefix.trans (by decide) (List.prefix_append _ _)
  · exact .evidence ((Regex.isMatch_chars (by decide)).mp hm)
  · exact .cases ((Regex.isMatch_chars (by decide)).mp hm)
  · exact (hr (List.mem_singleton.mp hrole)).elim
  · exact (hr (List.mem_singleton.mp hrole)).elim
  · exact (hr (List.mem_singleton.mp hrole)).elim
  · exact (hr (List.mem_singleton.mp hrole)).elim
  all_goals exact .admin (by simp) ((Regex.isMatch_chars (by decide)).mp hm)

/-- Where others are let in, one of them is authorised. -/
theorem isAuthorized_of_admitsOther (h : AdmitsOther method uri.toList) :
    ∃ role, role ≠ "legal_reviewer" ∧ isAuthorized role method uri = true := by
  generalize hs : uri.toList = s at h
  cases h with
  | evidence hstart =>
    exact ⟨"investigator", by simp, isAuthorized_of_prefix "^/evidence"
      ["investigator", "forensic_analyst", "legal_reviewer"] (by simp [rules]) (by decide)
      (hs ▸ hstart) (by decide)⟩
  | cases hstart =>
    exact ⟨"investigator", by simp, isAuthorized_of_prefix "^/cases"
      ["investigator", "forensic_analyst", "legal_reviewer"] (by simp [rules]) (by decide)
      (hs ▸ hstart) (by decide)⟩
  | @upload ending hend =>
    refine ⟨"investigator", by simp, isAuthorized_of_front (hs ▸ List.prefix_append _ _)
      (List.mem_cons_self (l := rules.tail)) ?_ (by decide)⟩
    refine Bool.and_eq_true_iff.mpr ⟨rfl, ?_⟩
    rw [hs]
    exact upload_matches.mpr ⟨ending, hend, rfl⟩
  | @verify id ending hne hid hend =>
    have hstart : "/evidence/".toList <+: uri.toList := by
      rw [hs, List.append_assoc, List.append_assoc]
      exact List.prefix_append _ _
    refine ⟨"investigator", by simp, isAuthorized_of_front hstart
      (List.mem_cons_of_mem _ (List.mem_cons_self (l := rules.tail.tail))) ?_ (by decide)⟩
    refine Bool.and_eq_true_iff.mpr ⟨rfl, ?_⟩
    rw [hs]
    exact (action_matches verify_parse).mpr ⟨id, ending, hne, hid, hend, rfl⟩
  | admin hm hstart =>
    refine ⟨"admin", by simp, ?_⟩
    simp only [List.mem_cons, List.not_mem_nil, or_false] at hm
    rcases hm with rfl | rfl | rfl | rfl
    all_goals
      exact isAuthorized_of_prefix "^/admin" ["admin"] (by simp [rules]) (by decide)
        (hs ▸ hstart) (by decide)

theorem routedTo_ne {service : Service} (h : RoutedTo service target) : target ≠ "" := by
  rintro rfl
  obtain ⟨l, path, hroute, _⟩ := h
  cases (route_iff.mp hroute).1

/-- Where others are let in, one of them passes with a token of their role. -/
theorem validate_of_admitsOther (ht : target ≠ "")
    (h : AdmitsOther (Text.upper (orDefault "GET" (some method)))
      (Text.removePrefix "/api" target).toList) :
    ∃ decodeAccessToken corrId authorization identity,
      validate decodeAccessToken corrId authorization (some target) (some method) = .ok identity ∧
      identity.userRole ≠ "legal_reviewer" := by
  obtain ⟨role, hrole, hauth⟩ := isAuthorized_of_admitsOther h
  let decode : String → Option Payload := fun _ => some ⟨none, some role⟩
  have htoken : decode "" = some ⟨none, some role⟩ := rfl
  have hlatin : isLatin1 "" = true := by decide
  rw [← orDefault_some (d := "/") ht] at hauth
  exact ⟨decode, .ofNat 0, some ("Bearer " ++ ""), ⟨"", "", role, .ofNat 0⟩,
    (validate_bearer htoken).mpr ⟨hauth, hlatin, rfl⟩, hrole⟩

theorem admitsOther_of_validate {decodeAccessToken : String → Option Payload} {corrId : Uuid}
    {authorization : Option String} {identity : Identity} (ht : target ≠ "")
    (h : validate decodeAccessToken corrId authorization (some target) (some method) = .ok identity)
    (hrole : identity.userRole ≠ "legal_reviewer") :
    AdmitsOther (Text.upper (orDefault "GET" (some method)))
      (Text.removePrefix "/api" target).toList := by
  obtain ⟨token, payload, _, _, hauth, _, rfl⟩ := validate_ok.mp h
  rw [orDefault_some ht] at hauth
  exact admitsOther_of_isAuthorized hauth hrole

/-- The gateway and the rules agree on a target unless others are let in by how it is written. -/
theorem agrees_iff : Agrees target method ↔
    ¬ ((RoutedTo .custody target ∨ RoutedTo .report target) ∧
      AdmitsOther (Text.upper (orDefault "GET" (some method)))
        (Text.removePrefix "/api" target).toList) := by
  constructor
  · rintro h ⟨hrouted, hadmits⟩
    have ht : target ≠ "" := hrouted.elim routedTo_ne routedTo_ne
    obtain ⟨_, _, _, _, hval, hrole⟩ := validate_of_admitsOther ht hadmits
    exact hrole (h _ _ _ _ hval hrouted)
  · intro h decodeAccessToken corrId authorization identity hval hrouted
    have ht : target ≠ "" := hrouted.elim routedTo_ne routedTo_ne
    by_contra hrole
    exact h ⟨hrouted, admitsOther_of_validate ht hval hrole⟩

def escapingTarget : String :=
  "/api/evidence/../custody/00000000-0000-0000-0000-000000000001/timeline"

/-- An investigator reads a custody timeline behind `/api/evidence/..`. -/
theorem dot_segments_escape : ¬ ∀ target method, Agrees target method := by
  intro h
  have hnorm : UrlPath.normalize escapingTarget.toList =
      some "/api/custody/00000000-0000-0000-0000-000000000001/timeline".toList := by decide +kernel
  have hget : Text.upper (orDefault "GET" (some "GET")) = "GET" := by decide
  have hstart : "/evidence".toList <+: (Text.removePrefix "/api" escapingTarget).toList := by
    decide +kernel
  have hrouted := routedTo_custody.mpr ⟨_, hnorm, by decide⟩
  have hadmits : AdmitsOther (Text.upper (orDefault "GET" (some "GET")))
      (Text.removePrefix "/api" escapingTarget).toList := by
    rw [hget]
    exact .evidence hstart
  obtain ⟨_, _, _, _, hval, hrole⟩ := validate_of_admitsOther (routedTo_ne hrouted) hadmits
  exact hrole (h escapingTarget "GET" _ _ _ _ hval (.inl hrouted))

/-- The first segments of the targets that others are admitted to. -/
def otherFronts : List (List Char) := ["evidence".toList, "cases".toList, "admin".toList]

theorem AdmitsOther.front {uri : List Char} (h : AdmitsOther method uri) :
    ∃ front ∈ otherFronts, '/' :: front <+: uri := by
  cases h with
  | evidence h => exact ⟨"evidence".toList, by decide, h⟩
  | cases h => exact ⟨"cases".toList, by decide, h⟩
  | upload h => exact ⟨"evidence".toList, by decide, List.prefix_append _ _⟩
  | verify hne hid h =>
    refine ⟨"evidence".toList, by decide, ?_⟩
    rw [List.append_assoc, List.append_assoc]
    exact List.IsPrefix.trans (by decide) (List.prefix_append "/evidence/".toList _)
  | admin hm h => exact ⟨"admin".toList, by decide, h⟩

/-- The segments that these targets start with, with and without the prefix that is removed. -/
def rawFronts : List (List (List Char)) :=
  otherFronts.map (fun front => [front]) ++ otherFronts.map fun front => ["api".toList, front]

def guardedPaths : List (List Char) := ["/api/custody".toList, "/api/reports".toList]

theorem rawFronts_plain : ∀ segments ∈ rawFronts, (∀ s ∈ segments, s ≠ [] ∧ '/' ∉ s) ∧
    '?' ∉ UrlPath.join segments ∧ '#' ∉ UrlPath.join segments := by decide

theorem rawFronts_guarded : ∀ segments ∈ rawFronts, ∀ p ∈ guardedPaths,
    ¬ p <+: UrlPath.join segments ∧ ¬ UrlPath.join segments <+: p := by decide

theorem rawFront_of_admitsOther
    (h : AdmitsOther method (Text.removePrefix "/api" target).toList) :
    ∃ segments ∈ rawFronts, UrlPath.join segments <+: target.toList := by
  obtain ⟨front, hfront, hstart⟩ := h.front
  rcases Text.removePrefix_cases "/api" target with heq | heq
  · refine ⟨["api".toList, front], List.mem_append_right _ (List.mem_map_of_mem hfront), ?_⟩
    rw [heq, String.toList_append]
    simpa [UrlPath.join] using hstart
  · refine ⟨[front], List.mem_append_left _ (List.mem_map_of_mem hfront), ?_⟩
    rw [heq]
    simpa [UrlPath.join] using hstart

theorem guarded_of_routed (h : RoutedTo .custody target ∨ RoutedTo .report target) :
    ∃ path, UrlPath.normalize target.toList = some path ∧ ∃ p ∈ guardedPaths, p <+: path := by
  rcases h with h | h
  · obtain ⟨path, hn, hp⟩ := routedTo_custody.mp h
    exact ⟨path, hn, _, by decide, hp⟩
  · obtain ⟨path, hn, hp⟩ := routedTo_report.mp h
    exact ⟨path, hn, _, by decide, hp⟩

/-- A target that is not rewritten on its way is routed as the rules read it. -/
theorem agrees_of_plain (h : UrlPath.Plain target.toList) : Agrees target method := by
  intro decodeAccessToken corrId authorization identity hval hrouted
  by_contra hrole
  have ht : target ≠ "" := hrouted.elim routedTo_ne routedTo_ne
  obtain ⟨segments, hmem, hstart⟩ := rawFront_of_admitsOther (admitsOther_of_validate ht hval hrole)
  obtain ⟨path, hn, p, hp, hpath⟩ := guarded_of_routed hrouted
  obtain ⟨hsegments, hquery⟩ := rawFronts_plain segments hmem
  -- the normalised path starts as the target does, so with two prefixes that exclude each other
  have hfront := UrlPath.normalize_prefix h hn hsegments hquery hstart
  obtain ⟨hdisjoint, hdisjoint'⟩ := rawFronts_guarded segments hmem p hp
  rcases List.prefix_or_prefix_of_prefix hpath hfront with hpre | hpre
  · exact hdisjoint hpre
  · exact hdisjoint' hpre

end ForensicChain.Gateway
