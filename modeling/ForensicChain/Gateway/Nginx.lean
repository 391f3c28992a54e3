import ForensicChain.Library.UrlPath
import Mathlib.Data.List.MinMax

/-!
The locations of the gateway's `nginx.conf`. The location is chosen by the normalised path, while
`$request_uri`, on which `validate` decides, is the target as the client sent it.
-/
namespace ForensicChain.Gateway

inductive Service
  | auth
  | evidence
  | custody
  | report
  | ledger
  | ui
  deriving DecidableEq

/-- A prefix location; `uri` is what `proxy_pass` puts in place of the prefix. -/
structure Location where
  path : String
  authRequest : Bool
  service : Service
  uri : Option String
  deriving DecidableEq

/-- Where `uri` is `none`, `rewrite` sets the path, or it is forwarded as it came. -/
def locations : List Location := [
  ⟨"/api/auth/", false, .auth, none⟩,
  ⟨"/api/evidence", true, .evidence, some "/evidence"⟩,
  ⟨"/api/custody", true, .custody, some "/custody"⟩,
  ⟨"/api/reports", true, .report, some "/reports"⟩,
  ⟨"/api/ledger", true, .ledger, some "/ledger"⟩,
  ⟨"/api/cases", true, .auth, none⟩,
  ⟨"/api/admin/", true, .auth, none⟩,
  ⟨"/health", false, .evidence, some "/health"⟩,
  ⟨"/", false, .ui, none⟩]

/-- An internal location, and two prefixes without their last slash: nginx answers these itself. -/
def ownPaths : List String := ["/internal/auth/validate", "/api/auth", "/api/admin"]

def Location.covers (l : Location) (path : List Char) : Bool := l.path.toList.isPrefixOf path

/-- The longest prefix wins. -/
def locate (path : List Char) : Option Location :=
  if path ∈ ownPaths.map String.toList then none
  else (locations.filter fun l => l.covers path).argmax fun l => l.path.length

def Location.forward (l : Location) (path : List Char) : Option (List Char) :=
  l.uri.map fun uri => uri.toList ++ path.drop l.path.length

/-- The location that takes a request, and the path that it is chosen by. -/
def route (target : String) : Option (Location × List Char) := do
  let path ← UrlPath.normalize target.toList
  let l ← locate path
  return (l, path)

variable {l : Location} {path : List Char} {target : String}

theorem covers_iff : l.covers path = true ↔ l.path.toList <+: path := List.isPrefixOf_iff_prefix

theorem locate_spec (h : locate path = some l) : l ∈ locations ∧ l.covers path = true := by
  unfold locate at h
  split_ifs at h
  have hmem := List.argmax_mem h
  exact List.mem_filter.mp hmem

/-- A location takes a path that it covers when every other one that does is shorter. -/
theorem locate_eq (hown : path ∉ ownPaths.map String.toList) (hl : l ∈ locations)
    (hc : l.covers path = true)
    (hlong : ∀ k ∈ locations, k.covers path = true → k ≠ l → k.path.length < l.path.length) :
    locate path = some l := by
  rw [locate, if_neg hown]
  have hmem : l ∈ locations.filter fun k => k.covers path := List.mem_filter.mpr ⟨hl, hc⟩
  cases hmax : (locations.filter fun k => k.covers path).argmax fun k => k.path.length with
  | none =>
    rw [List.argmax_eq_none.mp hmax] at hmem
    cases hmem
  | some k =>
    obtain ⟨hk, hkc⟩ := List.mem_filter.mp (List.argmax_mem hmax)
    by_cases hkl : k = l
    · rw [hkl]
    · have hle := List.le_of_mem_argmax hmem hmax
      have hlt := hlong k hk hkc hkl
      omega

theorem covers_disjoint : ∀ l ∈ locations, ∀ k ∈ locations, l.path ≠ "/" → k ≠ l →
    k.path.toList <+: l.path.toList → k.path.length < l.path.length := by decide

theorem covers_incomparable : ∀ l ∈ locations, ∀ k ∈ locations, l.path ≠ "/" → k ≠ l →
    ¬ l.path.toList <+: k.path.toList := by decide

theorem covers_own : ∀ l ∈ locations, l.path ≠ "/" → ∀ own ∈ ownPaths.map String.toList,
    ¬ l.path.toList <+: own := by decide

/-- Apart from the one that covers every path, a location takes all that it covers. -/
theorem locate_iff (hl : l ∈ locations) (hroot : l.path ≠ "/") :
    locate path = some l ↔ l.path.toList <+: path := by
  constructor
  · intro h
    exact covers_iff.mp (locate_spec h).2
  · intro hc
    have hown : path ∉ ownPaths.map String.toList := by
      intro hmem
      exact covers_own l hl hroot path hmem hc
    apply locate_eq hown hl (covers_iff.mpr hc)
    intro k hk hkc hkl
    rcases List.prefix_or_prefix_of_prefix hc (covers_iff.mp hkc) with hlk | hkl'
    · exact (covers_incomparable l hl k hk hroot hkl hlk).elim
    · exact covers_disjoint l hl k hk hroot hkl hkl'

theorem route_iff : route target = some (l, path) ↔
    UrlPath.normalize target.toList = some path ∧ locate path = some l := by
  simp only [route, Option.bind_eq_bind, Option.bind_eq_some_iff, Option.pure_def,
    Option.some.injEq, Prod.mk.injEq]
  constructor
  · rintro ⟨_, hn, _, hl, rfl, rfl⟩
    exact ⟨hn, hl⟩
  · rintro ⟨hn, hl⟩
    exact ⟨path, hn, l, hl, rfl, rfl⟩

def RoutedTo (service : Service) (target : String) : Prop :=
  ∃ l path, route target = some (l, path) ∧ l.service = service

/-- A service behind one location gets the requests whose normalised path starts with its prefix. -/
theorem routedTo_iff (hl : l ∈ locations) (hroot : l.path ≠ "/")
    (hone : ∀ k ∈ locations, k.service = l.service → k = l) : RoutedTo l.service target ↔
      ∃ path, UrlPath.normalize target.toList = some path ∧ l.path.toList <+: path := by
  constructor
  · rintro ⟨k, path, h, hs⟩
    obtain ⟨hn, hk⟩ := route_iff.mp h
    obtain ⟨hmem, hc⟩ := locate_spec hk
    exact ⟨path, hn, hone k hmem hs ▸ covers_iff.mp hc⟩
  · rintro ⟨path, hn, hp⟩
    exact ⟨l, path, route_iff.mpr ⟨hn, (locate_iff hl hroot).mpr hp⟩, rfl⟩

theorem routedTo_custody : RoutedTo .custody target ↔
    ∃ path, UrlPath.normalize target.toList = some path ∧ "/api/custody".toList <+: path :=
  routedTo_iff (l := ⟨"/api/custody", true, .custody, some "/custody"⟩) (by decide) (by decide)
    (by decide)

theorem routedTo_report : RoutedTo .report target ↔
    ∃ path, UrlPath.normalize target.toList = some path ∧ "/api/reports".toList <+: path :=
  routedTo_iff (l := ⟨"/api/reports", true, .report, some "/reports"⟩) (by decide) (by decide)
    (by decide)

end ForensicChain.Gateway
