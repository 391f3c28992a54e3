import ForensicChain.Gateway.Nginx
import ForensicChain.Gateway.Rbac
import ForensicChain.Library.Header
import ForensicChain.Library.RouteTemplate

/-!
What the gateway hands on to which service, for every request target, and the endpoints that take
it there: those for other services take nothing, and those that read an identity get the one that
`validate` answered with.
-/
namespace ForensicChain.Gateway

open RouteTemplate

inductive Audience
  /-- Logins and health checks. -/
  | everyone
  /-- The endpoints that read the identity headers, or rely on `validate` alone. -/
  | identified
  /-- The routes under `/internal`, for calls that bypass the gateway. -/
  | services
  deriving DecidableEq

/-- A route of a service; the first segment of its path is literal. -/
structure Endpoint where
  service : Service
  method : String
  first : String
  rest : List Segment
  audience : Audience
  deriving DecidableEq

/-- The routes of the services that the gateway knows. -/
def endpoints : List Endpoint := [
  ⟨.auth, "POST", "auth", [.lit "login"], .everyone⟩,
  ⟨.auth, "GET", "internal", [.lit "auth", .lit "validate"], .services⟩,
  ⟨.auth, "GET", "internal", [.lit "assignments", .lit "by-user", .param], .services⟩,
  ⟨.auth, "GET", "internal", [.lit "cases", .param], .services⟩,
  ⟨.auth, "GET", "admin", [.lit "users"], .identified⟩,
  ⟨.auth, "POST", "admin", [.lit "users"], .identified⟩,
  ⟨.auth, "DELETE", "admin", [.lit "users", .param], .identified⟩,
  ⟨.auth, "GET", "admin", [.lit "cases"], .identified⟩,
  ⟨.auth, "POST", "admin", [.lit "cases"], .identified⟩,
  ⟨.auth, "PATCH", "admin", [.lit "cases", .param], .identified⟩,
  ⟨.auth, "GET", "admin", [.lit "cases", .param, .lit "assignments"], .identified⟩,
  ⟨.auth, "POST", "admin", [.lit "cases", .param, .lit "assignments"], .identified⟩,
  ⟨.auth, "DELETE", "admin", [.lit "cases", .param, .lit "assignments", .param], .identified⟩,
  ⟨.auth, "GET", "cases", [], .identified⟩,
  ⟨.auth, "GET", "health", [], .everyone⟩,
  ⟨.evidence, "POST", "evidence", [], .identified⟩,
  ⟨.evidence, "GET", "evidence", [], .identified⟩,
  ⟨.evidence, "POST", "evidence", [.param, .lit "verify"], .identified⟩,
  ⟨.evidence, "GET", "evidence", [.param], .identified⟩,
  ⟨.evidence, "GET", "evidence", [.param, .lit "download"], .identified⟩,
  ⟨.evidence, "GET", "internal", [.lit "artifacts", .param, .lit "case"], .services⟩,
  ⟨.evidence, "GET", "health", [], .everyone⟩,
  ⟨.custody, "GET", "custody", [.param, .lit "timeline"], .identified⟩,
  ⟨.custody, "GET", "health", [], .everyone⟩,
  ⟨.report, "POST", "reports", [.param], .identified⟩,
  ⟨.report, "GET", "reports", [.lit "by-artifact", .param], .identified⟩,
  ⟨.report, "GET", "reports", [.param], .identified⟩,
  ⟨.report, "GET", "reports", [.param, .lit "download"], .identified⟩,
  ⟨.report, "POST", "reports", [.param, .lit "verify"], .identified⟩,
  ⟨.report, "GET", "health", [], .everyone⟩,
  ⟨.ledger, "GET", "ledger", [.lit "artifacts", .param], .identified⟩,
  ⟨.ledger, "GET", "ledger", [.lit "records", .param], .identified⟩,
  ⟨.ledger, "GET", "ledger", [.lit "validate", .param], .identified⟩,
  ⟨.ledger, "GET", "health", [], .everyone⟩]

/-- What the `rewrite` of a location puts in place of its prefix. -/
def rewriteRules : List (String × String) :=
  [("/api/auth/", "/auth/"), ("/api/cases", "/cases"), ("/api/admin/", "/admin/")]

/-- `rewrite ^{front}(.*)$ {back}$1`: a dot is no newline, and `$` also stands before a last one. -/
def rewrite (front back : String) (path : List Char) : Option (List Char) :=
  let rest := path.drop front.length
  if rest.dropWhile (· ≠ '\n') = [] ∨ rest.dropWhile (· ≠ '\n') = ['\n'] then
    some (back.toList ++ rest.takeWhile (· ≠ '\n'))
  else none

/-- The path, decoded again, at the service. One that no `rewrite` has changed goes on as the client
sent it, dot segments included. -/
def Location.upstream (l : Location) (target : String) (path : List Char) : Option (List Char) :=
  match l.forward path with
  | some upstream => some upstream
  | none =>
    match (rewriteRules.lookup l.path).bind fun back => rewrite l.path back path with
    | some upstream => some upstream
    | none => UrlPath.percentDecode (UrlPath.rawPath target.toList)

/-- Names are in lower case. -/
abbrev Headers := List (String × String)

/-- `proxy_set_header`; an empty value sends no header. -/
def setHeader (headers : Headers) (header : String × String) : Headers :=
  let others := headers.filter fun h => h.1 ≠ header.1
  match Header.field header.2 with
  | none => others
  | some value => (header.1, value) :: others

def Identity.headers (identity : Identity) : Headers := [
  ("x-username", identity.username),
  ("x-user-id", identity.userId),
  ("x-user-role", identity.userRole),
  ("x-correlation-id", identity.correlationId.str)]

/-- A request as it arrives at a service. -/
structure Upstream where
  service : Service
  method : String
  path : List Char
  headers : Headers

/-- What a service is sent of a request; `none` is an answer of the gateway itself. Names that
cannot be sent in a header make the answer of `validate` an error. -/
def proxy (decodeAccessToken : String → Option Payload) (corrId : Uuid) (method target : String)
    (headers : Headers) : Option Upstream := do
  let (l, path) ← route target
  let upstream ← l.upstream target path
  if l.authRequest then
    match validate decodeAccessToken corrId (headers.lookup "authorization") (some target)
        (some method) with
    | .error _ => none
    | .ok identity =>
      if Header.isSendable identity.userId then
        some ⟨l.service, method, upstream, identity.headers.foldl setHeader headers⟩
      else none
  else some ⟨l.service, method, upstream, headers⟩

def Endpoint.template (e : Endpoint) : List Segment := .lit e.first :: e.rest

def Endpoint.takes (e : Endpoint) (u : Upstream) : Bool :=
  e.service = u.service && e.method = u.method && fitsPath e.template u.path

example : (⟨.auth, "GET", "internal", [.lit "cases", .param], .services⟩ : Endpoint).takes
    ⟨.auth, "GET", "/internal/cases/CASE-2025-001".toList, []⟩ = true := by decide

variable {decodeAccessToken : String → Option Payload} {corrId : Uuid} {method target : String}
  {headers : Headers} {u : Upstream} {e : Endpoint} {l : Location} {path upstream : List Char}
  {identity : Identity} {name value back : String}

/-- One text starts as the other goes on. -/
def Comparable (a b : List Char) : Bool := a.isPrefixOf b || b.isPrefixOf a

theorem comparable_of_prefixes {a b : List Char} (ha : a <+: path) (hb : b <+: path) :
    Comparable a b = true := by
  rw [Comparable, Bool.or_eq_true, List.isPrefixOf_iff_prefix, List.isPrefixOf_iff_prefix]
  exact List.prefix_or_prefix_of_prefix ha hb

theorem rewrite_prefix {front : String} (h : rewrite front back path = some upstream) :
    back.toList <+: upstream := by
  simp only [rewrite] at h
  split_ifs at h
  rw [← Option.some.inj h]
  exact List.prefix_append _ _

/-- What a location may put at the front of a path. -/
def Location.fronts (l : Location) : List String :=
  l.uri.toList ++ (rewriteRules.lookup l.path).toList

theorem upstream_front (h : l.upstream target path = some upstream) :
    (∃ front ∈ l.fronts, front.toList <+: upstream) ∨
      l.uri = none ∧ UrlPath.percentDecode (UrlPath.rawPath target.toList) = some upstream := by
  unfold Location.upstream Location.forward at h
  cases huri : l.uri with
  | some uri =>
    simp only [huri, Option.map_some, Option.some.injEq] at h
    exact .inl ⟨uri, by simp [Location.fronts, huri], h ▸ List.prefix_append _ _⟩
  | none =>
    simp only [huri, Option.map_none] at h
    split at h
    · rename_i changed hchanged
      obtain rfl := Option.some.inj h
      obtain ⟨back, hback, hrewrite⟩ := Option.bind_eq_some_iff.mp hchanged
      exact .inl ⟨back, by simp [Location.fronts, hback], rewrite_prefix hrewrite⟩
    · exact .inr ⟨rfl, h⟩

/-- Which endpoints a rewritten or replaced path may lead to. -/
theorem front_audience : ∀ l ∈ locations, ∀ front ∈ l.fronts, ∀ e ∈ endpoints,
    e.service = l.service → Comparable front.toList ('/' :: e.first.toList) = true →
      e.audience ≠ .services ∧ (l.authRequest = false → e.audience = .everyone) := by decide

/-- A path that starts as a location does starts as no route of its service does. -/
theorem location_incomparable : ∀ l ∈ locations, l.uri = none → ∀ e ∈ endpoints,
    e.service = l.service → Comparable l.path.toList ('/' :: e.first.toList) = false := by decide

/-- No route of the auth service leads out of its first segment. -/
theorem endpoint_stays : ∀ e ∈ endpoints, Literal e.first = true ∧
    (e.service = .auth → stays 0 e.rest = true) := by decide

theorem uriless_auth : ∀ l ∈ locations, l.uri = none → ∀ e ∈ endpoints, e.service = l.service →
    e.service = .auth := by decide

/-- A path that goes on as it was sent fits no route: resolved, it would start as the route does,
and it was resolved to a path that starts as the location does. -/
theorem raw_fits_none (hl : l ∈ locations) (huri : l.uri = none) (hc : l.covers path = true)
    (hn : UrlPath.normalize target.toList = some path)
    (hraw : UrlPath.percentDecode (UrlPath.rawPath target.toList) = some upstream)
    (he : e ∈ endpoints) (hs : e.service = l.service) :
    fitsPath e.template upstream = false := by
  by_contra hfits
  rw [Bool.not_eq_false] at hfits
  obtain ⟨hlit, hstays⟩ := endpoint_stays e he
  have hfirst : '/' :: e.first.toList <+: path := by
    unfold UrlPath.normalize at hn
    split at hn
    · rename_i cs hcs
      simp only [Option.bind_eq_bind, Option.bind_eq_some_iff, Option.some.injEq] at hn
      obtain ⟨decoded, hdecoded, segments, hsegments, rfl⟩ := hn
      have hslash : UrlPath.percentDecode ('/' :: cs) = (UrlPath.percentDecode cs).map ('/' :: ·) :=
        UrlPath.percentDecode.eq_4 _ _ (by simp) (by simp)
      rw [hcs, hslash, hdecoded, Option.map_some] at hraw
      obtain rfl := Option.some.inj hraw
      exact resolved_front hlit (hstays (uriless_auth l hl huri e he hs)) hfits hsegments
    · cases hn
  have hcomparable := comparable_of_prefixes (covers_iff.mp hc) hfirst
  rw [location_incomparable l hl huri e he hs] at hcomparable
  cases hcomparable

theorem lookup_filter (hne : name ≠ value) :
    (headers.filter fun h => h.1 ≠ value).lookup name = headers.lookup name := by
  induction headers with
  | nil => rfl
  | cons h headers ih =>
    obtain ⟨n, v⟩ := h
    by_cases hv : n = value
    · subst hv
      simpa [List.lookup_cons, beq_false_of_ne hne] using ih
    · simp only [List.filter_cons, hv, ne_eq, not_false_eq_true, decide_true, if_true,
        List.lookup_cons]
      rw [← ih]

theorem lookup_filter_self : (headers.filter fun h => h.1 ≠ name).lookup name = none := by
  rw [List.lookup_eq_none_iff]
  intro h hh
  have hne : h.1 ≠ name := of_decide_eq_true (List.mem_filter.mp hh).2
  simpa using hne.symm

theorem lookup_setHeader_self :
    (setHeader headers (name, value)).lookup name = Header.field value := by
  unfold setHeader
  cases hf : Header.field value with
  | none => exact lookup_filter_self
  | some v => simp

theorem lookup_setHeader_of_ne {header : String × String} (hne : name ≠ header.1) :
    (setHeader headers header).lookup name = headers.lookup name := by
  unfold setHeader
  cases hf : Header.field header.2 with
  | none => exact lookup_filter hne
  | some v => simpa [List.lookup_cons, beq_false_of_ne hne] using lookup_filter hne

theorem lookup_foldl_of_ne {set : Headers} (hne : ∀ h ∈ set, name ≠ h.1) :
    (set.foldl setHeader headers).lookup name = headers.lookup name := by
  induction set generalizing headers with
  | nil => rfl
  | cons h set ih =>
    rw [List.foldl_cons, ih fun g hg => hne g (List.mem_cons_of_mem h hg),
      lookup_setHeader_of_ne (hne h List.mem_cons_self)]

/-- Whatever the client sent under the names that are set, their values arrive. -/
theorem lookup_foldl {set : Headers} (hnodup : (set.map Prod.fst).Nodup)
    (hmem : (name, value) ∈ set) :
    (set.foldl setHeader headers).lookup name = Header.field value := by
  induction set generalizing headers with
  | nil => cases hmem
  | cons h set ih =>
    rw [List.map_cons, List.nodup_cons] at hnodup
    rw [List.foldl_cons]
    rcases List.mem_cons.mp hmem with rfl | hmem
    · have hne : ∀ g ∈ set, name ≠ g.1 := by
        intro g hg he
        exact hnodup.1 (List.mem_map.mpr ⟨g, hg, he.symm⟩)
      rw [lookup_foldl_of_ne hne, lookup_setHeader_self]
    · exact ih hnodup.2 hmem

theorem proxy_spec (h : proxy decodeAccessToken corrId method target headers = some u) :
    ∃ l path, route target = some (l, path) ∧ l.service = u.service ∧
      l.upstream target path = some u.path ∧ (l.authRequest = true → ∃ identity,
        validate decodeAccessToken corrId (headers.lookup "authorization") (some target)
          (some method) = .ok identity ∧ Header.isSendable identity.userId = true ∧
        u.headers = identity.headers.foldl setHeader headers) := by
  simp only [proxy, Option.bind_eq_bind, Option.bind_eq_some_iff] at h
  obtain ⟨⟨l, path⟩, hroute, upstream, hupstream, h⟩ := h
  refine ⟨l, path, hroute, ?_⟩
  cases hauth : l.authRequest with
  | false =>
    simp only [hauth, Bool.false_eq_true, if_false, Option.some.injEq] at h
    subst h
    exact ⟨rfl, hupstream, by simp⟩
  | true =>
    simp only [hauth, if_true] at h
    split at h
    · cases h
    · rename_i identity hvalid
      split_ifs at h with hsend
      rw [← Option.some.inj h]
      exact ⟨rfl, hupstream, fun _ => ⟨identity, hvalid, hsend, by with_reducible rfl⟩⟩

/-- A caller whom `validate` accepts is handed on under the identity that it answered with. -/
theorem proxy_of_validate (hroute : route target = some (l, path))
    (hupstream : l.upstream target path = some upstream) (hauth : l.authRequest = true)
    (hvalid : validate decodeAccessToken corrId (headers.lookup "authorization") (some target)
      (some method) = .ok identity) (hsend : Header.isSendable identity.userId = true) :
    proxy decodeAccessToken corrId method target headers =
      some ⟨l.service, method, upstream, identity.headers.foldl setHeader headers⟩ := by
  simp only [proxy, hroute, hupstream, hauth, hvalid, hsend, Option.bind_eq_bind, Option.bind_some,
    if_true]

theorem takes_audience (h : proxy decodeAccessToken corrId method target headers = some u)
    (he : e ∈ endpoints) (ht : e.takes u = true) : e.audience ≠ .services ∧
      ∃ l path, route target = some (l, path) ∧
        (l.authRequest = false → e.audience = .everyone) := by
  obtain ⟨l, path, hroute, hservice, hupstream, _⟩ := proxy_spec h
  simp only [Endpoint.takes, Bool.and_eq_true, decide_eq_true_eq] at ht
  obtain ⟨⟨hs, _⟩, hfits⟩ := ht
  rw [← hservice] at hs
  obtain ⟨hn, hlocate⟩ := route_iff.mp hroute
  obtain ⟨hl, hc⟩ := locate_spec hlocate
  rcases upstream_front hupstream with ⟨front, hfront, hprefix⟩ | ⟨huri, hraw⟩
  · obtain ⟨hservices, heveryone⟩ := front_audience l hl front hfront e he hs
      (comparable_of_prefixes hprefix (front_of_fitsPath hfits))
    exact ⟨hservices, l, path, hroute, heveryone⟩
  · rw [raw_fits_none hl huri hc hn hraw he hs] at hfits
    cases hfits

/-- Behind a route that reads an identity stands a request that `validate` has let through. -/
theorem identity_of_takes (h : proxy decodeAccessToken corrId method target headers = some u)
    (he : e ∈ endpoints) (ht : e.takes u = true) (hidentified : e.audience = .identified) :
    ∃ identity, validate decodeAccessToken corrId (headers.lookup "authorization") (some target)
        (some method) = .ok identity ∧ Header.isSendable identity.userId = true ∧
      ∀ name value, (name, value) ∈ identity.headers →
        u.headers.lookup name = Header.field value := by
  obtain ⟨_, l, path, hroute, heveryone⟩ := takes_audience h he ht
  obtain ⟨k, _, hroute', _, _, hauth⟩ := proxy_spec h
  obtain ⟨rfl, rfl⟩ := Prod.mk.inj (Option.some.inj (hroute.symm.trans hroute'))
  have hauthenticated : l.authRequest = true := by
    by_contra hno
    rw [Bool.not_eq_true] at hno
    rw [heveryone hno] at hidentified
    cases hidentified
  obtain ⟨identity, hvalid, hsend, hheaders⟩ := hauth hauthenticated
  refine ⟨identity, hvalid, hsend, fun name value hmem => ?_⟩
  have hnodup : (identity.headers.map Prod.fst).Nodup := by simp [Identity.headers]
  rw [hheaders, lookup_foldl hnodup hmem]

/-- Whatever a client sends, it reaches no internal route, and a route that reads an identity gets
the one that `validate` has answered with for this request, in place of the client's headers. -/
theorem complete_mediation (h : proxy decodeAccessToken corrId method target headers = some u)
    (he : e ∈ endpoints) (ht : e.takes u = true) : e.audience ≠ .services ∧
      (e.audience = .identified → ∃ identity, validate decodeAccessToken corrId
        (headers.lookup "authorization") (some target) (some method) = .ok identity ∧
          ∀ name value, (name, value) ∈ identity.headers →
            u.headers.lookup name = Header.field value) := by
  refine ⟨(takes_audience h he ht).1, fun hidentified => ?_⟩
  obtain ⟨identity, hvalid, _, hheaders⟩ := identity_of_takes h he ht hidentified
  exact ⟨identity, hvalid, hheaders⟩

/-- The token `t` is a reviewer's. -/
def reviewerTokens (token : String) : Option Payload :=
  if token = "t" then some ⟨some "reviewer01", some "legal_reviewer"⟩ else none

/-- A reviewer who claims to be an administrator reaches the ledger as a reviewer. -/
theorem forged_role_replaced : ∃ u identity,
    proxy reviewerTokens (.ofNat 1) "GET" "/api/ledger/records/CASE-2025-001"
      [("x-user-role", "admin"), ("authorization", "Bearer t")] = some u ∧
    validate reviewerTokens (.ofNat 1) (some "Bearer t")
      (some "/api/ledger/records/CASE-2025-001") (some "GET") = .ok identity ∧
    u.headers.lookup "x-user-role" = Header.field identity.userRole := by
  have htakes : (proxy reviewerTokens (.ofNat 1) "GET" "/api/ledger/records/CASE-2025-001"
      [("x-user-role", "admin"), ("authorization", "Bearer t")]).map
        (⟨.ledger, "GET", "ledger", [.lit "records", .param], .identified⟩ : Endpoint).takes =
          some true := by decide +kernel
  obtain ⟨u, hu, ht⟩ := Option.map_eq_some_iff.mp htakes
  obtain ⟨identity, hvalid, hheaders⟩ := (complete_mediation hu (by decide) ht).2 rfl
  exact ⟨u, identity, hu, hvalid, hheaders _ _ (by simp [Identity.headers])⟩

end ForensicChain.Gateway
