import ForensicChain.Evidence.Download
import ForensicChain.Gateway.Mediation

/-!
A GET request on its way through the gateway to the evidence collector, and who gets a stored file
in this way.
-/
namespace ForensicChain.Gateway

/-- What a request meets: the tokens, the stores, and the values that are drawn for it. -/
structure Setting where
  decodeAccessToken : String → Option Payload
  world : Evidence.World
  assigned : String → List String
  correlationId : Uuid
  freshId : Uuid
  eventId : Uuid
  timestamp : String
  ipAddress : Option String

/-- `other` is an answer of the gateway, of the router, or of another endpoint. -/
inductive Answer
  | rejected (error : HttpError)
  | file (response : Evidence.FileResponse)
  | other

/-- `request.headers.get(name, "unknown")`. -/
def Upstream.getHeader (u : Upstream) (name : String) : String :=
  (u.headers.lookup name).getD "unknown"

def Upstream.actor (u : Upstream) : Actor := ⟨u.getHeader "x-user-id", u.getHeader "x-user-role"⟩

def Upstream.downloadRequest (u : Upstream) (st : Setting) (artifactId : String) :
    Evidence.DownloadRequest where
  actor := u.actor
  correlationId := ((u.headers.lookup "x-correlation-id").bind Uuid.parse).getD st.freshId
  ipAddress := st.ipAddress
  artifactId := artifactId

/-- What the evidence collector answers; its router reads the path as text. -/
def evidenceGet (st : Setting) (u : Upstream) : Answer :=
  match Evidence.downloadRoute (UrlPath.text u.path) with
  | none => .other
  | some artifactId =>
    match Evidence.downloadEvidence st.world (st.assigned u.actor.actorId) st.eventId
        st.timestamp (u.downloadRequest st artifactId) with
    | .error e => .rejected e
    | .ok (response, _) => .file response

/-- Whether a target comes through as bytes. nginx refuses control characters and blanks, and
escapes a path again if it came with an escape. What it sends on as it is has to be ASCII. -/
def carried (target : String) : Bool :=
  let path := UrlPath.rawPath target.toList
  let sent := target.toList.takeWhile (· ≠ '#')
  let verbatim := if '%' ∈ path then sent.drop path.length else sent
  (target.toList.all fun c => 0x20 < c.toNat && c.toNat ≠ 0x7f) &&
    verbatim.all fun c => c.toNat < 0x80

def serveGet (st : Setting) (authorization : Option String) (target : String) : Answer :=
  let headers := authorization.toList.map fun value => ("authorization", value)
  match proxy st.decodeAccessToken st.correlationId "GET" target headers with
  | none => .other
  | some u => if u.service = .evidence ∧ carried target then evidenceGet st u else .other

/-- What follows the prefix `/api`, with a slash or a query behind it. -/
def downloadUri (id : String) (slash : Bool) (query : Option String) : String :=
  "/evidence/" ++ id ++ "/download" ++ (if slash then "/" else "") ++
    match query with
    | none => ""
    | some query => "?" ++ query

def downloadTarget (id : String) (slash : Bool) (query : Option String) : String :=
  "/api" ++ downloadUri id slash query

/-- The path of a target, decoded, resolved and read as UTF-8, is that of a download of a file that
is stored. -/
def NamesStoredFile (w : Evidence.World) (target : String) : Prop :=
  ∃ (rest : List Char) (text : String) (ending : List Char) (artifact : Evidence.Artifact)
    (content : List UInt8),
    UrlPath.normalize target.toList = some ("/api/evidence".toList ++ rest) ∧
    UrlPath.text rest = '/' :: (text.toList ++ ("/download".toList ++ ending)) ∧
    text ≠ "" ∧ '/' ∉ text.toList ∧ ending ∈ [[], ['\n']] ∧
    Evidence.requestedArtifact w.artifacts text = .ok artifact ∧ artifact.storagePath ≠ "" ∧
    w.files artifact.storagePath = some content

variable {st : Setting} {authorization : Option String} {target id token role : String}
  {slash : Bool} {query : Option String} {payload : Payload} {identity : Identity}
  {path rest : List Char} {l : Location} {u : Upstream}

def evidenceLocation : Location := ⟨"/api/evidence", true, .evidence, some "/evidence"⟩

/-- What the evidence collector is sent of a request to that location. -/
def Identity.forwards (identity : Identity) (authorization : Option String) (rest : List Char) :
    Upstream where
  service := .evidence
  method := "GET"
  path := "/evidence".toList ++ rest
  headers := identity.headers.foldl setHeader
    (authorization.toList.map fun value => ("authorization", value))

theorem evidence_locations : ∀ l ∈ locations, l.service = .evidence →
    l = evidenceLocation ∨ l.uri = some "/health" := by decide

theorem route_evidence : route target = some (evidenceLocation, path) ↔
    ∃ rest, path = "/api/evidence".toList ++ rest ∧
      UrlPath.normalize target.toList = some path := by
  rw [route_iff, locate_iff (by decide) (by decide)]
  constructor
  · rintro ⟨hnorm, rest, rfl⟩
    exact ⟨rest, rfl, hnorm⟩
  · rintro ⟨rest, rfl, hnorm⟩
    exact ⟨hnorm, List.prefix_append _ _⟩

theorem evidenceGet_file : (∃ response, evidenceGet st u = .file response) ↔
    ∃ artifactId, Evidence.downloadRoute (UrlPath.text u.path) = some artifactId ∧
      ∃ answer, Evidence.downloadEvidence st.world (st.assigned u.actor.actorId) st.eventId
        st.timestamp (u.downloadRequest st artifactId) = .ok answer := by
  unfold evidenceGet
  cases hroute : Evidence.downloadRoute (UrlPath.text u.path) with
  | none => simp
  | some artifactId =>
    cases hdown : Evidence.downloadEvidence st.world (st.assigned u.actor.actorId) st.eventId
        st.timestamp (u.downloadRequest st artifactId) with
    | error e => simp [hdown]
    | ok answer =>
      obtain ⟨response, env⟩ := answer
      simp [hdown]

/-- Bytes that start as no route of the evidence collector does lead to no file. -/
theorem evidenceGet_health (hpath : "/health".toList <+: u.path) :
    ¬ ∃ response, evidenceGet st u = .file response := by
  rw [evidenceGet_file]
  rintro ⟨artifactId, hdown, _⟩
  obtain ⟨rest, hrest⟩ := hpath
  obtain ⟨_, _, ending, _, heq⟩ := Evidence.downloadRoute_iff.mp hdown
  rw [← hrest, UrlPath.text_append (by simp)] at heq
  simp at heq

/-- A file comes from the evidence collector's location, to a caller that `validate` accepts. -/
theorem serveGet_file :
    (∃ response, serveGet st authorization target = .file response) ↔
    carried target = true ∧ ∃ rest identity,
      UrlPath.normalize target.toList = some ("/api/evidence".toList ++ rest) ∧
      validate st.decodeAccessToken st.correlationId authorization (some target) (some "GET") =
        .ok identity ∧
      Header.isSendable identity.userId = true ∧
      ∃ response, evidenceGet st (identity.forwards authorization rest) = .file response := by
  have hlookup : (authorization.toList.map fun value => ("authorization", value)).lookup
      "authorization" = authorization := by cases authorization <;> simp
  constructor
  · rintro ⟨response, h⟩
    simp only [serveGet] at h
    split at h
    · cases h
    · rename_i u hproxy
      split_ifs at h with hif
      obtain ⟨l, path, hroute, hservice, hupstream, hauth⟩ := proxy_spec hproxy
      have hl := (locate_spec (route_iff.mp hroute).2).1
      rcases evidence_locations l hl (hservice.trans hif.1) with rfl | huri
      · obtain ⟨rest, rfl, hnorm⟩ := route_evidence.mp hroute
        obtain ⟨identity, hvalid, hsend, _⟩ := hauth rfl
        have hforwards := proxy_of_validate hroute rfl rfl hvalid hsend
        obtain rfl := Option.some.inj (hproxy.symm.trans hforwards)
        exact ⟨hif.2, rest, identity, hnorm, hlookup ▸ hvalid, hsend, response, h⟩
      · have hpath : "/health".toList <+: u.path := by
          simp only [Location.upstream, Location.forward, huri, Option.map_some,
            Option.some.injEq] at hupstream
          exact hupstream ▸ List.prefix_append _ _
        exact (evidenceGet_health hpath ⟨response, h⟩).elim
  · rintro ⟨hcarried, rest, identity, hnorm, hvalid, hsend, response, h⟩
    have hroute := route_evidence.mpr ⟨rest, rfl, hnorm⟩
    rw [← hlookup] at hvalid
    have hproxy := proxy_of_validate hroute rfl rfl hvalid hsend
    refine ⟨response, ?_⟩
    simp only [serveGet, hproxy]
    rw [if_pos ⟨rfl, hcarried⟩]
    exact h

theorem downloadUri_toList : (downloadUri id slash query).toList =
    "/evidence/".toList ++ id.toList ++ "/download".toList ++
      ((if slash then ['/'] else []) ++ match query with
        | none => []
        | some query => '?' :: query.toList) := by
  cases slash <;> cases query <;> simp [downloadUri]

/-- Only a query keeps the rule of downloads from applying. -/
theorem download_applies (hid : id ≠ "") (hslash : '/' ∉ id.toList) :
    Regex.isMatch "^/evidence/[^/]+/download/?$" (downloadUri id slash query).toList = true ↔
      query = none := by
  rw [action_matches download_parse, downloadUri_toList]
  constructor
  · rintro ⟨other, ending, _, hother, hend, heq⟩
    simp only [List.append_assoc, List.append_cancel_left_eq] at heq
    obtain ⟨_, htail⟩ := Text.append_cons_inj hslash hother heq
    cases query with
    | none => rfl
    | some query =>
      have hmem : '?' ∈ ending := by
        rw [← List.append_cancel_left htail]
        simp
      simp only [endings, List.mem_cons, List.not_mem_nil, or_false] at hend
      rcases hend with rfl | rfl | rfl | rfl <;> simp at hmem
  · rintro rfl
    refine ⟨id.toList, if slash then ['/'] else [], by simpa using hid, hslash, ?_, by simp⟩
    cases slash <;> simp [endings]

/-- A role that may not download passes only as a reviewer, with a query. -/
theorem isAuthorized_download (hid : id ≠ "") (hslash : '/' ∉ id.toList)
    (hrole : role ∉ ["investigator", "forensic_analyst"]) :
    isAuthorized role "GET" (downloadUri id slash query) = true ↔
      role = "legal_reviewer" ∧ query ≠ none := by
  have hdown : Regex.isMatch _ (downloadUri id slash query).toList = true ↔ _ :=
    download_applies hid hslash
  have hread : Regex.isMatch "^/evidence" (downloadUri id slash query).toList = true := by
    have hparse : Regex.parse "^/evidence" = "/evidence".toList.map .char := by decide
    have hstart : "/evidence".toList <+: "/evidence/".toList := by decide
    rw [Regex.isMatch_chars hparse, downloadUri_toList]
    simp only [List.append_assoc]
    exact hstart.trans (List.prefix_append _ _)
  by_cases hquery : query = none
  · have hrule := hdown.mpr hquery
    simp_all [isAuthorized, rules, Rule.applies]
  · have hrule := mt hdown.mp hquery
    simp_all [isAuthorized, rules, Rule.applies]

/-- The evidence collector reads the role that `validate` answered with. -/
theorem forwards_role (hrole : identity.userRole = "legal_reviewer") :
    (identity.forwards authorization rest).actor.actorRole = "legal_reviewer" := by
  have hnodup : (identity.headers.map Prod.fst).Nodup := by simp [Identity.headers]
  have hmem : ("x-user-role", identity.userRole) ∈ identity.headers := by simp [Identity.headers]
  have hlookup : (identity.forwards authorization rest).headers.lookup "x-user-role" =
      Header.field identity.userRole := by
    rw [Identity.forwards, lookup_foldl hnodup hmem]
  have hfield : Header.field "legal_reviewer" = some "legal_reviewer" := by decide
  simp only [Upstream.actor, Upstream.getHeader, hlookup, hrole, hfield, Option.getD_some]

theorem evidenceGet_reviewer (hrole : u.actor.actorRole = "legal_reviewer") :
    (∃ response, evidenceGet st u = .file response) ↔
    ∃ artifactId, Evidence.downloadRoute (UrlPath.text u.path) = some artifactId ∧
      ∃ artifact content,
        Evidence.requestedArtifact st.world.artifacts artifactId = .ok artifact ∧
        artifact.storagePath ≠ "" ∧ st.world.files artifact.storagePath = some content := by
  have hi : u.actor.actorRole ≠ "investigator" := by simp [hrole]
  have hf : u.actor.actorRole ≠ "forensic_analyst" := by simp [hrole]
  rw [evidenceGet_file]
  refine exists_congr fun artifactId => and_congr_right fun _ => ?_
  exact Evidence.downloadEvidence_other (u.downloadRequest st artifactId) hi hf

/-- A reviewer's request for what follows the location gets the file that it names. -/
theorem forwards_file (hrole : identity.userRole = "legal_reviewer") :
    (∃ response, evidenceGet st (identity.forwards authorization rest) = .file response) ↔
    ∃ text ending artifact content,
      UrlPath.text rest = '/' :: (text.toList ++ ("/download".toList ++ ending)) ∧
      text ≠ "" ∧ '/' ∉ text.toList ∧ ending ∈ [[], ['\n']] ∧
      Evidence.requestedArtifact st.world.artifacts text = .ok artifact ∧
      artifact.storagePath ≠ "" ∧ st.world.files artifact.storagePath = some content := by
  have hpath : UrlPath.text (identity.forwards authorization rest).path =
      "/evidence".toList ++ UrlPath.text rest := UrlPath.text_append (by simp)
  have hslash : ∀ name, "/evidence/".toList ++ name = "/evidence".toList ++ '/' :: name :=
    fun name => rfl
  simp only [evidenceGet_reviewer (forwards_role hrole), hpath, Evidence.downloadRoute_iff, hslash,
    List.append_cancel_left_eq]
  constructor
  · rintro ⟨text, ⟨hne, htext, ending, hend, heq⟩, artifact, content, hstored⟩
    exact ⟨text, ending, artifact, content, heq, hne, htext, hend, hstored⟩
  · rintro ⟨text, ending, artifact, content, heq, hne, htext, hend, hstored⟩
    exact ⟨text, ⟨hne, htext, ending, hend, heq⟩, artifact, content, hstored⟩

/-- Who is no investigator and no analyst gets a file only as a reviewer who adds a query. -/
theorem serveGet_file_iff (hid : id ≠ "") (hslash : '/' ∉ id.toList)
    (htoken : st.decodeAccessToken token = some payload)
    (hrole : payload.role.getD "" ∉ ["investigator", "forensic_analyst"]) :
    (∃ response, serveGet st (some ("Bearer " ++ token)) (downloadTarget id slash query) =
      .file response) ↔
    payload.role.getD "" = "legal_reviewer" ∧ isLatin1 (payload.sub.getD "") = true ∧
      Header.isSendable (payload.sub.getD "") = true ∧ query ≠ none ∧
      carried (downloadTarget id slash query) = true ∧
      NamesStoredFile st.world (downloadTarget id slash query) := by
  have huri : Text.removePrefix "/api" (orDefault "/" (some (downloadTarget id slash query))) =
      downloadUri id slash query := by
    rw [orDefault_some (by simp [downloadTarget]), downloadTarget, Text.removePrefix_append]
  have hget : Text.upper (orDefault "GET" (some "GET")) = "GET" := by decide
  simp only [serveGet_file, validate_bearer htoken, huri, hget,
    isAuthorized_download hid hslash hrole]
  constructor
  · rintro ⟨hcarried, rest, identity, hnorm, ⟨⟨hrev, hquery⟩, hlatin, rfl⟩, hsend, hfile⟩
    obtain ⟨text, ending, artifact, content, hnames⟩ := (forwards_file hrev).mp hfile
    exact ⟨hrev, hlatin, hsend, hquery, hcarried, rest, text, ending, artifact, content, hnorm,
      hnames⟩
  · rintro ⟨hrev, hlatin, hsend, hquery, hcarried, rest, text, ending, artifact, content, hnorm,
      hnames⟩
    exact ⟨hcarried, rest, _, hnorm, ⟨⟨hrev, hquery⟩, hlatin, rfl⟩, hsend,
      (forwards_file hrev).mpr ⟨text, ending, artifact, content, hnames⟩⟩

def storedId : Uuid := .ofNat 1

def storedArtifact : Evidence.Artifact where
  artifactId := storedId
  caseId := "CASE-2025-001"
  fileName := "disk.img"
  fileSize := 1
  artifactType := "Disk Image"
  storagePath := Evidence.storagePath storedId
  description := none
  uploadedBy := "investigator01"
  status := .ingested
  hashValue := some (sha256 [0])
  hashAlgorithm := some "SHA-256"
  signatureValue := some "c2lnbmF0dXJl"
  ledgerRecordId := some (.ofNat 4)
  correlationId := some (.ofNat 2)

def reviewerSetting : Setting where
  decodeAccessToken token :=
    if token = "reviewer-token" then some ⟨some "reviewer01", some "legal_reviewer"⟩ else none
  world :=
    { artifacts := [storedArtifact]
      outbox := []
      files := fun path => if path = storedArtifact.storagePath then some [0] else none
      ledger := ⟨[], fun _ => none, fun _ => none, fun _ => none⟩ }
  assigned _ := []
  correlationId := .ofNat 2
  freshId := .ofNat 5
  eventId := .ofNat 3
  timestamp := "2025-01-01T00:00:00+00:00"
  ipAddress := none

theorem reviewer_token : reviewerSetting.decodeAccessToken "reviewer-token" =
    some ⟨some "reviewer01", some "legal_reviewer"⟩ := by
  simp [reviewerSetting]

theorem storedId_ne : storedId.str ≠ "" := by
  intro h
  have hlen := storedId.str_length
  rw [h] at hlen
  exact absurd hlen (by decide)

theorem storedId_slash : '/' ∉ storedId.str.toList := Uuid.str_notMem _ (by decide) (by decide)

theorem stored_normalize :
    UrlPath.normalize (downloadTarget storedId.str false (some "x=1")).toList =
      some ("/api/evidence".toList ++ '/' :: (storedId.str.toList ++ "/download".toList)) := by
  decide +kernel

theorem names_stored :
    NamesStoredFile reviewerSetting.world (downloadTarget storedId.str false (some "x=1")) := by
  refine ⟨_, storedId.str, [], storedArtifact, [0], stored_normalize, by decide +kernel,
    storedId_ne, storedId_slash, by simp, ?_, ?_, by simp [reviewerSetting]⟩
  · simp [Evidence.requestedArtifact, Uuid.parse_str, Evidence.findArtifact, reviewerSetting,
      storedArtifact]
  · simp [storedArtifact, Evidence.storagePath, Evidence.storageBase]

/-- Nobody but an investigator or an analyst gets a file, unless a reviewer adds a query. -/
theorem download_refused_iff (hid : id ≠ "") (hslash : '/' ∉ id.toList)
    (htoken : st.decodeAccessToken token = some payload)
    (hrole : payload.role.getD "" ∉ ["investigator", "forensic_analyst"]) :
    (∀ response, serveGet st (some ("Bearer " ++ token)) (downloadTarget id slash query) ≠
      .file response) ↔
    ¬ (payload.role.getD "" = "legal_reviewer" ∧ isLatin1 (payload.sub.getD "") = true ∧
      Header.isSendable (payload.sub.getD "") = true ∧ query ≠ none ∧
      carried (downloadTarget id slash query) = true ∧
      NamesStoredFile st.world (downloadTarget id slash query)) := by
  rw [← serveGet_file_iff hid hslash htoken hrole, not_exists]

theorem stored_refused_without_query :
    reviewerSetting.decodeAccessToken "reviewer-token" =
      some ⟨some "reviewer01", some "legal_reviewer"⟩ ∧
    ∀ response, serveGet reviewerSetting (some ("Bearer " ++ "reviewer-token"))
      (downloadTarget storedId.str false none) ≠ .file response :=
  ⟨reviewer_token,
    (download_refused_iff storedId_ne storedId_slash reviewer_token (by simp)).mpr (by simp)⟩

/-- The query `x=1` is enough. -/
theorem reviewer_gets_file : ¬ ∀ (st : Setting) (id token : String) (payload : Payload)
    (slash : Bool) (query : Option String), id ≠ "" → '/' ∉ id.toList → '?' ∉ id.toList →
    st.decodeAccessToken token = some payload →
    payload.role.getD "" ∉ ["investigator", "forensic_analyst"] → ∀ response,
      serveGet st (some ("Bearer " ++ token)) (downloadTarget id slash query) ≠ .file response := by
  intro h
  have hmark : '?' ∉ storedId.str.toList := Uuid.str_notMem _ (by decide) (by decide)
  have hnone := h reviewerSetting storedId.str "reviewer-token" _ false (some "x=1") storedId_ne
    storedId_slash hmark reviewer_token (by simp)
  obtain ⟨response, hfile⟩ :=
    (serveGet_file_iff storedId_ne storedId_slash reviewer_token (by simp)).mpr
      ⟨rfl, by decide, by decide, by simp, by decide +kernel, names_stored⟩
  exact hnone response hfile

end ForensicChain.Gateway
