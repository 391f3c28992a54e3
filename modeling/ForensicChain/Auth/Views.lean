import ForensicChain.Auth.Lookup
import Mathlib.Data.List.Sort

/-!
What the auth service shows of assignments: the cases that an uploader may choose from, the
assignments of a case, and the numbers that the domain services check against.
-/
namespace ForensicChain.Auth

section

-- The order of the collation that the database sorts texts by.
variable (collate : String → String → Prop) [DecidableRel collate]

/-- The join of `list_assigned_open_cases`. -/
def Db.assignedOpenCases (db : Db) (xUserId : Option String) : List Case :=
  db.cases.flatMap fun c =>
    (db.assignments.filter fun a => c.id = a.caseId ∧ c.status = "OPEN" ∧
      some a.username = xUserId ∧ a.isActive).map fun _ => c

/-- `list_assigned_open_cases`, which orders the cases by their numbers. -/
def listAssignedOpenCases (db : Db) (xUserId : Option String) : Except HttpError (List Case) :=
  if ∃ name ∈ xUserId, '\x00' ∈ name.toList then .error .unhandled
  else .ok ((db.assignedOpenCases xUserId).insertionSort fun c d =>
    collate c.caseNumber d.caseNumber)

end

/-- `list_assignments` after its check: `ORDER BY assigned_at`, ties in any order. -/
def ListAssignments (db : Db) (caseId : String) (rows : List CaseAssignment) : Prop :=
  '\x00' ∉ caseId.toList ∧
    rows.Perm (db.assignments.filter fun a => a.caseId = caseId ∧ a.isActive) ∧
    rows.Pairwise fun a b => a.assignedAt ≤ b.assignedAt

variable {bcrypt : Bcrypt} {db db' : Db} {name caseNumber : String}

/-- Ids and numbers name one case; a user is assigned to a case once, and actively. -/
structure CaseKeys (db : Db) : Prop where
  ids : (db.cases.map Case.id).Nodup
  numbers : (db.cases.map Case.caseNumber).Nodup
  assigned : (db.assignments.map fun a => (a.caseId, a.username)).Nodup
  active : ∀ a ∈ db.assignments, a.isActive = true

theorem createAssignment_new {fresh : Fresh} {caller : Caller} {caseId : String}
    {body : CreateAssignmentIn} {row : CaseAssignment}
    (h : createAssignment fresh db caller caseId body = .ok (db', row)) :
    row.isActive = true ∧ (∀ other ∈ db.assignments,
      ¬ (other.caseId = row.caseId ∧ other.username = row.username)) ∧
      db' = { db with assignments := db.assignments ++ [row] } := by
  simp only [createAssignment, Evidence.bind_ok, requireAdmin_ok, ensure_ok, orRaise_ok,
    commit_ok] at h
  obtain ⟨_, _, _, _, _, _, _, _, _, _, _, _, _, _, _, _, hinsert⟩ := h
  obtain ⟨hstore, _, hkeys, rfl⟩ := insertAssignment_ok hinsert
  obtain ⟨_, _, hrow, _⟩ := CaseAssignment.store_eq hstore
  exact ⟨by rw [hrow], fun other hmem => (hkeys other hmem).2, rfl⟩

theorem caseKeys_updateCases {f : Case → Case} (h : CaseKeys db)
    (hf : ∀ c, (f c).id = c.id ∧ (f c).caseNumber = c.caseNumber) :
    CaseKeys { db with cases := db.cases.map f } where
  ids := by simpa [Function.comp_def, hf] using h.ids
  numbers := by simpa [Function.comp_def, hf] using h.numbers
  assigned := h.assigned
  active := h.active

theorem serves_caseKeys {r : Request} (h : Serves bcrypt db r db') (hk : CaseKeys db) :
    CaseKeys db' := by
  cases h with
  | createUser fresh h =>
    obtain ⟨u, _, _, _, _, rfl⟩ := createUser_ok h
    exact ⟨hk.ids, hk.numbers, hk.assigned, hk.active⟩
  | deleteUser h =>
    obtain ⟨_, u, _, _, _, rfl⟩ := deleteUser_ok h
    exact ⟨hk.ids, hk.numbers, hk.assigned, hk.active⟩
  | createCase fresh h =>
    obtain ⟨_, _, hnew, rfl⟩ := createCase_ok h
    refine ⟨?_, ?_, hk.assigned, hk.active⟩
    · rw [List.map_append]
      exact hk.ids.append (List.nodup_singleton _) (by simpa using fun c hc => (hnew c hc).1)
    · rw [List.map_append]
      exact hk.numbers.append (List.nodup_singleton _) (by simpa using fun c hc => (hnew c hc).2)
  | updateCaseStatus h =>
    obtain ⟨f, hf, rfl⟩ := updateCaseStatus_ok h
    exact caseKeys_updateCases hk hf
  | createAssignment fresh h =>
    obtain ⟨hactive, hnew, rfl⟩ := createAssignment_new h
    refine ⟨hk.ids, hk.numbers, ?_, ?_⟩
    · rw [List.map_append]
      refine hk.assigned.append (List.nodup_singleton _) ?_
      simpa using fun other hmem hcase hname => hnew other hmem ⟨hcase, hname⟩
    · intro a ha
      rcases List.mem_append.mp ha with ha | ha
      · exact hk.active a ha
      · rw [List.mem_singleton.mp ha]
        exact hactive
  | deleteAssignment h =>
    obtain ⟨p, rfl⟩ := deleteAssignment_ok h
    exact ⟨hk.ids, hk.numbers, hk.assigned.sublist (List.filter_sublist.map _),
      fun a ha => hk.active a (List.mem_filter.mp ha).1⟩
  | login h => exact hk

theorem seeding_caseKeys {fresh : String → Fresh}
    (h : seedPredefinedUsers bcrypt fresh db = some db') (hk : CaseKeys db) : CaseKeys db' := by
  refine seeds_invariant h hk ?_
  intro seed _ s t hs hk
  rcases seedUser_some hs with ⟨rfl, _⟩ | ⟨u, _, _, _, rfl⟩
  · exact hk
  · exact ⟨hk.ids, hk.numbers, hk.assigned, hk.active⟩

theorem caseKeys_reachable (h : (system bcrypt).Reachable db) : CaseKeys db := by
  refine h.invariant ?_ ?_
  · rintro db ⟨fresh, hseed⟩
    exact seeding_caseKeys hseed ⟨by simp, by simp, by simp, by simp⟩
  · intro s a t hk hs
    cases hs with
    | served h => exact serves_caseKeys h hk
    | failed => exact hk
    | restart fresh h => exact seeding_caseKeys h hk
    | restartFailed => exact hk

theorem mem_assignedOpenCases {c : Case} : c ∈ db.assignedOpenCases (some name) ↔
    c ∈ db.cases ∧ c.status = "OPEN" ∧
      ∃ a ∈ db.assignments, a.caseId = c.id ∧ a.username = name ∧ a.isActive = true := by
  simp only [Db.assignedOpenCases, List.mem_flatMap, List.mem_map, List.mem_filter,
    decide_eq_true_eq, Option.some.injEq]
  constructor
  · rintro ⟨d, hd, a, ⟨ha, hid, hopen, hname, hactive⟩, rfl⟩
    exact ⟨hd, hopen, a, ha, hid.symm, hname, hactive⟩
  · rintro ⟨hc, hopen, a, ha, hid, hname, hactive⟩
    exact ⟨c, hc, a, ⟨ha, hid.symm, hopen, hname, hactive⟩, rfl⟩

/-- Different assignments of one user are to different cases. -/
theorem CaseKeys.apart (hk : CaseKeys db) (name : String) :
    (db.assignments.filter fun a => a.username = name ∧ a.isActive).Pairwise
      fun a b => a.caseId ≠ b.caseId := by
  have hpairs := (List.pairwise_map.mp hk.assigned).filter
    fun a => decide (a.username = name ∧ a.isActive = true)
  refine hpairs.imp_of_mem ?_
  intro a b ha hb hne hcase
  have haname := (of_decide_eq_true (List.mem_filter.mp ha).2).1
  have hbname := (of_decide_eq_true (List.mem_filter.mp hb).2).1
  exact hne (Prod.ext hcase (haname.trans hbname.symm))

/-- No number is listed twice. -/
theorem getUserAssignments_nodup (hk : CaseKeys db) {numbers : List String}
    (h : db.getUserAssignments name = .ok numbers) : numbers.Nodup := by
  unfold Db.getUserAssignments at h
  split_ifs at h
  obtain rfl := Except.ok.inj h
  rw [List.nodup_flatMap]
  refine ⟨?_, ?_⟩
  · intro a _
    exact hk.numbers.sublist (List.filter_sublist.map _)
  · refine (hk.apart name).imp ?_
    intro a b hne number ha hb
    obtain ⟨c, hc, hcn⟩ := List.mem_map.mp ha
    obtain ⟨d, hd, hdn⟩ := List.mem_map.mp hb
    obtain ⟨hc, hca⟩ := List.mem_filter.mp hc
    obtain ⟨hd, hdb⟩ := List.mem_filter.mp hd
    have hcd : c = d := List.inj_on_of_nodup_map hk.numbers hc hd (hcn.trans hdn.symm)
    exact hne ((of_decide_eq_true hca).1.symm.trans (hcd ▸ (of_decide_eq_true hdb).1))

theorem assignedOpenCases_nodup (hk : CaseKeys db) :
    ((db.assignedOpenCases (some name)).map Case.caseNumber).Nodup := by
  have hcases : db.cases.Nodup := .of_map _ hk.ids
  have hrows : (db.assignedOpenCases (some name)).Nodup := by
    rw [Db.assignedOpenCases, List.nodup_flatMap]
    refine ⟨?_, ?_⟩
    · intro c _
      -- at most one assignment is left by the filter
      have hpairs := (List.pairwise_map.mp hk.assigned).filter fun a =>
        decide (c.id = a.caseId ∧ c.status = "OPEN" ∧ some a.username = some name ∧
          a.isActive = true)
      refine List.pairwise_map.mpr (hpairs.imp_of_mem ?_)
      intro a b ha hb hne
      obtain ⟨haid, _, haname, _⟩ := of_decide_eq_true (List.mem_filter.mp ha).2
      obtain ⟨hbid, _, hbname, _⟩ := of_decide_eq_true (List.mem_filter.mp hb).2
      exact (hne (Prod.ext (haid.symm.trans hbid)
        (Option.some.inj (haname.trans hbname.symm)))).elim
    · refine hcases.imp ?_
      intro c d hne e hc hd
      obtain ⟨_, _, rfl⟩ := List.mem_map.mp hc
      obtain ⟨_, _, rfl⟩ := List.mem_map.mp hd
      exact hne rfl
  refine hrows.map_on ?_
  intro c hc d hd heq
  exact List.inj_on_of_nodup_map hk.numbers (mem_assignedOpenCases.mp hc).1
    (mem_assignedOpenCases.mp hd).1 heq

/-- An open case is found under its number. -/
theorem getCaseByNumber_of_mem (hk : CaseKeys db) {c : Case} (hc : c ∈ db.cases)
    (hopen : c.status = "OPEN") (hnul : '\x00' ∉ c.caseNumber.toList) :
    db.getCaseByNumber c.caseNumber = .ok c := by
  have hmem : c ∈ db.cases.filter fun c => c.status = "OPEN" :=
    List.mem_filter.mpr ⟨hc, decide_eq_true hopen⟩
  have hfind : (db.cases.filter fun c => c.status = "OPEN").find?
      (fun d => d.caseNumber = c.caseNumber) = some c := by
    cases hfound : (db.cases.filter fun c => c.status = "OPEN").find?
        (fun d => d.caseNumber = c.caseNumber) with
    | none => exact absurd (decide_eq_true rfl) (List.find?_eq_none.mp hfound c hmem)
    | some d =>
      have hd := (List.mem_filter.mp (List.mem_of_find?_eq_some hfound)).1
      have hnumber : d.caseNumber = c.caseNumber := by simpa using List.find?_some hfound
      rw [List.inj_on_of_nodup_map hk.numbers hd hc hnumber]
  rw [Db.getCaseByNumber, Db.select, if_neg hnul, hfind]

variable {service : DomainService} {identity : Gateway.Identity}
  {decodeAccessToken : String → Option Gateway.Payload} {corrId : Uuid}
  {authorization xOriginalUri xOriginalMethod : Option String} {numbers : List String}

theorem plain_notMem_nul (h : Plain name) : '\x00' ∉ name.toList := by
  intro hmem
  have hsend := List.all_eq_true.mp h.sendable _ hmem
  simp at hsend

theorem plain_field (h : Plain name) : Header.field name = some name := by
  rw [Header.field, h.blanks, if_neg h.nonempty]

/-- For a plain name a domain service obtains what `get_user_assignments` answers. -/
theorem obtainedNumbers_plain (h : Plain identity.userId)
    (hlatin : Gateway.isLatin1 identity.userId = true)
    (hnumbers : obtainedNumbers service db identity = some numbers) :
    userIdHeader identity = some (some identity.userId) ∧
      db.getUserAssignments identity.userId = .ok numbers := by
  have hheader : userIdHeader identity = some (some identity.userId) := by
    rw [userIdHeader, h.sendable, if_pos rfl, plain_field h]
  refine ⟨hheader, ?_⟩
  have hactor : service.actorId (some identity.userId) = some identity.userId := by
    cases service <;> rfl
  rw [obtainedNumbers, hheader] at hnumbers
  simp only [Option.bind_eq_bind, Option.bind_some, hactor, getAssignedCaseNumbers,
    lookupEndpoint_plain h hlatin, Endpoint.caseNumbers] at hnumbers
  cases hget : db.getUserAssignments identity.userId with
  | error error => simp [hget, Except.toOption] at hnumbers
  | ok found =>
    simp only [hget, Except.toOption, Option.some.injEq] at hnumbers
    rw [hnumbers]

/-- Whatever was created, closed, assigned or deleted: for the bearer of a plain name, the cases
offered for an upload are the ones that every domain service checks against, each once and open
under its number, and they are those whose assignments list the name. -/
theorem views_agree (collate : String → String → Prop) [DecidableRel collate]
    (h : (system bcrypt).Reachable db)
    (hv : Gateway.validate decodeAccessToken corrId authorization xOriginalUri xOriginalMethod =
      .ok identity) (hn : Plain identity.userId)
    (hnumbers : obtainedNumbers service db identity = some numbers) :
    ∃ header rows, userIdHeader identity = some header ∧
      listAssignedOpenCases collate db header = .ok rows ∧ numbers.Nodup ∧
      (rows.map Case.caseNumber).Perm numbers ∧
      (∀ number ∈ numbers, ∃ c ∈ rows, db.getCaseByNumber number = .ok c) ∧
      ∀ c ∈ db.cases, ∀ assignments, ListAssignments db c.id assignments →
        (c ∈ rows ↔ c.status = "OPEN" ∧ ∃ a ∈ assignments, a.username = identity.userId) := by
  have hk := caseKeys_reachable h
  have hkeys := keys_reachable h
  obtain ⟨_, _, _, _, _, hlatin, hidentity⟩ := Gateway.validate_ok.mp hv
  have hlatin' : Gateway.isLatin1 identity.userId = true := by
    rw [hidentity]
    exact hlatin
  obtain ⟨hheader, hget⟩ := obtainedNumbers_plain hn hlatin' hnumbers
  have hnul : ¬ ∃ name ∈ some identity.userId, '\x00' ∈ name.toList := by
    simpa using plain_notMem_nul hn
  have hperm := List.perm_insertionSort (fun c d : Case => collate c.caseNumber d.caseNumber)
    (db.assignedOpenCases (some identity.userId))
  have hmem : ∀ c, c ∈ (db.assignedOpenCases (some identity.userId)).insertionSort
      (fun c d => collate c.caseNumber d.caseNumber) ↔ c ∈ db.cases ∧ c.status = "OPEN" ∧
        ∃ a ∈ db.assignments, a.caseId = c.id ∧ a.username = identity.userId ∧
          a.isActive = true := fun c => hperm.mem_iff.trans mem_assignedOpenCases
  have hdistinct := getUserAssignments_nodup hk hget
  refine ⟨_, _, hheader, by rw [listAssignedOpenCases, if_neg hnul], hdistinct, ?_, ?_, ?_⟩
  · refine (List.perm_ext_iff_of_nodup ((hperm.map _).nodup_iff.mpr (assignedOpenCases_nodup hk))
      hdistinct).mpr ?_
    intro number
    rw [mem_getUserAssignments hget, List.mem_map]
    constructor
    · rintro ⟨c, hc, rfl⟩
      obtain ⟨hc, hopen, a, ha, hid, hname, hactive⟩ := (hmem c).mp hc
      exact ⟨a, ha, hname, hactive, c, hc, hid.symm, hopen, rfl⟩
    · rintro ⟨a, ha, hname, hactive, c, hc, hid, hopen, rfl⟩
      exact ⟨c, (hmem c).mpr ⟨hc, hopen, a, ha, hid.symm, hname, hactive⟩, rfl⟩
  · intro number hnumber
    obtain ⟨a, ha, hname, hactive, c, hc, hid, hopen, rfl⟩ :=
      (mem_getUserAssignments hget).mp hnumber
    exact ⟨c, (hmem c).mpr ⟨hc, hopen, a, ha, hid.symm, hname, hactive⟩,
      getCaseByNumber_of_mem hk hc hopen (notMem_nul_caseNumber (hkeys.numbers c hc))⟩
  · rintro c hc assignments ⟨_, hlist, _⟩
    rw [hmem c]
    constructor
    · rintro ⟨_, hopen, a, ha, hid, hname, hactive⟩
      exact ⟨hopen, a, hlist.mem_iff.mpr (List.mem_filter.mpr
        ⟨ha, decide_eq_true ⟨hid, hactive⟩⟩), hname⟩
    · rintro ⟨hopen, a, ha, hname⟩
      obtain ⟨ha, hkeep⟩ := List.mem_filter.mp (hlist.mem_iff.mp ha)
      obtain ⟨hid, hactive⟩ := of_decide_eq_true hkeep
      exact ⟨hc, hopen, a, ha, hid, hname, hactive⟩

theorem investigator_plain : Plain "investigator01" where
  nonempty := by decide
  blanks := by decide
  sendable := by decide
  noTab := by decide
  separators := List.all_iff_forall_prop.mp (by decide)
  dots := by decide

theorem investigator_views : ∃ header rows,
    userIdHeader ⟨"investigator01", "investigator01", "investigator", .ofNat 0⟩ = some header ∧
    listAssignedOpenCases (fun a b => a ≤ b) assignedDb header = .ok rows ∧
    ∃ c ∈ rows, assignedDb.getCaseByNumber "CASE-2025-001" = .ok c := by
  have hreach : (system plainBcrypt).Reachable assignedDb :=
    assigned_run (.init seeded_initial) fun _ _ => ⟨trivial, trivial⟩
  have hvalid : Gateway.validate (fun _ => some ⟨some "investigator01", some "investigator"⟩)
      (.ofNat 0) (some "Bearer t") (some "/api/cases") (some "GET") =
        .ok ⟨"investigator01", "investigator01", "investigator", .ofNat 0⟩ := by rfl
  have hobtained : obtainedNumbers .evidence assignedDb
      ⟨"investigator01", "investigator01", "investigator", .ofNat 0⟩ =
        some ["CASE-2025-001"] := by decide +kernel
  obtain ⟨header, rows, hheader, hrows, _, _, hopen, _⟩ :=
    views_agree (fun a b => a ≤ b) hreach hvalid investigator_plain hobtained
  exact ⟨header, rows, hheader, hrows, hopen _ (List.mem_singleton_self _)⟩

end ForensicChain.Auth
