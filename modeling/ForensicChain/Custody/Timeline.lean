import ForensicChain.Custody.Envelope
import ForensicChain.Library.DateTime

/-!
`get_custody_timeline`. The endpoint compares the stored links in timestamp order; it never
recomputes an event hash.
-/
namespace ForensicChain.Custody

/-- `ORDER BY timestamp ASC, id ASC`. -/
def getTimeline (events : List CustodyEvent) (artifactId : Uuid) : List CustodyEvent :=
  (artifactEvents events artifactId).insertionSort
    (OrderBy.Asc CustodyEvent.timestamp CustodyEvent.id)

/-- The loop of `_validate_chain`, with the hash of the event before. -/
def validateLinks (expectedPrev : Option String) : List CustodyEvent → Bool
  | [] => true
  | event :: events =>
    if event.previousEventHash ≠ expectedPrev then false
    else validateLinks (some event.eventHash) events

def validateChain (events : List CustodyEvent) : Bool := validateLinks none events

structure CustodyEventOut where
  eventId : String
  eventType : String
  actorId : String
  actorRole : String
  timestamp : Timestamp
  reason : Option String
  ipAddress : Option String
  eventHash : String
  previousEventHash : Option String

def modelValidate (e : CustodyEvent) : CustodyEventOut where
  eventId := e.eventId.str
  eventType := e.eventType
  actorId := e.actorId
  actorRole := e.actorRole
  timestamp := e.timestamp
  reason := e.reason
  ipAddress := e.ipAddress
  eventHash := e.eventHash
  previousEventHash := e.previousEventHash

structure TimelineResponse where
  artifactId : String
  totalEvents : Nat
  chainValid : Bool
  events : List CustodyEventOut

/-- A header or column that counts as missing. -/
def Missing (value : Option String) : Prop := value = none ∨ value = some ""

instance : DecidablePred Missing := fun _ => inferInstanceAs (Decidable (_ ∨ _))

def getCustodyTimeline (stored : List CustodyEvent) (artifactId : Uuid)
    (xUserId : Option String) (assigned : List String) : Except HttpError TimelineResponse :=
  match getTimeline stored artifactId with
  | [] => .error ⟨404, "No custody events found for artifact " ++ artifactId.str⟩
  | first :: rest =>
    if Missing first.caseId ∨ Missing xUserId then
      .error ⟨403, "Cannot verify case assignment"⟩
    else if first.caseId.getD "" ∉ assigned then
      .error ⟨403, "Not assigned to this case"⟩
    else .ok {
      artifactId := artifactId.str
      totalEvents := (first :: rest).length
      chainValid := validateChain (first :: rest)
      events := (first :: rest).map modelValidate }

/-- The caller is let through: the first event names a case that is assigned to them. -/
def MayRead (stored : List CustodyEvent) (artifactId : Uuid) (xUserId : Option String)
    (assigned : List String) : Prop :=
  ∃ first ∈ (getTimeline stored artifactId).head?,
    ¬ Missing first.caseId ∧ ¬ Missing xUserId ∧ first.caseId.getD "" ∈ assigned

variable {s : Store} {e e' f : CustodyEvent} {stored events : List CustodyEvent}
  {artifactId : Uuid} {xUserId : Option String} {assigned : List String} {p : Option String}
  {fromisoformat : String → Option Timestamp}

theorem validateLinks_eq_true : validateLinks p events = true ↔
    HashChain.Linked CustodyEvent.previousEventHash CustodyEvent.eventHash p events := by
  induction events generalizing p with
  | nil => simp [validateLinks, HashChain.Linked]
  | cons e events ih =>
    by_cases hp : e.previousEventHash = p
    · simp [validateLinks, HashChain.Linked, hp, ih]
    · simp [validateLinks, HashChain.Linked, hp]

/-- The endpoint answers those who may read, with the verdict over the timeline. -/
theorem getCustodyTimeline_chainValid {b : Bool} :
    (∃ response, getCustodyTimeline stored artifactId xUserId assigned = .ok response ∧
      response.chainValid = b) ↔
      MayRead stored artifactId xUserId assigned ∧
        validateChain (getTimeline stored artifactId) = b := by
  unfold getCustodyTimeline MayRead
  cases getTimeline stored artifactId with
  | nil => simp
  | cons first rest =>
    by_cases hm : Missing first.caseId ∨ Missing xUserId
    · rcases hm with hm | hm <;> simp [hm]
    · rw [not_or] at hm
      by_cases ha : first.caseId.getD "" ∈ assigned <;> simp [hm, ha]

/-- Another value in one or more of the hashed content columns; keys, links and hash stay. -/
structure ContentChange (e e' : CustodyEvent) : Prop where
  id : e'.id = e.id
  eventId : e'.eventId = e.eventId
  artifactId : e'.artifactId = e.artifactId
  previousEventHash : e'.previousEventHash = e.previousEventHash
  eventHash : e'.eventHash = e.eventHash
  changed : e' ≠ e

/-- The table after the row with the key of `e` was rewritten to `e'`. -/
def rewrite (e e' : CustodyEvent) (stored : List CustodyEvent) : List CustodyEvent :=
  stored.map fun f => if f.id = e.id then e' else f

/-- The rewritten row stands elsewhere in the timestamp order than before. -/
def Reorders (stored : List CustodyEvent) (e e' : CustodyEvent) : Prop :=
  (getTimeline (rewrite e e' stored) e.artifactId).map CustodyEvent.id ≠
    (getTimeline stored e.artifactId).map CustodyEvent.id

section

variable (hc : ContentChange e e') (hkey : ∀ f ∈ events, f.id = e.id → f = e)

include hkey

theorem map_rewrite {κ : Type} {key : CustodyEvent → κ} (hk : key e' = key e) :
    (rewrite e e' events).map key = events.map key := by
  simp only [rewrite, List.map_map]
  apply List.map_congr_left
  intro f hf
  by_cases hfe : f.id = e.id
  · simp [hkey f hf hfe, hk]
  · simp [hfe]

include hc

theorem linked_rewrite :
    HashChain.Linked CustodyEvent.previousEventHash CustodyEvent.eventHash p (rewrite e e' events) ↔
      HashChain.Linked CustodyEvent.previousEventHash CustodyEvent.eventHash p events := by
  induction events generalizing p with
  | nil => rfl
  | cons f events ih =>
    have hrest := fun p => ih (p := p) fun g hg => hkey g (List.mem_cons_of_mem _ hg)
    by_cases hf : f.id = e.id
    · obtain rfl := hkey f List.mem_cons_self hf
      simpa [rewrite, HashChain.Linked, hc.previousEventHash, hc.eventHash] using
        fun _ => hrest _
    · simpa [rewrite, hf, HashChain.Linked] using fun _ => hrest _

theorem artifactEvents_rewrite : artifactEvents (rewrite e e' events) artifactId =
    rewrite e e' (artifactEvents events artifactId) := by
  simp only [artifactEvents, rewrite, List.filter_map]
  congr 1
  apply List.filter_congr
  intro f hf
  by_cases hfe : f.id = e.id
  · simp [hkey f hf hfe, hc.artifactId]
  · simp [hfe]

/-- Rewriting one row moves the rows of the timeline, and rewrites that one. -/
theorem getTimeline_rewrite_perm :
    (getTimeline (rewrite e e' events) artifactId).Perm
      (rewrite e e' (getTimeline events artifactId)) := by
  rw [getTimeline, artifactEvents_rewrite hc hkey]
  apply (List.perm_insertionSort _ _).trans
  exact (List.perm_insertionSort _ _).symm.map _

end

theorem mem_getTimeline : f ∈ getTimeline stored artifactId ↔
    f ∈ stored ∧ f.artifactId = artifactId := by
  simp [getTimeline, artifactEvents]

theorem getTimeline_nodup {κ : Type} {key : CustodyEvent → κ}
    (h : (stored.map key).Nodup) : ((getTimeline stored artifactId).map key).Nodup := by
  rw [getTimeline, ((List.perm_insertionSort _ _).map key).nodup_iff]
  exact h.sublist (List.filter_sublist.map key)

/-- After a content change the links still hold exactly if the order is what it was. -/
theorem validateChain_rewrite (hs : StoreInvariant s) (hcf : CollisionFree {x | x ∈ s.hashed})
    (he : e ∈ s.events) (hc : ContentChange e e')
    (hvalid : validateChain (getTimeline s.events e.artifactId) = true) :
    validateChain (getTimeline (rewrite e e' s.events) e.artifactId) = false ↔
      Reorders s.events e e' := by
  have hids : (s.events.map CustodyEvent.id).Nodup := by
    rw [List.nodup_iff_pairwise_ne, List.pairwise_map]
    exact hs.ids.imp fun h => h.ne
  have hkey : ∀ f ∈ s.events, f.id = e.id → f = e :=
    fun f hf => List.inj_on_of_nodup_map hids hf he
  have hkeyT : ∀ f ∈ getTimeline s.events e.artifactId, f.id = e.id → f = e :=
    fun f hf => hkey f (mem_getTimeline.mp hf).1
  have hhash : ((getTimeline s.events e.artifactId).map CustodyEvent.eventHash).Nodup := by
    apply getTimeline_nodup
    refine List.Nodup.map_on ?_ (List.Nodup.of_map _ hids)
    exact fun f hf g hg => hs.eventHash_inj hcf hf hg
  have hperm : (getTimeline (rewrite e e' s.events) e.artifactId).Perm
      (rewrite e e' (getTimeline s.events e.artifactId)) := getTimeline_rewrite_perm hc hkey
  have hlinked := (linked_rewrite hc hkeyT (p := none)).mpr (validateLinks_eq_true.mp hvalid)
  rw [← Bool.not_eq_true, validateChain, validateLinks_eq_true, Reorders, not_iff_not]
  constructor
  · intro hlink
    have heq := HashChain.order_unique (by rwa [map_rewrite hkeyT hc.eventHash]) hlinked hlink
      hperm.symm
    rw [← heq, map_rewrite hkeyT hc.id]
  · intro hmap
    have heq : getTimeline (rewrite e e' s.events) e.artifactId =
        rewrite e e' (getTimeline s.events e.artifactId) := by
      have hnd :
          ((getTimeline (rewrite e e' s.events) e.artifactId).map CustodyEvent.id).Nodup := by
        rw [hmap]
        exact getTimeline_nodup hids
      apply OrderBy.eq_of_perm_of_map_eq hperm hnd
      rw [hmap, map_rewrite hkeyT hc.id]
    rwa [heq]

/-- The endpoint reports a content change if and only if it moves the event in the timestamp
order and the caller may still read the timeline. -/
theorem timeline_change_reported_iff (h : (consumer fromisoformat).Reachable s)
    (hcf : CollisionFree {x | x ∈ s.hashed}) (he : e ∈ s.events) (hc : ContentChange e e')
    (hvalid : ∃ response, getCustodyTimeline s.events e.artifactId xUserId assigned =
      .ok response ∧ response.chainValid = true) :
    (∃ response, getCustodyTimeline (rewrite e e' s.events) e.artifactId xUserId assigned =
      .ok response ∧ response.chainValid = false) ↔
      Reorders s.events e e' ∧
        MayRead (rewrite e e' s.events) e.artifactId xUserId assigned := by
  obtain ⟨_, hlinks⟩ := getCustodyTimeline_chainValid.mp hvalid
  rw [getCustodyTimeline_chainValid,
    validateChain_rewrite (storeInvariant_reachable h) hcf he hc hlinks, and_comm]

/-- A timeline of one event, and the same event with another reason. -/
theorem reason_change_reachable :
    ∃ s e text, (consumer DateTime.fromisoformat).Reachable s ∧ s.events = [e] ∧
      s.hashed = [text] ∧ e.caseId = some "CASE-2025-001" ∧ e.artifactId = sampleArtifact ∧
      e.previousEventHash = none ∧ ContentChange e { e with reason := some "No reason" } := by
  have ht : DateTime.fromisoformat (Text.replaceChar 'Z' "+00:00" "2025-01-31T10:00:00+00:00") =
      some 63873914400000000 := by decide
  obtain ⟨text, hp⟩ := viewed_processed ⟨3, by decide⟩ ht
  refine ⟨_, _, text, .step (.init rfl) (a := ⟨1, _⟩) ⟨by simp, hp⟩, rfl, rfl, rfl, rfl, rfl, ?_⟩
  refine ⟨rfl, rfl, rfl, rfl, rfl, ?_⟩
  intro h
  have hreason := congrArg CustodyEvent.reason h
  simp [viewedEvent, Envelope.event, viewedEnvelope] at hreason

theorem getTimeline_singleton (h : e.artifactId = artifactId) :
    getTimeline [e] artifactId = [e] := by
  simp [getTimeline, artifactEvents, h]

/-- The reader of a single event is answered that the chain is valid. -/
theorem single_event_answer (ha : e.artifactId = artifactId)
    (hc : e.caseId = some "CASE-2025-001") (hp : e.previousEventHash = none) :
    ∃ response, getCustodyTimeline [e] artifactId (some "reviewer01") ["CASE-2025-001"] =
      .ok response ∧ response.chainValid = true := by
  rw [getCustodyTimeline_chainValid, MayRead, getTimeline_singleton ha]
  refine ⟨⟨e, rfl, ?_, ?_, ?_⟩, ?_⟩
  · simp [Missing, hc]
  · simp [Missing]
  · simp [hc]
  · simp [validateChain, validateLinks, hp]

theorem reason_change_not_reported :
    ∃ s e, (consumer DateTime.fromisoformat).Reachable s ∧ e ∈ s.events ∧
      ¬ ∃ response, getCustodyTimeline (rewrite e { e with reason := some "No reason" } s.events)
        e.artifactId (some "reviewer01") ["CASE-2025-001"] = .ok response ∧
          response.chainValid = false := by
  obtain ⟨s, e, text, hs, he, ht, hcase, hart, hprev, hc⟩ := reason_change_reachable
  have hcf : CollisionFree {x | x ∈ s.hashed} := by
    intro x hx y hy _
    simp only [ht, Set.mem_ofPred_eq, List.mem_singleton] at hx hy
    rw [hx, hy]
  have hmem : e ∈ s.events := by simp [he]
  refine ⟨s, e, hs, hmem, ?_⟩
  rw [timeline_change_reported_iff hs hcf hmem hc (he ▸ single_event_answer rfl hcase hprev)]
  rintro ⟨hreorder, _⟩
  apply hreorder
  simp [he, rewrite, getTimeline_singleton]

/-- After the reason of the only event was rewritten, the chain is still reported as valid. -/
theorem reason_change_answers_valid :
    ∃ s e e', (consumer DateTime.fromisoformat).Reachable s ∧ e ∈ s.events ∧ ContentChange e e' ∧
      (∃ response, getCustodyTimeline s.events e.artifactId (some "reviewer01")
        ["CASE-2025-001"] = .ok response ∧ response.chainValid = true) ∧
      ∃ response, getCustodyTimeline (rewrite e e' s.events) e.artifactId (some "reviewer01")
        ["CASE-2025-001"] = .ok response ∧ response.chainValid = true := by
  obtain ⟨s, e, text, hs, he, ht, hcase, hart, hprev, hc⟩ := reason_change_reachable
  refine ⟨s, e, _, hs, by simp [he], hc, he ▸ single_event_answer rfl hcase hprev, ?_⟩
  rw [he, show rewrite e { e with reason := some "No reason" } [e] =
    [{ e with reason := some "No reason" }] from by simp [rewrite]]
  exact single_event_answer rfl hcase hprev

end ForensicChain.Custody
