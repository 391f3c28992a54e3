import ForensicChain.Custody.Timeline

/-!
When a timeline stays linked. An event is linked to the last one by timestamp, so the links agree
with the timeline as long as no event is stored behind a later one of its artifact.
-/
namespace ForensicChain.Custody

variable {fromisoformat : String → Option Timestamp} {s t : Store} {id : Nat} {body : Json}
  {e : CustodyEvent} {events : List CustodyEvent} {artifactId : Uuid}

/-- Stored later, with no smaller timestamp. -/
abbrev Follows : CustodyEvent → CustodyEvent → Prop :=
  OrderBy.Follows CustodyEvent.timestamp CustodyEvent.id

/-- The events of an artifact are linked in the order of their commits, which is that of their
timestamps. -/
def InOrder (events : List CustodyEvent) : Prop :=
  ∀ artifactId, (artifactEvents events artifactId).Pairwise Follows ∧
    HashChain.Linked CustodyEvent.previousEventHash CustodyEvent.eventHash none
      (artifactEvents events artifactId)

/-- The hash that the next event is linked to is the head of the chain. -/
theorem getLastEventHash_of_pairwise (h : (artifactEvents events artifactId).Pairwise Follows) :
    getLastEventHash events artifactId =
      HashChain.head CustodyEvent.eventHash none (artifactEvents events artifactId) := by
  unfold getLastEventHash
  cases hl : artifactEvents events artifactId using List.reverseRecOn with
  | nil => rfl
  | append_singleton l x =>
    rw [hl] at h
    rw [OrderBy.head?_insertionSort_desc h, HashChain.head_concat, Option.map_some]

/-- Event hashes fit their columns. -/
theorem StoreInvariant.last_fits (h : StoreInvariant s) :
    ∀ x ∈ getLastEventHash s.events artifactId, x.length ≤ 256 := by
  intro x hx
  obtain ⟨e, he, rfl⟩ := Option.map_eq_some_iff.mp hx
  have hmem : e ∈ artifactEvents s.events artifactId :=
    (List.mem_insertionSort _).mp (List.mem_of_head? he)
  obtain ⟨m, p, _, _, hhash⟩ := h.hashed e (List.mem_of_mem_filter hmem)
  simp [hhash, computeEventHash]

/-- A row is stored with the link that it was given. -/
theorem StoreInvariant.previous_eq {m : Message} {timestamp : Timestamp} {hash : String}
    (h : StoreInvariant s)
    (hi : insertCustodyEvent id m timestamp (getLastEventHash s.events artifactId) hash = some e) :
    e.previousEventHash = getLastEventHash s.events artifactId := by
  have hrow := insertCustodyEvent_eq_some hi
  exact Postgres.eq_of_nullable
    (fun x hx => Postgres.verbatim_of_length_le (h.last_fits x hx)) hrow.previousEventHash

theorem artifactEvents_concat : artifactEvents (events ++ [e]) artifactId =
    if e.artifactId = artifactId then artifactEvents events artifactId ++ [e]
    else artifactEvents events artifactId := by
  by_cases h : e.artifactId = artifactId <;> simp [artifactEvents, h]

/-- A timeline in order is reported as valid. -/
theorem InOrder.validateChain (h : InOrder events) (artifactId : Uuid) :
    validateChain (getTimeline events artifactId) = true := by
  obtain ⟨hpair, hlinked⟩ := h artifactId
  rw [getTimeline, OrderBy.insertionSort_asc hpair]
  exact validateLinks_eq_true.mpr hlinked

/-- The body is that of a processed event, or its timestamp is not before a stored one of its
artifact. -/
def ArrivesInOrder (fromisoformat : String → Option Timestamp) (s : Store) (body : Json) : Prop :=
  ∀ m artifactId time u, readMessage body = some m → uuidColumn m.artifactId = some artifactId →
    messageTime fromisoformat m = some time → uuidColumn m.eventId = some u → u ∉ s.processed →
    ∀ e ∈ artifactEvents s.events artifactId, e.timestamp ≤ time

/-- What was stored before stays, and a new row is linked to the last one of its artifact. -/
theorem InOrder.step (h : InOrder s.events) (hs : StoreInvariant s)
    (hid : ∀ e ∈ s.events, e.id < id) (ha : ArrivesInOrder fromisoformat s body)
    (hp : Processed fromisoformat s id body t) : InOrder t.events := by
  cases hp with
  | duplicate => exact h
  | stored hb hm ht hi hp hu =>
    rename_i m e
    have hrow := insertCustodyEvent_eq_some hi
    have hprevious := hs.previous_eq hi
    intro artifactId
    obtain ⟨hpair, hlinked⟩ := h artifactId
    rw [artifactEvents_concat]
    split_ifs with hart
    · subst hart
      have htimes := ha m _ _ _ hm hrow.artifactId ht hrow.eventId hp
      have hlast := getLastEventHash_of_pairwise hpair
      rw [HashChain.linked_concat, List.pairwise_append]
      refine ⟨⟨hpair, List.pairwise_singleton _ _, ?_⟩, hlinked, hprevious.trans hlast⟩
      intro f hf g hg
      obtain rfl := List.mem_singleton.mp hg
      exact ⟨htimes f hf, hrow.id ▸ hid f (List.mem_of_mem_filter hf)⟩
    · exact ⟨hpair, hlinked⟩

end ForensicChain.Custody
