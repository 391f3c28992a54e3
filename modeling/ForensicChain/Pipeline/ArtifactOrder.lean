import ForensicChain.Pipeline.Carried

/-!
The order in which the workers hand the events of one artifact to the exchange. A cycle takes the
oldest free rows, but loads them in any order, goes on after a publish that raised, and skips the
rows that another worker holds.
-/
namespace ForensicChain.Pipeline

open Custody

variable {fromisoformat : String → Option Timestamp} {s t : State} {a : Action} {w : WorkerId}
  {ids : List Nat} {c : Cycle} {q r : OutboxRow}

/-- The payloads of the rows name the same artifact. -/
def SameArtifact (q r : OutboxRow) : Prop :=
  ∃ artifactId, q.payload.value.field? "artifact_id" = some artifactId ∧
    r.payload.value.field? "artifact_id" = some artifactId

/-- An event of the same artifact that was created strictly before. -/
def Earlier (q r : OutboxRow) : Prop := SameArtifact q r ∧ q.createdAt < r.createdAt

/-- The next publish of the worker hands over a row while an earlier one is still unpublished, in
the table and in the worker's own cycle. -/
def Overtakes (s : State) (w : WorkerId) : Prop :=
  ∃ c id rest r q, s.cycles w = some c ∧ c.todo = id :: rest ∧ r ∈ s.outbox ∧ r.id = id ∧
    q ∈ s.outbox ∧ Earlier q r ∧ q.published = false ∧ (q.id, none) ∉ c.tried

/-- Any content of the outbox, and no cycle under way. -/
def fromTable (fromisoformat : String → Option Timestamp) : TransitionSystem State Action :=
  ⟨fun s => (s.outbox.map OutboxRow.id).Nodup ∧ ∀ w, s.cycles w = none, Step fromisoformat⟩

/-- The row `j` is not an earlier one of the artifact of row `i`. -/
def NotEarlier (s : State) (i j : Nat) : Prop :=
  ∀ r ∈ s.outbox, ∀ q ∈ s.outbox, r.id = i → q.id = j → ¬ Earlier q r

/-- No worker holds an unpublished row that is earlier than one of these. -/
def NoneSkipped (s : State) (ids : List Nat) : Prop :=
  ∀ r ∈ s.outbox, r.id ∈ ids → ∀ q ∈ s.outbox, Earlier q r → q.published = false →
    ∀ v c, s.cycles v = some c → q.id ∉ c.rows

/-- The steps that keep the order: a batch is loaded in the order of creation, artifact by artifact,
and skips no earlier row; the cycle in which a publish raises has no later row of the artifact left;
a new row is not earlier than one that a cycle has still to publish. -/
def KeepsOrder (s : State) : Action → Prop
  | .poll _ ids => ids.Pairwise (NotEarlier s) ∧ NoneSkipped s ids
  | .publishRaised w _ _ => ∀ c id rest, s.cycles w = some c → c.todo = id :: rest →
      ∀ q ∈ s.outbox, q.id = id → ∀ r ∈ s.outbox, r.id ∈ rest → ¬ Earlier q r
  | .write q => ∀ v c, s.cycles v = some c → ∀ r ∈ s.outbox, r.id ∈ c.todo → ¬ Earlier q r
  | _ => True

/-- A cycle has its rows in order, and has with each of them the earlier ones of its artifact. -/
structure CycleOrdered (s : State) (c : Cycle) : Prop where
  known : ∀ id ∈ c.todo, id ∈ s.outbox.map OutboxRow.id
  todo : c.todo.Pairwise (NotEarlier s)
  held : ∀ r ∈ s.outbox, r.id ∈ c.todo → ∀ q ∈ s.outbox, Earlier q r → q.published = false →
    (q.id, none) ∈ c.tried ∨ q.id ∈ c.todo

structure OrderInvariant (s : State) : Prop where
  ids : (s.outbox.map OutboxRow.id).Nodup
  cycles : ∀ w c, s.cycles w = some c → CycleOrdered s c

/-- With a row of a batch come all free rows that were created before it. -/
theorem mem_of_picks (hids : (s.outbox.map OutboxRow.id).Nodup) (hp : s.Picks ids)
    (hr : r ∈ s.outbox) (hri : r.id ∈ ids) (hq : q ∈ s.outbox) (hfree : s.Free q)
    (hlt : q.createdAt < r.createdAt) : q.id ∈ ids := by
  obtain ⟨free, sorted, hmem, _, hperm, hsorted, hids'⟩ := hp
  obtain ⟨r', hr', he⟩ := List.mem_map.mp (hids'.mem_iff.mp hri)
  have hr'mem := hmem r' |>.mp (hperm.mem_iff.mp (List.mem_of_mem_take hr'))
  obtain rfl := List.inj_on_of_nodup_map hids hr'mem.1 hr he
  have hqmem : q ∈ sorted := hperm.mem_iff.mpr ((hmem q).mpr ⟨hq, hfree⟩)
  rw [← List.take_append_drop 10 sorted] at hqmem hsorted
  rcases List.mem_append.mp hqmem with hin | hout
  · exact hids'.mem_iff.mpr (List.mem_map_of_mem hin)
  · have hle := (List.pairwise_append.mp hsorted).2.2 r' hr' q hout
    exact (not_lt.mpr hle hlt).elim

/-- What a cycle relies on are the rows of the table. -/
theorem CycleOrdered.frame (h : CycleOrdered s c) (hout : t.outbox = s.outbox) :
    CycleOrdered t c := by
  obtain ⟨hknown, htodo, hheld⟩ := h
  unfold NotEarlier at htodo
  rw [← hout] at hknown hheld
  simp only [← hout] at htodo
  exact ⟨hknown, htodo, hheld⟩

theorem earlier_irrefl : ¬ Earlier r r := fun h => lt_irrefl _ h.2

/-- A batch that skips no earlier row starts a cycle in order. -/
theorem ordered_poll (hids : (s.outbox.map OutboxRow.id).Nodup) (hp : s.Picks ids)
    (hk : KeepsOrder s (.poll w ids)) : CycleOrdered s ⟨ids, []⟩ := by
  refine ⟨?_, hk.1, ?_⟩
  · intro id hid
    obtain ⟨free, sorted, hmem, _, hperm, _, hids'⟩ := hp
    obtain ⟨row, hrow, rfl⟩ := List.mem_map.mp (hids'.mem_iff.mp hid)
    exact List.mem_map_of_mem
      ((hmem row).mp (hperm.mem_iff.mp (List.mem_of_mem_take hrow))).1
  · intro r hr hri q hq he hpub
    exact .inr (mem_of_picks hids hp hr hri hq ⟨hpub, hk.2 r hr hri q hq he hpub⟩ he.2)

/-- After a publish the cycle goes on with the rows that are left. -/
theorem CycleOrdered.publish {id : Nat} {todo : List Nat} {tried : List (Nat × Option String)}
    (h : CycleOrdered s ⟨id :: todo, tried⟩) : CycleOrdered s ⟨todo, (id, none) :: tried⟩ := by
  refine ⟨fun i hi => h.known i (List.mem_cons_of_mem _ hi), (List.pairwise_cons.mp h.todo).2, ?_⟩
  intro r hr hri q hq he hpub
  rcases h.held r hr (List.mem_cons_of_mem _ hri) q hq he hpub with htried | htodo
  · exact .inl (List.mem_cons_of_mem _ htried)
  · rcases List.mem_cons.mp htodo with rfl | htodo
    · exact .inl List.mem_cons_self
    · exact .inr htodo

/-- After a publish that raised it does so as long as none of them comes after the failed one. -/
theorem CycleOrdered.publishRaised {id : Nat} {todo : List Nat} {error : String}
    {tried : List (Nat × Option String)} (h : CycleOrdered s ⟨id :: todo, tried⟩)
    (hlater : ∀ q ∈ s.outbox, q.id = id → ∀ r ∈ s.outbox, r.id ∈ todo → ¬ Earlier q r) :
    CycleOrdered s ⟨todo, (id, some error) :: tried⟩ := by
  refine ⟨fun i hi => h.known i (List.mem_cons_of_mem _ hi), (List.pairwise_cons.mp h.todo).2, ?_⟩
  intro r hr hri q hq he hpub
  rcases h.held r hr (List.mem_cons_of_mem _ hri) q hq he hpub with htried | htodo
  · exact .inl (List.mem_cons_of_mem _ htried)
  · rcases List.mem_cons.mp htodo with hid | htodo
    · exact (hlater q hq hid r hr hri he).elim
    · exact .inr htodo

/-- A new row is in no batch yet. -/
theorem CycleOrdered.write (h : CycleOrdered s c) (hid : ∀ p ∈ s.outbox, p.id ≠ q.id)
    (hlater : ∀ r ∈ s.outbox, r.id ∈ c.todo → ¬ Earlier q r) :
    CycleOrdered { s with outbox := s.outbox ++ [q] } c := by
  have hold : ∀ p ∈ s.outbox ++ [q], p.id ∈ c.todo → p ∈ s.outbox := by
    intro p hp hpi
    rcases List.mem_append.mp hp with hp | hp
    · exact hp
    · obtain ⟨p', hp', he⟩ := List.mem_map.mp (h.known _ hpi)
      rw [List.mem_singleton.mp hp] at he
      exact (hid p' hp' he).elim
  refine ⟨?_, ?_, ?_⟩
  · intro i hi
    rw [List.map_append]
    exact List.mem_append_left _ (h.known i hi)
  · refine h.todo.imp_of_mem fun hi hj hij r hr p hp hri hpj => ?_
    exact hij r (hold r hr (hri ▸ hi)) p (hold p hp (hpj ▸ hj)) hri hpj
  · intro r hr hri p hp he hpub
    have hr' := hold r hr hri
    rcases List.mem_append.mp hp with hp | hp
    · exact h.held r hr' hri p hp he hpub
    · rw [List.mem_singleton.mp hp] at he
      exact (hlater r hr' hri he).elim

@[simp]
theorem OutboxRow.record_createdAt {tried : List (Nat × Option String)} :
    (r.record tried).createdAt = r.createdAt := by
  unfold OutboxRow.record
  split <;> rfl

/-- A commit takes back no mark. -/
theorem OutboxRow.published_of_record {tried : List (Nat × Option String)}
    (h : (r.record tried).published = false) : r.published = false := by
  unfold OutboxRow.record at h
  split at h
  · exact h
  · simp at h
  · exact h

theorem earlier_record {tried : List (Nat × Option String)} :
    Earlier (q.record tried) (r.record tried) ↔ Earlier q r := by
  simp [Earlier, SameArtifact]

/-- The commit of another cycle only marks rows. -/
theorem CycleOrdered.record {tried : List (Nat × Option String)} (h : CycleOrdered s c) :
    CycleOrdered { s with outbox := s.outbox.map fun row => row.record tried } c := by
  refine ⟨?_, ?_, ?_⟩
  · intro id hid
    rw [map_record_ids]
    exact h.known id hid
  · refine h.todo.imp fun hij r hr q hq hri hqj he => ?_
    obtain ⟨r', hr', rfl⟩ := List.mem_map.mp hr
    obtain ⟨q', hq', rfl⟩ := List.mem_map.mp hq
    rw [OutboxRow.record_id] at hri hqj
    exact hij r' hr' q' hq' hri hqj (earlier_record.mp he)
  · intro r hr hri q hq he hpub
    obtain ⟨r', hr', rfl⟩ := List.mem_map.mp hr
    obtain ⟨q', hq', rfl⟩ := List.mem_map.mp hq
    rw [OutboxRow.record_id] at hri ⊢
    exact h.held r' hr' hri q' hq' (earlier_record.mp he) (OutboxRow.published_of_record hpub)

theorem OrderInvariant.step (h : OrderInvariant s) (ha : KeepsOrder s a)
    (hs : Step fromisoformat s a t) : OrderInvariant t := by
  have hcycles := h.cycles
  refine ⟨ids_step h.ids hs, ?_⟩
  cases hs with
  | write row hid he hp => exact fun v c hc => (hcycles v c hc).write hid (ha v c hc)
  | poll hw hp =>
    refine cycles_update (fun v c hc => (hcycles v c hc).frame rfl) ?_
    rintro c hc
    obtain rfl := Option.some.inj hc
    exact (ordered_poll h.ids hp ha).frame rfl
  | publish hw hr hi ht =>
    refine cycles_update (fun v c hc => (hcycles v c hc).frame rfl) ?_
    rintro c hc
    obtain rfl := Option.some.inj hc
    exact (hcycles _ _ hw).publish.frame rfl
  | publishRaised error hw hr hi ht =>
    refine cycles_update (fun v c hc => (hcycles v c hc).frame rfl) ?_
    rintro c hc
    obtain rfl := Option.some.inj hc
    exact ((hcycles _ _ hw).publishRaised (ha _ _ _ hw rfl)).frame rfl
  | commitCycle hw =>
    exact cycles_update (fun v c hc => (hcycles v c hc).record.frame rfl) (by simp)
  | endCycle => exact cycles_update (fun v c hc => (hcycles v c hc).frame rfl) (by simp)
  | _ => exact fun v c hc => (hcycles v c hc).frame rfl

theorem orderInvariant_reachable
    (h : (fromTable fromisoformat).ReachableWhen KeepsOrder s) : OrderInvariant s := by
  refine h.invariant ?_ fun s a t ha hi hs => hi.step ha hs
  rintro s ⟨hids, hcycles⟩
  exact ⟨hids, by simp [hcycles]⟩

/-- In every run whose steps keep the order, no worker ever publishes an event while an earlier one
of its artifact is still unpublished. -/
theorem none_overtakes (h : (fromTable fromisoformat).ReachableWhen KeepsOrder s) (w : WorkerId) :
    ¬ Overtakes s w := by
  have hinv := orderInvariant_reachable h
  rintro ⟨c, id, rest, r, q, hc, htodo, hr, rfl, hq, he, hpub, htried⟩
  have hord := hinv.cycles w c hc
  rcases hord.held r hr (htodo ▸ List.mem_cons_self) q hq he hpub with ht | ht
  · exact htried ht
  · rw [htodo] at ht
    rcases List.mem_cons.mp ht with hid | hrest
    · obtain rfl := List.inj_on_of_nodup_map hinv.ids hq hr hid
      exact earlier_irrefl he
    · have hpair := htodo ▸ hord.todo
      exact (List.pairwise_cons.mp hpair).1 _ hrest r hr q hq rfl rfl he

@[simp]
theorem State.setCycle_self {c : Option Cycle} : (s.setCycle w c).cycles w = c :=
  Function.update_self _ _ _

/-- A first worker finds all rows of a short outbox. -/
theorem picks_all (hsorted : s.outbox.Pairwise fun r q => r.createdAt ≤ q.createdAt)
    (hids : (s.outbox.map OutboxRow.id).Nodup) (hpub : ∀ r ∈ s.outbox, r.published = false)
    (hlen : s.outbox.length ≤ 10) (hw : ∀ w, s.cycles w = none)
    (hperm : ids.Perm (s.outbox.map OutboxRow.id)) : s.Picks ids := by
  refine ⟨s.outbox, s.outbox, ?_, List.Nodup.of_map _ hids, .refl _, hsorted, ?_⟩
  · intro row
    exact ⟨fun hr => ⟨hr, hpub row hr, by simp [hw]⟩, And.left⟩
  · rwa [List.take_of_length_le hlen]

def firstRow : OutboxRow := outboxRow 1 (viewedEnvelope viewedId "") 0

def secondRow : OutboxRow := outboxRow 2 (viewedEnvelope downloadedId "") 1

/-- Two unpublished rows of one artifact, the first created before the second. -/
def twoRows : State := { State.empty with outbox := [firstRow, secondRow] }

theorem first_earlier : Earlier firstRow secondRow := by
  refine ⟨⟨.str sampleArtifact.str, ?_, ?_⟩, Int.zero_lt_one⟩
  · show (viewedEnvelope viewedId "").toJson.sortKeys.field? _ = _
    rw [Envelope.toJson_sortKeys]
    simp [Json.field?, viewedEnvelope]
  · show (viewedEnvelope downloadedId "").toJson.sortKeys.field? _ = _
    rw [Envelope.toJson_sortKeys]
    simp [Json.field?, viewedEnvelope]

theorem twoRows_ids : twoRows.outbox.map OutboxRow.id = [1, 2] := rfl

theorem twoRows_picks : twoRows.Picks [1, 2] := by
  refine picks_all ?_ (by simp [twoRows_ids]) ?_ (by simp [twoRows]) (fun _ => rfl) (.refl _)
  · exact List.pairwise_pair.mpr (by simp [firstRow, secondRow, outboxRow])
  · simp [twoRows, firstRow, secondRow, outboxRow]

/-- The worker has loaded both rows. -/
def polledRows : State := twoRows.setCycle 0 (some ⟨[1, 2], []⟩)

theorem polledRows_reachable (fromisoformat : String → Option Timestamp) :
    (fromTable fromisoformat).ReachableWhen KeepsOrder polledRows := by
  have hinit : (fromTable fromisoformat).ReachableWhen KeepsOrder twoRows :=
    .init ⟨by simp [twoRows_ids], fun _ => rfl⟩
  refine hinit.step ?_ (.poll rfl twoRows_picks)
  refine ⟨List.pairwise_pair.mpr ?_, ?_⟩
  · -- of the two, only the first is earlier
    rintro r hr q hq hri hqi ⟨_, hlt⟩
    simp only [twoRows, List.mem_cons, List.not_mem_nil, or_false] at hr hq
    rcases hr with rfl | rfl
    · rcases hq with rfl | rfl
      · simp [firstRow, outboxRow] at hqi
      · simp [firstRow, secondRow, outboxRow] at hlt
    · simp [secondRow, outboxRow] at hri
  · intro r hr hri q hq he hpub v c hc
    simp [twoRows, State.empty] at hc

theorem first_mem : firstRow ∈ polledRows.outbox := List.mem_cons_self

theorem second_mem : secondRow ∈ polledRows.outbox := List.mem_cons_of_mem _ List.mem_cons_self

/-- The worker comes to the second row after it has published the first. -/
theorem second_after_first :
    ∃ s, (fromTable DateTime.fromisoformat).ReachableWhen KeepsOrder s ∧
      s.cycles 0 = some ⟨[2], [(1, none)]⟩ ∧ ¬ Overtakes s 0 := by
  have hpublish : Step DateTime.fromisoformat polledRows (.publish 0 7)
      ((polledRows.put 7 ⟨firstRow.payload.value, none, .queued⟩).setCycle 0
        (some ⟨[2], [(1, none)]⟩)) :=
    .publish State.setCycle_self first_mem rfl rfl
  have hkeeps : KeepsOrder polledRows (.publish 0 7) := trivial
  have hsent := (polledRows_reachable _).step hkeeps hpublish
  exact ⟨_, hsent, State.setCycle_self, none_overtakes hsent 0⟩

/-- The publish of the first row raises, and the worker goes on with the second. -/
theorem second_before_first :
    ∃ s t, (fromTable DateTime.fromisoformat).Reachable s ∧
      Step DateTime.fromisoformat s (.publish 0 7) t ∧ Overtakes s 0 := by
  have hraises : Step DateTime.fromisoformat polledRows (.publishRaised 0 "connection lost" none)
      ((polledRows.putAt none ⟨firstRow.payload.value, none, .queued⟩).setCycle 0
        (some ⟨[2], [(1, some "connection lost")]⟩)) :=
    .publishRaised _ State.setCycle_self first_mem rfl nofun
  have hfailed := (polledRows_reachable _).reachable.step hraises
  refine ⟨_, _, hfailed, .publish State.setCycle_self second_mem rfl rfl, ?_⟩
  exact ⟨_, 2, [], secondRow, firstRow, State.setCycle_self, rfl, second_mem, rfl, first_mem,
    first_earlier, rfl, by simp⟩

end ForensicChain.Pipeline
