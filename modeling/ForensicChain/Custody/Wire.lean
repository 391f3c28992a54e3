import ForensicChain.Custody.Envelope
import ForensicChain.Library.JsonText

/-!
The body of a message on the wire is a JSON text. The publishers may write the members of an
object in any order, and the consumer does the same with what it reads.
-/
namespace ForensicChain.Custody

variable {fromisoformat : String → Option Timestamp} {j k : Json} {s : Store} {id : Nat}
  {m : Message} {o p : Option Json}

theorem asString_sortKeys : asString j.sortKeys = asString j := by
  cases j <;> simp only [Json.sortKeys, asString]

theorem asNullable_map_sortKeys : asNullable (o.map Json.sortKeys) = asNullable o := by
  cases o with
  | none => rfl
  | some j => cases j <;> simp only [Option.map_some, Json.sortKeys, asNullable, asString]

theorem asObject_map_sortKeys : asObject (o.map Json.sortKeys) =
    (asObject o).map Json.sortKeys := by
  cases o with
  | none => simp [asObject, Json.sortKeys, Json.sortMembers]
  | some j => cases j <;> simp [asObject, Json.sortKeys]

/-- A text field reads the same. -/
theorem bind_asString_congr (h : o.map Json.sortKeys = p.map Json.sortKeys) :
    o >>= asString = p >>= asString := by
  cases o <;> cases p <;> simp at h
  · rfl
  · rename_i j k
    show asString j = asString k
    rw [← asString_sortKeys, h, asString_sortKeys]

theorem asNullable_congr (h : o.map Json.sortKeys = p.map Json.sortKeys) :
    asNullable o = asNullable p := by
  rw [← asNullable_map_sortKeys, h, asNullable_map_sortKeys]

/-- The message with the members of its payload in the order of their keys. -/
def Message.sorted (m : Message) : Message := { m with payload := m.payload.sortKeys }

/-- The payload is found under its key, or is empty. -/
theorem proper_of_asObject {a : Json} (hj : j.Proper)
    (h : asObject (j.field? "payload") = some a) : a.Proper := by
  cases hf : j.field? "payload" with
  | none =>
    rw [hf] at h
    obtain rfl := Option.some.inj h
    exact ⟨List.nodup_nil, trivial⟩
  | some l =>
    have hl : l.Proper := hj.field? hf
    cases l with
    | obj kvs =>
      rw [hf] at h
      obtain rfl := Option.some.inj h
      exact hl
    | _ => simp [hf, asObject] at h

theorem readMessage_same (h : j.Same k) (hj : j.Proper) (hk : k.Proper) :
    (readMessage j).map Message.sorted = (readMessage k).map Message.sorted := by
  have hfield := h.field? hj hk
  have htext := fun l => bind_asString_congr (hfield l)
  have hnullable := fun l => asNullable_congr (hfield l)
  have hpayload : (asObject (j.field? "payload")).map Json.sortKeys =
      (asObject (k.field? "payload")).map Json.sortKeys := by
    rw [← asObject_map_sortKeys, hfield, asObject_map_sortKeys]
  cases ha : asObject (j.field? "payload") with
  | none =>
    rw [ha] at hpayload
    have hb := Option.map_eq_none_iff.mp hpayload.symm
    simp [readMessage, ha, hb]
  | some a =>
    rw [ha] at hpayload
    obtain ⟨b, hb, hab⟩ := Option.map_eq_some_iff.mp hpayload.symm
    have hsame : a.Same b := hab.symm
    have hip := asNullable_congr
      (hsame.field? (proper_of_asObject hj ha) (proper_of_asObject hk hb) "ip_address")
    simp only [readMessage, ha, hb, htext, hnullable, hip, Option.bind_eq_bind, Option.bind_some,
      Option.map_bind, Function.comp_def, Option.map_some, Message.sorted, hab]

/-- What `_process_message` does with a message that is new. -/
def persistMessage (fromisoformat : String → Option Timestamp) (s : Store) (id : Nat)
    (eventUuid : Uuid) (m : Message) : Option Store := do
  let artifactUuid ← uuidColumn m.artifactId
  let eventContent := buildEventContent m (getLastEventHash s.events artifactUuid)
  let timestamp ← messageTime fromisoformat m
  let event ← insertCustodyEvent id m timestamp (getLastEventHash s.events artifactUuid)
    (computeEventHash eventContent)
  guard (event.eventId ∉ s.events.map CustodyEvent.eventId)
  some {
    events := s.events ++ [event]
    processed := s.processed ++ [eventUuid]
    hashed := eventContent.dumps :: s.hashed }

theorem processMessage_eq (body : Json) : processMessage fromisoformat s id body =
    (body.field? "event_id").bind fun eventId => (body.field? "artifact_id").bind fun _ =>
      (asString eventId >>= uuidColumn).bind fun eventUuid =>
        if eventUuid ∈ s.processed then some s
        else (readMessage body).bind (persistMessage fromisoformat s id eventUuid) := rfl

theorem dumps_sorted {previous : Option String} :
    (buildEventContent m.sorted previous).dumps = (buildEventContent m previous).dumps := by
  rw [Json.dumps_inj, buildEventContent_sortKeys, buildEventContent_sortKeys]
  simp only [Message.sorted, Json.sortKeys_idem]

theorem insertCustodyEvent_sorted {timestamp : Timestamp} {previous : Option String}
    {hash : String} : insertCustodyEvent id m.sorted timestamp previous hash =
      insertCustodyEvent id m timestamp previous hash := by
  simp only [insertCustodyEvent, Message.sorted, Jsonb.store, Jsonb.ofJson, Json.hasNul_sortKeys,
    Json.sortKeys_idem]

/-- Hash and row of a message do not tell the order of its payload. -/
theorem persistMessage_sorted {eventUuid : Uuid} :
    persistMessage fromisoformat s id eventUuid m.sorted =
      persistMessage fromisoformat s id eventUuid m := by
  simp only [persistMessage, computeEventHash, dumps_sorted, insertCustodyEvent_sorted]
  rfl

/-- The consumer stores the same whatever the order of the members. -/
theorem processMessage_same (h : j.Same k) (hj : j.Proper) (hk : k.Proper) :
    processMessage fromisoformat s id j = processMessage fromisoformat s id k := by
  have hsorted : ∀ body u, (readMessage body).bind (persistMessage fromisoformat s id u) =
      ((readMessage body).map Message.sorted).bind (persistMessage fromisoformat s id u) := by
    intro body u
    simp only [Option.bind_map, Function.comp_def, persistMessage_sorted]
  have hmessage : ∀ u, (readMessage j).bind (persistMessage fromisoformat s id u) =
      (readMessage k).bind (persistMessage fromisoformat s id u) := by
    intro u
    rw [hsorted j, hsorted k, readMessage_same h hj hk]
  have hevent := h.field? hj hk "event_id"
  have hartifact := h.field? hj hk "artifact_id"
  have hid := bind_asString_congr hevent
  simp only [processMessage_eq, hmessage]
  cases he : j.field? "event_id" with
  | none =>
    rw [he] at hevent
    rw [Option.map_eq_none_iff.mp hevent.symm]
    rfl
  | some a =>
    rw [he] at hevent hid
    obtain ⟨b, hb, _⟩ := Option.map_eq_some_iff.mp hevent.symm
    have htext : asString a = asString b := by
      rw [hb] at hid
      exact hid
    rw [hb]
    simp only [Option.bind_some, htext]
    cases ha : j.field? "artifact_id" with
    | none =>
      rw [ha] at hartifact
      rw [Option.map_eq_none_iff.mp hartifact.symm]
    | some c =>
      rw [ha] at hartifact
      obtain ⟨d, hd, _⟩ := Option.map_eq_some_iff.mp hartifact.symm
      rw [hd]
      rfl

/-- However its members are ordered, the text of the body is plain ASCII, is read as the value that
was written, and has the effect of the body. -/
def ReadBack (fromisoformat : String → Option Timestamp) (body : Json) : Prop :=
  ∀ j : Json, j.Same body → (∀ c ∈ j.render, Json.Ascii c) ∧ Json.loads j.render = some j ∧
    ∀ store id, processMessage fromisoformat store id j = processMessage fromisoformat store id body

theorem readBack_of_proper {body : Json} (h : body.Proper) : ReadBack fromisoformat body := by
  intro j hj
  have hproper := hj.proper h
  exact ⟨Json.ascii_render j, Json.loads_render hproper,
    fun _ _ => processMessage_same hj hproper h⟩

/-- Whatever the consumer reads from a text has the effect of every other text for the value. -/
theorem readBack_of_loads {text : List Char} {body : Json} (h : Json.loads text = some body) :
    ReadBack fromisoformat body :=
  readBack_of_proper (Json.proper_of_loads h)

end ForensicChain.Custody
