import ForensicChain.Pipeline.Model

/-!
The loop body of `consume_events`. The retry count is read before the `try`, and the `except` block
makes calls of its own; an exception that leaves the body ends the background task.
-/
namespace ForensicChain.Pipeline

open Custody

def decimalVal (c : Char) : Option Nat :=
  (Text.decimalZeros.find? fun base => base ≤ c.toNat && c.toNat < base + 10).map (c.toNat - ·)

/-- Decimal digits, with single underscores between them. -/
def readDecimal (acc : Nat) : List Char → Option Nat
  | [] => some acc
  | '_' :: c :: cs => (decimalVal c).bind fun d => readDecimal (acc * 10 + d) cs
  | c :: cs => (decimalVal c).bind fun d => readDecimal (acc * 10 + d) cs

def readMagnitude : List Char → Option Nat
  | [] => none
  | c :: cs => (decimalVal c).bind fun d => readDecimal d cs

/-- `int(text)`; `none` is a ValueError, which more than 4300 digits are too. -/
def intOfText (s : String) : Option Int :=
  let cs := ((s.toList.dropWhile Uuid.isIntSpace).reverse.dropWhile Uuid.isIntSpace).reverse
  if 4300 < (cs.filter fun c => (decimalVal c).isSome).length then none
  else match cs with
    | '-' :: cs => (readMagnitude cs).map fun n => -(n : Int)
    | '+' :: cs => (readMagnitude cs).map Int.ofNat
    | cs => (readMagnitude cs).map Int.ofNat

/-- The value of a header, as the client library decodes it. -/
inductive HeaderValue
  /-- A number, by the integer that `int` cuts it to. -/
  | number (n : Int)
  | text (s : String)
  /-- A missing value, a time, a list or a table: `int` raises a TypeError. -/
  | other

def HeaderValue.int : HeaderValue → Option Int
  | .number n => some n
  | .text s => intOfText s
  | .other => none

/-- `int((message.headers or {}).get("x-retry-count", 0))`; `none` is an exception. -/
def readRetryCount (headers : List (String × HeaderValue)) : Option Int :=
  match headers.lookup "x-retry-count" with
  | none => some 0
  | some value => value.int

example : readRetryCount [("x-retry-count", .text " 1_0 ")] = some 10 := by decide

/-- An awaited call returns, or it raises before or after it has taken effect. -/
inductive CallOutcome
  | returns
  | raises (tookEffect : Bool)
  deriving DecidableEq

/-- The outcomes of the calls of one pass, whether or not the pass comes to them. -/
structure Outcomes where
  /-- The session and `_process_message` with its commit. -/
  process : CallOutcome
  ack : CallOutcome
  publish : CallOutcome
  ackCopied : CallOutcome
  reject : CallOutcome

/-- What has become of the message that is handled. -/
structure Handled where
  persisted : Bool
  copied : Bool
  place : Place

def Handled.received : Handled := ⟨false, false, .unacked⟩

def Handled.persist (h : Handled) : Handled := { h with persisted := true }

def Handled.copy (h : Handled) : Handled := { h with copied := true }

/-- The broker settles a delivery once. -/
def Handled.settle (place : Place) (h : Handled) : Handled :=
  if h.place = .unacked then { h with place } else h

/-- A call with its effect; an exception keeps what was done before it. -/
def CallOutcome.call (o : CallOutcome) (effect : Handled → Handled) (h : Handled) :
    Except Handled Handled :=
  match o with
  | .returns => .ok (effect h)
  | .raises true => .error (effect h)
  | .raises false => .error h

/-- The `try` block. -/
def tryBlock (o : Outcomes) (h : Handled) : Except Handled Handled := do
  let h ← o.process.call .persist h
  o.ack.call (.settle .acked) h

/-- The `except` block. -/
def exceptBlock (retryCount : Int) (o : Outcomes) (h : Handled) : Except Handled Handled :=
  if retryCount < maxRetries then do
    let h ← o.publish.call .copy h
    o.ackCopied.call (.settle .acked) h
  else o.reject.call (.settle .dead) h

/-- One pass of the loop; an error is an exception that ends the loop. -/
def loopBody (headers : List (String × HeaderValue)) (o : Outcomes) : Except Handled Handled :=
  match readRetryCount headers with
  | none => .error .received
  | some retryCount =>
    match tryBlock o .received with
    | .ok h => .ok h
    | .error h => exceptBlock retryCount o h

/-- Acknowledged after it was stored or copied, rejected, or still unacknowledged. -/
def Handled.Settled (h : Handled) : Prop :=
  (h.place = .acked ∧ h.persisted = true) ∨ (h.place = .acked ∧ h.copied = true) ∨
    h.place = .dead ∨ h.place = .unacked

/-- The loop goes on to the next message, and the current one is settled. -/
def GoesOn (headers : List (String × HeaderValue)) (o : Outcomes) : Prop :=
  ∃ h, loopBody headers o = .ok h ∧ h.Settled

/-- The calls of the `except` block return. -/
def Recovers (retryCount : Int) (o : Outcomes) : Prop :=
  if retryCount < maxRetries then o.publish = .returns ∧ o.ackCopied = .returns
  else o.reject = .returns

variable {o : Outcomes} {h h' : Handled} {n : Int} {headers : List (String × HeaderValue)}
  {c : CallOutcome} {effect : Handled → Handled}

theorem call_ok : c.call effect h = .ok h' ↔ c = .returns ∧ h' = effect h := by
  rcases c with _ | _ | _ <;> simp [CallOutcome.call, eq_comm]

theorem tryBlock_ok : tryBlock o h = .ok h' ↔
    (o.process = .returns ∧ o.ack = .returns) ∧ h' = h.persist.settle .acked := by
  simp only [tryBlock, Evidence.bind_ok, call_ok]
  constructor
  · rintro ⟨_, ⟨hp, rfl⟩, ha, rfl⟩
    exact ⟨⟨hp, ha⟩, rfl⟩
  · rintro ⟨⟨hp, ha⟩, rfl⟩
    exact ⟨_, ⟨hp, rfl⟩, ha, rfl⟩

/-- The `except` block returns exactly if its calls do. -/
theorem exceptBlock_ok : exceptBlock n o h = .ok h' ↔ Recovers n o ∧
    h' = if n < maxRetries then h.copy.settle .acked else h.settle .dead := by
  unfold exceptBlock Recovers
  split_ifs
  · simp only [Evidence.bind_ok, call_ok]
    constructor
    · rintro ⟨_, ⟨hp, rfl⟩, ha, rfl⟩
      exact ⟨⟨hp, ha⟩, rfl⟩
    · rintro ⟨⟨hp, ha⟩, rfl⟩
      exact ⟨_, ⟨hp, rfl⟩, ha, rfl⟩
  · exact call_ok

theorem received_settled : Handled.received.Settled := .inr (.inr (.inr rfl))

theorem Handled.Settled.persist (hs : h.Settled) : h.persist.Settled := by
  rcases hs with ⟨hp, _⟩ | hs
  · exact .inl ⟨hp, rfl⟩
  · exact .inr hs

theorem Handled.Settled.copy (hs : h.Settled) : h.copy.Settled := by
  rcases hs with hs | ⟨hp, _⟩ | hs
  · exact .inl hs
  · exact .inr (.inl ⟨hp, rfl⟩)
  · exact .inr (.inr hs)

/-- What was stored or copied may be acknowledged. -/
theorem Handled.Settled.acked (hs : h.Settled) (hd : h.persisted = true ∨ h.copied = true) :
    (h.settle .acked).Settled := by
  unfold Handled.settle
  split_ifs
  · exact hd.elim (fun hd => .inl ⟨rfl, hd⟩) fun hd => .inr (.inl ⟨rfl, hd⟩)
  · exact hs

theorem Handled.Settled.dead (hs : h.Settled) : (h.settle .dead).Settled := by
  unfold Handled.settle
  split_ifs
  · exact .inr (.inr (.inl rfl))
  · exact hs

theorem call_error (hs : h.Settled) (he : (effect h).Settled) (hc : c.call effect h = .error h') :
    h'.Settled := by
  rcases c with _ | _ | _
  · cases hc
  · cases hc
    exact hs
  · cases hc
    exact he

/-- The `try` block leaves nothing acknowledged that was not stored. -/
theorem tryBlock_error (hs : h.Settled) (he : tryBlock o h = .error h') : h'.Settled := by
  unfold tryBlock at he
  cases hp : o.process.call .persist h with
  | error k =>
    rw [hp] at he
    cases he
    exact call_error hs hs.persist hp
  | ok k =>
    rw [hp] at he
    obtain ⟨_, rfl⟩ := call_ok.mp hp
    exact call_error hs.persist (hs.persist.acked (.inl rfl)) he

theorem exceptBlock_settled (hs : h.Settled) (hx : exceptBlock n o h = .ok h') : h'.Settled := by
  obtain ⟨_, rfl⟩ := exceptBlock_ok.mp hx
  split_ifs
  · exact hs.copy.acked (.inr rfl)
  · exact hs.dead

/-- The loop goes on if and only if the retry count is a number and either the message is processed
and acknowledged or the calls of the `except` block return. -/
theorem loop_goes_on_iff (headers : List (String × HeaderValue)) (o : Outcomes) :
    GoesOn headers o ↔ ∃ retryCount, readRetryCount headers = some retryCount ∧
      ((o.process = .returns ∧ o.ack = .returns) ∨ Recovers retryCount o) := by
  unfold GoesOn loopBody
  cases readRetryCount headers with
  | none => simp
  | some n =>
    cases ht : tryBlock o .received with
    | ok k =>
      obtain ⟨hdone, rfl⟩ := tryBlock_ok.mp ht
      exact ⟨fun _ => ⟨n, rfl, .inl hdone⟩,
        fun _ => ⟨_, rfl, received_settled.persist.acked (.inl rfl)⟩⟩
    | error k =>
      have hsettled := tryBlock_error received_settled ht
      constructor
      · rintro ⟨k', hk, _⟩
        exact ⟨n, rfl, .inr (exceptBlock_ok.mp hk).1⟩
      · rintro ⟨_, hn, hdone | hrecovers⟩
        · cases ht.symm.trans (tryBlock_ok.mpr ⟨hdone, rfl⟩)
        · obtain rfl := Option.some.inj hn
          have hx := (exceptBlock_ok (h := k)).mpr ⟨hrecovers, rfl⟩
          exact ⟨_, hx, exceptBlock_settled hsettled hx⟩

/-- A message whose retry count is no number ends the loop, though every call would return. -/
theorem unreadable_count_ends_loop :
    ¬ GoesOn [("x-retry-count", .text "soon")]
      ⟨.returns, .returns, .returns, .returns, .returns⟩ := by
  rintro ⟨h, hbody, _⟩
  have hnone : readRetryCount [("x-retry-count", .text "soon")] = none := by decide
  rw [loopBody, hnone] at hbody
  cases hbody

/-- `async for message in q`: what became of the messages, and whether the loop is still there. -/
def consumeEvents : List (List (String × HeaderValue) × Outcomes) → List Handled × Bool
  | [] => ([], true)
  | (headers, o) :: messages =>
    match loopBody headers o with
    | .ok h => (h :: (consumeEvents messages).1, (consumeEvents messages).2)
    | .error h => ([h], false)

/-- The loop outlives the messages that let it go on, and no others. -/
theorem consumeEvents_alive {messages : List (List (String × HeaderValue) × Outcomes)} :
    (consumeEvents messages).2 = true ↔
      ∀ m ∈ messages, ∃ h, loopBody m.1 m.2 = .ok h := by
  induction messages with
  | nil => simp [consumeEvents]
  | cons m messages ih =>
    obtain ⟨headers, o⟩ := m
    rw [List.forall_mem_cons, ← ih, consumeEvents]
    cases loopBody headers o <;> simp

section

variable {fromisoformat : String → Option Timestamp} {s : State} {tag copy : Tag}
  {m : QueuedMessage}

/-- The place where a pass leaves its message. -/
def LeftAt (s : State) (tag : Tag) (place : Place) : Prop :=
  ∃ m, s.broker tag = some m ∧ m.place = place

/-- A pass takes the consumer from `s` to its next message, or to its end. -/
def Passes (fromisoformat : String → Option Timestamp) (s : State) (tag : Tag)
    (result : Except Handled Handled) : Prop :=
  ∃ t, (system fromisoformat).Path (fun _ _ => True) s t ∧
    match result with
    | .ok h => t.consumer = .idle ∧ LeftAt t tag h.place
    | .error _ => t.consumer = .stopped

theorem path_single (h : Step fromisoformat s a t) :
    (system fromisoformat).Path (fun _ _ => True) s t :=
  .step .refl trivial h

theorem exceptBlock_passes (hc : s.consumer = .failed tag) (hm : s.broker tag = some m)
    (hp : m.place = .unacked) (hcopy : s.broker copy = none) (hh : h.place = .unacked) :
    Passes fromisoformat s tag (exceptBlock m.retryCount o h) := by
  have hne : tag ≠ copy := by
    rintro rfl
    simp [hm] at hcopy
  unfold exceptBlock
  split_ifs with hr
  · cases hpub : o.publish with
    | raises b =>
      refine ⟨_, path_single (@Step.retryRaised _ _ _ (if b then some copy else none) _ hc hm hr
        ?_), ?_⟩
      · cases b <;> simp [Unused, hcopy]
      · cases b <;> rfl
    | returns =>
      have hretry : Step fromisoformat s _ _ := .retry hc hm hr hcopy
      have hcopied := path_single hretry
      have hthere :
          (s.put copy ⟨m.body, some (m.retryCount + 1), .queued⟩).broker tag = some m := by
        simp [State.put, Function.update_of_ne hne, hm]
      cases hack : o.ackCopied with
      | raises b =>
        refine ⟨_, hcopied.step trivial .stop, ?_⟩
        cases b <;> rfl
      | returns =>
        refine ⟨_, hcopied.step trivial (.ackCopied rfl hthere hp), rfl, _, Function.update_self ..,
          ?_⟩
        simp [Handled.settle, Handled.copy, hh]
  · cases hrej : o.reject with
    | raises b =>
      refine ⟨_, .step .refl trivial .stop, ?_⟩
      cases b <;> rfl
    | returns =>
      refine ⟨_, .step .refl trivial (.reject hc hm (not_lt.mp hr) hp), rfl, _,
        Function.update_self .., ?_⟩
      simp [Handled.settle, hh]

theorem passes_after {t : State} {result : Except Handled Handled}
    (h : (system fromisoformat).Path (fun _ _ => True) s t)
    (hp : Passes fromisoformat t tag result) : Passes fromisoformat s tag result := by
  obtain ⟨u, hu, hresult⟩ := hp
  exact ⟨u, h.trans hu, hresult⟩

/-- A pass whose acknowledgement does not get lost is a path of the pipeline, which ends where the
body ends. -/
theorem loopBody_passes (hc : s.consumer = .received tag) (hm : s.broker tag = some m)
    (hp : m.place = .unacked) (hcopy : s.broker copy = none)
    (hheaders : readRetryCount headers = some m.retryCount)
    (hproc : o.process ≠ .raises false → ∃ id store, (∀ e ∈ s.store.events, e.id < id) ∧
      processMessage fromisoformat s.store id m.body = some store) (hack : o.ack ≠ .raises true) :
    Passes fromisoformat s tag (loopBody headers o) := by
  rw [loopBody, hheaders]
  dsimp only
  unfold tryBlock
  cases hprocess : o.process with
  | raises b =>
    cases b with
    | false =>
      have hfailed : Step fromisoformat s _ _ := .processRaised hc
      exact passes_after (path_single hfailed) (exceptBlock_passes rfl hm hp hcopy rfl)
    | true =>
      obtain ⟨id, store, hid, hstore⟩ := hproc (by simp [hprocess])
      have hfailed := path_single (.processCommitted hc hm hid hstore)
      exact passes_after hfailed (exceptBlock_passes rfl hm hp hcopy rfl)
  | returns =>
    obtain ⟨id, store, hid, hstore⟩ := hproc (by simp [hprocess])
    have hprocessed := path_single (.process hc hm hid hstore)
    cases hacked : o.ack with
    | returns =>
      exact ⟨_, hprocessed.step trivial (.ack rfl hm hp), rfl, _, Function.update_self .., rfl⟩
    | raises b =>
      obtain rfl : b = false := by
        cases b
        · rfl
        · exact (hack hacked).elim
      have hfailed := hprocessed.step trivial (.ackRaised rfl)
      exact passes_after hfailed (exceptBlock_passes rfl hm hp hcopy rfl)

end

end ForensicChain.Pipeline
