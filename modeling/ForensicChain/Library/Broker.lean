import ForensicChain.Library.Table
import ForensicChain.Library.TransitionSystem
import Mathlib.Data.List.Dedup
import Mathlib.Data.List.Infix
import Mathlib.Tactic.SplitIfs

/-!
The topology of an AMQP broker: exchanges, queues, their bindings, and where a message goes. The
clients declare what they need each time they connect, in any order; where their declarations
agree, none of them is refused, and what has been declared stays.
-/
namespace Broker

/-- The words of a routing key. -/
def words (key : String) : List (List Char) :=
  if key = "" then [] else key.toList.splitOn '.'

/-- `*` stands for one word of the key, `#` for any number of them. -/
def matchesTopic : List (List Char) → List (List Char) → Bool
  | [], ws => ws.isEmpty
  | p :: ps, ws =>
    if p = ['#'] then ws.tails.any (matchesTopic ps)
    else match ws with
      | [] => false
      | w :: ws => (p = ['*'] || p = w) && matchesTopic ps ws

inductive ExchangeType
  | direct
  | topic
  deriving DecidableEq

/-- A binding with this key takes a message with that one. -/
def ExchangeType.takes : ExchangeType → (bindingKey routingKey : String) → Bool
  | .direct, bindingKey, routingKey => bindingKey = routingKey
  | .topic, bindingKey, routingKey => matchesTopic (words bindingKey) (words routingKey)

variable {ps ws : List (List Char)} {w : List Char}

theorem matchesTopic_word (hstar : w ≠ ['*']) (hhash : w ≠ ['#']) :
    matchesTopic (w :: ps) ws = true ↔ ∃ rest, ws = w :: rest ∧ matchesTopic ps rest = true := by
  cases ws with
  | nil => simp [matchesTopic, hhash]
  | cons v ws =>
    simp only [matchesTopic, hhash, hstar, if_false, decide_false, Bool.false_or, Bool.and_eq_true,
      decide_eq_true_eq, List.cons.injEq]
    constructor
    · rintro ⟨rfl, h⟩
      exact ⟨ws, ⟨rfl, rfl⟩, h⟩
    · rintro ⟨rest, ⟨rfl, rfl⟩, h⟩
      exact ⟨rfl, h⟩

/-- A last `#` takes whatever is left. -/
theorem matchesTopic_rest : matchesTopic [['#']] ws = true := by
  simp only [matchesTopic, if_true, List.any_eq_true, List.mem_tails]
  exact ⟨[], List.nil_suffix, rfl⟩

/-- A plain word before a last `#` takes the keys that begin with the word. -/
theorem matchesTopic_under (hstar : w ≠ ['*']) (hhash : w ≠ ['#']) :
    matchesTopic [w, ['#']] ws = true ↔ ws.head? = some w := by
  rw [matchesTopic_word hstar hhash]
  cases ws with
  | nil => simp
  | cons v ws => simp [matchesTopic_rest]

structure Exchange where
  kind : ExchangeType
  durable : Bool
  deriving DecidableEq

structure Queue where
  durable : Bool
  arguments : List (String × String)
  deriving DecidableEq

structure Binding where
  queue : String
  exchange : String
  key : String
  deriving DecidableEq

structure Topology where
  exchanges : String → Option Exchange
  queues : String → Option Queue
  bindings : List Binding

def Topology.empty : Topology := ⟨fun _ => none, fun _ => none, []⟩

/-- What a client asks of the broker over its channel; the last two only look. -/
inductive Command
  | declareExchange (name : String) (exchange : Exchange)
  | declareQueue (name : String) (queue : Queue)
  | bind (binding : Binding)
  | getExchange (name : String)
  | getQueue (name : String)

/-- What is there already must be what is declared. -/
def declare {α : Type} [DecidableEq α] (table : String → Option α) (name : String) (a : α) :
    Option (String → Option α) :=
  match table name with
  | none => some (Function.update table name (some a))
  | some b => if b = a then some table else none

/-- The effect of a command; `none` closes the channel with an error. -/
def Command.run (t : Topology) : Command → Option Topology
  | .declareExchange name exchange =>
    (declare t.exchanges name exchange).map fun exchanges => { t with exchanges }
  | .declareQueue name queue => (declare t.queues name queue).map fun queues => { t with queues }
  | .bind b =>
    if t.exchanges b.exchange = none ∨ t.queues b.queue = none then none
    else if b ∈ t.bindings then some t
    else some { t with bindings := t.bindings ++ [b] }
  | .getExchange name => if t.exchanges name = none then none else some t
  | .getQueue name => if t.queues name = none then none else some t

/-- The queues that get a copy of a message, one each. -/
def Topology.routes (t : Topology) (exchange routingKey : String) : List String :=
  match t.exchanges exchange with
  | none => []
  | some e => ((t.bindings.filter fun b =>
      b.exchange = exchange ∧ e.kind.takes b.key routingKey = true).map Binding.queue).dedup

/-- Everything of the one topology is in the other. -/
structure Topology.Within (t u : Topology) : Prop where
  exchanges : ∀ name e, t.exchanges name = some e → u.exchanges name = some e
  queues : ∀ name q, t.queues name = some q → u.queues name = some q
  bindings : t.bindings ⊆ u.bindings

/-- What the command asks for is there. -/
def Command.Met (t : Topology) : Command → Prop
  | .declareExchange name exchange => t.exchanges name = some exchange
  | .declareQueue name queue => t.queues name = some queue
  | .bind b => b ∈ t.bindings
  | .getExchange name => ∃ e, t.exchanges name = some e
  | .getQueue name => ∃ q, t.queues name = some q

/-- What the command needs to find. -/
def Command.Ready (t : Topology) : Command → Prop
  | .declareExchange _ _ | .declareQueue _ _ => True
  | .bind b => (∃ e, t.exchanges b.exchange = some e) ∧ ∃ q, t.queues b.queue = some q
  | .getExchange name => ∃ e, t.exchanges name = some e
  | .getQueue name => ∃ q, t.queues name = some q

variable {t u v : Topology} {c : Command}

theorem Topology.Within.refl (t : Topology) : t.Within t :=
  ⟨fun _ _ => id, fun _ _ => id, List.Subset.refl _⟩

theorem Topology.Within.trans (h : t.Within u) (h' : u.Within v) : t.Within v :=
  ⟨fun name e he => h'.exchanges name e (h.exchanges name e he),
    fun name q hq => h'.queues name q (h.queues name q hq),
    List.Subset.trans h.bindings h'.bindings⟩

theorem Command.Met.mono (h : c.Met t) (hw : t.Within u) : c.Met u := by
  cases c with
  | declareExchange name e => exact hw.exchanges name e h
  | declareQueue name q => exact hw.queues name q h
  | bind b => exact hw.bindings h
  | getExchange name => exact h.imp fun e => hw.exchanges name e
  | getQueue name => exact h.imp fun q => hw.queues name q

theorem declare_some {α : Type} [DecidableEq α] {table table' : String → Option α} {name : String}
    {a : α} (h : declare table name a = some table') :
    table' name = some a ∧ ∀ k b, table k = some b → table' k = some b := by
  unfold declare at h
  split at h
  · rename_i hfree
    obtain rfl := Option.some.inj h
    exact ⟨Function.update_self _ _ _, fun k b => Table.update_of_free hfree⟩
  · rename_i b hb
    split_ifs at h with heq
    obtain rfl := Option.some.inj h
    exact ⟨heq ▸ hb, fun _ _ => id⟩

/-- A declaration that agrees with the plan is taken, and leads to nothing else. -/
theorem declare_of_plan {α : Type} [DecidableEq α] {table plan : String → Option α} {name : String}
    {a : α} (hw : ∀ k b, table k = some b → plan k = some b) (ha : plan name = some a) :
    ∃ table', declare table name a = some table' ∧ ∀ k b, table' k = some b → plan k = some b := by
  unfold declare
  cases hname : table name with
  | none =>
    refine ⟨_, rfl, fun k b hk => ?_⟩
    rcases Table.update_some hk with ⟨rfl, rfl⟩ | ⟨_, hold⟩
    · exact ha
    · exact hw k b hold
  | some b =>
    obtain rfl := Option.some.inj (ha.symm.trans (hw name b hname))
    exact ⟨table, if_pos rfl, hw⟩

/-- A command that is taken has what it asked for, and takes nothing away. -/
theorem Command.run_some (h : c.run t = some u) : c.Met u ∧ t.Within u := by
  have hrefl := Topology.Within.refl t
  cases c with
  | declareExchange name e =>
    obtain ⟨table, hdeclare, rfl⟩ := Option.map_eq_some_iff.mp h
    obtain ⟨hmet, hkept⟩ := declare_some hdeclare
    exact ⟨hmet, ⟨hkept, hrefl.queues, hrefl.bindings⟩⟩
  | declareQueue name q =>
    obtain ⟨table, hdeclare, rfl⟩ := Option.map_eq_some_iff.mp h
    obtain ⟨hmet, hkept⟩ := declare_some hdeclare
    exact ⟨hmet, ⟨hrefl.exchanges, hkept, hrefl.bindings⟩⟩
  | bind b =>
    simp only [run] at h
    split_ifs at h with hnone hmem
    · obtain rfl := Option.some.inj h
      exact ⟨hmem, hrefl⟩
    · obtain rfl := Option.some.inj h
      exact ⟨List.mem_append_right _ (List.mem_singleton_self b),
        ⟨hrefl.exchanges, hrefl.queues, List.subset_append_left _ _⟩⟩
  | getExchange name =>
    simp only [run] at h
    split_ifs at h with hnone
    obtain rfl := Option.some.inj h
    exact ⟨Option.ne_none_iff_exists'.mp hnone, hrefl⟩
  | getQueue name =>
    simp only [run] at h
    split_ifs at h with hnone
    obtain rfl := Option.some.inj h
    exact ⟨Option.ne_none_iff_exists'.mp hnone, hrefl⟩

/-- A command of the plan is taken once it finds what it needs, and keeps to the plan. -/
theorem Command.run_of_plan (hw : t.Within u) (hplan : c.Met u) (hready : c.Ready t) :
    ∃ t', c.run t = some t' ∧ t'.Within u := by
  cases c with
  | declareExchange name e =>
    obtain ⟨table, hdeclare, hkept⟩ := declare_of_plan hw.exchanges hplan
    exact ⟨_, Option.map_eq_some_iff.mpr ⟨table, hdeclare, rfl⟩, ⟨hkept, hw.queues, hw.bindings⟩⟩
  | declareQueue name q =>
    obtain ⟨table, hdeclare, hkept⟩ := declare_of_plan hw.queues hplan
    exact ⟨_, Option.map_eq_some_iff.mpr ⟨table, hdeclare, rfl⟩, ⟨hw.exchanges, hkept, hw.bindings⟩⟩
  | bind b =>
    obtain ⟨⟨e, he⟩, q, hq⟩ := hready
    by_cases hmem : b ∈ t.bindings
    · exact ⟨t, by simp [run, he, hq, hmem], hw⟩
    · refine ⟨{ t with bindings := t.bindings ++ [b] }, by simp [run, he, hq, hmem],
        ⟨hw.exchanges, hw.queues, ?_⟩⟩
      exact List.append_subset.mpr ⟨hw.bindings, List.cons_subset.mpr ⟨hplan, List.nil_subset _⟩⟩
  | getExchange name =>
    obtain ⟨e, he⟩ := hready
    exact ⟨t, by simp [run, he], hw⟩
  | getQueue name =>
    obtain ⟨q, hq⟩ := hready
    exact ⟨t, by simp [run, hq], hw⟩

theorem mem_routes {exchange routingKey queue : String} :
    queue ∈ t.routes exchange routingKey ↔ ∃ e, t.exchanges exchange = some e ∧
      ∃ b ∈ t.bindings, b.exchange = exchange ∧ e.kind.takes b.key routingKey = true ∧
        b.queue = queue := by
  unfold Topology.routes
  cases t.exchanges exchange with
  | none => simp
  | some e => simp [and_assoc]

/-- A topology with all that is planned and nothing else sends a message where the plan does. -/
theorem routes_of_plan {exchange routingKey queue : String} (htu : t.Within u) (hut : u.Within t)
    (h : u.routes exchange routingKey = [queue]) : t.routes exchange routingKey = [queue] := by
  have hmem : ∀ q, q ∈ t.routes exchange routingKey ↔ q ∈ [queue] := by
    intro q
    rw [← h, mem_routes, mem_routes]
    constructor
    · rintro ⟨e, he, b, hb, hrest⟩
      exact ⟨e, htu.exchanges _ _ he, b, htu.bindings hb, hrest⟩
    · rintro ⟨e, he, b, hb, hrest⟩
      exact ⟨e, hut.exchanges _ _ he, b, hut.bindings hb, hrest⟩
  have hnodup : (t.routes exchange routingKey).Nodup := by
    unfold Topology.routes
    split
    · exact List.nodup_nil
    · exact List.nodup_dedup _
  exact List.perm_singleton.mp
    ((List.perm_ext_iff_of_nodup hnodup (List.nodup_singleton queue)).mpr hmem)

/-- What the command needs is declared among these. -/
def Command.suppliedBy (pre : List Command) : Command → Bool
  | .declareExchange _ _ | .declareQueue _ _ => true
  | .bind b =>
    pre.any (fun | .declareExchange name _ => name = b.exchange | _ => false) &&
      pre.any fun | .declareQueue name _ => name = b.queue | _ => false
  | .getExchange name => pre.any fun | .declareExchange k _ => k = name | _ => false
  | .getQueue name => pre.any fun | .declareQueue k _ => k = name | _ => false

/-- Each command finds what it needs among those before it. -/
def wellOrdered : (pre program : List Command) → Bool
  | _, [] => true
  | pre, c :: rest => c.suppliedBy pre && wellOrdered (pre ++ [c]) rest

theorem exchange_of_declared {pre : List Command} {name : String} (hmet : ∀ c ∈ pre, c.Met t)
    (h : pre.any (fun | .declareExchange k _ => k = name | _ => false) = true) :
    ∃ e, t.exchanges name = some e := by
  obtain ⟨c, hc, hname⟩ := List.any_eq_true.mp h
  cases c with
  | declareExchange k e =>
    obtain rfl : k = name := by simpa using hname
    exact ⟨e, hmet _ hc⟩
  | _ => simp at hname

theorem queue_of_declared {pre : List Command} {name : String} (hmet : ∀ c ∈ pre, c.Met t)
    (h : pre.any (fun | .declareQueue k _ => k = name | _ => false) = true) :
    ∃ q, t.queues name = some q := by
  obtain ⟨c, hc, hname⟩ := List.any_eq_true.mp h
  cases c with
  | declareQueue k q =>
    obtain rfl : k = name := by simpa using hname
    exact ⟨q, hmet _ hc⟩
  | _ => simp at hname

theorem Command.ready_of_supplied {pre : List Command} (hmet : ∀ c ∈ pre, c.Met t)
    (h : c.suppliedBy pre = true) : c.Ready t := by
  cases c with
  | declareExchange | declareQueue => trivial
  | bind b =>
    obtain ⟨hexchange, hqueue⟩ := Bool.and_eq_true_iff.mp h
    exact ⟨exchange_of_declared hmet hexchange, queue_of_declared hmet hqueue⟩
  | getExchange name => exact exchange_of_declared hmet h
  | getQueue name => exact queue_of_declared hmet h

/-- A connection: the commands that were taken, and those still to come. -/
structure Client where
  done : List Command
  todo : List Command

structure State where
  topology : Topology
  clients : Nat → Option Client

inductive Action
  | connect (i : Nat)
  | exec (i : Nat)
  | refused (i : Nat)
  | disconnect (i : Nat)

inductive Step (programs : List (List Command)) : State → Action → State → Prop
  | connect {s i program} (hi : s.clients i = none) (hp : program ∈ programs) :
      Step programs s (.connect i)
        { s with clients := Function.update s.clients i (some ⟨[], program⟩) }
  | exec {s i done c rest t} (hi : s.clients i = some ⟨done, c :: rest⟩)
      (hc : c.run s.topology = some t) :
      Step programs s (.exec i)
        ⟨t, Function.update s.clients i (some ⟨done ++ [c], rest⟩)⟩
  /-- The channel is closed with an error, and the client gives up. -/
  | refused {s i done c rest} (hi : s.clients i = some ⟨done, c :: rest⟩)
      (hc : c.run s.topology = none) :
      Step programs s (.refused i) { s with clients := Function.update s.clients i none }
  | disconnect {s i} :
      Step programs s (.disconnect i) { s with clients := Function.update s.clients i none }

def Initial (s : State) : Prop := s.topology = .empty ∧ ∀ i, s.clients i = none

/-- Any number of clients, each of which goes through one of the programs. -/
def system (programs : List (List Command)) : TransitionSystem State Action :=
  ⟨Initial, Step programs⟩

/-- What the clients have done is there, what they do is in order, and nothing else is there than
what is planned. -/
structure Invariant (plan : Topology) (s : State) : Prop where
  within : s.topology.Within plan
  planned : ∀ i k, s.clients i = some k → ∀ c ∈ k.todo, c.Met plan
  met : ∀ i k, s.clients i = some k → ∀ c ∈ k.done, c.Met s.topology
  ordered : ∀ i k, s.clients i = some k → wellOrdered k.done k.todo = true

variable {programs : List (List Command)} {plan : Topology} {s s' : State} {a : Action}

theorem Step.within (hs : Step programs s a s') : s.topology.Within s'.topology := by
  cases hs with
  | exec hi hc => exact (Command.run_some hc).2
  | _ => exact .refl _

theorem Invariant.drop (h : Invariant plan s) (i : Nat) :
    Invariant plan { s with clients := Function.update s.clients i none } := by
  have hold : ∀ {j k}, Function.update s.clients i none j = some k → s.clients j = some k := by
    intro j k hj
    by_cases hji : j = i
    · subst hji
      simp at hj
    · simpa [Function.update_of_ne hji] using hj
  exact ⟨h.within, fun j k hj => h.planned j k (hold hj), fun j k hj => h.met j k (hold hj),
    fun j k hj => h.ordered j k (hold hj)⟩

theorem Invariant.step (h : Invariant plan s) (hplan : ∀ p ∈ programs, ∀ c ∈ p, c.Met plan)
    (horder : ∀ p ∈ programs, wellOrdered [] p = true) (hs : Step programs s a s') :
    Invariant plan s' := by
  cases hs with
  | connect hi hp =>
    exact {
      within := h.within
      planned := Table.forall_update (fun j _ k hj => h.planned j k hj) (hplan _ hp)
      met := Table.forall_update (fun j _ k hj => h.met j k hj) (by simp)
      ordered := Table.forall_update (fun j _ k hj => h.ordered j k hj) (horder _ hp) }
  | @exec i done c rest t hi hc =>
    obtain ⟨hmet, hgrows⟩ := Command.run_some hc
    have hplanned := h.planned i _ hi
    obtain ⟨hsupplied, hrest⟩ := Bool.and_eq_true_iff.mp (h.ordered i _ hi)
    obtain ⟨t', ht', hwithin⟩ := Command.run_of_plan h.within (hplanned c List.mem_cons_self)
      (Command.ready_of_supplied (h.met i _ hi) hsupplied)
    obtain rfl := Option.some.inj (hc.symm.trans ht')
    refine {
      within := hwithin
      planned := Table.forall_update (fun j _ k hj => h.planned j k hj)
        fun d hd => hplanned d (List.mem_cons_of_mem c hd)
      met := Table.forall_update (fun j _ k hj d hd => (h.met j k hj d hd).mono hgrows) ?_
      ordered := Table.forall_update (fun j _ k hj => h.ordered j k hj) hrest }
    intro d hd
    rcases List.mem_append.mp hd with hd | hd
    · exact (h.met i _ hi d hd).mono hgrows
    · rw [List.mem_singleton.mp hd]
      exact hmet
  | refused hi hc => exact h.drop _
  | disconnect => exact h.drop _

theorem invariant_reachable (hplan : ∀ p ∈ programs, ∀ c ∈ p, c.Met plan)
    (horder : ∀ p ∈ programs, wellOrdered [] p = true) (h : (system programs).Reachable s) :
    Invariant plan s := by
  refine h.invariant ?_ fun _ _ _ hi hs => hi.step hplan horder hs
  rintro s ⟨htopology, hnone⟩
  have hwithin : s.topology.Within plan := by
    rw [htopology]
    exact ⟨by simp [Topology.empty], by simp [Topology.empty], List.nil_subset _⟩
  exact ⟨hwithin, by simp [hnone], by simp [hnone], by simp [hnone]⟩

/-- No client is refused. -/
theorem Invariant.taken (h : Invariant plan s) {i : Nat} {done rest : List Command}
    (hi : s.clients i = some ⟨done, c :: rest⟩) : ∃ t, c.run s.topology = some t := by
  obtain ⟨hsupplied, _⟩ := Bool.and_eq_true_iff.mp (h.ordered i _ hi)
  obtain ⟨t, ht, _⟩ := Command.run_of_plan h.within (h.planned i _ hi c List.mem_cons_self)
    (Command.ready_of_supplied (h.met i _ hi) hsupplied)
  exact ⟨t, ht⟩

/-- A client can go through its program to the end. -/
theorem Invariant.finishes (hplan : ∀ p ∈ programs, ∀ c ∈ p, c.Met plan)
    (horder : ∀ p ∈ programs, wellOrdered [] p = true) {i : Nat} {todo : List Command} :
    ∀ {s : State} {done : List Command}, Invariant plan s → s.clients i = some ⟨done, todo⟩ →
      ∃ s', (system programs).Path (fun _ _ => True) s s' ∧
        s'.clients i = some ⟨done ++ todo, []⟩ := by
  induction todo with
  | nil =>
    intro s done _ hi
    exact ⟨s, .refl, by rw [hi, List.append_nil]⟩
  | cons c rest ih =>
    intro s done h hi
    obtain ⟨t, ht⟩ := h.taken hi
    have hstep : (system programs).step s (.exec i) _ := Step.exec hi ht
    obtain ⟨s', hp, hend⟩ := ih (h.step hplan horder hstep) (Function.update_self _ _ _)
    have hfirst : (system programs).Path (fun _ _ => True) s _ := .step .refl trivial hstep
    exact ⟨s', hfirst.trans hp, by simpa using hend⟩

/-- What is declared stays, whoever connects and disconnects. -/
theorem within_path {ok : State → Action → Prop} (hp : (system programs).Path ok s s') :
    s.topology.Within s'.topology := by
  induction hp with
  | refl => exact .refl _
  | step _ _ hs ih => exact ih.trans (Step.within hs)

end Broker
