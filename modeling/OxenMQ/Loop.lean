import Mathlib.Data.List.Sort
import OxenMQ.Connections.Updated
import OxenMQ.Lib.CircularBuffer

/-!
# One iteration of the proxy loop

The embedding of `proxy_loop` as far as the connections go.  An iteration waits for something to
happen, processes the control messages, the workers' messages, the timers and the authentication
requests, and then takes messages off the connections, one at a time and in turns.  The
connections to look at are kept in `queue`, a circular buffer of pointers into `connections`.

The queue is filled at one of two points.  Without `epoll`, and in the iterations that skip the
poll, it is filled after the other work has been done, with the connections there are at that
point.  In an iteration that has waited in `epoll_wait` it is filled before, with the connections
that are reported ready.  While messages are taken off, a connection that goes away ends the
iteration; but nobody looks at the queue when a control message or a timer closes a connection that
is in it.

`queue_fresh_iff` says what follows.  A pointer is stale in an iteration exactly if it has
waited in `epoll_wait`, the other work has closed one of the connections that were reported, and
none of the connections before it in the queue has a message, which would have ended the
iteration.

A pointer into `connections` is modelled by the number of the connection; no number is used twice.
What the outside decides in an iteration is collected in `Iteration`.  The workers' messages and the
authentication requests are not part of it, since they have nothing to do with connections.
-/

set_option autoImplicit false

namespace OxenMQ

variable {κ : Type}

/-! ## What the outside decides -/

/-- What `epoll_wait` reports. -/
inductive Ready where
  | command
  | worker
  | zap
  | connection (id : ℤ)
  deriving DecidableEq, Repr

/-- A message that is taken off a connection. -/
structure Delivery where
  env : Env := {}
  /-- Would a command be dispatched at once? -/
  immediate : Bool := true
  message : Incoming

structure Iteration where
  /-- The result of `epoll_wait`. -/
  evs : List Ready := []
  /-- Does the control socket have something to read?  This is looked at when the poll is skipped.
  -/
  commandReady : Bool := true
  /-- The control messages that have come in. -/
  control : List ConnEvent := []
  /-- The timers that have run out, as far as they concern connections. -/
  timers : List ConnEvent := []
  /-- Which connections have something to read, after all that. -/
  readable : ℤ → Bool := fun _ => true
  /-- What each turn of the incoming message loop takes off its connection, if anything. -/
  recv : ℕ → Option Delivery := fun _ => none
  /-- The number of turns. -/
  turns : ℕ := 0
  /-- Does any socket have something to read in the end? -/
  pollin : Bool := false

/-- Is this a control message?  Numbers are drawn by other threads at any time. -/
def ConnEvent.isControl : ConnEvent → Bool
  | .message .. | .cleanup .. | .setFlags .. => false
  | _ => true

/-- Can this happen while the timers are processed? -/
def ConnEvent.isTimer : ConnEvent → Bool
  | .cleanup .. | .allocate => true
  | _ => false

/-! ## Before the incoming messages -/

namespace Conn

/-- Is there an entry in the table with nothing behind it? -/
def hasNull (c : Conn) : Bool := c.connections.entries.any fun e => !e.2.isOpen

/-- `rebuild_pollitems`.  A socket with nothing behind it has no descriptor to give to `epoll`. -/
def rebuildPollitems (epoll : Bool) (c : Conn) : Option Conn :=
  if epoll && c.hasNull then none else some { c with connectionsUpdated := false }

/-- The beginning of an iteration, up to the poll, and whether to wait in `epoll_wait`. -/
def beginIteration (epoll : Bool) (c : Conn) : Option (Conn × Bool) := do
  let c ← if c.connectionsUpdated then
      (c.rebuildPollitems epoll).map fun c => { c with proxySkipOnePoll := true }
    else some c
  return ({ c with proxySkipOnePoll := false }, epoll && !c.proxySkipOnePoll)

/-- The queue after `epoll_wait`: the reported connections that are in the table.  What is reported
has a socket behind it. -/
def reportedQueue (c : Conn) (evs : List Ready) : List ℤ :=
  evs.filterMap fun
    | .connection id => if c.isOpen id then some id else none
    | _ => none

/-- The queue of an iteration that looks at all connections.  There is nothing to ask a socket with
nothing behind it. -/
def readableQueue (c : Conn) (readable : ℤ → Bool) : Option (List ℤ) :=
  if c.hasNull then none
  else some ((c.connections.keys.insertionSort (· ≤ ·)).filter readable)

end Conn

namespace Iteration

/-- The control messages that are processed in this iteration. -/
def processed (i : Iteration) (epoll polled : Bool) : List ConnEvent :=
  let processCommand :=
    if epoll then if polled then decide (.command ∈ i.evs) else i.commandReady else true
  if processCommand then i.control else []

/-- Control messages and timers. -/
def phases (i : Iteration) (cfg : Config κ) (epoll polled : Bool) (c : Conn) : Option Conn :=
  if i.control.all ConnEvent.isControl && i.timers.all ConnEvent.isTimer then
    Transition.run (Conn.step cfg) c (i.processed epoll polled ++ i.timers)
  else none

end Iteration

/-! ## The incoming messages -/

/-- The incoming message loop on its way: the tables, the queue, and whether it has been left. -/
structure Pass where
  conn : Conn
  queue : CircularBuffer (Option ℤ)
  stopped : Bool := false

namespace Pass

/-- The pointer that is dereferenced next, unless the loop is at its end. -/
def pointer (p : Pass) : Option (Option ℤ) := if p.stopped then none else p.queue.front?

/-- Does the next pointer, if there is one, point to a connection in the table? -/
def Fresh (p : Pass) : Prop :=
  ∀ ptr, p.pointer = some ptr → ∃ id, ptr = some id ∧ p.conn.isOpen id = true

/-- One turn of the loop.  It goes nowhere if the pointer is no good, or if an exception is thrown.
-/
def turn (cfg : Config κ) (p : Pass) (received : Option Delivery) : Option Pass :=
  match p.pointer with
  | some (some id) =>
    if p.conn.isOpen id then
      match received with
      | none => some { p with queue := p.queue.advance }
      | some d =>
        let queue := p.queue.requeue
        if d.message.parts = [] then some { p with queue := queue.advance }
        else
          let router := decide (p.conn.connections.lookup id = some .router)
          match p.conn.receive cfg d.env d.immediate id router d.message with
          | .ok (c, _) =>
            if c.connectionsUpdated then some ⟨c, queue, true⟩
            else some { conn := c, queue := queue.advance }
          | .error _ => none
    else none
  | _ => none

/-- The loop after a number of turns. -/
def turns (cfg : Config κ) (p : Pass) (recv : ℕ → Option Delivery) (n : ℕ) : Option Pass :=
  Transition.run (turn cfg) p ((List.range n).map recv)

end Pass

namespace Iteration

/-- What is put into the queue, given the tables before and after the other work. -/
def queue (i : Iteration) (polled : Bool) (c₀ c₁ : Conn) : Option (List ℤ) :=
  if polled then some (c₀.reportedQueue i.evs) else c₁.readableQueue i.readable

/-- The incoming message loop when it begins. -/
def firstPass (i : Iteration) (cfg : Config κ) (epoll : Bool) (c : Conn) : Option Pass := do
  let (c₀, polled) ← c.beginIteration epoll
  let c₁ ← i.phases cfg epoll polled c₀
  let queue ← i.queue polled c₀ c₁
  return { conn := c₁, queue := .ofList (queue.map some) none }

/-- The incoming message loop after a number of turns. -/
def passAfter (i : Iteration) (cfg : Config κ) (epoll : Bool) (c : Conn) (n : ℕ) : Option Pass :=
  (i.firstPass cfg epoll c).bind fun p => p.turns cfg i.recv n

/-- A whole iteration. -/
def iterate (cfg : Config κ) (epoll : Bool) (c : Conn) (i : Iteration) : Option Conn := do
  let p ← i.passAfter cfg epoll c i.turns
  if p.pointer.isSome then none
  else
    let c := p.conn
    if epoll && !c.connectionsUpdated && !c.proxySkipOnePoll && i.pollin then
      return { c with proxySkipOnePoll := true }
    else return c

end Iteration

/-! ## What is in the queue in the beginning -/

namespace Conn

variable {c : Conn} {id : ℤ}

theorem isOpen_of_mem_reportedQueue {evs : List Ready} (h : id ∈ c.reportedQueue evs) :
    c.isOpen id = true := by
  obtain ⟨e, _, he⟩ := List.mem_filterMap.1 h
  split at he
  · split at he
    · cases he
      assumption
    · cases he
  · cases he

theorem isOpen_of_mem_readableQueue {readable : ℤ → Bool} {queue : List ℤ}
    (hqueue : c.readableQueue readable = some queue) (h : id ∈ queue) : c.isOpen id = true := by
  rw [readableQueue] at hqueue
  split at hqueue
  · cases hqueue
  · rename_i hnull
    cases hqueue
    have hmem : id ∈ c.connections := by
      simpa [AList.mem_keys] using (List.mem_filter.1 h).1
    obtain ⟨s, hs⟩ := Option.isSome_iff_exists.1 (AList.lookup_isSome.2 hmem)
    rw [isOpen, hs, Option.any_some]
    by_contra hclosed
    exact hnull (List.any_eq_true.2
      ⟨⟨id, s⟩, AList.mem_lookup_iff.1 hs, by simpa using hclosed⟩)

end Conn

theorem ConnEvent.not_setsFlags_of_isControl {e : ConnEvent} (h : e.isControl = true) :
    e.setsFlags = false := by
  cases e <;> first | rfl | cases h

theorem ConnEvent.not_setsFlags_of_isTimer {e : ConnEvent} (h : e.isTimer = true) :
    e.setsFlags = false := by
  cases e <;> first | rfl | cases h

theorem Iteration.mem_control_of_mem_processed (i : Iteration) {epoll polled : Bool} {e : ConnEvent}
    (h : e ∈ i.processed epoll polled) : e ∈ i.control := by
  dsimp only [processed] at h
  generalize (if epoll then _ else true) = processCommand at h
  cases processCommand with
  | true => exact h
  | false => cases h

/-- Neither the control messages nor the timers reset a flag. -/
theorem Iteration.phases_flagged {i : Iteration} {cfg : Config κ} {epoll polled : Bool}
    {c c' : Conn} (h : i.phases cfg epoll polled c = some c') : c.Flagged c' := by
  rw [phases] at h
  split at h
  · rename_i hkind
    rw [Bool.and_eq_true, List.all_eq_true, List.all_eq_true] at hkind
    refine Conn.run_flagged (fun e he => ?_) h
    rcases List.mem_append.1 he with he | he
    · exact ConnEvent.not_setsFlags_of_isControl (hkind.1 e (i.mem_control_of_mem_processed he))
    · exact ConnEvent.not_setsFlags_of_isTimer (hkind.2 e he)
  · cases h

/-! ## The turns -/

/-- Is there a message, with something in it? -/
def someMessage (received : Option Delivery) : Bool := received.any fun d => d.message.parts != []

namespace Pass

variable {cfg : Config κ} {p p' : Pass} {received : Option Delivery} {id : ℤ} {ids : List ℤ}

/-- The loop has not been left, and these connections are in the queue. -/
structure Queued (p : Pass) (ids : List ℤ) : Prop where
  running : p.stopped = false
  queue : p.queue.Represents (ids.map some)

theorem Queued.pointer_nil (h : p.Queued []) : p.pointer = none := by
  rw [pointer, h.running, CircularBuffer.Represents.front?_nil h.queue]
  rfl

theorem Queued.pointer_cons (h : p.Queued (id :: ids)) : p.pointer = some (some id) := by
  rw [pointer, h.running, CircularBuffer.Represents.front?_cons h.queue]
  rfl

/-- A turn that is taken has a good pointer. -/
theorem Queued.exists_cons (h : p.Queued ids) (ht : p.turn cfg received = some p') :
    ∃ id rest, ids = id :: rest ∧ p.conn.isOpen id = true := by
  cases ids with
  | nil =>
    rw [turn, h.pointer_nil] at ht
    cases ht
  | cons id rest =>
    refine ⟨id, rest, rfl, ?_⟩
    rw [turn, h.pointer_cons] at ht
    dsimp only at ht
    split at ht
    · assumption
    · cases ht

variable (cfg) in
/-- A turn without a message changes nothing but the queue. -/
theorem Queued.turn_quiet (h : p.Queued (id :: ids)) (hopen : p.conn.isOpen id = true)
    (hquiet : someMessage received = false) :
    ∃ p' again, p.turn cfg received = some p' ∧ p'.conn = p.conn ∧ p'.Queued (ids ++ again) ∧
      ∀ x ∈ again, x = id := by
  rw [turn, h.pointer_cons]
  dsimp only
  rw [if_pos hopen]
  cases received with
  | none =>
    refine ⟨_, [], rfl, rfl, ⟨h.running, ?_⟩, nofun⟩
    rw [List.append_nil]
    exact h.queue.advance
  | some d =>
    have hempty : d.message.parts = [] := by simpa [someMessage] using hquiet
    dsimp only
    rw [if_pos hempty]
    refine ⟨_, [id], rfl, rfl, ⟨h.running, ?_⟩, fun x hx => List.mem_singleton.1 hx⟩
    rw [List.map_append]
    exact h.queue.rotate

/-- A message is received. -/
theorem turn_of_receive (hpointer : p.pointer = some (some id)) (hopen : p.conn.isOpen id = true)
    {d : Delivery} (hparts : d.message.parts ≠ []) {c : Conn} {arr : Option (Arrival κ)}
    (hreceive : p.conn.receive cfg d.env d.immediate id
      (decide (p.conn.connections.lookup id = some .router)) d.message = .ok (c, arr)) :
    p.turn cfg (some d) =
      if c.connectionsUpdated then some ⟨c, p.queue.requeue, true⟩
      else some { conn := c, queue := p.queue.requeue.advance } := by
  rw [turn, hpointer]
  dsimp only
  rw [if_pos hopen, if_neg hparts, hreceive]

/-- A turn with a message ends the loop, unless no connection has been opened or closed in this
iteration. -/
theorem Queued.turn_message (h : p.Queued (id :: ids)) (hmessage : someMessage received = true)
    (ht : p.turn cfg received = some p') :
    p'.stopped = true ∨
    (p.conn.connectionsUpdated = false ∧ p'.conn.connections = p.conn.connections ∧
      p'.Queued (ids ++ [id])) := by
  rw [turn, h.pointer_cons] at ht
  dsimp only at ht
  split at ht
  · cases received with
    | none => cases hmessage
    | some d =>
      have hne : d.message.parts ≠ [] := by simpa [someMessage] using hmessage
      dsimp only at ht
      rw [if_neg hne] at ht
      split at ht
      · rename_i c arr hreceive
        split at ht
        · cases ht
          exact Or.inl rfl
        · rename_i hupdated
          cases ht
          rcases Conn.receive_kept_or_updated hreceive with ⟨hconn, hflag⟩ | hflag
          · refine Or.inr ⟨?_, hconn, rfl, ?_⟩
            · rw [← hflag]
              exact Bool.eq_false_of_not_eq_true hupdated
            · rw [List.map_append]
              exact h.queue.rotate
          · exact absurd hflag hupdated
      · cases ht
  · cases ht

/-! ## The whole loop -/

/-- All that is in the queue can be dereferenced. -/
def AllOpen (p : Pass) : Prop :=
  p.stopped = true ∨ ∃ ids, p.Queued ids ∧ ∀ id ∈ ids, p.conn.isOpen id = true

theorem fresh_of_stopped (h : p.stopped = true) : p.Fresh := by
  intro ptr hptr
  rw [pointer, h] at hptr
  cases hptr

theorem turn_of_stopped (h : p.stopped = true) : p.turn cfg received = none := by
  rw [turn, pointer, h]
  rfl

theorem Queued.fresh (h : p.Queued ids) (hopen : ∀ id ∈ ids.head?, p.conn.isOpen id = true) :
    p.Fresh := by
  intro ptr hptr
  cases ids with
  | nil =>
    rw [h.pointer_nil] at hptr
    cases hptr
  | cons id rest =>
    rw [h.pointer_cons] at hptr
    exact ⟨id, (Option.some.inj hptr).symm, hopen id rfl⟩

theorem AllOpen.fresh (h : p.AllOpen) : p.Fresh := by
  rcases h with h | ⟨ids, h, hopen⟩
  · exact fresh_of_stopped h
  · exact h.fresh fun id hid => hopen id (List.mem_of_head? hid)

/-- A queue without stale pointers stays one: a message that closes a connection ends the loop. -/
theorem AllOpen.turn (h : p.AllOpen) (ht : p.turn cfg received = some p') : p'.AllOpen := by
  rcases h with h | ⟨ids, h, hopen⟩
  · rw [turn_of_stopped h] at ht
    cases ht
  obtain ⟨id, rest, rfl, hid⟩ := h.exists_cons ht
  cases hmessage : someMessage received with
  | false =>
    obtain ⟨p₁, again, ht₁, hconn, hqueued, hagain⟩ := h.turn_quiet cfg hid hmessage
    obtain rfl := Option.some.inj (ht.symm.trans ht₁)
    refine Or.inr ⟨_, hqueued, fun x hx => ?_⟩
    rw [hconn]
    rcases List.mem_append.1 hx with hx | hx
    · exact hopen x (List.mem_cons_of_mem _ hx)
    · rw [hagain x hx]
      exact hid
  | true =>
    rcases h.turn_message hmessage ht with hstop | ⟨_, hconn, hqueued⟩
    · exact Or.inl hstop
    · refine Or.inr ⟨_, hqueued, fun x hx => ?_⟩
      rw [Conn.isOpen_congr hconn]
      rcases List.mem_append.1 hx with hx | hx
      · exact hopen x (List.mem_cons_of_mem _ hx)
      · rw [List.mem_singleton.1 hx]
        exact hid

/-- There has been no message in the first `n` turns.  What is left of the queue as it was comes
first. -/
structure FirstRound (c : Conn) (queue : List ℤ) (n : ℕ) (p : Pass) : Prop where
  conn : p.conn = c
  queued : ∃ again, p.Queued (queue.drop n ++ again) ∧ ∀ id ∈ again, c.isOpen id = true

namespace FirstRound

variable {c : Conn} {queue : List ℤ} {n : ℕ}

theorem of_ofList (c : Conn) (queue : List ℤ) :
    FirstRound c queue 0 { conn := c, queue := .ofList (queue.map some) none } := by
  refine ⟨rfl, [], ⟨rfl, ?_⟩, nofun⟩
  rw [List.drop_zero, List.append_nil]
  exact CircularBuffer.represents_ofList _ _

theorem pointer_of_getElem? (h : FirstRound c queue n p) (hid : queue[n]? = some id) :
    p.pointer = some (some id) := by
  obtain ⟨again, hqueued, _⟩ := h.queued
  obtain ⟨hlt, rfl⟩ := List.getElem?_eq_some_iff.1 hid
  rw [List.drop_eq_getElem_cons hlt] at hqueued
  exact hqueued.pointer_cons

/-- The pointer is good unless it is one of the first round whose connection is gone. -/
theorem fresh (h : FirstRound c queue n p)
    (hopen : ∀ id, queue[n]? = some id → c.isOpen id = true) : p.Fresh := by
  obtain ⟨again, hqueued, hagain⟩ := h.queued
  refine hqueued.fresh fun id hid => ?_
  rw [h.conn]
  rw [List.head?_append, List.head?_drop] at hid
  cases hn : queue[n]? with
  | some x =>
    rw [hn] at hid
    exact hopen id (hn.trans hid)
  | none =>
    rw [hn] at hid
    exact hagain id (List.mem_of_head? hid)

variable (cfg) in
/-- One more turn without a message. -/
theorem turn_quiet (h : FirstRound c queue n p) (hfresh : p.Fresh) (hsome : p.pointer ≠ none)
    (hquiet : someMessage received = false) :
    ∃ p', p.turn cfg received = some p' ∧ FirstRound c queue (n + 1) p' := by
  obtain ⟨again, hqueued, hagain⟩ := h.queued
  cases hids : queue.drop n ++ again with
  | nil =>
    rw [hids] at hqueued
    exact absurd hqueued.pointer_nil hsome
  | cons id rest =>
    rw [hids] at hqueued
    obtain ⟨_, ⟨⟩, hid⟩ := hfresh _ hqueued.pointer_cons
    obtain ⟨p', more, ht, hconn, hqueued', hmore⟩ := hqueued.turn_quiet cfg hid hquiet
    rw [h.conn] at hid hconn
    have hmore' : ∀ x ∈ more, c.isOpen x = true := fun x hx => by rw [hmore x hx]; exact hid
    refine ⟨p', ht, hconn, ?_⟩
    rw [← List.drop_drop]
    cases hdrop : queue.drop n with
    | nil =>
      rw [hdrop, List.nil_append] at hids
      subst hids
      refine ⟨rest ++ more, hqueued', fun x hx => ?_⟩
      rcases List.mem_append.1 hx with hx | hx
      · exact hagain x (List.mem_cons_of_mem _ hx)
      · exact hmore' x hx
    | cons y ys =>
      rw [hdrop, List.cons_append] at hids
      cases hids
      rw [List.append_assoc] at hqueued'
      refine ⟨again ++ more, hqueued', fun x hx => ?_⟩
      rcases List.mem_append.1 hx with hx | hx
      · exact hagain x hx
      · exact hmore' x hx

end FirstRound

end Pass

namespace Pass

variable {cfg : Config κ} {c : Conn} {queue : List ℤ} {recv : ℕ → Option Delivery}

theorem turns_succ {p₀ p' : Pass} {n : ℕ} :
    p₀.turns cfg recv (n + 1) = some p' ↔
      ∃ p, p₀.turns cfg recv n = some p ∧ p.turn cfg (recv n) = some p' := by
  rw [turns, List.range_succ, List.map_append, Transition.run_append_eq_some]
  simp only [turns, List.map_singleton, Transition.run_cons_eq_some, Transition.run_nil,
    Option.some.injEq, exists_eq_right]

/-- A queue without stale pointers is good for any number of turns. -/
theorem allOpen_turns (hopen : ∀ id ∈ queue, c.isOpen id = true) {n : ℕ} {p : Pass}
    (h : turns cfg { conn := c, queue := .ofList (queue.map some) none } recv n = some p) :
    p.AllOpen := by
  induction n generalizing p with
  | zero =>
    cases h
    exact Or.inr ⟨queue, ⟨rfl, CircularBuffer.represents_ofList _ _⟩, hopen⟩
  | succ n ih =>
    obtain ⟨p₁, h₁, ht⟩ := turns_succ.1 h
    exact (ih h₁).turn ht

/-- When connections have been opened or closed before, the first message ends the loop. -/
theorem stopped_or_firstRound (hupdated : c.connectionsUpdated = true) {n : ℕ} {p : Pass}
    (h : turns cfg { conn := c, queue := .ofList (queue.map some) none } recv n = some p) :
    p.stopped = true ∨
    ((∀ j < n, someMessage (recv j) = false) ∧ FirstRound c queue n p) := by
  induction n generalizing p with
  | zero =>
    cases h
    exact Or.inr ⟨fun j hj => absurd hj (Nat.not_lt_zero j), .of_ofList c queue⟩
  | succ n ih =>
    obtain ⟨p₁, h₁, ht⟩ := turns_succ.1 h
    rcases ih h₁ with hstop | ⟨hquiet, hround⟩
    · rw [turn_of_stopped hstop] at ht
      cases ht
    obtain ⟨again, hqueued, _⟩ := hround.queued
    obtain ⟨id, rest, hids, hid⟩ := hqueued.exists_cons ht
    rw [hids] at hqueued
    cases hmessage : someMessage (recv n) with
    | false =>
      have hfresh : p₁.Fresh := hqueued.fresh fun x hx => by
        obtain rfl := Option.some.inj hx
        exact hid
      have hsome : p₁.pointer ≠ none := by
        rw [hqueued.pointer_cons]
        exact Option.some_ne_none _
      obtain ⟨p₂, ht₂, hround'⟩ := hround.turn_quiet cfg hfresh hsome hmessage
      obtain rfl := Option.some.inj (ht.symm.trans ht₂)
      refine Or.inr ⟨fun j hj => ?_, hround'⟩
      rcases Nat.lt_succ_iff_lt_or_eq.1 hj with hj | rfl
      · exact hquiet j hj
      · exact hmessage
    | true =>
      rcases hqueued.turn_message hmessage ht with hstop | ⟨hnot, _⟩
      · exact Or.inl hstop
      · rw [hround.conn, hupdated] at hnot
        cases hnot

/-- As long as there is no message, the loop gets to the next pointer of the first round. -/
theorem exists_firstRound {k : ℕ} (hk : k ≤ queue.length)
    (hquiet : ∀ j < k, someMessage (recv j) = false)
    (hfresh : ∀ n p, turns cfg { conn := c, queue := .ofList (queue.map some) none } recv n =
      some p → p.Fresh) :
    ∃ p, turns cfg { conn := c, queue := .ofList (queue.map some) none } recv k = some p ∧
      FirstRound c queue k p := by
  induction k with
  | zero => exact ⟨_, rfl, .of_ofList c queue⟩
  | succ k ih =>
    obtain ⟨p, hp, hround⟩ := ih (Nat.le_of_succ_le hk) fun j hj => hquiet j (Nat.lt_succ_of_lt hj)
    have hpointer := hround.pointer_of_getElem? (List.getElem?_eq_getElem hk)
    obtain ⟨p', ht, hround'⟩ := hround.turn_quiet cfg (hfresh k p hp)
      (by rw [hpointer]; exact Option.some_ne_none _) (hquiet k (Nat.lt_succ_self k))
    exact ⟨p', turns_succ.2 ⟨p, hp, ht⟩, hround'⟩

variable (cfg) in
/-- The pointers are good in every turn exactly if a message comes before the first one that is
not. -/
theorem fresh_turns_iff (hflag : ∀ id ∈ queue, c.isOpen id = false → c.connectionsUpdated = true) :
    (∀ n p, turns cfg { conn := c, queue := .ofList (queue.map some) none } recv n = some p →
      p.Fresh) ↔
    ∀ k id, queue[k]? = some id → c.isOpen id = false → ∃ j < k, someMessage (recv j) = true := by
  constructor
  · intro hfresh k id hid hclosed
    by_contra hnone
    have hquiet : ∀ j < k, someMessage (recv j) = false := fun j hj =>
      Bool.eq_false_of_not_eq_true fun hj' => hnone ⟨j, hj, hj'⟩
    obtain ⟨hlt, _⟩ := List.getElem?_eq_some_iff.1 hid
    obtain ⟨p, hp, hround⟩ := exists_firstRound hlt.le hquiet hfresh
    obtain ⟨_, ⟨⟩, hopen⟩ := hfresh k p hp _ (hround.pointer_of_getElem? hid)
    rw [hround.conn, hclosed] at hopen
    cases hopen
  · intro hmessage n p hp
    by_cases hopen : ∀ id ∈ queue, c.isOpen id = true
    · exact (allOpen_turns hopen hp).fresh
    · push Not at hopen
      obtain ⟨id, hid, hclosed⟩ := hopen
      have hupdated := hflag id hid (Bool.eq_false_of_not_eq_true hclosed)
      rcases stopped_or_firstRound hupdated hp with hstop | ⟨hquiet, hround⟩
      · exact fresh_of_stopped hstop
      · refine hround.fresh fun x hx => ?_
        by_contra hx'
        obtain ⟨j, hj, hj'⟩ := hmessage n x hx (Bool.eq_false_of_not_eq_true hx')
        rw [hquiet j hj] at hj'
        cases hj'

end Pass

/-! ## The iteration -/

namespace Iteration

theorem firstPass_cases {i : Iteration} {cfg : Config κ} {epoll : Bool} {c : Conn} {p : Pass}
    (h : i.firstPass cfg epoll c = some p) :
    ∃ c₀ polled c₁ queue, c.beginIteration epoll = some (c₀, polled) ∧
      i.phases cfg epoll polled c₀ = some c₁ ∧ i.queue polled c₀ c₁ = some queue ∧
      p = { conn := c₁, queue := .ofList (queue.map some) none } := by
  obtain ⟨⟨c₀, polled⟩, hbegin, h⟩ := Option.bind_eq_some_iff.1 h
  obtain ⟨c₁, hphases, h⟩ := Option.bind_eq_some_iff.1 h
  obtain ⟨queue, hqueue, h⟩ := Option.bind_eq_some_iff.1 h
  exact ⟨c₀, polled, c₁, queue, hbegin, hphases, hqueue, (Option.some.inj h).symm⟩

/-- **The queue holds no stale pointer, in any turn of the incoming message loop, exactly if the
iteration has not waited in `epoll_wait`, or each connection that was reported and then closed by a
control message or a timer comes after one that has a message.** -/
theorem queue_fresh_iff (cfg : Config κ) (epoll : Bool) (c : Conn) (i : Iteration) :
    (∀ n p, i.passAfter cfg epoll c n = some p → p.Fresh) ↔
    ∀ c₀ c₁, c.beginIteration epoll = some (c₀, true) → i.phases cfg epoll true c₀ = some c₁ →
      ∀ k id, (c₀.reportedQueue i.evs)[k]? = some id → c₁.isOpen id = false →
        ∃ j < k, someMessage (i.recv j) = true := by
  constructor
  · intro hfresh c₀ c₁ hbegin hphases
    have hflag : ∀ id ∈ c₀.reportedQueue i.evs, c₁.isOpen id = false →
        c₁.connectionsUpdated = true := fun id hid =>
      (phases_flagged hphases).gone id (Conn.isOpen_of_mem_reportedQueue hid)
    have hfirst : i.firstPass cfg epoll c =
        some { conn := c₁, queue := .ofList ((c₀.reportedQueue i.evs).map some) none } := by
      simp [firstPass, hbegin, hphases, Iteration.queue]
    refine (Pass.fresh_turns_iff cfg hflag).1 fun n p hp => hfresh n p ?_
    rw [passAfter, hfirst]
    exact hp
  · intro hmessage n p hp
    obtain ⟨p₀, hfirst, hp⟩ := Option.bind_eq_some_iff.1 hp
    obtain ⟨c₀, polled, c₁, queue, hbegin, hphases, hqueue, rfl⟩ := firstPass_cases hfirst
    cases polled with
    | true =>
      obtain rfl := Option.some.inj hqueue
      exact (Pass.fresh_turns_iff cfg fun id hid =>
        (phases_flagged hphases).gone id (Conn.isOpen_of_mem_reportedQueue hid)).2
          (hmessage c₀ c₁ hbegin hphases) n p hp
    | false =>
      exact (Pass.allOpen_turns
        (fun id hid => Conn.isOpen_of_mem_readableQueue hqueue hid) hp).fresh

/-! ### A pointer that is stale -/

/-- A connection is opened, and nothing comes in. -/
def connecting : Iteration where
  control := [.allocate,
    .connectRemote {} { connId := 2, onConnect := 0, onFailure := 1, remote := "tcp://1.2.3.4:5" }]
  readable _ := false

def quiet : Iteration where
  readable _ := false

/-- The remote says something, and at the same time the connection is closed. -/
def disconnecting : Iteration where
  evs := [.command, .connection 2]
  control := [.disconnect (.ofId 2) 1000]

/-- The first thing that the incoming message loop does is to look at the connection that has been
closed. -/
theorem disconnecting_stale :
    ∃ c p, Transition.run (iterate Conn.bareConfig true) Conn.start [connecting, quiet] = some c ∧
      disconnecting.passAfter Conn.bareConfig true c 0 = some p ∧ p.pointer = some (some 2) ∧
      2 ∉ p.conn.connections ∧ ¬ p.Fresh := by
  refine ⟨_, _, rfl, rfl, rfl, by decide, fun hfresh => ?_⟩
  obtain ⟨_, ⟨⟩, hopen⟩ := hfresh _ rfl
  exact absurd hopen (by decide)

end Iteration

end OxenMQ
