import OxenMQ.Lib.EdgeTriggered
import OxenMQ.Loop

/-!
# When the proxy thread waits

`proxy_loop` once more, with the sockets it waits for and without what is done with the messages.
Messages arrive at any time.  The loop waits in `epoll_wait` or in `zmq::poll`, and goes on when it
is told about a socket or when a timer runs out; then it takes the messages off the sockets that it
has been told about.

With `epoll` the loop must not wait for a socket that has something to read already, since nobody
would tell it.  Therefore it looks at every socket in the end, and does not wait next time if one
has something to read.  It does not wait either when a connection has been opened or closed, or when
a handler has asked for it with `proxy_skip_one_poll`.  In an iteration that has not waited all
sockets are looked at.

What the handler of a message does is an argument (`Effect`), as far as it matters here: it may open
and close connections, and whatever it sends on a socket lets the proxy see what has arrived there.
-/

set_option autoImplicit false

namespace OxenMQ

open EdgeTriggered

/-- What a handler does to the sockets. -/
structure Effect where
  /-- The connection that is opened. -/
  opened : Option ℤ := none
  /-- The connections that are closed. -/
  closed : List ℤ := []
  /-- Is `connections_updated` set although no socket has come or gone? -/
  updated : Bool := false
  /-- Is `proxy_skip_one_poll` set? -/
  skip : Bool := false
  /-- The sockets that something is sent on. -/
  synced : List Ready := []

/-- The connections after a handler. -/
def Effect.connections (e : Effect) (connections : List ℤ) : List ℤ :=
  let left := connections.filter (· ∉ e.closed)
  e.opened.elim left fun id => left.orderedInsert (· ≤ ·) id

theorem Effect.nodup_connections {e : Effect} {connections : List ℤ} (h : connections.Nodup)
    (hopened : ¬e.opened.any (· ∈ connections) = true) : (e.connections connections).Nodup := by
  have hleft : (connections.filter (· ∉ e.closed)).Nodup := h.filter _
  unfold Effect.connections
  cases hopen : e.opened with
  | none => exact hleft
  | some id =>
    have hid : id ∉ connections := by simpa [hopen] using hopened
    refine (List.perm_orderedInsert _ id _).nodup_iff.2 (List.nodup_cons.2 ⟨?_, hleft⟩)
    exact fun hmem => hid (List.mem_filter.1 hmem).1

/-- Does a handler open or close this connection? -/
def Effect.replaces (e : Effect) : Ready → Bool
  | .connection id => decide (e.opened = some id ∨ id ∈ e.closed)
  | _ => false

/-- Where the loop is. -/
inductive PollPc where
  | top
  /-- In `epoll_wait` or in `zmq::poll`. -/
  | waiting
  /-- The poll is skipped, and these sockets are asked whether they have something to read. -/
  | probing (todo : List Ready)
  | control
  | workers
  | timers
  | zap
  | queue
  /-- The connections `todo` are asked next, and those in `ready` have something to read. -/
  | filling (todo ready : List ℤ)
  | incoming
  /-- The sockets that are looked at in the end. -/
  | checking (todo : List Ready)
  /-- The loop has followed a pointer to a connection that is gone. -/
  | stale
  deriving DecidableEq, Repr

structure Poller (σ : Type) where
  inboxes : Ready → σ
  /-- The connections, in the order of their numbers. -/
  connections : List ℤ
  nodup : connections.Nodup
  connectionsUpdated : Bool := true
  proxySkipOnePoll : Bool := false
  processCommand : Bool := false
  processWorker : Bool := false
  processZap : Bool := false
  processAll : Bool := false
  queue : CircularBuffer (Option ℤ) := .ofList [] none
  pc : PollPc := .top

inductive PollEvent where
  /-- A message arrives. -/
  | arrive (r : Ready)
  /-- The time is up that `epoll_wait` or `zmq::poll` has been given. -/
  | timeout
  /-- A timer runs out. -/
  | timer (e : Effect)
  /-- `epoll_wait` reports these sockets, or `zmq::poll` returns. -/
  | wake (evs : List Ready)
  /-- The loop goes on.  It may look into a mailbox without need, and the message that it finds has
  this effect. -/
  | run (look : Bool) (e : Effect)

namespace Poller

variable {σ : Type}

/-- The sockets that the loop takes care of. -/
def sources (s : Poller σ) : List Ready :=
  [.command, .worker, .zap] ++ s.connections.map .connection

def update (s : Poller σ) (r : Ready) (f : σ → σ) : Poller σ :=
  { s with inboxes := fun r' => if r' = r then f (s.inboxes r') else s.inboxes r' }

/-- Something is done to several sockets. -/
def updateAll (s : Poller σ) (rs : List Ready) (f : σ → σ) : Poller σ :=
  { s with inboxes := fun r => if r ∈ rs then f (s.inboxes r) else s.inboxes r }

variable [EdgeTriggered σ]

/-! ## Handlers -/

/-- A handler opens a connection with a new number only. -/
def handle (s : Poller σ) (e : Effect) : Option (Poller σ) :=
  if h : e.opened.any (· ∈ s.connections) then none
  else some { s.updateAll e.synced sync with
    inboxes := fun r =>
      if e.replaces r then empty else (s.updateAll e.synced sync).inboxes r
    connections := e.connections s.connections
    nodup := e.nodup_connections s.nodup h
    connectionsUpdated :=
      s.connectionsUpdated || e.updated || e.opened.isSome || !e.closed.isEmpty
    proxySkipOnePoll := s.proxySkipOnePoll || e.skip }

/-! ## The top of the loop -/

/-- `rebuild_pollitems`. -/
def rebuildPollitems (s : Poller σ) : Poller σ :=
  { s.updateAll s.sources watch with connectionsUpdated := false }

/-- The beginning of an iteration. -/
def begin (epoll : Bool) (s : Poller σ) : Poller σ :=
  let s := if s.connectionsUpdated then { s.rebuildPollitems with proxySkipOnePoll := true } else s
  let s := { s with
    processCommand := !epoll
    processWorker := !epoll
    processZap := !epoll
    processAll := !epoll || s.proxySkipOnePoll }
  if s.proxySkipOnePoll then
    { s with
      proxySkipOnePoll := false
      pc := if epoll then .probing [.command, .worker, .zap] else .control }
  else { s with pc := .waiting }

/-- The answer to whether there is something to read. -/
def setProcess (s : Poller σ) (r : Ready) (pollin : Bool) : Poller σ :=
  match r with
  | .command => { s with processCommand := pollin }
  | .worker => { s with processWorker := pollin }
  | .zap => { s with processZap := pollin }
  | .connection _ => s

/-- The next socket is asked whether it has something to read, in an iteration that has not waited.
-/
def probe (s : Poller σ) : List Ready → Poller σ
  | [] => { s with pc := .control }
  | r :: todo =>
    let s := s.update r sync
    { s.setProcess r (pollin (s.inboxes r)) with pc := .probing todo }

/-- The sockets with a signal. -/
def reported (s : Poller σ) : List Ready := s.sources.filter fun r => edge (s.inboxes r)

/-- The connections among the sockets that are reported. -/
def reportedQueue (s : Poller σ) (evs : List Ready) : List ℤ :=
  evs.filterMap fun
    | .connection id => if id ∈ s.connections then some id else none
    | _ => none

/-- The end of the wait.  `epoll_wait` reports as many sockets as there is room for, in whatever
order; `zmq::poll` returns when one of its sockets has something to read. -/
def wake (epoll : Bool) (s : Poller σ) (evs : List Ready) : Option (Poller σ) :=
  if s.pc ≠ .waiting then none
  else if epoll then
    if evs ≠ [] ∧ evs.Nodup ∧ (∀ r ∈ evs, r ∈ s.reported) ∧
        evs.length = min (3 + s.connections.length) s.reported.length then
      some { s.updateAll evs report with
        processCommand := decide (.command ∈ evs)
        processWorker := decide (.worker ∈ evs)
        processZap := decide (.zap ∈ evs)
        queue := .ofList ((s.reportedQueue evs).map some) none
        pc := .control }
    else none
  else if s.sources.any fun r => isWatched (s.inboxes r) && decide (0 < total (s.inboxes r)) then
    some { s.updateAll s.sources sync with pc := .control }
  else none

/-- Nothing has been reported. -/
def timeout (s : Poller σ) : Option (Poller σ) :=
  if s.pc = .waiting then some { s with queue := .ofList [] none, pc := .control } else none

/-! ## The phases -/

/-- A message is received, if there is one. -/
def receive (s : Poller σ) (r : Ready) (look : Bool) : Poller σ × Bool :=
  (s.update r fun socket => (recv look socket).1, (recv look (s.inboxes r)).2)

/-- One turn of a loop that takes all messages off a socket, if it is entered at all. -/
def drain (s : Poller σ) (process : Bool) (r : Ready) (next : PollPc) (look : Bool) (e : Effect) :
    Option (Poller σ) :=
  if process then
    let (s, received) := s.receive r look
    if received then s.handle e else some { s with pc := next }
  else some { s with pc := next }

/-- The next connection is asked whether it has something to read, in an iteration that looks at all
of them. -/
def fill (s : Poller σ) (ready : List ℤ) : List ℤ → Poller σ
  | [] => { s with queue := .ofList (ready.map some) none, pc := .incoming }
  | id :: todo =>
    let s := s.update (.connection id) sync
    let ready := if pollin (s.inboxes (.connection id)) then ready ++ [id] else ready
    { s with pc := .filling todo ready }

/-- The end of the incoming message loop. -/
def finish (epoll : Bool) (s : Poller σ) : Poller σ :=
  if epoll && !s.connectionsUpdated && !s.proxySkipOnePoll then { s with pc := .checking s.sources }
  else { s with pc := .top }

/-- One turn of the incoming message loop. -/
def turn (epoll : Bool) (s : Poller σ) (look : Bool) (e : Effect) : Option (Poller σ) :=
  match s.queue.front? with
  | none => some (s.finish epoll)
  | some none => some { s with pc := .stale }
  | some (some id) =>
    if id ∈ s.connections then
      let (s, received) := s.receive (.connection id) look
      if received then
        let s := { s with queue := s.queue.requeue }
        (s.handle e).map fun s =>
          if s.connectionsUpdated then s.finish epoll else { s with queue := s.queue.advance }
      else some { s with queue := s.queue.advance }
    else some { s with pc := .stale }

/-- The next socket is looked at in the end. -/
def check (s : Poller σ) : List Ready → Poller σ
  | [] => { s with pc := .top }
  | r :: todo =>
    let s := s.update r sync
    if pollin (s.inboxes r) then { s with proxySkipOnePoll := true, pc := .top }
    else { s with pc := .checking todo }

/-- `proxy_process_queue`, which sends to workers. -/
def processQueue (s : Poller σ) (synced : List Ready) : Poller σ :=
  { s.updateAll synced sync with
    pc := if s.processAll then .filling s.connections [] else .incoming }

/-- The loop goes on. -/
def run (epoll : Bool) (s : Poller σ) (look : Bool) (e : Effect) : Option (Poller σ) :=
  match s.pc with
  | .top => some (s.begin epoll)
  | .waiting => none
  | .probing todo => some (s.probe todo)
  | .control => s.drain s.processCommand .command .workers look e
  | .workers => s.drain s.processWorker .worker .timers look e
  | .timers => some { s with pc := .zap }
  | .zap => s.drain s.processZap .zap .queue look e
  | .queue => some (s.processQueue e.synced)
  | .filling todo ready => some (s.fill ready todo)
  | .incoming => s.turn epoll look e
  | .checking todo => some (s.check todo)
  | .stale => none

def step (epoll : Bool) (s : Poller σ) : PollEvent → Option (Poller σ)
  | .arrive r => if r ∈ s.sources then some (s.update r arrive) else none
  | .timeout => s.timeout
  | .timer e => if s.pc = .timers then s.handle e else none
  | .wake evs => s.wake epoll evs
  | .run look e => s.run epoll look e

/-- The loop begins, with whatever has arrived already. -/
def start (connections : List ℤ) (nodup : connections.Nodup) (inboxes : Ready → σ) :
    Poller σ where
  inboxes := inboxes
  connections := connections
  nodup := nodup

end Poller

end OxenMQ
