import OxenMQ.Connections.Updated
import OxenMQ.Polling.Sleep
import OxenMQ.Proxy.Saturation
import OxenMQ.Proxy.Tables
import OxenMQ.Workers.Outbox
import OxenMQ.Workers.Rest

/-!
# The proxy thread with its sockets

`Proxy` is what the loop does with messages, and leaves open when they come; `Poller` is how the
loop waits for them, and leaves open what they do.  `PolledProxy` is both at once.  A message that
the loop takes off a socket is handled by the proxy, and what the handler does to the connections is
what the loop sees of it.  A worker that tells the proxy something puts a message into the socket of
the workers.

`Agrees` says that the two have the same sockets and flags, are at the same place of the loop, and
that the socket of the workers holds all that the workers have said.

`nothing_left` follows.  The proxy thread may sleep, with nothing to wake it up, only when all
sockets have been emptied and all has been started that could be.  If then no worker can go on,
there is no job or command left anywhere: the threads of the instance do not wait for each other.
-/

set_option autoImplicit false

namespace OxenMQ

/-! ## What a handler does to the sockets -/

namespace Conn

/-- The connections with a socket behind them. -/
def openIds (c : Conn) : List ℤ := c.connections.keys.filter c.isOpen

/-- Is there an entry with nothing behind it before this one? -/
def hasNullBelow (c : Conn) (id : ℤ) : Bool :=
  c.connections.entries.any fun e => !e.2.isOpen && decide (e.1 < id)

theorem mem_openIds {c : Conn} {id : ℤ} : id ∈ c.openIds ↔ c.isOpen id = true := by
  refine List.mem_filter.trans (and_iff_right_of_imp fun h => ?_)
  exact AList.mem_keys.1 (mem_of_isOpen h)

end Conn

/-- What has been done to the sockets, given the tables before and after. -/
def Effect.between (c c' : Conn) (synced : List Ready) : Effect where
  opened := c'.openIds.find? fun id => !c.isOpen id
  closed := c.openIds.filter fun id => !c'.isOpen id
  updated := c'.connectionsUpdated
  skip := c'.proxySkipOnePoll
  synced := synced

/-! ## The system -/

/-- Where the proxy thread is. -/
def PollPc.phase : PollPc → LoopPhase
  | .top | .waiting => .poll
  | .probing _ | .control => .control
  | .workers => .workers
  | .timers => .timers
  | .zap => .zap
  | .queue => .queue
  | .filling _ _ | .incoming | .checking _ | .stale => .incoming false

/-- What happens in the proxy thread, but for the messages, when the loop gets from one place to
another; `pollin` is whether a socket has something to read in the end. -/
def PollPc.passed (pollin : Bool) : PollPc → PollPc → List Proxy.Event
  | .top, .waiting => []
  | .top, _ | .waiting, _ => [.begin]
  | .control, .workers | .workers, .timers | .timers, .zap | .zap, .queue => [.next]
  | .queue, _ => [.processQueue]
  | .incoming, .top => [.done false]
  | .checking _, .top => [.done pollin]
  | _, _ => []

namespace Poller

variable {σ : Type}

/-- The socket that the loop tries to receive from. -/
def source (s : Poller σ) : Option Ready :=
  match s.pc with
  | .control => if s.processCommand then some .command else none
  | .workers => if s.processWorker then some .worker else none
  | .zap => if s.processZap then some .zap else none
  | .incoming => (s.queue.front?.join.filter (· ∈ s.connections)).map .connection
  | _ => none

/-- The socket that the loop takes the next message off. -/
def takes [EdgeTriggered σ] (s : Poller σ) : Option Ready :=
  s.source.filter fun r => decide (0 < EdgeTriggered.total (s.inboxes r))

end Poller

namespace Proxy

/-- Is this something that another thread does? -/
def Event.isThread : Event → Bool
  | .allocate | .receive _ | .finish _ _ _ => true
  | _ => false

def Event.isTimer : Event → Bool
  | .timer _ | .cleanup _ => true
  | _ => false

/-- The number of messages that a worker has sent to the proxy. -/
def sentBy {κ : Type} (p p' : Proxy κ) : Event → ℕ
  | .receive w | .finish w _ _ => p'.sys.replies w - p.sys.replies w
  | _ => 0

end Proxy

inductive PolledEvent where
  /-- A message arrives, other than one of a worker. -/
  | arrive (r : Ready)
  /-- Something happens in another thread. -/
  | thread (e : Proxy.Event)
  /-- A timer runs out, and its handler sends on these sockets. -/
  | timer (e : Proxy.Event) (synced : List Ready)
  | timeout
  | wake (evs : List Ready)
  /-- The loop goes on.  If it takes a message off a socket, this is what the message is. -/
  | run (look : Bool) (e : Option Proxy.Event) (synced : List Ready)
  /-- All workers have been joined, and the proxy thread ends. -/
  | stop

structure PolledProxy (σ κ : Type) where
  poller : Poller σ
  proxy : Proxy κ

namespace PolledProxy

variable {σ κ : Type} [EdgeTriggered σ] [DecidableEq κ]

/-- The loop has got to another place. -/
def follow (cfg : ProxyConfig κ) (s : PolledProxy σ κ) (p : Proxy κ) (q : Poller σ) :
    Option (PolledProxy σ κ) :=
  (Transition.run (Proxy.step cfg) p (s.poller.pc.passed q.proxySkipOnePoll q.pc)).map
    fun p => ⟨q, p⟩

/-- Is a socket with nothing behind it asked whether it has something to read? -/
def asksNull (s : PolledProxy σ κ) : Bool :=
  match s.poller.pc with
  | .filling [] _ | .checking [] => s.proxy.conn.hasNull
  | .filling (id :: _) _ | .checking (.connection id :: _) => s.proxy.conn.hasNullBelow id
  | _ => false

/-- The message that the loop takes off a socket is handled, if there is one.  An authentication
request changes nothing. -/
def handle (cfg : ProxyConfig κ) (s : PolledProxy σ κ) (e : Option Proxy.Event) :
    Option (Proxy κ) :=
  match s.poller.takes, e with
  | none, none | some .zap, none => some s.proxy
  | some .command, some (.control env call) => Proxy.step cfg s.proxy (.control env call)
  | some .worker, some (.worker w) => Proxy.step cfg s.proxy (.worker w)
  | some (.connection id), some (.message env immediate connId m) =>
    if connId = id then Proxy.step cfg s.proxy (.message env immediate connId m) else none
  | _, _ => none

/-- The loop goes on. -/
def run (cfg : ProxyConfig κ) (s : PolledProxy σ κ) (look : Bool) (e : Option Proxy.Event)
    (synced : List Ready) : Option (PolledProxy σ κ) := do
  if s.asksNull then none
  else
    let p ← s.handle cfg e
    let q ← s.poller.run cfg.epoll look (.between s.proxy.conn p.conn synced)
    s.follow cfg p q

def step (cfg : ProxyConfig κ) (s : PolledProxy σ κ) (e : PolledEvent) : Option (PolledProxy σ κ) :=
  if s.proxy.sys.stopped then none
  else
    match e with
    | .arrive r =>
      if r = .worker then none
      else (Poller.step cfg.epoll s.poller (.arrive r)).map fun q => { s with poller := q }
    | .thread e =>
      if e.isThread then do
        let p ← Proxy.step cfg s.proxy e
        let q ← Transition.run (Poller.step cfg.epoll) s.poller
          (List.replicate (s.proxy.sentBy p e) (.arrive .worker))
        return ⟨q, p⟩
      else none
    | .timer e synced =>
      if e.isTimer then do
        let p ← Proxy.step cfg s.proxy e
        let q ← Poller.step cfg.epoll s.poller (.timer (.between s.proxy.conn p.conn synced))
        return ⟨q, p⟩
      else none
    | .timeout => s.poller.timeout.bind (s.follow cfg s.proxy)
    | .wake evs => (s.poller.wake cfg.epoll evs).bind (s.follow cfg s.proxy)
    | .run look e synced => s.run cfg look e synced
    | .stop =>
      if s.poller.pc = .top then
        (Proxy.step cfg s.proxy .stop).map fun p => { s with proxy := p }
      else none

/-- The loop begins, with whatever has arrived at its sockets and whichever timers there are. -/
def start [Fintype κ] (cfg : ProxyConfig κ) (timers : Timers) (inboxes : Ready → σ) :
    PolledProxy σ κ where
  poller := .start [1] (List.nodup_singleton 1) inboxes
  proxy := .start cfg timers

end PolledProxy

end OxenMQ
