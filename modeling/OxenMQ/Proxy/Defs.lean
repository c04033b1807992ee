import OxenMQ.Control.Calls
import OxenMQ.Loop
import OxenMQ.Workers.System
import OxenMQ.Workers.Timers

/-!
# The proxy thread as a whole

The connection tables (`Conn`), the worker pool (`Sys`) and the timers (`Timers`) are the business
of one thread, and this file puts them together: `Proxy` is its state, `proxyControlMessage` what it
does with a control message, and `Proxy.step` its main loop in small steps.

An iteration of the loop goes through its phases in a fixed order (`LoopPhase`): it may wait in
`zmq::poll` or `epoll_wait`, then it processes the control messages, the messages of the workers,
the timers and the authentication requests, starts what can be started, and takes messages off the
connections.  How many of each there are is up to the outside, and so is everything that other
threads do in the meantime.

What a handler of the connection tables schedules with `proxy_schedule_reply_job` goes to the pool
at once (`Proxy.withConn`).  What it schedules with `job()` goes through the control socket, like a
call of `job` by any other thread.

A handler may throw.  Nobody catches what is thrown in this thread, so that such an event does not
happen: it is the end of the run.
-/

set_option autoImplicit false

namespace OxenMQ

open Control

/-! ## The state of the proxy thread -/

/-- Where the proxy loop is. -/
inductive LoopPhase where
  /-- At the top of the loop. -/
  | poll
  | control
  | workers
  | timers
  | zap
  | queue
  /-- Taking messages off the connections; `stale` when the tables have changed, so that the rest
  has to wait for the next iteration. -/
  | incoming (stale : Bool)
  deriving DecidableEq, Repr

structure ProxyConfig (κ : Type) where
  commands : Config κ
  pool : PoolConfig κ
  /-- `using_epoll`. -/
  epoll : Bool := false
  /-- `EPHEMERAL_ROUTING_ID`. -/
  ephemeralRoutingId : Bool := false
  /-- The function object that is made of a callback and its arguments. -/
  close : Closure → Callback

structure Proxy (κ : Type) where
  conn : Conn
  sys : Sys κ
  timers : Timers := {}
  phase : LoopPhase := .poll

/-- What the outside decides while a control message is handled. -/
structure ControlEnv extends Env where
  /-- The error `zmq` raises when the listening socket is made and set up, if any. -/
  listenerError : Option String := none
  /-- Does `zmq` accept the address to listen on? -/
  good : Bool := true
  /-- The number that `zmq` hands out for a timer. -/
  zmqTimerId : ℤ := 1
  /-- What is in a variable that has not been initialised. -/
  garbage : ℤ := 0

namespace Proxy

variable {κ : Type} [DecidableEq κ]

/-- New connection tables.  The reply jobs that have been scheduled on the way go to the pool. -/
def withConn (cfg : ProxyConfig κ) (p : Proxy κ) (c : Conn) : Proxy κ :=
  let replies := (c.scheduled.drop p.conn.scheduled.length).filter fun j => j.viaReply
  { p with
    conn := c
    sys := (replies.map fun j => cfg.close j.body).foldl Sys.proxyScheduleReplyJob p.sys }

/-- The listening socket is made and set up, before the `try` around `bind`. -/
def makeListener (env : ControlEnv) : Except Abort Unit :=
  env.listenerError.elim (return ()) fun what => throw (.exception what)

/-- The call of `on_bind`, if there is one. -/
def reportBind (good : Bool) : Option (Bool → Except String Unit) → Except Abort Unit
  | none => return ()
  | some onBind => (onBind good).mapError Abort.exception

/-- `proxy_bind`, on the request decoded from a message. -/
def proxyBind (cfg : ProxyConfig κ) (p : Proxy κ) (env : ControlEnv) (b : BindRequest) :
    Except Abort (Proxy κ) := do
  makeListener env
  reportBind env.good b.onBind
  return p.withConn cfg (p.conn.proxyBind b.address b.curve b.allow env.good)

/-- `proxy_control_message`. -/
def proxyControlMessage (cfg : ProxyConfig κ) (p : Proxy κ) (env : ControlEnv) :
    ControlMessage κ → Except Abort (Proxy κ)
  | .send data => do
    let r ← decodeSend.get data
    let c ← p.conn.proxySend env.toEnv r
    return p.withConn cfg c
  | .batch spec =>
    return { p with sys := p.sys.submit spec, conn := { p.conn with proxySkipOnePoll := true } }
  | .inject task => return { p with sys := p.sys.proxyInjectTask cfg.pool task }
  | .setSns pubkeys => do
    let c ← p.conn.proxySetActiveSns cfg.commands.closeLinger pubkeys.1
    return p.withConn cfg c
  | .updateSns added removed => do
    let c ← p.conn.proxyUpdateActiveSns cfg.commands.closeLinger added.1 removed.1
    return p.withConn cfg c
  | .connectSn data => do
    let r ← (decodeConnectSn cfg.ephemeralRoutingId env.garbage).get data
    let c ← p.conn.proxyConnectSnMessage env.toEnv r.toConnectSn
    return p.withConn cfg c
  | .connectRemote data => do
    let r ← (decodeConnectRemote cfg.ephemeralRoutingId).get data
    let c := { p.conn with allocated := p.conn.allocated.erase r.connId }
    let c ← c.proxyConnectRemote env.toEnv r.toConnectRemote
    return p.withConn cfg c
  | .disconnect data => do
    let (conn, linger) ← decodeDisconnect.get data
    let c ← p.conn.proxyDisconnectMessage conn linger
    return p.withConn cfg c
  | .timer data => do
    let r ← decodeTimer data
    return { p with
      timers := p.timers.proxyTimer env.zmqTimerId r.id r.job r.interval r.squelch r.thread }
  | .timerDel id => return { p with timers := p.timers.proxyTimerDel id }
  | .bind b => p.proxyBind cfg env b
  | .quit => return { p with sys := p.sys.proxyControlQuit }

/-! ## The loop -/

/-- Something that happens in the proxy thread, or in another thread as far as it matters here. -/
inductive Event where
  /-- `connect_remote` or `connect_inproc` draws a connection number in its thread. -/
  | allocate
  /-- A worker takes the next message, or begins with its first job. -/
  | receive (w : Worker)
  /-- A worker returns from its job. -/
  | finish (w : Worker) (left : Message) (r : JobResult)
  /-- The loop begins an iteration, and waits if there is nothing to be done. -/
  | begin
  /-- The next control message is that of a call. -/
  | control (env : ControlEnv) (call : Call)
  /-- The next message of a worker. -/
  | worker (w : Worker)
  | timer (timerId : ℤ)
  /-- The timer for the cleanup of the connections. -/
  | cleanup (env : Env)
  /-- A phase is over. -/
  | next
  | processQueue
  /-- The next message on a connection, which is dispatched at once or not. -/
  | message (env : Env) (immediate : Bool) (connId : ℤ) (m : Incoming)
  /-- The end of an iteration, and whether a socket still has something to read. -/
  | done (pollin : Bool)
  /-- All workers have been joined, and the proxy thread ends. -/
  | stop

/-- The threads that a call names are those of this instance, the number of its connection has been
drawn, that of its timer is new, and the proxy is told to quit only once. -/
def validCall (cfg : ProxyConfig κ) (p : Proxy κ) (env : ControlEnv) : Call → Bool
  | .batch spec => spec.valid cfg.pool
  | .job _ (some thread) => decide (-1 ≤ thread) && decide (thread ≤ (cfg.pool.taggedThreads : ℤ))
  | .addTimer _ _ _ _ thread =>
    decide (p.timers.Fresh env.zmqTimerId) && decide (-1 ≤ thread.getD 0) &&
      decide (thread.getD 0 ≤ (cfg.pool.taggedThreads : ℤ))
  | .quit => decide (p.sys.pool.maxWorkers ≠ 0)
  | call => call.connId.all fun id => decide (id ∈ p.conn.allocated)

/-- A step of the pool. -/
def poolStep (cfg : ProxyConfig κ) (p : Proxy κ) (e : PoolEvent κ) : Option (Proxy κ) :=
  (Sys.step cfg.pool p.sys e).map fun s => { p with sys := s }

/-- The batches whose completion functions have run in the proxy thread between two states. -/
def completedInProxy (s s' : Sys κ) : List ℕ :=
  (s'.log.drop s.log.length).filterMap fun
    | .completed ptr none _ => some ptr
    | _ => none

/-- A message of a worker, with the completion function it may lead to. -/
def workerStep (cfg : ProxyConfig κ) (p : Proxy κ) (w : Worker) : Option (Proxy κ) :=
  (p.poolStep cfg (.workerMessage w)).map fun p' =>
    { p' with timers := (completedInProxy p.sys p'.sys).foldl Timers.complete p.timers }

/-- A timer runs out. -/
def timerStep (cfg : ProxyConfig κ) (p : Proxy κ) (timerId : ℤ) : Option (Proxy κ) :=
  if timerId ∈ p.timers.armed then
    let (timers, spec) := p.timers.queueTimerJob p.sys.nextPtr timerId
    match spec with
    | none => some { p with timers := timers }
    | some spec => { p with timers := timers }.poolStep cfg (.submit spec)
  else none

/-- A message is taken off a connection. -/
def messageStep (cfg : ProxyConfig κ) (p : Proxy κ) (env : Env) (immediate : Bool) (connId : ℤ)
    (m : Incoming) : Option (Proxy κ) :=
  let socket := p.conn.connections.lookup connId
  let router := decide (socket = some .router)
  if Conn.canReceive socket router m.parts then
    match p.conn.receive cfg.commands env immediate connId router m with
    | .error _ => none
    | .ok (c, none) => some { p.withConn cfg c with phase := .incoming c.connectionsUpdated }
    | .ok (c, some a) =>
      if immediate = !p.sys.pool.noSlot cfg.pool a.cat then
        { p.withConn cfg c with phase := .incoming c.connectionsUpdated }.poolStep cfg (.command a)
      else none
  else none

/-- The beginning of an iteration. -/
def beginStep (cfg : ProxyConfig κ) (p : Proxy κ) : Option (Proxy κ) :=
  (p.conn.beginIteration cfg.epoll).map fun r => { p with conn := r.1, phase := .control }

/-- The end of an iteration.  With `epoll`, the loop does not go back to waiting while a socket has
something to read. -/
def doneStep (cfg : ProxyConfig κ) (p : Proxy κ) (pollin : Bool) : Proxy κ :=
  let c := p.conn
  let again := cfg.epoll && !c.connectionsUpdated && !c.proxySkipOnePoll && pollin
  { p with phase := .poll, conn := if again then { c with proxySkipOnePoll := true } else c }

/-- What an event does. -/
def step (cfg : ProxyConfig κ) (p : Proxy κ) (e : Event) : Option (Proxy κ) :=
  if p.sys.stopped then none
  else
    match e, p.phase with
    | .allocate, _ => (Conn.step cfg.commands p.conn .allocate).map fun c => { p with conn := c }
    | .receive w, _ => p.poolStep cfg (.receive w)
    | .finish w left r, _ => p.poolStep cfg (.finish w left r)
    | .begin, .poll => p.beginStep cfg
    | .stop, .poll => p.poolStep cfg .stop
    | .control env call, .control =>
      if p.validCall cfg env call then
        match call.emit cfg.commands cfg.ephemeralRoutingId with
        | .ok (some message) => (p.proxyControlMessage cfg env message).toOption
        | _ => none
      else none
    | .next, .control => some { p with phase := .workers }
    | .worker w, .workers => p.workerStep cfg w
    | .next, .workers => some { p with phase := .timers }
    | .timer timerId, .timers => p.timerStep cfg timerId
    | .cleanup env, .timers =>
      (p.conn.proxyConnCleanup cfg.commands.closeLinger env).toOption.map (p.withConn cfg)
    | .next, .timers => some { p with phase := .zap }
    | .next, .zap => some { p with phase := .queue }
    | .processQueue, .queue =>
      (p.poolStep cfg .processQueue).map fun p => { p with phase := .incoming false }
    | .message env immediate connId m, .incoming false => p.messageStep cfg env immediate connId m
    | .done pollin, .incoming _ => some (p.doneStep cfg pollin)
    | _, _ => none

/-- The state that the loop starts in.  Timers can be added before there is a proxy thread, by
`add_timer` itself. -/
def start [Fintype κ] (cfg : ProxyConfig κ) (timers : Timers := {}) : Proxy κ where
  conn := Conn.start
  sys := Sys.init cfg.pool
  timers := timers

end Proxy

end OxenMQ
