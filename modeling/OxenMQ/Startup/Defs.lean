import OxenMQ.Lib.CondVar
import OxenMQ.Lib.Transition
import OxenMQ.Workers.Routing

/-!
# Starting up, and not starting up

The embedding of `start()`, of the constructor's counterpart `~OxenMQ()`, of `add_tagged_thread` and
the `set_*_threads` functions, of `proxy_loop_init` and of what a tagged thread does before its main
loop.  Three kinds of threads take part.

* The owner has made the object.  It adds tagged threads, calls `start()` and destroys the object in
  the end, possibly without ever having started it.
* A tagged thread exists from the moment it is added.  It waits on a condition variable until
  `tagged_go` says what to do; told to go, it makes its socket, announces itself with `STARTING` and
  waits for `START`; then it calls its `start` function and goes to its main loop.
* The proxy thread is made by `start()`.  It makes its sockets, sets `tagged_go`, and waits until
  all tagged threads have announced themselves.  Only then does it send them `START`: its router
  socket cannot reach a worker before it has heard from it, and raises an exception if it is asked
  to (`ZMQ_ROUTER_MANDATORY`).  `known` has the addresses that it can reach.

`Startup.step` has one step for each thing that a thread does between two points where another one
may come in.  `Sys.init` is where the proxy loop takes over.
-/

set_option autoImplicit false

namespace OxenMQ

open CondVar (Waiter)

/-- `tagged_go_mode`. -/
inductive GoMode where
  | wait
  | go
  | shutdown
  deriving DecidableEq, Repr

/-- Where a tagged thread stands before its main loop. -/
inductive TaggedPc where
  /-- In `tagged_cv.wait`, or just out of it. -/
  | waits (w : Waiter)
  /-- It is to go, and has no socket yet. -/
  | connecting
  /-- It has sent `STARTING` and waits for `START`. -/
  | starting
  /-- It is in its `start` function. -/
  | calling
  /-- It is in its main loop. -/
  | ready
  | exited
  deriving DecidableEq, Repr

/-- An element of `tagged_workers`, and its thread. -/
structure TaggedThread where
  name : String
  start : Option Callback
  joinable : Bool := true
  pc : TaggedPc := .waits .testing
  inbox : List WorkerCommand := []
  /-- What it has sent and the proxy has not received. -/
  outbox : List String := []
  deriving DecidableEq, Repr

/-- The thread wakes up, if it sleeps. -/
def TaggedThread.wakeUp (t : TaggedThread) : TaggedThread :=
  match t.pc with
  | .waits w => { t with pc := .waits w.wake }
  | _ => t

/-- What a tagged thread does. -/
inductive ThreadEvent where
  /-- It tests whether it may go on, with the mutex held. -/
  | test
  /-- It wakes up for no reason. -/
  | wake
  /-- It has another look at `tagged_go`, without the mutex. -/
  | look
  /-- It connects its socket and announces itself. -/
  | connect
  /-- `worker_wait_for` with `START`: it takes the next message. -/
  | receive
  /-- Its `start` function returns. -/
  | called
  deriving DecidableEq, Repr

/-- A tagged thread after it has done something, and the functions that it has called. -/
def TaggedThread.act (t : TaggedThread) (mode : GoMode) :
    ThreadEvent → Option (TaggedThread × List Callback)
  | .test =>
    match t.pc with
    | .waits w => (w.test (mode != .wait)).map fun w => ({ t with pc := .waits w }, [])
    | _ => none
  | .wake =>
    match t.pc with
    | .waits .asleep => some (t.wakeUp, [])
    | _ => none
  | .look =>
    match t.pc with
    | .waits .through =>
      some ({ t with pc := if mode = .shutdown then .exited else .connecting }, [])
    | _ => none
  | .connect =>
    match t.pc with
    | .connecting => some ({ t with pc := .starting, outbox := t.outbox ++ ["STARTING"] }, [])
    | _ => none
  | .receive =>
    match t.pc, t.inbox with
    | .starting, cmd :: rest =>
      let t := { t with inbox := rest }
      match cmd with
      | .start =>
        match t.start with
        | some f => some ({ t with pc := .calling }, [f])
        | none => some ({ t with pc := .ready }, [])
      | .quit => some ({ t with pc := .exited, outbox := t.outbox ++ ["QUITTING"] }, [])
      | .run => some (t, [])
    | _, _ => none
  | .called =>
    match t.pc with
    | .calling => some ({ t with pc := .ready }, [])
    | _ => none

/-- Where the owner stands. -/
inductive OwnerPc where
  /-- Neither in `start()` nor in the destructor, and there is no proxy thread. -/
  | free
  /-- In `start()`: it waits for the proxy thread to be initialized. -/
  | starting
  /-- In `start()`: it waits for `READY`. -/
  | waitsReady
  /-- `start()` has returned. -/
  | running
  /-- In the destructor, without a proxy thread: it has set `tagged_go` and has not notified yet. -/
  | shutdown
  /-- In the destructor: it is about to join the tagged thread of this number. -/
  | joining (i : ℕ)
  | destroyed
  /-- In the destructor: it has sent `QUIT` to the proxy thread. -/
  | quitting
  deriving DecidableEq, Repr

/-- Why `proxy_loop_init` throws. -/
inductive StartError where
  /-- A socket cannot be made or bound. -/
  | zmq
  /-- `"Internal error: proxy thread started with active worker threads"`. -/
  | activeWorkers
  /-- A worker is not reachable. -/
  | hostUnreachable
  deriving DecidableEq, Repr

/-- Where the proxy thread stands. -/
inductive ProxyPc where
  /-- `proxy_thread` is not joinable. -/
  | absent
  | init
  /-- It has set `tagged_go` and has not notified yet. -/
  | announcing
  /-- It waits for the workers with these addresses. -/
  | collecting (waitingOn : List String)
  /-- It is about to send `START` to the tagged thread of this number. -/
  | releasing (i : ℕ)
  | looping
  /-- It has ended with an exception. -/
  | failed (e : StartError)
  deriving DecidableEq, Repr

/-- How the sockets behave in `proxy_loop_init`. -/
inductive InitOutcome where
  /-- There is an error before the sockets of the workers are made. -/
  | early
  /-- There is an error afterwards. -/
  | late
  | fine
  deriving DecidableEq, Repr

/-- The thread counts that the owner can set. -/
structure Settings where
  generalWorkers : ℕ
  generalWorkers_pos : 0 < generalWorkers
  batchJobsReserved : ℤ := -1
  replyJobsReserved : ℤ := -1

/-- What the registered categories ask for. -/
structure Categories (κ : Type) where
  reservedThreads : κ → ℕ
  maxQueue : κ → ℤ

structure Startup where
  settings : Settings
  maxWorkers : ℕ := 0
  threads : List TaggedThread := []
  go : GoMode := .wait
  owner : OwnerPc := .free
  proxy : ProxyPc := .absent
  /-- The number of `worker_sockets`. -/
  workerSockets : ℕ := 0
  /-- The addresses that the router socket of the workers can reach. -/
  known : List String := []
  /-- `START` is under way to the proxy loop. -/
  asked : Bool := false
  /-- `READY` is under way to the owner. -/
  ready : Bool := false
  /-- The `start` functions that have been called.  Nothing looks at this. -/
  started : List (ℕ × Callback) := []

namespace Startup

/-- `proxy_thread.joinable()`. -/
def proxyJoinable (s : Startup) : Bool := s.proxy != .absent

/-! ## What the owner does before the start -/

def setBatchThreads (s : Startup) (threads : ℤ) : Except String Startup :=
  if s.proxyJoinable then .error "Cannot change reserved batch threads after calling `start()`"
  else if threads < -1 then .error s!"Invalid set_batch_threads() value {threads}"
  else .ok { s with settings := { s.settings with batchJobsReserved := threads } }

def setReplyThreads (s : Startup) (threads : ℤ) : Except String Startup :=
  if s.proxyJoinable then .error "Cannot change reserved reply threads after calling `start()`"
  else if threads < -1 then .error s!"Invalid set_reply_threads() value {threads}"
  else .ok { s with settings := { s.settings with replyJobsReserved := threads } }

def setGeneralThreads (s : Startup) (threads : ℤ) : Except String Startup :=
  if s.proxyJoinable then .error "Cannot change general thread count after calling `start()`"
  else if h : threads < 1 then
    .error s!"Invalid set_general_threads() value {threads}: general threads must be > 0"
  else .ok { s with settings := { s.settings with
    generalWorkers := threads.toNat
    generalWorkers_pos := by omega } }

/-- Which of the thread counts is set. -/
inductive ThreadCount where
  | batch
  | reply
  | general
  deriving DecidableEq, Repr

def setThreads (s : Startup) : ThreadCount → ℤ → Except String Startup
  | .batch => s.setBatchThreads
  | .reply => s.setReplyThreads
  | .general => s.setGeneralThreads

/-- A new tagged thread, and its id. -/
def addTaggedThread (s : Startup) (name : String) (start : Option Callback) :
    Except String (Startup × ℕ) :=
  if s.proxyJoinable then .error "Cannot add tagged threads after calling `start()`"
  else if name = "_proxy" ∨ name = "" ∨ '\x00' ∈ name.toList then
    .error s!"Invalid tagged thread name `{name}'"
  else
    let threads := s.threads ++ [{ name := name, start := start }]
    .ok ({ s with threads := threads }, threads.length)

/-! ## `start()` -/

/-- The settings with the defaults filled in. -/
def resolve (settings : Settings) : Settings :=
  { settings with
    batchJobsReserved :=
      if settings.batchJobsReserved < 0 then ((settings.generalWorkers : ℤ) + 1) / 2
      else settings.batchJobsReserved
    replyJobsReserved :=
      if settings.replyJobsReserved < 0 then ((settings.generalWorkers : ℤ) + 7) / 8
      else settings.replyJobsReserved }

/-- The thread counts that the worker pool is run with. -/
def poolConfig {κ : Type} (cfg : Categories κ) (s : Startup) : PoolConfig κ where
  generalWorkers := s.settings.generalWorkers
  generalWorkers_pos := s.settings.generalWorkers_pos
  batchThreads := s.settings.batchJobsReserved
  replyThreads := s.settings.replyJobsReserved
  reservedThreads := cfg.reservedThreads
  maxQueue := cfg.maxQueue
  taggedThreads := s.threads.length

variable {κ : Type} [Fintype κ]

/-- The first part of `start()`, up to the creation of the proxy thread. -/
def start (cfg : Categories κ) (s : Startup) : Except String Startup :=
  if s.proxyJoinable then .error "Cannot call start() multiple times!"
  else
    let settings := resolve s.settings
    .ok { s with
      settings := settings
      maxWorkers := (settings.generalWorkers + settings.batchJobsReserved +
        settings.replyJobsReserved + ∑ c, (cfg.reservedThreads c : ℤ)).toNat
      owner := .starting
      proxy := .init }

/-- The proxy thread has been initialized or has thrown; `start()` goes on, or rethrows. -/
def resume (s : Startup) : Option Startup :=
  match s.owner, s.proxy with
  | .starting, .looping => some { s with owner := .waitsReady, asked := true }
  | .starting, .failed _ => some { s with owner := .free, proxy := .absent }
  | _, _ => none

/-- `READY` arrives, and `start()` returns. -/
def getReady (s : Startup) : Option Startup :=
  if s.owner = .waitsReady ∧ s.ready then some { s with owner := .running, ready := false }
  else none

/-! ## The proxy thread -/

/-- The address of a tagged thread. -/
def routingId (i : ℕ) : String := (Worker.tagged i).routingId

/-- The addresses of all tagged threads. -/
def routingIds (s : Startup) : List String := (List.range s.threads.length).map routingId

/-- `proxy_loop_init` up to the point where `tagged_go` is set. -/
def proxyLoopInit (s : Startup) (outcome : InitOutcome) : Option Startup :=
  match s.proxy with
  | .init =>
    -- Each time, `workers_socket` is a new socket.
    let s := { s with known := [] }
    if outcome = .early then some { s with proxy := .failed .zmq }
    else if s.workerSockets ≠ 0 then some { s with proxy := .failed .activeWorkers }
    else
      let s := { s with workerSockets := s.maxWorkers }
      if outcome = .late then some { s with proxy := .failed .zmq }
      else if s.threads.isEmpty then some { s with proxy := .looping }
      else some { s with go := .go, proxy := .announcing }
  | _ => none

/-- `tagged_cv.notify_all()`. -/
def notifyAll (s : Startup) : Startup :=
  { s with threads := s.threads.map TaggedThread.wakeUp }

/-- The proxy thread notifies, and sets out to wait for everyone. -/
def announce (s : Startup) : Option Startup :=
  match s.proxy with
  | .announcing => some { s.notifyAll with proxy := .collecting s.routingIds.dedup }
  | _ => none

/-- The proxy thread receives the next message of a tagged thread. -/
def collect (s : Startup) (i : ℕ) : Option Startup :=
  match s.proxy, s.threads[i]? with
  | .collecting waitingOn, some t =>
    match t.outbox with
    | message :: rest =>
      let s := { s with
        threads := s.threads.set i { t with outbox := rest }
        known := routingId i :: s.known }
      if message = "STARTING" then
        let waitingOn := waitingOn.erase (routingId i)
        some { s with proxy := if waitingOn.isEmpty then .releasing 0 else .collecting waitingOn }
      else some s
    | [] => none
  | _, _ => none

/-- The proxy thread sends the next `START`, or is done with it. -/
def release (s : Startup) : Option Startup :=
  match s.proxy with
  | .releasing i =>
    match s.threads[i]? with
    | some t =>
      if routingId i ∈ s.known then
        some { s with
          threads := s.threads.set i { t with inbox := t.inbox ++ [.start] }
          proxy := .releasing (i + 1) }
      else some { s with proxy := .failed .hostUnreachable }
    | none => some { s with proxy := .looping }
  | _ => none

/-- The proxy loop answers the owner. -/
def serve (s : Startup) : Option Startup :=
  if s.proxy = .looping ∧ s.asked then some { s with asked := false, ready := true } else none

/-! ## The tagged threads -/

/-- A tagged thread does something. -/
def act (s : Startup) (i : ℕ) (e : ThreadEvent) : Option Startup :=
  s.threads[i]?.bind fun t => (t.act s.go e).map fun r =>
    { s with
      threads := s.threads.set i r.1
      started := s.started ++ r.2.map fun f => (i, f) }

/-! ## The destructor -/

def destroy (s : Startup) : Startup :=
  if s.proxyJoinable then { s with owner := .quitting }
  else if s.threads.isEmpty then { s with owner := .destroyed }
  else { s with go := .shutdown, owner := .shutdown }

def notifyShutdown (s : Startup) : Option Startup :=
  if s.owner = .shutdown then some { s.notifyAll with owner := .joining 0 } else none

/-- The owner joins the next tagged thread once it has exited. -/
def join (s : Startup) : Option Startup :=
  match s.owner with
  | .joining i =>
    match s.threads[i]? with
    | some t =>
      if t.pc = .exited then some { s with
        threads := s.threads.set i { t with joinable := false }
        owner := .joining (i + 1) }
      else none
    | none => some { s with owner := .destroyed }
  | _ => none

end Startup

/-! ## The system -/

inductive StartupEvent where
  | setThreads (count : Startup.ThreadCount) (threads : ℤ)
  | addTaggedThread (name : String) (start : Option Callback)
  | start
  | destroy
  -- the owner, inside of `start()` and of the destructor
  | resume
  | getReady
  | notifyShutdown
  | join
  -- the proxy thread
  | proxyLoopInit (outcome : InitOutcome)
  | announce
  | collect (i : ℕ)
  | release
  | serve
  -- the tagged thread of this number
  | thread (i : ℕ) (e : ThreadEvent)
  deriving DecidableEq, Repr

namespace Startup

/-- A call of the owner, which has to be neither in `start()` nor in the destructor.  A call that
throws does nothing. -/
def call (s : Startup) (f : Startup → Except String Startup) : Option Startup :=
  if s.owner = .free ∨ s.owner = .running then some ((f s).toOption.getD s) else none

/-- What an event does. -/
def step {κ : Type} [Fintype κ] (cfg : Categories κ) (s : Startup) : StartupEvent → Option Startup
  | .setThreads count threads => s.call fun s => s.setThreads count threads
  | .addTaggedThread name start => s.call fun s => (s.addTaggedThread name start).map Prod.fst
  | .start => s.call (Startup.start cfg)
  | .destroy => s.call fun s => .ok s.destroy
  | .resume => s.resume
  | .getReady => s.getReady
  | .notifyShutdown => s.notifyShutdown
  | .join => s.join
  | .proxyLoopInit outcome => s.proxyLoopInit outcome
  | .announce => s.announce
  | .collect i => s.collect i
  | .release => s.release
  | .serve => s.serve
  | .thread i e => s.act i e

end Startup

end OxenMQ
