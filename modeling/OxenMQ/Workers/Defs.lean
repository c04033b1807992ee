import Mathlib.Algebra.BigOperators.Group.Finset.Basic
import Mathlib.Data.Fintype.Basic
import OxenMQ.Connections.Incoming

/-!
# The proxy thread and its workers

The embedding of `worker.cpp`, of `jobs.cpp` without the timers, of `batch.h` and of
`proxy_process_queue`.  The system has many parties: the proxy thread, which keeps the books
(`Pool`), and the worker threads (`Thread`), untagged ones that are started on demand and tagged
ones that are there from the beginning.  They talk through sockets that keep the order of the
messages between two parties and nothing else, so each thread has an inbox and an outbox.

What the parties share is memory.  A `RunInfo` belongs to one worker but is filled in by the
proxy, and a `Batch` lives on a heap and is known by its address, in queues and in `RunInfo`s.
Nothing but the protocol keeps two threads from touching the same object.

Counters are integers, so that a counter that drops below zero shows.  `Sys.outstanding`,
`Sys.overwritten`, `Sys.sent` and `Sys.log` are not in the source: they record what has been handed
to each worker and whether it was free, what it has been told, and what has happened to jobs, and
no handler looks at them.
-/

set_option autoImplicit false

namespace OxenMQ

/-! ## Settings -/

/-- What a worker slot may be reserved for. -/
inductive Kind (κ : Type) where
  | batch
  | reply
  | category (c : κ)
  deriving DecidableEq

/-- The thread counts, as they stand when `start()` is called. -/
structure PoolConfig (κ : Type) where
  generalWorkers : ℕ
  /-- `set_general_threads` refuses anything below one. -/
  generalWorkers_pos : 0 < generalWorkers
  /-- What was given to `set_batch_threads`; a negative number asks for the default. -/
  batchThreads : ℤ := -1
  replyThreads : ℤ := -1
  reservedThreads : κ → ℕ
  maxQueue : κ → ℤ
  /-- The number of tagged threads. -/
  taggedThreads : ℕ := 0

namespace PoolConfig

variable {κ : Type}

def batchJobsReserved (cfg : PoolConfig κ) : ℕ :=
  if cfg.batchThreads < 0 then (cfg.generalWorkers + 1) / 2 else cfg.batchThreads.toNat

def replyJobsReserved (cfg : PoolConfig κ) : ℕ :=
  if cfg.replyThreads < 0 then (cfg.generalWorkers + 7) / 8 else cfg.replyThreads.toNat

def reserved (cfg : PoolConfig κ) : Kind κ → ℕ
  | .batch => cfg.batchJobsReserved
  | .reply => cfg.replyJobsReserved
  | .category c => cfg.reservedThreads c

/-- `max_workers`, as `start()` computes it. -/
def maxWorkers [Fintype κ] (cfg : PoolConfig κ) : ℕ :=
  cfg.generalWorkers + cfg.batchJobsReserved + cfg.replyJobsReserved + ∑ c, cfg.reservedThreads c

end PoolConfig

/-! ## Batches -/

/-- A `job_result`: a value, an exception, or neither yet. -/
inductive JobResult where
  | unset
  | value (v : ℕ)
  | exception (what : String)
  deriving DecidableEq, Repr

/-- What the caller puts into a batch: the jobs and the completion function, each with the tagged
thread it has to run in.  `0` is for any thread, and `-1`, for a completion function, is the proxy
thread itself.  A `Job` is a batch of one job without results. -/
structure BatchSpec where
  jobs : List (Callback × ℤ)
  complete : Option (Callback × ℤ) := none
  isJob : Bool := false
  deriving DecidableEq, Repr

/-- A `detail::Batch` as it lives on the heap. -/
structure Batch where
  jobs : List (Callback × ℤ)
  results : List JobResult
  complete : Option Callback
  jobsOutstanding : ℤ
  completeInThread : ℤ
  isJob : Bool
  deriving DecidableEq, Repr

namespace Batch

def ofSpec (spec : BatchSpec) : Batch where
  jobs := spec.jobs
  results := List.replicate spec.jobs.length .unset
  complete := spec.complete.map Prod.fst
  jobsOutstanding := spec.jobs.length
  completeInThread := (spec.complete.map Prod.snd).getD 0
  isJob := spec.isJob

/-- Is any of the jobs thread-specific? -/
def taggedThreadJobs (b : Batch) : Bool := b.jobs.any fun j => j.2 != 0

inductive State where
  /-- There are still jobs to run or running. -/
  | running
  /-- The completion function is to be called in this thread. -/
  | complete (thread : ℤ)
  /-- There is no completion function. -/
  | done
  deriving DecidableEq, Repr

/-- `job_finished`. -/
def jobFinished (b : Batch) : Batch × State :=
  if b.isJob then (b, .done)
  else
    let b := { b with jobsOutstanding := b.jobsOutstanding - 1 }
    (b, if b.jobsOutstanding ≠ 0 then .running
      else if b.complete.isSome then .complete b.completeInThread
      else .done)

/-- `run_job`, given how the job ends. -/
def runJob (b : Batch) (i : ℕ) (r : JobResult) : Batch :=
  if b.isJob then b else { b with results := b.results.set i r }

end Batch

/-- A job of a batch by its number, with `-1` for the completion function. -/
structure BatchJob where
  ptr : ℕ
  jobno : ℤ
  deriving DecidableEq, Repr

/-! ## What a worker is given to do -/

structure InjectedTask (κ : Type) where
  cat : κ
  command : String
  remote : String
  callback : Callback
  deriving DecidableEq

/-- A `pending_command`. -/
inductive PendingCommand (κ : Type) where
  | command (a : Arrival κ)
  | injected (t : InjectedTask κ)
  deriving DecidableEq

def PendingCommand.cat {κ : Type} : PendingCommand κ → κ
  | .command a => a.cat
  | .injected t => t.cat

/-- The four ways to load a `run_info`: a command or an injected task, either of them fresh or
from the queue, and a job of a batch. -/
inductive Load (κ : Type) where
  | pending (p : PendingCommand κ)
  | batch (bj : BatchJob) (replyJob taggedThread : Bool)
  deriving DecidableEq

/-- The `to_run` variant. -/
inductive ToRun where
  | callback (c : Command)
  | batch (ptr : ℕ)
  | func (f : Callback)
  deriving DecidableEq, Repr

/-- What a worker needs to know about its job.  `origin` is not in the source: it keeps the message
a command came with. -/
structure RunInfo (κ : Type) where
  isBatchJob : Bool := false
  isReplyJob : Bool := false
  isTaggedThreadJob : Bool := false
  isInjected : Bool := false
  cat : Option κ := none
  command : String := ""
  conn : ConnectionID := {}
  access : Access := {}
  remote : String := ""
  dataParts : List String := []
  batchJobno : ℤ := 0
  toRun : Option ToRun := none
  /-- `worker_thread.joinable()`. -/
  joinable : Bool := false
  origin : Option (Arrival κ) := none
  deriving DecidableEq

namespace RunInfo

variable {κ : Type}

def reset (r : RunInfo κ) : RunInfo κ :=
  { r with
    isBatchJob := false, isReplyJob := false, isTaggedThreadJob := false, isInjected := false }

def loadCommand (r : RunInfo κ) (a : Arrival κ) : RunInfo κ :=
  { r.reset with
    cat := some a.cat
    command := a.command
    conn := a.conn
    access := a.access
    remote := a.remote
    dataParts := a.dataParts
    toRun := some (.callback a.callback)
    origin := some a }

def loadInjected (r : RunInfo κ) (t : InjectedTask κ) : RunInfo κ :=
  { r.reset with
    isInjected := true
    cat := some t.cat
    command := t.command
    conn := {}
    access := {}
    remote := t.remote
    toRun := some (.func t.callback)
    origin := none }

def loadBatch (r : RunInfo κ) (bj : BatchJob) (replyJob taggedThread : Bool) : RunInfo κ :=
  { r.reset with
    isBatchJob := true
    isReplyJob := replyJob
    isTaggedThreadJob := taggedThread
    batchJobno := bj.jobno
    toRun := some (.batch bj.ptr)
    origin := none }

def load (r : RunInfo κ) : Load κ → RunInfo κ
  | .pending (.command a) => r.loadCommand a
  | .pending (.injected t) => r.loadInjected t
  | .batch bj replyJob taggedThread => r.loadBatch bj replyJob taggedThread

/-- What the job counts as when it is done. -/
def kind (r : RunInfo κ) : Option (Kind κ) :=
  if r.isBatchJob then some (if r.isReplyJob then .reply else .batch) else r.cat.map .category

/-- The job of a batch it is about, if it is. -/
def batchJob (r : RunInfo κ) : Option BatchJob :=
  match r.isBatchJob, r.toRun with
  | true, some (.batch ptr) => some ⟨ptr, r.batchJobno⟩
  | _, _ => none

end RunInfo

/-- What a command callback is called with. -/
structure Message where
  conn : ConnectionID := .ofId 0
  access : Access := {}
  remote : String := ""
  data : List String := []
  replyTag : String := ""
  deriving DecidableEq, Repr

/-- The worker's message object, made ready for a command.  It is reused from one job to the
next, and the reply tag is only written for a request. -/
def RunInfo.prepare {κ : Type} (r : RunInfo κ) (callback : Command) (m : Message) : Message :=
  let m := { m with conn := r.conn, access := r.access, remote := r.remote }
  if callback.isRequest then { m with replyTag := r.dataParts.headD "", data := r.dataParts.drop 1 }
  else { m with data := r.dataParts }

/-! ## The parties -/

/-- A worker.  The tagged ones are numbered from zero here; their ids in the source are one
higher. -/
inductive Worker where
  | untagged (i : ℕ)
  | tagged (t : ℕ)
  deriving DecidableEq, Repr

/-- What the proxy says to a worker. -/
inductive WorkerCommand where
  | start
  | run
  | quit
  deriving DecidableEq, Repr

/-- What a worker says to the proxy. -/
inductive WorkerReply where
  | ran
  | quitting
  deriving DecidableEq, Repr

inductive ThreadStatus where
  /-- There is no thread. -/
  | absent
  /-- A tagged thread that waits for `START`. -/
  | starting
  /-- A new untagged thread, which does not wait for its first job. -/
  | preloaded
  /-- Waiting for `RUN`. -/
  | waiting
  | running
  | exited
  deriving DecidableEq, Repr

structure Thread where
  status : ThreadStatus := .absent
  inbox : List WorkerCommand := []
  outbox : List WorkerReply := []
  message : Message := {}
  deriving DecidableEq, Repr

structure TaggedWorker (κ : Type) where
  run : RunInfo κ := {}
  busy : Bool := false
  queue : List BatchJob := []
  deriving DecidableEq

/-- The proxy's books. -/
structure Pool (κ : Type) where
  workers : List (RunInfo κ) := []
  /-- Only the first `idleWorkerCount` elements are in use. -/
  idleWorkers : List ℕ
  idleWorkerCount : ℕ := 0
  taggedWorkers : List (TaggedWorker κ)
  batchJobs : List BatchJob := []
  replyJobs : List BatchJob := []
  batchJobsActive : ℤ := 0
  replyJobsActive : ℤ := 0
  activeThreads : κ → ℤ := fun _ => 0
  queued : κ → ℤ := fun _ => 0
  pendingCommands : List (PendingCommand κ) := []
  /-- Zero means that we are quitting. -/
  maxWorkers : ℕ

/-- What has happened to a job. -/
inductive LogEntry (κ : Type) where
  | submitted (ptr : ℕ) (spec : BatchSpec)
  | dispatched (w : Worker) (l : Load κ)
  /-- A command callback is called. -/
  | invoked (w : Worker) (a : Arrival κ) (m : Message)
  /-- A job of a batch has been run, with this result. -/
  | executed (bj : BatchJob) (r : JobResult)
  /-- The proxy has processed the `RAN` for a job of a batch. -/
  | finished (bj : BatchJob)
  /-- The completion function is called, in a worker or in the proxy thread. -/
  | completed (ptr : ℕ) (place : Option Worker) (results : List JobResult)
  | deleted (ptr : ℕ)
  deriving DecidableEq

structure Sys (κ : Type) where
  pool : Pool κ
  threads : Worker → Thread
  heap : ℕ → Option Batch := fun _ => none
  /-- The next address the allocator hands out. -/
  nextPtr : ℕ := 0
  /-- Has `proxy_quit` been executed? -/
  stopped : Bool := false
  /-- The number of jobs that have been handed to a worker and whose `RAN` has not been
  processed. -/
  outstanding : Worker → ℤ := fun _ => 0
  /-- Has the `run_info` of a worker been filled in while the worker had a job? -/
  overwritten : Bool := false
  /-- Everything a worker has been told. -/
  sent : Worker → List WorkerCommand
  log : List (LogEntry κ) := []

end OxenMQ
