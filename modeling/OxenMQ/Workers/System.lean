import OxenMQ.Lib.Transition
import OxenMQ.Workers.Defs

/-!
# The handlers of the worker pool

What the proxy thread does when a command, a task, a batch or a worker's message comes in, what it
does between messages (`proxy_process_queue`), and what a worker thread does.  Each handler of the
proxy is one step of the system: handlers run to their end, and the only thing that goes on at the
same time is what the workers do to their own `RunInfo` and to the results of a batch, which the
proxy does not look at.  `PoolEvent` lists the steps and `Sys.step` says what they do.

`Sys.dispatch` is what four places of the source do with an untagged worker: take one, load its
`RunInfo`, start it, and count the job as active.
-/

set_option autoImplicit false

namespace OxenMQ

variable {κ : Type} [DecidableEq κ]

namespace Pool

/-! ## The books -/

/-- `active_workers()`. -/
def activeWorkers (p : Pool κ) : ℤ := (p.workers.length : ℤ) - p.idleWorkerCount

/-- The workers that are listed as idle. -/
def idle (p : Pool κ) : List ℕ := p.idleWorkers.take p.idleWorkerCount

/-- The counter of active jobs of a kind. -/
def active (p : Pool κ) : Kind κ → ℤ
  | .batch => p.batchJobsActive
  | .reply => p.replyJobsActive
  | .category c => p.activeThreads c

def addActive (p : Pool κ) (n : ℤ) : Kind κ → Pool κ
  | .batch => { p with batchJobsActive := p.batchJobsActive + n }
  | .reply => { p with replyJobsActive := p.replyJobsActive + n }
  | .category c =>
    { p with activeThreads := Function.update p.activeThreads c (p.activeThreads c + n) }

def addQueued (p : Pool κ) (n : ℤ) (c : κ) : Pool κ :=
  { p with queued := Function.update p.queued c (p.queued c + n) }

def runInfo (p : Pool κ) : Worker → Option (RunInfo κ)
  | .untagged i => p.workers[i]?
  | .tagged t => p.taggedWorkers[t]?.map TaggedWorker.run

def modifyRun (p : Pool κ) (f : RunInfo κ → RunInfo κ) : Worker → Pool κ
  | .untagged i => { p with workers := p.workers.modify i f }
  | .tagged t => { p with
      taggedWorkers := p.taggedWorkers.modify t fun tw => { tw with run := f tw.run } }

/-- `get_idle_worker`: the books without the worker, and its index. -/
def getIdleWorker (p : Pool κ) : Pool κ × ℕ :=
  if p.idleWorkerCount = 0 then
    ({ p with workers := p.workers ++ [{}] }, p.workers.length)
  else
    let count := p.idleWorkerCount - 1
    ({ p with idleWorkerCount := count }, p.idleWorkers.getD count 0)

/-- Is there a socket for the worker?  `proxy_loop_init` gives `worker_sockets` and `idle_workers`
the same size, and neither of them changes it.  A tagged worker makes its own. -/
def hasSocket (p : Pool κ) : Worker → Bool
  | .untagged i => decide (i < p.idleWorkers.length)
  | .tagged _ => true

/-- Puts an untagged worker back on the list of idle ones. -/
def pushIdle (p : Pool κ) (i : ℕ) : Pool κ :=
  { p with
    idleWorkers := p.idleWorkers.set p.idleWorkerCount i
    idleWorkerCount := p.idleWorkerCount + 1 }

/-- Appends a job to the queue of a tagged thread, or else to one of the general queues. -/
def pushJob (p : Pool κ) (thread : ℤ) (reply : Bool) (bj : BatchJob) : Pool κ :=
  if 0 < thread then { p with
    taggedWorkers := p.taggedWorkers.modify (thread - 1).toNat fun tw =>
      { tw with queue := tw.queue ++ [bj] } }
  else if reply then { p with replyJobs := p.replyJobs ++ [bj] }
  else { p with batchJobs := p.batchJobs ++ [bj] }

/-- Is there neither a reserved nor a general worker slot for the category? -/
def noSlot (cfg : PoolConfig κ) (p : Pool κ) (c : κ) : Bool :=
  decide ((cfg.reservedThreads c : ℤ) ≤ p.activeThreads c) &&
    decide ((cfg.generalWorkers : ℤ) ≤ p.activeWorkers)

/-- Is the queue of the category full? -/
def queueFull (cfg : PoolConfig κ) (p : Pool κ) (c : κ) : Bool :=
  decide (0 ≤ cfg.maxQueue c) && decide (cfg.maxQueue c ≤ p.queued c)

end Pool

namespace Sys

/-! ## Telling a worker what to do -/

/-- `route_control` to a worker. -/
def routeControl (s : Sys κ) (cmd : WorkerCommand) (w : Worker) : Sys κ :=
  let thread := s.threads w
  { s with
    threads := Function.update s.threads w { thread with inbox := thread.inbox ++ [cmd] }
    sent := Function.update s.sent w (s.sent w ++ [cmd]) }

/-- A new thread, which finds its first job preloaded. -/
def spawn (s : Sys κ) (w : Worker) : Sys κ :=
  { s with
    pool := s.pool.modifyRun (fun r => { r with joinable := true }) w
    threads := Function.update s.threads w { status := .preloaded } }

def proxyRunWorker (s : Sys κ) (w : Worker) : Sys κ :=
  match s.pool.runInfo w with
  | some run => if run.joinable then s.routeControl .run w else s.spawn w
  | none => s

/-- Fills in the `run_info` of a worker. -/
def load (s : Sys κ) (w : Worker) (l : Load κ) : Sys κ :=
  { s with
    pool := s.pool.modifyRun (fun r => r.load l) w
    outstanding := Function.update s.outstanding w (s.outstanding w + 1)
    overwritten := s.overwritten || decide (s.outstanding w ≠ 0)
    log := s.log ++ [.dispatched w l] }

/-- An idle worker, or a new one, is loaded and started, and the job counts as active. -/
def dispatch (s : Sys κ) (k : Kind κ) (l : Load κ) : Sys κ :=
  let (pool, i) := s.pool.getIdleWorker
  let s := ({ s with pool := pool }.load (.untagged i) l).proxyRunWorker (.untagged i)
  { s with pool := s.pool.addActive 1 k }

/-! ## Commands and injected tasks -/

/-- Queues a command for later, unless its category has too many waiting. -/
def queueCommand (cfg : PoolConfig κ) (s : Sys κ) (p : PendingCommand κ) : Sys κ :=
  if s.pool.queueFull cfg p.cat then s
  else
    let pool := { s.pool with pendingCommands := s.pool.pendingCommands ++ [p] }
    { s with pool := pool.addQueued 1 p.cat }

/-- The part of `proxy_to_worker` after the checks on the sender. -/
def proxyToWorker (cfg : PoolConfig κ) (s : Sys κ) (a : Arrival κ) : Sys κ :=
  if s.pool.noSlot cfg a.cat then s.queueCommand cfg (.command a)
  else if a.callback.isRequest && a.dataParts.isEmpty then s
  else s.dispatch (.category a.cat) (.pending (.command a))

def proxyInjectTask (cfg : PoolConfig κ) (s : Sys κ) (t : InjectedTask κ) : Sys κ :=
  if s.pool.noSlot cfg t.cat then s.queueCommand cfg (.injected t)
  else s.dispatch (.category t.cat) (.pending (.injected t))

/-! ## Batches -/

/-- `new`: the batch moves to the heap. -/
def alloc (s : Sys κ) (spec : BatchSpec) : Sys κ :=
  { s with
    heap := Function.update s.heap s.nextPtr (some (.ofSpec spec))
    nextPtr := s.nextPtr + 1
    log := s.log ++ [.submitted s.nextPtr spec] }

/-- The queue each job of a batch goes to. -/
def batchTargets (b : Batch) : List ℤ :=
  b.jobs.map fun j => if b.taggedThreadJobs then j.2 else 0

/-- Queues the jobs of a batch, the first of which has the number `i`. -/
def pushJobs (ptr : ℕ) : ℕ → List ℤ → Pool κ → Pool κ
  | _, [], p => p
  | i, thread :: rest, p => pushJobs ptr (i + 1) rest (p.pushJob thread false ⟨ptr, i⟩)

def proxyBatch (s : Sys κ) (ptr : ℕ) : Sys κ :=
  match s.heap ptr with
  | some b => { s with pool := pushJobs ptr 0 (batchTargets b) s.pool }
  | none => s

/-- `batch()` or `job()`: a new batch, handed over to the proxy. -/
def submit (s : Sys κ) (spec : BatchSpec) : Sys κ := (s.alloc spec).proxyBatch s.nextPtr

def proxyScheduleReplyJob (s : Sys κ) (f : Callback) : Sys κ :=
  let s' := s.alloc { jobs := [(f, 0)], isJob := true }
  { s' with pool := s'.pool.pushJob 0 true ⟨s.nextPtr, 0⟩ }

def delete (s : Sys κ) (ptr : ℕ) : Sys κ :=
  { s with heap := Function.update s.heap ptr none, log := s.log ++ [.deleted ptr] }

/-! ## Between messages: starting what can be started -/

/-- Starts the next job of a tagged thread that is not busy. -/
def startTagged (s : Sys κ) (t : ℕ) : Sys κ :=
  match s.pool.taggedWorkers[t]? with
  | some tw =>
    match tw.busy, tw.queue with
    | false, bj :: rest =>
      let tagged := s.pool.taggedWorkers.set t { tw with busy := true, queue := rest }
      ({ s with pool := { s.pool with taggedWorkers := tagged } }.load (.tagged t)
        (.batch bj false true)).proxyRunWorker (.tagged t)
    | _, _ => s
  | none => s

/-- The queue that `proxy_run_batch_jobs` works on, and the kind its jobs are of. -/
def jobQueue (s : Sys κ) (reply : Bool) : List BatchJob :=
  if reply then s.pool.replyJobs else s.pool.batchJobs

def setJobQueue (s : Sys κ) (reply : Bool) (jobs : List BatchJob) : Sys κ :=
  { s with
    pool := if reply then { s.pool with replyJobs := jobs } else { s.pool with batchJobs := jobs } }

def jobKind (reply : Bool) : Kind κ := if reply then .reply else .batch

/-- May a job of this kind start now? -/
def mayStart (cfg : PoolConfig κ) (s : Sys κ) (k : Kind κ) : Bool :=
  decide (s.pool.activeWorkers < s.pool.maxWorkers) &&
    (decide (s.pool.active k < cfg.reserved k) ||
      decide (s.pool.activeWorkers < cfg.generalWorkers))

/-- The loop of `proxy_run_batch_jobs`; every turn takes a job off the queue. -/
def proxyRunBatchJobs (cfg : PoolConfig κ) (reply : Bool) : ℕ → Sys κ → Sys κ
  | 0, s => s
  | fuel + 1, s =>
    match s.jobQueue reply with
    | [] => s
    | bj :: rest =>
      if s.mayStart cfg (jobKind reply) then
        proxyRunBatchJobs cfg reply fuel
          ((s.setJobQueue reply rest).dispatch (jobKind reply) (.batch bj reply false))
      else s

/-- Takes a command out of the queue and starts it; `rest` is the queue without it. -/
def startPending (s : Sys κ) (p : PendingCommand κ) (rest : List (PendingCommand κ)) : Sys κ :=
  let s := s.dispatch (.category p.cat) (.pending p)
  { s with pool := { s.pool.addQueued (-1) p.cat with pendingCommands := rest } }

/-- The pass over the pending commands, of which the ones in `kept` have been passed over. -/
def runPending (cfg : PoolConfig κ) :
    List (PendingCommand κ) → List (PendingCommand κ) → Sys κ → Sys κ
  | _, [], s => s
  | kept, p :: todo, s =>
    if s.pool.activeWorkers < s.pool.maxWorkers then
      if s.mayStart cfg (.category p.cat) then
        runPending cfg kept todo (s.startPending p (kept ++ todo))
      else runPending cfg (kept ++ [p]) todo s
    else s

def proxyProcessQueue (cfg : PoolConfig κ) (s : Sys κ) : Sys κ :=
  if s.pool.maxWorkers = 0 then s
  else
    let s := (List.range s.pool.taggedWorkers.length).foldl startTagged s
    let s := proxyRunBatchJobs cfg false s.pool.batchJobs.length s
    let s := proxyRunBatchJobs cfg true s.pool.replyJobs.length s
    runPending cfg [] s.pool.pendingCommands s

/-! ## What a worker tells the proxy -/

/-- The batch a job belongs to, when the job has returned from a worker. -/
def jobReturned (s : Sys κ) (bj : BatchJob) (replyJob : Bool) : Sys κ :=
  if bj.jobno = -1 then s.delete bj.ptr
  else
    match s.heap bj.ptr with
    | none => s
    | some b =>
      let (b, state) := b.jobFinished
      let s := { s with heap := Function.update s.heap bj.ptr (some b) }
      match state with
      | .running => s
      | .done => s.delete bj.ptr
      | .complete thread =>
        if thread = -1 then
          { s with log := s.log ++ [LogEntry.completed bj.ptr none b.results] }.delete bj.ptr
        else { s with pool := s.pool.pushJob thread replyJob ⟨bj.ptr, -1⟩ }

/-- The counter or the flag that said that the worker had this job. -/
def release (s : Sys κ) (w : Worker) (run : RunInfo κ) : Sys κ :=
  if run.isBatchJob then
    match w with
    | .tagged t => { s with pool := { s.pool with
        taggedWorkers := s.pool.taggedWorkers.modify t fun tw => { tw with busy := false } } }
    | .untagged _ =>
      { s with pool := s.pool.addActive (-1) (if run.isReplyJob then .reply else .batch) }
  else
    match run.cat with
    | some c => { s with pool := s.pool.addActive (-1) (.category c) }
    | none => s

/-- The worker is told to quit, or it is idle again. -/
def retire (s : Sys κ) (w : Worker) : Sys κ :=
  if s.pool.maxWorkers = 0 then s.routeControl .quit w
  else
    match w with
    | .untagged i => { s with pool := s.pool.pushIdle i }
    | .tagged _ => s

/-- A `RAN` from a worker. -/
def workerRan (s : Sys κ) (w : Worker) (run : RunInfo κ) : Sys κ :=
  let s := { s with outstanding := Function.update s.outstanding w (s.outstanding w - 1) }
  let s := s.release w run
  let s :=
    match run.batchJob with
    | some bj => { s with log := s.log ++ [LogEntry.finished bj] }.jobReturned bj run.isReplyJob
    | none => s
  s.retire w

/-- A message is taken out of the outbox of a worker. -/
def takeReply (s : Sys κ) (w : Worker) (rest : List WorkerReply) : Sys κ :=
  { s with threads := Function.update s.threads w { s.threads w with outbox := rest } }

/-- The next message of a worker, if there is one. -/
def proxyWorkerMessage (s : Sys κ) (w : Worker) : Option (Sys κ) :=
  match s.pool.runInfo w, (s.threads w).outbox with
  | some run, reply :: rest =>
    let s := s.takeReply w rest
    match reply with
    | .ran => some (s.workerRan w run)
    | .quitting =>
      some { s with pool := s.pool.modifyRun (fun r => { r with joinable := false }) w }
  | _, _ => none

/-! ## Shutting down -/

/-- The tagged workers that are not busy. -/
def idleTagged (s : Sys κ) : List Worker :=
  ((List.range s.pool.taggedWorkers.length).filter fun t =>
    s.pool.taggedWorkers[t]?.any fun tw => !tw.busy).map Worker.tagged

/-- The `QUIT` control message. -/
def proxyControlQuit (s : Sys κ) : Sys κ :=
  let s := { s with pool := { s.pool with maxWorkers := 0 } }
  let s := (s.pool.idle.map Worker.untagged).foldl (routeControl · .quit) s
  let s := { s with pool := { s.pool with idleWorkerCount := 0 } }
  s.idleTagged.foldl (routeControl · .quit) s

/-- Has every worker been joined? -/
def allJoined (s : Sys κ) : Bool :=
  s.pool.workers.all (fun run => !run.joinable) && s.pool.taggedWorkers.all fun tw =>
    !tw.run.joinable

/-! ## The worker threads -/

/-- A worker begins with what its `run_info` says. -/
def beginJob (s : Sys κ) (w : Worker) (run : RunInfo κ) : Sys κ :=
  let thread := { s.threads w with status := .running }
  if run.isBatchJob then
    let s := { s with threads := Function.update s.threads w thread }
    match run.batchJob with
    | some bj =>
      if bj.jobno = -1 then
        match s.heap bj.ptr with
        | some b => { s with
            heap := Function.update s.heap bj.ptr (some { b with results := [] })
            log := s.log ++ [.completed bj.ptr (some w) b.results] }
        | none => s
      else s
    | none => s
  else if run.isInjected then { s with threads := Function.update s.threads w thread }
  else
    match run.toRun, run.origin with
    | some (.callback callback), some a =>
      let message := run.prepare callback thread.message
      { s with
        pool := s.pool.modifyRun (fun r => { r with remote := "" }) w
        threads := Function.update s.threads w { thread with message := message }
        log := s.log ++ [.invoked w a message] }
    | _, _ => { s with threads := Function.update s.threads w thread }

/-- A worker waits for a message.  Anything but the message it waits for and `QUIT` is dropped.  A
new worker first takes its socket out of `worker_sockets`, and if there is none nothing is known
about what it does. -/
def workerReceive (s : Sys κ) (w : Worker) : Option (Sys κ) :=
  let thread := s.threads w
  match s.pool.runInfo w, thread.status, thread.inbox with
  | some run, .preloaded, _ => if s.pool.hasSocket w then some (s.beginJob w run) else none
  | some run, .waiting, cmd :: rest =>
    let thread := { thread with inbox := rest }
    let s' := { s with threads := Function.update s.threads w thread }
    match cmd with
    | .run => some (s'.beginJob w run)
    | .quit =>
      let thread := { thread with status := .exited, outbox := thread.outbox ++ [.quitting] }
      some { s with threads := Function.update s.threads w thread }
    | .start => some s'
  | _, .starting, cmd :: rest =>
    let thread := { thread with inbox := rest }
    let thread := match cmd with
      | .start => { thread with status := .waiting }
      | .quit => { thread with status := .exited, outbox := thread.outbox ++ [.quitting] }
      | .run => thread
    some { s with threads := Function.update s.threads w thread }
  | _, _, _ => none

/-- A worker returns from its job, which has this result.  A command callback may have left
anything in the message object. -/
def workerFinish (s : Sys κ) (w : Worker) (left : Message) (r : JobResult) : Option (Sys κ) :=
  match s.pool.runInfo w, (s.threads w).status with
  | some run, .running =>
    let thread := { s.threads w with status := .waiting, outbox := (s.threads w).outbox ++ [.ran] }
    match run.batchJob with
    | some bj =>
      let s := { s with threads := Function.update s.threads w thread }
      if 0 ≤ bj.jobno then
        some { s with
          heap := Function.update s.heap bj.ptr
            ((s.heap bj.ptr).map fun b => b.runJob bj.jobno.toNat r)
          log := s.log ++ [.executed bj r] }
      else some s
    | none =>
      let thread := if run.isInjected then thread else { thread with message := left }
      some { s with threads := Function.update s.threads w thread }
  | _, _ => none

end Sys

/-! ## The system -/

inductive PoolEvent (κ : Type) where
  /-- A message arrives that invokes a command, and has passed the checks on its sender. -/
  | command (a : Arrival κ)
  | inject (t : InjectedTask κ)
  | submit (spec : BatchSpec)
  | replyJob (f : Callback)
  | processQueue
  /-- The proxy processes the next message of a worker. -/
  | workerMessage (w : Worker)
  /-- The proxy is told to quit. -/
  | quit
  /-- The proxy finds that all workers have been joined, and executes `proxy_quit`. -/
  | stop
  /-- A worker takes the next message, or begins with its first job. -/
  | receive (w : Worker)
  /-- A worker returns from its job. -/
  | finish (w : Worker) (left : Message) (r : JobResult)

/-- A batch has jobs, and its threads are the tagged threads of this instance. -/
def BatchSpec.valid (cfg : PoolConfig κ) (spec : BatchSpec) : Bool :=
  !spec.jobs.isEmpty &&
    spec.jobs.all (fun j => decide (0 ≤ j.2) && decide (j.2 ≤ (cfg.taggedThreads : ℤ))) &&
    spec.complete.all (fun c => decide (-1 ≤ c.2) && decide (c.2 ≤ (cfg.taggedThreads : ℤ))) &&
    (!spec.isJob || (decide (spec.jobs.length = 1) && spec.complete.isNone))

namespace Sys

/-- The system as `proxy_loop_init` leaves it: the tagged threads have been told to start. -/
def init [Fintype κ] (cfg : PoolConfig κ) : Sys κ where
  pool :=
    { idleWorkers := List.replicate cfg.maxWorkers 0
      taggedWorkers := List.replicate cfg.taggedThreads { run := { joinable := true } }
      maxWorkers := cfg.maxWorkers }
  threads
    | .untagged _ => {}
    | .tagged t => if t < cfg.taggedThreads then { status := .starting, inbox := [.start] } else {}
  sent
    | .untagged _ => []
    | .tagged t => if t < cfg.taggedThreads then [.start] else []

/-- What an event does.  Nothing happens any more once the proxy has stopped. -/
def step (cfg : PoolConfig κ) (s : Sys κ) (e : PoolEvent κ) : Option (Sys κ) :=
  if s.stopped then none
  else
    match e with
    | .command a => some (s.proxyToWorker cfg a)
    | .inject t => some (s.proxyInjectTask cfg t)
    | .submit spec => if spec.valid cfg then some (s.submit spec) else none
    | .replyJob f => some (s.proxyScheduleReplyJob f)
    | .processQueue => some (s.proxyProcessQueue cfg)
    | .workerMessage w => s.proxyWorkerMessage w
    | .quit => if s.pool.maxWorkers = 0 then none else some s.proxyControlQuit
    | .stop =>
      if s.pool.maxWorkers = 0 ∧ s.allJoined then some { s with stopped := true } else none
    | .receive w => s.workerReceive w
    | .finish w left r => s.workerFinish w left r

end Sys

end OxenMQ
