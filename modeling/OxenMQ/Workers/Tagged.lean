import OxenMQ.Workers.LifeCycle
import OxenMQ.Workers.Order

/-!
# Tagged threads

A tagged thread has a queue of its own.  The jobs that are for it form a line: those that the worker
has been given, in the order in which that happened, and then those that are in the queue.  New ones
go to the end of it (`Sys.enqueues`), and nothing else changes it (`Sys.Joins`), so that the line is
at all times what has been queued for the thread since the beginning.

That the jobs run nowhere else is a matter of the batches.  What is in the queue of a thread, and
what a worker has, is in its place (`Sys.Directed`), and no job has two places.
-/

set_option autoImplicit false

namespace OxenMQ

variable {κ : Type}

/-- The job that a tagged worker is given. -/
def LogEntry.taggedJob (t : ℕ) : LogEntry κ → Option BatchJob
  | .dispatched (.tagged u) (.batch bj _ _) => if u = t then some bj else none
  | _ => none

theorem LogEntry.taggedJob_of_load {e : LogEntry κ} (h : e.load = none) (t : ℕ) :
    e.taggedJob t = none := by
  cases e <;> first | rfl | cases h

namespace Sys

/-- The jobs that a tagged worker has been given. -/
def dispatchedTo (s : Sys κ) (t : ℕ) : List BatchJob := s.log.filterMap (LogEntry.taggedJob t)

/-- The jobs of a batch that are for this thread; the first job of the batch has the number `i`. -/
def jobsFor (ptr : ℕ) (thread : ℤ) : ℕ → List ℤ → List BatchJob
  | _, [] => []
  | i, place :: rest =>
    (if place = thread then [⟨ptr, i⟩] else []) ++ jobsFor ptr thread (i + 1) rest

/-- What an event puts into the queue of a tagged thread. -/
def enqueues (t : ℕ) (s : Sys κ) : PoolEvent κ → List BatchJob
  | .submit spec => jobsFor s.nextPtr (t + 1) 0 (spec.jobs.map Prod.snd)
  | .workerMessage w =>
    match s.pool.runInfo w, (s.threads w).outbox with
    | some run, .ran :: _ => (run.batchJob.map (s.completionFor (t + 1))).getD []
    | _, _ => []
  | _ => []

/-- All that has been put into the queue of a tagged thread, in the order in which that happened. -/
def enqueued [DecidableEq κ] [Fintype κ] (cfg : PoolConfig κ) (t : ℕ) (es : List (PoolEvent κ)) :
    List BatchJob :=
  (Transition.steps (Sys.step cfg) (init cfg) es).flatMap fun p => enqueues t p.1 p.2

/-- The job of a tagged worker that is busy is the last one it has been given. -/
def LastGiven (t : ℕ) (s : Sys κ) : Prop :=
  ∀ tw, s.pool.taggedWorkers[t]? = some tw → tw.busy = true →
    ∃ bj, tw.run.batchJob = some bj ∧ (s.dispatchedTo t).getLast? = some bj

end Sys

/-- A tagged worker that is busy has been so before, with the same job. -/
def Pool.NoNewJob (t : ℕ) (p p' : Pool κ) : Prop :=
  ∀ tw', p'.taggedWorkers[t]? = some tw' → tw'.busy = true →
    ∃ tw, p.taggedWorkers[t]? = some tw ∧ tw.busy = true ∧ tw'.run.batchJob = tw.run.batchJob

/-- The counters of the proxy are the same. -/
structure Pool.SameCounters (p p' : Pool κ) : Prop where
  activeWorkers : p'.activeWorkers = p.activeWorkers
  active : p'.active = p.active
  queued : p'.queued = p.queued

namespace Pool

variable {t : ℕ} {p p' p'' : Pool κ}

theorem NoNewJob.of_eq (h : p'.taggedWorkers = p.taggedWorkers) : NoNewJob t p p' :=
  fun tw' ht hbusy => ⟨tw', h ▸ ht, hbusy, rfl⟩

theorem NoNewJob.trans (h : NoNewJob t p p') (h' : NoNewJob t p' p'') : NoNewJob t p p'' := by
  intro tw'' ht'' hbusy''
  obtain ⟨tw', ht', hbusy', hjob'⟩ := h' tw'' ht'' hbusy''
  obtain ⟨tw, ht, hbusy, hjob⟩ := h tw' ht' hbusy'
  exact ⟨tw, ht, hbusy, hjob'.trans hjob⟩

/-- A tagged worker is changed, but not its job. -/
theorem noNewJob_modify (p : Pool κ) (u : ℕ) {g : TaggedWorker κ → TaggedWorker κ}
    (hbusy : ∀ tw, (g tw).busy = true → tw.busy = true)
    (hjob : ∀ tw, (g tw).run.batchJob = tw.run.batchJob) :
    NoNewJob t p { p with taggedWorkers := p.taggedWorkers.modify u g } := by
  intro tw' ht' hbusy'
  rw [List.getElem?_modify_ite] at ht'
  split at ht'
  · obtain ⟨tw, ht, rfl⟩ := Option.map_eq_some_iff.1 ht'
    exact ⟨tw, ht, hbusy tw hbusy', hjob tw⟩
  · exact ⟨tw', ht', hbusy', rfl⟩

theorem noNewJob_modifyRun (p : Pool κ) {g : RunInfo κ → RunInfo κ}
    (hg : ∀ r, (g r).batchJob = r.batchJob) (w : Worker) : NoNewJob t p (p.modifyRun g w) := by
  cases w with
  | untagged i => exact .of_eq rfl
  | tagged u => exact p.noNewJob_modify u (fun _ h => h) fun tw => hg tw.run

/-- A job is put at the end of its queue. -/
theorem queue_pushJob (p : Pool κ) (ht : t < p.taggedWorkers.length) (thread : ℤ) (reply : Bool)
    (bj : BatchJob) :
    (p.pushJob thread reply bj).queue (t + 1) =
      p.queue (t + 1) ++ if thread = t + 1 then [bj] else [] := by
  rcases thread_cases thread with ⟨u, rfl⟩ | rfl | hneg
  · rw [pushJob, if_pos (by omega), Int.add_sub_cancel, Int.toNat_natCast, queue_tagged,
      queue_tagged, List.getElem?_modify_ite]
    rcases eq_or_ne t u with rfl | hne
    · rw [if_pos rfl, if_pos rfl, List.getElem?_eq_getElem ht]
      rfl
    · rw [if_neg hne, if_neg (by omega), List.append_nil]
  · have hne : (0 : ℤ) ≠ t + 1 := by omega
    rw [pushJob, if_neg (lt_irrefl 0), if_neg hne, List.append_nil]
    cases reply <;> rfl
  · have hne : thread ≠ t + 1 := by omega
    rw [pushJob, if_neg (by omega), if_neg hne, List.append_nil]
    cases reply <;> rfl

/-- The jobs of a batch are put at the end of their queues, in their order. -/
theorem queue_pushJobs (ptr : ℕ) (threads : List ℤ) (i : ℕ) (p : Pool κ)
    (ht : t < p.taggedWorkers.length) :
    (Sys.pushJobs ptr i threads p).queue (t + 1) =
      p.queue (t + 1) ++ Sys.jobsFor ptr (t + 1) i threads := by
  induction threads generalizing i p with
  | nil => exact (List.append_nil _).symm
  | cons thread rest ih =>
    rw [Sys.pushJobs, ih (i + 1) _ (by rwa [tagged_length_pushJob]), p.queue_pushJob ht,
      List.append_assoc, Sys.jobsFor]

end Pool

namespace Sys

variable {t : ℕ} {s s' s'' : Sys κ} {l : List BatchJob}

/-- These jobs have joined the line of the thread, and nobody has left it. -/
structure Joins (t : ℕ) (s s' : Sys κ) (l : List BatchJob) : Prop where
  line : s'.dispatchedTo t ++ s'.pool.queue (t + 1) =
    s.dispatchedTo t ++ s.pool.queue (t + 1) ++ l
  queued : ∀ bj ∈ l, bj ∈ s'.pool.queue (t + 1)
  last : s.LastGiven t → s'.LastGiven t
  log : ∀ e ∈ s.log, e ∈ s'.log

theorem Joins.refl (s : Sys κ) : Joins t s s [] :=
  ⟨(List.append_nil _).symm, nofun, id, fun _ he => he⟩

theorem Joins.trans (h : Joins t s s' []) (h' : Joins t s' s'' []) : Joins t s s'' [] :=
  ⟨by rw [h'.line, h.line, List.append_nil, List.append_nil], nofun, fun hs => h'.last (h.last hs),
    fun e he => h'.log e (h.log e he)⟩

/-- Nobody has been given anything. -/
theorem Quiet.joins (h : Quiet s s')
    (hqueue : s'.pool.queue (t + 1) = s.pool.queue (t + 1) ++ l)
    (hjob : s.pool.NoNewJob t s'.pool) : Joins t s s' l := by
  obtain ⟨es, hlog, hes⟩ := h
  have hnone : es.filterMap (LogEntry.taggedJob t) = [] :=
    List.filterMap_eq_nil_iff.2 fun e he => LogEntry.taggedJob_of_load (hes e he) t
  have hsame : s'.dispatchedTo t = s.dispatchedTo t := by
    rw [dispatchedTo, hlog, List.filterMap_append, hnone, List.append_nil, dispatchedTo]
  refine ⟨?_, fun bj hbj => ?_, fun hlast tw' ht' hbusy' => ?_, fun e he => ?_⟩
  · rw [hsame, hqueue, List.append_assoc]
  · rw [hqueue]
    exact List.mem_append_right _ hbj
  · obtain ⟨tw, ht, hbusy, hbj⟩ := hjob tw' ht' hbusy'
    rw [hbj, hsame]
    exact hlast tw ht hbusy
  · rw [hlog]
    exact List.mem_append_left _ he

theorem SameBooks.noNewJob (h : SameBooks s s') : s.pool.NoNewJob t s'.pool := by
  obtain ⟨tagged, _, _, hp, ht⟩ := h.pool
  rw [hp]
  intro tw' htw' hbusy'
  have hget := congrArg (fun l => l[t]?) ht
  simp only [List.getElem?_map] at hget
  rw [show tagged[t]? = some tw' from htw', Option.map_some] at hget
  obtain ⟨tw, htw, heq⟩ := Option.map_eq_some_iff.1 hget.symm
  obtain ⟨hrun, hbusy⟩ := Prod.mk.inj heq
  exact ⟨tw, htw, hbusy.trans hbusy', by rw [hrun]⟩

/-! ## A batch comes in, or goes on -/

theorem queue_submit (s : Sys κ) (spec : BatchSpec) (ht : t < s.pool.taggedWorkers.length) :
    (s.submit spec).pool.queue (t + 1) =
      s.pool.queue (t + 1) ++ jobsFor s.nextPtr (t + 1) 0 (spec.jobs.map Prod.snd) := by
  rw [submit_eq]
  exact Pool.queue_pushJobs s.nextPtr _ 0 s.pool ht

theorem queue_jobReturned (s : Sys κ) (bj : BatchJob) (replyJob : Bool)
    (ht : t < s.pool.taggedWorkers.length) :
    (s.jobReturned bj replyJob).pool.queue (t + 1) =
      s.pool.queue (t + 1) ++ s.completionFor (t + 1) bj := by
  unfold jobReturned completionFor
  split
  · exact (List.append_nil _).symm
  rcases s.heap bj.ptr with _ | b
  · exact (List.append_nil _).symm
  dsimp only [Option.map_some]
  rcases b.jobFinished with ⟨b', state⟩
  cases state with
  | running => exact (List.append_nil _).symm
  | done => exact (List.append_nil _).symm
  | complete place =>
    dsimp only
    split
    · rw [if_neg (by omega)]
      exact (List.append_nil _).symm
    · exact s.pool.queue_pushJob ht place replyJob ⟨bj.ptr, -1⟩

/-! ## The pass over the queues -/

/-- The next job of the thread leaves the queue for the worker. -/
theorem joins_startTagged (s : Sys κ) (u : ℕ) : Joins t s (s.startTagged u) [] := by
  rcases s.startTagged_cases u with ⟨heq, _⟩ | ⟨tw, bj, rest, hu, hbusy, hq⟩
  · rw [heq]
    exact .refl s
  obtain ⟨run, hrun, hpool, hlog⟩ := s.startTagged_pool hu hbusy hq
  have hlt : u < s.pool.taggedWorkers.length := (List.getElem?_eq_some_iff.1 hu).1
  have hdispatched : (s.startTagged u).dispatchedTo t =
      s.dispatchedTo t ++ (if u = t then some bj else none).toList := by
    rw [dispatchedTo, hlog, List.filterMap_append, dispatchedTo]
    congr 1
  refine ⟨?_, nofun, fun hlast tw' ht' hbusy' => ?_, fun e he => ?_⟩
  · rw [hdispatched, hpool, Pool.queue_tagged, Pool.queue_tagged]
    rcases eq_or_ne u t with rfl | hne
    · rw [List.getElem?_set_self hlt, hu, if_pos rfl]
      simp [hq]
    · rw [List.getElem?_set_ne hne, if_neg hne]
      simp
  · rw [hdispatched]
    rw [hpool] at ht'
    rcases eq_or_ne u t with rfl | hne
    · rw [List.getElem?_set_self hlt] at ht'
      cases ht'
      exact ⟨bj, hrun, by simp⟩
    · rw [List.getElem?_set_ne hne] at ht'
      rw [if_neg hne]
      simpa using hlast tw' ht' hbusy'
  · rw [hlog]
    exact List.mem_append_left _ he

variable [DecidableEq κ]

/-- An untagged worker is given something. -/
theorem joins_dispatch (s : Sys κ) (k : Kind κ) (l : Load κ) : Joins t s (s.dispatch k l) [] := by
  obtain ⟨i, _, _, _, _, hlog⟩ := s.dispatch_pool k l
  obtain ⟨_, _, htagged, _⟩ := s.dispatch_queues k l
  have hsame : (s.dispatch k l).dispatchedTo t = s.dispatchedTo t := by
    rw [dispatchedTo, hlog, List.filterMap_append, dispatchedTo]
    exact List.append_nil _
  refine ⟨by rw [hsame, queue_dispatch, List.append_nil], nofun, fun hlast => ?_, fun e he => ?_⟩
  · unfold LastGiven
    rw [hsame, htagged]
    exact hlast
  · rw [hlog]
    exact List.mem_append_left _ he

theorem joins_proxyProcessQueue (cfg : PoolConfig κ) (s : Sys κ) :
    Joins t s (s.proxyProcessQueue cfg) [] := by
  refine proxyProcessQueue_induction (P := fun s₁ => Joins t s s₁ [])
    (fun s₁ u h => h.trans (s₁.joins_startTagged u)) (fun s₁ reply bj rest h _ _ => ?_)
    (fun s₁ pre p post h _ _ => ?_) (.refl s)
  · refine (h.trans ?_).trans (joins_dispatch _ _ _)
    refine Quiet.joins (.of_eq rfl) ?_ (.of_eq ?_)
    · cases reply <;> exact (List.append_nil _).symm
    · cases reply <;> rfl
  · refine (h.trans (s₁.joins_dispatch (.category p.cat) (.pending p))).trans ?_
    exact Quiet.joins (.of_eq rfl) (List.append_nil _).symm (.of_eq rfl)

theorem joins_queueCommand (cfg : PoolConfig κ) (s : Sys κ) (p : PendingCommand κ) :
    Joins t s (s.queueCommand cfg p) [] := by
  unfold queueCommand
  split
  · exact .refl s
  · exact Quiet.joins (.of_eq rfl) (List.append_nil _).symm (.of_eq rfl)

/-! ## What a worker says -/

theorem queue_workerRan (s : Sys κ) (w : Worker) (run : RunInfo κ)
    (ht : t < s.pool.taggedWorkers.length) :
    (s.workerRan w run).pool.queue (t + 1) =
      s.pool.queue (t + 1) ++ (run.batchJob.map (s.completionFor (t + 1))).getD [] := by
  let s₀ := { s with outstanding := Function.update s.outstanding w (s.outstanding w - 1) }
  have hrelease := sameBatches_release s₀ w run
  rw [workerRan, (sameBatches_retire _ w).queue]
  cases run.batchJob with
  | none =>
    rw [Option.map_none, Option.getD_none, List.append_nil]
    exact congrFun hrelease.queue _
  | some bj =>
    have hlt : t < (s₀.release w run).pool.taggedWorkers.length := hrelease.tagged_length.symm ▸ ht
    refine (queue_jobReturned { s₀.release w run with
      log := (s₀.release w run).log ++ [.finished bj] } bj run.isReplyJob hlt).trans ?_
    rw [completionFor]
    dsimp only
    rw [hrelease.queue, hrelease.heap]
    rfl

theorem noNewJob_release (s : Sys κ) (w : Worker) (run : RunInfo κ) :
    s.pool.NoNewJob t (s.release w run).pool := by
  unfold release
  split
  · cases w with
    | tagged u =>
      exact s.pool.noNewJob_modify u (g := fun tw => { tw with busy := false })
        (fun _ hbusy => absurd hbusy Bool.false_ne_true) fun _ => rfl
    | untagged i => exact .of_eq (Pool.taggedWorkers_addActive ..)
  · split
    · exact .of_eq (Pool.taggedWorkers_addActive ..)
    · exact .of_eq rfl

theorem noNewJob_workerRan (s : Sys κ) (w : Worker) (run : RunInfo κ) :
    s.pool.NoNewJob t (s.workerRan w run).pool := by
  refine .trans ?_ (s.sameBooks_workerRan w run).noNewJob
  have hretire : ∀ s : Sys κ, (s.retire w).pool.taggedWorkers = s.pool.taggedWorkers := by
    intro s
    unfold retire
    split
    · rfl
    · cases w <;> rfl
  refine .trans ?_ (.of_eq (hretire _))
  exact noNewJob_release { s with outstanding := _ } w run

/-! ## Every step -/

theorem joins_step {cfg : PoolConfig κ} {e : PoolEvent κ} (h : Sys.step cfg s e = some s')
    (ht : t < s.pool.taggedWorkers.length) : Joins t s s' (enqueues t s e) := by
  have hnil := (List.append_nil (s.pool.queue (t + 1))).symm
  have hquiet := quiet_of_step h
  have hthread : ((∃ w, e = .receive w) ∨ ∃ w left r, e = .finish w left r) →
      Quiet s s' → Joins t s s' [] := by
    intro he hquiet
    obtain ⟨g, w, hpool, hg⟩ := pool_of_thread he h
    refine hquiet.joins ?_ ?_
    · rw [hpool, Pool.queue_modifyRun, List.append_nil]
    · rw [hpool]
      refine s.pool.noNewJob_modifyRun (fun r => ?_) w
      rcases hg r with hr | hr <;> rw [hr]
      rfl
  cases e with
  | command a =>
    obtain rfl := step_command h
    unfold proxyToWorker
    split
    · exact joins_queueCommand cfg s _
    split
    · exact .refl s
    · exact joins_dispatch s _ _
  | inject task =>
    obtain rfl := step_inject h
    unfold proxyInjectTask
    split
    · exact joins_queueCommand cfg s _
    · exact joins_dispatch s _ _
  | submit spec =>
    obtain ⟨_, rfl⟩ := step_submit_cases h
    exact (hquiet fun _ _ => rfl).joins (queue_submit s spec ht) (s.sameBooks_submit spec).noNewJob
  | replyJob f =>
    obtain rfl := step_replyJob h
    exact (hquiet fun _ _ => rfl).joins hnil (s.sameBooks_proxyScheduleReplyJob f).noNewJob
  | processQueue =>
    obtain rfl := step_processQueue h
    exact joins_proxyProcessQueue cfg s
  | workerMessage w =>
    obtain ⟨run, rest, hrun, ⟨houtbox, rfl⟩ | ⟨houtbox, rfl⟩⟩ :=
      proxyWorkerMessage_cases (step_workerMessage h)
    · refine (hquiet fun _ _ => rfl).joins ?_ (noNewJob_workerRan (s.takeReply w rest) w run)
      rw [enqueues, hrun, houtbox]
      exact queue_workerRan (s.takeReply w rest) w run ht
    · refine (hquiet fun _ _ => rfl).joins ?_
        (s.pool.noNewJob_modifyRun (g := fun r => { r with joinable := false }) (fun _ => rfl) w)
      rw [enqueues, hrun, houtbox, Pool.queue_modifyRun]
      exact hnil
  | quit =>
    obtain ⟨_, rfl⟩ := step_quit_cases h
    have htagged : s.proxyControlQuit.pool.taggedWorkers = s.pool.taggedWorkers := by
      unfold proxyControlQuit
      dsimp only
      rw [pool_foldl_quit, pool_foldl_quit]
    refine (hquiet fun _ _ => rfl).joins ?_ (.of_eq htagged)
    rw [(sameBatches_proxyControlQuit s).queue]
    exact hnil
  | stop =>
    obtain ⟨_, _, rfl⟩ := step_stop_cases h
    exact (hquiet fun _ _ => rfl).joins hnil (.of_eq rfl)
  | receive w => exact hthread (Or.inl ⟨w, rfl⟩) (hquiet fun _ _ => rfl)
  | finish w left r => exact hthread (Or.inr ⟨w, left, r, rfl⟩) (hquiet fun _ _ => rfl)

/-! ## The counters -/

section Counters

omit [DecidableEq κ]

theorem SameBooks.sameCounters (h : SameBooks s s') : s.pool.SameCounters s'.pool := by
  obtain ⟨_, _, _, hp, _⟩ := h.pool
  rw [hp]
  exact ⟨rfl, funext fun k => by cases k <;> rfl, rfl⟩

theorem sameCounters_modifyRun (p : Pool κ) (g : RunInfo κ → RunInfo κ) (w : Worker) :
    p.SameCounters (p.modifyRun g w) := by
  refine ⟨?_, funext fun k => ?_, ?_⟩
  · rw [Pool.activeWorkers, Pool.workers_length_modifyRun]
    cases w <;> rfl
  · cases w <;> cases k <;> rfl
  · cases w <;> rfl

theorem sameCounters_startTagged (s : Sys κ) (t : ℕ) :
    s.pool.SameCounters (s.startTagged t).pool := by
  rcases s.startTagged_cases t with ⟨heq, _⟩ | ⟨tw, bj, rest, ht, hbusy, hq⟩
  · rw [heq]
    exact (SameBooks.refl s).sameCounters
  · obtain ⟨run, _, hpool, _⟩ := s.startTagged_pool ht hbusy hq
    rw [hpool]
    exact ⟨rfl, funext fun k => by cases k <;> rfl, rfl⟩

end Counters

/-- The `RAN` of a tagged worker only resets its flag. -/
theorem sameCounters_workerRan (s : Sys κ) {run : RunInfo κ} (hbatch : run.isBatchJob = true) :
    s.pool.SameCounters (s.workerRan (.tagged t) run).pool := by
  obtain ⟨hworkers, hactive, hqueued⟩ := (s.sameBooks_workerRan (.tagged t) run).sameCounters
  rw [release_tagged _ hbatch] at hworkers hactive hqueued
  unfold retire at hworkers hactive hqueued
  refine ⟨hworkers.trans ?_, hactive.trans (funext fun k => ?_), hqueued.trans ?_⟩
  · split <;> rfl
  · split <;> cases k <;> rfl
  · split <;> rfl

/-- What the jobs of a tagged thread bring about, except for being started: a batch comes in, and
the worker takes a job, returns from it, or says that it has. -/
def OfTagged (t : ℕ) (e : PoolEvent κ) : Prop :=
  (∃ spec, e = .submit spec) ∨ e = .receive (.tagged t) ∨
    (∃ left r, e = .finish (.tagged t) left r) ∨ e = .workerMessage (.tagged t)

theorem sameCounters_of_tagged [Fintype κ] {cfg : PoolConfig κ} {f : Worker → Phase}
    {e : PoolEvent κ} (hinv : s.Inv cfg f) (h : Sys.step cfg s e = some s') (he : OfTagged t e) :
    s.pool.SameCounters s'.pool := by
  have hthread : ((∃ w, e = .receive w) ∨ ∃ w left r, e = .finish w left r) →
      s.pool.SameCounters s'.pool := by
    intro he
    obtain ⟨g, w, hpool, _⟩ := pool_of_thread he h
    rw [hpool]
    exact sameCounters_modifyRun s.pool g w
  rcases he with ⟨spec, rfl⟩ | rfl | ⟨left, r, rfl⟩ | rfl
  · obtain ⟨_, rfl⟩ := step_submit_cases h
    exact (s.sameBooks_submit spec).sameCounters
  · exact hthread (Or.inl ⟨_, rfl⟩)
  · exact hthread (Or.inr ⟨_, left, r, rfl⟩)
  · obtain ⟨run, rest, hrun, ⟨houtbox, rfl⟩ | ⟨houtbox, rfl⟩⟩ :=
      proxyWorkerMessage_cases (step_workerMessage h)
    · refine sameCounters_workerRan (s.takeReply (.tagged t) rest) ?_
      obtain ⟨tw, htw, rfl⟩ := Option.map_eq_some_iff.1 hrun
      obtain ⟨hphase, _⟩ := (hinv.fits (.tagged t)).eq_of_outbox_ran houtbox
      refine hinv.tagged.batch t tw htw ?_
      rw [hinv.tagged.busy t tw htw, hphase]
      rfl
    · exact sameCounters_modifyRun s.pool (fun r => { r with joinable := false }) (.tagged t)

/-! ## Where jobs run -/

/-- A batch says that this job, or its completion function, has to run in this place. -/
def Directed (s : Sys κ) (bj : BatchJob) (place : ℤ) : Prop :=
  ∃ spec q, .submitted bj.ptr spec ∈ s.log ∧ bj.jobno = jobNumber q ∧
    spec.places.place q = some place

section Directed

open ForkJoin

variable {cfg : PoolConfig κ} {f : Worker → Phase} {bj : BatchJob} {place : ℤ}

omit [DecidableEq κ]

theorem exists_spec {ptr : ℕ} {life : Life Worker JobResult ℤ}
    (h : (s.batchView f ptr).Fits cfg.taggedThreads (some life)) :
    ∃ spec, .submitted ptr spec ∈ s.log ∧ spec.places = life.spec := by
  obtain ⟨e, he, hev⟩ := LogEntry.exists_of_mem (Reflects.of_accepts h.accepts).submitted
  generalize hsubmit : Event.submit life.spec = ev at hev
  cases hev with
  | submitted spec => exact ⟨spec, he, (Event.submit.inj hsubmit).symm⟩
  | _ => cases hsubmit

/-- What is in a queue waits in its place. -/
theorem directed_of_queue (h : s.BatchesFit cfg f) (hbj : bj ∈ s.pool.queue place) :
    s.Directed bj place := by
  obtain ⟨o, hfits⟩ := h bj.ptr
  have hwaits : spotAt (BatchView.spots o) bj.jobno = .waiting place := by
    by_contra hne
    have hcount := hfits.queued place bj.jobno
    rw [if_neg hne] at hcount
    exact List.count_eq_zero.1 hcount hbj
  obtain ⟨life, q, rfl, hq, hspot⟩ := hfits.exists_life hwaits nofun
  obtain ⟨spec, hspec, heq⟩ := exists_spec hfits
  exact ⟨spec, q, hspec, hq, heq ▸ Life.place_of_spot_waiting hspot⟩

/-- What a worker has is in its place there. -/
theorem directed_of_inHand {w : Worker} {late : Bool} (h : s.BatchesFit cfg f)
    (hw : s.inHand f w = some (bj, late)) : s.Directed bj w.place := by
  obtain ⟨o, hfits⟩ := h bj.ptr
  obtain ⟨life, q, rfl, hq, hspot⟩ :=
    hfits.exists_life ((hfits.held w bj.jobno late).1 (held_self hw)) nofun
  obtain ⟨spec, hspec, heq⟩ := exists_spec hfits
  obtain ⟨p, hp, hplace⟩ :=
    hfits.accepts.place_of_giveTo (hfits.accepts.giveTo_mem (Life.holder_of_spot hspot))
  exact ⟨spec, q, hspec, hq, by rw [heq, hp, hplace]⟩

/-- No job has two places. -/
theorem Directed.unique {place' : ℤ} (h : s.BatchesFit cfg f) (hplace : s.Directed bj place)
    (hplace' : s.Directed bj place') : place = place' := by
  obtain ⟨spec, q, hspec, hq, hp⟩ := hplace
  obtain ⟨spec', q', hspec', hq', hp'⟩ := hplace'
  obtain ⟨life, hfits, hlife⟩ := exists_life_of_submitted h hspec
  obtain ⟨_, hfits', hlife'⟩ := exists_life_of_submitted h hspec'
  have hsame := (Reflects.of_accepts hfits'.accepts).spec _
    (Reflects.of_accepts hfits.accepts).submitted
  rw [← jobNumber_injective (hq.symm.trans hq'), ← hlife', ← hsame, hlife, hp] at hp'
  exact Option.some.inj hp'

end Directed

/-! ## Runs -/

variable [Fintype κ] {cfg : PoolConfig κ} {es : List (PoolEvent κ)}

/-- What has been queued for the thread is in line, and has been directed to it. -/
structure InLine (cfg : PoolConfig κ) (t : ℕ) (es : List (PoolEvent κ)) (s : Sys κ) : Prop where
  line : enqueued cfg t es = s.dispatchedTo t ++ s.pool.queue (t + 1)
  directed : ∀ bj ∈ enqueued cfg t es, s.Directed bj (t + 1)
  last : s.LastGiven t

theorem run_inLine (ht : t < cfg.taggedThreads)
    (hrun : Transition.run (Sys.step cfg) (init cfg) es = some s) : InLine cfg t es s := by
  refine Transition.run_induction_history (P := InLine cfg t) ?_ ?_ hrun
  · refine ⟨?_, nofun, fun tw htw hbusy => ?_⟩
    · rw [queue_init]
      rfl
    · rw [(List.mem_replicate.1 (List.mem_of_getElem? htw)).2] at hbusy
      cases hbusy
  · intro es s e s' hrun ih hs
    obtain ⟨f, hinv⟩ := inv_of_run hrun
    obtain ⟨f', _, hfit'⟩ := batchesFit_of_run (Transition.run_snoc hrun hs)
    have hjoins : Joins t s s' (enqueues t s e) := joins_step hs (hinv.tagged_length.symm ▸ ht)
    have henqueued : enqueued cfg t (es ++ [e]) = enqueued cfg t es ++ enqueues t s e := by
      rw [enqueued, Transition.steps_snoc hrun hs, List.flatMap_append, List.flatMap_singleton,
        enqueued]
    refine ⟨?_, fun bj hbj => ?_, hjoins.last ih.last⟩
    · rw [henqueued, ih.line, hjoins.line]
    · rw [henqueued, List.mem_append] at hbj
      rcases hbj with hbj | hbj
      · obtain ⟨spec, q, hspec, hq⟩ := ih.directed bj hbj
        exact ⟨spec, q, hjoins.log _ hspec, hq⟩
      · exact directed_of_queue hfit' (hjoins.queued bj hbj)

/-- After the events `es`, before `QUIT`: the tagged thread `t` gets the jobs that are directed to
it, and these only, in order and one at a time, and they do not count for the other workers. -/
structure InOrder (cfg : PoolConfig κ) (t : ℕ) (es : List (PoolEvent κ)) (s : Sys κ) : Prop where
  /-- The worker is given the jobs in the order in which they have been queued for it. -/
  order : enqueued cfg t es = s.dispatchedTo t ++ s.pool.queue (t + 1)
  /-- They are the jobs and completion functions that batches have directed to the thread. -/
  directed : ∀ bj ∈ enqueued cfg t es, s.Directed bj (t + 1)
  /-- The worker has one of them at a time, and it is the last one that it has been given. -/
  one : s.outstanding (.tagged t) = 0 ∨ s.outstanding (.tagged t) = 1
  last : ∀ run, s.outstanding (.tagged t) ≠ 0 → s.pool.runInfo (.tagged t) = some run →
    ∃ bj, run.batchJob = some bj ∧ (s.dispatchedTo t).getLast? = some bj
  /-- No other worker ever has one. -/
  elsewhere : ∀ w run bj, s.outstanding w ≠ 0 → s.pool.runInfo w = some run →
    run.batchJob = some bj → bj ∈ enqueued cfg t es → w = .tagged t
  /-- The counters are about the jobs of untagged workers. -/
  active : ∀ k, s.pool.active k = s.jobsOf k
  activeWorkers : s.pool.activeWorkers = ∑ k, (s.jobsOf k : ℤ)
  /-- None of them changes when a job is queued for the thread, is started there, runs and returns.
  -/
  pushed : ∀ reply bj, s.pool.SameCounters (s.pool.pushJob (t + 1) reply bj)
  started : s.pool.SameCounters (s.startTagged t).pool
  uncounted : ∀ e s', Sys.step cfg s e = some s' → OfTagged t e → s.pool.SameCounters s'.pool

/-- **A tagged thread runs its jobs in order, one at a time, and nobody else does.** -/
theorem tagged_in_order (hrun : Transition.run (Sys.step cfg) (init cfg) es = some s)
    (hquit : .quit ∉ es) (ht : t < cfg.taggedThreads) : s.InOrder cfg t es := by
  obtain ⟨f, hinv, hfit⟩ := batchesFit_of_run hrun
  have hopen : s.pool.maxWorkers ≠ 0 := fun hmax => hquit ((maxWorkers_eq_zero_iff hrun).1 hmax)
  have hbooks := hinv.books hopen
  obtain ⟨hline, hdirected, hlast⟩ := run_inLine ht hrun
  refine ⟨hline, hdirected, hbooks.outstanding _, fun run hout hr => ?_,
    fun w run bj hout hr hbj hmem => ?_, hbooks.active, ?_,
    fun reply bj => (s.sameBooks_pushJob (t + 1) reply bj).sameCounters,
    s.sameCounters_startTagged t, fun e s' hs he => sameCounters_of_tagged hinv hs he⟩
  · obtain ⟨tw, htw, rfl⟩ := Option.map_eq_some_iff.1 hr
    exact hlast tw htw ((hbooks.busy t tw htw).2 hout)
  · have hhand : s.inHand f w = some (bj, (f w).late bj.jobno) := by
      rw [inHand, if_pos ((hinv.outstanding_ne_zero_iff w).1 hout), hr, Option.bind_some, hbj]
      rfl
    have hplace : w.place = t + 1 := (directed_of_inHand hfit hhand).unique hfit (hdirected bj hmem)
    cases w with
    | untagged i =>
      rw [Worker.place] at hplace
      omega
    | tagged u =>
      rw [Worker.place] at hplace
      obtain rfl : u = t := by omega
      rfl
  · rw [← hinv.sum_active hopen]
    exact Finset.sum_congr rfl fun k _ => hbooks.active k

/-- A batch with a job for the tagged thread and one that can run anywhere, and the completion
function back on the tagged thread.  Its job is started at once, and the function when both have
returned. -/
def taggedRun : List (PoolEvent Unit) :=
  [.submit someBatch, .processQueue, .receive (.tagged 0), .receive (.tagged 0),
    .receive (.untagged 0), .finish (.tagged 0) {} (.value 20),
      .finish (.untagged 0) {} (.value 10),
    .workerMessage (.tagged 0), .workerMessage (.untagged 0), .processQueue]

theorem tagged_in_order_taggedRun :
    ∃ s, Transition.run (Sys.step smallConfig) (init smallConfig) taggedRun = some s ∧
      enqueued smallConfig 0 taggedRun = [⟨0, 1⟩, ⟨0, -1⟩] ∧
      s.outstanding (.tagged 0) = 1 ∧ s.InOrder smallConfig 0 taggedRun := by
  have hrun : Transition.run (Sys.step smallConfig) (init smallConfig) taggedRun = some _ := rfl
  exact ⟨_, hrun, rfl, rfl, tagged_in_order hrun (by simp [taggedRun]) (by decide)⟩

end Sys

end OxenMQ
