import OxenMQ.Workers.System

/-!
# What the handlers of the worker pool do

The effect of each handler, said once, for the proofs that follow.  A dispatch either makes a new
worker or takes an idle one (`dispatch_new`, `dispatch_idle`).  Most of what happens to batches
moves jobs between queues and touches nothing else (`SameBooks`).  The pass over the queues is a
series of dispatches, each of which had a free slot (`proxyProcessQueue_induction`).
-/

set_option autoImplicit false

namespace OxenMQ

variable {κ : Type}

/-! ## Small facts about the books -/

/-- What a job counts as while it is active. -/
def Load.kind : Load κ → Kind κ
  | .pending p => .category p.cat
  | .batch _ replyJob _ => Sys.jobKind replyJob

/-- The worker's own record says the same. -/
@[simp] theorem RunInfo.kind_load (r : RunInfo κ) (l : Load κ) : (r.load l).kind = some l.kind := by
  rcases l with ⟨_ | _⟩ | _ <;> rfl

@[simp] theorem RunInfo.joinable_load (r : RunInfo κ) (l : Load κ) :
    (r.load l).joinable = r.joinable := by
  rcases l with ⟨_ | _⟩ | _ <;> rfl

/-- The job of a batch that is loaded. -/
def Load.batchJob : Load κ → Option BatchJob
  | .pending _ => none
  | .batch bj _ _ => some bj

@[simp] theorem RunInfo.batchJob_load (r : RunInfo κ) (l : Load κ) :
    (r.load l).batchJob = l.batchJob := by
  rcases l with ⟨_ | _⟩ | _ <;> rfl

/-- The tagged thread has nothing to start. -/
def TaggedWorker.Settled (tw : TaggedWorker κ) : Prop := tw.busy = true ∨ tw.queue = []

/-- The thread a worker stands for in a batch. -/
def Worker.place : Worker → ℤ
  | .untagged _ => 0
  | .tagged t => t + 1

namespace Pool

/-- The jobs that wait for a thread. -/
def queue (p : Pool κ) (thread : ℤ) : List BatchJob :=
  if 0 < thread then (p.taggedWorkers[(thread - 1).toNat]?.map TaggedWorker.queue).getD []
  else if thread = 0 then p.batchJobs ++ p.replyJobs
  else []

/-- A job is taken out of the queue of the worker that gets it, and the other queues stay as they
are; a command has not been in any of them. -/
def Takes (p p' : Pool κ) (w : Worker) (l : Load κ) : Prop :=
  ∀ thread b, (p.queue thread).count b =
    (p'.queue thread).count b + if l.batchJob = some b ∧ thread = w.place then 1 else 0

theorem queue_tagged (p : Pool κ) (t : ℕ) :
    p.queue (t + 1) = (p.taggedWorkers[t]?.map TaggedWorker.queue).getD [] := by
  rw [queue, if_pos (by omega), Int.add_sub_cancel, Int.toNat_natCast]

theorem queue_zero (p : Pool κ) : p.queue 0 = p.batchJobs ++ p.replyJobs := rfl

theorem queue_neg (p : Pool κ) {thread : ℤ} (h : thread < 0) : p.queue thread = [] := by
  rw [queue, if_neg (by omega), if_neg (by omega)]

/-- A number stands for a tagged thread, for any thread, or for none. -/
theorem thread_cases (thread : ℤ) : (∃ t : ℕ, thread = t + 1) ∨ thread = 0 ∨ thread < 0 := by
  rcases lt_trichotomy thread 0 with hneg | hzero | hpos
  · exact Or.inr (Or.inr hneg)
  · exact Or.inr (Or.inl hzero)
  · exact Or.inl ⟨(thread - 1).toNat, by omega⟩

theorem queue_congr {p p' : Pool κ} (htagged : p'.taggedWorkers = p.taggedWorkers)
    (hbatch : p'.batchJobs = p.batchJobs) (hreply : p'.replyJobs = p.replyJobs) :
    p'.queue = p.queue := by
  funext thread
  rw [queue, queue, htagged, hbatch, hreply]

theorem takes_pending {p p' : Pool κ} (h : p'.queue = p.queue) (w : Worker)
    (c : PendingCommand κ) : Takes p p' w (.pending c) := by
  intro thread b
  rw [h, if_neg (by rintro ⟨hnone, _⟩; cases hnone), Nat.add_zero]

theorem runInfo_modifyRun (p : Pool κ) (f : RunInfo κ → RunInfo κ) (w v : Worker) :
    (p.modifyRun f w).runInfo v = if v = w then (p.runInfo v).map f else p.runInfo v := by
  cases w with
  | untagged i =>
    cases v with
    | untagged j =>
      simp only [modifyRun, runInfo, List.getElem?_modify_ite, Worker.untagged.injEq]
    | tagged t => rfl
  | tagged t =>
    cases v with
    | untagged j => rfl
    | tagged u =>
      simp only [modifyRun, runInfo, List.getElem?_modify_ite, Worker.tagged.injEq]
      split
      · rw [Option.map_map, Option.map_map]
        rfl
      · rfl

theorem workers_length_modifyRun (p : Pool κ) (f : RunInfo κ → RunInfo κ) (w : Worker) :
    (p.modifyRun f w).workers.length = p.workers.length := by
  cases w with
  | untagged i => exact List.length_modify ..
  | tagged t => rfl

theorem modifyRun_id (p : Pool κ) (w : Worker) : p.modifyRun id w = p := by
  cases w with
  | untagged i => simp only [modifyRun, List.modify_id]
  | tagged t =>
    have hid : (fun tw : TaggedWorker κ => { tw with run := id tw.run }) = id := rfl
    simp only [modifyRun, hid, List.modify_id]

/-- Neither the flag nor the `run_info` of a tagged worker has anything to do with its queue. -/
theorem queue_modify_tagged (p : Pool κ) (t : ℕ) {g : TaggedWorker κ → TaggedWorker κ}
    (hg : ∀ tw, (g tw).queue = tw.queue) :
    { p with taggedWorkers := p.taggedWorkers.modify t g }.queue = p.queue := by
  funext thread
  rcases thread_cases thread with ⟨u, rfl⟩ | rfl | hneg
  · rw [queue_tagged, queue_tagged, List.getElem?_modify_ite]
    split
    · rw [Option.map_map]
      exact congrArg (fun h => (Option.map h _).getD []) (funext hg)
    · rfl
  · rfl
  · rw [queue_neg _ hneg, queue_neg _ hneg]

theorem queue_modifyRun (p : Pool κ) (f : RunInfo κ → RunInfo κ) (w : Worker) :
    (p.modifyRun f w).queue = p.queue := by
  cases w with
  | untagged i => rfl
  | tagged t => exact p.queue_modify_tagged t fun _ => rfl

/-- The flag of a tagged worker is not part of its `run_info`. -/
theorem runInfo_modify_tagged (p : Pool κ) (t : ℕ) {g : TaggedWorker κ → TaggedWorker κ}
    (hg : ∀ tw, (g tw).run = tw.run) (w : Worker) :
    { p with taggedWorkers := p.taggedWorkers.modify t g }.runInfo w = p.runInfo w := by
  cases w with
  | untagged i => rfl
  | tagged u =>
    simp only [runInfo, List.getElem?_modify_ite]
    split
    · rw [Option.map_map]
      exact congrArg (fun h => Option.map h _) (funext hg)
    · rfl

end Pool

namespace Sys

/-! ## Moving jobs between queues -/

/-- The states agree on everything but batches: what is on the heap, what is in the queues, and
what has been logged. -/
structure SameBooks (s s' : Sys κ) : Prop where
  pool : ∃ tagged batch reply,
    s'.pool = { s.pool with taggedWorkers := tagged, batchJobs := batch, replyJobs := reply } ∧
    tagged.map (fun tw => (tw.run, tw.busy)) = s.pool.taggedWorkers.map fun tw => (tw.run, tw.busy)
  threads : s'.threads = s.threads
  outstanding : s'.outstanding = s.outstanding
  overwritten : s'.overwritten = s.overwritten
  sent : s'.sent = s.sent

namespace SameBooks

variable {s s' s'' : Sys κ}

theorem refl (s : Sys κ) : SameBooks s s := ⟨⟨_, _, _, rfl, rfl⟩, rfl, rfl, rfl, rfl⟩

theorem trans (h : SameBooks s s') (h' : SameBooks s' s'') : SameBooks s s'' := by
  obtain ⟨_, _, _, hp, ht⟩ := h.pool
  obtain ⟨tagged, batch, reply, hp', ht'⟩ := h'.pool
  refine ⟨⟨tagged, batch, reply, ?_, ht'.trans ?_⟩, h'.threads.trans h.threads,
    h'.outstanding.trans h.outstanding, h'.overwritten.trans h.overwritten, h'.sent.trans h.sent⟩
  · rw [hp', hp]
  · rw [hp]
    exact ht

theorem runInfo (h : SameBooks s s') (w : Worker) : s'.pool.runInfo w = s.pool.runInfo w := by
  obtain ⟨tagged, _, _, hp, ht⟩ := h.pool
  rw [hp]
  cases w with
  | untagged i => rfl
  | tagged t =>
    have hget := congrArg (fun l => l[t]?.map Prod.fst) ht
    simp only [List.getElem?_map, Option.map_map] at hget
    exact hget

theorem maxWorkers (h : SameBooks s s') : s'.pool.maxWorkers = s.pool.maxWorkers := by
  obtain ⟨_, _, _, hp, _⟩ := h.pool
  rw [hp]

theorem pending (h : SameBooks s s') : s'.pool.pendingCommands = s.pool.pendingCommands := by
  obtain ⟨_, _, _, hp, _⟩ := h.pool
  rw [hp]

theorem tagged_length (h : SameBooks s s') :
    s'.pool.taggedWorkers.length = s.pool.taggedWorkers.length := by
  obtain ⟨tagged, _, _, hp, ht⟩ := h.pool
  rw [hp]
  have hlen := congrArg List.length ht
  rwa [List.length_map, List.length_map] at hlen

theorem retire (h : SameBooks s s') (w : Worker) : SameBooks (s.retire w) (s'.retire w) := by
  obtain ⟨tagged, batch, reply, hp, ht⟩ := h.pool
  unfold Sys.retire
  rw [hp]
  dsimp only
  split
  · refine ⟨⟨tagged, batch, reply, hp, ht⟩, ?_, h.outstanding, h.overwritten, ?_⟩
    · simp only [routeControl, h.threads]
    · simp only [routeControl, h.sent]
  · cases w with
    | untagged i =>
      exact ⟨⟨tagged, batch, reply, rfl, ht⟩, h.threads, h.outstanding, h.overwritten, h.sent⟩
    | tagged t => exact h

end SameBooks

end Sys

theorem Pool.pushJob_eq (p : Pool κ) (thread : ℤ) (reply : Bool) (bj : BatchJob) :
    ∃ tagged batch replies,
      p.pushJob thread reply bj =
        { p with taggedWorkers := tagged, batchJobs := batch, replyJobs := replies } ∧
      tagged.map (fun tw => (tw.run, tw.busy)) =
        p.taggedWorkers.map fun tw => (tw.run, tw.busy) := by
  unfold pushJob
  split
  · refine ⟨_, _, _, rfl, ?_⟩
    refine List.ext_getElem? fun t => ?_
    rw [List.getElem?_map, List.getElem?_map, List.getElem?_modify_ite]
    split
    · rw [Option.map_map]
      rfl
    · rfl
  · split
    · exact ⟨_, _, _, rfl, rfl⟩
    · exact ⟨_, _, _, rfl, rfl⟩

namespace Pool

theorem tagged_length_pushJob (p : Pool κ) (thread : ℤ) (reply : Bool) (bj : BatchJob) :
    (p.pushJob thread reply bj).taggedWorkers.length = p.taggedWorkers.length := by
  unfold pushJob
  split
  · exact List.length_modify ..
  · split <;> rfl

/-- A job that is queued is in the queue of its thread once more, and no other queue changes. -/
theorem count_pushJob (p : Pool κ) {thread : ℤ} (reply : Bool) (bj : BatchJob) (hpos : 0 ≤ thread)
    (hle : thread ≤ p.taggedWorkers.length) (u : ℤ) (b : BatchJob) :
    ((p.pushJob thread reply bj).queue u).count b =
      (p.queue u).count b + if b = bj ∧ u = thread then 1 else 0 := by
  rcases thread_cases thread with ⟨t, rfl⟩ | rfl | hneg
  · have ht : t < p.taggedWorkers.length := by omega
    rw [pushJob, if_pos (by omega), Int.add_sub_cancel, Int.toNat_natCast]
    rcases thread_cases u with ⟨v, rfl⟩ | rfl | hu
    · rw [queue_tagged, queue_tagged, List.getElem?_modify_ite]
      rcases eq_or_ne v t with rfl | hne
      · rw [if_pos rfl, List.getElem?_eq_getElem ht]
        simp only [Option.map_some, Option.getD_some, List.count_concat_ite, and_true]
      · rw [if_neg hne, if_neg (by omega), Nat.add_zero]
    · rw [if_neg (by omega)]
      rfl
    · rw [queue_neg _ hu, queue_neg _ hu, if_neg (by omega), Nat.add_zero]
  · rw [pushJob, if_neg (lt_irrefl 0)]
    rcases thread_cases u with ⟨v, rfl⟩ | rfl | hu
    · rw [queue_tagged, queue_tagged, if_neg (c := _ ∧ _) (by omega), Nat.add_zero]
      split <;> rfl
    · rw [queue_zero, queue_zero]
      split
      · simp only [← List.append_assoc, List.count_concat_ite, and_true]
      · rw [List.count_append, List.count_concat_ite, List.count_append]
        simp only [and_true]
        omega
    · rw [queue_neg _ hu, queue_neg _ hu, if_neg (by omega), Nat.add_zero]
  · omega

/-- All jobs of a batch are queued, each for its thread. -/
theorem count_pushJobs (ptr : ℕ) (threads : List ℤ) (i : ℕ) (p : Pool κ)
    (hthreads : ∀ t ∈ threads, 0 ≤ t ∧ t ≤ p.taggedWorkers.length) (u : ℤ) (b : BatchJob) :
    ((Sys.pushJobs ptr i threads p).queue u).count b =
      (p.queue u).count b +
        if b.ptr = ptr ∧ i ≤ b.jobno ∧ threads[(b.jobno - i).toNat]? = some u then 1 else 0 := by
  induction threads generalizing i p with
  | nil => simp [Sys.pushJobs]
  | cons thread rest ih =>
    obtain ⟨hpos, hle⟩ := hthreads thread List.mem_cons_self
    rw [Sys.pushJobs, ih (i + 1) _ fun t ht => by
        rw [tagged_length_pushJob]
        exact hthreads t (List.mem_cons_of_mem _ ht),
      count_pushJob p false ⟨ptr, i⟩ hpos hle, Nat.add_assoc]
    congr 1
    obtain ⟨ptr', n⟩ := b
    dsimp only
    rcases lt_trichotomy n i with hlt | rfl | hgt
    · rw [if_neg (by simp only [BatchJob.mk.injEq]; omega), if_neg (by omega), if_neg (by omega)]
    · rw [if_neg (c := _ ∧ _ ∧ _) (by omega)]
      simp [eq_comm]
    · have hindex : (n - i).toNat = (n - (i + 1 : ℕ)).toNat + 1 := by omega
      rw [if_neg (by simp only [BatchJob.mk.injEq]; omega), hindex, List.getElem?_cons_succ,
        Nat.zero_add]
      congr 1
      simp only [eq_iff_iff, and_congr_right_iff]
      intro _
      exact and_congr_left' (by omega)

end Pool

namespace Sys

/-- Each job goes into the queue of its thread, whether or not any of them has one. -/
theorem batchTargets_ofSpec (spec : BatchSpec) :
    batchTargets (.ofSpec spec) = spec.jobs.map Prod.snd := by
  refine List.map_congr_left fun j hj => ?_
  split
  · rfl
  · rename_i hany
    rw [Batch.taggedThreadJobs, List.any_eq_true] at hany
    by_contra hne
    exact hany ⟨j, hj, by simpa using fun h => hne h.symm⟩

theorem sameBooks_pushJob (s : Sys κ) (thread : ℤ) (reply : Bool) (bj : BatchJob) :
    SameBooks s { s with pool := s.pool.pushJob thread reply bj } :=
  ⟨s.pool.pushJob_eq thread reply bj, rfl, rfl, rfl, rfl⟩

theorem sameBooks_pushJobs (ptr i : ℕ) (threads : List ℤ) (s : Sys κ) :
    SameBooks s { s with pool := pushJobs ptr i threads s.pool } := by
  induction threads generalizing i s with
  | nil => exact .refl s
  | cons thread rest ih => exact (s.sameBooks_pushJob thread false ⟨ptr, i⟩).trans (ih (i + 1) _)

theorem sameBooks_alloc (s : Sys κ) (spec : BatchSpec) : SameBooks s (s.alloc spec) :=
  ⟨⟨_, _, _, rfl, rfl⟩, rfl, rfl, rfl, rfl⟩

theorem sameBooks_submit (s : Sys κ) (spec : BatchSpec) : SameBooks s (s.submit spec) := by
  refine (s.sameBooks_alloc spec).trans ?_
  unfold submit proxyBatch
  split
  · exact sameBooks_pushJobs _ _ _ _
  · exact .refl _

theorem sameBooks_proxyScheduleReplyJob (s : Sys κ) (f : Callback) :
    SameBooks s (s.proxyScheduleReplyJob f) :=
  (s.sameBooks_alloc _).trans (sameBooks_pushJob _ _ _ _)

theorem sameBooks_setJobQueue (s : Sys κ) (reply : Bool) (jobs : List BatchJob) :
    SameBooks s (s.setJobQueue reply jobs) := by
  cases reply with
  | false => exact ⟨⟨_, _, _, rfl, rfl⟩, rfl, rfl, rfl, rfl⟩
  | true => exact ⟨⟨_, _, _, rfl, rfl⟩, rfl, rfl, rfl, rfl⟩

theorem sameBooks_jobReturned (s : Sys κ) (bj : BatchJob) (replyJob : Bool) :
    SameBooks s (s.jobReturned bj replyJob) := by
  unfold jobReturned
  split
  · exact ⟨⟨_, _, _, rfl, rfl⟩, rfl, rfl, rfl, rfl⟩
  split
  · exact .refl s
  dsimp only
  split
  · exact ⟨⟨_, _, _, rfl, rfl⟩, rfl, rfl, rfl, rfl⟩
  · exact ⟨⟨_, _, _, rfl, rfl⟩, rfl, rfl, rfl, rfl⟩
  · split
    · exact ⟨⟨_, _, _, rfl, rfl⟩, rfl, rfl, rfl, rfl⟩
    · exact ⟨s.pool.pushJob_eq _ _ _, rfl, rfl, rfl, rfl⟩

/-! ## The worker threads -/

/-- A worker that begins with its job takes the remote address out of its record, if at all
anything. -/
theorem beginJob_eq (s : Sys κ) (w : Worker) (run : RunInfo κ) :
    ∃ (g : RunInfo κ → RunInfo κ) (message : Message) (heap : ℕ → Option Batch)
      (log : List (LogEntry κ)),
      s.beginJob w run =
        { s with
          pool := s.pool.modifyRun g w
          threads := Function.update s.threads w
            { s.threads w with status := .running, message := message }
          heap := heap
          log := log } ∧
      ∀ r, g r = r ∨ g r = { r with remote := "" } := by
  have hkeep : ∀ (heap : ℕ → Option Batch) (log : List (LogEntry κ)), ∃ (g : RunInfo κ → RunInfo κ)
      (message : Message) (heap' : ℕ → Option Batch) (log' : List (LogEntry κ)),
      { s with
        threads := Function.update s.threads w { s.threads w with status := .running }
        heap := heap
        log := log } =
        { s with
          pool := s.pool.modifyRun g w
          threads := Function.update s.threads w
            { s.threads w with status := .running, message := message }
          heap := heap'
          log := log' } ∧
      ∀ r, g r = r ∨ g r = { r with remote := "" } := fun heap log =>
    ⟨id, (s.threads w).message, heap, log, by rw [Pool.modifyRun_id], fun r => Or.inl rfl⟩
  unfold beginJob
  dsimp only
  split
  · split
    · split
      · split
        · exact hkeep _ _
        · exact hkeep s.heap s.log
      · exact hkeep s.heap s.log
    · exact hkeep s.heap s.log
  split
  · exact hkeep s.heap s.log
  split
  · exact ⟨_, _, s.heap, _, rfl, fun r => Or.inr rfl⟩
  · exact hkeep s.heap s.log

/-- The states agree on everything about batches. -/
structure SameBatches (s s' : Sys κ) : Prop where
  heap : s'.heap = s.heap
  log : s'.log = s.log
  nextPtr : s'.nextPtr = s.nextPtr
  queue : s'.pool.queue = s.pool.queue
  tagged_length : s'.pool.taggedWorkers.length = s.pool.taggedWorkers.length

theorem sameBatches_retire (s : Sys κ) (w : Worker) : SameBatches s (s.retire w) := by
  unfold retire
  split
  · exact ⟨rfl, rfl, rfl, rfl, rfl⟩
  · cases w <;> exact ⟨rfl, rfl, rfl, rfl, rfl⟩

theorem isBatchJob_of_batchJob {run : RunInfo κ} {bj : BatchJob} (h : run.batchJob = some bj) :
    run.isBatchJob = true := by
  unfold RunInfo.batchJob at h
  split at h
  · assumption
  · cases h

/-- A worker that begins with a job of a batch. -/
theorem beginJob_job (s : Sys κ) (w : Worker) {run : RunInfo κ} {bj : BatchJob}
    (hbj : run.batchJob = some bj) (hno : bj.jobno ≠ -1) :
    s.beginJob w run = { s with
      threads := Function.update s.threads w { s.threads w with status := .running } } := by
  rw [beginJob, if_pos (isBatchJob_of_batchJob hbj), hbj]
  exact if_neg hno

/-- A worker that calls the completion function of a batch. -/
theorem beginJob_completion (s : Sys κ) (w : Worker) {run : RunInfo κ} {ptr : ℕ} {b : Batch}
    (hbj : run.batchJob = some ⟨ptr, -1⟩) (hb : s.heap ptr = some b) :
    s.beginJob w run = { s with
      threads := Function.update s.threads w { s.threads w with status := .running }
      heap := Function.update s.heap ptr (some { b with results := [] })
      log := s.log ++ [.completed ptr (some w) b.results] } := by
  rw [beginJob, if_pos (isBatchJob_of_batchJob hbj), hbj]
  simp only [if_true, hb]

/-- A worker that begins with a command has nothing to do with batches. -/
theorem beginJob_other (s : Sys κ) (w : Worker) {run : RunInfo κ} (hbj : run.batchJob = none) :
    (s.beginJob w run).heap = s.heap ∧
    ((s.beginJob w run).log = s.log ∨
      ∃ a m, (s.beginJob w run).log = s.log ++ [.invoked w a m]) := by
  rw [beginJob, hbj]
  dsimp only
  split
  · exact ⟨rfl, Or.inl rfl⟩
  split
  · exact ⟨rfl, Or.inl rfl⟩
  split
  · exact ⟨rfl, Or.inr ⟨_, _, rfl⟩⟩
  · exact ⟨rfl, Or.inl rfl⟩

/-- Is to begin with its job the next thing the worker does? -/
def begins (s : Sys κ) (w : Worker) : Bool :=
  match (s.threads w).status, (s.threads w).inbox with
  | .preloaded, _ => true
  | .waiting, .run :: _ => true
  | _, _ => false

/-- What a worker does with the message it waits for, or without one if its job is preloaded. -/
theorem workerReceive_cases {s s' : Sys κ} {w : Worker} (h : s.workerReceive w = some s') :
    (∃ run, s.pool.runInfo w = some run ∧ (s.threads w).status = .preloaded ∧
      s' = s.beginJob w run) ∨
    (∃ run cmd rest, s.pool.runInfo w = some run ∧ (s.threads w).status = .waiting ∧
      (s.threads w).inbox = cmd :: rest ∧
      let thread := { s.threads w with inbox := rest }
      s' = match cmd with
        | .run => { s with threads := Function.update s.threads w thread }.beginJob w run
        | .quit => { s with
            threads := Function.update s.threads w
              { thread with status := .exited, outbox := thread.outbox ++ [.quitting] } }
        | .start => { s with threads := Function.update s.threads w thread }) ∨
    (∃ cmd rest, (s.threads w).status = .starting ∧ (s.threads w).inbox = cmd :: rest ∧
      let thread := { s.threads w with inbox := rest }
      s' = { s with
        threads := Function.update s.threads w (match cmd with
          | .start => { thread with status := .waiting }
          | .quit => { thread with status := .exited, outbox := thread.outbox ++ [.quitting] }
          | .run => thread) }) := by
  unfold workerReceive at h
  dsimp only at h
  split at h
  · rename_i run hrun hstatus
    split at h
    · exact Or.inl ⟨run, hrun, hstatus, (Option.some.inj h).symm⟩
    · cases h
  · rename_i run cmd rest hrun hstatus hinbox
    refine Or.inr (Or.inl ⟨run, cmd, rest, hrun, hstatus, hinbox, ?_⟩)
    cases cmd <;> exact (Option.some.inj h).symm
  · rename_i cmd rest hstatus hinbox
    exact Or.inr (Or.inr ⟨cmd, rest, hstatus, hinbox, (Option.some.inj h).symm⟩)
  · cases h

theorem workers_length_workerReceive {s s' : Sys κ} {w : Worker}
    (h : s.workerReceive w = some s') : s'.pool.workers.length = s.pool.workers.length := by
  have hbegin : ∀ (s : Sys κ) (run : RunInfo κ),
      (s.beginJob w run).pool.workers.length = s.pool.workers.length := by
    intro s run
    obtain ⟨g, _, _, _, heq, _⟩ := s.beginJob_eq w run
    rw [heq]
    exact Pool.workers_length_modifyRun ..
  rcases workerReceive_cases h with ⟨run, _, _, rfl⟩ | ⟨run, cmd, rest, _, _, _, rfl⟩ |
    ⟨_, _, _, _, rfl⟩
  · exact hbegin s run
  · cases cmd with
    | run => exact hbegin _ run
    | quit => rfl
    | start => rfl
  · rfl

/-- A worker that is done with its job says so; a job of a batch leaves its result. -/
theorem workerFinish_cases {s s' : Sys κ} {w : Worker} {left : Message} {r : JobResult}
    (h : s.workerFinish w left r = some s') :
    ∃ run message, s.pool.runInfo w = some run ∧ (s.threads w).status = .running ∧
      let threads := Function.update s.threads w { s.threads w with
        status := .waiting
        outbox := (s.threads w).outbox ++ [.ran]
        message := message }
      ((∃ bj, run.batchJob = some bj ∧ 0 ≤ bj.jobno ∧
        s' = { s with
          threads := threads
          heap := Function.update s.heap bj.ptr
            ((s.heap bj.ptr).map fun b => b.runJob bj.jobno.toNat r)
          log := s.log ++ [.executed bj r] }) ∨
      ((∀ bj, run.batchJob = some bj → bj.jobno < 0) ∧ s' = { s with threads := threads })) := by
  unfold workerFinish at h
  split at h
  · rename_i run hrun hstatus
    dsimp only at h
    split at h
    · rename_i bj hbj
      refine ⟨run, (s.threads w).message, hrun, hstatus, ?_⟩
      split at h
      · rename_i hno
        exact Or.inl ⟨bj, hbj, hno, (Option.some.inj h).symm⟩
      · rename_i hno
        refine Or.inr ⟨fun bj' hbj' => ?_, (Option.some.inj h).symm⟩
        rw [hbj] at hbj'
        cases hbj'
        omega
    · rename_i hbj
      refine ⟨run, if run.isInjected then (s.threads w).message else left, hrun, hstatus,
        Or.inr ⟨fun bj hbj' => ?_, ?_⟩⟩
      · rw [hbj] at hbj'
        cases hbj'
      · rw [← Option.some.inj h]
        split <;> rfl
  · cases h

/-! ## Dispatch -/

/-- The worker has been given the job, and all else that has to do with jobs is as before, but for
the queue the job has come from. -/
structure Loaded (s s' : Sys κ) (w : Worker) (l : Load κ) : Prop where
  run : ∃ r : RunInfo κ, s'.pool.runInfo w = some (r.load l)
  other : ∀ v, v ≠ w → s'.pool.runInfo v = s.pool.runInfo v
  outstanding : s'.outstanding = Function.update s.outstanding w (s.outstanding w + 1)
  log : s'.log = s.log ++ [.dispatched w l]
  heap : s'.heap = s.heap
  nextPtr : s'.nextPtr = s.nextPtr
  maxWorkers : s'.pool.maxWorkers = s.pool.maxWorkers
  pending : s'.pool.pendingCommands = s.pool.pendingCommands
  /-- Only a worker that is new gets a new message object. -/
  message : ∀ v, (s'.threads v).message = (s.threads v).message ∨
    s.pool.runInfo v = none ∧ (s'.threads v).message = {}

theorem message_update {threads : Worker → Thread} {w : Worker} {thread : Thread}
    (h : thread.message = (threads w).message) (v : Worker) :
    (Function.update threads w thread v).message = (threads v).message := by
  rcases eq_or_ne v w with rfl | hne
  · rw [Function.update_self, h]
  · rw [Function.update_of_ne hne]

/-- The queue the job has come from does not matter. -/
theorem Loaded.of_setJobQueue {s s' : Sys κ} {w : Worker} {l : Load κ} {reply : Bool}
    {jobs : List BatchJob} (h : Loaded (s.setJobQueue reply jobs) s' w l) : Loaded s s' w l := by
  have hsame := s.sameBooks_setJobQueue reply jobs
  exact ⟨h.run, fun v hv => (h.other v hv).trans (hsame.runInfo v), h.outstanding, h.log, h.heap,
    h.nextPtr, h.maxWorkers.trans hsame.maxWorkers, h.pending.trans hsame.pending,
    fun v => by rw [← hsame.threads, ← hsame.runInfo]; exact h.message v⟩

theorem startTagged_cases (s : Sys κ) (t : ℕ) :
    s.startTagged t = s ∧ (∀ tw, s.pool.taggedWorkers[t]? = some tw → tw.Settled) ∨
      ∃ tw bj rest,
        s.pool.taggedWorkers[t]? = some tw ∧ tw.busy = false ∧ tw.queue = bj :: rest := by
  rcases ht : s.pool.taggedWorkers[t]? with _ | tw
  · exact Or.inl ⟨by simp only [startTagged, ht], fun tw h => by cases h⟩
  rcases hb : tw.busy with _ | _
  · rcases hq : tw.queue with _ | ⟨bj, rest⟩
    · refine Or.inl ⟨by simp only [startTagged, ht, hb, hq], ?_⟩
      rintro _ ⟨⟩
      exact Or.inr hq
    · exact Or.inr ⟨tw, bj, rest, rfl, hb, hq⟩
  · refine Or.inl ⟨by simp only [startTagged, ht, hb], ?_⟩
    rintro _ ⟨⟩
    exact Or.inl hb

/-- A worker that has just been loaded is told to run, or started if it has no thread. -/
theorem proxyRunWorker_load (s : Sys κ) {w : Worker} {r : RunInfo κ} (l : Load κ)
    (hr : s.pool.runInfo w = some r) : (s.load w l).proxyRunWorker w =
      if r.joinable then (s.load w l).routeControl .run w else (s.load w l).spawn w := by
  have hload : (s.load w l).pool.runInfo w = some (r.load l) := by
    rw [load, Pool.runInfo_modifyRun, if_pos rfl, hr, Option.map_some]
  rw [proxyRunWorker, hload]
  dsimp only
  rw [RunInfo.joinable_load]

/-- A tagged worker that is not busy and has a job in its queue is told to run it. -/
theorem startTagged_start (s : Sys κ) {t : ℕ} {tw : TaggedWorker κ} {bj : BatchJob}
    {rest : List BatchJob} (ht : s.pool.taggedWorkers[t]? = some tw) (hb : tw.busy = false)
    (hq : tw.queue = bj :: rest) (hj : tw.run.joinable = true) :
    s.startTagged t =
      let w := Worker.tagged t
      let thread := s.threads w
      let l := Load.batch bj false true
      let started := { tw with run := tw.run.load l, busy := true, queue := rest }
      { s with
        pool := { s.pool with taggedWorkers := s.pool.taggedWorkers.set t started }
        threads := Function.update s.threads w { thread with inbox := thread.inbox ++ [.run] }
        sent := Function.update s.sent w (s.sent w ++ [.run])
        outstanding := Function.update s.outstanding w (s.outstanding w + 1)
        overwritten := s.overwritten || decide (s.outstanding w ≠ 0)
        log := s.log ++ [.dispatched w l] } := by
  obtain ⟨hlt, rfl⟩ := List.getElem?_eq_some_iff.1 ht
  unfold startTagged
  rw [ht]
  dsimp only
  rw [hb, hq]
  dsimp only
  rw [proxyRunWorker_load (r := s.pool.taggedWorkers[t].run) _ _ (by simp [Pool.runInfo, hlt]),
    if_pos hj]
  simp [routeControl, load, Pool.modifyRun, List.modify_eq_set_getElem?, hlt]

/-- The same as far as the books go, whether or not there is a thread. -/
theorem startTagged_pool (s : Sys κ) {t : ℕ} {tw : TaggedWorker κ} {bj : BatchJob}
    {rest : List BatchJob} (ht : s.pool.taggedWorkers[t]? = some tw) (hb : tw.busy = false)
    (hq : tw.queue = bj :: rest) :
    ∃ run : RunInfo κ, run.batchJob = some bj ∧
      (s.startTagged t).pool = { s.pool with
        taggedWorkers := s.pool.taggedWorkers.set t { run := run, busy := true, queue := rest } } ∧
      (s.startTagged t).log = s.log ++ [.dispatched (.tagged t) (.batch bj false true)] := by
  obtain ⟨hlt, rfl⟩ := List.getElem?_eq_some_iff.1 ht
  rcases hj : s.pool.taggedWorkers[t].run.joinable with _ | _
  · refine ⟨{ s.pool.taggedWorkers[t].run.load (.batch bj false true) with joinable := true },
      rfl, ?_⟩
    unfold startTagged
    rw [ht]
    dsimp only
    rw [hb, hq]
    dsimp only
    rw [proxyRunWorker_load (r := s.pool.taggedWorkers[t].run) _ _ (by simp [Pool.runInfo, hlt]),
      hj, if_neg Bool.false_ne_true]
    simp [spawn, load, Pool.modifyRun, List.modify_eq_set_getElem?, hlt]
  · rw [startTagged_start s ht hb hq hj]
    exact ⟨_, RunInfo.batchJob_load .., rfl, rfl⟩

theorem loaded_startTagged (s : Sys κ) {t : ℕ} {tw : TaggedWorker κ} {bj : BatchJob}
    {rest : List BatchJob} (ht : s.pool.taggedWorkers[t]? = some tw) (hb : tw.busy = false)
    (hq : tw.queue = bj :: rest) (hj : tw.run.joinable = true) :
    Loaded s (s.startTagged t) (.tagged t) (.batch bj false true) := by
  have hlt : t < s.pool.taggedWorkers.length := (List.getElem?_eq_some_iff.1 ht).1
  rw [startTagged_start s ht hb hq hj]
  refine ⟨⟨tw.run, ?_⟩, fun v hv => ?_, rfl, rfl, rfl, rfl, rfl, rfl,
    fun v => Or.inl (message_update (by rfl) v)⟩
  · simp only [Pool.runInfo, List.getElem?_set_self hlt, Option.map_some]
  · cases v with
    | untagged i => rfl
    | tagged u =>
      have hu : t ≠ u := by simpa using hv.symm
      simp only [Pool.runInfo, List.getElem?_set_ne hu]

/-- The next job of a tagged worker is taken out of its queue. -/
theorem takes_startTagged (s : Sys κ) {t : ℕ} {tw : TaggedWorker κ} {bj : BatchJob}
    {rest : List BatchJob} (ht : s.pool.taggedWorkers[t]? = some tw) (hb : tw.busy = false)
    (hq : tw.queue = bj :: rest) (hj : tw.run.joinable = true) :
    s.pool.Takes (s.startTagged t).pool (.tagged t) (.batch bj false true) := by
  have hlt : t < s.pool.taggedWorkers.length := (List.getElem?_eq_some_iff.1 ht).1
  intro thread b
  rw [startTagged_start s ht hb hq hj]
  rcases Pool.thread_cases thread with ⟨u, rfl⟩ | rfl | hneg
  · rw [Pool.queue_tagged, Pool.queue_tagged]
    rcases eq_or_ne u t with rfl | hne
    · rw [ht, List.getElem?_set_self hlt, Option.map_some, Option.map_some, Option.getD_some,
        Option.getD_some, hq, List.count_cons]
      simp [Load.batchJob, Worker.place]
    · rw [List.getElem?_set_ne hne.symm, if_neg (by simp only [Worker.place]; omega), Nat.add_zero]
  · rw [Pool.queue_zero, Pool.queue_zero, if_neg (by simp only [Worker.place]; omega)]
    rfl
  · rw [Pool.queue_neg _ hneg, Pool.queue_neg _ hneg, if_neg (by simp only [Worker.place]; omega)]
    rfl

end Sys

variable [DecidableEq κ]

namespace Pool

@[simp] theorem active_addActive (p : Pool κ) (n : ℤ) (k : Kind κ) :
    (p.addActive n k).active = Function.update p.active k (p.active k + n) := by
  funext j
  cases k with
  | batch => cases j <;> rfl
  | reply => cases j <;> rfl
  | category c =>
    cases j with
    | batch => rfl
    | reply => rfl
    | category d =>
      show Function.update p.activeThreads c (p.activeThreads c + n) d = _
      rcases eq_or_ne d c with rfl | h
      · rw [Function.update_self, Function.update_self]
        rfl
      · rw [Function.update_of_ne h, Function.update_of_ne (by simpa using h)]
        rfl

section AddActive

variable (p : Pool κ) (n : ℤ) (k : Kind κ)

@[simp] theorem workers_addActive : (p.addActive n k).workers = p.workers := by cases k <;> rfl

@[simp] theorem idleWorkers_addActive : (p.addActive n k).idleWorkers = p.idleWorkers := by
  cases k <;> rfl

@[simp] theorem idleWorkerCount_addActive :
    (p.addActive n k).idleWorkerCount = p.idleWorkerCount := by cases k <;> rfl

@[simp] theorem activeWorkers_addActive : (p.addActive n k).activeWorkers = p.activeWorkers := by
  cases k <;> rfl

@[simp] theorem taggedWorkers_addActive : (p.addActive n k).taggedWorkers = p.taggedWorkers := by
  cases k <;> rfl

@[simp] theorem queued_addActive : (p.addActive n k).queued = p.queued := by cases k <;> rfl

@[simp] theorem pendingCommands_addActive :
    (p.addActive n k).pendingCommands = p.pendingCommands := by cases k <;> rfl

@[simp] theorem maxWorkers_addActive : (p.addActive n k).maxWorkers = p.maxWorkers := by
  cases k <;> rfl

@[simp] theorem runInfo_addActive (w : Worker) : (p.addActive n k).runInfo w = p.runInfo w := by
  cases w <;> simp [runInfo]

end AddActive

end Pool

namespace Sys

/-- Without an idle worker, a dispatch makes a new one. -/
theorem dispatch_new (s : Sys κ) (k : Kind κ) (l : Load κ) (h : s.pool.idleWorkerCount = 0) :
    s.dispatch k l =
      let w := Worker.untagged s.pool.workers.length
      let run := { ({} : RunInfo κ).load l with joinable := true }
      { s with
        pool := { s.pool with workers := s.pool.workers ++ [run] }.addActive 1 k
        threads := Function.update s.threads w { status := .preloaded }
        outstanding := Function.update s.outstanding w (s.outstanding w + 1)
        overwritten := s.overwritten || decide (s.outstanding w ≠ 0)
        log := s.log ++ [.dispatched w l] } := by
  unfold dispatch Pool.getIdleWorker
  rw [if_pos h]
  dsimp only
  rw [proxyRunWorker_load (r := {}) _ _ List.getElem?_concat_length, if_neg Bool.false_ne_true]
  simp only [spawn, load, Pool.modifyRun, List.modify_concat]

/-- With an idle worker, a dispatch tells it to run. -/
theorem dispatch_idle (s : Sys κ) (k : Kind κ) (l : Load κ) {m i : ℕ} {r : RunInfo κ}
    (h : s.pool.idleWorkerCount = m + 1) (hi : s.pool.idleWorkers.getD m 0 = i)
    (hr : s.pool.workers[i]? = some r) (hj : r.joinable = true) :
    s.dispatch k l =
      let w := Worker.untagged i
      let thread := s.threads w
      { s with
        pool := { s.pool with
          idleWorkerCount := m
          workers := s.pool.workers.modify i fun r => r.load l }.addActive 1 k
        threads := Function.update s.threads w { thread with inbox := thread.inbox ++ [.run] }
        sent := Function.update s.sent w (s.sent w ++ [.run])
        outstanding := Function.update s.outstanding w (s.outstanding w + 1)
        overwritten := s.overwritten || decide (s.outstanding w ≠ 0)
        log := s.log ++ [.dispatched w l] } := by
  unfold dispatch Pool.getIdleWorker
  rw [if_neg (by omega), h]
  dsimp only
  rw [Nat.add_sub_cancel, hi]
  have hrun : { s.pool with idleWorkerCount := m }.runInfo (.untagged i) = some r := hr
  rw [proxyRunWorker_load { s with pool := { s.pool with idleWorkerCount := m } } l hrun, if_pos hj]
  rfl

omit [DecidableEq κ] in
/-- Starting a worker changes its own record, if anything in the books. -/
theorem proxyRunWorker_spec (s : Sys κ) (w : Worker) :
    (∃ g, (s.proxyRunWorker w).pool = s.pool.modifyRun g w) ∧
      (s.proxyRunWorker w).log = s.log := by
  have hid : s.pool = s.pool.modifyRun id w := (s.pool.modifyRun_id w).symm
  unfold proxyRunWorker
  split
  · split
    · exact ⟨⟨id, hid⟩, rfl⟩
    · exact ⟨⟨_, rfl⟩, rfl⟩
  · exact ⟨⟨id, hid⟩, rfl⟩

/-- What a dispatch does to the books, whichever worker it takes. -/
theorem dispatch_pool (s : Sys κ) (k : Kind κ) (l : Load κ) :
    ∃ (i : ℕ) (workers : List (RunInfo κ)) (count : ℕ),
      (s.dispatch k l).pool =
        { s.pool with workers := workers, idleWorkerCount := count }.addActive 1 k ∧
      (workers.length : ℤ) - count = s.pool.activeWorkers + 1 ∧
      (s.dispatch k l).log = s.log ++ [.dispatched (.untagged i) l] := by
  unfold dispatch Pool.getIdleWorker
  split
  rename_i pool i heq
  obtain ⟨⟨g, hpool⟩, hlog⟩ :=
    ({ s with pool := pool }.load (.untagged i) l).proxyRunWorker_spec (.untagged i)
  refine ⟨i, (pool.workers.modify i fun r => r.load l).modify i g, pool.idleWorkerCount, ?_, ?_,
    hlog⟩
  · dsimp only
    rw [hpool]
    split at heq <;> cases heq <;> rfl
  · rw [List.length_modify, List.length_modify, Pool.activeWorkers]
    split at heq <;> cases heq <;> dsimp only
    · rw [List.length_append, List.length_singleton]
      omega
    · omega

/-- An untagged worker that is dispatched has no effect on the queues. -/
theorem dispatch_queues (s : Sys κ) (k : Kind κ) (l : Load κ) :
    (s.dispatch k l).pool.batchJobs = s.pool.batchJobs ∧
    (s.dispatch k l).pool.replyJobs = s.pool.replyJobs ∧
    (s.dispatch k l).pool.taggedWorkers = s.pool.taggedWorkers ∧
    (s.dispatch k l).pool.queued = s.pool.queued ∧
    (s.dispatch k l).pool.pendingCommands = s.pool.pendingCommands := by
  obtain ⟨_, _, _, hpool, _⟩ := s.dispatch_pool k l
  rw [hpool]
  cases k <;> exact ⟨rfl, rfl, rfl, rfl, rfl⟩

theorem queue_dispatch (s : Sys κ) (k : Kind κ) (l : Load κ) :
    (s.dispatch k l).pool.queue = s.pool.queue := by
  obtain ⟨hbatch, hreply, htagged, _⟩ := s.dispatch_queues k l
  exact Pool.queue_congr htagged hbatch hreply

/-- The next job of a general queue is given to an untagged worker. -/
theorem takes_dispatch (s : Sys κ) {reply : Bool} {bj : BatchJob} {rest : List BatchJob}
    (hq : s.jobQueue reply = bj :: rest) (k : Kind κ) (i : ℕ) :
    s.pool.Takes ((s.setJobQueue reply rest).dispatch k (.batch bj reply false)).pool (.untagged i)
      (.batch bj reply false) := by
  intro thread b
  rw [queue_dispatch]
  rcases Pool.thread_cases thread with ⟨u, rfl⟩ | rfl | hneg
  · rw [Pool.queue_tagged, Pool.queue_tagged, if_neg (by simp only [Worker.place]; omega)]
    cases reply <;> rfl
  · rw [Pool.queue_zero, Pool.queue_zero, List.count_append, List.count_append]
    cases reply with
    | false =>
      have hq' : s.pool.batchJobs = bj :: rest := hq
      simp only [setJobQueue, hq', Worker.place, Load.batchJob, List.count_cons, and_true,
        beq_iff_eq, Option.some.injEq, Bool.false_eq_true, if_false]
      omega
    | true =>
      have hq' : s.pool.replyJobs = bj :: rest := hq
      simp only [setJobQueue, hq', Worker.place, Load.batchJob, List.count_cons, and_true,
        beq_iff_eq, Option.some.injEq, if_true]
      omega
  · rw [Pool.queue_neg _ hneg, Pool.queue_neg _ hneg, if_neg (by simp only [Worker.place]; omega)]
    rfl

theorem loaded_dispatch_new (s : Sys κ) (k : Kind κ) (l : Load κ)
    (h : s.pool.idleWorkerCount = 0) :
    Loaded s (s.dispatch k l) (.untagged s.pool.workers.length) l := by
  rw [dispatch_new s k l h]
  refine ⟨⟨{ joinable := true }, ?_⟩, fun v hv => ?_, rfl, rfl, rfl, rfl, ?_, ?_, fun v => ?_⟩
  · rw [Pool.runInfo_addActive]
    simp only [Pool.runInfo, List.getElem?_concat_length]
    rcases l with ⟨_ | _⟩ | _ <;> rfl
  · rw [Pool.runInfo_addActive]
    cases v with
    | untagged j => exact List.getElem?_concat_of_ne (by simpa using hv) _
    | tagged t => rfl
  · rw [Pool.maxWorkers_addActive]
  · rw [Pool.pendingCommands_addActive]
  · dsimp only
    rcases eq_or_ne v (.untagged s.pool.workers.length) with rfl | hne
    · rw [Function.update_self]
      exact Or.inr ⟨List.getElem?_eq_none le_rfl, rfl⟩
    · rw [Function.update_of_ne hne]
      exact Or.inl rfl

theorem loaded_dispatch_idle (s : Sys κ) (k : Kind κ) (l : Load κ) {m i : ℕ} {r : RunInfo κ}
    (h : s.pool.idleWorkerCount = m + 1) (hi : s.pool.idleWorkers.getD m 0 = i)
    (hr : s.pool.workers[i]? = some r) (hj : r.joinable = true) :
    Loaded s (s.dispatch k l) (.untagged i) l := by
  have hrun := s.pool.runInfo_modifyRun (fun r => r.load l) (.untagged i)
  rw [dispatch_idle s k l h hi hr hj]
  refine ⟨⟨r, ?_⟩, fun v hv => ?_, rfl, rfl, rfl, rfl, ?_, ?_,
    fun v => Or.inl (message_update (by rfl) v)⟩
  · rw [Pool.runInfo_addActive]
    refine (hrun (.untagged i)).trans ?_
    simp only [if_true, Pool.runInfo, hr, Option.map_some]
  · rw [Pool.runInfo_addActive]
    exact (hrun v).trans (if_neg hv)
  · rw [Pool.maxWorkers_addActive]
  · rw [Pool.pendingCommands_addActive]

/-! ## A job has returned -/

theorem release_untagged (s : Sys κ) {i : ℕ} {run : RunInfo κ} {k : Kind κ}
    (hk : run.kind = some k) :
    s.release (.untagged i) run = { s with pool := s.pool.addActive (-1) k } := by
  unfold RunInfo.kind at hk
  unfold release
  split
  · rename_i hbatch
    rw [if_pos hbatch] at hk
    cases hk
    rfl
  · rename_i hbatch
    rw [if_neg hbatch] at hk
    obtain ⟨c, hc, rfl⟩ := Option.map_eq_some_iff.1 hk
    rw [hc]

theorem release_tagged (s : Sys κ) {t : ℕ} {run : RunInfo κ} (hb : run.isBatchJob = true) :
    s.release (.tagged t) run = { s with pool := { s.pool with
      taggedWorkers := s.pool.taggedWorkers.modify t fun tw => { tw with busy := false } } } :=
  if_pos hb

theorem proxyWorkerMessage_cases {s s' : Sys κ} {w : Worker}
    (h : s.proxyWorkerMessage w = some s') :
    ∃ run rest, s.pool.runInfo w = some run ∧
      ((s.threads w).outbox = .ran :: rest ∧ s' = (s.takeReply w rest).workerRan w run ∨
      (s.threads w).outbox = .quitting :: rest ∧
        s' = { s.takeReply w rest with
          pool := s.pool.modifyRun (fun r => { r with joinable := false }) w }) := by
  unfold proxyWorkerMessage at h
  split at h
  · rename_i run reply rest hrun houtbox
    refine ⟨run, rest, hrun, ?_⟩
    cases reply with
    | ran => exact Or.inl ⟨houtbox, (Option.some.inj h).symm⟩
    | quitting => exact Or.inr ⟨houtbox, (Option.some.inj h).symm⟩
  · cases h

theorem release_idle (s : Sys κ) (w : Worker) (run : RunInfo κ) :
    (s.release w run).pool.idleWorkers = s.pool.idleWorkers ∧
    (s.release w run).pool.idleWorkerCount = s.pool.idleWorkerCount ∧
    (s.release w run).pool.maxWorkers = s.pool.maxWorkers := by
  unfold release
  split
  · cases w <;> simp
  · split <;> simp

/-- Only the flag or a counter changes. -/
theorem sameBatches_release (s : Sys κ) (w : Worker) (run : RunInfo κ) :
    SameBatches s (s.release w run) := by
  have hadd : ∀ n k, SameBatches s { s with pool := s.pool.addActive n k } := by
    intro n k
    cases k <;> exact ⟨rfl, rfl, rfl, rfl, rfl⟩
  unfold release
  split
  · cases w with
    | untagged i => exact hadd _ _
    | tagged t =>
      exact ⟨rfl, rfl, rfl, s.pool.queue_modify_tagged t fun _ => rfl, List.length_modify ..⟩
  · split
    · exact hadd _ _
    · exact ⟨rfl, rfl, rfl, rfl, rfl⟩

theorem runInfo_release (s : Sys κ) (w : Worker) (run : RunInfo κ) (v : Worker) :
    (s.release w run).pool.runInfo v = s.pool.runInfo v := by
  unfold release
  split
  · cases w with
    | untagged i => exact Pool.runInfo_addActive ..
    | tagged t =>
      exact s.pool.runInfo_modify_tagged t (g := fun tw => { tw with busy := false })
        (fun _ => rfl) v
  · split
    · exact Pool.runInfo_addActive ..
    · rfl

omit [DecidableEq κ] in
theorem runInfo_retire (s : Sys κ) (w v : Worker) :
    (s.retire w).pool.runInfo v = s.pool.runInfo v := by
  unfold retire
  split
  · rfl
  · cases w <;> cases v <;> rfl

omit [DecidableEq κ] in
theorem maxWorkers_retire (s : Sys κ) (w : Worker) :
    (s.retire w).pool.maxWorkers = s.pool.maxWorkers := by
  unfold retire
  split
  · rfl
  · cases w <;> rfl

omit [DecidableEq κ] in
theorem workers_retire (s : Sys κ) (w : Worker) : (s.retire w).pool.workers = s.pool.workers := by
  unfold retire
  split
  · rfl
  · cases w <;> rfl

theorem workers_release (s : Sys κ) (w : Worker) (run : RunInfo κ) :
    (s.release w run).pool.workers = s.pool.workers := by
  unfold release
  split
  · cases w <;> simp
  · split <;> simp

omit [DecidableEq κ] in
theorem pendingCommands_retire (s : Sys κ) (w : Worker) :
    (s.retire w).pool.pendingCommands = s.pool.pendingCommands := by
  unfold retire
  split
  · rfl
  · cases w <;> rfl

theorem pendingCommands_release (s : Sys κ) (w : Worker) (run : RunInfo κ) :
    (s.release w run).pool.pendingCommands = s.pool.pendingCommands := by
  unfold release
  split
  · cases w <;> simp
  · split <;> simp

/-- What becomes of the batch has no influence on what becomes of the worker. -/
theorem sameBooks_workerRan (s : Sys κ) (w : Worker) (run : RunInfo κ) :
    SameBooks
      (({ s with outstanding := Function.update s.outstanding w (s.outstanding w - 1) }.release w
        run).retire w)
      (s.workerRan w run) := by
  unfold workerRan
  dsimp only
  refine SameBooks.retire ?_ w
  split
  · refine SameBooks.trans ?_ (sameBooks_jobReturned _ _ _)
    exact ⟨⟨_, _, _, rfl, rfl⟩, rfl, rfl, rfl, rfl⟩
  · exact .refl _

/-- The proxy reads the record of a worker that has returned, and does not write to it. -/
theorem runInfo_workerRan (s : Sys κ) (w : Worker) (run : RunInfo κ) (v : Worker) :
    (s.workerRan w run).pool.runInfo v = s.pool.runInfo v := by
  rw [(s.sameBooks_workerRan w run).runInfo, runInfo_retire, runInfo_release]

theorem maxWorkers_workerRan (s : Sys κ) (w : Worker) (run : RunInfo κ) :
    (s.workerRan w run).pool.maxWorkers = s.pool.maxWorkers := by
  obtain ⟨_, _, _, hp, _⟩ := (s.sameBooks_workerRan w run).pool
  rw [hp, maxWorkers_retire]
  exact (release_idle _ w run).2.2

/-- Nobody is added to the table of workers when a job returns. -/
theorem workers_workerRan (s : Sys κ) (w : Worker) (run : RunInfo κ) :
    (s.workerRan w run).pool.workers = s.pool.workers := by
  obtain ⟨_, _, _, hp, _⟩ := (s.sameBooks_workerRan w run).pool
  rw [hp, workers_retire, workers_release]

theorem pendingCommands_workerRan (s : Sys κ) (w : Worker) (run : RunInfo κ) :
    (s.workerRan w run).pool.pendingCommands = s.pool.pendingCommands := by
  rw [(s.sameBooks_workerRan w run).pending, pendingCommands_retire, pendingCommands_release]

/-! ## The pass over the queues -/

section ProcessQueue

variable {cfg : PoolConfig κ} {P : Sys κ → Prop}

theorem proxyRunBatchJobs_induction {reply : Bool}
    (hstart : ∀ s bj rest, P s → s.jobQueue reply = bj :: rest →
      s.mayStart cfg (jobKind reply) = true →
      P ((s.setJobQueue reply rest).dispatch (jobKind reply) (.batch bj reply false)))
    (fuel : ℕ) {s : Sys κ} (h : P s) : P (proxyRunBatchJobs cfg reply fuel s) := by
  induction fuel generalizing s with
  | zero => exact h
  | succ fuel ih =>
    unfold proxyRunBatchJobs
    split
    · exact h
    · rename_i bj rest hq
      split
      · rename_i hmay
        exact ih (hstart s bj rest h hq hmay)
      · exact h

theorem runPending_induction
    (hstart : ∀ s pre p post, P s → s.pool.pendingCommands = pre ++ p :: post →
      s.mayStart cfg (.category p.cat) = true → P (s.startPending p (pre ++ post)))
    (kept todo : List (PendingCommand κ)) {s : Sys κ}
    (hq : s.pool.pendingCommands = kept ++ todo) (h : P s) : P (runPending cfg kept todo s) := by
  induction todo generalizing kept s with
  | nil => exact h
  | cons p todo ih =>
    unfold runPending
    split
    · split
      · rename_i hmay
        exact ih kept rfl (hstart s kept p todo h hq hmay)
      · exact ih (kept ++ [p]) (by rw [hq, List.append_assoc]; rfl) h
    · exact h

/-- What each single start preserves, the whole pass preserves. -/
theorem proxyProcessQueue_induction
    (htagged : ∀ s t, P s → P (s.startTagged t))
    (hbatch : ∀ s reply bj rest, P s → s.jobQueue reply = bj :: rest →
      s.mayStart cfg (jobKind reply) = true →
      P ((s.setJobQueue reply rest).dispatch (jobKind reply) (.batch bj reply false)))
    (hpending : ∀ s pre p post, P s → s.pool.pendingCommands = pre ++ p :: post →
      s.mayStart cfg (.category p.cat) = true → P (s.startPending p (pre ++ post)))
    {s : Sys κ} (h : P s) : P (s.proxyProcessQueue cfg) := by
  unfold proxyProcessQueue
  split
  · exact h
  have htag : ∀ (ts : List ℕ) (s : Sys κ), P s → P (ts.foldl startTagged s) := by
    intro ts
    induction ts with
    | nil => exact fun s h => h
    | cons t ts ih => exact fun s h => ih _ (htagged s t h)
  refine runPending_induction hpending [] _ rfl ?_
  refine proxyRunBatchJobs_induction (fun s => hbatch s true) _ ?_
  exact proxyRunBatchJobs_induction (fun s => hbatch s false) _ (htag _ s h)

end ProcessQueue

/-! ## What each event does -/

section Step

variable {cfg : PoolConfig κ} {s s' : Sys κ}

theorem step_command {a : Arrival κ} (h : Sys.step cfg s (.command a) = some s') :
    s.proxyToWorker cfg a = s' := by
  rw [Sys.step, Option.ite_none_left_eq_some] at h
  exact Option.some.inj h.2

theorem step_inject {t : InjectedTask κ} (h : Sys.step cfg s (.inject t) = some s') :
    s.proxyInjectTask cfg t = s' := by
  rw [Sys.step, Option.ite_none_left_eq_some] at h
  exact Option.some.inj h.2

theorem step_submit_cases {spec : BatchSpec} (h : Sys.step cfg s (.submit spec) = some s') :
    spec.valid cfg = true ∧ s' = s.submit spec := by
  rw [Sys.step, Option.ite_none_left_eq_some, Option.ite_none_right_eq_some] at h
  obtain ⟨_, hvalid, h⟩ := h
  exact ⟨hvalid, (Option.some.inj h).symm⟩

theorem step_replyJob {f : Callback} (h : Sys.step cfg s (.replyJob f) = some s') :
    s.proxyScheduleReplyJob f = s' := by
  rw [Sys.step, Option.ite_none_left_eq_some] at h
  exact Option.some.inj h.2

theorem step_processQueue (h : Sys.step cfg s .processQueue = some s') :
    s.proxyProcessQueue cfg = s' := by
  rw [Sys.step, Option.ite_none_left_eq_some] at h
  exact Option.some.inj h.2

theorem step_workerMessage {w : Worker} (h : Sys.step cfg s (.workerMessage w) = some s') :
    s.proxyWorkerMessage w = some s' := by
  rw [Sys.step, Option.ite_none_left_eq_some] at h
  exact h.2

theorem step_quit_cases (h : Sys.step cfg s .quit = some s') :
    s.pool.maxWorkers ≠ 0 ∧ s' = s.proxyControlQuit := by
  rw [Sys.step, Option.ite_none_left_eq_some, Option.ite_none_left_eq_some] at h
  obtain ⟨_, hopen, h⟩ := h
  exact ⟨hopen, (Option.some.inj h).symm⟩

theorem step_stop_cases (h : Sys.step cfg s .stop = some s') :
    s.pool.maxWorkers = 0 ∧ s.allJoined = true ∧ s' = { s with stopped := true } := by
  rw [Sys.step, Option.ite_none_left_eq_some, Option.ite_none_right_eq_some] at h
  obtain ⟨_, ⟨hquit, hjoined⟩, h⟩ := h
  exact ⟨hquit, hjoined, (Option.some.inj h).symm⟩

theorem step_receive {w : Worker} (h : Sys.step cfg s (.receive w) = some s') :
    s.workerReceive w = some s' := by
  rw [Sys.step, Option.ite_none_left_eq_some] at h
  exact h.2

theorem step_finish {w : Worker} {left : Message} {r : JobResult}
    (h : Sys.step cfg s (.finish w left r) = some s') : s.workerFinish w left r = some s' := by
  rw [Sys.step, Option.ite_none_left_eq_some] at h
  exact h.2

end Step

end Sys

end OxenMQ
