import OxenMQ.Lib.Rest
import OxenMQ.Workers.Batches

/-!
# The steps the worker pool still has to take

When nothing new comes in, what is left for the pool to do are its own steps: the workers take
their messages and return from their jobs, and the proxy processes what they say and looks at its
queues.  Jobs may call for more jobs, since the last job of a batch that returns puts the
completion function in a queue, and after `QUIT` every worker has to be told, to answer and to be
joined.

`Sys.work` counts the steps that are still to come: each message under way, each job that a worker
has, each job in a queue and each batch whose completion function is still to be queued counts for
as many steps as it can cause at most.  `Sys.settles` says that every step the pool takes on its own
uses some of it up, except for a look at the queues that finds nothing to start.
-/

set_option autoImplicit false

namespace OxenMQ

variable {κ : Type}

/-- The steps of the proxy's loop and of the workers, which nobody outside has to cause. -/
def PoolEvent.isOwn : PoolEvent κ → Bool
  | .processQueue | .workerMessage _ | .receive _ | .finish _ _ _ => true
  | _ => false

/-- A look at the queues is free: it may find nothing that can be started. -/
def PoolEvent.cost : PoolEvent κ → ℕ
  | .processQueue => 0
  | _ => 1

/-! ## The steps still to come -/

/-- A job that a worker has not begun with can cause five steps: the worker begins, returns, its
`RAN` is processed, and if that is answered with `QUIT`, the worker takes it and is joined. -/
def ThreadStatus.steps : ThreadStatus → ℕ
  | .preloaded => 5
  | .running => 4
  | _ => 0

def WorkerCommand.steps : WorkerCommand → ℕ
  | .start => 1
  | .run => 5
  | .quit => 2

def WorkerReply.steps : WorkerReply → ℕ
  | .ran => 3
  | .quitting => 1

/-- The steps that a thread and the messages from and to it can cause. -/
def Thread.work (t : Thread) : ℕ :=
  t.status.steps + (t.inbox.map WorkerCommand.steps).sum + (t.outbox.map WorkerReply.steps).sum

/-- The workers there are. -/
def Pool.roster (p : Pool κ) : Finset Worker :=
  (Finset.range p.workers.length).image .untagged ∪
    (Finset.range p.taggedWorkers.length).image .tagged

/-- The jobs in the queues. -/
def Pool.waitingJobs (p : Pool κ) : ℕ :=
  p.batchJobs.length + p.replyJobs.length +
    (p.taggedWorkers.map fun tw => tw.queue.length).sum + p.pendingCommands.length

/-- Is the completion function still to be queued? -/
def Batch.due (b : Batch) : Bool := b.complete.isSome && decide (0 < b.jobsOutstanding)

namespace Sys

/-- The steps of the threads. -/
def threadWork (s : Sys κ) : ℕ := ∑ w ∈ s.pool.roster, (s.threads w).work

/-- The completion functions that are still to be queued. -/
def callsDue (s : Sys κ) : ℕ :=
  ((Finset.range s.nextPtr).filter fun ptr => (s.heap ptr).any Batch.due).card

/-- The jobs that no worker has yet. -/
def jobsLeft (s : Sys κ) : ℕ := s.pool.waitingJobs + s.callsDue

/-- The steps that are still to come: a job in a queue causes one more than a job that a worker
has. -/
def work (s : Sys κ) : ℕ := s.threadWork + 6 * s.jobsLeft

end Sys

@[simp] theorem Pool.mem_roster {p : Pool κ} {w : Worker} :
    w ∈ p.roster ↔ (p.runInfo w).isSome = true := by
  cases w <;> simp [Pool.roster, Pool.runInfo]

theorem Pool.waitingJobs_modify (p : Pool κ) (t : ℕ) {g : TaggedWorker κ → TaggedWorker κ}
    (hg : ∀ tw, (g tw).queue = tw.queue) :
    { p with taggedWorkers := p.taggedWorkers.modify t g }.waitingJobs = p.waitingJobs := by
  have hmap : (p.taggedWorkers.modify t g).map (fun tw => tw.queue.length) =
      p.taggedWorkers.map fun tw => tw.queue.length := by
    refine List.ext_getElem? fun i => ?_
    rw [List.getElem?_map, List.getElem?_modify_ite, List.getElem?_map]
    split
    · rw [Option.map_map]
      exact congrArg (fun k => Option.map k _) (funext fun tw => congrArg List.length (hg tw))
    · rfl
  simp only [waitingJobs, hmap]

theorem Pool.waitingJobs_modifyRun (p : Pool κ) (g : RunInfo κ → RunInfo κ) (w : Worker) :
    (p.modifyRun g w).waitingJobs = p.waitingJobs := by
  cases w with
  | untagged i => rfl
  | tagged t => exact p.waitingJobs_modify t fun _ => rfl

/-- A job is put in a queue; in none if it is for a thread that does not exist. -/
theorem Pool.waitingJobs_pushJob_le (p : Pool κ) (thread : ℤ) (reply : Bool) (bj : BatchJob) :
    (p.pushJob thread reply bj).waitingJobs ≤ p.waitingJobs + 1 := by
  have hsum : ∀ (l : List (TaggedWorker κ)) (t : ℕ),
      ((l.modify t fun tw => { tw with queue := tw.queue ++ [bj] }).map
        fun tw => tw.queue.length).sum ≤ (l.map fun tw => tw.queue.length).sum + 1 := by
    intro l
    induction l with
    | nil => intro t; cases t <;> simp
    | cons tw l ih =>
      intro t
      cases t with
      | zero => simp; omega
      | succ t =>
        have := ih t
        simp only [List.modify_succ_cons, List.map_cons, List.sum_cons]
        omega
  unfold Pool.pushJob
  split
  · have := hsum p.taggedWorkers (thread - 1).toNat
    simp only [waitingJobs]
    omega
  split
  · simp only [waitingJobs, List.length_append, List.length_singleton]
    omega
  · simp only [waitingJobs, List.length_append, List.length_singleton]
    omega

namespace Sys

/-! ## Steps of one thread -/

section Threads

variable {R R' : Finset Worker} {T T' : Worker → Thread} {w : Worker} {n : ℕ}

/-- One thread gets something to do; it may be a new one. -/
theorem sum_work_le (hR : R' ⊆ insert w R) (hother : ∀ v, v ≠ w → T' v = T v)
    (hself : (T' w).work ≤ (if w ∈ R then (T w).work else 0) + n) :
    ∑ v ∈ R', (T' v).work ≤ ∑ v ∈ R, (T v).work + n := by
  have hrest : ∑ v ∈ R.erase w, (T' v).work = ∑ v ∈ R.erase w, (T v).work :=
    Finset.sum_congr rfl fun v hv => by rw [hother v (Finset.ne_of_mem_erase hv)]
  have hinsert : ∑ v ∈ insert w R, (T' v).work = (T' w).work + ∑ v ∈ R.erase w, (T' v).work := by
    rw [← Finset.insert_erase (Finset.mem_insert_self w R), Finset.erase_insert_eq_erase,
      Finset.sum_insert (Finset.notMem_erase w R)]
  have hle : ∑ v ∈ R', (T' v).work ≤ ∑ v ∈ insert w R, (T' v).work :=
    Finset.sum_le_sum_of_subset hR
  rw [hinsert, hrest] at hle
  by_cases hw : w ∈ R
  · rw [if_pos hw] at hself
    rw [← Finset.add_sum_erase R _ hw]
    omega
  · rw [if_neg hw] at hself
    rw [Finset.erase_eq_of_notMem hw] at hle
    omega

/-- One thread does something. -/
theorem sum_work_add_le (hw : w ∈ R) (hother : ∀ v, v ≠ w → T' v = T v)
    (hself : (T' w).work + n ≤ (T w).work) :
    ∑ v ∈ R, (T' v).work + n ≤ ∑ v ∈ R, (T v).work := by
  have hrest : ∑ v ∈ R.erase w, (T' v).work = ∑ v ∈ R.erase w, (T v).work :=
    Finset.sum_congr rfl fun v hv => by rw [hother v (Finset.ne_of_mem_erase hv)]
  rw [← Finset.add_sum_erase R _ hw, ← Finset.add_sum_erase R _ hw, hrest]
  omega

end Threads

variable {s s' : Sys κ}

/-- The batches on the heap are the same but for their results. -/
structure SameCells (s s' : Sys κ) : Prop where
  stopped : s'.stopped = s.stopped
  nextPtr : s'.nextPtr = s.nextPtr
  heap : ∀ ptr, (s'.heap ptr).map (fun b => { b with results := [] }) =
    (s.heap ptr).map fun b => { b with results := [] }

theorem SameCells.refl (s : Sys κ) : SameCells s s := ⟨rfl, rfl, fun _ => rfl⟩

theorem SameCells.of_eq (hstopped : s'.stopped = s.stopped) (hnext : s'.nextPtr = s.nextPtr)
    (hheap : s'.heap = s.heap) : SameCells s s' :=
  ⟨hstopped, hnext, fun _ => by rw [hheap]⟩

/-- What does not depend on the results is the same for both. -/
theorem SameCells.any (h : SameCells s s') {p : Batch → Bool}
    (hp : ∀ b, p { b with results := [] } = p b) (ptr : ℕ) :
    (s'.heap ptr).any p = (s.heap ptr).any p := by
  have hmap := congrArg (Option.any p) (h.heap ptr)
  simpa only [Option.any_map, Function.comp_def, hp] using hmap

theorem SameCells.callsDue (h : SameCells s s') : s'.callsDue = s.callsDue := by
  simp only [Sys.callsDue, h.nextPtr, h.any (p := Batch.due) fun _ => rfl]

theorem sameCells_beginJob (s : Sys κ) (w : Worker) (run : RunInfo κ) :
    SameCells s (s.beginJob w run) := by
  rcases hbj : run.batchJob with _ | bj
  · obtain ⟨_, _, _, _, heq, _⟩ := s.beginJob_eq w run
    exact .of_eq (by rw [heq]) (by rw [heq]) (s.beginJob_other w hbj).1
  by_cases hno : bj.jobno = -1
  · rcases hb : s.heap bj.ptr with _ | b
    · have heq : s.beginJob w run = { s with
          threads := Function.update s.threads w { s.threads w with status := .running } } := by
        simp only [beginJob, isBatchJob_of_batchJob hbj, if_true, hbj, hno, hb]
      rw [heq]
      exact .of_eq rfl rfl rfl
    · have hlast : run.batchJob = some ⟨bj.ptr, -1⟩ := by rw [hbj, ← hno]
      rw [beginJob_completion s w hlast hb]
      refine ⟨rfl, rfl, fun ptr => ?_⟩
      rcases eq_or_ne ptr bj.ptr with rfl | hne
      · simp only [Function.update_self, hb, Option.map_some]
      · simp only [Function.update_of_ne hne]
  · rw [beginJob_job s w hbj hno]
    exact .of_eq rfl rfl rfl

theorem sameCells_workerFinish {w : Worker} {left : Message} {r : JobResult}
    (h : s.workerFinish w left r = some s') : SameCells s s' := by
  obtain ⟨run, message, _, _, ⟨bj, _, _, rfl⟩ | ⟨_, rfl⟩⟩ := workerFinish_cases h
  · refine ⟨rfl, rfl, fun ptr => ?_⟩
    rcases eq_or_ne ptr bj.ptr with rfl | hne
    · simp only [Function.update_self, Option.map_map]
      congr 1
      funext b
      simp only [Function.comp_apply, Batch.runJob]
      split <;> rfl
    · simp only [Function.update_of_ne hne]
  · exact .of_eq rfl rfl rfl

/-- Only one thread has changed, and done one step at least of what was left for it. -/
theorem work_of_thread {w : Worker} (hw : (s.pool.runInfo w).isSome = true)
    (hroster : s'.pool.roster = s.pool.roster)
    (hwaiting : s'.pool.waitingJobs = s.pool.waitingJobs) (hdue : s'.callsDue = s.callsDue)
    (hother : ∀ v, v ≠ w → s'.threads v = s.threads v)
    (hself : (s'.threads w).work + 1 ≤ (s.threads w).work) : s'.work + 1 ≤ s.work := by
  have hthreads : s'.threadWork + 1 ≤ s.threadWork := by
    rw [threadWork, threadWork, hroster]
    exact sum_work_add_le (Pool.mem_roster.2 hw) hother hself
  rw [work, work, jobsLeft, jobsLeft, hwaiting, hdue]
  omega

theorem roster_modifyRun (p : Pool κ) (g : RunInfo κ → RunInfo κ) (w : Worker) :
    (p.modifyRun g w).roster = p.roster := by
  ext v
  rw [Pool.mem_roster, Pool.mem_roster, Pool.runInfo_modifyRun]
  split <;> simp

/-- A worker begins with a job that it had not begun with. -/
theorem work_beginJob {w : Worker} {run : RunInfo κ} (hrun : s.pool.runInfo w = some run)
    {inbox : List WorkerCommand}
    (hs : s' = { s with
      threads := Function.update s.threads w { s.threads w with inbox := inbox } }.beginJob w run)
    (hself : { s.threads w with status := .running, inbox := inbox }.work + 1 ≤
      (s.threads w).work) : s'.work + 1 ≤ s.work := by
  obtain ⟨g, message, heap, log, heq, _⟩ := { s with
    threads := Function.update s.threads w { s.threads w with inbox := inbox } }.beginJob_eq w run
  have hdue : s'.callsDue = s.callsDue := by
    subst hs
    exact (sameCells_beginJob _ w run).callsDue
  rw [← hs] at heq
  subst heq
  refine work_of_thread (w := w) (by rw [hrun]; rfl) (roster_modifyRun ..)
    (Pool.waitingJobs_modifyRun ..) hdue (fun v hv => ?_) ?_
  · simp only [Function.update_of_ne hv]
  · simpa only [Function.update_self, Thread.work] using hself

theorem work_workerReceive {w : Worker} (hw : (s.pool.runInfo w).isSome = true)
    (h : s.workerReceive w = some s') : s'.work + 1 ≤ s.work := by
  rcases workerReceive_cases h with ⟨run, hrun, hstatus, rfl⟩ |
    ⟨run, cmd, rest, hrun, hstatus, hinbox, hs'⟩ | ⟨cmd, rest, hstatus, hinbox, rfl⟩
  · have hsame : s.beginJob w run = { s with
        threads := Function.update s.threads w { s.threads w with
          inbox := (s.threads w).inbox } }.beginJob w run := by
      rw [Function.update_eq_self]
    refine work_beginJob hrun hsame ?_
    simp only [Thread.work, hstatus, ThreadStatus.steps]
    omega
  · cases cmd with
    | run =>
      refine work_beginJob hrun hs' ?_
      simp only [Thread.work, hstatus, hinbox, ThreadStatus.steps, List.map_cons, List.sum_cons,
        WorkerCommand.steps]
      omega
    | quit =>
      subst hs'
      refine work_of_thread (w := w) hw rfl rfl rfl (fun v hv => Function.update_of_ne hv ..) ?_
      simp only [Function.update_self, Thread.work, hstatus, hinbox, ThreadStatus.steps,
        WorkerCommand.steps, WorkerReply.steps, List.map_append, List.sum_append, List.map_cons,
        List.map_nil, List.sum_cons, List.sum_nil]
      omega
    | start =>
      subst hs'
      refine work_of_thread (w := w) hw rfl rfl rfl (fun v hv => Function.update_of_ne hv ..) ?_
      simp only [Function.update_self, Thread.work, hstatus, hinbox, ThreadStatus.steps,
        WorkerCommand.steps, List.map_cons, List.sum_cons]
      omega
  · refine work_of_thread (w := w) hw rfl rfl rfl (fun v hv => Function.update_of_ne hv ..) ?_
    cases cmd <;>
      simp only [Function.update_self, Thread.work, hstatus, hinbox, ThreadStatus.steps,
        WorkerCommand.steps, WorkerReply.steps, List.map_append, List.sum_append, List.map_cons,
        List.map_nil, List.sum_cons, List.sum_nil] <;> omega

theorem work_workerFinish {w : Worker} {left : Message} {r : JobResult}
    (h : s.workerFinish w left r = some s') : s'.work + 1 ≤ s.work := by
  obtain ⟨run, message, hrun, hstatus, hs'⟩ := workerFinish_cases h
  have hself : { s.threads w with
      status := .waiting
      outbox := (s.threads w).outbox ++ [WorkerReply.ran]
      message := message }.work + 1 ≤ (s.threads w).work := by
    simp only [Thread.work, hstatus, ThreadStatus.steps, WorkerReply.steps, List.map_append,
      List.sum_append, List.map_cons, List.map_nil, List.sum_cons, List.sum_nil]
    omega
  have hw : (s.pool.runInfo w).isSome = true := by rw [hrun]; rfl
  have hdue := (sameCells_workerFinish h).callsDue
  rcases hs' with ⟨bj, _, _, rfl⟩ | ⟨_, rfl⟩ <;>
    exact work_of_thread (w := w) hw rfl rfl hdue (fun v hv => Function.update_of_ne hv ..)
      (by simpa only [Function.update_self] using hself)

/-! ## What the proxy does -/

/-- A batch on the heap was allocated, and one without outstanding jobs has a completion function
that runs in a worker. -/
structure HeapOk (s : Sys κ) : Prop where
  allocated : ∀ ptr b, s.heap ptr = some b → ptr < s.nextPtr
  called : ∀ ptr b, s.heap ptr = some b → b.isJob = false → b.jobsOutstanding = 0 →
    b.complete.isSome = true ∧ b.completeInThread ≠ -1

theorem HeapOk.sameCells (h : s.HeapOk) (hs : SameCells s s') : s'.HeapOk := by
  have hold : ∀ ptr b', s'.heap ptr = some b' → ∃ b, s.heap ptr = some b ∧ b.isJob = b'.isJob ∧
      b.jobsOutstanding = b'.jobsOutstanding ∧ b.complete = b'.complete ∧
      b.completeInThread = b'.completeInThread := by
    intro ptr b' hb'
    have hmap := hs.heap ptr
    rw [hb', Option.map_some] at hmap
    obtain ⟨b, hb, heq⟩ := Option.map_eq_some_iff.1 hmap.symm
    simp only [Batch.mk.injEq] at heq
    exact ⟨b, hb, heq.2.2.2.2.2, heq.2.2.2.1, heq.2.2.1, heq.2.2.2.2.1⟩
  refine ⟨fun ptr b' hb' => ?_, fun ptr b' hb' hjob hzero => ?_⟩
  · obtain ⟨b, hb, _⟩ := hold ptr b' hb'
    rw [hs.nextPtr]
    exact h.allocated ptr b hb
  · obtain ⟨b, hb, hjob', hout, hcomplete, hthread⟩ := hold ptr b' hb'
    rw [← hcomplete, ← hthread]
    exact h.called ptr b hb (hjob'.trans hjob) (hout.trans hzero)

/-- A job has returned: its batch is deleted, or has one outstanding job less.  If that was the
last one, the completion function goes in a queue. -/
theorem jobReturned_cases (s : Sys κ) (bj : BatchJob) (reply : Bool) :
    (∃ log, s.jobReturned bj reply =
      { s with heap := Function.update s.heap bj.ptr none, log := log }) ∨
    s.jobReturned bj reply = s ∨
    ∃ b, s.heap bj.ptr = some b ∧ b.isJob = false ∧
      let b' := { b with jobsOutstanding := b.jobsOutstanding - 1 }
      let s' := { s with heap := Function.update s.heap bj.ptr (some b') }
      (b'.jobsOutstanding ≠ 0 ∧ s.jobReturned bj reply = s' ∨
      b'.jobsOutstanding = 0 ∧ b.complete.isSome = true ∧ b.completeInThread ≠ -1 ∧
        s.jobReturned bj reply =
          { s' with pool := s.pool.pushJob b.completeInThread reply ⟨bj.ptr, -1⟩ }) := by
  unfold jobReturned
  split
  · exact Or.inl ⟨_, rfl⟩
  split
  · exact Or.inr (Or.inl rfl)
  rename_i b hb
  cases hjob : b.isJob with
  | true =>
    simp only [Batch.jobFinished, hjob, if_true, delete, Function.update_idem]
    exact Or.inl ⟨_, rfl⟩
  | false =>
    simp only [Batch.jobFinished, hjob, Bool.false_eq_true, if_false]
    by_cases hzero : b.jobsOutstanding - 1 = 0
    · cases hcomplete : b.complete.isSome with
      | false =>
        simp only [hzero, ne_eq, not_true, if_false, Bool.false_eq_true, delete,
          Function.update_idem]
        exact Or.inl ⟨_, rfl⟩
      | true =>
        by_cases hthread : b.completeInThread = -1
        · simp only [hzero, ne_eq, not_true, if_false, if_true, hthread, delete,
            Function.update_idem]
          exact Or.inl ⟨_, rfl⟩
        · simp only [hzero, ne_eq, not_true, if_false, if_true, hthread]
          exact Or.inr
            (Or.inr ⟨b, hb, hjob, Or.inr ⟨hzero, hcomplete, hthread, by rw [hzero, hjob]⟩⟩)
    · simp only [hzero, ne_eq, not_false_eq_true, if_true]
      exact Or.inr (Or.inr ⟨b, hb, hjob, Or.inl ⟨hzero, by rw [hjob]⟩⟩)

/-- One cell of the heap changes. -/
theorem HeapOk.update (h : s.HeapOk) {ptr : ℕ} {o : Option Batch}
    (hheap : s'.heap = Function.update s.heap ptr o) (hnext : s'.nextPtr = s.nextPtr)
    (ho : ∀ b, o = some b → ptr < s.nextPtr ∧ (b.isJob = false → b.jobsOutstanding = 0 →
      b.complete.isSome = true ∧ b.completeInThread ≠ -1)) : s'.HeapOk := by
  refine ⟨fun q b hb => ?_, fun q b hb => ?_⟩ <;> rw [hheap] at hb
  · rw [hnext]
    rcases eq_or_ne q ptr with rfl | hne
    · rw [Function.update_self] at hb
      exact (ho b hb).1
    · rw [Function.update_of_ne hne] at hb
      exact h.allocated q b hb
  · rcases eq_or_ne q ptr with rfl | hne
    · rw [Function.update_self] at hb
      exact (ho b hb).2
    · rw [Function.update_of_ne hne] at hb
      exact h.called q b hb

theorem HeapOk.jobReturned (h : s.HeapOk) (bj : BatchJob) (reply : Bool) :
    (s.jobReturned bj reply).HeapOk := by
  rcases s.jobReturned_cases bj reply with
    ⟨_, heq⟩ | heq | ⟨b, hb, hjob, ⟨hne, heq⟩ | ⟨hzero, hcomplete, hthread, heq⟩⟩ <;> rw [heq]
  · exact h.update rfl rfl (by simp)
  · exact h
  · refine h.update rfl rfl ?_
    rintro _ ⟨⟩
    exact ⟨h.allocated _ b hb, fun _ hzero => absurd hzero hne⟩
  · refine h.update rfl rfl ?_
    rintro _ ⟨⟩
    exact ⟨h.allocated _ b hb, fun _ _ => ⟨hcomplete, hthread⟩⟩

/-- The completion functions that are due, when one cell changes: this one is due afterwards only
if it was before, and if it is not any more, there is one less. -/
theorem callsDue_update {ptr : ℕ} {b : Batch} {o : Option Batch} (hb : s.heap ptr = some b)
    (hlt : ptr < s.nextPtr) (hheap : s'.heap = Function.update s.heap ptr o)
    (hnext : s'.nextPtr = s.nextPtr) :
    s'.callsDue + (if b.due then 1 else 0) = s.callsDue + if o.any Batch.due then 1 else 0 := by
  have hsplit : ∀ g : ℕ → Option Batch,
      ((Finset.range s.nextPtr).filter fun q => (g q).any Batch.due).card =
      (if (g ptr).any Batch.due then 1 else 0) +
        (((Finset.range s.nextPtr).erase ptr).filter fun q => (g q).any Batch.due).card := by
    intro g
    conv_lhs => rw [← Finset.insert_erase (Finset.mem_range.2 hlt), Finset.filter_insert]
    split
    · rw [Finset.card_insert_of_notMem (by simp), Nat.add_comm]
    · rw [Nat.zero_add]
  have hrest : (((Finset.range s.nextPtr).erase ptr).filter fun q => (s'.heap q).any Batch.due) =
      ((Finset.range s.nextPtr).erase ptr).filter fun q => (s.heap q).any Batch.due := by
    refine Finset.filter_congr fun q hq => ?_
    rw [hheap, Function.update_of_ne (Finset.ne_of_mem_erase hq)]
  rw [callsDue, callsDue, hnext, hsplit, hsplit, hrest, hheap, Function.update_self, hb,
    Option.any_some]
  omega

/-- At most, the completion function that was due goes in a queue. -/
theorem HeapOk.jobsLeft_jobReturned (h : s.HeapOk) (bj : BatchJob) (reply : Bool) :
    (s.jobReturned bj reply).jobsLeft ≤ s.jobsLeft := by
  rw [jobsLeft, jobsLeft]
  rcases s.jobReturned_cases bj reply with
    ⟨log, heq⟩ | heq | ⟨b, hb, hjob, ⟨hne, heq⟩ | ⟨hzero, hcomplete, hthread, heq⟩⟩
  · have hle : (s.jobReturned bj reply).callsDue ≤ s.callsDue := by
      rw [heq]
      refine Finset.card_le_card fun ptr hptr => ?_
      rw [Finset.mem_filter] at hptr ⊢
      refine ⟨hptr.1, ?_⟩
      rcases eq_or_ne ptr bj.ptr with rfl | hne
      · simp [Function.update_self] at hptr
      · simpa [Function.update_of_ne hne] using hptr.2
    have hpool : (s.jobReturned bj reply).pool = s.pool := by rw [heq]
    rw [hpool]
    omega
  · rw [heq]
  · have hheap : (s.jobReturned bj reply).heap = _ := congrArg Sys.heap heq
    have hcard := callsDue_update hb (h.allocated _ b hb) hheap (by rw [heq])
    have hpool : (s.jobReturned bj reply).pool = s.pool := by rw [heq]
    have hdue : { b with jobsOutstanding := b.jobsOutstanding - 1 }.due = true → b.due = true := by
      simp only [Batch.due, Bool.and_eq_true, decide_eq_true_eq]
      exact fun hdue => ⟨hdue.1, by omega⟩
    rw [hpool]
    rw [Option.any_some] at hcard
    split at hcard <;> split at hcard <;> first | omega | simp_all
  · have hheap : (s.jobReturned bj reply).heap = _ := congrArg Sys.heap heq
    have hcard := callsDue_update hb (h.allocated _ b hb) hheap (by rw [heq])
    have hwaiting : (s.jobReturned bj reply).pool.waitingJobs ≤ s.pool.waitingJobs + 1 := by
      rw [heq]
      exact s.pool.waitingJobs_pushJob_le ..
    replace hzero : b.jobsOutstanding - 1 = 0 := hzero
    have hb1 : b.due = true := by
      simp only [Batch.due, hcomplete, Bool.true_and, decide_eq_true_eq]
      omega
    have hb0 : { b with jobsOutstanding := b.jobsOutstanding - 1 }.due = false := by
      simp only [Batch.due, Bool.and_eq_false_iff, decide_eq_false_iff_not]
      exact Or.inr (by omega)
    rw [Option.any_some, hb1, hb0] at hcard
    simp only [if_true, Bool.false_eq_true, if_false] at hcard
    omega

theorem retire_frame (s : Sys κ) (w : Worker) :
    (s.retire w).pool.waitingJobs = s.pool.waitingJobs ∧ (s.retire w).stopped = s.stopped := by
  unfold retire
  split
  · exact ⟨rfl, rfl⟩
  · cases w <;> exact ⟨rfl, rfl⟩

theorem stopped_jobReturned (s : Sys κ) (bj : BatchJob) (reply : Bool) :
    (s.jobReturned bj reply).stopped = s.stopped := by
  rcases s.jobReturned_cases bj reply with
    ⟨_, heq⟩ | heq | ⟨b, _, _, ⟨_, heq⟩ | ⟨_, _, _, heq⟩⟩ <;> rw [heq]

variable [DecidableEq κ]

theorem release_frame (s : Sys κ) (w : Worker) (run : RunInfo κ) :
    (s.release w run).pool.waitingJobs = s.pool.waitingJobs ∧
    (s.release w run).threads = s.threads ∧ (s.release w run).stopped = s.stopped := by
  unfold release
  split
  · cases w with
    | tagged t => exact ⟨s.pool.waitingJobs_modify t fun _ => rfl, rfl, rfl⟩
    | untagged i => cases run.isReplyJob <;> exact ⟨rfl, rfl, rfl⟩
  · split <;> exact ⟨rfl, rfl, rfl⟩

/-- The batch of a job that has returned is looked after, and nothing else on the heap changes. -/
theorem HeapOk.workerRan (h : s.HeapOk) (w : Worker) (run : RunInfo κ) :
    (s.workerRan w run).jobsLeft ≤ s.jobsLeft ∧ (s.workerRan w run).HeapOk ∧
      (s.workerRan w run).stopped = s.stopped := by
  set s₁ :=
    { s with outstanding := Function.update s.outstanding w (s.outstanding w - 1) }.release w
    run with hs₁
  have hsame := sameBatches_release
    { s with outstanding := Function.update s.outstanding w (s.outstanding w - 1) } w run
  have hcells : SameCells s s₁ := .of_eq (release_frame ..).2.2 hsame.nextPtr hsame.heap
  have hleft₁ : s₁.jobsLeft = s.jobsLeft := by
    rw [jobsLeft, jobsLeft, hcells.callsDue, hs₁, (release_frame ..).1]
  have hretire : ∀ s₂ : Sys κ, (s₂.retire w).jobsLeft = s₂.jobsLeft ∧
      (s₂.HeapOk → (s₂.retire w).HeapOk) ∧ (s₂.retire w).stopped = s₂.stopped := by
    intro s₂
    have hsame := sameBatches_retire s₂ w
    have hcells : SameCells s₂ (s₂.retire w) := .of_eq (retire_frame ..).2 hsame.nextPtr hsame.heap
    exact ⟨by rw [jobsLeft, jobsLeft, hcells.callsDue, (retire_frame ..).1],
      fun h₂ => h₂.sameCells hcells, hcells.stopped⟩
  unfold Sys.workerRan
  dsimp only
  rw [← hs₁, (hretire _).1, (hretire _).2.2]
  split
  · rename_i bj hbj
    have hlog : SameCells s { s₁ with log := s₁.log ++ [LogEntry.finished bj] } :=
      ⟨hcells.stopped, hcells.nextPtr, hcells.heap⟩
    have h₁ := h.sameCells hlog
    refine ⟨?_, (hretire _).2.1 (h₁.jobReturned bj run.isReplyJob), ?_⟩
    · exact (h₁.jobsLeft_jobReturned bj run.isReplyJob).trans_eq hleft₁
    · exact (stopped_jobReturned ..).trans hlog.stopped
  · exact ⟨hleft₁.le, (hretire _).2.1 (h.sameCells hcells), hcells.stopped⟩

theorem work_workerRan (h : s.HeapOk) {w : Worker} {run : RunInfo κ} {rest : List WorkerReply}
    (hrun : s.pool.runInfo w = some run) (houtbox : (s.threads w).outbox = .ran :: rest) :
    ((s.takeReply w rest).workerRan w run).work + 1 ≤ s.work := by
  have hleft := (HeapOk.workerRan (s := s.takeReply w rest) ⟨h.allocated, h.called⟩ w run).1
  have hroster : ((s.takeReply w rest).workerRan w run).pool.roster = s.pool.roster := by
    ext v
    rw [Pool.mem_roster, Pool.mem_roster, runInfo_workerRan]
    rfl
  have hthreads := (sameBooks_workerRan (s.takeReply w rest) w run).threads
  have hsum : ((s.takeReply w rest).workerRan w run).threadWork + 1 ≤ s.threadWork := by
    rw [threadWork, threadWork, hroster, hthreads]
    -- Without the `RAN`, and perhaps with a `QUIT`.
    refine sum_work_add_le (w := w) (by rw [Pool.mem_roster, hrun]; rfl) (fun v hv => ?_) ?_
    · unfold retire
      split
      · rw [routeControl, (release_frame ..).2.1]
        exact (Function.update_of_ne hv ..).trans (Function.update_of_ne hv ..)
      · cases w <;>
        · rw [(release_frame ..).2.1]
          exact Function.update_of_ne hv ..
    · unfold retire
      split
      · simp only [routeControl, (release_frame ..).2.1, takeReply, Function.update_self,
          Thread.work,
          houtbox, WorkerReply.steps, WorkerCommand.steps, List.map_append, List.sum_append,
          List.map_cons, List.map_nil, List.sum_cons, List.sum_nil]
        omega
      · cases w <;>
        · simp only [(release_frame ..).2.1, takeReply, Function.update_self, Thread.work, houtbox,
            WorkerReply.steps, List.map_cons, List.sum_cons]
          omega
  have hleft' : (s.takeReply w rest).jobsLeft = s.jobsLeft := rfl
  rw [work, work]
  omega

theorem work_proxyWorkerMessage (h : s.HeapOk) {w : Worker}
    (hs : s.proxyWorkerMessage w = some s') : s'.work + 1 ≤ s.work := by
  obtain ⟨run, rest, hrun, ⟨houtbox, rfl⟩ | ⟨houtbox, rfl⟩⟩ := proxyWorkerMessage_cases hs
  · exact work_workerRan h hrun houtbox
  · refine work_of_thread (w := w) (by rw [hrun]; rfl) (roster_modifyRun ..)
      (Pool.waitingJobs_modifyRun ..) rfl (fun v hv => Function.update_of_ne hv ..) ?_
    simp only [takeReply, Function.update_self, Thread.work, houtbox, WorkerReply.steps,
      List.map_cons, List.sum_cons]
    omega

/-! ## The pass over the queues -/

omit [DecidableEq κ] in
theorem sameCells_proxyRunWorker (s : Sys κ) (w : Worker) : SameCells s (s.proxyRunWorker w) := by
  unfold proxyRunWorker
  split
  · split <;> exact .of_eq rfl rfl rfl
  · exact .refl s

omit [DecidableEq κ] in
theorem SameCells.trans {s'' : Sys κ} (h : SameCells s s') (h' : SameCells s' s'') :
    SameCells s s'' :=
  ⟨h'.stopped.trans h.stopped, h'.nextPtr.trans h.nextPtr,
    fun ptr => (h'.heap ptr).trans (h.heap ptr)⟩

theorem sameCells_dispatch (s : Sys κ) (k : Kind κ) (l : Load κ) :
    SameCells s (s.dispatch k l) := by
  have h := sameCells_proxyRunWorker
    ({ s with pool := s.pool.getIdleWorker.1 }.load (.untagged s.pool.getIdleWorker.2) l)
    (.untagged s.pool.getIdleWorker.2)
  exact ⟨h.stopped, h.nextPtr, h.heap⟩

omit [DecidableEq κ] in
theorem sameCells_startTagged (s : Sys κ) (t : ℕ) : SameCells s (s.startTagged t) := by
  unfold startTagged
  split
  · split
    · dsimp only
      refine SameCells.trans ?_ (sameCells_proxyRunWorker _ _)
      exact .of_eq rfl rfl rfl
    · exact .refl s
  · exact .refl s

theorem sameCells_proxyProcessQueue (cfg : PoolConfig κ) (s : Sys κ) :
    SameCells s (s.proxyProcessQueue cfg) := by
  refine proxyProcessQueue_induction (P := fun s' => SameCells s s') ?_ ?_ ?_ (.refl s)
  · exact fun s₁ t h => h.trans (sameCells_startTagged s₁ t)
  · intro s₁ reply bj rest h _ _
    have hset : SameCells s₁ (s₁.setJobQueue reply rest) := .of_eq rfl rfl rfl
    exact (h.trans hset).trans (sameCells_dispatch ..)
  · intro s₁ pre c post h _ _
    have hdispatch := h.trans (sameCells_dispatch s₁ (.category c.cat) (.pending c))
    exact ⟨hdispatch.stopped, hdispatch.nextPtr, hdispatch.heap⟩

theorem waitingJobs_dispatch (s : Sys κ) (k : Kind κ) (l : Load κ) :
    (s.dispatch k l).pool.waitingJobs = s.pool.waitingJobs := by
  obtain ⟨hbatch, hreply, htagged, _, hpending⟩ := s.dispatch_queues k l
  rw [Pool.waitingJobs, hbatch, hreply, htagged, hpending, Pool.waitingJobs]

variable [Fintype κ] {cfg : PoolConfig κ} {f : Worker → Phase}

/-- A job is handed to a worker. -/
theorem Inv.threadWork_dispatch (h : s.Inv cfg f) (k : Kind κ) (l : Load κ) :
    (s.dispatch k l).threadWork ≤ s.threadWork + 5 := by
  rcases hn : s.pool.idleWorkerCount with _ | m
  · have hnot : Worker.untagged s.pool.workers.length ∉ s.pool.roster := by
      simp [Pool.roster]
    rw [Sys.dispatch_new s k l hn, threadWork, threadWork]
    refine sum_work_le (w := .untagged s.pool.workers.length) ?_ (fun v hv => ?_) ?_
    · rw [Pool.roster, Pool.workers_addActive, Pool.taggedWorkers_addActive, List.length_append,
        List.length_singleton, Finset.range_add_one, Finset.image_insert, Finset.insert_union]
      exact subset_rfl
    · exact Function.update_of_ne hv ..
    · simp [Thread.work, ThreadStatus.steps, hnot]
  · have hlist := h.idle
    rw [hn] at hlist
    have hfits := h.fits (.untagged (s.pool.idleWorkers.getD m 0))
    rw [hlist.last_idle] at hfits
    obtain ⟨r, hr, hjoin⟩ : ∃ r, s.pool.workers[s.pool.idleWorkers.getD m 0]? = some r ∧
        r.joinable = true := Option.map_eq_some_iff.1 hfits.joinable
    have hmem : Worker.untagged (s.pool.idleWorkers.getD m 0) ∈ s.pool.roster := by
      rw [Pool.mem_roster, Pool.runInfo, hr]
      rfl
    rw [Sys.dispatch_idle s k l hn rfl hr hjoin, threadWork, threadWork]
    refine sum_work_le (w := .untagged (s.pool.idleWorkers.getD m 0)) (fun v hv => ?_)
      (fun v hv => ?_) ?_
    · refine Finset.mem_insert_of_mem ?_
      rw [Pool.mem_roster, Pool.runInfo_addActive] at hv
      rw [← roster_modifyRun s.pool (fun r => r.load l) (.untagged (s.pool.idleWorkers.getD m 0)),
        Pool.mem_roster]
      cases v <;> exact hv
    · exact Function.update_of_ne hv ..
    · simp only [hmem, if_true, Function.update_self]
      simp only [Thread.work, WorkerCommand.steps, List.map_append,
        List.sum_append, List.map_cons, List.map_nil, List.sum_cons, List.sum_nil]
      omega

/-- A job is taken out of a queue and handed to a worker. -/
theorem Inv.work_dispatch (h : s.Inv cfg f) (k : Kind κ) (l : Load κ) {s₀ : Sys κ}
    (hthreads : s.threadWork = s₀.threadWork) (hcells : SameCells s₀ s)
    (hthreads' : s'.threads = (s.dispatch k l).threads)
    (hroster : s'.pool.roster = (s.dispatch k l).pool.roster)
    (hcells' : SameCells (s.dispatch k l) s')
    (hwaiting : s'.pool.waitingJobs + 1 = s₀.pool.waitingJobs) : s'.work < s₀.work := by
  have hdue := ((hcells.trans (sameCells_dispatch s k l)).trans hcells').callsDue
  have hwork := h.threadWork_dispatch k l
  have hsame : s'.threadWork = (s.dispatch k l).threadWork := by
    rw [threadWork, threadWork, hthreads', hroster]
  rw [work, work, jobsLeft, jobsLeft, hsame, hdue]
  omega

theorem Inv.work_startTagged (h : s.Inv cfg f) (hopen : s.pool.maxWorkers ≠ 0) {t : ℕ}
    {tw : TaggedWorker κ} {bj : BatchJob} {rest : List BatchJob}
    (ht : s.pool.taggedWorkers[t]? = some tw) (hb : tw.busy = false) (hq : tw.queue = bj :: rest) :
    (s.startTagged t).work < s.work := by
  obtain ⟨_, hjoin⟩ := h.tagged_idle hopen ht hb
  have hdue := (sameCells_startTagged s t).callsDue
  have hlt : t < s.pool.taggedWorkers.length := (List.getElem?_eq_some_iff.1 ht).1
  have hroster : (s.startTagged t).pool.roster = s.pool.roster := by
    rw [Sys.startTagged_start s ht hb hq hjoin]
    simp only [Pool.roster, List.length_set]
  have hmem : Worker.tagged t ∈ s.pool.roster := by simp [Pool.roster, hlt]
  have hthreads : (s.startTagged t).threadWork ≤ s.threadWork + 5 := by
    rw [threadWork, threadWork, hroster, Sys.startTagged_start s ht hb hq hjoin]
    refine sum_work_le (w := .tagged t) (Finset.subset_insert ..)
      (fun v hv => Function.update_of_ne hv ..) ?_
    simp only [hmem, if_true, Function.update_self]
    simp only [Thread.work, WorkerCommand.steps, List.map_append,
      List.sum_append, List.map_cons, List.map_nil, List.sum_cons, List.sum_nil]
    omega
  have hwaiting : (s.startTagged t).pool.waitingJobs + 1 = s.pool.waitingJobs := by
    rw [Sys.startTagged_start s ht hb hq hjoin]
    have := Transition.sum_map_set (fun tw : TaggedWorker κ => tw.queue.length) ht
      { tw with run := tw.run.load (.batch bj false true), busy := true, queue := rest }
    simp only [hq, List.length_cons] at this
    simp only [Pool.waitingJobs]
    omega
  rw [work, work, jobsLeft, jobsLeft, hdue]
  omega

/-- A look at the queues starts nothing and changes nothing, or there is less to do afterwards. -/
theorem Inv.work_proxyProcessQueue (h : s.Inv cfg f) :
    s.proxyProcessQueue cfg = s ∨ (s.proxyProcessQueue cfg).work < s.work := by
  by_cases hopen : s.pool.maxWorkers = 0
  · rw [Sys.proxyProcessQueue, if_pos hopen]
    exact Or.inl rfl
  have hlt : ∀ {s₁ s₂ : Sys κ}, s₁ = s ∨ s₁.work < s.work → s₂.work < s₁.work →
      s₂ = s ∨ s₂.work < s.work := by
    rintro s₁ s₂ (rfl | h₁) h₂
    · exact Or.inr h₂
    · exact Or.inr (h₂.trans h₁)
  refine (proxyProcessQueue_induction (P := fun s' => (∃ f', s'.Inv cfg f') ∧
    s'.pool.maxWorkers ≠ 0 ∧ (s' = s ∨ s'.work < s.work)) ?_ ?_ ?_
    ⟨⟨f, h⟩, hopen, Or.inl rfl⟩).2.2
  · rintro s₁ t ⟨⟨f₁, hinv⟩, hmax, hwork⟩
    rcases s₁.startTagged_cases t with ⟨heq, _⟩ | ⟨tw, bj, rest, ht, hb, hq⟩
    · rw [heq]
      exact ⟨⟨f₁, hinv⟩, hmax, hwork⟩
    · obtain ⟨_, hloaded, _, hinv'⟩ := hinv.startTagged_start hmax ht hb hq
      exact ⟨⟨_, hinv'⟩, hloaded.maxWorkers.trans_ne hmax,
        hlt hwork (hinv.work_startTagged hmax ht hb hq)⟩
  · rintro s₁ reply bj rest ⟨⟨f₁, hinv⟩, hmax, hwork⟩ hq hmay
    have hsame := s₁.sameBooks_setJobQueue reply rest
    obtain ⟨i, q, _, _, hloaded, hinv'⟩ := (hinv.sameBooks hsame).dispatch
      (.batch bj reply false) fun _ => hsame.slot (slot_of_mayStart hmay)
    refine ⟨⟨_, hinv'⟩, hloaded.of_setJobQueue.maxWorkers.trans_ne hmax, hlt hwork ?_⟩
    have hthreads : (s₁.setJobQueue reply rest).threadWork = s₁.threadWork := by
      cases reply <;> rfl
    refine (hinv.sameBooks hsame).work_dispatch (jobKind reply) (.batch bj reply false) hthreads
      (.of_eq rfl rfl rfl) rfl rfl (.refl _) ?_
    rw [waitingJobs_dispatch]
    cases reply <;> simp_all [jobQueue, setJobQueue, Pool.waitingJobs] <;> omega
  · rintro s₁ pre c post ⟨⟨f₁, hinv⟩, hmax, hwork⟩ hq hmay
    obtain ⟨i, q, _, _, hloaded, hinv'⟩ := hinv.dispatch (.pending c)
      fun _ => slot_of_mayStart hmay
    obtain ⟨_, _, _, hqueued, hpending⟩ := s₁.dispatch_queues (.category c.cat) (.pending c)
    have hqueue := hinv.queued
    rw [hq] at hqueue
    have hremove := hqueue.remove
    rw [← hqueued] at hremove
    refine ⟨⟨_, hinv'.setPending hremove⟩, hloaded.maxWorkers.trans_ne hmax, hlt hwork ?_⟩
    refine hinv.work_dispatch (.category c.cat) (.pending c) rfl (.refl s₁) rfl rfl
      (.of_eq rfl rfl rfl) ?_
    have hwaiting := waitingJobs_dispatch s₁ (.category c.cat) (.pending c)
    simp only [Pool.waitingJobs, hpending, hq, List.length_append, List.length_cons,
      startPending, Pool.addQueued] at hwaiting ⊢
    omega

/-! ## Every step -/

omit [DecidableEq κ] [Fintype κ] in
theorem HeapOk.alloc (h : s.HeapOk) {spec : BatchSpec} (hne : spec.jobs ≠ []) :
    (s.alloc spec).HeapOk := by
  have hlength : spec.jobs.length ≠ 0 := by simpa using hne
  refine ⟨fun ptr b hb => ?_, fun ptr b hb => ?_⟩ <;> rw [Sys.alloc] at hb <;> dsimp only at hb
  · show ptr < s.nextPtr + 1
    rcases eq_or_ne ptr s.nextPtr with rfl | hne'
    · omega
    · rw [Function.update_of_ne hne'] at hb
      have := h.allocated ptr b hb
      omega
  · rcases eq_or_ne ptr s.nextPtr with rfl | hne'
    · rw [Function.update_self] at hb
      cases hb
      exact fun _ hzero => absurd hzero (by simpa [Batch.ofSpec] using hlength)
    · rw [Function.update_of_ne hne'] at hb
      exact h.called ptr b hb

omit [DecidableEq κ] [Fintype κ] in
theorem stopped_foldl_quit (ws : List Worker) (s : Sys κ) :
    (ws.foldl (routeControl · .quit) s).stopped = s.stopped := by
  induction ws generalizing s with
  | nil => rfl
  | cons w ws ih => exact ih (s.routeControl .quit w)

omit [DecidableEq κ] [Fintype κ] in
theorem sameCells_proxyControlQuit (s : Sys κ) : SameCells s s.proxyControlQuit := by
  have hsame := sameBatches_proxyControlQuit s
  refine .of_eq ?_ hsame.nextPtr hsame.heap
  unfold proxyControlQuit
  dsimp only
  rw [stopped_foldl_quit]
  exact stopped_foldl_quit ..

omit [Fintype κ] in
/-- Every step leaves the heap as it should be, and none but `stop` ends the proxy. -/
theorem HeapOk.step {e : PoolEvent κ} (h : s.HeapOk) (hs : Sys.step cfg s e = some s') :
    s'.HeapOk ∧ (e ≠ .stop → s'.stopped = s.stopped) := by
  have hcells : SameCells s s' → s'.HeapOk ∧ (e ≠ .stop → s'.stopped = s.stopped) :=
    fun hcells => ⟨h.sameCells hcells, fun _ => hcells.stopped⟩
  have hqueue : ∀ p, SameCells s (s.queueCommand cfg p) := by
    intro p
    unfold queueCommand
    split <;> exact .of_eq rfl rfl rfl
  cases e with
  | command a =>
    refine hcells ?_
    rw [← step_command hs, proxyToWorker]
    split
    · exact hqueue _
    split
    · exact .refl s
    · exact sameCells_dispatch ..
  | inject t =>
    refine hcells ?_
    rw [← step_inject hs, proxyInjectTask]
    split
    · exact hqueue _
    · exact sameCells_dispatch ..
  | submit spec =>
    obtain ⟨hvalid, rfl⟩ := step_submit_cases hs
    have halloc := h.alloc (valid_iff hvalid).1
    rw [submit_eq]
    exact ⟨⟨halloc.allocated, halloc.called⟩, fun _ => rfl⟩
  | replyJob callback =>
    rw [← step_replyJob hs]
    have halloc : (s.alloc { jobs := [(callback, 0)], isJob := true }).HeapOk := h.alloc (by simp)
    exact ⟨⟨halloc.allocated, halloc.called⟩, fun _ => rfl⟩
  | processQueue => exact hcells (step_processQueue hs ▸ sameCells_proxyProcessQueue cfg s)
  | workerMessage w =>
    obtain ⟨run, rest, _, ⟨_, rfl⟩ | ⟨_, rfl⟩⟩ := proxyWorkerMessage_cases (step_workerMessage hs)
    · obtain ⟨_, hheap, hstopped⟩ :=
        HeapOk.workerRan (s := s.takeReply w rest) ⟨h.allocated, h.called⟩ w run
      exact ⟨hheap, fun _ => hstopped⟩
    · exact hcells (.of_eq rfl rfl rfl)
  | quit =>
    obtain ⟨_, rfl⟩ := step_quit_cases hs
    exact hcells (sameCells_proxyControlQuit s)
  | stop =>
    obtain ⟨_, _, rfl⟩ := step_stop_cases hs
    exact ⟨⟨h.allocated, h.called⟩, fun hne => absurd rfl hne⟩
  | receive w =>
    refine hcells ?_
    rcases workerReceive_cases (step_receive hs) with ⟨run, _, _, rfl⟩ |
      ⟨run, cmd, rest, _, _, _, rfl⟩ | ⟨cmd, rest, _, _, rfl⟩
    · exact sameCells_beginJob ..
    · cases cmd with
      | run =>
        have hbegin := sameCells_beginJob { s with
          threads := Function.update s.threads w { s.threads w with inbox := rest } } w run
        exact ⟨hbegin.stopped, hbegin.nextPtr, hbegin.heap⟩
      | quit => exact .of_eq rfl rfl rfl
      | start => exact .of_eq rfl rfl rfl
    · exact .of_eq rfl rfl rfl
  | finish w left r => exact hcells (sameCells_workerFinish (step_finish hs))

/-- What the argument needs of a state. -/
structure Sound (cfg : PoolConfig κ) (s : Sys κ) : Prop where
  inv : ∃ f, s.Inv cfg f ∧ s.BatchesFit cfg f
  heap : s.HeapOk

theorem Sound.step {e : PoolEvent κ} (h : s.Sound cfg) (hs : Sys.step cfg s e = some s') :
    s'.Sound cfg := by
  obtain ⟨f, hinv, hfit⟩ := h.inv
  exact ⟨hfit.step hinv hs, (h.heap.step hs).1⟩

theorem sound_of_run {es : List (PoolEvent κ)}
    (hrun : Transition.run (Sys.step cfg) (init cfg) es = some s) :
    s.Sound cfg ∧ (.stop ∉ es → s.stopped = false) := by
  refine Transition.run_induction_history (P := fun es s => s.Sound cfg ∧
    (.stop ∉ es → s.stopped = false)) ?_ ?_ hrun
  · exact ⟨⟨⟨_, init_inv cfg, batchesFit_init cfg⟩,
      ⟨fun _ _ hb => (by cases hb), fun _ _ hb => (by cases hb)⟩⟩, fun _ => rfl⟩
  · intro es s e s' _ ⟨h, hstopped⟩ hs
    refine ⟨h.step hs, fun hstop => ?_⟩
    simp only [List.mem_append, List.mem_singleton, not_or] at hstop
    exact ((h.heap.step hs).2 (Ne.symm hstop.2)).trans (hstopped hstop.1)

/-- The proxy only stops after a `QUIT`. -/
theorem quit_of_stop {es : List (PoolEvent κ)}
    (hrun : Transition.run (Sys.step cfg) (init cfg) es = some s) (hstop : .stop ∈ es) :
    .quit ∈ es := by
  obtain ⟨pre, post, rfl⟩ := List.append_of_mem hstop
  obtain ⟨m, hm, hpost⟩ := Transition.run_append_eq_some.1 hrun
  obtain ⟨_, hs, _⟩ := Transition.run_cons_eq_some.1 hpost
  have hquit := (maxWorkers_eq_zero_iff hm).1 (step_stop_cases hs).1
  exact List.mem_append_left _ hquit

theorem Core.runInfo_isSome (h : s.Core cfg f) {w : Worker} (hw : f w ≠ .absent) :
    (s.pool.runInfo w).isSome = true := by
  have hjoin : (s.pool.runInfo w).map RunInfo.joinable = (f w).joinable := (h.fits w).joinable
  rw [← Option.isSome_map (f := RunInfo.joinable), hjoin]
  cases hp : f w <;> first | rfl | exact absurd hp hw

/-- A worker that takes a message is one that the proxy has a record of. -/
theorem Core.runInfo_of_receive (h : s.Core cfg f) {w : Worker}
    (hs : s.workerReceive w = some s') : (s.pool.runInfo w).isSome = true := by
  rcases workerReceive_cases hs with ⟨_, hrun, _⟩ | ⟨_, _, _, hrun, _⟩ | ⟨_, _, hstatus, _⟩
  · rw [hrun]; rfl
  · rw [hrun]; rfl
  · refine h.runInfo_isSome fun habsent => ?_
    have hfits := (h.fits w).status
    rw [habsent, show (s.view w).status = .starting from hstatus] at hfits
    simp [Phase.status] at hfits

/-- **The steps of the pool's own use up its work.** -/
theorem settles (cfg : PoolConfig κ) : Transition.Settles (Sys.step cfg) (PoolEvent.isOwn · = true)
    (Sound cfg) PoolEvent.cost Sys.work := by
  have hpay : ∀ (s : Sys κ) (e : PoolEvent κ) (s' : Sys κ), s.Sound cfg → e.isOwn = true →
      Sys.step cfg s e = some s' → e = .processQueue ∧ s' = s ∨ e.cost + s'.work ≤ s.work ∧
        s'.work < s.work := by
    intro s e s' h hown hs
    obtain ⟨f, hinv, _⟩ := h.inv
    have hone : e.cost ≤ 1 → s'.work + 1 ≤ s.work → e = .processQueue ∧ s' = s ∨
        e.cost + s'.work ≤ s.work ∧ s'.work < s.work := fun hcost hle => Or.inr ⟨by omega, by omega⟩
    cases e with
    | processQueue =>
      have hs := step_processQueue hs
      rcases hinv.work_proxyProcessQueue with heq | hlt
      · exact Or.inl ⟨rfl, hs.symm.trans heq⟩
      · exact hone (Nat.zero_le 1) (hs ▸ hlt)
    | workerMessage w => exact hone le_rfl (work_proxyWorkerMessage h.heap (step_workerMessage hs))
    | receive w =>
      have hs := step_receive hs
      exact hone le_rfl (work_workerReceive (hinv.runInfo_of_receive hs) hs)
    | finish w left r => exact hone le_rfl (work_workerFinish (step_finish hs))
    | command a => cases hown
    | inject t => cases hown
    | submit spec => cases hown
    | replyJob c => cases hown
    | quit => cases hown
    | stop => cases hown
  refine ⟨fun s e s' h _ hs => h.step hs, fun s e s' h hown hs => ?_, fun s e s' h hown hs => ?_⟩
  · rcases hpay s e s' h hown hs with ⟨rfl, rfl⟩ | ⟨hle, _⟩
    · exact Nat.le_of_eq (Nat.zero_add _)
    · exact hle
  · rcases hpay s e s' h hown hs with ⟨_, rfl⟩ | ⟨_, hlt⟩
    · exact Or.inl rfl
    · exact Or.inr hlt

end Sys

end OxenMQ
