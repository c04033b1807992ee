import OxenMQ.Workers.Batches
import OxenMQ.Workers.Books

/-!
# What the log says about a batch

`Sys.LifeCycle` is the life cycle of a batch in terms of the log of the system and of the queues and
records at its end: nothing is dispatched, run or deleted twice, everything happens in its place and
in order, the completion function gets the results of the jobs, and after a batch has been deleted
nothing refers to it.  It holds for every batch in every run.
-/

set_option autoImplicit false

namespace OxenMQ

open ForkJoin

variable {κ : Type}

namespace LogEntry

/-- Is a worker given this job? -/
def isDispatch (bj : BatchJob) : LogEntry κ → Bool
  | .dispatched _ (.batch bj' _ _) => decide (bj' = bj)
  | _ => false

/-- Has this job been run? -/
def isExecution (bj : BatchJob) : LogEntry κ → Bool
  | .executed bj' _ => decide (bj' = bj)
  | _ => false

/-- Is the completion function of this batch called? -/
def isCompletion (ptr : ℕ) : LogEntry κ → Bool
  | .completed ptr' _ _ => decide (ptr' = ptr)
  | _ => false

def isDeletion (ptr : ℕ) : LogEntry κ → Bool
  | .deleted ptr' => decide (ptr' = ptr)
  | _ => false

section Inversion

variable {ptr : ℕ} {bj : BatchJob} {e : LogEntry κ}

theorem eq_of_isDispatch (h : e.isDispatch bj = true) :
    ∃ w reply tagged, e = .dispatched w (.batch bj reply tagged) := by
  unfold isDispatch at h
  split at h
  · rw [of_decide_eq_true h]
    exact ⟨_, _, _, rfl⟩
  · cases h

theorem eq_of_isExecution (h : e.isExecution bj = true) : ∃ r, e = .executed bj r := by
  unfold isExecution at h
  split at h
  · rw [of_decide_eq_true h]
    exact ⟨_, rfl⟩
  · cases h

theorem eq_of_isCompletion (h : e.isCompletion ptr = true) :
    ∃ w results, e = .completed ptr w results := by
  unfold isCompletion at h
  split at h
  · rw [of_decide_eq_true h]
    exact ⟨_, _, rfl⟩
  · cases h

theorem eq_of_isDeletion (h : e.isDeletion ptr = true) : e = .deleted ptr := by
  unfold isDeletion at h
  split at h
  · rw [of_decide_eq_true h]
  · cases h

end Inversion

/-! ## From the history of a batch back to the log -/

section About

variable {ptr : ℕ} {log : List (LogEntry κ)} {e : LogEntry κ} {ev : Event Worker JobResult ℤ}

@[simp] theorem about_dispatched (w : Worker) (q : Option ℕ) (reply tagged : Bool) :
    (.dispatched w (.batch ⟨ptr, jobNumber q⟩ reply tagged) : LogEntry κ).about ptr =
      some (.giveTo w q) := by
  simp [about, neg_one_le_jobNumber, jobPart_jobNumber]

@[simp] theorem about_finished (q : Option ℕ) :
    (.finished ⟨ptr, jobNumber q⟩ : LogEntry κ).about ptr = some (finishEvent q) := by
  simp [about, neg_one_le_jobNumber, jobPart_jobNumber]

@[simp] theorem about_executed (i : ℕ) (r : JobResult) :
    (.executed ⟨ptr, i⟩ r : LogEntry κ).about ptr = some (.run i r) := by
  simp [about]

@[simp] theorem about_completed (w : Option Worker) (results : List JobResult) :
    (.completed ptr w results : LogEntry κ).about ptr = some (.call w results) := by
  simp [about]

@[simp] theorem about_deleted : (.deleted ptr : LogEntry κ).about ptr = some .delete := by
  simp [about]

/-- The entries that are about the batch at `ptr`, and the event of its life that each of them is.
-/
inductive About (ptr : ℕ) : LogEntry κ → Event Worker JobResult ℤ → Prop
  | submitted (spec : BatchSpec) : About ptr (.submitted ptr spec) (.submit spec.places)
  | given (w : Worker) (i : ℕ) (reply tagged : Bool) :
    About ptr (.dispatched w (.batch ⟨ptr, i⟩ reply tagged)) (.give i w)
  | givenFinal (w : Worker) (reply tagged : Bool) :
    About ptr (.dispatched w (.batch ⟨ptr, -1⟩ reply tagged)) (.giveFinal w)
  | executed (i : ℕ) (r : JobResult) : About ptr (.executed ⟨ptr, i⟩ r) (.run i r)
  | finished (i : ℕ) : About ptr (.finished ⟨ptr, i⟩) (.finish i)
  | finishedFinal : About ptr (.finished ⟨ptr, -1⟩) .finishFinal
  | completed (w : Option Worker) (results : List JobResult) :
    About ptr (.completed ptr w results) (.call w results)
  | deleted : About ptr (.deleted ptr) .delete

theorem about_of_eq (h : e.about ptr = some ev) : About ptr e ev := by
  unfold about at h
  split at h
  · split at h
    · rename_i hptr
      subst hptr
      cases h
      exact .submitted _
    · cases h
  · rename_i w bj reply tagged
    split at h
    · rename_i hbj
      obtain ⟨_, n⟩ := bj
      obtain ⟨rfl, hle⟩ := hbj
      obtain ⟨q, rfl⟩ : ∃ q, n = jobNumber q := ⟨_, (jobNumber_jobPart hle).symm⟩
      rw [jobPart_jobNumber] at h
      cases q with
      | none => exact Option.some.inj h ▸ .givenFinal w reply tagged
      | some i => exact Option.some.inj h ▸ .given w i reply tagged
    · cases h
  · rename_i bj r
    split at h
    · rename_i hbj
      obtain ⟨_, n⟩ := bj
      obtain ⟨rfl, hpos⟩ := hbj
      obtain ⟨i, rfl⟩ := Int.eq_ofNat_of_zero_le hpos
      exact Option.some.inj h ▸ .executed i r
    · cases h
  · rename_i bj
    split at h
    · rename_i hbj
      obtain ⟨_, n⟩ := bj
      obtain ⟨rfl, hle⟩ := hbj
      obtain ⟨q, rfl⟩ : ∃ q, n = jobNumber q := ⟨_, (jobNumber_jobPart hle).symm⟩
      rw [jobPart_jobNumber] at h
      cases q with
      | none => exact Option.some.inj h ▸ .finishedFinal
      | some i => exact Option.some.inj h ▸ .finished i
    · cases h
  · split at h
    · rename_i hptr
      subst hptr
      cases h
      exact .completed _ _
    · cases h
  · split at h
    · rename_i hptr
      subst hptr
      cases h
      exact .deleted
    · cases h
  · cases h

/-- What happens to a batch stands in the log. -/
theorem exists_of_mem (h : ev ∈ log.filterMap (about ptr)) : ∃ e ∈ log, About ptr e ev := by
  obtain ⟨e, he, hev⟩ := List.mem_filterMap.1 h
  exact ⟨e, he, about_of_eq hev⟩

theorem mem_finish {q : Option ℕ} :
    finishEvent q ∈ log.filterMap (about ptr) ↔ .finished ⟨ptr, jobNumber q⟩ ∈ log := by
  refine ⟨fun h => ?_, fun h => List.mem_filterMap.2 ⟨_, h, about_finished q⟩⟩
  obtain ⟨e, he, hev⟩ := exists_of_mem h
  cases q <;> cases hev <;> exact he

theorem mem_call {w : Option Worker} {results : List JobResult} :
    .call w results ∈ log.filterMap (about ptr) ↔ .completed ptr w results ∈ log := by
  refine ⟨fun h => ?_, fun h => List.mem_filterMap.2 ⟨_, h, about_completed w results⟩⟩
  obtain ⟨e, he, hev⟩ := exists_of_mem h
  cases hev
  exact he

theorem mem_delete : .delete ∈ log.filterMap (about ptr) ↔ .deleted ptr ∈ log := by
  refine ⟨fun h => ?_, fun h => List.mem_filterMap.2 ⟨_, h, about_deleted⟩⟩
  obtain ⟨e, he, hev⟩ := exists_of_mem h
  cases hev
  exact he

theorem executed_of_mem {i : ℕ} {r : JobResult} (h : .run i r ∈ log.filterMap (about ptr)) :
    .executed ⟨ptr, i⟩ r ∈ log := by
  obtain ⟨e, he, hev⟩ := exists_of_mem h
  cases hev
  exact he

theorem dispatched_of_mem {w : Worker} (h : .giveFinal w ∈ log.filterMap (about ptr)) :
    ∃ reply tagged, .dispatched w (.batch ⟨ptr, -1⟩ reply tagged) ∈ log := by
  obtain ⟨e, he, hev⟩ := exists_of_mem h
  cases hev with
  | givenFinal _ reply tagged => exact ⟨reply, tagged, he⟩

/-- What cannot happen twice to the batch is not in the log twice. -/
theorem countP_le_of_about {p : LogEntry κ → Bool} {k : Key}
    (h : ∀ e, p e = true → ∃ ev, e.about ptr = some ev ∧ ev.key = some k) :
    log.countP p ≤ (log.filterMap (about ptr)).countP fun ev => decide (ev.key = some k) := by
  rw [List.countP_filterMap]
  refine List.countP_mono_left fun e _ he => ?_
  obtain ⟨ev, hev, hk⟩ := h e he
  simp [hev, hk]

end About

end LogEntry

/-! ## The life cycle -/

namespace Sys

/-- The proxy has processed the `RAN` of every job of the batch. -/
def AllFinished (ptr : ℕ) (spec : BatchSpec) (log : List (LogEntry κ)) : Prop :=
  ∀ i : ℕ, i < spec.jobs.length → .finished ⟨ptr, i⟩ ∈ log

/-- The completion function has returned, from a worker or in the proxy thread; without one, all
jobs have. -/
def Over (ptr : ℕ) (spec : BatchSpec) (log : List (LogEntry κ)) : Prop :=
  match spec.complete with
  | none => AllFinished ptr spec log
  | some _ => .finished ⟨ptr, -1⟩ ∈ log ∨ ∃ results, .completed ptr none results ∈ log

/-- The life cycle of a batch.  A thread number `0` stands for any untagged worker, `t + 1` for the
tagged worker `t`, and `-1`, of a completion function, for the proxy thread. -/
structure LifeCycle (s : Sys κ) (ptr : ℕ) (spec : BatchSpec) : Prop where
  /-- No job is dispatched twice, and neither is the completion function. -/
  dispatched_once : ∀ n, -1 ≤ n → s.log.countP (LogEntry.isDispatch ⟨ptr, n⟩) ≤ 1
  /-- A job goes to its place. -/
  dispatched_place : ∀ (w : Worker) (i : ℕ) (reply tagged : Bool),
    .dispatched w (.batch ⟨ptr, i⟩ reply tagged) ∈ s.log →
      ∃ job, spec.jobs[i]? = some job ∧ w.place = job.2
  /-- The completion function is dispatched after all jobs have returned, and goes to its place. -/
  completion_dispatched : ∀ pre w reply tagged post,
    s.log = pre ++ .dispatched w (.batch ⟨ptr, -1⟩ reply tagged) :: post →
      AllFinished ptr spec pre ∧ ∃ c, spec.complete = some c ∧ w.place = c.2
  executed_once : ∀ i : ℕ, s.log.countP (LogEntry.isExecution ⟨ptr, i⟩) ≤ 1
  completed_once : s.log.countP (LogEntry.isCompletion ptr) ≤ 1
  /-- The completion function is called after all jobs have returned, with what each of them has
  returned or thrown, and where it was dispatched to, or in the proxy thread if that is its
  place. -/
  completed : ∀ pre place results post, s.log = pre ++ .completed ptr place results :: post →
    AllFinished ptr spec pre ∧ results.length = spec.jobs.length ∧
    (∀ (i : ℕ) r, results[i]? = some r → .executed ⟨ptr, i⟩ r ∈ pre) ∧
    (match place with
    | some w => ∃ reply tagged, .dispatched w (.batch ⟨ptr, -1⟩ reply tagged) ∈ pre
    | none => ∃ c, spec.complete = some c ∧ c.2 = -1)
  deleted_once : s.log.countP (LogEntry.isDeletion ptr) ≤ 1
  /-- The batch is deleted when there is nothing more to do, and not before. -/
  deleted : ∀ pre post, s.log = pre ++ .deleted ptr :: post → Over ptr spec pre
  deleted_iff : .deleted ptr ∈ s.log ↔ Over ptr spec s.log
  /-- Nothing refers to a batch that has been deleted: no queue, and no worker that has a job. -/
  unreferenced : .deleted ptr ∈ s.log →
    (∀ thread, ∀ bj ∈ s.pool.queue thread, bj.ptr ≠ ptr) ∧
    ∀ w run bj, s.outstanding w ≠ 0 → s.pool.runInfo w = some run → run.batchJob = some bj →
      bj.ptr ≠ ptr

variable {cfg : PoolConfig κ} {s : Sys κ} {f : Worker → Phase} {ptr : ℕ} {spec : BatchSpec}

theorem allFinished_iff {log : List (LogEntry κ)} :
    (∀ i < spec.places.jobs.length, .finish i ∈ log.filterMap (LogEntry.about ptr)) ↔
      AllFinished ptr spec log := by
  have hlength : spec.places.jobs.length = spec.jobs.length := List.length_map ..
  rw [hlength]
  exact forall₂_congr fun i _ => LogEntry.mem_finish (q := some i)

theorem overIn_iff {log : List (LogEntry κ)} :
    OverIn spec.places (log.filterMap (LogEntry.about ptr)) ↔ Over ptr spec log := by
  unfold OverIn Over
  rcases hc : spec.complete with _ | c
  · simp only [BatchSpec.places, hc, Option.map_none]
    exact allFinished_iff
  · simp only [BatchSpec.places, hc, Option.map_some]
    exact or_congr (LogEntry.mem_finish (q := none)) (exists_congr fun _ => LogEntry.mem_call)

/-- What is true of every history is true of the log. -/
theorem lifeCycle_of_fits {life : Life Worker JobResult ℤ}
    (h : (s.batchView f ptr).Fits cfg.taggedThreads (some life)) (hspec : life.spec = spec.places)
    (hbusy : ∀ w, s.outstanding w ≠ 0 → (f w).busy = true) : s.LifeCycle ptr spec := by
  have haccepts : Accepts placement (s.log.filterMap (LogEntry.about ptr)) (some life) := h.accepts
  have hsplit : ∀ {pre post : List (LogEntry κ)} {e : LogEntry κ} {ev},
      s.log = pre ++ e :: post → e.about ptr = some ev →
      Accepts placement (pre.filterMap (LogEntry.about ptr) ++
        ev :: post.filterMap (LogEntry.about ptr)) (some life) := by
    intro pre post e ev hlog hev
    rw [hlog, List.filterMap_append, List.filterMap_cons_some hev] at haccepts
    exact haccepts
  have hdispatch :
      ∀ {pre post : List (LogEntry κ)} {w : Worker} {q : Option ℕ} {reply tagged : Bool},
      s.log = pre ++ .dispatched w (.batch ⟨ptr, jobNumber q⟩ reply tagged) :: post →
      Accepts placement (pre.filterMap (LogEntry.about ptr) ++
        .giveTo w q :: post.filterMap (LogEntry.about ptr)) (some life) := fun hlog =>
    hsplit hlog (LogEntry.about_dispatched _ _ _ _)
  have hjobs : ∀ {i : ℕ} {p : ℤ}, life.spec.jobs[i]? = some p →
      ∃ job, spec.jobs[i]? = some job ∧ job.2 = p := by
    intro i p hp
    rw [hspec, BatchSpec.places, List.getElem?_map] at hp
    exact Option.map_eq_some_iff.1 hp
  have hfinal : ∀ {p : ℤ}, life.spec.final = some p → ∃ c, spec.complete = some c ∧ c.2 = p := by
    intro p hp
    rw [hspec] at hp
    exact Option.map_eq_some_iff.1 hp
  have honce : ∀ {p : LogEntry κ → Bool} {k : Key},
      (∀ e, p e = true → ∃ ev, e.about ptr = some ev ∧ ev.key = some k) → s.log.countP p ≤ 1 :=
    fun h => (LogEntry.countP_le_of_about h).trans (haccepts.countP_le_one _)
  refine ⟨fun n hn => ?_, fun w i reply tagged hmem => ?_, fun pre w reply tagged post hlog => ?_,
    fun i => ?_, ?_, fun pre place results post hlog => ?_, ?_, fun pre post hlog => ?_, ?_,
    fun hmem => ?_⟩
  · rw [← jobNumber_jobPart hn]
    obtain ⟨k, hk⟩ : ∃ k, ∀ w,
      (Event.giveTo w (jobPart n) : Event Worker JobResult ℤ).key = some k := by
      cases jobPart n with
      | some i => exact ⟨.job i 0, fun _ => rfl⟩
      | none => exact ⟨.giveFinal, fun _ => rfl⟩
    refine honce (k := k) fun e he => ?_
    obtain ⟨w, reply, tagged, rfl⟩ := LogEntry.eq_of_isDispatch he
    exact ⟨_, LogEntry.about_dispatched w _ reply tagged, hk w⟩
  · obtain ⟨pre, post, hlog⟩ := List.append_of_mem hmem
    obtain ⟨p, hp, hw⟩ := (hdispatch (q := some i) hlog).place_of_give
    obtain ⟨job, hjob, rfl⟩ := hjobs hp
    exact ⟨job, hjob, hw⟩
  · obtain ⟨hfinished, p, hp, hw⟩ := (hdispatch (q := none) hlog).of_giveFinal
    rw [hspec] at hfinished
    obtain ⟨c, hc, rfl⟩ := hfinal hp
    exact ⟨allFinished_iff.1 hfinished, c, hc, hw⟩
  · refine honce (k := .job i 1) fun e he => ?_
    obtain ⟨r, rfl⟩ := LogEntry.eq_of_isExecution he
    exact ⟨_, LogEntry.about_executed i r, rfl⟩
  · refine honce (k := .call) fun e he => ?_
    obtain ⟨w, results, rfl⟩ := LogEntry.eq_of_isCompletion he
    exact ⟨_, LogEntry.about_completed w results, rfl⟩
  · obtain ⟨hfinished, hlength, hresults, hplace⟩ :=
      (hsplit hlog (LogEntry.about_completed place results)).of_call
    rw [hspec] at hfinished hlength
    refine ⟨allFinished_iff.1 hfinished, hlength.trans (List.length_map ..),
      fun i r hr => LogEntry.executed_of_mem (hresults i r hr), ?_⟩
    cases place with
    | some w => exact LogEntry.dispatched_of_mem hplace
    | none =>
      obtain ⟨p, hp, hdirect⟩ := hplace
      obtain ⟨c, hc, rfl⟩ := hfinal hp
      exact ⟨c, hc, hdirect⟩
  · refine honce (k := .delete) fun e he => ?_
    obtain rfl := LogEntry.eq_of_isDeletion he
    exact ⟨_, LogEntry.about_deleted, rfl⟩
  · have hover := (hsplit hlog LogEntry.about_deleted).of_delete
    rw [hspec] at hover
    exact overIn_iff.1 hover
  · rw [← LogEntry.mem_delete, haccepts.delete_mem_iff, ← h.isOver life rfl, haccepts.over_iff,
      hspec]
    exact overIn_iff
  · have hover : life.IsOver :=
      (h.isOver life rfl).2 (haccepts.delete_mem_iff.1 (LogEntry.mem_delete.2 hmem))
    have hgone : ∀ {n : ℤ} {x : Spot Worker ℤ}, spotAt (BatchView.spots (some life)) n = x →
        x = .gone := by
      intro n x hn
      by_contra hx
      obtain ⟨_, q, ⟨⟩, _, hq⟩ := h.exists_life hn hx
      exact Life.not_over_of_spot (Reflects.of_accepts haccepts) (hq.trans_ne hx) hover
    constructor
    · rintro thread ⟨_, n⟩ hbj rfl
      have hcount := h.queued thread n
      rw [hgone rfl, if_neg (by simp)] at hcount
      exact List.count_eq_zero.1 hcount hbj
    · rintro w run bj hout hrun hbj rfl
      have hhand : s.inHand f w = some (bj, (f w).late bj.jobno) := by
        rw [inHand, if_pos (hbusy w hout), hrun, Option.bind_some, hbj]
        rfl
      cases hgone ((h.held w bj.jobno _).1 (held_self hhand))

/-- A batch that has been submitted has a life, and it is the life of this batch. -/
theorem exists_life_of_submitted (h : s.BatchesFit cfg f) (hspec : .submitted ptr spec ∈ s.log) :
    ∃ life, (s.batchView f ptr).Fits cfg.taggedThreads (some life) ∧ life.spec = spec.places := by
  obtain ⟨o, hfits⟩ := h ptr
  have hmem : .submit spec.places ∈ (s.batchView f ptr).events :=
    List.mem_filterMap.2 ⟨_, hspec, if_pos rfl⟩
  cases o with
  | none =>
    rw [hfits.accepts.eq_nil] at hmem
    cases hmem
  | some life => exact ⟨life, hfits, ((Reflects.of_accepts hfits.accepts).spec _ hmem).symm⟩

variable [DecidableEq κ] [Fintype κ]

/-- **The life cycle of batches.**  In every run, whatever the order in which jobs are dispatched
and workers finish, every batch that has been submitted goes through its life cycle. -/
theorem batch_life_cycle {es : List (PoolEvent κ)}
    (hrun : Transition.run (Sys.step cfg) (init cfg) es = some s)
    (hsubmitted : .submitted ptr spec ∈ s.log) : s.LifeCycle ptr spec := by
  obtain ⟨f, hinv, hfit⟩ := batchesFit_of_run hrun
  obtain ⟨life, hfits, hlife⟩ := exists_life_of_submitted hfit hsubmitted
  exact lifeCycle_of_fits hfits hlife fun w hw => (hinv.outstanding_ne_zero_iff w).1 hw

/-- A batch of two jobs, one of them for the tagged thread, which is also where the completion
function has to run. -/
def someBatch : BatchSpec where
  jobs := [(1, 0), (2, 1)]
  complete := some (3, 1)

/-- The batch from its beginning to its end.  The second job returns before the first. -/
def batchRun : List (PoolEvent Unit) :=
  let returns (w : Worker) (r : JobResult) : List (PoolEvent Unit) :=
    [.receive w, .finish w {} r, .workerMessage w]
  [.receive (.tagged 0), .submit someBatch, .processQueue] ++
    returns (.tagged 0) (.exception "no") ++ returns (.untagged 0) (.value 7) ++
    [.processQueue] ++ returns (.tagged 0) .unset

theorem batch_life_cycle_batchRun :
    ∃ s, Transition.run (Sys.step smallConfig) (init smallConfig) batchRun = some s ∧
      .completed 0 (some (.tagged 0)) [.value 7, .exception "no"] ∈ s.log ∧ .deleted 0 ∈ s.log ∧
      s.LifeCycle 0 someBatch := by
  have hrun : Transition.run (Sys.step smallConfig) (init smallConfig) batchRun = some _ := rfl
  exact ⟨_, hrun, by decide, by decide, batch_life_cycle hrun (by decide)⟩

end Sys

end OxenMQ
