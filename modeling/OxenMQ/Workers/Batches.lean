import OxenMQ.Workers.BatchLife

/-!
# The life cycle of batches

The log of the system, seen from one batch, is a history of a `ForkJoin` group: `LogEntry.about`
says what an entry means to the batch, and `Sys.batchView` is the view of the batch at a state of
the system.  Every step of the system leaves the view of a batch as it is, or moves it on in one of
the ways of `BatchLife`.  What the log of a whole run says about each batch then follows from what
is true of all histories.
-/

set_option autoImplicit false

namespace OxenMQ

open ForkJoin

variable {κ : Type}

/-- What an entry of the log means to a batch. -/
def LogEntry.about (ptr : ℕ) : LogEntry κ → Option (Event Worker JobResult ℤ)
  | .submitted p spec => if p = ptr then some (.submit spec.places) else none
  | .dispatched w (.batch bj _ _) =>
    if bj.ptr = ptr ∧ -1 ≤ bj.jobno then some (.giveTo w (jobPart bj.jobno)) else none
  | .executed bj r => if bj.ptr = ptr ∧ 0 ≤ bj.jobno then some (.run bj.jobno.toNat r) else none
  | .finished bj =>
    if bj.ptr = ptr ∧ -1 ≤ bj.jobno then some (finishEvent (jobPart bj.jobno)) else none
  | .completed p w results => if p = ptr then some (.call w results) else none
  | .deleted p => if p = ptr then some .delete else none
  | _ => none

/-- Is the worker through with the job it has?  With the completion function, has it begun? -/
def Phase.late (p : Phase) (n : ℤ) : Bool :=
  decide (p = .ran) || decide (n < 0) && decide (p = .running)

theorem Phase.late_of_loaded {p : Phase} (h : p.loaded = true) (n : ℤ) : p.late n = false := by
  cases p <;> simp_all [Phase.loaded, Phase.late]

theorem Phase.busy_of_loaded {p : Phase} (h : p.loaded = true) : p.busy = true := by
  cases p <;> simp_all [Phase.loaded, Phase.busy]

namespace Sys

/-- The job of a batch that a worker has. -/
def inHand (s : Sys κ) (f : Worker → Phase) (w : Worker) : Option (BatchJob × Bool) :=
  if (f w).busy then
    ((s.pool.runInfo w).bind RunInfo.batchJob).map fun bj => (bj, (f w).late bj.jobno)
  else none

/-- What the life of a batch depends on. -/
def batchView (s : Sys κ) (f : Worker → Phase) (ptr : ℕ) : BatchView where
  events := s.log.filterMap (LogEntry.about ptr)
  queued thread n := (s.pool.queue thread).count ⟨ptr, n⟩
  held w := (s.inHand f w).bind fun p => if p.1.ptr = ptr then some (p.1.jobno, p.2) else none
  allocated := decide (ptr < s.nextPtr)
  cell := s.heap ptr

/-- Every batch is at some point of its life. -/
def BatchesFit (cfg : PoolConfig κ) (s : Sys κ) (f : Worker → Phase) : Prop :=
  ∀ ptr, ∃ o, (s.batchView f ptr).Fits cfg.taggedThreads o

variable {cfg : PoolConfig κ} {s s' : Sys κ} {f f' : Worker → Phase} {w : Worker}

/-! ## What workers have in hand -/

theorem inHand_of_free (h : (f w).busy = false) : s.inHand f w = none := by
  rw [inHand, if_neg (by rw [h]; nofun)]

theorem inHand_congr (hphase : f' w = f w) (hrun : s'.pool.runInfo w = s.pool.runInfo w) :
    s'.inHand f' w = s.inHand f w := by
  rw [inHand, inHand, hphase, hrun]

theorem inHand_loaded {p : Phase} {l : Load κ} (hp : p.loaded = true) (h : Loaded s s' w l) :
    s'.inHand (Function.update f w p) w = l.batchJob.map fun bj => (bj, false) := by
  obtain ⟨r, hr⟩ := h.run
  rw [inHand, Function.update_self, if_pos (Phase.busy_of_loaded hp), hr, Option.bind_some,
    RunInfo.batchJob_load]
  simp only [Phase.late_of_loaded hp]

/-- Only one worker has something else in hand than before. -/
theorem held_batchView (ptr : ℕ) (hother : ∀ v, v ≠ w → s'.inHand f' v = s.inHand f v) :
    (s'.batchView f' ptr).held =
      Function.update (s.batchView f ptr).held w ((s'.batchView f' ptr).held w) := by
  funext v
  rcases eq_or_ne v w with rfl | hne
  · rw [Function.update_self]
  · rw [Function.update_of_ne hne]
    simp only [batchView, hother v hne]

theorem held_self {bj : BatchJob} {late : Bool} (hw : s.inHand f w = some (bj, late)) :
    (s.batchView f bj.ptr).held w = some (bj.jobno, late) := by
  simp only [batchView, hw, Option.bind_some, if_true]

theorem events_append {entries : List (LogEntry κ)} (hlog : s'.log = s.log ++ entries)
    (f f' : Worker → Phase) (ptr : ℕ) :
    (s'.batchView f' ptr).events =
      (s.batchView f ptr).events ++ entries.filterMap (LogEntry.about ptr) := by
  simp only [batchView, hlog, List.filterMap_append]

/-- What a worker has in hand is about this batch, if it is about any. -/
def OnlyAbout (ptr : ℕ) (hand : Option (BatchJob × Bool)) : Prop :=
  ∀ bj late, hand = some (bj, late) → bj.ptr = ptr

/-- What happens to one batch and what one worker has of it is of no concern to the others. -/
theorem BatchesFit.move {entries : List (LogEntry κ)} (h : s.BatchesFit cfg f) (ptr : ℕ)
    (hself : ∃ o, (s'.batchView f' ptr).Fits cfg.taggedThreads o)
    (hlog : s'.log = s.log ++ entries)
    (hentries : ∀ ptr', ptr' ≠ ptr → entries.filterMap (LogEntry.about ptr') = [])
    (hqueue : ∀ t b, b.ptr ≠ ptr → (s'.pool.queue t).count b = (s.pool.queue t).count b)
    (hother : ∀ v, v ≠ w → s'.inHand f' v = s.inHand f v)
    (hbefore : OnlyAbout ptr (s.inHand f w)) (hafter : OnlyAbout ptr (s'.inHand f' w))
    (hnext : ∀ ptr', ptr' ≠ ptr → (ptr' < s'.nextPtr ↔ ptr' < s.nextPtr))
    (hheap : ∀ ptr', ptr' ≠ ptr → s'.heap ptr' = s.heap ptr') : s'.BatchesFit cfg f' := by
  intro ptr'
  rcases eq_or_ne ptr' ptr with rfl | hne
  · exact hself
  have hnone : ∀ {s : Sys κ} {f : Worker → Phase}, OnlyAbout ptr (s.inHand f w) →
      (s.batchView f ptr').held w = none := by
    intro s f honly
    rcases hhand : s.inHand f w with _ | ⟨bj, late⟩
    · simp only [batchView, hhand, Option.bind_none]
    · have hptr : bj.ptr ≠ ptr' := (honly bj late hhand).trans_ne hne.symm
      simp only [batchView, hhand, Option.bind_some, if_neg hptr]
  obtain ⟨o, hfits⟩ := h ptr'
  refine ⟨o, ?_⟩
  convert hfits using 1
  refine BatchView.ext ?_ (funext fun t => funext fun n => hqueue t ⟨ptr', n⟩ hne) ?_ ?_
    (hheap ptr' hne)
  · rw [events_append hlog f f' ptr', hentries ptr' hne, List.append_nil]
  · rw [held_batchView ptr' hother, hnone hafter, Function.update_eq_self_iff]
    exact (hnone hbefore).symm
  · simp only [batchView, hnext ptr' hne]

/-- Nothing happens to any batch. -/
theorem BatchesFit.congr (h : s.BatchesFit cfg f)
    (hlog : ∀ ptr, s'.log.filterMap (LogEntry.about ptr) = s.log.filterMap (LogEntry.about ptr))
    (hqueue : ∀ t b, (s'.pool.queue t).count b = (s.pool.queue t).count b)
    (hhand : ∀ w, s'.inHand f' w = s.inHand f w)
    (hnext : s'.nextPtr = s.nextPtr) (hheap : s'.heap = s.heap) : s'.BatchesFit cfg f' := by
  intro ptr
  obtain ⟨o, hfits⟩ := h ptr
  refine ⟨o, ?_⟩
  convert hfits using 1
  simp only [batchView, hlog, hqueue, hhand, hnext, hheap]

/-! ## Giving jobs to workers -/

theorem BatchesFit.load {l : Load κ} {p : Phase} (h : s.BatchesFit cfg f)
    (hfree : (f w).busy = false) (hp : p.loaded = true) (hloaded : Loaded s s' w l)
    (htakes : s.pool.Takes s'.pool w l) : s'.BatchesFit cfg (Function.update f w p) := by
  have hother : ∀ v, v ≠ w → s'.inHand (Function.update f w p) v = s.inHand f v := fun v hv =>
    inHand_congr (Function.update_of_ne hv ..) (hloaded.other v hv)
  have hbefore := inHand_of_free (s := s) hfree
  have hafter := inHand_loaded (f := f) hp hloaded
  cases l with
  | pending c =>
    refine h.congr (fun ptr => ?_) (fun t b => ?_) (fun v => ?_) hloaded.nextPtr hloaded.heap
    · rw [hloaded.log, List.filterMap_append]
      exact List.append_nil _
    · have htake := htakes t b
      rw [if_neg (by rintro ⟨hnone, _⟩; cases hnone), Nat.add_zero] at htake
      exact htake.symm
    · rcases eq_or_ne v w with rfl | hv
      · rw [hafter, hbefore]
        rfl
      · exact hother v hv
  | batch bj reply tagged =>
    obtain ⟨ptr, n⟩ := bj
    have htake : ∀ t b, (s.pool.queue t).count b =
        (s'.pool.queue t).count b + if b = ⟨ptr, n⟩ ∧ t = w.place then 1 else 0 := by
      intro t b
      rw [htakes t b]
      simp only [Load.batchJob, Option.some.injEq, eq_comm (a := b)]
    refine h.move ptr ?_ hloaded.log (fun ptr' hne => ?_) (fun t b hne => ?_) hother ?_ ?_
      (fun _ _ => by rw [hloaded.nextPtr]) fun _ _ => by rw [hloaded.heap]
    · obtain ⟨o, hfits⟩ := h ptr
      have hle : -1 ≤ n := by
        refine hfits.neg_one_le_of_queued (t := w.place) fun hzero => ?_
        have hcount := htake w.place ⟨ptr, n⟩
        rw [if_pos ⟨rfl, rfl⟩, show (s.pool.queue w.place).count ⟨ptr, n⟩ = 0 from hzero] at hcount
        omega
      have hview : s'.batchView (Function.update f w p) ptr = { s.batchView f ptr with
          events := (s.batchView f ptr).events ++ [.giveTo w (jobPart n)]
          queued := (s'.batchView (Function.update f w p) ptr).queued
          held := Function.update (s.batchView f ptr).held w (some (n, false)) } := by
        refine BatchView.ext ?_ rfl ?_ ?_ (congrFun hloaded.heap ptr)
        · rw [events_append hloaded.log f]
          simp [LogEntry.about, hle]
        · rw [held_batchView ptr hother, held_self hafter]
        · simp only [batchView, hloaded.nextPtr]
      rw [hview]
      refine hfits.give (by simp only [batchView, hbefore, Option.bind_none]) fun t m => ?_
      have hcount := htake t ⟨ptr, m⟩
      simp only [BatchJob.mk.injEq, true_and] at hcount
      exact hcount
    · simp [LogEntry.about, hne.symm]
    · rw [htake t b, if_neg fun hs => hne (by rw [hs.1]), Nat.add_zero]
    · rw [hbefore]
      rintro _ _ ⟨⟩
    · rw [hafter]
      rintro _ _ ⟨⟩
      rfl

theorem BatchesFit.dispatches {Q : Set (PendingCommand κ)} (h : s.BatchesFit cfg f)
    (hdisp : Dispatches Q s f s' f') :
    s'.BatchesFit cfg f' := by
  induction hdisp with
  | refl => exact h
  | queue hdisp queued hpending ih =>
    intro ptr
    obtain ⟨o, hfits⟩ := ih ptr
    refine ⟨o, ?_⟩
    convert hfits using 1
    refine BatchView.ext rfl rfl (funext fun w => ?_) rfl rfl
    cases w <;> rfl
  | load hdisp hfree hp hloaded htakes hload ih => exact ih.load hfree hp hloaded htakes

/-! ## New batches -/

/-- A new batch begins its life at the next address. -/
theorem BatchesFit.submitted (h : s.BatchesFit cfg f) (spec : BatchSpec) {pool : Pool κ}
    (hne : spec.jobs ≠ [])
    (hfinal : ∀ c, spec.complete = some c → -1 ≤ c.2 ∧ c.2 ≤ (cfg.taggedThreads : ℤ))
    (hjob : spec.isJob = true → spec.jobs.length = 1 ∧ spec.complete = none)
    (hrun : ∀ w, pool.runInfo w = s.pool.runInfo w)
    (hqueue : ∀ t b, (pool.queue t).count b = (s.pool.queue t).count b +
      if b.ptr = s.nextPtr ∧ 0 ≤ b.jobno ∧ spec.places.jobs[b.jobno.toNat]? = some t then 1
      else 0) :
    { s.alloc spec with pool := pool }.BatchesFit cfg f := by
  have hhand : ∀ w, { s.alloc spec with pool := pool }.inHand f w = s.inHand f w := fun w =>
    inHand_congr rfl (hrun w)
  have hlog : { s.alloc spec with pool := pool }.log = s.log ++ [.submitted s.nextPtr spec] := rfl
  intro ptr
  obtain ⟨o, hfits⟩ := h ptr
  have hheld : ({ s.alloc spec with pool := pool }.batchView f ptr).held =
      (s.batchView f ptr).held := by
    simp only [batchView, hhand]
  have hevents := events_append hlog f f ptr
  rcases eq_or_ne ptr s.nextPtr with rfl | hne'
  · obtain rfl : o = none := by
      have halloc := hfits.allocated
      simp only [batchView, lt_irrefl, decide_false] at halloc
      exact Option.isNone_iff_eq_none.1 (by rw [← Option.not_isSome, ← halloc]; rfl)
    have hview : { s.alloc spec with pool := pool }.batchView f s.nextPtr =
        ⟨(s.batchView f s.nextPtr).events ++ [.submit spec.places],
          ({ s.alloc spec with pool := pool }.batchView f s.nextPtr).queued,
          (s.batchView f s.nextPtr).held, true, some (.ofSpec spec)⟩ := by
      refine BatchView.ext ?_ rfl hheld ?_ ?_
      · rw [hevents]
        simp [LogEntry.about]
      · simp [batchView, alloc]
      · simp [batchView, alloc]
    rw [hview]
    refine ⟨_, hfits.submit hne hfinal hjob fun t n => ?_⟩
    have hcount := hqueue t ⟨s.nextPtr, n⟩
    simp only [true_and] at hcount
    exact hcount
  · refine ⟨o, ?_⟩
    convert hfits using 1
    refine BatchView.ext ?_ (funext fun t => funext fun n => ?_) hheld ?_ ?_
    · rw [hevents]
      simp [LogEntry.about, hne'.symm]
    · have hcount := hqueue t ⟨ptr, n⟩
      rw [if_neg fun hs => hne' hs.1] at hcount
      exact hcount
    · simp only [batchView, alloc]
      congr 1
      simp only [eq_iff_iff]
      omega
    · exact Function.update_of_ne hne' ..

/-- The places of a valid batch exist. -/
theorem valid_iff {spec : BatchSpec} (h : spec.valid cfg = true) :
    spec.jobs ≠ [] ∧ (∀ t ∈ spec.places.jobs, 0 ≤ t ∧ t ≤ (cfg.taggedThreads : ℤ)) ∧
    (∀ c, spec.complete = some c → -1 ≤ c.2 ∧ c.2 ≤ (cfg.taggedThreads : ℤ)) ∧
    (spec.isJob = true → spec.jobs.length = 1 ∧ spec.complete = none) := by
  unfold BatchSpec.valid at h
  simp only [Bool.and_eq_true, Bool.or_eq_true, Bool.not_eq_true', List.all_eq_true,
    decide_eq_true_eq, List.isEmpty_eq_false_iff, Option.isNone_iff_eq_none] at h
  obtain ⟨⟨⟨hne, hjobs⟩, hcomplete⟩, hjob⟩ := h
  refine ⟨hne, fun t ht => ?_, fun c hc => ?_, fun hj => ?_⟩
  · obtain ⟨j, hj, rfl⟩ := List.mem_map.1 ht
    exact hjobs j hj
  · simpa [hc] using hcomplete
  · rcases hjob with hfalse | hjob
    · rw [hj] at hfalse
      cases hfalse
    · exact hjob

theorem submit_eq (s : Sys κ) (spec : BatchSpec) : s.submit spec =
    { s.alloc spec with pool := pushJobs s.nextPtr 0 spec.places.jobs s.pool } := by
  have hheap : (s.alloc spec).heap s.nextPtr = some (.ofSpec spec) := Function.update_self ..
  rw [Sys.submit, proxyBatch, hheap]
  dsimp only
  rw [batchTargets_ofSpec]
  rfl

theorem BatchesFit.submit {spec : BatchSpec} (h : s.BatchesFit cfg f)
    (hlength : s.pool.taggedWorkers.length = cfg.taggedThreads) (hvalid : spec.valid cfg = true) :
    (s.submit spec).BatchesFit cfg f := by
  obtain ⟨hne, hthreads, hfinal, hjob⟩ := valid_iff hvalid
  have hsame := s.sameBooks_pushJobs s.nextPtr 0 spec.places.jobs
  rw [submit_eq]
  refine h.submitted spec hne hfinal hjob hsame.runInfo fun t b => ?_
  rw [Pool.count_pushJobs s.nextPtr spec.places.jobs 0 s.pool (by rwa [hlength])]
  simp

theorem BatchesFit.proxyScheduleReplyJob (h : s.BatchesFit cfg f) (callback : Callback) :
    (s.proxyScheduleReplyJob callback).BatchesFit cfg f := by
  have hsame := s.sameBooks_pushJob 0 true ⟨s.nextPtr, 0⟩
  refine h.submitted { jobs := [(callback, 0)], isJob := true } (by simp) nofun
    (fun _ => ⟨rfl, rfl⟩) hsame.runInfo fun t b => ?_
  refine (s.pool.count_pushJob true ⟨s.nextPtr, 0⟩ (le_refl 0) (by omega) t b).trans ?_
  obtain ⟨ptr, n⟩ := b
  congr 2
  simp only [BatchSpec.places, List.map_cons, List.map_nil, BatchJob.mk.injEq, eq_iff_iff]
  rcases lt_trichotomy n 0 with hn | rfl | hn
  · exact iff_of_false (by omega) (by omega)
  · simp [eq_comm]
  · have hnone : ([0] : List ℤ)[n.toNat]? = none := List.getElem?_eq_none (by simp; omega)
    rw [hnone]
    exact iff_of_false (by omega) (by simp)

/-! ## The worker threads -/

/-- What a worker has is a job of its batch or the completion function. -/
theorem BatchesFit.neg_one_le (h : s.BatchesFit cfg f) {bj : BatchJob} {late : Bool}
    (hw : s.inHand f w = some (bj, late)) : -1 ≤ bj.jobno := by
  obtain ⟨o, hfits⟩ := h bj.ptr
  obtain ⟨_, q, _, hq, _⟩ := hfits.exists_life ((hfits.held _ _ _).1 (held_self hw)) nofun
  rw [hq]
  exact neg_one_le_jobNumber q

/-- **A worker begins with what it has been given.** -/
theorem BatchesFit.beginJob {run : RunInfo κ} (h : s.BatchesFit cfg f)
    (hrun : s.pool.runInfo w = some run) (hphase : (f w).loaded = true)
    (threads : Worker → Thread) :
    ({ s with threads := threads }.beginJob w run).BatchesFit cfg
      (Function.update f w .running) := by
  obtain ⟨g, message, heap, log, heq, hg⟩ := beginJob_eq { s with threads := threads } w run
  have hpool : ({ s with threads := threads }.beginJob w run).pool = s.pool.modifyRun g w := by
    rw [heq]
  have hnext : ({ s with threads := threads }.beginJob w run).nextPtr = s.nextPtr := by rw [heq]
  generalize hs' : { s with threads := threads }.beginJob w run = s' at hpool hnext ⊢
  have hqueue : ∀ t b, (s'.pool.queue t).count b = (s.pool.queue t).count b := by
    rw [hpool, Pool.queue_modifyRun]
    exact fun _ _ => rfl
  have hother : ∀ v, v ≠ w → s'.inHand (Function.update f w .running) v = s.inHand f v :=
    fun v hv => inHand_congr (Function.update_of_ne hv ..) (by
      rw [hpool, Pool.runInfo_modifyRun, if_neg hv])
  have hbatch : (g run).batchJob = run.batchJob := by
    rcases hg run with hr | hr <;> rw [hr]
    rfl
  have hbefore : s.inHand f w = run.batchJob.map fun bj => (bj, false) := by
    rw [inHand, if_pos (Phase.busy_of_loaded hphase), hrun, Option.bind_some]
    simp only [Phase.late_of_loaded hphase]
  have hafter : s'.inHand (Function.update f w .running) w =
      run.batchJob.map fun bj => (bj, decide (bj.jobno < 0)) := by
    rw [inHand, Function.update_self, if_pos (show Phase.running.busy = true from rfl), hpool,
      Pool.runInfo_modifyRun, if_pos rfl, hrun, Option.map_some, Option.bind_some, hbatch]
    simp [Phase.late]
  rcases hbj : run.batchJob with _ | bj
  · -- A command or an injected task.
    obtain ⟨hheap, hlog⟩ := beginJob_other { s with threads := threads } w hbj
    rw [hs'] at hheap hlog
    refine h.congr (fun ptr => ?_) hqueue (fun v => ?_) hnext hheap
    · rcases hlog with hlog | ⟨a, m, hlog⟩
      · rw [hlog]
      · rw [hlog]
        simp [LogEntry.about]
    · rcases eq_or_ne v w with rfl | hv
      · rw [hafter, hbefore, hbj]
        rfl
      · exact hother v hv
  rw [hbj] at hbefore hafter
  have hle := h.neg_one_le hbefore
  by_cases hno : bj.jobno = -1
  · -- The completion function is called.
    obtain ⟨ptr, n⟩ := bj
    obtain rfl : n = -1 := hno
    obtain ⟨o, hfits⟩ := h ptr
    obtain ⟨o', b, hcell, hcall⟩ := hfits.call (held_self hbefore)
    have hheap : s.heap ptr = some b := hcell
    rw [beginJob_completion { s with threads := threads } w hbj hheap] at hs'
    have hlog : s'.log = s.log ++ [.completed ptr (some w) b.results] := by rw [← hs']
    have hheap' : s'.heap = Function.update s.heap ptr (some { b with results := [] }) := by
      rw [← hs']
    refine h.move ptr ⟨o', ?_⟩ hlog (fun ptr' hne => ?_) (fun t b _ => hqueue t b) hother
      ?_ ?_ (fun _ _ => by rw [hnext]) fun ptr' hne => by rw [hheap', Function.update_of_ne hne]
    · convert hcall using 1
      refine BatchView.ext ?_ (funext fun t => funext fun n => hqueue t ⟨ptr, n⟩) ?_ ?_ ?_
      · rw [events_append hlog f]
        simp [LogEntry.about]
      · rw [held_batchView ptr hother, held_self hafter]
        rfl
      · simp only [batchView, hnext]
      · simp only [batchView, hheap', Function.update_self]
    · simp [LogEntry.about, hne.symm]
    · rw [hbefore]
      rintro _ _ ⟨⟩
      rfl
    · rw [hafter]
      rintro _ _ ⟨⟩
      rfl
  · -- A job is run.
    rw [beginJob_job { s with threads := threads } w hbj hno] at hs'
    refine h.congr (fun ptr => by rw [← hs']) hqueue (fun v => ?_) hnext (by rw [← hs'])
    rcases eq_or_ne v w with rfl | hv
    · rw [hafter, hbefore, Option.map_some, Option.map_some, decide_eq_false (by omega)]
    · exact hother v hv

/-- **A worker is through with its job**, and the result is stored. -/
theorem BatchesFit.workerFinish {left : Message} {r : JobResult} (h : s.BatchesFit cfg f)
    (hphase : f w = .running) (hs : s.workerFinish w left r = some s') :
    s'.BatchesFit cfg (Function.update f w .ran) := by
  obtain ⟨run, message, hrun, _, hs'⟩ := workerFinish_cases hs
  have hpool : s'.pool = s.pool ∧ s'.nextPtr = s.nextPtr := by
    rcases hs' with ⟨bj, _, _, rfl⟩ | ⟨_, rfl⟩ <;> exact ⟨rfl, rfl⟩
  have hother : ∀ v, v ≠ w → s'.inHand (Function.update f w .ran) v = s.inHand f v :=
    fun v hv => inHand_congr (Function.update_of_ne hv ..) (by rw [hpool.1])
  have hbefore : s.inHand f w = run.batchJob.map fun bj => (bj, decide (bj.jobno < 0)) := by
    rw [inHand, hphase, if_pos (show Phase.running.busy = true from rfl), hrun, Option.bind_some]
    simp [Phase.late]
  have hafter : s'.inHand (Function.update f w .ran) w = run.batchJob.map fun bj => (bj, true) := by
    rw [inHand, Function.update_self, if_pos (show Phase.ran.busy = true from rfl), hpool.1, hrun,
      Option.bind_some]
    simp [Phase.late]
  rcases hs' with ⟨⟨ptr, n⟩, hbj, hno, rfl⟩ | ⟨hneg, rfl⟩
  · have hno' : 0 ≤ n := hno
    rw [hbj, Option.map_some, decide_eq_false (show ¬ n < 0 by omega)] at hbefore
    rw [hbj, Option.map_some] at hafter
    refine h.move ptr ?_ rfl (fun ptr' hne => ?_) (fun _ _ _ => rfl) hother ?_ ?_
      (fun _ _ => Iff.rfl) fun ptr' hne => Function.update_of_ne hne ..
    · obtain ⟨o, hfits⟩ := h ptr
      obtain ⟨o', hrun'⟩ := hfits.run (held_self hbefore) hno' r
      refine ⟨o', ?_⟩
      convert hrun' using 1
      refine BatchView.ext ?_ rfl ?_ rfl (Function.update_self ..)
      · simp [batchView, LogEntry.about, hno']
      · rw [held_batchView ptr hother, held_self hafter]
    · simp [LogEntry.about, hne.symm]
    · rw [hbefore]
      rintro _ _ ⟨⟩
      rfl
    · rw [hafter]
      rintro _ _ ⟨⟩
      rfl
  · refine h.congr (fun _ => rfl) (fun _ _ => rfl) (fun v => ?_) rfl rfl
    rcases eq_or_ne v w with rfl | hv
    · rw [hafter, hbefore]
      rcases hbj : run.batchJob with _ | bj
      · rfl
      · rw [Option.map_some, Option.map_some, decide_eq_true (hneg bj hbj)]
    · exact hother v hv

/-! ## A job has returned -/

/-- What the proxy does with the batch of a job that has returned, seen from the batch. -/
theorem batchView_jobReturned (s : Sys κ) (f : Worker → Phase) (bj : BatchJob) (reply : Bool)
    (w : Worker) (hle : -1 ≤ bj.jobno)
    (hrange : ∀ b b' p, s.heap bj.ptr = some b → b.jobFinished = (b', .complete p) →
      -1 ≤ p ∧ p ≤ (s.pool.taggedWorkers.length : ℤ)) :
    { ({ s with log := s.log ++ [LogEntry.finished bj] }.jobReturned bj reply).batchView f bj.ptr with
      held := Function.update (s.batchView f bj.ptr).held w none } =
      (s.batchView f bj.ptr).returned w bj.jobno := by
  obtain ⟨ptr, n⟩ := bj
  dsimp only at hle hrange ⊢
  unfold jobReturned BatchView.returned
  dsimp only
  split
  · simp [delete, batchView, LogEntry.about, hle]
  have hcell : (s.batchView f ptr).cell = s.heap ptr := rfl
  rcases hb : s.heap ptr with _ | b
  · simp [batchView, hb, LogEntry.about, hle]
  rw [hcell, hb]
  dsimp only
  rcases hfin : b.jobFinished with ⟨b', state⟩
  cases state with
  | running => simp [batchView, LogEntry.about, hle]
  | done => simp [delete, batchView, LogEntry.about, hle]
  | complete thread =>
    dsimp only
    obtain ⟨hlow, hhigh⟩ := hrange b b' thread hb hfin
    split
    · simp [delete, batchView, LogEntry.about, hle]
    · have hpos : 0 ≤ thread := by omega
      have hcount := fun t m => s.pool.count_pushJob reply ⟨ptr, -1⟩ hpos hhigh t ⟨ptr, m⟩
      simp [batchView, LogEntry.about, hle, hcount]

/-- What the proxy does with the batch is of no concern to the other batches. -/
theorem jobReturned_other (s : Sys κ) (bj : BatchJob) (reply : Bool)
    (hrange : ∀ b b' p, s.heap bj.ptr = some b → b.jobFinished = (b', .complete p) →
      -1 ≤ p ∧ p ≤ (s.pool.taggedWorkers.length : ℤ)) :
    (∃ entries, ({ s with log := s.log ++ [LogEntry.finished bj] }.jobReturned bj reply).log =
      s.log ++ entries ∧
      ∀ ptr, ptr ≠ bj.ptr → entries.filterMap (LogEntry.about ptr) = []) ∧
    (∀ t b, b.ptr ≠ bj.ptr →
      (({ s with log := s.log ++ [LogEntry.finished bj] }.jobReturned bj reply).pool.queue t).count
        b = (s.pool.queue t).count b) ∧
    (∀ ptr, ptr ≠ bj.ptr →
      ({ s with log := s.log ++ [LogEntry.finished bj] }.jobReturned bj reply).heap ptr =
        s.heap ptr) ∧
    ({ s with log := s.log ++ [LogEntry.finished bj] }.jobReturned bj reply).nextPtr =
      s.nextPtr := by
  obtain ⟨ptr, n⟩ := bj
  dsimp only at hrange ⊢
  have hupdate : ∀ (c : Option Batch) ptr', ptr' ≠ ptr →
      Function.update s.heap ptr c ptr' = s.heap ptr' := fun c ptr' hne =>
    Function.update_of_ne hne ..
  unfold jobReturned
  dsimp only
  split
  · refine ⟨⟨[_, _], List.append_assoc .., fun ptr' hne => ?_⟩, fun _ _ _ => rfl, hupdate _, rfl⟩
    simp [LogEntry.about, hne.symm]
  rcases hb : s.heap ptr with _ | b
  · refine ⟨⟨[_], rfl, fun ptr' hne => ?_⟩, fun _ _ _ => rfl, fun _ _ => rfl, rfl⟩
    simp [LogEntry.about, hne.symm]
  dsimp only
  rcases hfin : b.jobFinished with ⟨b', state⟩
  cases state with
  | running =>
    refine ⟨⟨[_], rfl, fun ptr' hne => ?_⟩, fun _ _ _ => rfl, hupdate _, rfl⟩
    simp [LogEntry.about, hne.symm]
  | done =>
    refine ⟨⟨[_, _], List.append_assoc .., fun ptr' hne => ?_⟩, fun _ _ _ => rfl,
      fun ptr' hne => ?_, rfl⟩
    · simp [LogEntry.about, hne.symm]
    · simp [delete, hne]
  | complete thread =>
    dsimp only
    obtain ⟨hlow, hhigh⟩ := hrange b b' thread hb hfin
    split
    · refine ⟨⟨[_, _, _], by simp [delete]; exact ⟨rfl, rfl, rfl⟩, fun ptr' hne => ?_⟩, fun _ _ _ =>
        rfl, fun ptr' hne => ?_, rfl⟩
      · simp [LogEntry.about, hne.symm]
      · simp [delete, hne]
    · refine ⟨⟨[_], rfl, fun ptr' hne => ?_⟩, fun t b hne => ?_, hupdate _, rfl⟩
      · simp [LogEntry.about, hne.symm]
      · rw [s.pool.count_pushJob reply ⟨ptr, -1⟩ (by omega) hhigh, if_neg, Nat.add_zero]
        exact fun hs => hne (by rw [hs.1])

variable [DecidableEq κ]

/-- **The proxy hears that a worker is done.** -/
theorem BatchesFit.ran {run : RunInfo κ} {p : Phase} (h : s.BatchesFit cfg f)
    (hlength : s.pool.taggedWorkers.length = cfg.taggedThreads)
    (hrun : s.pool.runInfo w = some run) (hphase : f w = .ran) (hp : p.busy = false) :
    ((s.takeReply w []).workerRan w run).BatchesFit cfg (Function.update f w p) := by
  have hbefore : s.inHand f w = run.batchJob.map fun bj => (bj, true) := by
    rw [inHand, hphase, if_pos (show Phase.ran.busy = true from rfl), hrun, Option.bind_some]
    simp [Phase.late]
  have hafter : ((s.takeReply w []).workerRan w run).inHand (Function.update f w p) w = none :=
    inHand_of_free (by rwa [Function.update_self])
  have hother : ∀ v, v ≠ w →
      ((s.takeReply w []).workerRan w run).inHand (Function.update f w p) v = s.inHand f v :=
    fun v hv => inHand_congr (Function.update_of_ne hv ..) (runInfo_workerRan _ w run v)
  -- Neither the counters nor the list of idle workers have to do with batches.
  let s₀ := { s.takeReply w [] with
    outstanding := Function.update s.outstanding w (s.outstanding w - 1) }.release w run
  have hs₀ : SameBatches s s₀ := by
    have hrelease := sameBatches_release { s.takeReply w [] with
      outstanding := Function.update s.outstanding w (s.outstanding w - 1) } w run
    exact ⟨hrelease.heap, hrelease.log, hrelease.nextPtr, hrelease.queue, hrelease.tagged_length⟩
  have hview₀ : ∀ ptr, s₀.batchView f ptr = s.batchView f ptr := fun ptr => by
    have hhand : ∀ v, s₀.inHand f v = s.inHand f v := fun v =>
      inHand_congr rfl (runInfo_release _ w run v)
    simp only [batchView, hs₀.log, hs₀.queue, hhand, hs₀.nextPtr, hs₀.heap]
  rcases hbj : run.batchJob with _ | bj
  · have hs' : (s.takeReply w []).workerRan w run = s₀.retire w := by
      simp only [workerRan, hbj]
      rfl
    have hretire := sameBatches_retire s₀ w
    rw [← hs'] at hretire
    refine h.congr (fun ptr => ?_) (fun t b => ?_) (fun v => ?_) (hretire.nextPtr.trans hs₀.nextPtr)
      (hretire.heap.trans hs₀.heap)
    · rw [hretire.log, hs₀.log]
    · rw [hretire.queue, hs₀.queue]
    · rcases eq_or_ne v w with rfl | hv
      · rw [hafter, hbefore, hbj]
        rfl
      · exact hother v hv
  · rw [hbj] at hbefore
    obtain ⟨o, hfits⟩ := h bj.ptr
    have hheld := held_self hbefore
    have hrange : ∀ b b' p, s₀.heap bj.ptr = some b → b.jobFinished = (b', .complete p) →
        -1 ≤ p ∧ p ≤ (s₀.pool.taggedWorkers.length : ℤ) := by
      intro b b' p hb hfin
      rw [hs₀.tagged_length, hlength]
      exact hfits.thread_le hheld ((congrFun hs₀.heap bj.ptr).symm.trans hb) hfin
    have hview := batchView_jobReturned s₀ f bj run.isReplyJob w (h.neg_one_le hbefore) hrange
    obtain ⟨⟨entries, hlog, hentries⟩, hqueue, hheap, hnext⟩ :=
      jobReturned_other s₀ bj run.isReplyJob hrange
    have hs' : (s.takeReply w []).workerRan w run =
        ({ s₀ with log := s₀.log ++ [LogEntry.finished bj] }.jobReturned bj
          run.isReplyJob).retire w := by
      simp only [workerRan, hbj]
      rfl
    generalize hs₁ : { s₀ with log := s₀.log ++ [LogEntry.finished bj] }.jobReturned bj
      run.isReplyJob = s₁ at hview hlog hqueue hheap hnext hs'
    have hretire := sameBatches_retire s₁ w
    rw [← hs'] at hretire
    refine h.move bj.ptr ?_ (hretire.log.trans (hlog.trans (by rw [hs₀.log]))) hentries
      (fun t b hne => ?_) hother ?_ (by rw [hafter]; nofun) (fun ptr _ => ?_) fun ptr hne => ?_
    · obtain ⟨o', hreturned⟩ := hfits.returned hheld
      refine ⟨o', ?_⟩
      convert hreturned using 1
      rw [hview₀] at hview
      rw [← hview]
      refine BatchView.ext ?_ ?_ ?_ ?_ (congrFun hretire.heap bj.ptr)
      · simp only [batchView, hretire.log]
      · simp only [batchView, hretire.queue]
      · rw [held_batchView bj.ptr hother]
        simp only [batchView, hafter, Option.bind_none]
      · simp only [batchView, hretire.nextPtr]
    · rw [hretire.queue, hqueue t b hne, hs₀.queue]
    · rw [hbefore]
      rintro _ _ ⟨⟩
      rfl
    · rw [hretire.nextPtr, hnext, hs₀.nextPtr]
    · rw [hretire.heap, hheap ptr hne, hs₀.heap]

/-! ## The system -/

variable [Fintype κ]

theorem BatchesFit.step {e : PoolEvent κ} (h : s.BatchesFit cfg f) (hinv : s.Inv cfg f)
    (hs : Sys.step cfg s e = some s') : ∃ f', s'.Inv cfg f' ∧ s'.BatchesFit cfg f' := by
  have hdisp : ∀ {Q}, (∃ f', s'.Inv cfg f' ∧ Dispatches Q s f s' f') →
      ∃ f', s'.Inv cfg f' ∧ s'.BatchesFit cfg f' := fun ⟨f', hinv', hdisp⟩ =>
    ⟨f', hinv', h.dispatches hdisp⟩
  cases e with
  | command a => exact hdisp (step_command hs ▸ hinv.proxyToWorker a)
  | inject t => exact hdisp (step_inject hs ▸ hinv.proxyInjectTask t)
  | submit spec =>
    obtain ⟨hvalid, rfl⟩ := step_submit_cases hs
    exact ⟨f, hinv.sameBooks (s.sameBooks_submit spec), h.submit hinv.tagged_length hvalid⟩
  | replyJob callback =>
    obtain rfl := step_replyJob hs
    exact ⟨f, hinv.sameBooks (s.sameBooks_proxyScheduleReplyJob callback),
      h.proxyScheduleReplyJob callback⟩
  | processQueue => exact hdisp (step_processQueue hs ▸ hinv.proxyProcessQueue)
  | workerMessage w =>
    obtain ⟨run, rest, hrun, ⟨houtbox, rfl⟩ | ⟨houtbox, rfl⟩⟩ :=
      proxyWorkerMessage_cases (step_workerMessage hs)
    · obtain ⟨hphase, rfl⟩ := (hinv.fits w).eq_of_outbox_ran houtbox
      exact ⟨_, hinv.ran hrun hphase,
        h.ran hinv.tagged_length hrun hphase (by split <;> rfl)⟩
    · obtain ⟨hphase, rfl⟩ := (hinv.fits w).eq_of_outbox_quitting houtbox
      refine ⟨_, hinv.joined hphase, h.congr (fun _ => rfl) (fun t b => ?_) (fun v => ?_) rfl rfl⟩
      · rw [Pool.queue_modifyRun]
      · rcases eq_or_ne v w with rfl | hv
        · rw [inHand_of_free (by rw [Function.update_self]; rfl),
            inHand_of_free (by rw [hphase]; rfl)]
        · exact inHand_congr (Function.update_of_ne hv ..)
            ((s.pool.runInfo_modifyRun _ w v).trans (if_neg hv))
  | quit =>
    obtain ⟨hopen, rfl⟩ := step_quit_cases hs
    have hsame := sameBatches_proxyControlQuit s
    refine ⟨_, hinv.proxyControlQuit hopen, h.congr (fun _ => by rw [hsame.log])
      (fun _ _ => by rw [hsame.queue]) (fun v => ?_) hsame.nextPtr hsame.heap⟩
    by_cases hidle : f v = .idle
    · rw [inHand_of_free (by rw [if_pos hidle]; rfl), inHand_of_free (by rw [hidle]; rfl)]
    · exact inHand_congr (if_neg hidle) (runInfo_proxyControlQuit s v)
  | stop =>
    obtain ⟨_, _, rfl⟩ := step_stop_cases hs
    exact ⟨f, hinv.sameBooks ⟨⟨_, _, _, rfl, rfl⟩, rfl, rfl, rfl, rfl⟩, h⟩
  | receive w =>
    obtain ⟨p, hinv', _, _, ⟨run, threads, _, hrun, hphase, rfl, _, rfl⟩ | ⟨_, hp, threads, rfl⟩⟩ :=
      hinv.workerReceive (step_receive hs)
    · exact ⟨_, hinv', h.beginJob hrun hphase threads⟩
    · refine ⟨_, hinv', h.congr (fun _ => rfl) (fun _ _ => rfl) (fun v => ?_) rfl rfl⟩
      rcases eq_or_ne v w with rfl | hv
      · rcases hp with rfl | ⟨hfree, hfree'⟩
        · exact inHand_congr (Function.update_self ..) rfl
        · rw [inHand_of_free (by rwa [Function.update_self]), inHand_of_free hfree]
      · exact inHand_congr (Function.update_of_ne hv ..) rfl
  | finish w left r =>
    obtain ⟨run, _, _, hstatus, _⟩ := workerFinish_cases (step_finish hs)
    exact ⟨_, (hinv.workerFinish (step_finish hs)).1,
      h.workerFinish ((hinv.fits w).eq_of_running hstatus) (step_finish hs)⟩

omit [DecidableEq κ] in
theorem queue_init (cfg : PoolConfig κ) (thread : ℤ) : (init cfg).pool.queue thread = [] := by
  rcases Pool.thread_cases thread with ⟨u, rfl⟩ | rfl | hneg
  · rw [Pool.queue_tagged]
    rcases hu : (init cfg).pool.taggedWorkers[u]? with _ | tw
    · rfl
    · rw [(List.mem_replicate.1 (List.mem_of_getElem? hu)).2]
      rfl
  · rfl
  · exact Pool.queue_neg _ hneg

theorem spotAt_none (n : ℤ) : spotAt (BatchView.spots none) n = .gone := by
  rw [spotAt]
  split <;> rfl

omit [DecidableEq κ] in
theorem batchesFit_init (cfg : PoolConfig κ) : (init cfg).BatchesFit cfg (startPhase cfg) := by
  have hhand : ∀ w, (init cfg).inHand (startPhase cfg) w = none := by
    intro w
    refine inHand_of_free ?_
    cases w with
    | untagged i => rfl
    | tagged t =>
      rw [startPhase]
      split <;> rfl
  refine fun ptr => ⟨none, .nil, fun t n => ?_, fun w n late => ?_, rfl, by simp, by simp, by simp⟩
  · rw [spotAt_none, if_neg (by simp)]
    simp only [batchView, queue_init, List.count_nil]
  · rw [spotAt_none]
    simp only [batchView, hhand, Option.bind_none]
    exact iff_of_false (by simp) (by simp)

/-- **In every run, every batch is at some point of its life.** -/
theorem batchesFit_of_run {es : List (PoolEvent κ)}
    (hrun : Transition.run (Sys.step cfg) (init cfg) es = some s) :
    ∃ f, s.Inv cfg f ∧ s.BatchesFit cfg f :=
  Transition.run_induction (P := fun s => ∃ f, s.Inv cfg f ∧ s.BatchesFit cfg f)
    ⟨_, init_inv cfg, batchesFit_init cfg⟩
    (fun _ _ _ _ _ ⟨_, hinv, h⟩ hs => h.step hinv hs) hrun

end Sys

end OxenMQ
