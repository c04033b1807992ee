import OxenMQ.Workers.Saturation
import OxenMQ.Workers.Shutdown
import OxenMQ.Workers.Sites
import OxenMQ.Workers.Work

/-!
# The worker pool comes to rest

A pool that is left alone runs out of steps (`Sys.settles`).  This file says what is left then:

* before `QUIT`, nothing is in the queues, no worker has a job, and every batch has been completed
  and deleted (`drains`);
* after `QUIT`, every worker has been joined and the proxy thread can end, unless more workers have
  been started after it than there is room for (`quit_completes`).

That a job returns is up to the function that is called; here it is one of the pool's own steps.
-/

set_option autoImplicit false

namespace OxenMQ

open ForkJoin

variable {κ : Type} [DecidableEq κ] [Fintype κ]

namespace Sys

variable {cfg : PoolConfig κ} {s s' : Sys κ} {f : Worker → Phase}

omit [DecidableEq κ] [Fintype κ] in
/-- A worker that has not begun with its job can begin, and one that has a message can take it. -/
theorem workerReceive_isSome {w : Worker} (hw : (s.pool.runInfo w).isSome = true)
    (h : (s.threads w).status = .preloaded ∧ s.pool.hasSocket w = true ∨
      ((s.threads w).status = .waiting ∨ (s.threads w).status = .starting) ∧
        (s.threads w).inbox ≠ []) : (s.workerReceive w).isSome = true := by
  obtain ⟨run, hrun⟩ := Option.isSome_iff_exists.1 hw
  unfold workerReceive
  dsimp only
  rw [hrun]
  rcases h with ⟨h, hsocket⟩ | ⟨h | h, hinbox⟩
  · rw [h]
    dsimp only
    rw [if_pos hsocket]
    rfl
  · obtain ⟨cmd, rest, hcons⟩ := List.exists_cons_of_ne_nil hinbox
    rw [h, hcons]
    cases cmd <;> rfl
  · obtain ⟨cmd, rest, hcons⟩ := List.exists_cons_of_ne_nil hinbox
    rw [h, hcons]
    rfl

omit [DecidableEq κ] [Fintype κ] in
theorem workerFinish_isSome {w : Worker} (hw : (s.pool.runInfo w).isSome = true)
    (h : (s.threads w).status = .running) (left : Message) (r : JobResult) :
    (s.workerFinish w left r).isSome = true := by
  obtain ⟨run, hrun⟩ := Option.isSome_iff_exists.1 hw
  unfold workerFinish
  rw [hrun, h]
  dsimp only
  split
  · split <;> rfl
  · rfl

omit [Fintype κ] in
theorem proxyWorkerMessage_isSome {w : Worker} (hw : (s.pool.runInfo w).isSome = true)
    (h : (s.threads w).outbox ≠ []) : (s.proxyWorkerMessage w).isSome = true := by
  obtain ⟨run, hrun⟩ := Option.isSome_iff_exists.1 hw
  obtain ⟨reply, rest, hcons⟩ := List.exists_cons_of_ne_nil h
  unfold proxyWorkerMessage
  rw [hrun, hcons]
  cases reply <;> rfl

/-- A worker that can do nothing, and has no message on its way to the proxy, has no job. -/
theorem Inv.phase_of_stuck (hinv : s.Inv cfg f) (hle : s.pool.workers.length ≤ cfg.maxWorkers)
    {w : Worker}
    (hreceive : ¬ (s.workerReceive w).isSome = true)
    (hfinish : ¬ (s.workerFinish w {} .unset).isSome = true)
    (houtbox : (s.threads w).outbox = []) : f w = .absent ∨ f w = .idle ∨ f w = .joined := by
  by_contra hne
  simp only [not_or] at hne
  have hw := hinv.runInfo_isSome hne.1
  have hfits := hinv.fits w
  have hinbox : (s.threads w).inbox = _ := hfits.inbox
  have hsaid : (f w).outbox = [] := hfits.outbox.symm.trans houtbox
  have hstatus : (s.threads w).status = _ ∨ (s.threads w).status = _ ∧ _ := hfits.status
  have htold : ∀ {p : Phase}, f w = p → p.status = .waiting → p.inbox ≠ [] → False := by
    intro p hp hwaiting hne
    refine hreceive (workerReceive_isSome hw (Or.inr ⟨?_, ?_⟩))
    · rw [hp, hwaiting] at hstatus
      exact hstatus.imp_right And.left
    · rw [hinbox, hp]
      simp [hne]
  cases hp : f w with
  | absent => exact hne.1 hp
  | idle => exact hne.2.1 hp
  | joined => exact hne.2.2 hp
  | assigned => exact htold hp rfl (by simp [Phase.inbox])
  | quitSent => exact htold hp rfl (by simp [Phase.inbox])
  | spawned =>
    rw [hp] at hstatus
    simp only [Phase.status, reduceCtorEq, false_and, and_false, or_false] at hstatus
    exact hreceive (workerReceive_isSome hw (Or.inl ⟨hstatus, hinv.hasSocket hle hw⟩))
  | running =>
    rw [hp] at hstatus
    simp only [Phase.status, reduceCtorEq, false_and, and_false, or_false] at hstatus
    exact hfinish (workerFinish_isSome hw hstatus {} .unset)
  | ran | quitting => simp [hp, Phase.outbox] at hsaid

/-- In a pool at rest, no worker has anything to do. -/
theorem Inv.phase_of_rest (hinv : s.Inv cfg f) (hle : s.pool.workers.length ≤ cfg.maxWorkers)
    (hsound : s.Sound cfg) (hstopped : s.stopped = false)
    (hrest : Transition.AtRest (Sys.step cfg) (PoolEvent.isOwn · = true) s) (w : Worker) :
    f w = .absent ∨ f w = .idle ∨ f w = .joined := by
  -- A step that costs something cannot leave the state as it is.
  have hnone : ∀ e : PoolEvent κ, e.isOwn = true → e.cost = 1 → ¬ (Sys.step cfg s e).isSome := by
    intro e hown hcost hsome
    obtain ⟨s', hs'⟩ := Option.isSome_iff_exists.1 hsome
    have hpays := (settles cfg).pays s e s' hsound hown hs'
    rw [hrest e hown s' hs', hcost] at hpays
    omega
  have hreceive : ¬ (s.workerReceive w).isSome = true := fun h =>
    hnone (.receive w) rfl rfl (by rwa [Sys.step, hstopped, if_neg Bool.false_ne_true])
  have hfinish : ¬ (s.workerFinish w {} .unset).isSome = true := fun h =>
    hnone (.finish w {} .unset) rfl rfl (by rwa [Sys.step, hstopped, if_neg Bool.false_ne_true])
  have hmessage : ¬ (s.proxyWorkerMessage w).isSome = true := fun h =>
    hnone (.workerMessage w) rfl rfl (by rwa [Sys.step, hstopped, if_neg Bool.false_ne_true])
  by_cases hw : f w = .absent
  · exact Or.inl hw
  · refine hinv.phase_of_stuck hle hreceive hfinish ?_
    by_contra hne
    exact hmessage (proxyWorkerMessage_isSome (hinv.runInfo_isSome hw) hne)

/-- Nothing is left to do: the queues are empty, no worker has a job, and every batch has come to
its end. -/
structure Drained (s : Sys κ) : Prop where
  batchJobs : s.pool.batchJobs = []
  replyJobs : s.pool.replyJobs = []
  pending : s.pool.pendingCommands = []
  tagged : ∀ tw ∈ s.pool.taggedWorkers, tw.busy = false ∧ tw.queue = []
  outstanding : ∀ w, s.outstanding w = 0
  batches : ∀ ptr spec, .submitted ptr spec ∈ s.log → .deleted ptr ∈ s.log
  completed : ∀ ptr spec, .submitted ptr spec ∈ s.log → spec.complete.isSome = true →
    ∃ place results, .completed ptr place results ∈ s.log

omit [DecidableEq κ] [Fintype κ] in
/-- A batch that has been deleted has been completed. -/
theorem BatchesFit.exists_completed (h : s.BatchesFit cfg f) {ptr : ℕ} {spec : BatchSpec}
    (hspec : .submitted ptr spec ∈ s.log) (hdel : .deleted ptr ∈ s.log)
    (hcomplete : spec.complete.isSome = true) :
    ∃ place results, .completed ptr place results ∈ s.log := by
  obtain ⟨life, hfits, hlife⟩ := exists_life_of_submitted h hspec
  have hover : life.IsOver :=
    (hfits.isOver life rfl).2 (hfits.accepts.delete_mem_iff.1 (LogEntry.mem_delete.2 hdel))
  obtain ⟨place, results, hmem⟩ := hfits.accepts.exists_call hover (by
    rw [hlife, BatchSpec.places, Option.isSome_map]
    exact hcomplete)
  exact ⟨place, results, LogEntry.mem_call.1 hmem⟩

omit [DecidableEq κ] [Fintype κ] in
/-- A batch that has not been deleted has a job in a queue or in the hands of a worker. -/
theorem BatchesFit.exists_job (h : s.BatchesFit cfg f) (hheap : s.HeapOk) {ptr : ℕ}
    {spec : BatchSpec} (hspec : .submitted ptr spec ∈ s.log) (hdel : .deleted ptr ∉ s.log) :
    (∃ thread, s.pool.queue thread ≠ []) ∨ ∃ w, (f w).busy = true := by
  obtain ⟨life, hfits, _⟩ := exists_life_of_submitted h hspec
  have hdeleted : life.deleted = false := by
    rw [← Bool.not_eq_true, ← hfits.accepts.delete_mem_iff]
    exact fun hmem => hdel (LogEntry.mem_delete.1 hmem)
  obtain ⟨b, hb, hstored⟩ := hfits.stored life rfl hdeleted
  have hlength := (Reflects.of_accepts hfits.accepts).length
  obtain ⟨q, hq⟩ : ∃ q, life.spot placement q ≠ .gone := by
    refine Life.exists_spot_of_not_over hlength (fun hall _ p hp hdirect => ?_) ?_
    · -- Such a completion function is called as soon as the last job has returned.
      have hjob : b.isJob = false := by
        by_contra hjob
        rw [(hstored.job (by simpa using hjob)).2] at hp
        cases hp
      have hzero : b.jobsOutstanding = 0 := by
        rw [hstored.outstanding hjob, Life.unfinished_eq_zero_iff.2 hall]
        rfl
      exact (hheap.called ptr b hb hjob hzero).2 ((hstored.thread p hp).trans hdirect)
    · rw [hfits.isOver life rfl, hdeleted]
      exact Bool.false_ne_true
  have hspot : spotAt (BatchView.spots (some life)) (jobNumber q) = life.spot placement q :=
    spotAt_jobNumber ..
  rcases hx : life.spot placement q with thread | ⟨w, late⟩ | _
  · have hmem : (⟨ptr, jobNumber q⟩ : BatchJob) ∈ s.pool.queue thread :=
      (mem_queue_iff hfits).2 (hspot.trans hx)
    exact Or.inl ⟨thread, List.ne_nil_of_mem hmem⟩
  · refine Or.inr ⟨w, ?_⟩
    have hhand : s.inHand f w = some (⟨ptr, jobNumber q⟩, late) :=
      (inHand_eq_some_iff hfits).2 (hspot.trans hx)
    by_contra hfree
    rw [inHand_of_free (by simpa using hfree)] at hhand
    cases hhand
  · exact absurd hx hq

/-- A pool that has started what could be started, and whose workers are free, has done everything.
-/
theorem Inv.drained (hinv : s.Inv cfg f) (hfit : s.BatchesFit cfg f) (hheap : s.HeapOk)
    (hopen : s.pool.maxWorkers ≠ 0) (hsat : s.Saturated cfg) (hfree : ∀ w, (f w).busy = false) :
    s.Drained := by
  have hout : ∀ w, s.outstanding w = 0 := fun w => by
    have := hinv.outstanding_ne_zero_iff w
    rw [hfree w] at this
    simpa using this
  have hactive : s.pool.activeWorkers = 0 := by
    rw [← hinv.sum_active hopen]
    refine Finset.sum_eq_zero fun k _ => ?_
    rw [hinv.active_eq k, jobsOf]
    simp [hout]
  have hfull : ∀ k, ¬ s.Full cfg k := fun k hfull => by
    have := hfull.2
    have := cfg.generalWorkers_pos
    omega
  have htagged : ∀ tw ∈ s.pool.taggedWorkers, tw.busy = false ∧ tw.queue = [] := by
    intro tw htw
    obtain ⟨t, ht⟩ := List.mem_iff_getElem?.1 htw
    have hbusy : tw.busy = false := (hinv.tagged.busy t tw ht).trans (hfree _)
    refine ⟨hbusy, (hsat.tagged tw htw).resolve_left ?_⟩
    rw [hbusy]
    exact Bool.false_ne_true
  have hjobs : ∀ reply, s.jobQueue reply = [] := fun reply => by
    by_contra hne
    exact hfull _ (hsat.jobs reply hne)
  have hdeleted : ∀ ptr spec, .submitted ptr spec ∈ s.log → .deleted ptr ∈ s.log := by
    intro ptr spec hspec
    by_contra hdel
    rcases hfit.exists_job hheap hspec hdel with ⟨thread, hne⟩ | ⟨w, hw⟩
    · refine hne ?_
      rcases Pool.thread_cases thread with ⟨t, rfl⟩ | rfl | hneg
      · rw [Pool.queue_tagged]
        rcases ht : s.pool.taggedWorkers[t]? with _ | tw
        · rfl
        · exact (htagged tw (List.mem_of_getElem? ht)).2
      · rw [Pool.queue_zero, show s.pool.batchJobs = [] from hjobs false,
          show s.pool.replyJobs = [] from hjobs true, List.append_nil]
      · exact Pool.queue_neg _ hneg
    · rw [hfree w] at hw
      cases hw
  refine ⟨hjobs false, hjobs true, ?_, htagged, hout, hdeleted, fun ptr spec hspec =>
    hfit.exists_completed hspec (hdeleted ptr spec hspec)⟩
  refine List.eq_nil_iff_forall_not_mem.2 fun p hp => ?_
  exact hfull _ (hsat.pending p hp)

/-- A pool at rest before `QUIT` has done everything. -/
theorem Sound.drained (hsound : s.Sound cfg) (hopen : s.pool.maxWorkers ≠ 0)
    (hstopped : s.stopped = false)
    (hrest : Transition.AtRest (Sys.step cfg) (PoolEvent.isOwn · = true) s) : s.Drained := by
  obtain ⟨f, hinv, hfit⟩ := hsound.inv
  refine hinv.drained hfit hsound.heap hopen ?_ fun w => ?_
  · -- Every pass over the queues starts what can be started, and now nothing is in the way.
    have hstep : Sys.step cfg s .processQueue = some (s.proxyProcessQueue cfg) := by
      rw [Sys.step, hstopped, if_neg Bool.false_ne_true]
    rw [← hrest .processQueue rfl _ hstep]
    exact hinv.saturated hopen
  · rcases hinv.phase_of_rest (hinv.isOpen hopen).length_le hsound hstopped hrest w with
      hp | hp | hp <;> rw [hp] <;> rfl

/-- A pool at rest after `QUIT` has no thread left. -/
theorem Sound.allJoined (hsound : s.Sound cfg) (hquit : s.pool.maxWorkers = 0)
    (hle : s.pool.workers.length ≤ cfg.maxWorkers) (hstopped : s.stopped = false)
    (hrest : Transition.AtRest (Sys.step cfg) (PoolEvent.isOwn · = true) s) :
    s.allJoined = true := by
  obtain ⟨f, hinv, _⟩ := hsound.inv
  have hjoined : ∀ w run, s.pool.runInfo w = some run → run.joinable = false := by
    intro w run hrun
    have hjoin : (s.pool.runInfo w).map RunInfo.joinable = (f w).joinable := (hinv.fits w).joinable
    rw [hrun, Option.map_some] at hjoin
    rcases hinv.phase_of_rest hle hsound hstopped hrest w with hp | hp | hp
    · rw [hp] at hjoin
      cases hjoin
    · exact absurd hp (hinv.quitting hquit w)
    · rw [hp] at hjoin
      exact Option.some.inj hjoin
  rw [Sys.allJoined, Bool.and_eq_true_iff, List.all_eq_true, List.all_eq_true]
  constructor
  · intro run hrun
    obtain ⟨i, hi⟩ := List.mem_iff_getElem?.1 hrun
    rw [hjoined (.untagged i) run hi]
    rfl
  · intro tw htw
    obtain ⟨t, ht⟩ := List.mem_iff_getElem?.1 htw
    rw [hjoined (.tagged t) tw.run (by rw [Pool.runInfo, ht]; rfl)]
    rfl

/-- The pool has taken steps of its own only, after the run `es`. -/
theorem sound_of_own {es fs : List (PoolEvent κ)} {t : Sys κ}
    (hrun : Transition.run (Sys.step cfg) (init cfg) es = some s)
    (hown : ∀ e ∈ fs, e.isOwn = true) (hfs : Transition.run (Sys.step cfg) s fs = some t)
    (hstop : .stop ∉ es) :
    t.Sound cfg ∧ t.stopped = false ∧ (t.pool.maxWorkers = 0 ↔ .quit ∈ es) := by
  have hall := Transition.run_append_eq_some.2 ⟨s, hrun, hfs⟩
  have hstop' : .stop ∉ fs := fun hmem => by cases hown _ hmem
  have hquit' : .quit ∉ fs := fun hmem => by cases hown _ hmem
  obtain ⟨hsound, hstopped⟩ := sound_of_run hall
  refine ⟨hsound, hstopped (by simp [hstop, hstop']), ?_⟩
  rw [maxWorkers_eq_zero_iff hall, List.mem_append, or_iff_left hquit']

/-- The pool's own steps dispatch nothing once we quit, so there is still room. -/
theorem bounded_of_own {es fs : List (PoolEvent κ)} {t : Sys κ}
    (hrun : Transition.run (Sys.step cfg) (init cfg) es = some s)
    (hown : ∀ e ∈ fs, e.isOwn = true) (hfs : Transition.run (Sys.step cfg) s fs = some t)
    (hroom : InRoom cfg es) : t.pool.workers.length ≤ cfg.maxWorkers := by
  have hall : InRoom cfg (es ++ fs) := by
    intro p hp hquit hdispatch
    rw [Transition.steps_append fs hrun, List.mem_append] at hp
    rcases hp with hp | hp
    · exact hroom p hp hquit hdispatch
    · obtain ⟨pre, post, _, rfl, _, _⟩ := Transition.exists_of_mem_steps hp
      have he := hown p.2 (by simp)
      rcases p with ⟨m, e⟩
      cases e <;> first | cases hdispatch | cases he
  have hmem := Transition.mem_states_of_run [] (Transition.run_append_eq_some.2 ⟨s, hrun, hfs⟩)
  rw [List.append_nil] at hmem
  exact (bounded_of_inRoom hall t hmem).2

/-- **Left alone, the pool does all it has been given.**  Before `QUIT`, whichever steps of their
own the proxy and the workers take, there are no more than `work` of them besides looks at the
queues that start nothing; they can be taken to the end; and at the end the queues are empty, no
worker has a job, and every batch has been completed and deleted. -/
theorem drains {es : List (PoolEvent κ)}
    (hrun : Transition.run (Sys.step cfg) (init cfg) es = some s) (hquit : .quit ∉ es) :
    (∀ fs t, (∀ e ∈ fs, e.isOwn = true) → Transition.run (Sys.step cfg) s fs = some t →
      (fs.map PoolEvent.cost).sum ≤ s.work ∧
      (Transition.AtRest (Sys.step cfg) (PoolEvent.isOwn · = true) t → t.Drained)) ∧
    ∃ fs t, (∀ e ∈ fs, e.isOwn = true) ∧ Transition.run (Sys.step cfg) s fs = some t ∧
      Transition.AtRest (Sys.step cfg) (PoolEvent.isOwn · = true) t := by
  have hsound := (sound_of_run hrun).1
  refine ⟨fun fs t hown hfs => ?_, (settles cfg).exists_rest hsound⟩
  obtain ⟨ht, hstopped, hmax⟩ := sound_of_own hrun hown hfs fun hmem =>
    hquit (quit_of_stop hrun hmem)
  have hle := (settles cfg).run_le hsound hown hfs
  exact ⟨by omega, ht.drained (fun hzero => hquit (hmax.1 hzero)) hstopped⟩

theorem drains_busyRun :
    ∃ s, Transition.run (Sys.step smallConfig) (init smallConfig) busyRun = some s ∧
      s.work ≠ 0 ∧ ∃ fs t, (∀ e ∈ fs, e.isOwn = true) ∧
        Transition.run (Sys.step smallConfig) s fs = some t ∧ t.Drained := by
  have hrun : Transition.run (Sys.step smallConfig) (init smallConfig) busyRun = some _ := rfl
  obtain ⟨hends, fs, t, hown, hfs, hrest⟩ := drains hrun (by simp [busyRun])
  exact ⟨_, hrun, by decide, fs, t, hown, hfs, (hends fs t hown hfs).2 hrest⟩

/-- **`QUIT` ends the proxy thread**, as long as there is room for every worker that is started
after it.  The proxy and the workers run out of steps of their own, whichever they take; and when
they have, every worker has been joined, so that the proxy thread can end. -/
theorem quit_completes {es : List (PoolEvent κ)}
    (hrun : Transition.run (Sys.step cfg) (init cfg) es = some s) (hquit : .quit ∈ es)
    (hstop : .stop ∉ es) (hroom : InRoom cfg es) :
    (∀ fs t, (∀ e ∈ fs, e.isOwn = true) → Transition.run (Sys.step cfg) s fs = some t →
      (fs.map PoolEvent.cost).sum ≤ s.work ∧
      (Transition.AtRest (Sys.step cfg) (PoolEvent.isOwn · = true) t →
        t.allJoined = true ∧ ∃ u, Sys.step cfg t .stop = some u)) ∧
    ∃ fs t, (∀ e ∈ fs, e.isOwn = true) ∧ Transition.run (Sys.step cfg) s fs = some t ∧
      Transition.AtRest (Sys.step cfg) (PoolEvent.isOwn · = true) t := by
  have hsound := (sound_of_run hrun).1
  refine ⟨fun fs t hown hfs => ?_, (settles cfg).exists_rest hsound⟩
  obtain ⟨ht, hstopped, hmax⟩ := sound_of_own hrun hown hfs hstop
  have hle := (settles cfg).run_le hsound hown hfs
  refine ⟨by omega, fun hrest => ?_⟩
  have hjoined := ht.allJoined (hmax.2 hquit) (bounded_of_own hrun hown hfs hroom) hstopped hrest
  refine ⟨hjoined, { t with stopped := true }, ?_⟩
  rw [Sys.step, hstopped, if_neg Bool.false_ne_true]
  exact if_pos ⟨hmax.2 hquit, hjoined⟩

theorem quit_completes_busyRun :
    ∃ s, Transition.run (Sys.step smallConfig) (init smallConfig) (busyRun ++ [.quit]) = some s ∧
      s.allJoined = false ∧ ∃ fs t u, (∀ e ∈ fs, e.isOwn = true) ∧
        Transition.run (Sys.step smallConfig) s fs = some t ∧
        Sys.step smallConfig t .stop = some u := by
  have hrun : Transition.run (Sys.step smallConfig) (init smallConfig) (busyRun ++ [.quit]) =
      some _ := rfl
  obtain ⟨hends, fs, t, hown, hfs, hrest⟩ :=
    quit_completes hrun (by simp) (by simp [busyRun]) (by decide)
  obtain ⟨_, u, hu⟩ := (hends fs t hown hfs).2 hrest
  exact ⟨_, hrun, by decide, fs, t, u, hown, hfs, hu⟩

end Sys

end OxenMQ
