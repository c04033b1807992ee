import OxenMQ.Workers.LifeCycle
import OxenMQ.Workers.Log

/-!
# Where a job is

From the time its batch comes in until the proxy hears that it has returned, a job is in one place:
it is in a queue, or a worker has it.  The worker may not have begun with it yet, it may be running
it, or it may be through with it and the proxy does not know yet.
-/

set_option autoImplicit false

namespace OxenMQ

open ForkJoin

variable {κ : Type}

inductive Site where
  | queue (thread : ℤ)
  | worker (w : Worker)
  deriving DecidableEq

namespace Sys

/-- The job is there. -/
def IsAt (s : Sys κ) (bj : BatchJob) : Site → Prop
  | .queue thread => bj ∈ s.pool.queue thread
  | .worker w => s.outstanding w ≠ 0 ∧ ∃ run, s.pool.runInfo w = some run ∧ run.batchJob = some bj

variable {cfg : PoolConfig κ} {s : Sys κ} {f : Worker → Phase} {bj bj' : BatchJob} {ptr : ℕ}
  {spec : BatchSpec} {n : ℕ} {o : Option (Life Worker JobResult ℤ)}

/-- A worker has one job at a time. -/
theorem isAt_worker_inj {w : Worker} (h : s.IsAt bj (.worker w)) (h' : s.IsAt bj' (.worker w)) :
    bj = bj' := by
  obtain ⟨_, run, hrun, hbj⟩ := h
  obtain ⟨_, run', hrun', hbj'⟩ := h'
  obtain rfl : run = run' := Option.some.inj (hrun.symm.trans hrun')
  exact Option.some.inj (hbj.symm.trans hbj')

theorem mem_queue_iff (h : (s.batchView f bj.ptr).Fits n o) {thread : ℤ} :
    bj ∈ s.pool.queue thread ↔ spotAt (BatchView.spots o) bj.jobno = .waiting thread := by
  have hcount : (s.pool.queue thread).count bj = _ := h.queued thread bj.jobno
  rw [← List.count_pos_iff, hcount]
  split <;> simp [*]

theorem inHand_eq_some_iff {w : Worker} {late : Bool} (h : (s.batchView f bj.ptr).Fits n o) :
    s.inHand f w = some (bj, late) ↔
      spotAt (BatchView.spots o) bj.jobno = .held w late := by
  rw [← h.held]
  refine ⟨held_self, fun hheld => ?_⟩
  obtain ⟨⟨bj', late'⟩, hhand, hif⟩ := Option.bind_eq_some_iff.1 hheld
  split at hif
  · rename_i hptr
    obtain ⟨hno, rfl⟩ := Prod.mk.inj (Option.some.inj hif)
    rw [hhand, show bj' = bj from congrArg₂ BatchJob.mk hptr hno]
  · cases hif

theorem lt_nextPtr_of_submitted (h : s.BatchesFit cfg f) (hspec : .submitted ptr spec ∈ s.log) :
    ptr < s.nextPtr := by
  obtain ⟨life, hfits, _⟩ := exists_life_of_submitted h hspec
  exact of_decide_eq_true hfits.allocated

/-- Nothing is known about a batch that is yet to come. -/
theorem not_finished_of_le (h : s.BatchesFit cfg f) (hptr : s.nextPtr ≤ ptr) (i : ℕ) :
    .finished ⟨ptr, i⟩ ∉ s.log := by
  intro hmem
  obtain ⟨o, hfits⟩ := h ptr
  cases o with
  | none =>
    have hevent := (LogEntry.mem_finish (q := some i)).2 hmem
    rw [show s.log.filterMap (LogEntry.about ptr) = [] from hfits.accepts.eq_nil] at hevent
    cases hevent
  | some life =>
    have hlt : ptr < s.nextPtr := of_decide_eq_true hfits.allocated
    omega

/-- No queue has a job twice. -/
theorem count_queue_le_one (h : s.BatchesFit cfg f) (bj : BatchJob) (thread : ℤ) :
    (s.pool.queue thread).count bj ≤ 1 := by
  obtain ⟨o, hfits⟩ := h bj.ptr
  rw [show (s.pool.queue thread).count bj = _ from hfits.queued thread bj.jobno]
  split <;> omega

/-- When the last job of a batch returns whose completion function is for the proxy thread, the
function is called.  Here the job is the only one. -/
theorem completionFor_of_single {w : Worker} {run : RunInfo κ} (h : s.BatchesFit cfg f)
    (hspec : .submitted bj.ptr spec ∈ s.log) (hone : spec.jobs.length = 1)
    (hdirect : spec.complete.map Prod.snd = some (-1)) (hphase : f w = .ran)
    (hrun : s.pool.runInfo w = some run) (hbj : run.batchJob = some bj) :
    bj.jobno = 0 ∧ s.completionFor (-1) bj = [⟨bj.ptr, -1⟩] := by
  obtain ⟨life, hfits, hlife⟩ := exists_life_of_submitted h hspec
  have hevs := Reflects.of_accepts hfits.accepts
  have hfinal : life.spec.final = some (-1) := by rw [hlife]; exact hdirect
  have hlength : life.spec.jobs.length = 1 := by rw [hlife]; exact (List.length_map ..).trans hone
  have hhand : s.inHand f w = some (bj, true) := by
    rw [inHand, hphase, if_pos (show Phase.ran.busy = true from rfl), hrun, Option.bind_some, hbj]
    simp [Phase.late]
  obtain ⟨_, q, ⟨⟩, hq, hspot⟩ := hfits.exists_life ((inHand_eq_some_iff hfits).1 hhand) (by simp)
  obtain ⟨p, hp, hplace⟩ :=
    hfits.accepts.place_of_giveTo (hfits.accepts.giveTo_mem (Life.holder_of_spot hspot))
  cases q with
  | none =>
    -- The completion function is never given to a worker.
    have hw : w.place = -1 := hplace.trans (Option.some.inj (hp.symm.trans hfinal))
    cases w <;> simp [Worker.place] at hw
    omega
  | some i =>
    obtain rfl : i = 0 := by
      have hi : i < life.spec.jobs.length := (List.getElem?_eq_some_iff.1 hp).1
      omega
    refine ⟨hq, ?_⟩
    obtain ⟨_, b, hcell, hb⟩ := hfits.alive (hspot.trans_ne (by simp))
    obtain ⟨life', hstep, _, _⟩ := Life.exists_finish hevs hspot
    obtain ⟨b', hfinished, _⟩ := hb.jobFinished_eq hevs.length hstep
    have hall : life'.allFinished := by
      refine Life.unfinished_eq_zero_iff.1 ?_
      have hcount := hstep.unfinished_finish
      have hle : life.unfinished ≤ life.jobs.length := List.countP_le_length
      have hlen := hevs.length
      omega
    rw [if_pos hall, hstep.spec_eq, hfinal] at hfinished
    have hne : bj.jobno ≠ -1 := by
      rw [hq, jobNumber]
      omega
    rw [completionFor, if_neg hne, show s.heap bj.ptr = some b from hcell]
    simp [hfinished]

variable [DecidableEq κ] [Fintype κ]

theorem isAt_worker_iff {w : Worker} (hinv : s.Inv cfg f) (h : (s.batchView f bj.ptr).Fits n o) :
    s.IsAt bj (.worker w) ↔ ∃ late, spotAt (BatchView.spots o) bj.jobno = .held w late := by
  simp only [← inHand_eq_some_iff h]
  constructor
  · rintro ⟨hout, run, hrun, hbj⟩
    refine ⟨(f w).late bj.jobno, ?_⟩
    rw [inHand, if_pos ((hinv.outstanding_ne_zero_iff w).1 hout), hrun, Option.bind_some, hbj]
    rfl
  · rintro ⟨late, hhand⟩
    unfold inHand at hhand
    split at hhand
    · rename_i hbusy
      obtain ⟨bj', hbj', heq⟩ := Option.map_eq_some_iff.1 hhand
      cases heq
      exact ⟨(hinv.outstanding_ne_zero_iff w).2 hbusy, Option.bind_eq_some_iff.1 hbj'⟩
    · cases hhand

/-- A job of a batch that is yet to come is nowhere. -/
theorem not_isAt_of_le (hinv : s.Inv cfg f) (h : s.BatchesFit cfg f) (hptr : s.nextPtr ≤ bj.ptr)
    (x : Site) : ¬ s.IsAt bj x := by
  obtain ⟨o, hfits⟩ := h bj.ptr
  cases o with
  | none =>
    cases x with
    | queue thread =>
      intro hx
      cases (spotAt_none _).symm.trans ((mem_queue_iff hfits).1 hx)
    | worker w =>
      intro hx
      obtain ⟨late, hx⟩ := (isAt_worker_iff hinv hfits).1 hx
      cases (spotAt_none _).symm.trans hx
  | some life => exact absurd (of_decide_eq_true hfits.allocated) (not_lt.2 hptr)

/-- **A job is in one place.** -/
theorem isAt_unique (hinv : s.Inv cfg f) (h : s.BatchesFit cfg f) {x y : Site} (hx : s.IsAt bj x)
    (hy : s.IsAt bj y) : x = y := by
  obtain ⟨o, hfits⟩ := h bj.ptr
  have hspot : ∀ {x : Site}, s.IsAt bj x → match x with
      | .queue thread => spotAt (BatchView.spots o) bj.jobno = .waiting thread
      | .worker w => ∃ late, spotAt (BatchView.spots o) bj.jobno = .held w late := by
    intro x hx
    cases x with
    | queue thread => exact (mem_queue_iff hfits).1 hx
    | worker w => exact (isAt_worker_iff hinv hfits).1 hx
  have hx' := hspot hx
  have hy' := hspot hy
  cases x with
  | queue thread =>
    cases y with
    | queue thread' =>
      cases hx'.symm.trans hy'
      rfl
    | worker w =>
      obtain ⟨_, hy'⟩ := hy'
      cases hx'.symm.trans hy'
  | worker w =>
    obtain ⟨_, hx'⟩ := hx'
    cases y with
    | queue thread' => cases hx'.symm.trans hy'
    | worker w' =>
      obtain ⟨_, hy'⟩ := hy'
      cases hx'.symm.trans hy'
      rfl

/-- **A job is somewhere until the proxy hears that it has returned.** -/
theorem exists_isAt_iff (hinv : s.Inv cfg f) (h : s.BatchesFit cfg f)
    (hspec : .submitted ptr spec ∈ s.log) {i : ℕ} (hi : i < spec.jobs.length) :
    (∃ x, s.IsAt ⟨ptr, i⟩ x) ↔ .finished ⟨ptr, i⟩ ∉ s.log := by
  obtain ⟨life, hfits, hlife⟩ := exists_life_of_submitted h hspec
  have hi' : i < life.spec.jobs.length := by
    rw [hlife]
    exact hi.trans_eq (List.length_map ..).symm
  have hfinished : .finished ⟨ptr, i⟩ ∈ s.log ↔ life.spot placement (some i) = .gone := by
    rw [hfits.accepts.spot_gone_iff hi']
    exact (LogEntry.mem_finish (q := some i)).symm
  have hspot : spotAt (BatchView.spots (some life)) i = life.spot placement (some i) :=
    spotAt_jobNumber _ (some i)
  have hqueue : ∀ thread, s.IsAt ⟨ptr, i⟩ (.queue thread) ↔
      spotAt (BatchView.spots (some life)) i = .waiting thread := fun _ => mem_queue_iff hfits
  have hworker : ∀ w, s.IsAt ⟨ptr, i⟩ (.worker w) ↔
      ∃ late, spotAt (BatchView.spots (some life)) i = .held w late := fun _ =>
    isAt_worker_iff hinv hfits
  rw [hfinished, ← hspot]
  constructor
  · rintro ⟨x, hx⟩ hgone
    cases x with
    | queue thread => cases hgone.symm.trans ((hqueue thread).1 hx)
    | worker w =>
      obtain ⟨_, hheld⟩ := (hworker w).1 hx
      cases hgone.symm.trans hheld
  · intro hne
    rcases hx : spotAt (BatchView.spots (some life)) i with thread | ⟨w, late⟩ | _
    · exact ⟨.queue thread, (hqueue thread).2 hx⟩
    · exact ⟨.worker w, (hworker w).2 ⟨late, hx⟩⟩
    · exact absurd hx hne

end Sys

end OxenMQ
