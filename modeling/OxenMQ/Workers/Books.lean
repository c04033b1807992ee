import OxenMQ.Workers.Preservation

/-!
# The books are right, and reservations are kept

What the invariant says before `QUIT`, in terms of the jobs that are really outstanding and not of
phases.  `Sys.jobsOf` counts the untagged workers that have a job of a kind; `Sys.Books` compares
the proxy's lists, flags and counters with what is outstanding.  Both hold in every state before
`QUIT`, whatever the order in which commands come in and workers finish.
-/

set_option autoImplicit false

namespace OxenMQ

namespace Sys

variable {κ : Type} [DecidableEq κ]

/-- The number of untagged workers that have an outstanding job of this kind. -/
def jobsOf (s : Sys κ) (k : Kind κ) : ℕ :=
  ((Finset.range s.pool.workers.length).filter fun i =>
    s.outstanding (.untagged i) ≠ 0 ∧ s.pool.workers[i]?.bind RunInfo.kind = some k).card

/-- The list of idle workers, the flags of the tagged ones and the counts of active jobs agree with
`outstanding`, the number of jobs that each worker has been given and not returned, and the counts
of queued commands agree with the queue. -/
structure Books (s : Sys κ) : Prop where
  /-- The first `idleWorkerCount` entries are there, and no worker is listed twice. -/
  idle_length : s.pool.idle.length = s.pool.idleWorkerCount
  idle_nodup : s.pool.idle.Nodup
  /-- The workers listed as idle are the ones that have no job. -/
  mem_idle : ∀ i, i ∈ s.pool.idle ↔
    i < s.pool.workers.length ∧ s.outstanding (.untagged i) = 0
  busy : ∀ (t : ℕ) tw, s.pool.taggedWorkers[t]? = some tw →
    (tw.busy = true ↔ s.outstanding (.tagged t) ≠ 0)
  /-- No worker has more than one job, and none has been given one while it had another. -/
  outstanding : ∀ w, s.outstanding w = 0 ∨ s.outstanding w = 1
  overwritten : s.overwritten = false
  active : ∀ k, s.pool.active k = s.jobsOf k
  queued : ∀ c, s.pool.queued c =
    s.pool.pendingCommands.countP fun p => decide (p.cat = c)

variable [Fintype κ] {cfg : PoolConfig κ} {s : Sys κ} {f : Worker → Phase}

theorem Inv.outstanding_ne_zero_iff (h : s.Inv cfg f) (w : Worker) :
    s.outstanding w ≠ 0 ↔ (f w).busy = true :=
  (h.fits w).outstanding_ne_zero_iff

theorem Inv.active_eq (h : s.Inv cfg f) (k : Kind κ) : s.pool.active k = s.jobsOf k := by
  rw [h.active.count k, Tally.tally, jobsOf]
  congr 2
  ext i
  rw [Finset.mem_filter, Finset.mem_filter, h.outstanding_ne_zero_iff, loadedKind]
  refine and_congr_right fun _ => ?_
  split <;> simp_all

theorem Inv.books (h : s.Inv cfg f) (hopen : s.pool.maxWorkers ≠ 0) : s.Books := by
  refine ⟨?_, h.idle.nodup, fun i => ?_, fun t tw ht => ?_, fun w => ?_, h.overwritten, h.active_eq,
    h.queued⟩
  · have hlen := h.idle.length
    have hle := h.idle.count_le
    rw [Pool.idle, List.length_take]
    omega
  · have hfree : s.outstanding (.untagged i) = 0 ↔ (f (.untagged i)).busy = false := by
      rw [← not_iff_not, Bool.not_eq_false]
      exact h.outstanding_ne_zero_iff _
    rw [Pool.idle, h.idle.mem_iff, Phase.eq_idle_iff ((h.isOpen hopen).told _), ← Nat.not_le,
      ← h.absent_iff, hfree]
  · rw [h.outstanding_ne_zero_iff, h.tagged.busy t tw ht]
  · rw [show s.outstanding w = _ from (h.fits w).outstanding]
    split
    · exact Or.inr rfl
    · exact Or.inl rfl

/-! ## Reservations -/

/-- **No kind of jobs takes what is reserved for another.**  The other kinds together have at most
the workers that are not reserved for this one, a kind that has not used up its reservation finds
room for one more worker, and so the table of workers never outgrows what was reserved for it. -/
theorem reservations_kept {es : List (PoolEvent κ)}
    (hrun : Transition.run (Sys.step cfg) (init cfg) es = some s) (hquit : .quit ∉ es)
    (k : Kind κ) :
    ((∑ j ∈ Finset.univ.erase k, s.jobsOf j : ℕ) : ℤ) ≤ cfg.maxWorkers - cfg.reserved k ∧
    (s.jobsOf k < cfg.reserved k → s.pool.activeWorkers < cfg.maxWorkers) ∧
    s.pool.workers.length ≤ cfg.maxWorkers := by
  obtain ⟨f, h⟩ := inv_of_run hrun
  have hopen : s.pool.maxWorkers ≠ 0 := fun hmax => hquit ((maxWorkers_eq_zero_iff hrun).1 hmax)
  refine ⟨?_, fun hk => ?_, (h.isOpen hopen).length_le⟩
  · have hothers := Reservation.sum_others_le (h.isOpen hopen).surplus_le k
    rw [Finset.sum_congr rfl fun j _ => h.active_eq j, ← cfg.maxWorkers_eq] at hothers
    rw [Nat.cast_sum]
    exact hothers
  · refine h.activeWorkers_lt hopen (k := k) (Or.inl ?_)
    rw [h.active_eq]
    exact_mod_cast hk

/-- One general worker, and one reserved for the only category there is. -/
def smallConfig : PoolConfig Unit where
  generalWorkers := 1
  generalWorkers_pos := Nat.one_pos
  reservedThreads _ := 1
  maxQueue _ := 200
  taggedThreads := 1

def someTask : InjectedTask Unit := ⟨(), "cat.task", "", 0⟩

/-- Two tasks and a batch with a job for the tagged thread.  The first task takes the slot of its
category, the other one has to wait, and the two jobs are started. -/
def busyRun : List (PoolEvent Unit) :=
  [.inject someTask, .inject someTask, .submit { jobs := [(1, 0), (2, 1)] }, .processQueue]

theorem reservations_kept_busyRun :
    ∃ s, Transition.run (Sys.step smallConfig) (init smallConfig) busyRun = some s ∧
      s.jobsOf (.category ()) = 1 ∧ s.jobsOf .batch = 1 ∧
      ((∑ j ∈ Finset.univ.erase Kind.reply, s.jobsOf j : ℕ) : ℤ) ≤
        smallConfig.maxWorkers - smallConfig.reserved .reply ∧
      s.pool.activeWorkers < smallConfig.maxWorkers ∧
      s.pool.workers.length ≤ smallConfig.maxWorkers := by
  have hrun : Transition.run (Sys.step smallConfig) (init smallConfig) busyRun = some _ := rfl
  obtain ⟨hothers, hroom, hlength⟩ := reservations_kept hrun (by simp [busyRun]) .reply
  exact ⟨_, hrun, by decide, by decide, hothers, hroom (by decide), hlength⟩

/-! ## The books -/

/-- **The books are right before `QUIT`**, and while a worker has a job, nobody but the worker
itself writes to its `run_info`. -/
theorem books_right {es : List (PoolEvent κ)}
    (hrun : Transition.run (Sys.step cfg) (init cfg) es = some s) (hquit : .quit ∉ es) :
    s.Books ∧ ∀ e s', Sys.step cfg s e = some s' → ∀ w, s.outstanding w ≠ 0 → e ≠ .receive w →
      s'.pool.runInfo w = s.pool.runInfo w := by
  obtain ⟨f, h⟩ := inv_of_run hrun
  have hopen : s.pool.maxWorkers ≠ 0 := fun hmax => hquit ((maxWorkers_eq_zero_iff hrun).1 hmax)
  refine ⟨h.books hopen, fun e s' hs w hw hne => ?_⟩
  obtain ⟨_, _, hrunInfo, _⟩ := h.step hs
  exact hrunInfo w ((h.outstanding_ne_zero_iff w).1 hw) hne

theorem books_right_busyRun :
    ∃ s, Transition.run (Sys.step smallConfig) (init smallConfig) busyRun = some s ∧
      s.Books ∧
      ∀ e s', Sys.step smallConfig s e = some s' → ∀ w, s.outstanding w ≠ 0 → e ≠ .receive w →
        s'.pool.runInfo w = s.pool.runInfo w := by
  have hrun : Transition.run (Sys.step smallConfig) (init smallConfig) busyRun = some _ := rfl
  exact ⟨_, hrun, books_right hrun (by simp [busyRun])⟩

end Sys

end OxenMQ
