import OxenMQ.Workers.Routing
import OxenMQ.Workers.Shutdown

/-!
# The proxy does not talk to strangers

The router socket of the workers raises an exception when it is told to send something to an address
it has not heard from (`ZMQ_ROUTER_MANDATORY`), and nothing in the proxy loop would catch it.  The
tagged threads have announced themselves by the time the proxy loop begins.  A new untagged worker
does not announce itself: it finds its first job preloaded, and the first message on its socket is
the `RAN` that follows.  So the proxy must not send it anything before it has received that one.

`Sys.sent_only_to_known` says that it does not, in any run.
-/

set_option autoImplicit false

namespace OxenMQ

variable {κ : Type} [DecidableEq κ]

namespace Sys

variable {s s' : Sys κ} {i : ℕ}

/-- The untagged worker has not been told anything, and nobody takes it for idle. -/
structure Untold (s : Sys κ) (i : ℕ) : Prop where
  sent : s.sent (.untagged i) = []
  idle : i ∉ s.pool.idle
  count_le : s.pool.idleWorkerCount ≤ s.pool.idleWorkers.length

omit [DecidableEq κ] in
theorem Untold.congr (h : s.Untold i) (hsent : s'.sent (.untagged i) = s.sent (.untagged i))
    (hworkers : s'.pool.idleWorkers = s.pool.idleWorkers)
    (hcount : s'.pool.idleWorkerCount = s.pool.idleWorkerCount) : s'.Untold i := by
  refine ⟨hsent.trans h.sent, ?_, ?_⟩
  · rw [Pool.idle, hworkers, hcount]
    exact h.idle
  · rw [hworkers, hcount]
    exact h.count_le

omit [DecidableEq κ] in
theorem SameBooks.untold (h : SameBooks s s') (hs : s.Untold i) : s'.Untold i := by
  obtain ⟨_, _, _, hp, _⟩ := h.pool
  exact hs.congr (by rw [h.sent]) (by rw [hp]) (by rw [hp])

/-! ## Jobs are handed out -/

omit [DecidableEq κ] in
theorem sent_routeControl (s : Sys κ) (cmd : WorkerCommand) {v w : Worker} (h : v ≠ w) :
    (s.routeControl cmd w).sent v = s.sent v :=
  Function.update_of_ne h _ _

omit [DecidableEq κ] in
/-- A worker is started or told to run, and no other. -/
theorem sent_proxyRunWorker (s : Sys κ) {v w : Worker} (h : v ≠ w) :
    (s.proxyRunWorker w).sent v = s.sent v := by
  unfold proxyRunWorker
  split
  · split
    · exact sent_routeControl s .run h
    · rfl
  · rfl

omit [DecidableEq κ] in
theorem Untold.startTagged (h : s.Untold i) (t : ℕ) : (s.startTagged t).Untold i := by
  rcases s.startTagged_cases t with ⟨heq, _⟩ | ⟨tw, bj, rest, ht, hb, hq⟩
  · rwa [heq]
  · obtain ⟨_, _, hpool, _⟩ := s.startTagged_pool ht hb hq
    refine h.congr ?_ (by rw [hpool]) (by rw [hpool])
    unfold Sys.startTagged
    rw [ht]
    dsimp only
    rw [hb, hq]
    exact sent_proxyRunWorker _ (by simp)

/-- A job goes to a worker that is idle, or to a new one. -/
theorem Untold.dispatch (h : s.Untold i) (k : Kind κ) (l : Load κ) : (s.dispatch k l).Untold i := by
  cases hcount : s.pool.idleWorkerCount with
  | zero =>
    rw [dispatch_new s k l hcount]
    exact h.congr rfl (by simp) (by simp)
  | succ m =>
    have hle := h.count_le
    have hm : m < s.pool.idleWorkers.length := by omega
    have hne : Worker.untagged i ≠ .untagged (s.pool.idleWorkers.getD m 0) := by
      intro heq
      refine h.idle ?_
      rw [Worker.untagged.inj heq, Pool.idle, hcount, List.getD_eq_getElem _ _ hm]
      exact List.mem_take_iff_getElem.2 ⟨m, by omega, rfl⟩
    have hget : s.pool.getIdleWorker =
        ({ s.pool with idleWorkerCount := m }, s.pool.idleWorkers.getD m 0) := by
      rw [Pool.getIdleWorker, if_neg (by omega), hcount]
      rfl
    generalize s.pool.idleWorkers.getD m 0 = j at hne hget
    obtain ⟨⟨g, hpool⟩, _⟩ := ({ s with pool := { s.pool with idleWorkerCount := m } }.load
      (.untagged j) l).proxyRunWorker_spec (.untagged j)
    rw [Sys.dispatch, hget]
    dsimp only
    refine ⟨(sent_proxyRunWorker _ hne).trans h.sent, ?_, ?_⟩
    · rw [Pool.idle, Pool.idleWorkers_addActive, Pool.idleWorkerCount_addActive, hpool]
      show i ∉ s.pool.idleWorkers.take m
      refine fun hmem => h.idle ?_
      rw [Pool.idle, hcount]
      exact List.take_subset_take_left _ (Nat.le_succ m) hmem
    · rw [Pool.idleWorkers_addActive, Pool.idleWorkerCount_addActive, hpool]
      show m ≤ s.pool.idleWorkers.length
      omega

theorem Untold.proxyProcessQueue (h : s.Untold i) (cfg : PoolConfig κ) :
    (s.proxyProcessQueue cfg).Untold i := by
  refine proxyProcessQueue_induction (P := fun s => s.Untold i) (fun _ t hs => hs.startTagged t)
    (fun s reply bj rest hs _ _ => ?_) (fun s pre p post hs _ _ => ?_) h
  · exact ((s.sameBooks_setJobQueue reply rest).untold hs).dispatch _ _
  · exact (hs.dispatch (.category p.cat) (.pending p)).congr rfl rfl rfl

theorem Untold.queueCommand (h : s.Untold i) (cfg : PoolConfig κ) (p : PendingCommand κ) :
    (s.queueCommand cfg p).Untold i := by
  unfold Sys.queueCommand
  split
  · exact h
  · exact h.congr rfl rfl rfl

theorem Untold.proxyToWorker (h : s.Untold i) (cfg : PoolConfig κ) (a : Arrival κ) :
    (s.proxyToWorker cfg a).Untold i := by
  unfold Sys.proxyToWorker
  split
  · exact h.queueCommand cfg _
  · split
    · exact h
    · exact h.dispatch _ _

theorem Untold.proxyInjectTask (h : s.Untold i) (cfg : PoolConfig κ) (t : InjectedTask κ) :
    (s.proxyInjectTask cfg t).Untold i := by
  unfold Sys.proxyInjectTask
  split
  · exact h.queueCommand cfg _
  · exact h.dispatch _ _

/-! ## The proxy hears from another worker -/

omit [DecidableEq κ] in
theorem mem_idle_pushIdle {p : Pool κ} {j : ℕ} (h : i ∈ (p.pushIdle j).idle) :
    i ∈ p.idle ∨ i = j := by
  obtain ⟨k, hk, hget⟩ := List.mem_take_iff_getElem.1 h
  have hlen : k < p.idleWorkerCount + 1 ∧ k < p.idleWorkers.length := by
    simpa [Pool.pushIdle] using hk
  have hget : (p.idleWorkers.set p.idleWorkerCount j)[k]? = some i :=
    List.getElem?_eq_some_iff.2 ⟨by simpa using hlen.2, hget⟩
  rw [List.getElem?_set] at hget
  split at hget
  · rename_i heq
    rw [if_pos (heq ▸ hlen.2)] at hget
    exact Or.inr (Option.some.inj hget).symm
  · refine Or.inl (List.mem_take_iff_getElem.2 ⟨k, ?_, (List.getElem?_eq_some_iff.1 hget).2⟩)
    omega

omit [DecidableEq κ] in
/-- Another worker is told to quit, or is idle again. -/
theorem retire_untold {w : Worker} (hne : .untagged i ≠ w) (hsent : s.sent (.untagged i) = [])
    (hidle : i ∉ s.pool.idle) :
    (s.retire w).sent (.untagged i) = [] ∧ i ∉ (s.retire w).pool.idle := by
  unfold retire
  split
  · exact ⟨(sent_routeControl s .quit hne).trans hsent, hidle⟩
  · cases w with
    | tagged t => exact ⟨hsent, hidle⟩
    | untagged j =>
      refine ⟨hsent, fun hmem => ?_⟩
      rcases mem_idle_pushIdle hmem with hmem | rfl
      · exact hidle hmem
      · exact hne rfl

theorem workerRan_untold {w : Worker} (hne : .untagged i ≠ w) (run : RunInfo κ)
    (hsent : s.sent (.untagged i) = []) (hidle : i ∉ s.pool.idle) :
    (s.workerRan w run).sent (.untagged i) = [] ∧ i ∉ (s.workerRan w run).pool.idle := by
  have hbooks := s.sameBooks_workerRan w run
  obtain ⟨_, _, _, hp, _⟩ := hbooks.pool
  generalize hs₁ :
    { s with outstanding := Function.update s.outstanding w (s.outstanding w - 1) } = s₁
    at hbooks hp
  obtain ⟨hworkers, hcount, _⟩ := s₁.release_idle w run
  have hsent₁ : (s₁.release w run).sent (.untagged i) = [] := by
    rw [← hsent, ← hs₁]
    unfold release
    split
    · cases w <;> rfl
    · split <;> rfl
  have hidle₁ : i ∉ (s₁.release w run).pool.idle := by
    rw [Pool.idle, hworkers, hcount, ← hs₁]
    exact hidle
  obtain ⟨hsent₂, hidle₂⟩ := retire_untold hne hsent₁ hidle₁
  refine ⟨by rw [hbooks.sent, hsent₂], ?_⟩
  rw [hp]
  exact hidle₂

/-! ## Telling all idle workers to quit -/

omit [DecidableEq κ] in
theorem sent_foldl_quit (ws : List Worker) (s : Sys κ) {v : Worker} (h : v ∉ ws) :
    (ws.foldl (routeControl · .quit) s).sent v = s.sent v := by
  induction ws generalizing s with
  | nil => rfl
  | cons w ws ih =>
    rw [List.mem_cons, not_or] at h
    exact (ih _ h.2).trans (sent_routeControl s .quit h.1)

omit [DecidableEq κ] in
theorem Untold.proxyControlQuit (h : s.Untold i) : s.proxyControlQuit.Untold i := by
  unfold Sys.proxyControlQuit
  dsimp only
  refine ⟨?_, ?_, ?_⟩
  · rw [sent_foldl_quit, sent_foldl_quit]
    · exact h.sent
    · rw [List.mem_map]
      rintro ⟨j, hj, heq⟩
      cases heq
      exact h.idle hj
    · simp [idleTagged]
  · rw [Pool.idle, pool_foldl_quit]
    simp
  · rw [pool_foldl_quit]
    exact Nat.zero_le _

/-! ## The worker threads -/

omit [DecidableEq κ] in
theorem Untold.beginJob (h : s.Untold i) (w : Worker) (run : RunInfo κ) :
    (s.beginJob w run).Untold i := by
  obtain ⟨g, _, _, _, heq, _⟩ := s.beginJob_eq w run
  rw [heq]
  refine h.congr rfl ?_ ?_ <;> cases w <;> rfl

omit [DecidableEq κ] in
theorem Untold.workerReceive (h : s.Untold i) {w : Worker} (hs : s.workerReceive w = some s') :
    s'.Untold i := by
  have hthreads : ∀ threads, ({ s with threads := threads } : Sys κ).Untold i :=
    fun _ => h.congr rfl rfl rfl
  rcases workerReceive_cases hs with ⟨run, _, _, rfl⟩ | ⟨run, cmd, rest, _, _, _, rfl⟩ |
    ⟨_, _, _, _, rfl⟩
  · exact h.beginJob w run
  · cases cmd with
    | run => exact (hthreads _).beginJob w run
    | quit => exact hthreads _
    | start => exact hthreads _
  · exact hthreads _

/-! ## The system -/

variable [Fintype κ] {cfg : PoolConfig κ} {f : Worker → Phase}

theorem Inv.idle_count_le (h : s.Inv cfg f) : s.pool.idleWorkerCount ≤ s.pool.idleWorkers.length :=
  h.idle.count_le.trans h.idle.length.ge

/-- A step that is not a message of the worker itself. -/
theorem Untold.step {e : PoolEvent κ} (h : s.Untold i) (hinv : s.Inv cfg f)
    (hs : Sys.step cfg s e = some s') (hne : e ≠ .workerMessage (.untagged i)) : s'.Untold i := by
  cases e with
  | command a => exact step_command hs ▸ h.proxyToWorker cfg a
  | inject t => exact step_inject hs ▸ h.proxyInjectTask cfg t
  | submit spec => exact (step_submit_cases hs).2 ▸ (s.sameBooks_submit spec).untold h
  | replyJob callback =>
    exact step_replyJob hs ▸ (s.sameBooks_proxyScheduleReplyJob callback).untold h
  | processQueue => exact step_processQueue hs ▸ h.proxyProcessQueue cfg
  | workerMessage w =>
    obtain ⟨g, hinv', _⟩ := hinv.step hs
    have hw : .untagged i ≠ w := fun heq => hne (heq ▸ rfl)
    obtain ⟨run, rest, _, ⟨_, rfl⟩ | ⟨_, rfl⟩⟩ := proxyWorkerMessage_cases (step_workerMessage hs)
    · obtain ⟨hsent, hidle⟩ := workerRan_untold hw run (s := s.takeReply w rest) h.sent h.idle
      exact ⟨hsent, hidle, hinv'.idle_count_le⟩
    · refine h.congr rfl ?_ ?_ <;> cases w <;> rfl
  | quit => exact (step_quit_cases hs).2 ▸ h.proxyControlQuit
  | stop => exact (step_stop_cases hs).2.2 ▸ h.congr rfl rfl rfl
  | receive w => exact h.workerReceive (step_receive hs)
  | finish w left r =>
    obtain ⟨_, _, _, _, ⟨_, _, _, rfl⟩ | ⟨_, rfl⟩⟩ := workerFinish_cases (step_finish hs)
    · exact h.congr rfl rfl rfl
    · exact h.congr rfl rfl rfl

/-- **The proxy sends nothing to a worker that its socket has not heard from.**  Whatever an
untagged worker is sent, the proxy has processed a message of it before. -/
theorem sent_only_to_known {es : List (PoolEvent κ)}
    (hrun : Transition.run (Sys.step cfg) (init cfg) es = some s) (i : ℕ)
    (hsent : s.sent (.untagged i) ≠ []) : .workerMessage (.untagged i) ∈ es := by
  by_contra hnot
  have huntold : s.Untold i := Transition.run_induction_history
    (P := fun (es : List (PoolEvent κ)) (s : Sys κ) => .workerMessage (.untagged i) ∉ es →
      s.Untold i)
    ?_ ?_ hrun hnot
  · exact hsent huntold.sent
  · exact fun _ => ⟨rfl, List.not_mem_nil, Nat.zero_le _⟩
  · intro es s e s' hrun ih hs hnot
    rw [List.mem_append, List.mem_singleton, not_or] at hnot
    obtain ⟨f, hinv⟩ := inv_of_run hrun
    exact (ih hnot.1).step hinv hs (Ne.symm hnot.2)

/-- The worker that has been told to quit has said `RAN` before. -/
theorem sent_only_to_known_quitRun :
    ∃ s, Transition.run (Sys.step smallConfig) (init smallConfig) quitRun = some s ∧
      s.sent (.untagged 0) = [.quit] ∧ .workerMessage (.untagged 0) ∈ quitRun := by
  have hrun : Transition.run (Sys.step smallConfig) (init smallConfig) quitRun = some _ := rfl
  exact ⟨_, hrun, rfl, sent_only_to_known hrun 0 (by decide)⟩

end Sys

end OxenMQ
