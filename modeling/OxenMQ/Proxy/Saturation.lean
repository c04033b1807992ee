import OxenMQ.Proxy.Spec
import OxenMQ.Workers.Saturation

/-!
# The proxy thread does not wait while there is work to be done

Jobs get into the queues in many places: from control messages, from completion functions and
timers, and from messages that are handled without a worker.  Only some of them tell the loop to
skip the next poll.  What makes up for that is the order of the phases: whatever comes in before
`proxy_process_queue` is seen by the same iteration, and what comes in after it is a command that
has to wait for a worker (`Sys.Saturated.accept`) or a reply job, and reply jobs do skip the poll.

`Proxy.Drained` is this argument as an invariant.  Its second half also holds while control messages
are processed, and `OxenMQ.Proxy.Order` uses it there.
-/

set_option autoImplicit false

namespace OxenMQ

variable {κ : Type} [DecidableEq κ]

/-- The phases between `proxy_process_queue` and the next control message. -/
def LoopPhase.afterQueue : LoopPhase → Bool
  | .poll | .incoming _ => true
  | _ => false

/-- The phases in which no worker can have become free since `proxy_process_queue`. -/
def LoopPhase.beforeWorkers : LoopPhase → Bool
  | .poll | .incoming _ | .control => true
  | _ => false

namespace Proxy

variable {cfg : ProxyConfig κ} {p p' : Proxy κ} {timers : Timers}

/-- The loop is about to wait in `zmq::poll` or in `epoll_wait`. -/
def waits (p : Proxy κ) : Bool :=
  decide (p.phase = .poll) && !p.conn.connectionsUpdated && !p.conn.proxySkipOnePoll

omit [DecidableEq κ] in
/-- With `epoll`, the beginning of an iteration says whether it waits. -/
theorem polled_eq_waits {c : Conn} {polled : Bool} (hphase : p.phase = .poll)
    (h : p.conn.beginIteration true = some (c, polled)) : polled = p.waits := by
  unfold Conn.beginIteration at h
  rw [waits, hphase, decide_eq_true rfl, Bool.true_and]
  split at h
  · rename_i hupdated
    obtain ⟨c₁, h₁, h⟩ := Option.bind_eq_some_iff.1 h
    obtain ⟨_, _, rfl⟩ := Option.map_eq_some_iff.1 h₁
    cases h
    rw [hupdated]
    rfl
  · rename_i hupdated
    rw [Bool.not_eq_true] at hupdated
    cases h
    rw [hupdated]
    rfl

/-- Nothing waits that could start, or the loop goes round again. -/
structure Drained (cfg : ProxyConfig κ) (p : Proxy κ) : Prop where
  saturated : p.phase.afterQueue = true → p.skip = true ∨ p.sys.Saturated cfg.pool
  pending : p.phase.beforeWorkers = true → p.sys.PendingFull cfg.pool

/-- Everything that happens to the pool is a run of it. -/
theorem Move.run {r : Option (PendingCommand κ)} (h : Move cfg r p p') :
    ∃ es, Transition.run (Sys.step cfg.pool) p.sys es = some p'.sys := by
  cases h with
  | quiet _ hsys _ => exact ⟨[], by rw [hsys]; rfl⟩
  | thread e _ _ hsys _ => exact Transition.exists_run_of_step hsys
  | begin _ _ hsys => exact ⟨[], by rw [hsys]; rfl⟩
  | next _ hsys => exact ⟨[], by rw [hsys]; rfl⟩
  | jobs es _ _ _ hsys => exact ⟨es, hsys⟩
  | inject _ _ _ hsys => exact Transition.exists_run_of_step hsys
  | quit _ hsys => exact Transition.exists_run_of_step hsys
  | worker _ _ hsys => exact Transition.exists_run_of_step hsys
  | processQueue _ hsys => exact Transition.exists_run_of_step hsys
  | builtin es _ _ _ hsys _ => exact ⟨es, hsys⟩
  | command _ _ _ _ hsys _ => exact Transition.exists_run_of_step hsys
  | done _ _ hsys _ => exact ⟨[], by rw [hsys]; rfl⟩
  | stop hsys => exact Transition.exists_run_of_step hsys

theorem run_pool {es : List Event} (h : Transition.run (step cfg) p es = some p') :
    ∃ pes, Transition.run (Sys.step cfg.pool) p.sys pes = some p'.sys := by
  refine Transition.run_induction
    (P := fun p' => ∃ pes, Transition.run (Sys.step cfg.pool) p.sys pes = some p'.sys)
    ⟨[], rfl⟩ ?_ h
  rintro _ p₁ e p₂ _ ⟨pes, hpes⟩ hs
  obtain ⟨pes', hpes'⟩ := (step_move hs).run
  exact ⟨pes ++ pes', Transition.run_append_eq_some.2 ⟨_, hpes, hpes'⟩⟩

variable [Fintype κ]

theorem run_inv {es : List Event} (h : Transition.run (step cfg) (start cfg timers) es = some p) :
    ∃ f, p.sys.Inv cfg.pool f := by
  obtain ⟨pes, hpes⟩ := run_pool h
  exact Sys.inv_of_run hpes

/-- **The step lemma.**  Workers become free only between the control messages and the pass over the
queues, and nothing but reply jobs is queued between the pass and the poll. -/
theorem Drained.move {r : Option (PendingCommand κ)} (hmove : Move cfg r p p')
    (hinv : ∃ f, p.sys.Inv cfg.pool f) (hopen : p'.sys.pool.maxWorkers ≠ 0)
    (h : p.Drained cfg) : p'.Drained cfg := by
  obtain ⟨f, hinv⟩ := hinv
  cases hmove with
  | quiet hphase hsys hskip =>
    refine ⟨fun hafter => ?_, fun hbefore => ?_⟩
    · rw [hskip, hsys]
      exact h.saturated (hphase ▸ hafter)
    · rw [hsys]
      exact h.pending (hphase ▸ hbefore)
  | thread e he hphase hsys hskip =>
    obtain ⟨g, w, hpool, _⟩ := Sys.pool_of_thread he hsys
    refine ⟨fun hafter => ?_, fun hbefore => (h.pending (hphase ▸ hbefore)).modifyRun hpool⟩
    rw [hskip]
    exact (h.saturated (hphase ▸ hafter)).imp_right fun hsat => hsat.modifyRun hpool
  | begin hphase hphase' hsys =>
    refine ⟨fun hafter => ?_, fun _ => ?_⟩
    · rw [hphase'] at hafter
      cases hafter
    · rw [hsys]
      exact h.pending (by rw [hphase]; rfl)
  | next hphase' hsys =>
    refine ⟨fun hafter => ?_, fun hbefore => ?_⟩
    · rcases hphase' with h' | h' | h' | h' <;> rw [h'] at hafter <;> cases hafter
    · rcases hphase' with h' | h' | h' | h' <;> rw [h'] at hbefore <;> cases hbefore
  | jobs es hes hphase hphase' hsys =>
    refine ⟨fun hafter => ?_, fun hbefore => ?_⟩
    · rw [hphase'] at hafter
      rcases hphase with h' | h' <;> rw [h'] at hafter <;> cases hafter
    · exact (Sys.sameBooks_of_jobs hes hsys).pendingFull (h.pending (hphase' ▸ hbefore))
  | inject task hphase hphase' hsys =>
    refine ⟨fun hafter => ?_, fun _ => ?_⟩
    · rw [hphase'] at hafter
      cases hafter
    · rw [Sys.accept_of_inject hsys]
      exact (h.pending (by rw [hphase]; rfl)).accept _
  | quit hphase' hsys =>
    rw [(Sys.step_quit_cases hsys).2, Sys.maxWorkers_proxyControlQuit] at hopen
    exact absurd rfl hopen
  | worker w hphase' hsys =>
    refine ⟨fun hafter => ?_, fun hbefore => ?_⟩
    · rw [hphase'] at hafter
      cases hafter
    · rw [hphase'] at hbefore
      cases hbefore
  | processQueue hphase' hsys =>
    obtain ⟨_, _, _, hmax⟩ := hinv.step hsys
    have hsat : p'.sys.Saturated cfg.pool := by
      rw [← Sys.step_processQueue hsys]
      exact hinv.saturated (by rwa [← hmax nofun])
    exact ⟨fun _ => Or.inr hsat, fun _ => hsat.pending⟩
  | builtin es hes hphase hphase' hsys hskip =>
    have hbooks := Sys.sameBooks_of_jobs (fun e he => Or.inr (hes e he)) hsys
    refine ⟨fun _ => ?_, fun _ => hbooks.pendingFull (h.pending (by rw [hphase]; rfl))⟩
    rcases hskip with hskip | ⟨rfl, hskip⟩
    · exact Or.inl hskip
    · rw [hskip, ← Option.some.inj hsys]
      exact h.saturated (by rw [hphase]; rfl)
  | command a htag hphase hphase' hsys hskip =>
    have hsat := h.saturated (by rw [hphase]; rfl)
    have hpending := h.pending (by rw [hphase]; rfl)
    rw [← hskip] at hsat
    refine ⟨fun _ => hsat.imp_right fun hsat => ?_, fun _ => ?_⟩
    · rw [Sys.accept_of_command htag hsys]
      exact hsat.accept _
    · rw [Sys.accept_of_command htag hsys]
      exact hpending.accept _
  | done hphase hphase' hsys hskip =>
    obtain ⟨stale, hphase⟩ := hphase
    refine ⟨fun _ => ?_, fun _ => ?_⟩
    · rcases hskip with hskip | hskip
      · exact Or.inl hskip
      · rw [hskip, hsys]
        exact h.saturated (by rw [hphase]; rfl)
    · rw [hsys]
      exact h.pending (by rw [hphase]; rfl)
  | stop hsys =>
    obtain ⟨hmax, _, heq⟩ := Sys.step_stop_cases hsys
    rw [heq] at hopen
    exact absurd hmax hopen

theorem run_drained {es : List Event} (h : Transition.run (step cfg) (start cfg timers) es = some p)
    (hopen : p.sys.pool.maxWorkers ≠ 0) : p.Drained cfg := by
  refine Transition.run_induction
    (P := fun p => p.sys.pool.maxWorkers ≠ 0 → p.Drained cfg) (fun _ => ?_) ?_ h hopen
  · refine ⟨fun _ => Or.inr ⟨fun tw htw => ?_, fun reply hne => ?_, nofun⟩, fun _ => nofun⟩
    · rw [(List.mem_replicate.1 htw).2]
      exact Or.inr rfl
    · cases reply <;> exact absurd rfl hne
  · intro _ p e p' hrun hdrained hs hopen
    have hmove := step_move hs
    obtain ⟨f, hinv⟩ := run_inv hrun
    obtain ⟨es, hes⟩ := hmove.run
    obtain ⟨_, _, hopen'⟩ := hinv.run hes
    exact (hdrained (hopen' hopen)).move hmove ⟨f, hinv⟩ hopen

/-- **The proxy thread does not wait while there is work that could be done.** -/
theorem saturated_of_waits {es : List Event}
    (hrun : Transition.run (step cfg) (start cfg timers) es = some p)
    (hopen : p.sys.pool.maxWorkers ≠ 0) (hwaits : p.waits = true) :
    p.sys.Saturated cfg.pool := by
  rw [waits, Bool.and_eq_true, Bool.and_eq_true, decide_eq_true_iff] at hwaits
  obtain ⟨⟨hphase, _⟩, hskip⟩ := hwaits
  refine ((run_drained hrun hopen).saturated (by rw [hphase]; rfl)).resolve_left fun hskip' => ?_
  rw [skip] at hskip'
  rw [hskip'] at hskip
  cases hskip

/-- Two jobs, of which only one gets a worker, and the iteration after that. -/
def twoJobs : List Event :=
  [.begin, .control {} (.job 1 none), .control {} (.job 2 none), .next, .next, .next, .next,
    .processQueue, .done false, .begin, .next, .next, .next, .next, .processQueue, .done false]

theorem saturated_of_waits_twoJobs :
    ∃ p, Transition.run (step smallProxy) (start smallProxy) twoJobs = some p ∧
      p.waits = true ∧ p.sys.pool.batchJobs = [⟨1, 0⟩] ∧ p.sys.Saturated smallProxy.pool := by
  have hrun : Transition.run (step smallProxy) (start smallProxy) twoJobs = some _ := rfl
  exact ⟨_, hrun, rfl, rfl, saturated_of_waits hrun (by decide) rfl⟩

end Proxy

end OxenMQ
