import OxenMQ.Proxy.Saturation
import OxenMQ.Workers.Order

/-!
# First come, first served

Commands come in from the connections and tasks from control messages, at two ends of an iteration.
Both are handed to a worker at once if there is a slot, without a look at the queue.  Between
`proxy_process_queue` and the next message of a worker this is fair, because nothing in the queue
has a slot then (`Proxy.Drained`), and both ends are in between.

`commands_in_order` compares what has been taken in along a run (`Proxy.accepted`) with what has
been started and what is in the queue.
-/

set_option autoImplicit false

namespace OxenMQ

namespace Proxy

variable {κ : Type} [DecidableEq κ] {cfg : ProxyConfig κ} {p p' : Proxy κ} {timers : Timers}

/-- The command or the task that an event brings in, unless it is dropped: no worker is given it,
and it is not in the queue either. -/
def taken (cfg : ProxyConfig κ) (p : Proxy κ) (e : Event) : Option (PendingCommand κ) :=
  match step cfg p e with
  | some p' =>
    if p'.sys.log = p.sys.log ∧ p'.sys.pool.pendingCommands = p.sys.pool.pendingCommands then none
    else received cfg p e
  | none => none

/-- The commands and the tasks that have come in and have not been dropped, in the order in which
they have come in. -/
def accepted [Fintype κ] (cfg : ProxyConfig κ) (timers : Timers) (es : List Event) :
    List (PendingCommand κ) :=
  (Transition.steps (step cfg) (start cfg timers) es).filterMap fun s => taken cfg s.1 s.2

/-- Where nothing comes in, the line stays as it is. -/
theorem Move.sameLine (h : Move cfg none p p') (hopen : p'.sys.pool.maxWorkers ≠ 0) :
    Sys.SameLine p.sys p'.sys := by
  have hsame : p'.sys = p.sys → Sys.SameLine p.sys p'.sys := fun hsys => hsys ▸ .refl _
  cases h with
  | quiet _ hsys _ => exact hsame hsys
  | thread e he _ hsys _ => exact Sys.sameLine_of_thread he hsys
  | begin _ _ hsys => exact hsame hsys
  | next _ hsys => exact hsame hsys
  | jobs es hes _ _ hsys => exact Sys.sameLine_of_jobs hes hsys
  | quit _ hsys =>
    rw [(Sys.step_quit_cases hsys).2, Sys.maxWorkers_proxyControlQuit] at hopen
    exact absurd rfl hopen
  | worker w _ hsys => exact Sys.sameLine_of_workerMessage hsys
  | processQueue _ hsys => exact Sys.step_processQueue hsys ▸ p.sys.sameLine_proxyProcessQueue
  | builtin es hes _ _ hsys _ => exact Sys.sameLine_of_jobs (fun e he => Or.inr (hes e he)) hsys
  | done _ _ hsys _ => exact hsame hsys
  | stop hsys =>
    obtain ⟨hmax, _, heq⟩ := Sys.step_stop_cases hsys
    rw [heq] at hopen
    exact absurd hmax hopen

variable [Fintype κ]

/-- What comes in finds nobody in the queue who could be overtaken. -/
theorem Move.outcome {r : PendingCommand κ} (h : Move cfg (some r) p p')
    (hinv : ∃ f, p.sys.Inv cfg.pool f) (hdrained : p.Drained cfg) :
    Sys.Outcome cfg.pool p.sys p'.sys r := by
  obtain ⟨f, hinv⟩ := hinv
  cases h with
  | inject task hphase _ hsys =>
    rw [Sys.accept_of_inject hsys]
    exact Sys.outcome_accept hinv (hdrained.pending (by rw [hphase]; rfl)) _
  | command a htag hphase _ hsys _ =>
    rw [Sys.accept_of_command htag hsys]
    exact Sys.outcome_accept hinv (hdrained.pending (by rw [hphase]; rfl)) _

/-- What has come in along the events is in line, and no queue is too long. -/
structure Ordered (cfg : ProxyConfig κ) (timers : Timers) (es : List Event) (p : Proxy κ) :
    Prop where
  line : ∀ c, p.sys.line c = ofCat c (accepted cfg timers es)
  bounded : p.sys.Bounded cfg.pool

theorem run_ordered {es : List Event} (h : Transition.run (step cfg) (start cfg timers) es = some p)
    (hopen : p.sys.pool.maxWorkers ≠ 0) : Ordered cfg timers es p := by
  refine Transition.run_induction_history
    (P := fun es p => p.sys.pool.maxWorkers ≠ 0 → Ordered cfg timers es p) (fun _ => ?_) ?_ h hopen
  · exact ⟨fun _ => rfl, fun c hc => hc⟩
  · intro es p e p' hrun ih hs hopen
    have hmove := step_move hs
    have hinv := run_inv hrun
    have hopen₀ : p.sys.pool.maxWorkers ≠ 0 := by
      obtain ⟨f, hinv⟩ := hinv
      obtain ⟨es, hes⟩ := hmove.run
      exact (hinv.run hes).choose_spec.2 hopen
    obtain ⟨hline, hbounded⟩ := ih hopen₀
    have haccepted : accepted cfg timers (es ++ [e]) =
      accepted cfg timers es ++ (taken cfg p e).toList := by
      rw [accepted, Transition.steps_snoc hrun hs, List.filterMap_append]
      congr 1
    have htaken : taken cfg p e = if p'.sys.log = p.sys.log ∧
        p'.sys.pool.pendingCommands = p.sys.pool.pendingCommands then none
        else received cfg p e := by
      rw [taken, hs]
    cases hr : received cfg p e with
    | none =>
      rw [hr] at hmove
      have hsame := hmove.sameLine hopen
      refine ⟨fun c => ?_, hbounded.sameLine hsame⟩
      rw [haccepted, htaken, hr, ite_self, Option.toList_none, List.append_nil, hsame.line, hline]
    | some r =>
      rw [hr] at hmove
      have hout := hmove.outcome hinv (run_drained hrun hopen₀)
      refine ⟨fun c => ?_, hbounded.outcome hout⟩
      rw [haccepted, htaken, hr, ofCat_append, hout.line, hline]
      split <;> rfl

/-- **First come, first served.**  Of each category, what has been started and then what is in the
queue is what has come in, but for what has been dropped, and in the same order.  No queue is longer
than its category allows.  What comes in next overtakes nobody, and is dropped only for want of a
slot and of room in the queue. -/
theorem commands_in_order {es : List Event}
    (hrun : Transition.run (step cfg) (start cfg timers) es = some p)
    (hopen : p.sys.pool.maxWorkers ≠ 0) :
    (∀ c, ofCat c (accepted cfg timers es) = p.sys.started c ++ p.sys.waiting c) ∧
    (∀ c, 0 ≤ cfg.pool.maxQueue c → ((p.sys.waiting c).length : ℤ) ≤ cfg.pool.maxQueue c) ∧
    ∀ e p' r, step cfg p e = some p' → received cfg p e = some r →
      Sys.Outcome cfg.pool p.sys p'.sys r := by
  obtain ⟨hline, hbounded⟩ := run_ordered hrun hopen
  refine ⟨fun c => (hline c).symm, hbounded, fun e p' r hs hr => ?_⟩
  have hmove := step_move hs
  rw [hr] at hmove
  exact hmove.outcome (run_inv hrun) (run_drained hrun hopen)

/-- A program with one category. -/
def taskProxy : ProxyConfig Unit :=
  { smallProxy with commands := { Conn.bareConfig with categories := fun _ => some () } }

/-- Three tasks.  There is a worker for the first one, and it has just taken it. -/
def threeTasks : List Event :=
  [.begin, .control {} (.injectTask "cat" "first" "" (some 1)),
    .control {} (.injectTask "cat" "second" "" (some 2)), .receive (.untagged 0),
    .control {} (.injectTask "cat" "third" "" (some 3))]

theorem commands_in_order_threeTasks :
    ∃ p, Transition.run (step taskProxy) (start taskProxy) threeTasks = some p ∧
      ofCat () (accepted taskProxy {} threeTasks) = p.sys.started () ++ p.sys.waiting () ∧
      (p.sys.started ()).length = 1 ∧ (p.sys.waiting ()).length = 2 ∧
      ((p.sys.waiting ()).length : ℤ) ≤ taskProxy.pool.maxQueue () := by
  have hrun : Transition.run (step taskProxy) (start taskProxy) threeTasks = some _ := rfl
  obtain ⟨hline, hbounded, _⟩ := commands_in_order hrun (by decide)
  exact ⟨_, hrun, hline (), rfl, rfl, hbounded () (by decide)⟩

end Proxy

end OxenMQ
