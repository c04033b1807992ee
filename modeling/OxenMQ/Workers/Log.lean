import OxenMQ.Workers.Preservation

/-!
# What a step writes to the log

Each kind of step writes its own kinds of entries (`LogEntry.isFrom`): jobs are handed out when
something comes in and in the pass over the queues, they return when the proxy hears from a worker,
and so on.  What has not happened can then be read off the step, without a look into the handler.
-/

set_option autoImplicit false

namespace OxenMQ

variable {κ : Type}

/-- May this step write this entry? -/
def LogEntry.isFrom : PoolEvent κ → LogEntry κ → Bool
  | .command _, .dispatched _ _ | .inject _, .dispatched _ _ => true
  | .submit _, .submitted _ _ | .replyJob _, .submitted _ _ => true
  | .processQueue, .dispatched _ _ => true
  | .workerMessage _, .finished _ | .workerMessage _, .completed _ none _
  | .workerMessage _, .deleted _ => true
  | .receive _, .invoked _ _ _ | .receive _, .completed _ (some _) _ => true
  | .finish _ _ _, .executed _ _ => true
  | _, _ => false

namespace Sys

variable {s s' s'' : Sys κ}

/-- The log has only got entries with this property. -/
def Logs (Q : LogEntry κ → Prop) (s s' : Sys κ) : Prop :=
  ∃ es, s'.log = s.log ++ es ∧ ∀ e ∈ es, Q e

namespace Logs

variable {Q Q' : LogEntry κ → Prop}

theorem of_eq (h : s'.log = s.log) : Logs Q s s' :=
  ⟨[], by rw [h, List.append_nil], fun _ he => absurd he List.not_mem_nil⟩

theorem concat {e : LogEntry κ} (hlog : s'.log = s.log ++ [e]) (he : Q e) : Logs Q s s' :=
  ⟨[e], hlog, fun e' he' => by rwa [List.mem_singleton.1 he']⟩

theorem trans (h : Logs Q s s') (h' : Logs Q s' s'') : Logs Q s s'' := by
  obtain ⟨es, hlog, hes⟩ := h
  obtain ⟨es', hlog', hes'⟩ := h'
  refine ⟨es ++ es', by rw [hlog', hlog, List.append_assoc], fun e he => ?_⟩
  exact (List.mem_append.1 he).elim (hes e) (hes' e)

theorem mono (h : Logs Q s s') (hQ : ∀ e, Q e → Q' e) : Logs Q' s s' := by
  obtain ⟨es, hlog, hes⟩ := h
  exact ⟨es, hlog, fun e he => hQ e (hes e he)⟩

/-- Nothing is taken out of the log. -/
theorem mem (h : Logs Q s s') {e : LogEntry κ} (he : e ∈ s.log) : e ∈ s'.log := by
  obtain ⟨es, hlog, _⟩ := h
  rw [hlog]
  exact List.mem_append_left _ he

/-- What the new entries are not has been there before. -/
theorem mem_iff (h : Logs Q s s') {e : LogEntry κ} (he : ¬ Q e) : e ∈ s'.log ↔ e ∈ s.log := by
  refine ⟨fun hmem => ?_, h.mem⟩
  obtain ⟨es, hlog, hes⟩ := h
  rw [hlog, List.mem_append] at hmem
  exact hmem.resolve_right fun hnew => he (hes e hnew)

end Logs

theorem log_beginJob (s : Sys κ) (w : Worker) (run : RunInfo κ) :
    Logs (fun e => e.isFrom (.receive w) = true) s (s.beginJob w run) := by
  unfold beginJob
  dsimp only
  split
  · split
    · split
      · split
        · exact .concat rfl rfl
        · exact .of_eq rfl
      · exact .of_eq rfl
    · exact .of_eq rfl
  split
  · exact .of_eq rfl
  split
  · exact .concat rfl rfl
  · exact .of_eq rfl

/-- The completion function of a batch, if this was its last job and the function is for this
thread. -/
def completionFor (s : Sys κ) (thread : ℤ) (bj : BatchJob) : List BatchJob :=
  if bj.jobno = -1 then []
  else
    match (s.heap bj.ptr).map fun b => b.jobFinished.2 with
    | some (Batch.State.complete place) => if place = thread then [⟨bj.ptr, -1⟩] else []
    | _ => []

/-- What is written about a batch when one of its jobs has returned. -/
def returnEntries (s : Sys κ) (bj : BatchJob) : List (LogEntry κ) :=
  if bj.jobno = -1 then [.deleted bj.ptr]
  else
    match (s.heap bj.ptr).map Batch.jobFinished with
    | some (_, .done) => [.deleted bj.ptr]
    | some (b, .complete place) =>
      if place = -1 then [.completed bj.ptr none b.results, .deleted bj.ptr] else []
    | _ => []

theorem log_jobReturned (s : Sys κ) (bj : BatchJob) (replyJob : Bool) :
    (s.jobReturned bj replyJob).log = s.log ++ s.returnEntries bj := by
  unfold jobReturned returnEntries
  split
  · rfl
  rcases s.heap bj.ptr with _ | b
  · exact (List.append_nil _).symm
  dsimp only [Option.map_some]
  rcases b.jobFinished with ⟨b', state⟩
  cases state with
  | running => exact (List.append_nil _).symm
  | done => rfl
  | complete place =>
    dsimp only
    split
    · exact List.append_assoc ..
    · exact (List.append_nil _).symm

theorem eq_of_mem_returnEntries {bj : BatchJob} {e : LogEntry κ} (h : e ∈ s.returnEntries bj) :
    e = .deleted bj.ptr ∨ ∃ results, e = .completed bj.ptr none results := by
  unfold returnEntries at h
  split at h
  · exact Or.inl (List.mem_singleton.1 h)
  split at h
  · exact Or.inl (List.mem_singleton.1 h)
  · split at h
    · rcases List.mem_cons.1 h with rfl | h
      · exact Or.inr ⟨_, rfl⟩
      · exact Or.inl (List.mem_singleton.1 h)
    · cases h
  · cases h

theorem completionFor_cases (s : Sys κ) (thread : ℤ) (bj : BatchJob) :
    s.completionFor thread bj = [] ∨ s.completionFor thread bj = [⟨bj.ptr, -1⟩] := by
  unfold completionFor
  split
  · exact Or.inl rfl
  split
  · split
    · exact Or.inr rfl
    · exact Or.inl rfl
  · exact Or.inl rfl

variable [DecidableEq κ]

theorem log_queueCommand (cfg : PoolConfig κ) (s : Sys κ) (p : PendingCommand κ) :
    (s.queueCommand cfg p).log = s.log := by
  unfold queueCommand
  split <;> rfl

theorem log_dispatch {e : PoolEvent κ} (he : ∀ w l, LogEntry.isFrom e (.dispatched w l) = true)
    (s : Sys κ) (k : Kind κ) (l : Load κ) :
    Logs (fun x => x.isFrom e = true) s (s.dispatch k l) := by
  obtain ⟨i, _, _, _, _, hlog⟩ := s.dispatch_pool k l
  exact .concat hlog (he _ _)

theorem log_proxyProcessQueue (cfg : PoolConfig κ) (s : Sys κ) :
    Logs (fun e => e.isFrom .processQueue = true) s (s.proxyProcessQueue cfg) := by
  refine proxyProcessQueue_induction
    (P := fun s₁ => Logs (fun e => e.isFrom .processQueue = true) s s₁)
    (fun s₁ t h => h.trans ?_) (fun s₁ reply bj rest h _ _ => h.trans ?_)
    (fun s₁ pre p post h _ _ => h.trans ?_) (.of_eq rfl)
  · rcases s₁.startTagged_cases t with ⟨heq, _⟩ | ⟨tw, bj, rest, ht, hb, hq⟩
    · exact .of_eq (by rw [heq])
    · obtain ⟨_, _, _, hlog⟩ := s₁.startTagged_pool ht hb hq
      exact .concat hlog rfl
  · exact log_dispatch (fun _ _ => rfl) (s₁.setJobQueue reply rest) _ _
  · exact log_dispatch (fun _ _ => rfl) s₁ (.category p.cat) (.pending p)

theorem log_workerRan (s : Sys κ) (w : Worker) (run : RunInfo κ) :
    (s.workerRan w run).log = s.log ++
      (run.batchJob.map fun bj => .finished bj :: s.returnEntries bj).getD [] := by
  let s₀ := { s with outstanding := Function.update s.outstanding w (s.outstanding w - 1) }
  have hrelease := sameBatches_release s₀ w run
  have hlog : (s₀.release w run).log = s.log := hrelease.log
  have hheap : (s₀.release w run).heap = s.heap := hrelease.heap
  rw [workerRan, (sameBatches_retire _ w).log]
  cases run.batchJob with
  | none => exact hlog.trans (List.append_nil _).symm
  | some bj =>
    refine (log_jobReturned { s₀.release w run with
      log := (s₀.release w run).log ++ [.finished bj] } bj run.isReplyJob).trans ?_
    rw [returnEntries]
    dsimp only
    rw [hlog, hheap, List.append_assoc]
    rfl

/-- **What a step writes to the log.** -/
theorem step_log {cfg : PoolConfig κ} {e : PoolEvent κ} (h : Sys.step cfg s e = some s') :
    Logs (fun x => x.isFrom e = true) s s' := by
  cases e with
  | command a =>
    obtain rfl := step_command h
    unfold proxyToWorker
    split
    · exact .of_eq (log_queueCommand cfg s _)
    split
    · exact .of_eq rfl
    · exact log_dispatch (fun _ _ => rfl) s _ _
  | inject t =>
    obtain rfl := step_inject h
    unfold proxyInjectTask
    split
    · exact .of_eq (log_queueCommand cfg s _)
    · exact log_dispatch (fun _ _ => rfl) s _ _
  | submit spec =>
    obtain ⟨_, rfl⟩ := step_submit_cases h
    refine .concat (e := .submitted s.nextPtr spec) ?_ rfl
    rw [submit, proxyBatch]
    split <;> rfl
  | replyJob f =>
    obtain rfl := step_replyJob h
    exact .concat rfl rfl
  | processQueue =>
    obtain rfl := step_processQueue h
    exact log_proxyProcessQueue cfg s
  | workerMessage w =>
    obtain ⟨run, rest, _, ⟨_, rfl⟩ | ⟨_, rfl⟩⟩ := proxyWorkerMessage_cases (step_workerMessage h)
    · refine ⟨_, log_workerRan (s.takeReply w rest) w run, fun x hx => ?_⟩
      cases hbj : run.batchJob with
      | none =>
        rw [hbj] at hx
        cases hx
      | some bj =>
        rw [hbj] at hx
        rcases List.mem_cons.1 hx with rfl | hx
        · rfl
        · rcases eq_of_mem_returnEntries hx with rfl | ⟨_, rfl⟩ <;> rfl
    · exact .of_eq rfl
  | quit =>
    obtain ⟨_, rfl⟩ := step_quit_cases h
    exact .of_eq (sameBatches_proxyControlQuit s).log
  | stop =>
    obtain ⟨_, _, rfl⟩ := step_stop_cases h
    exact .of_eq rfl
  | receive w =>
    rcases workerReceive_cases (step_receive h) with ⟨run, _, _, rfl⟩ | ⟨run, cmd, _, _, _, _,
      rfl⟩ | ⟨_, _, _, _, rfl⟩
    · exact log_beginJob s w run
    · cases cmd with
      | run => exact log_beginJob { s with threads := _ } w run
      | quit => exact .of_eq rfl
      | start => exact .of_eq rfl
    · exact .of_eq rfl
  | finish w left r =>
    obtain ⟨_, _, _, _, ⟨bj, _, _, rfl⟩ | ⟨_, rfl⟩⟩ := workerFinish_cases (step_finish h)
    · exact .concat rfl rfl
    · exact .of_eq rfl

theorem run_log {cfg : PoolConfig κ} {es : List (PoolEvent κ)} {Q : LogEntry κ → Prop}
    (h : Transition.run (Sys.step cfg) s es = some s')
    (hQ : ∀ e ∈ es, ∀ x : LogEntry κ, x.isFrom e = true → Q x) : Logs Q s s' := by
  induction es generalizing s with
  | nil =>
    cases h
    exact .of_eq rfl
  | cons e es ih =>
    obtain ⟨s₁, hs, h⟩ := Transition.run_cons_eq_some.1 h
    exact ((step_log hs).mono (hQ e List.mem_cons_self)).trans
      (ih h fun e' he' => hQ e' (List.mem_cons_of_mem _ he'))

end Sys

end OxenMQ
