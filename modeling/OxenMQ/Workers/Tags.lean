import OxenMQ.Workers.Message

/-!
# Where a reply tag that is left over comes from

Whether a command callback gets its own message depends on the reply tag that is in the message
object of the worker when it begins (`Sys.NoTagLeft`).  This file says what the tag is, given what
the worker has done before.

* `tagAfter` is the history: a request brings its own tag when the worker begins with it, and the
  callback of a command may leave another one behind.  Batch jobs and injected tasks do not count.
* `SameMessages` says that nobody but the worker itself writes to its message object, and that a
  new worker has an empty one.
* `tag_of_run` says that the tag is what the history says.  So there is a tag left over for a
  command exactly if the worker has had a request before, and no callback has cleared the tag since
  (`noTagLeft_iff`).
-/

set_option autoImplicit false

namespace OxenMQ

variable {κ : Type}

/-- Does the worker call a function that may write to the message object? -/
def RunInfo.isCommand (run : RunInfo κ) : Bool := run.batchJob.isNone && !run.isInjected

namespace Sys

/-- What a step makes of the reply tag in the message object of a worker. -/
def tagAfter (w : Worker) (tag : String) (p : Sys κ × PoolEvent κ) : String :=
  match p.2 with
  | .receive v =>
    if v = w ∧ (p.1.nextCallback w).any Command.isRequest then
      (p.1.pool.runInfo w).elim "" fun run => run.dataParts.headD ""
    else tag
  | .finish v left _ =>
    if v = w ∧ (p.1.pool.runInfo w).any RunInfo.isCommand then left.replyTag else tag
  | _ => tag

/-- What a worker has in the reply tag after these steps. -/
def tagHistory (steps : List (Sys κ × PoolEvent κ)) (w : Worker) : String :=
  steps.foldl (tagAfter w) ""

variable {s s' s'' : Sys κ} {f f' : Worker → Phase}

/-! ## Nobody else writes to the message object -/

/-- The message objects are left alone, but for those of workers that are new, and no worker is
forgotten. -/
structure SameMessages (s s' : Sys κ) : Prop where
  runInfo : ∀ w, s'.pool.runInfo w = none → s.pool.runInfo w = none
  message : ∀ w, (s'.threads w).message = (s.threads w).message ∨
    s.pool.runInfo w = none ∧ (s'.threads w).message = {}

namespace SameMessages

theorem of_eq (hrun : ∀ w, s'.pool.runInfo w = s.pool.runInfo w)
    (hmessage : ∀ w, (s'.threads w).message = (s.threads w).message) : SameMessages s s' :=
  ⟨fun w hw => (hrun w).symm.trans hw, fun w => Or.inl (hmessage w)⟩

theorem refl (s : Sys κ) : SameMessages s s := of_eq (fun _ => rfl) fun _ => rfl

theorem trans (h : SameMessages s s') (h' : SameMessages s' s'') : SameMessages s s'' := by
  refine ⟨fun w hw => h.runInfo w (h'.runInfo w hw), fun w => ?_⟩
  rcases h'.message w with hsame | ⟨hnone, hnew⟩
  · rw [hsame]
    exact h.message w
  · exact Or.inr ⟨h.runInfo w hnone, hnew⟩

end SameMessages

theorem SameBooks.sameMessages (h : SameBooks s s') : SameMessages s s' :=
  .of_eq h.runInfo fun w => by rw [h.threads]

theorem Loaded.sameMessages {w : Worker} {l : Load κ} (h : Loaded s s' w l) :
    SameMessages s s' := by
  refine ⟨fun v hv => ?_, h.message⟩
  have hne : v ≠ w := by
    rintro rfl
    obtain ⟨r, hr⟩ := h.run
    cases hv.symm.trans hr
  rwa [← h.other v hne]

theorem Dispatches.sameMessages {Q : Set (PendingCommand κ)} (h : Dispatches Q s f s' f') :
    SameMessages s s' := by
  induction h with
  | refl => exact .refl s
  | queue _ queued _ ih => exact ih.trans (.of_eq (by rintro (i | t) <;> rfl) fun _ => rfl)
  | load _ _ _ hloaded _ _ ih => exact ih.trans hloaded.sameMessages

theorem sameMessages_routeControl (s : Sys κ) (cmd : WorkerCommand) (w : Worker) :
    SameMessages s (s.routeControl cmd w) :=
  .of_eq (fun _ => rfl) (message_update (by rfl))

theorem sameMessages_foldl_quit (ws : List Worker) (s : Sys κ) :
    SameMessages s (ws.foldl (routeControl · .quit) s) := by
  induction ws generalizing s with
  | nil => exact .refl s
  | cons w ws ih => exact (sameMessages_routeControl s .quit w).trans (ih _)

theorem sameMessages_proxyControlQuit (s : Sys κ) : SameMessages s s.proxyControlQuit := by
  have hpool : ∀ (t : Sys κ) (pool : Pool κ), (∀ w, pool.runInfo w = t.pool.runInfo w) →
      SameMessages t { t with pool := pool } := fun t pool h => .of_eq h fun _ => rfl
  unfold proxyControlQuit
  dsimp only
  refine SameMessages.trans ?_ (sameMessages_foldl_quit _ _)
  refine SameMessages.trans ?_ (hpool _ _ (by rintro (i | t) <;> rfl))
  exact (hpool s _ (by rintro (i | t) <;> rfl)).trans (sameMessages_foldl_quit _ _)

variable [DecidableEq κ]

theorem sameMessages_release (s : Sys κ) (w : Worker) (run : RunInfo κ) :
    SameMessages s (s.release w run) := by
  refine .of_eq (runInfo_release s w run) fun v => ?_
  unfold release
  split
  · cases w <;> rfl
  · split <;> rfl

omit [DecidableEq κ] in
theorem sameMessages_retire (s : Sys κ) (w : Worker) : SameMessages s (s.retire w) := by
  unfold retire
  split
  · exact sameMessages_routeControl s .quit w
  · cases w with
    | untagged i => exact .of_eq (by rintro (j | t) <;> rfl) fun _ => rfl
    | tagged t => exact .refl s

theorem sameMessages_workerRan (s : Sys κ) (w : Worker) (run : RunInfo κ) :
    SameMessages s (s.workerRan w run) := by
  refine SameMessages.trans ?_ (s.sameBooks_workerRan w run).sameMessages
  refine SameMessages.trans ?_ (sameMessages_retire _ w)
  refine SameMessages.trans ?_ (sameMessages_release _ w run)
  exact .of_eq (fun _ => rfl) fun _ => rfl

variable [Fintype κ] {cfg : PoolConfig κ}

/-- Only the steps of a worker itself write to its message object. -/
theorem sameMessages_of_step {e : PoolEvent κ} (hinv : s.Inv cfg f)
    (hreceive : ∀ w, e ≠ .receive w) (hfinish : ∀ w left r, e ≠ .finish w left r)
    (hs : Sys.step cfg s e = some s') : SameMessages s s' := by
  cases e with
  | command a =>
    obtain ⟨_, _, hdisp⟩ := hinv.proxyToWorker a
    exact step_command hs ▸ hdisp.sameMessages
  | inject t =>
    obtain ⟨_, _, hdisp⟩ := hinv.proxyInjectTask t
    exact step_inject hs ▸ hdisp.sameMessages
  | submit spec =>
    obtain ⟨_, rfl⟩ := step_submit_cases hs
    exact (s.sameBooks_submit spec).sameMessages
  | replyJob callback =>
    obtain rfl := step_replyJob hs
    exact (s.sameBooks_proxyScheduleReplyJob callback).sameMessages
  | processQueue =>
    obtain ⟨_, _, hdisp⟩ := hinv.proxyProcessQueue
    exact step_processQueue hs ▸ hdisp.sameMessages
  | workerMessage w =>
    have htake : ∀ rest, SameMessages s (s.takeReply w rest) := fun rest =>
      .of_eq (fun _ => rfl) (message_update (by rfl))
    obtain ⟨run, rest, _, ⟨_, rfl⟩ | ⟨_, rfl⟩⟩ := proxyWorkerMessage_cases (step_workerMessage hs)
    · exact (htake rest).trans (sameMessages_workerRan _ w run)
    · refine (htake rest).trans ⟨fun v hv => ?_, fun v => Or.inl rfl⟩
      rw [Pool.runInfo_modifyRun] at hv
      split at hv
      · exact Option.map_eq_none_iff.1 hv
      · exact hv
  | quit =>
    obtain ⟨_, rfl⟩ := step_quit_cases hs
    exact sameMessages_proxyControlQuit s
  | stop =>
    obtain ⟨_, _, rfl⟩ := step_stop_cases hs
    exact .of_eq (fun _ => rfl) fun _ => rfl
  | receive w => exact absurd rfl (hreceive w)
  | finish w left r => exact absurd rfl (hfinish w left r)

/-! ## What the worker itself writes there -/

/-- A worker that there is not yet has an empty message object. -/
def Unused (s : Sys κ) : Prop := ∀ w, s.pool.runInfo w = none → (s.threads w).message = {}

/-- The tags after a step are what the history makes of those before. -/
structure Follows (s : Sys κ) (e : PoolEvent κ) (s' : Sys κ) : Prop where
  unused : s'.Unused
  tag : ∀ w, (s'.threads w).message.replyTag = tagAfter w (s.threads w).message.replyTag (s, e)

omit [DecidableEq κ] [Fintype κ] in
theorem SameMessages.kept (h : SameMessages s s') (hunused : s.Unused) :
    s'.Unused ∧ ∀ w, (s'.threads w).message = (s.threads w).message := by
  have hsame : ∀ w, (s'.threads w).message = (s.threads w).message := fun w =>
    (h.message w).elim id fun ⟨hnone, hnew⟩ => hnew.trans (hunused w hnone).symm
  exact ⟨fun w hw => (hsame w).trans (hunused w (h.runInfo w hw)), hsame⟩

omit [DecidableEq κ] [Fintype κ] in
/-- A batch job and an injected task have nothing to do with the message object. -/
theorem message_beginJob (s : Sys κ) (w : Worker) {run : RunInfo κ}
    (h : run.isBatchJob = true ∨ run.isInjected = true) :
    ((s.beginJob w run).threads w).message = (s.threads w).message := by
  unfold beginJob
  dsimp only
  split
  · repeat' split
    all_goals exact message_update (by rfl) w
  · rename_i hbatch
    rw [if_pos (h.resolve_left hbatch)]
    exact message_update (by rfl) w

omit [DecidableEq κ] [Fintype κ] in
/-- A request brings its tag. -/
theorem tag_beginJob (s : Sys κ) (w : Worker) (r : RunInfo κ) (l : Load κ) :
    ((s.beginJob w (r.load l)).threads w).message.replyTag =
      if (r.load l).commandCallback.any Command.isRequest then (r.load l).dataParts.headD ""
      else (s.threads w).message.replyTag := by
  cases l with
  | batch bj reply tagged =>
    have hnone : (r.load (.batch bj reply tagged)).commandCallback = none := rfl
    rw [hnone, Option.any_none, if_neg Bool.false_ne_true, message_beginJob s w (Or.inl rfl)]
  | pending c =>
    cases c with
    | injected t =>
      have hnone : (r.load (.pending (.injected t))).commandCallback = none := rfl
      rw [hnone, Option.any_none, if_neg Bool.false_ne_true, message_beginJob s w (Or.inr rfl)]
    | command a =>
      have hbegin : (s.beginJob w (r.load (.pending (.command a)))).threads w =
          { s.threads w with
            status := .running
            message := (r.loadCommand a).prepare a.callback (s.threads w).message } :=
        Function.update_self ..
      have hcall : (r.load (.pending (.command a))).commandCallback = some a.callback := rfl
      rw [hbegin, hcall, RunInfo.prepare_loadCommand, Option.any_some]
      cases hreq : a.callback.isRequest with
      | true => simp [Arrival.message, hreq, RunInfo.load, RunInfo.loadCommand]
      | false => simp

variable {conf : Config κ}

/-- A worker that begins has been given a job. -/
theorem Origins.load_of_begins (h : s.Origins conf f) (hinv : s.Inv cfg f) {w : Worker}
    (hs : s.workerReceive w = some s') (hbegins : s.begins w = true) :
    ∃ (r : RunInfo κ) (l : Load κ), s.pool.runInfo w = some (r.load l) := by
  obtain ⟨p, _, _, _, ⟨_, _, _, _, hphase, _⟩ | ⟨hnot, _⟩⟩ := hinv.workerReceive hs
  · obtain ⟨r, l, hload, _⟩ := h.loaded w hphase
    exact ⟨r, l, hload⟩
  · rw [hbegins] at hnot
    cases hnot

/-- A step of a worker, other than that it returns from its job. -/
theorem Unused.receive (hunused : s.Unused) (h : s.Origins conf f) (hinv : s.Inv cfg f) {w : Worker}
    (hs : s.workerReceive w = some s') : s.Follows (.receive w) s' := by
  -- The worker begins, with a message object as before.
  have hbegin : ∀ (run : RunInfo κ) (threads : Worker → Thread), s.begins w = true →
      s.pool.runInfo w = some run → (∀ v, (threads v).message = (s.threads v).message) →
      s' = { s with threads := threads }.beginJob w run →
      s.Follows (.receive w) s' := by
    rintro run threads hbegins hrun hthreads rfl
    obtain ⟨r, l, hload⟩ := h.load_of_begins hinv hs hbegins
    obtain rfl := Option.some.inj (hrun.symm.trans hload)
    obtain ⟨g, message, heap, log, heq, _⟩ := beginJob_eq { s with threads := threads } w (r.load l)
    have hother : ∀ v, v ≠ w →
        (({ s with threads := threads }.beginJob w (r.load l)).threads v).message =
          (s.threads v).message := by
      intro v hv
      rw [heq]
      dsimp only
      rw [Function.update_of_ne hv, hthreads]
    constructor
    · intro v hv
      have hnone : s.pool.runInfo v = none := by
        rw [heq, Pool.runInfo_modifyRun] at hv
        split at hv
        · exact Option.map_eq_none_iff.1 hv
        · exact hv
      have hne : v ≠ w := by
        rintro rfl
        cases hnone.symm.trans hrun
      rw [hother v hne]
      exact hunused v hnone
    · intro v
      rcases eq_or_ne v w with rfl | hne
      · rw [tag_beginJob, tagAfter, nextCallback, if_pos hbegins, hrun]
        simp [hthreads]
      · rw [hother v hne, tagAfter]
        simp [hne.symm]
  -- It does something else.
  have hkeep : ∀ thread : Thread, thread.message = (s.threads w).message → s.begins w = false →
      s' = { s with threads := Function.update s.threads w thread } →
      s.Follows (.receive w) s' := by
    rintro thread hmessage hbegins rfl
    refine ⟨fun v hv => (message_update hmessage v).trans (hunused v hv), fun v => ?_⟩
    dsimp only
    rw [message_update hmessage, tagAfter]
    rcases eq_or_ne w v with rfl | hne
    · simp [nextCallback, hbegins]
    · simp [hne]
  rcases workerReceive_cases hs with ⟨run, hrun, hstatus, hs'⟩ |
    ⟨run, cmd, rest, hrun, hstatus, hinbox, hs'⟩ | ⟨cmd, rest, hstatus, hinbox, hs'⟩
  · exact hbegin run s.threads (by rw [begins, hstatus]) hrun (fun _ => rfl) hs'
  · cases cmd with
    | run =>
      exact hbegin run _ (by rw [begins, hstatus, hinbox]) hrun (message_update (by rfl)) hs'
    | quit => exact hkeep _ (by rfl) (by rw [begins, hstatus, hinbox]) hs'
    | start => exact hkeep _ (by rfl) (by rw [begins, hstatus, hinbox]) hs'
  · exact hkeep _ (by cases cmd <;> rfl) (by rw [begins, hstatus]) hs'

omit [DecidableEq κ] [Fintype κ] in
/-- A worker returns from its job, and a callback may have left anything. -/
theorem Unused.finish (hunused : s.Unused) {w : Worker} {left : Message} {r : JobResult}
    (hs : s.workerFinish w left r = some s') : s.Follows (.finish w left r) s' := by
  have hown : ∀ (run : RunInfo κ) (thread : Thread) (heap : ℕ → Option Batch)
      (log : List (LogEntry κ)), s.pool.runInfo w = some run →
      thread.message = (if run.isCommand then left else (s.threads w).message) →
      s' = { s with threads := Function.update s.threads w thread, heap := heap, log := log } →
      s.Follows (.finish w left r) s' := by
    rintro run thread heap log hrun hmessage rfl
    constructor
    · intro v hv
      have hne : v ≠ w := by
        rintro rfl
        cases hv.symm.trans hrun
      dsimp only
      rw [Function.update_of_ne hne]
      exact hunused v hv
    · intro v
      dsimp only
      rw [tagAfter]
      rcases eq_or_ne v w with rfl | hne
      · rw [Function.update_self, hmessage, hrun]
        cases hcommand : run.isCommand <;> simp [hcommand]
      · rw [Function.update_of_ne hne]
        simp [hne.symm]
  unfold workerFinish at hs
  split at hs
  · rename_i run hrun _
    dsimp only at hs
    split at hs
    · rename_i bj hbj
      have hno : run.isCommand = false := by rw [RunInfo.isCommand, hbj]; rfl
      split at hs
      · exact hown run _ _ _ hrun (by rw [hno]; rfl) (Option.some.inj hs).symm
      · exact hown run _ s.heap s.log hrun (by rw [hno]; rfl) (Option.some.inj hs).symm
    · rename_i hbj
      refine hown run _ s.heap s.log hrun ?_ (Option.some.inj hs).symm
      rw [RunInfo.isCommand, hbj]
      cases run.isInjected <;> rfl
  · cases hs

/-! ## The history -/

/-- **The step lemma.** -/
theorem Unused.step {e : PoolEvent κ} (hunused : s.Unused) (h : s.Origins conf f)
    (hinv : s.Inv cfg f) (hs : Sys.step cfg s e = some s') : s.Follows e s' := by
  by_cases hreceive : ∃ w, e = .receive w
  · obtain ⟨w, rfl⟩ := hreceive
    exact hunused.receive h hinv (step_receive hs)
  by_cases hfinish : ∃ w left r, e = .finish w left r
  · obtain ⟨w, left, r, rfl⟩ := hfinish
    exact hunused.finish (step_finish hs)
  have hreceive : ∀ w, e ≠ .receive w := not_exists.1 hreceive
  have hfinish : ∀ w left r, e ≠ .finish w left r := fun w left r heq => hfinish ⟨w, left, r, heq⟩
  obtain ⟨hunused', hsame⟩ := (sameMessages_of_step hinv hreceive hfinish hs).kept hunused
  refine ⟨hunused', fun v => ?_⟩
  rw [hsame, tagAfter]
  cases e with
  | receive w => exact absurd rfl (hreceive w)
  | finish w left r => exact absurd rfl (hfinish w left r)
  | _ => rfl

/-- **The tag in a message object is what the worker's last request has brought**, unless a callback
has left something else there. -/
theorem tag_of_run {es : List (PoolEvent κ)} (hes : ∀ a, .command a ∈ es → Arrives conf a)
    (hrun : Transition.run (Sys.step cfg) (init cfg) es = some s) (w : Worker) :
    (s.threads w).message.replyTag =
      tagHistory (Transition.steps (Sys.step cfg) (init cfg) es) w := by
  suffices h : (∀ a, .command a ∈ es → Arrives conf a) → s.Unused ∧
      ∀ w, (s.threads w).message.replyTag =
        tagHistory (Transition.steps (Sys.step cfg) (init cfg) es) w from (h hes).2 w
  refine Transition.run_induction_history
    (P := fun es s => (∀ a, .command a ∈ es → Arrives conf a) → s.Unused ∧
      ∀ w, (s.threads w).message.replyTag =
        tagHistory (Transition.steps (Sys.step cfg) (init cfg) es) w)
    (fun _ => ⟨?_, ?_⟩) (fun es s e s' hpre ih hs hes => ?_) hrun
  · rintro (i | t) _
    · rfl
    · simp only [init]
      split <;> rfl
  · rintro (i | t)
    · rfl
    · simp only [init]
      split <;> rfl
  · have hes' : ∀ a, .command a ∈ es → Arrives conf a := fun a ha =>
      hes a (List.mem_append_left _ ha)
    obtain ⟨hunused, htag⟩ := ih hes'
    obtain ⟨f, hinv, h⟩ := origins_of_run hes' hpre
    have hfollows := hunused.step h hinv hs
    refine ⟨hfollows.unused, fun w => ?_⟩
    rw [hfollows.tag, htag, Transition.steps_snoc hpre hs, tagHistory, tagHistory,
      List.foldl_append]
    rfl

/-- No tag is left over for a command exactly if, according to the history, the worker has none. -/
theorem noTagLeft_iff {es : List (PoolEvent κ)} (hes : ∀ a, .command a ∈ es → Arrives conf a)
    (hrun : Transition.run (Sys.step cfg) (init cfg) es = some s) (e : PoolEvent κ) :
    s.NoTagLeft e ↔ ∀ w callback, e = .receive w → s.nextCallback w = some callback →
      callback.isRequest = false →
      tagHistory (Transition.steps (Sys.step cfg) (init cfg) es) w = "" := by
  simp only [NoTagLeft, tag_of_run hes hrun]

end Sys

end OxenMQ
