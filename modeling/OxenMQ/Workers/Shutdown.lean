import OxenMQ.Workers.Books

/-!
# Shutting down

`QUIT` sets `max_workers` to zero, tells the idle workers to quit and forgets that they are idle.
The others are told when they come back, and the proxy thread ends when all of them have been
joined.  Meanwhile it goes on to accept commands and tasks.

* `workers_bounded_iff`: the table of workers may outgrow the sockets that have been made for them.
  A worker that has quit keeps its entry but is not on the list of idle ones, so each task that
  comes in for a category with a free reserved slot makes another worker, however many there have
  been.
* `shutdown_protocol_iff`: as long as this does not happen, the conversation with each worker is as
  it should be.  A worker has a job, or has been told to quit, once, and nothing after that.  A
  worker without a socket takes no part in any conversation.
-/

set_option autoImplicit false

namespace OxenMQ

namespace Sys

variable {κ : Type} [DecidableEq κ] [Fintype κ] {cfg : PoolConfig κ} {s : Sys κ}
  {f : Worker → Phase}

/-! ## The table of workers -/

/-- The event gives a job to a worker at once, without testing `max_workers`. -/
def dispatches (cfg : PoolConfig κ) (s : Sys κ) : PoolEvent κ → Bool
  | .command a =>
    !s.pool.noSlot cfg a.cat && !(a.callback.isRequest && a.dataParts.isEmpty)
  | .inject t => !s.pool.noSlot cfg t.cat
  | _ => false

/-- While we quit nobody is idle, so every dispatch makes a new worker. -/
theorem Inv.workers_length_dispatch (h : s.Inv cfg f) (hquit : s.pool.maxWorkers = 0)
    (k : Kind κ) (l : Load κ) :
    (s.dispatch k l).pool.workers.length = s.pool.workers.length + 1 := by
  have hidle := h.idle.count_eq_zero fun i => h.quitting hquit _
  rw [Sys.dispatch_new s k l hidle, Pool.workers_addActive, List.length_append,
    List.length_singleton]

/-- The new worker has been started, and nobody has talked to it. -/
theorem Inv.dispatched (h : s.Inv cfg f) (hquit : s.pool.maxWorkers = 0) (k : Kind κ) (l : Load κ) :
    ∃ run, (s.dispatch k l).pool.runInfo (.untagged s.pool.workers.length) = some run ∧
      run.joinable = true ∧
      (s.dispatch k l).threads (.untagged s.pool.workers.length) = { status := .preloaded } := by
  have hidle := h.idle.count_eq_zero fun i => h.quitting hquit _
  rw [Sys.dispatch_new s k l hidle]
  refine ⟨{ ({} : RunInfo κ).load l with joinable := true }, ?_, rfl, Function.update_self ..⟩
  rw [Pool.runInfo_addActive]
  exact List.getElem?_concat_length

omit [Fintype κ] in
/-- Such an event is a dispatch. -/
theorem exists_dispatch {e : PoolEvent κ} {s' : Sys κ} (hdispatch : s.dispatches cfg e = true)
    (hs : Sys.step cfg s e = some s') : ∃ k l, s' = s.dispatch k l := by
  cases e with
  | command a =>
    rw [dispatches, Bool.and_eq_true, Bool.not_eq_true', Bool.not_eq_true'] at hdispatch
    rw [← step_command hs, Sys.proxyToWorker, hdispatch.1, hdispatch.2]
    exact ⟨_, _, rfl⟩
  | inject t =>
    rw [dispatches, Bool.not_eq_true'] at hdispatch
    rw [← step_inject hs, Sys.proxyInjectTask, hdispatch]
    exact ⟨_, _, rfl⟩
  | _ => cases hdispatch

omit [Fintype κ] in
theorem workers_queueCommand (s : Sys κ) (p : PendingCommand κ) :
    (s.queueCommand cfg p).pool.workers = s.pool.workers := by
  unfold queueCommand
  split <;> rfl

/-- While we quit, the table grows with each dispatch, and never shrinks. -/
theorem Inv.workers_length_step {e : PoolEvent κ} {s' : Sys κ} (h : s.Inv cfg f)
    (hquit : s.pool.maxWorkers = 0) (hs : Sys.step cfg s e = some s') :
    s'.pool.workers.length =
      s.pool.workers.length + if s.dispatches cfg e = true then 1 else 0 := by
  have hsame : SameBooks s s' → s'.pool.workers.length = s.pool.workers.length := fun hsame => by
    obtain ⟨_, _, _, hp, _⟩ := hsame.pool
    rw [hp]
  cases e with
  | command a =>
    rw [← step_command hs, Sys.proxyToWorker, dispatches]
    by_cases hslot : s.pool.noSlot cfg a.cat = true
    · simp only [hslot, if_true, workers_queueCommand, Bool.not_true, Bool.false_and]
      rfl
    · by_cases htag : (a.callback.isRequest && a.dataParts.isEmpty) = true
      · simp [hslot, htag]
      · simp [hslot, htag, h.workers_length_dispatch hquit]
  | inject t =>
    rw [← step_inject hs, Sys.proxyInjectTask, dispatches]
    by_cases hslot : s.pool.noSlot cfg t.cat = true
    · simp only [hslot, if_true, workers_queueCommand, Bool.not_true]
      rfl
    · simp [hslot, h.workers_length_dispatch hquit]
  | submit spec => exact hsame ((step_submit_cases hs).2 ▸ s.sameBooks_submit spec)
  | replyJob callback =>
    exact hsame (step_replyJob hs ▸ s.sameBooks_proxyScheduleReplyJob callback)
  | processQueue =>
    rw [← step_processQueue hs, Sys.proxyProcessQueue, if_pos hquit]
    rfl
  | workerMessage v =>
    obtain ⟨run, rest, _, ⟨_, rfl⟩ | ⟨_, rfl⟩⟩ := proxyWorkerMessage_cases (step_workerMessage hs)
    · rw [workers_workerRan]
      rfl
    · exact Pool.workers_length_modifyRun ..
  | quit => exact absurd hquit (step_quit_cases hs).1
  | stop =>
    rw [(step_stop_cases hs).2.2]
    rfl
  | receive v => exact workers_length_workerReceive (step_receive hs)
  | finish v left r =>
    rw [(h.workerFinish (step_finish hs)).2]
    rfl

omit [DecidableEq κ] [Fintype κ] in
theorem workers_proxyControlQuit (s : Sys κ) :
    s.proxyControlQuit.pool.workers = s.pool.workers := by
  unfold Sys.proxyControlQuit
  dsimp only
  rw [pool_foldl_quit, pool_foldl_quit]

/-- A step that does not dispatch while we quit and the table is full leaves the table within its
bounds. -/
theorem Inv.workers_bounded_step {e : PoolEvent κ} {s' : Sys κ} (h : s.Inv cfg f)
    (hle : s.pool.workers.length ≤ cfg.maxWorkers)
    (hroom : s.pool.maxWorkers = 0 → s.dispatches cfg e = true →
      s.pool.workers.length < cfg.maxWorkers)
    (hs : Sys.step cfg s e = some s') : s'.pool.workers.length ≤ cfg.maxWorkers := by
  obtain ⟨f', h', _, hmax⟩ := h.step hs
  by_cases hquit' : s'.pool.maxWorkers = 0
  · by_cases he : e = .quit
    · subst he
      rw [(step_quit_cases hs).2, workers_proxyControlQuit]
      exact hle
    · have hquit := (hmax he).symm.trans hquit'
      rw [h.workers_length_step hquit hs]
      split
      · rename_i hdispatch
        exact hroom hquit hdispatch
      · exact hle
  · exact (h'.isOpen hquit').length_le

/-- Along the events, nothing is dispatched while we quit and the table is full. -/
def InRoom (cfg : PoolConfig κ) (es : List (PoolEvent κ)) : Prop :=
  ∀ p ∈ Transition.steps (Sys.step cfg) (init cfg) es, p.1.pool.maxWorkers = 0 →
    p.1.dispatches cfg p.2 = true → p.1.pool.workers.length < cfg.maxWorkers

instance (cfg : PoolConfig κ) (es : List (PoolEvent κ)) : Decidable (InRoom cfg es) :=
  inferInstanceAs (Decidable (∀ p ∈ Transition.steps (Sys.step cfg) (init cfg) es, _ → _ → _))

/-- Then the table is never too long. -/
theorem bounded_of_inRoom {es : List (PoolEvent κ)} (hroom : InRoom cfg es) :
    ∀ t ∈ Transition.states (Sys.step cfg) (init cfg) es,
      (∃ f, t.Inv cfg f) ∧ t.pool.workers.length ≤ cfg.maxWorkers := by
  refine Transition.states_of_steps
    (C := fun (s : Sys κ) e => s.pool.maxWorkers = 0 → s.dispatches cfg e = true →
      s.pool.workers.length < cfg.maxWorkers) ?_ ⟨⟨_, init_inv cfg⟩, Nat.zero_le _⟩ hroom
  rintro s e s' ⟨⟨f, h⟩, hle⟩ hroom hs
  exact ⟨(h.step hs).imp fun _ h' => h'.1, h.workers_bounded_step hle hroom hs⟩

/-- **The table of workers stays within the sockets made for it if and only if nothing is
dispatched while we quit and the table is full.** -/
theorem workers_bounded_iff (cfg : PoolConfig κ) (es : List (PoolEvent κ)) :
    (∀ t ∈ Transition.states (Sys.step cfg) (init cfg) es,
      t.pool.workers.length ≤ cfg.maxWorkers) ↔
    ∀ p ∈ Transition.steps (Sys.step cfg) (init cfg) es, p.1.pool.maxWorkers = 0 →
      p.1.dispatches cfg p.2 = true → p.1.pool.workers.length < cfg.maxWorkers := by
  constructor
  · intro hall p hp hquit hdispatch
    obtain ⟨pre, post, t, rfl, hpre, ht⟩ := Transition.exists_of_mem_steps hp
    obtain ⟨f, h⟩ := inv_of_run hpre
    have hmem := Transition.mem_states_of_run post (Transition.run_snoc hpre ht)
    rw [List.append_assoc, List.singleton_append] at hmem
    have hle := hall t hmem
    rw [h.workers_length_step hquit ht, if_pos hdispatch] at hle
    exact hle
  · exact fun hroom t ht => (bounded_of_inRoom hroom t ht).2

/-! ### A run that outgrows the table -/

/-- One general worker, and one reserved for the only category there is; two sockets. -/
def tinyConfig : PoolConfig Unit where
  generalWorkers := 1
  generalWorkers_pos := Nat.one_pos
  batchThreads := 0
  replyThreads := 0
  reservedThreads _ := 1
  maxQueue _ := 200

/-- A task is injected, and a worker runs it to its end. -/
def taskDone (i : ℕ) : List (PoolEvent Unit) :=
  [.inject someTask, .receive (.untagged i), .finish (.untagged i) {} .unset,
    .workerMessage (.untagged i)]

/-- One task before `QUIT` and two after it, never two at the same time. -/
def lateTasks : List (PoolEvent Unit) :=
  taskDone 0 ++ .quit :: taskDone 1 ++ [.inject someTask]

/-- The third task gets a third worker, and there are two sockets. -/
theorem lateTasks_overflow :
    ∃ s, Transition.run (Sys.step tinyConfig) (init tinyConfig) lateTasks = some s ∧
      tinyConfig.maxWorkers = 2 ∧ s.pool.workers.length = 3 := by
  exact ⟨_, rfl, by decide, by decide⟩

/-! ## The conversation with a worker -/

/-- The worker has a job, and a socket to say on that it is done, or its `RAN` is in flight. -/
def hasJob (s : Sys κ) (w : Worker) : Prop :=
  s.pool.hasSocket w = true ∧ (s.outstanding w ≠ 0 ∨ .ran ∈ (s.threads w).outbox)

/-- A `QUIT` is in flight to the worker. -/
def quitInFlight (s : Sys κ) (w : Worker) : Prop := .quit ∈ (s.threads w).inbox

/-- A `QUITTING` is in flight from the worker. -/
def quittingInFlight (s : Sys κ) (w : Worker) : Prop := .quitting ∈ (s.threads w).outbox

/-- The worker has been told to quit, once, and nothing after that. -/
def toldToQuit (s : Sys κ) (w : Worker) : Prop :=
  ∃ before, s.sent w = before ++ [.quit] ∧ .quit ∉ before

/-- There is a socket for every worker as long as the table is within its bounds. -/
theorem Inv.hasSocket (h : s.Inv cfg f) (hle : s.pool.workers.length ≤ cfg.maxWorkers) {w : Worker}
    (hw : (s.pool.runInfo w).isSome = true) : s.pool.hasSocket w = true := by
  cases w with
  | tagged t => rfl
  | untagged i =>
    obtain ⟨run, hrun⟩ := Option.isSome_iff_exists.1 hw
    have hlt : i < s.pool.workers.length := (List.getElem?_eq_some_iff.1 hrun).1
    rw [Pool.hasSocket, decide_eq_true_iff, h.idle.length]
    exact hlt.trans_le hle

theorem Inv.hasJob_iff (h : s.Inv cfg f) {w : Worker} (hsocket : s.pool.hasSocket w = true) :
    s.hasJob w ↔ (f w).busy = true := by
  have hran : .ran ∈ (s.threads w).outbox ↔ f w = .ran := (h.fits w).ran_mem_outbox_iff
  rw [hasJob, and_iff_right hsocket, h.outstanding_ne_zero_iff, hran, or_iff_left_iff_imp]
  intro hphase
  rw [hphase]
  rfl

theorem Inv.toldToQuit_of_told (h : s.Inv cfg f) {w : Worker} (htold : (f w).told = true) :
    s.toldToQuit w := by
  have hsent := (h.fits w).sent
  rw [if_pos htold] at hsent
  exact hsent

theorem Inv.quit_notMem_sent (h : s.Inv cfg f) {w : Worker} (htold : (f w).told = false) :
    .quit ∉ s.sent w := by
  have hsent := (h.fits w).sent
  rw [if_neg (by rw [htold]; exact Bool.false_ne_true)] at hsent
  exact hsent

/-- While we quit, a worker has a job or has been told to quit. -/
theorem Inv.busy_or_told (h : s.Inv cfg f) (hquit : s.pool.maxWorkers = 0) {w : Worker}
    {run : RunInfo κ} (hrun : s.pool.runInfo w = some run) :
    ((f w).busy = true ∧ (f w).told = false) ∨ ((f w).busy = false ∧ (f w).told = true) := by
  have hjoin : (s.pool.runInfo w).map RunInfo.joinable = (f w).joinable := (h.fits w).joinable
  have hidle := h.quitting hquit w
  rw [hrun] at hjoin
  revert hjoin hidle
  cases f w <;> simp [Phase.busy, Phase.told, Phase.joinable]

/-- A worker that has not been joined is in one of the three situations, and in one only. -/
theorem Inv.situation (h : s.Inv cfg f) (hquit : s.pool.maxWorkers = 0) {w : Worker}
    {run : RunInfo κ} (hrun : s.pool.runInfo w = some run) (hsocket : s.pool.hasSocket w = true)
    (hjoinable : run.joinable = true) :
    (s.hasJob w ∧ ¬ s.quitInFlight w ∧ ¬ s.quittingInFlight w) ∨
    (¬ s.hasJob w ∧ s.quitInFlight w ∧ ¬ s.quittingInFlight w) ∨
    (¬ s.hasJob w ∧ ¬ s.quitInFlight w ∧ s.quittingInFlight w) := by
  have hjoin : (s.pool.runInfo w).map RunInfo.joinable = (f w).joinable := (h.fits w).joinable
  have hidle := h.quitting hquit w
  have hquitInFlight : s.quitInFlight w ↔ f w = .quitSent := (h.fits w).quit_mem_inbox_iff
  have hquittingInFlight : s.quittingInFlight w ↔ f w = .quitting :=
    (h.fits w).quitting_mem_outbox_iff
  rw [hrun, Option.map_some, hjoinable] at hjoin
  rw [h.hasJob_iff hsocket, hquitInFlight, hquittingInFlight]
  revert hjoin hidle
  cases f w <;> simp [Phase.busy, Phase.joinable]

theorem Inv.eq_joined (h : s.Inv cfg f) {w : Worker} {run : RunInfo κ}
    (hrun : s.pool.runInfo w = some run) (hjoinable : run.joinable = false) : f w = .joined := by
  have hjoin : (s.pool.runInfo w).map RunInfo.joinable = (f w).joinable := (h.fits w).joinable
  rw [hrun, Option.map_some, hjoinable] at hjoin
  revert hjoin
  cases f w <;> simp [Phase.joinable]

omit [DecidableEq κ] [Fintype κ] in
theorem joinable_of_allJoined (h : s.allJoined = true) {w : Worker} {run : RunInfo κ}
    (hrun : s.pool.runInfo w = some run) : run.joinable = false := by
  obtain ⟨huntagged, htagged⟩ := Bool.and_eq_true_iff.1 h
  rw [List.all_eq_true] at huntagged htagged
  cases w with
  | untagged i => simpa using huntagged run (List.mem_of_getElem? hrun)
  | tagged t =>
    obtain ⟨tw, ht, rfl⟩ := Option.map_eq_some_iff.1 hrun
    simpa using htagged tw (List.mem_of_getElem? ht)

/-- What is expected of a state.  Once `QUIT` has been processed, every worker that has not been
joined has a job, or a `QUIT` is in flight to it, or a `QUITTING` from it; and it has not been told
to quit in the first case, and has been told so once and as the last thing in the others.  The proxy
ends only after `QUIT`, and when every worker there has ever been is joined. -/
structure Protocol (cfg : PoolConfig κ) (s : Sys κ) : Prop where
  situation : s.pool.maxWorkers = 0 → ∀ w run, s.pool.runInfo w = some run → run.joinable = true →
    (s.hasJob w ∧ ¬ s.quitInFlight w ∧ ¬ s.quittingInFlight w) ∨
    (¬ s.hasJob w ∧ s.quitInFlight w ∧ ¬ s.quittingInFlight w) ∨
    (¬ s.hasJob w ∧ ¬ s.quitInFlight w ∧ s.quittingInFlight w)
  told : s.pool.maxWorkers = 0 → ∀ w run, s.pool.runInfo w = some run →
    (s.hasJob w ∧ .quit ∉ s.sent w) ∨ (¬ s.hasJob w ∧ s.toldToQuit w)
  stop : ∀ s', Sys.step cfg s .stop = some s' → s.pool.maxWorkers = 0 ∧
    ∀ w run, s.pool.runInfo w = some run →
      run.joinable = false ∧ (s.threads w).status = .exited ∧ s.toldToQuit w

/-- All is well while there is a socket for every worker. -/
theorem Inv.protocol (h : s.Inv cfg f) (hle : s.pool.workers.length ≤ cfg.maxWorkers) :
    s.Protocol cfg := by
  have hsocket : ∀ {w run}, s.pool.runInfo w = some run → s.pool.hasSocket w = true :=
    fun hw => h.hasSocket hle (Option.isSome_of_mem hw)
  refine ⟨fun hquit w run hw => h.situation hquit hw (hsocket hw), fun hquit w run hw => ?_,
    fun s' hs => ?_⟩
  · rw [h.hasJob_iff (hsocket hw)]
    rcases h.busy_or_told hquit hw with ⟨hbusy, htold⟩ | ⟨hbusy, htold⟩
    · exact Or.inl ⟨hbusy, h.quit_notMem_sent htold⟩
    · exact Or.inr ⟨by rw [hbusy]; exact Bool.false_ne_true, h.toldToQuit_of_told htold⟩
  · obtain ⟨hquit, hjoined, _⟩ := step_stop_cases hs
    refine ⟨hquit, fun w run hw => ?_⟩
    have hjoinable := joinable_of_allJoined hjoined hw
    have hphase := h.eq_joined hw hjoinable
    refine ⟨hjoinable, ?_, h.toldToQuit_of_told (by rw [hphase]; rfl)⟩
    have hstatus := (h.fits w).status
    rw [hphase] at hstatus
    rcases hstatus with hstatus | ⟨_, hne, _⟩
    · exact hstatus
    · cases hne

omit [Fintype κ] in
/-- A worker without a socket has nothing to do with the others. -/
theorem not_protocol (hquit : s.pool.maxWorkers = 0) {w : Worker}
    {run : RunInfo κ} (hw : s.pool.runInfo w = some run) (hjoinable : run.joinable = true)
    (hsocket : s.pool.hasSocket w = false) (hfree : (s.threads w).inbox = [])
    (hsilent : (s.threads w).outbox = []) : ¬ s.Protocol cfg := by
  intro hprotocol
  have hjob : ¬ s.hasJob w := fun hjob => by
    rw [hasJob, hsocket] at hjob
    cases hjob.1
  rcases hprotocol.situation hquit w run hw hjoinable with ⟨hjob', _⟩ | ⟨_, hin, _⟩ | ⟨_, _, hin⟩
  · exact hjob hjob'
  · rw [quitInFlight, hfree] at hin
    cases hin
  · rw [quittingInFlight, hsilent] at hin
    cases hin

/-- **The shutdown protocol is kept along a run if and only if there always is a socket for a new
worker.** -/
theorem shutdown_protocol_iff (cfg : PoolConfig κ) (es : List (PoolEvent κ)) :
    (∀ t ∈ Transition.states (Sys.step cfg) (init cfg) es, t.Protocol cfg) ↔ InRoom cfg es := by
  constructor
  · intro hall p hp hquit hdispatch
    obtain ⟨pre, post, t, rfl, hpre, ht⟩ := Transition.exists_of_mem_steps hp
    obtain ⟨f, h⟩ := inv_of_run hpre
    have hmem := Transition.mem_states_of_run post (Transition.run_snoc hpre ht)
    rw [List.append_assoc, List.singleton_append] at hmem
    by_contra hfull
    obtain ⟨k, l, rfl⟩ := exists_dispatch hdispatch ht
    obtain ⟨run, hrun, hjoinable, hthread⟩ := h.dispatched hquit k l
    obtain ⟨f', h', _, hmax⟩ := h.step ht
    have hne : p.2 ≠ .quit := fun he => by
      rw [he] at hdispatch
      exact Bool.false_ne_true hdispatch
    have hquit' : (p.1.dispatch k l).pool.maxWorkers = 0 := (hmax hne).trans hquit
    have hsocket :
        (p.1.dispatch k l).pool.hasSocket (.untagged p.1.pool.workers.length) = false := by
      rw [Pool.hasSocket, h'.idle.length, decide_eq_false_iff_not]
      exact hfull
    exact not_protocol hquit' hrun hjoinable hsocket (by rw [hthread]) (by rw [hthread])
      (hall _ hmem)
  · intro hroom t ht
    obtain ⟨⟨f, h⟩, hle⟩ := bounded_of_inRoom hroom t ht
    exact h.protocol hle

/-- `QUIT` comes while a worker has a job and the tagged worker has not even started. -/
def quitRun : List (PoolEvent Unit) :=
  [.inject someTask, .quit, .receive (.untagged 0), .finish (.untagged 0) {} .unset,
    .workerMessage (.untagged 0), .receive (.untagged 0), .workerMessage (.untagged 0),
    .receive (.tagged 0), .receive (.tagged 0), .workerMessage (.tagged 0)]

theorem shutdown_protocol_quitRun :
    ∃ s s', Transition.run (Sys.step smallConfig) (init smallConfig) quitRun = some s ∧
      Sys.step smallConfig s .stop = some s' ∧
      ∀ t ∈ Transition.states (Sys.step smallConfig) (init smallConfig) quitRun,
        t.Protocol smallConfig :=
  ⟨_, _, rfl, rfl, (shutdown_protocol_iff smallConfig quitRun).2 (by decide)⟩

/-- The third worker has been started and not been joined.  It has no socket, so that it can be told
nothing and can say nothing. -/
theorem lateTasks_noSocket :
    ∃ s run, Transition.run (Sys.step tinyConfig) (init tinyConfig) lateTasks = some s ∧
      s.pool.maxWorkers = 0 ∧ s.pool.runInfo (.untagged 2) = some run ∧ run.joinable = true ∧
      s.pool.hasSocket (.untagged 2) = false ∧ s.workerReceive (.untagged 2) = none ∧
      ¬ s.Protocol tinyConfig := by
  have hrun : Transition.run (Sys.step tinyConfig) (init tinyConfig) lateTasks = some _ := rfl
  exact ⟨_, _, hrun, rfl, rfl, rfl, by decide, Option.isNone_iff_eq_none.1 (by decide),
    not_protocol (w := .untagged 2) rfl rfl rfl (by decide) rfl rfl⟩

end Sys

end OxenMQ
