import OxenMQ.Connections.Spec
import OxenMQ.Workers.Books
import OxenMQ.Workers.Log

/-!
# What a command callback is called with

A message arrives (`Conn.receive`), is handed to a worker or queued, and in the end a worker calls
the callback with a `Message`.  The message ought to be a function of what has arrived
(`Arrival.message`): the sender and its access, and the data frames, of which the first one is the
reply tag if the command is a request.

Each worker has one `Message` object and uses it for all its commands.  Everything in it is written
before a callback is called, except the reply tag of a command that is not a request: there the
callback sees the tag that is left over from before.  So a callback gets its own message exactly as
long as no such command meets a worker with a tag left over (`messages_own_iff`), and one request is
enough to leave one (`staleRun_tag`).  `DeferredSend` looks at the tag to choose between a reply and
an ordinary message.
-/

set_option autoImplicit false

namespace OxenMQ

variable {κ : Type}

/-- What the callback of a command ought to be called with. -/
def Arrival.message (a : Arrival κ) : Message where
  conn := a.conn
  access := a.access
  remote := a.remote
  data := if a.callback.isRequest then a.dataParts.drop 1 else a.dataParts
  replyTag := if a.callback.isRequest then a.dataParts.headD "" else ""

/-- The command comes from a message, and has passed the checks on its sender. -/
def Arrives (conf : Config κ) (a : Arrival κ) : Prop :=
  ∃ c env immediate connId router m c',
    Conn.receive conf c env immediate connId router m = .ok (c', some a)

/-- The message is the one that the arrival asks for, and a request has its reply tag from the
first data frame. -/
def Message.IsFor (m : Message) (a : Arrival κ) : Prop :=
  m = a.message ∧ (a.callback.isRequest = true → a.dataParts = m.replyTag :: m.data)

/-- The callback that the job calls, if it is a command. -/
def RunInfo.commandCallback (run : RunInfo κ) : Option Command :=
  match run.isBatchJob, run.isInjected, run.toRun with
  | false, false, some (.callback c) => some c
  | _, _, _ => none

def LogEntry.isInvocation : LogEntry κ → Bool
  | .invoked .. => true
  | _ => false

namespace Sys

/-- The command callback that the worker calls when it takes its next step. -/
def nextCallback (s : Sys κ) (w : Worker) : Option Command :=
  if s.begins w then (s.pool.runInfo w).bind RunInfo.commandCallback else none

/-- Every command callback has been called with its own message. -/
def MessagesOwn (s : Sys κ) : Prop :=
  ∀ w a m, .invoked w a m ∈ s.log → m.IsFor a

/-- No command that is not a request meets a worker with a reply tag left over. -/
def NoTagLeft (s : Sys κ) (e : PoolEvent κ) : Prop :=
  ∀ w callback, e = .receive w → s.nextCallback w = some callback → callback.isRequest = false →
    (s.threads w).message.replyTag = ""

/-- Commands that wait, in the queue or with a worker, have arrived. -/
structure Origins (conf : Config κ) (s : Sys κ) (f : Worker → Phase) : Prop where
  pending : ∀ a, .command a ∈ s.pool.pendingCommands → Arrives conf a
  loaded : ∀ w, (f w).loaded = true → ∃ (r : RunInfo κ) (l : Load κ),
    s.pool.runInfo w = some (r.load l) ∧ ∀ a, l = .pending (.command a) → Arrives conf a

end Sys

/-! ## What arrives -/

/-- A request without a reply tag is turned away before it gets to the pool. -/
theorem Arrives.dataParts {conf : Config κ} {a : Arrival κ} (h : Arrives conf a)
    (hreq : a.callback.isRequest = true) :
    a.dataParts = a.message.replyTag :: a.message.data := by
  obtain ⟨c, env, immediate, connId, router, m, c', h⟩ := h
  obtain ⟨c₁, h⟩ := Conn.arrival_of_receive h
  obtain ⟨peer, _, _, hpass, _⟩ := Conn.arrival_some h
  have hne : a.dataParts ≠ [] := (Config.rejection_eq_none.1 hpass).2.2.2 hreq
  cases hparts : a.dataParts with
  | nil => exact absurd hparts hne
  | cons tag data => simp [Arrival.message, hreq, hparts]

theorem Arrives.isFor {conf : Config κ} {a : Arrival κ} (h : Arrives conf a) :
    a.message.IsFor a := ⟨rfl, h.dataParts⟩

/-- The message object as a worker makes it ready, whatever was in it before. -/
theorem RunInfo.prepare_loadCommand (r : RunInfo κ) (a : Arrival κ) (m : Message) :
    (r.loadCommand a).prepare a.callback m =
      if a.callback.isRequest = true then a.message
      else { a.message with replyTag := m.replyTag } := by
  by_cases hreq : a.callback.isRequest = true <;>
    simp [RunInfo.prepare, RunInfo.loadCommand, Arrival.message, hreq]

namespace Sys

variable {s s' : Sys κ} {f f' : Worker → Phase}

/-! ## Steps that call no callback -/

/-- The same callbacks have been called. -/
def SameInvocations (s s' : Sys κ) : Prop :=
  s'.log.filter LogEntry.isInvocation = s.log.filter LogEntry.isInvocation

theorem SameInvocations.own (h : SameInvocations s s') (hown : s.MessagesOwn) :
    s'.MessagesOwn := by
  intro w a m hm
  have hm' : .invoked w a m ∈ s'.log.filter LogEntry.isInvocation := List.mem_filter.2 ⟨hm, rfl⟩
  rw [h] at hm'
  exact hown w a m (List.mem_filter.1 hm').1

theorem sameInvocations_append (es : List (LogEntry κ)) (hlog : s'.log = s.log ++ es)
    (hes : ∀ x ∈ es, x.isInvocation = false) : SameInvocations s s' := by
  have hnone : es.filter LogEntry.isInvocation = [] := by
    rw [List.filter_eq_nil_iff]
    intro x hx
    simp [hes x hx]
  rw [SameInvocations, hlog, List.filter_append, hnone, List.append_nil]

variable [DecidableEq κ]

theorem sameInvocations_of_step {cfg : PoolConfig κ} {e : PoolEvent κ}
    (h : Sys.step cfg s e = some s') (hne : ∀ w, e ≠ .receive w) : SameInvocations s s' := by
  obtain ⟨es, hlog, hes⟩ := step_log h
  refine sameInvocations_append es hlog fun x hx => ?_
  have hfrom := hes x hx
  cases x with
  | invoked w a m =>
    cases e with
    | receive w => exact absurd rfl (hne w)
    | _ => cases hfrom
  | _ => rfl

/-! ## Where commands come from -/

omit [DecidableEq κ] in
theorem loaded_of_free {p : Phase} (h : p.busy = false) : p.loaded = false := by
  cases p <;> first | rfl | cases h

omit [DecidableEq κ] in
/-- A worker that has moved on to something else does not wait to begin. -/
theorem loaded_of_update {w v : Worker} {p : Phase} (hp : p.loaded = false)
    (hv : (Function.update f w p v).loaded = true) : (f v).loaded = true := by
  rcases eq_or_ne v w with rfl | hne
  · rw [Function.update_self, hp] at hv
    cases hv
  · rwa [Function.update_of_ne hne] at hv

variable {conf : Config κ}

omit [DecidableEq κ] in
theorem Origins.dispatches {Q : Set (PendingCommand κ)} (h : s.Origins conf f)
    (hdisp : Dispatches Q s f s' f') (hpending : ∀ c ∈ s.pool.pendingCommands, c ∈ Q)
    (hQ : ∀ a, .command a ∈ Q → Arrives conf a) : s'.Origins conf f' := by
  refine ⟨fun a ha => hQ a (hdisp.pending hpending _ ha), ?_⟩
  induction hdisp with
  | refl => exact h.loaded
  | queue hdisp queued hpending ih =>
    intro w hw
    obtain ⟨r, l, hrun, hl⟩ := ih w hw
    exact ⟨r, l, by cases w <;> exact hrun, hl⟩
  | @load s₁ s₂ f₁ hdisp v l p hfree hp hloaded htakes hload ih =>
    intro w hw
    rcases eq_or_ne w v with rfl | hne
    · obtain ⟨r, hr⟩ := hloaded.run
      exact ⟨r, l, hr, fun a ha => hQ a (hload _ ha)⟩
    · rw [Function.update_of_ne hne] at hw
      rw [hloaded.other w hne]
      exact ih w hw

omit [DecidableEq κ] in
/-- The commands that wait are the same ones or fewer. -/
theorem Origins.congr (h : s.Origins conf f)
    (hpending : s'.pool.pendingCommands = s.pool.pendingCommands)
    (hloaded : ∀ w, (f' w).loaded = true →
      (f w).loaded = true ∧ s'.pool.runInfo w = s.pool.runInfo w) : s'.Origins conf f' := by
  refine ⟨by rw [hpending]; exact h.pending, fun w hw => ?_⟩
  obtain ⟨hw', hrun⟩ := hloaded w hw
  rw [hrun]
  exact h.loaded w hw'

/-! ## A callback is called -/

omit [DecidableEq κ] in
/-- A worker begins with a command that has arrived, or calls no command callback. -/
theorem Origins.beginJob (h : s.Origins conf f) {w : Worker} {run : RunInfo κ}
    (hrun : s.pool.runInfo w = some run) (hphase : (f w).loaded = true)
    (threads : Worker → Thread) :
    (run.commandCallback = none ∧
      SameInvocations s ({ s with threads := threads }.beginJob w run)) ∨
    ∃ r a, run = RunInfo.loadCommand r a ∧ Arrives conf a ∧
      run.commandCallback = some a.callback ∧
      ({ s with threads := threads }.beginJob w run).log =
        s.log ++ [.invoked w a (run.prepare a.callback (threads w).message)] := by
  obtain ⟨r, l, hload, hl⟩ := h.loaded w hphase
  obtain rfl := Option.some.inj (hrun.symm.trans hload)
  cases l with
  | batch bj reply tagged =>
    obtain ⟨ptr, no⟩ := bj
    refine Or.inl ⟨rfl, ?_⟩
    by_cases hno : no = -1
    · subst hno
      cases hb : s.heap ptr with
      | none => simp [SameInvocations, Sys.beginJob, RunInfo.load, RunInfo.loadBatch,
          RunInfo.batchJob, hb]
      | some b =>
        rw [beginJob_completion { s with threads := threads } w rfl hb]
        exact sameInvocations_append _ rfl (by simp [LogEntry.isInvocation])
    · rw [beginJob_job _ w rfl hno]
      rfl
  | pending c =>
    cases c with
    | injected t => exact Or.inl ⟨rfl, rfl⟩
    | command a => exact Or.inr ⟨r, a, rfl, hl a rfl, rfl, rfl⟩

variable [Fintype κ] {cfg : PoolConfig κ}

/-- Only a worker's own step can call a callback. -/
theorem Origins.step_other {e : PoolEvent κ} (h : s.Origins conf f) (hinv : s.Inv cfg f)
    (he : ∀ a, e = .command a → Arrives conf a) (hne : ∀ w, e ≠ .receive w)
    (hs : Sys.step cfg s e = some s') :
    ∃ f', s'.Inv cfg f' ∧ s'.Origins conf f' ∧ SameInvocations s s' := by
  suffices h' : ∃ f', s'.Inv cfg f' ∧ s'.Origins conf f' by
    obtain ⟨f', hinv', h'⟩ := h'
    exact ⟨f', hinv', h', sameInvocations_of_step hs hne⟩
  have hdisp : ∀ {Q : Set (PendingCommand κ)}, (∀ c ∈ s.pool.pendingCommands, c ∈ Q) →
      (∀ a, .command a ∈ Q → Arrives conf a) → (∃ f', s'.Inv cfg f' ∧ Dispatches Q s f s' f') →
      ∃ f', s'.Inv cfg f' ∧ s'.Origins conf f' :=
    fun hpending hQ ⟨f', hinv', hd⟩ => ⟨f', hinv', h.dispatches hd hpending hQ⟩
  have hbooks : SameBooks s s' → ∃ f', s'.Inv cfg f' ∧ s'.Origins conf f' := fun hbooks =>
    ⟨f, hinv.sameBooks hbooks, h.congr hbooks.pending fun w hw => ⟨hw, hbooks.runInfo w⟩⟩
  cases e with
  | command a =>
    refine hdisp (fun c => Or.inl) ?_ (step_command hs ▸ hinv.proxyToWorker a)
    rintro b (hb | hb)
    · exact h.pending b hb
    · cases hb
      exact he a rfl
  | inject t =>
    refine hdisp (fun c => Or.inl) ?_ (step_inject hs ▸ hinv.proxyInjectTask t)
    rintro b (hb | hb)
    · exact h.pending b hb
    · cases hb
  | submit spec =>
    obtain ⟨_, rfl⟩ := step_submit_cases hs
    exact hbooks (s.sameBooks_submit spec)
  | replyJob callback =>
    obtain rfl := step_replyJob hs
    exact hbooks (s.sameBooks_proxyScheduleReplyJob callback)
  | processQueue =>
    exact hdisp (fun c hc => hc) h.pending (step_processQueue hs ▸ hinv.proxyProcessQueue)
  | workerMessage w =>
    obtain ⟨run, rest, hrun, ⟨houtbox, rfl⟩ | ⟨houtbox, rfl⟩⟩ :=
      proxyWorkerMessage_cases (step_workerMessage hs)
    · obtain ⟨hphase, rfl⟩ := (hinv.fits w).eq_of_outbox_ran houtbox
      refine ⟨_, hinv.ran hrun hphase, h.congr (pendingCommands_workerRan _ w run) fun v hv => ?_⟩
      exact ⟨loaded_of_update (by split <;> rfl) hv, runInfo_workerRan _ w run v⟩
    · obtain ⟨hphase, rfl⟩ := (hinv.fits w).eq_of_outbox_quitting houtbox
      refine ⟨_, hinv.joined hphase, h.congr (by cases w <;> rfl) fun v hv => ?_⟩
      have hvw : v ≠ w := by
        rintro rfl
        rw [Function.update_self] at hv
        cases hv
      exact ⟨loaded_of_update rfl hv, (s.pool.runInfo_modifyRun _ w v).trans (if_neg hvw)⟩
  | quit =>
    obtain ⟨hopen, rfl⟩ := step_quit_cases hs
    refine ⟨_, hinv.proxyControlQuit hopen,
      h.congr ?_ fun v hv => ⟨?_, runInfo_proxyControlQuit s v⟩⟩
    · unfold Sys.proxyControlQuit
      dsimp only
      rw [pool_foldl_quit, pool_foldl_quit]
    · split at hv
      · cases hv
      · exact hv
  | stop =>
    obtain ⟨_, _, rfl⟩ := step_stop_cases hs
    exact hbooks ⟨⟨_, _, _, rfl, rfl⟩, rfl, rfl, rfl, rfl⟩
  | receive w => exact absurd rfl (hne w)
  | finish w left r =>
    obtain ⟨hinv', hpool⟩ := hinv.workerFinish (step_finish hs)
    exact ⟨_, hinv', h.congr (by rw [hpool]) fun v hv => ⟨loaded_of_update rfl hv, by rw [hpool]⟩⟩

/-- **What a worker's own step does.**  It calls a callback if it begins with a command.  The
message is the one that has arrived, but for the reply tag of a command that is not a request. -/
theorem Origins.receive {w : Worker} (h : s.Origins conf f) (hinv : s.Inv cfg f)
    (hs : s.workerReceive w = some s') :
    ∃ f', s'.Inv cfg f' ∧ s'.Origins conf f' ∧
      ((s.nextCallback w = none ∧ SameInvocations s s') ∨
      ∃ a, Arrives conf a ∧ s.nextCallback w = some a.callback ∧
        s'.log = s.log ++ [.invoked w a (if a.callback.isRequest = true then a.message
          else { a.message with replyTag := (s.threads w).message.replyTag })]) := by
  obtain ⟨p, hinv', hother, _, ⟨run, threads, hbegins, hrun, hphase, rfl, hmessage, rfl⟩ |
    ⟨hbegins, hp, threads, rfl⟩⟩ := hinv.workerReceive hs
  · have horigins : ({ s with threads := threads }.beginJob w run).Origins conf
        (Function.update f w .running) := by
      refine h.congr ?_ fun v hv => ⟨loaded_of_update rfl hv, hother v ?_⟩
      · obtain ⟨g, message, heap, log, heq, _⟩ := beginJob_eq { s with threads := threads } w run
        rw [heq]
        cases w <;> rfl
      · rintro rfl
        rw [Function.update_self] at hv
        cases hv
    refine ⟨_, hinv', horigins, ?_⟩
    rw [nextCallback, if_pos hbegins, hrun]
    refine (h.beginJob hrun hphase threads).imp (fun hnone => hnone) ?_
    rintro ⟨r, a, rfl, ha, hcall, hlog⟩
    rw [RunInfo.prepare_loadCommand, hmessage] at hlog
    exact ⟨a, ha, hcall, hlog⟩
  · refine ⟨_, hinv', h.congr rfl fun v hv => ⟨?_, rfl⟩, Or.inl ⟨?_, rfl⟩⟩
    · rcases hp with rfl | ⟨_, hfree⟩
      · rwa [Function.update_eq_self] at hv
      · exact loaded_of_update (loaded_of_free hfree) hv
    · rw [nextCallback, if_neg (by rw [hbegins]; exact Bool.false_ne_true)]

theorem Origins.step {e : PoolEvent κ} (h : s.Origins conf f) (hinv : s.Inv cfg f)
    (he : ∀ a, e = .command a → Arrives conf a) (hs : Sys.step cfg s e = some s') :
    ∃ f', s'.Inv cfg f' ∧ s'.Origins conf f' := by
  by_cases hreceive : ∃ w, e = .receive w
  · obtain ⟨w, rfl⟩ := hreceive
    obtain ⟨f', hinv', h', _⟩ := h.receive hinv (step_receive hs)
    exact ⟨f', hinv', h'⟩
  · obtain ⟨f', hinv', h', _⟩ := h.step_other hinv he (not_exists.1 hreceive) hs
    exact ⟨f', hinv', h'⟩

/-- The callbacks keep their messages in a step that no tag is left for. -/
theorem Origins.messagesOwn {e : PoolEvent κ} (h : s.Origins conf f) (hinv : s.Inv cfg f)
    (he : ∀ a, e = .command a → Arrives conf a) (hleft : s.NoTagLeft e) (hown : s.MessagesOwn)
    (hs : Sys.step cfg s e = some s') : s'.MessagesOwn := by
  by_cases hreceive : ∃ w, e = .receive w
  · obtain ⟨w, rfl⟩ := hreceive
    obtain ⟨_, _, _, ⟨_, hsame⟩ | ⟨a, ha, hcall, hlog⟩⟩ := h.receive hinv (step_receive hs)
    · exact hsame.own hown
    · intro v b m hm
      rw [hlog, List.mem_append, List.mem_singleton] at hm
      rcases hm with hm | hm
      · exact hown v b m hm
      · cases hm
        have hmessage : (if a.callback.isRequest = true then a.message
            else { a.message with replyTag := (s.threads w).message.replyTag }) = a.message := by
          split
          · rfl
          · rename_i hreq
            rw [hleft w _ rfl hcall (Bool.eq_false_of_not_eq_true hreq)]
            simp [Arrival.message, hreq]
        rw [hmessage]
        exact ha.isFor
  · obtain ⟨_, _, _, hsame⟩ := h.step_other hinv he (not_exists.1 hreceive) hs
    exact hsame.own hown

omit [DecidableEq κ] in
theorem origins_init (cfg : PoolConfig κ) : (init cfg).Origins conf (startPhase cfg) := by
  refine ⟨nofun, fun w hw => ?_⟩
  cases w with
  | untagged i => cases hw
  | tagged t =>
    rw [startPhase] at hw
    split at hw <;> cases hw

section Run

variable {es : List (PoolEvent κ)}

theorem arrives_of_mem_steps (hes : ∀ a, .command a ∈ es → Arrives conf a) {p : Sys κ × PoolEvent κ}
    (hp : p ∈ Transition.steps (Sys.step cfg) (init cfg) es) (a : Arrival κ)
    (ha : p.2 = .command a) : Arrives conf a := by
  obtain ⟨pre, post, _, rfl, _, _⟩ := Transition.exists_of_mem_steps hp
  refine hes a (List.mem_append_right _ ?_)
  rw [ha]
  exact List.mem_cons_self

theorem origins_of_run (hes : ∀ a, .command a ∈ es → Arrives conf a)
    (hrun : Transition.run (Sys.step cfg) (init cfg) es = some s) :
    ∃ f, s.Inv cfg f ∧ s.Origins conf f := by
  have hmem := Transition.mem_states_of_run [] hrun
  rw [List.append_nil] at hmem
  exact Transition.states_of_steps (P := fun s => ∃ f, s.Inv cfg f ∧ s.Origins conf f)
    (C := fun _ e => ∀ a, e = .command a → Arrives conf a)
    (fun _ _ _ ⟨_, hinv, h⟩ he hs => h.step hinv he hs) ⟨_, init_inv cfg, origins_init cfg⟩
    (fun _ hp => arrives_of_mem_steps hes hp) s hmem

end Run

/-- **Every command callback is called with its own message if and only if no command that is not a
request meets a worker with a reply tag left over.** -/
theorem messages_own_iff (cfg : PoolConfig κ) (conf : Config κ) (es : List (PoolEvent κ))
    (hes : ∀ a, .command a ∈ es → Arrives conf a) :
    (∀ t ∈ Transition.states (Sys.step cfg) (init cfg) es, t.MessagesOwn) ↔
    ∀ p ∈ Transition.steps (Sys.step cfg) (init cfg) es, p.1.NoTagLeft p.2 := by
  constructor
  · intro hall p hp w callback hw hcall hreq
    obtain ⟨pre, post, t, rfl, hpre, ht⟩ := Transition.exists_of_mem_steps hp
    obtain ⟨f, hinv, h⟩ := origins_of_run (fun a ha => hes a (List.mem_append_left _ ha)) hpre
    have hmem := Transition.mem_states_of_run post (Transition.run_snoc hpre ht)
    rw [List.append_assoc, List.singleton_append] at hmem
    rw [hw] at ht
    obtain ⟨_, _, _, ⟨hnone, _⟩ | ⟨a, _, ha, hlog⟩⟩ := h.receive hinv (step_receive ht)
    · rw [hnone] at hcall
      cases hcall
    · obtain rfl := Option.some.inj (ha.symm.trans hcall)
      rw [if_neg (by rw [hreq]; exact Bool.false_ne_true)] at hlog
      have hown := hall t hmem w a _ (hlog ▸ List.mem_append_right _ List.mem_cons_self)
      -- The message of a command that is not a request has no tag.
      have htag := congrArg Message.replyTag hown.1
      simpa [Arrival.message, hreq] using htag
  · intro hleft t ht
    have hinv := Transition.states_of_steps
      (P := fun s => (∃ f, s.Inv cfg f ∧ s.Origins conf f) ∧ s.MessagesOwn)
      (C := fun s e => (∀ a, e = .command a → Arrives conf a) ∧ s.NoTagLeft e)
      (fun s e s' ⟨⟨f, hinv, h⟩, hown⟩ ⟨he, hleft⟩ hs =>
        ⟨h.step hinv he hs, h.messagesOwn hinv he hleft hown hs⟩)
      ⟨⟨_, init_inv cfg, origins_init cfg⟩, fun _ _ _ hm => absurd hm List.not_mem_nil⟩
      (fun p hp => ⟨arrives_of_mem_steps hes hp, hleft p hp⟩) t ht
    exact hinv.2

/-! ### A tag that is left over -/

/-- One category, with a request and a command that is not one. -/
def talkConfig : Config Unit where
  pubkey := ""
  localServiceNode := false
  categories name := if name = "cat" then some () else none
  access _ := {}
  commands _ name :=
    if name = "ask" then some ⟨0, true⟩ else if name = "tell" then some ⟨1, false⟩ else none
  commandAliases _ := none
  fromHex := id

/-- A request from one client. -/
def askArrival : Arrival Unit :=
  ⟨(), "cat.ask", ["tag"], ⟨0, true⟩, ⟨1, "", "A"⟩, {}, "(unknown)"⟩

/-- A command from another one. -/
def tellArrival : Arrival Unit :=
  ⟨(), "cat.tell", ["news"], ⟨1, false⟩, ⟨1, "", "B"⟩, {}, "(unknown)"⟩

theorem arrives_ask : Arrives talkConfig askArrival :=
  ⟨{}, {}, true, 1, true, { parts := ["A", "cat.ask", "tag"] }, _, rfl⟩

theorem arrives_tell : Arrives talkConfig tellArrival :=
  ⟨{}, {}, true, 1, true, { parts := ["B", "cat.tell", "news"] }, _, rfl⟩

/-- The command comes first, and the worker has not had a request. -/
def tellRun : List (PoolEvent Unit) := [.command tellArrival, .receive (.untagged 0)]

theorem messages_own_tellRun :
    ∃ s, Transition.run (Sys.step smallConfig) (init smallConfig) tellRun = some s ∧
      s.log.any LogEntry.isInvocation = true ∧ s.MessagesOwn := by
  have hes : ∀ a, .command a ∈ tellRun → Arrives talkConfig a := by
    intro a ha
    simp only [tellRun, List.mem_cons, PoolEvent.command.injEq, reduceCtorEq, List.not_mem_nil,
      or_false] at ha
    exact ha ▸ arrives_tell
  have hrun : Transition.run (Sys.step smallConfig) (init smallConfig) tellRun = some _ := rfl
  refine ⟨_, hrun, rfl, (messages_own_iff smallConfig talkConfig tellRun hes).2 ?_ _
    (Transition.mem_states_of_run [] hrun)⟩
  rintro p hp w callback hw - -
  rcases List.mem_cons.1 hp with rfl | hp
  · cases hw
  · obtain rfl := List.mem_singleton.1 hp
    cases hw
    rfl

/-- The worker has run the request before, and its callback has left the message as it was. -/
def staleRun : List (PoolEvent Unit) :=
  [.command askArrival, .receive (.untagged 0), .finish (.untagged 0) askArrival.message .unset,
    .workerMessage (.untagged 0), .command tellArrival, .receive (.untagged 0)]

/-- The callback of the command gets the reply tag of the other client's request. -/
theorem staleRun_tag :
    (∀ a, .command a ∈ staleRun → Arrives talkConfig a) ∧
    ∃ s m, Transition.run (Sys.step smallConfig) (init smallConfig) staleRun = some s ∧
      .invoked (.untagged 0) tellArrival m ∈ s.log ∧ tellArrival.callback.isRequest = false ∧
      m.replyTag = "tag" ∧ ¬ s.MessagesOwn := by
  refine ⟨fun a ha => ?_, _, _, rfl, List.mem_cons_of_mem _ (List.mem_cons_of_mem _
    (List.mem_cons_of_mem _ List.mem_cons_self)), rfl, rfl, fun hown => ?_⟩
  · simp only [staleRun, List.mem_cons, PoolEvent.command.injEq, reduceCtorEq, List.not_mem_nil,
      or_false, false_or] at ha
    rcases ha with rfl | rfl
    · exact arrives_ask
    · exact arrives_tell
  · have hmessage := (hown (.untagged 0) tellArrival _ (List.mem_cons_of_mem _
      (List.mem_cons_of_mem _ (List.mem_cons_of_mem _ List.mem_cons_self)))).1
    exact absurd (congrArg Message.replyTag hmessage) (by decide)

end Sys

end OxenMQ
