import OxenMQ.Connections.Levels
import OxenMQ.Proxy.Order
import OxenMQ.Workers.Calls

/-!
# From a message to the call of a command

A message that invokes a command goes a long way: it is checked, handed to a worker at once or put
in the queue, found there by a later pass over the queue, loaded into a `RunInfo`, and called by a
worker thread.  Two things have to hold however the steps of the parties are interleaved:

* what has been taken in and not been dropped is called exactly once in the end, and until then it
  is in exactly one place (`commands_called_once`);
* nothing is called that has not come in a message whose sender was entitled to it, by what was
  known when the message was received (`calls_authorised`).
-/

set_option autoImplicit false

namespace OxenMQ

variable {κ : Type} [DecidableEq κ]

namespace Sys

variable {s s' : Sys κ}

/-- The command or the task is in the queue, or has been handed to a worker. -/
def Knows (s : Sys κ) (c : PendingCommand κ) : Prop :=
  c ∈ s.pool.pendingCommands ∨ ∃ w, .dispatched w (.pending c) ∈ s.log

omit [DecidableEq κ] in
theorem mem_commands {c : PendingCommand κ} :
    c ∈ s.log.filterMap LogEntry.command ↔ ∃ w, .dispatched w (.pending c) ∈ s.log := by
  rw [List.mem_filterMap]
  constructor
  · rintro ⟨e, he, hc⟩
    rcases e with _ | ⟨w, d | _⟩ | _ | _ | _ | _ | _ <;> cases hc
    exact ⟨w, he⟩
  · rintro ⟨w, hw⟩
    exact ⟨_, hw, rfl⟩

theorem mem_line {c : PendingCommand κ} : c ∈ s.line c.cat ↔ s.Knows c := by
  rw [line, List.mem_append, started, waiting, ofCat, ofCat, List.mem_filter, List.mem_filter,
    mem_commands, or_comm]
  simp only [decide_true, and_true]
  rfl

theorem SameLine.knows (h : SameLine s s') {c : PendingCommand κ} : s'.Knows c ↔ s.Knows c := by
  rw [← mem_line, ← mem_line, h.line]

omit [DecidableEq κ] in
/-- What is handed out comes from the given set. -/
theorem Dispatches.knows {Q : Set (PendingCommand κ)} {f f' : Worker → Phase}
    (h : Dispatches Q s f s' f') (hQ : ∀ c ∈ s.pool.pendingCommands, c ∈ Q) {c : PendingCommand κ}
    (hc : s'.Knows c) : (∃ w, .dispatched w (.pending c) ∈ s.log) ∨ c ∈ Q := by
  rcases hc with hc | ⟨w, hw⟩
  · exact Or.inr (h.pending hQ c hc)
  · induction h with
    | refl => exact Or.inl ⟨w, hw⟩
    | queue _ queued hpending ih => exact ih hw
    | load _ hfree hp hloaded _ hload ih =>
      rw [hloaded.log, List.mem_append, List.mem_singleton] at hw
      rcases hw with hw | hw
      · exact ih hw
      · cases hw
        exact Or.inr (hload c rfl)

omit [DecidableEq κ] in
theorem knows_proxyControlQuit {c : PendingCommand κ} :
    s.proxyControlQuit.Knows c ↔ s.Knows c := by
  have hpending : s.proxyControlQuit.pool.pendingCommands = s.pool.pendingCommands := by
    unfold Sys.proxyControlQuit
    dsimp only
    rw [pool_foldl_quit, pool_foldl_quit]
  rw [Knows, Knows, hpending, (sameBatches_proxyControlQuit s).log]

theorem sameLine_of_own {cfg : PoolConfig κ} {e : PoolEvent κ} (he : e.isOwn = true)
    (h : Sys.step cfg s e = some s') : SameLine s s' := by
  cases e with
  | processQueue => exact step_processQueue h ▸ s.sameLine_proxyProcessQueue
  | workerMessage w => exact sameLine_of_workerMessage h
  | receive w => exact sameLine_of_thread (Or.inl ⟨w, rfl⟩) h
  | finish w left r => exact sameLine_of_thread (Or.inr ⟨w, left, r, rfl⟩) h
  | _ => cases he

theorem sameLine_of_ownRun {cfg : PoolConfig κ} {es : List (PoolEvent κ)}
    (hes : ∀ e ∈ es, e.isOwn = true) (h : Transition.run (Sys.step cfg) s es = some s') :
    SameLine s s' :=
  Transition.run_rel (R := SameLine) .refl (fun _ _ _ => .trans)
    (fun e he _ _ => sameLine_of_own (hes e he)) h

variable [Fintype κ] {cfg : PoolConfig κ} {f : Worker → Phase}

/-- A command in line has been called, or a worker holds it, or it is in the queue. -/
theorem Handed.count_line (h : s.Handed f) (hinv : s.Inv cfg f) (a : Arrival κ) :
    (s.line a.cat).count (.command a) =
      s.calls.count a + (s.holders a).card + s.pool.pendingCommands.count (.command a) := by
  have hcat : ∀ l : List (PendingCommand κ),
    (ofCat a.cat l).count (.command a) = l.count (.command a) :=
    fun l => List.count_filter (decide_eq_true rfl)
  rw [line, List.count_append, started, waiting, hcat, hcat, h.calls_add_held hinv]

/-- Nobody holds a command when there is nothing left to do. -/
theorem Drained.holders (h : s.Drained) (hinv : s.Inv cfg f) (a : Arrival κ) :
    s.holders a = ∅ := by
  refine Finset.filter_eq_empty_iff.2 fun w _ hheld => ?_
  have hfree : (f w).busy = false := by
    have := hinv.outstanding_ne_zero_iff w
    rw [h.outstanding w] at this
    simpa using this
  rw [← hinv.heldIn_eq, heldIn_of_free (loaded_of_free hfree)] at hheld
  cases hheld

end Sys

namespace Proxy

variable {cfg : ProxyConfig κ} {p p' : Proxy κ} {timers : Timers}

variable [Fintype κ]

/-- What comes in is the only thing that is new to the pool. -/
theorem Move.knows {r : Option (PendingCommand κ)} (h : Move cfg r p p')
    (hinv : ∃ f, p.sys.Inv cfg.pool f) {c : PendingCommand κ} (hc : p'.sys.Knows c) :
    p.sys.Knows c ∨ r = some c := by
  obtain ⟨f, hinv⟩ := hinv
  have hsame : p'.sys = p.sys → p.sys.Knows c := fun hsys => hsys ▸ hc
  have hdisp : ∀ {d : PendingCommand κ}, (∃ f', p'.sys.Inv cfg.pool f' ∧
      Sys.Dispatches (p.sys.commandsWith d) p.sys f p'.sys f') →
        p.sys.Knows c ∨ some d = some c := by
    rintro d ⟨f', _, hd⟩
    rcases hd.knows (fun _ => Or.inl) hc with hw | hw | rfl
    · exact Or.inl (Or.inr hw)
    · exact Or.inl (Or.inl hw)
    · exact Or.inr rfl
  cases h with
  | quiet _ hsys _ => exact Or.inl (hsame hsys)
  | thread e he _ hsys _ => exact Or.inl ((Sys.sameLine_of_thread he hsys).knows.1 hc)
  | begin _ _ hsys => exact Or.inl (hsame hsys)
  | next _ hsys => exact Or.inl (hsame hsys)
  | jobs es hes _ _ hsys => exact Or.inl ((Sys.sameLine_of_jobs hes hsys).knows.1 hc)
  | inject task _ _ hsys => exact hdisp (Sys.step_inject hsys ▸ hinv.proxyInjectTask task)
  | quit _ hsys =>
    rw [(Sys.step_quit_cases hsys).2, Sys.knows_proxyControlQuit] at hc
    exact Or.inl hc
  | worker w _ hsys => exact Or.inl ((Sys.sameLine_of_workerMessage hsys).knows.1 hc)
  | processQueue _ hsys =>
    exact Or.inl ((Sys.step_processQueue hsys ▸ p.sys.sameLine_proxyProcessQueue).knows.1 hc)
  | builtin es hes _ _ hsys _ =>
    exact Or.inl ((Sys.sameLine_of_jobs (fun e he => Or.inr (hes e he)) hsys).knows.1 hc)
  | command a _ _ _ hsys _ => exact hdisp (Sys.step_command hsys ▸ hinv.proxyToWorker a)
  | done _ _ hsys _ => exact Or.inl (hsame hsys)
  | stop hsys =>
    rw [(Sys.step_stop_cases hsys).2.2] at hc
    exact Or.inl hc

/-- Whatever the pool knows has come in. -/
theorem received_of_knows {es : List Event}
    (hrun : Transition.run (step cfg) (start cfg timers) es = some p) {c : PendingCommand κ}
    (hc : p.sys.Knows c) :
    Transition.Happened (step cfg) (start cfg timers) es fun q e _ =>
    received cfg q e = some c := by
  refine Transition.run_induction_history (P := fun es p => p.sys.Knows c →
    Transition.Happened (step cfg) (start cfg timers) es fun q e _ => received cfg q e = some c)
    ?_ ?_ hrun hc
  · rintro (hc | ⟨w, hw⟩)
    · cases hc
    · cases hw
  · intro es p e p' hrun ih hs hc
    refine (Transition.happened_snoc hrun hs).2 ?_
    exact ((step_move hs).knows (run_inv hrun) hc).imp_left ih

omit [DecidableEq κ] [Fintype κ] in
/-- Commands come in messages. -/
theorem message_of_received {e : Event} {a : Arrival κ} (h : received cfg p e = some (.command a)) :
    ∃ env immediate connId inc c, e = .message env immediate connId inc ∧
      p.conn.receive cfg.commands env immediate connId
        (p.isRouter connId) inc = .ok (c, some a) := by
  cases e with
  | message env immediate connId inc =>
    rw [received] at h
    split at h
    · rename_i c b hreceive
      cases h
      exact ⟨env, immediate, connId, inc, c, rfl, hreceive⟩
    · cases h
  | control env call =>
    rw [received] at h
    split at h <;> cases h
  | _ => cases h

theorem run_handed {es : List Event}
    (hrun : Transition.run (step cfg) (start cfg timers) es = some p) :
    ∃ pes f, Transition.run (Sys.step cfg.pool) (Sys.init cfg.pool) pes = some p.sys ∧
      p.sys.Inv cfg.pool f ∧ p.sys.Handed f := by
  obtain ⟨pes, hpes⟩ := run_pool hrun
  obtain ⟨f, hinv, h⟩ := Sys.handed_of_run hpes
  exact ⟨pes, f, hpes, hinv, h⟩

/-- **No command is lost, and none is called twice.**  A command that has come in and has not been
dropped has been called, or is with one worker that has not begun with it, or is in the queue; each
as many times as it has come in.  A worker calls what it is given in the order in which it is given
it.  Left alone, the pool comes to rest, and then everything has been called. -/
theorem commands_called_once {es : List Event}
    (hrun : Transition.run (step cfg) (start cfg timers) es = some p)
    (hopen : p.sys.pool.maxWorkers ≠ 0) :
    (∀ a, (accepted cfg timers es).count (.command a) =
      p.sys.calls.count a + (p.sys.holders a).card +
        p.sys.pool.pendingCommands.count (.command a)) ∧
    (∀ w, p.sys.given w = p.sys.called w ++ (p.sys.held w).toList) ∧
    (∀ fs t, (∀ e ∈ fs, e.isOwn = true) → Transition.run (Sys.step cfg.pool) p.sys fs = some t →
      Transition.AtRest (Sys.step cfg.pool) (PoolEvent.isOwn · = true) t →
      ∀ a, t.calls.count a = (accepted cfg timers es).count (.command a)) ∧
    ∃ fs t, (∀ e ∈ fs, e.isOwn = true) ∧ Transition.run (Sys.step cfg.pool) p.sys fs = some t ∧
      Transition.AtRest (Sys.step cfg.pool) (PoolEvent.isOwn · = true) t := by
  obtain ⟨pes, f, hpes, hinv, hhanded⟩ := run_handed hrun
  have hquit : .quit ∉ pes := fun hmem => hopen ((Sys.maxWorkers_eq_zero_iff hpes).2 hmem)
  have hcount : ∀ a, (p.sys.line a.cat).count (.command a) =
      (accepted cfg timers es).count (.command a) := fun a => by
    rw [(run_ordered hrun hopen).line a.cat]
    exact List.count_filter (decide_eq_true rfl)
  refine ⟨fun a => ?_, fun w => ?_, fun fs t hown hfs hrest a => ?_, ?_⟩
  · rw [← hcount, hhanded.count_line hinv]
  · rw [← hinv.heldIn_eq]
    exact hhanded.order w
  · obtain ⟨hsound, hstopped, hmax⟩ := Sys.sound_of_own hpes hown hfs
      fun hmem => hquit (Sys.quit_of_stop hpes hmem)
    have hdrained := hsound.drained (fun hzero => hquit (hmax.1 hzero)) hstopped hrest
    obtain ⟨g, hinv', hhanded'⟩ :=
      Sys.handed_of_run (Transition.run_append_eq_some.2 ⟨_, hpes, hfs⟩)
    have hline := hhanded'.count_line hinv' a
    rw [(Sys.sameLine_of_ownRun hown hfs).line, hcount, hdrained.holders hinv',
      hdrained.pending] at hline
    simpa using hline.symm
  · exact (Sys.settles cfg.pool).exists_rest (Sys.sound_of_run hpes).1

/-- A program with a request and a command that is not one. -/
def talkProxy : ProxyConfig Unit := { smallProxy with commands := Sys.talkConfig }

/-- A request and a command from two clients in our own process.  There is a worker for the request,
and it has just called it; the command is in the queue. -/
def talkRun : List Event :=
  [.begin, .next, .next, .next, .next, .processQueue,
    .message {} true 1 { parts := ["A", "cat.ask", "tag"] },
    .message {} false 1 { parts := ["B", "cat.tell", "news"] }, .receive (.untagged 0)]

theorem commands_called_once_talkRun :
    ∃ p, Transition.run (step talkProxy) (start talkProxy) talkRun = some p ∧
      p.sys.calls.length = 1 ∧ p.sys.pool.pendingCommands.length = 1 ∧
      ∃ fs t, (∀ e ∈ fs, e.isOwn = true) ∧
        Transition.run (Sys.step talkProxy.pool) p.sys fs = some t ∧
        ∀ a, t.calls.count a = (accepted talkProxy {} talkRun).count (.command a) := by
  have hrun : Transition.run (step talkProxy) (start talkProxy) talkRun = some _ := rfl
  obtain ⟨_, _, hall, fs, t, hown, hfs, hrest⟩ := commands_called_once hrun (by decide)
  exact ⟨_, hrun, rfl, rfl, fs, t, hown, hfs, hall fs t hown hfs hrest⟩

/-! ## Nothing is called that its sender may not call -/

omit [DecidableEq κ] [Fintype κ] in
/-- An event of the tables that opens a connection comes from a call that asks for it. -/
theorem asks_of_connEvents {e : Event} {env : Env} {r : Conn.ConnectRemote}
    (h : .connectRemote env r ∈ p.connEvents cfg e) :
    ∃ env call, e = .control env call ∧ call.asks = some (r.connId, r.authLevel) := by
  cases e with
  | control env' call =>
    refine ⟨env', call, rfl, ?_⟩
    rw [connEvents] at h
    split at h
    · rename_i message hemit
      cases message with
      | connectRemote data =>
        obtain ⟨r', hr', heq⟩ := Option.map_eq_some_iff.1 (Option.mem_toList.1 h)
        cases heq
        exact Control.asks_of_decode hemit (Except.toOption_eq_some.1 hr')
      | send data =>
        obtain ⟨_, _, heq⟩ := Option.map_eq_some_iff.1 (Option.mem_toList.1 h)
        cases heq
      | connectSn data =>
        obtain ⟨_, _, heq⟩ := Option.map_eq_some_iff.1 (Option.mem_toList.1 h)
        cases heq
      | disconnect data =>
        obtain ⟨_, _, heq⟩ := Option.map_eq_some_iff.1 (Option.mem_toList.1 h)
        cases heq
      | _ => simp [controlEvents] at h
    · cases h
  | _ => simp [connEvents] at h

theorem asks_of_levelAsked {es : List Event} {id : ℤ} {level : AuthLevel}
    (h : Conn.LevelAsked cfg.commands (connHistory cfg timers es) id level) :
    ∃ env call, .control env call ∈ es ∧ call.asks = some (id, level) := by
  obtain ⟨pre, ev, post, _, _, heq, _, _, env, r, rfl, rfl, rfl⟩ := h
  have hmem : .connectRemote env r ∈ connHistory cfg timers es := by rw [heq]; simp
  obtain ⟨⟨q, e⟩, hstep, hev⟩ := List.mem_flatMap.1 hmem
  obtain ⟨env', call, rfl, hasks⟩ := asks_of_connEvents hev
  obtain ⟨pre', post', _, rfl, _, _⟩ := Transition.exists_of_mem_steps hstep
  exact ⟨env', call, by simp, hasks⟩

/-- **Nothing is called that its sender may not call.**  A command that a worker calls has come in a
message, and when it was received its sender was entitled to it: by the level it had on its
connection, and by the list of service nodes.  On a connection that a call has opened, other than
one to a service node, this is the level that the call has asked for.  The command is all that
`proxy_to_worker` has made of the message, its connection and its access included, and the callback
sees it. -/
theorem calls_authorised {es : List Event}
    (hrun : Transition.run (step cfg) (start cfg timers) es = some p) {w : Worker} {a : Arrival κ}
    {m : Message} (hcall : .invoked w a m ∈ p.sys.log) :
    ∃ pre env immediate connId inc post q c,
      es = pre ++ .message env immediate connId inc :: post ∧
      Transition.run (step cfg) (start cfg timers) pre = some q ∧
      Transition.run (Conn.step cfg.commands) Conn.start (connHistory cfg timers pre) =
        some q.conn ∧
      q.conn.receive cfg.commands env immediate connId (q.isRouter connId) inc = .ok (c, some a) ∧
      Conn.Authorised cfg.commands (connHistory cfg timers pre) q.conn connId (q.isRouter connId)
        inc a ∧
      (q.isRouter connId = false → q.conn.outgoingSnConns.lookup connId = none →
        ∃ env call, .control env call ∈ pre ∧ call.asks = some (connId, a.access.auth)) ∧
      m = { a.message with replyTag := m.replyTag } := by
  obtain ⟨_, f, _, hinv, hhanded⟩ := run_handed hrun
  have hgiven : a ∈ p.sys.given w := by
    rw [hhanded.order]
    exact List.mem_append_left _ (Tally.mem_valuesOf.2 (List.mem_filterMap.2 ⟨_, hcall, rfl⟩))
  have hknows : p.sys.Knows (.command a) := by
    obtain ⟨e, he, hea⟩ := List.mem_filterMap.1 (Tally.mem_valuesOf.1 hgiven)
    rcases e with _ | ⟨v, (b | _) | _⟩ | _ | _ | _ | _ | _ <;> cases hea
    exact Or.inr ⟨w, he⟩
  obtain ⟨pre, e, post, q, q', heq, hpre, hs, hreceived⟩ := received_of_knows hrun hknows
  obtain ⟨env, immediate, connId, inc, c, rfl, hreceive⟩ := message_of_received hreceived
  have hconn := run_connHistory hpre
  have hauth := Conn.authorised_of_receive hconn hreceive
  refine ⟨pre, env, immediate, connId, inc, post, q, c, heq, hpre, hconn, hreceive, hauth, ?_,
    hhanded.message w a m hcall⟩
  intro hrouter hlookup
  have hlevel := hauth.level
  rw [Conn.SenderLevel, hrouter, if_neg Bool.false_ne_true, hlookup] at hlevel
  exact asks_of_levelAsked hlevel

/-- The request in `talkRun`. -/
def talkArrival : Arrival Unit :=
  ⟨(), "cat.ask", ["tag"], ⟨0, true⟩, ⟨1, "", "A"⟩, { auth := .admin }, "(unknown)"⟩

theorem calls_authorised_talkRun :
    ∃ p, Transition.run (step talkProxy) (start talkProxy) talkRun = some p ∧
      .invoked (.untagged 0) talkArrival talkArrival.message ∈ p.sys.log ∧
      ∃ pre q connId inc, Transition.run (step talkProxy) (start talkProxy) pre = some q ∧
        Conn.Authorised talkProxy.commands (connHistory talkProxy {} pre) q.conn connId
          (q.isRouter connId) inc talkArrival := by
  obtain ⟨p, hrun, hcall⟩ : ∃ p,
      Transition.run (step talkProxy) (start talkProxy) talkRun = some p ∧
      .invoked (.untagged 0) talkArrival talkArrival.message ∈ p.sys.log :=
    ⟨_, rfl, List.mem_cons_of_mem _ List.mem_cons_self⟩
  obtain ⟨pre, _, _, connId, inc, _, q, _, _, hpre, _, _, hauth, _⟩ := calls_authorised hrun hcall
  exact ⟨p, hrun, hcall, pre, q, connId, inc, hpre, hauth⟩

end Proxy

end OxenMQ
