import OxenMQ.Polling.Proxy

/-!
# The sockets of the loop are those of the proxy thread

* `Proxy.step_seen` says what an event of the proxy thread is to the sockets: which may be opened or
  closed, what becomes of the flags, which messages of workers have come or gone, and where the loop
  is afterwards;
* `Poller.Shows.handle` says that the loop sees of a handler what the handler does to the tables;
* `Agrees` is the invariant, and `parts_of_run` says that it holds in every run;
* `Agrees.pass_turn` says that the incoming message loop is the one of `OxenMQ.Loop`, so that what
  is proved there of the queue, and in `OxenMQ.Draining` of the turns, is about this loop too.

The main result is `nothing_left`.
-/

set_option autoImplicit false

namespace OxenMQ

/-! ## What an event of the proxy thread is to the sockets -/

namespace Conn

/-- At most one socket is opened, and the flags tell. -/
def Tracked (c c' : Conn) : Prop := ∃ o, Gains o c c'

theorem Tracked.refl (c : Conn) : Tracked c c := ⟨none, .refl c⟩

end Conn

namespace Proxy

open Control

variable {κ : Type} {cfg : ProxyConfig κ} {p p' : Proxy κ}

/-- Where the loop is after an event. -/
def Event.after (phase : LoopPhase) (stale : Bool) : Event → LoopPhase
  | .begin => .control
  | .next =>
    match phase with
    | .control => .workers
    | .workers => .timers
    | .timers => .zap
    | _ => .queue
  | .processQueue => .incoming false
  | .message _ _ _ _ => .incoming stale
  | .done _ => .poll
  | _ => phase

/-- What an event does to the messages of the workers. -/
def Sends (s s' : Sys κ) : Event → Prop
  | .receive w | .finish w _ _ => ∀ v, v ≠ w → s'.replies v = s.replies v
  | .worker w => s'.replies w + 1 ≤ s.replies w ∧ s.Quieter s'
  | _ => s.Quieter s'

/-- What an event does to the connections and the flags. -/
def Leads (epoll : Bool) (c c' : Conn) : Event → Prop
  | .begin => c' = { c with connectionsUpdated := false, proxySkipOnePoll := false }
  | .next | .processQueue | .stop => c' = c
  | .allocate | .receive _ | .finish _ _ _ => c'.connections = c.connections ∧
    c'.connectionsUpdated = c.connectionsUpdated ∧ c'.proxySkipOnePoll = c.proxySkipOnePoll
  | .done pollin => c' =
    if epoll && !c.connectionsUpdated && !c.proxySkipOnePoll && pollin then
      { c with proxySkipOnePoll := true }
    else c
  | _ => c.Tracked c'

/-- What an event is to the sockets. -/
structure Seen (cfg : ProxyConfig κ) (e : Event) (p p' : Proxy κ) : Prop where
  leads : Leads cfg.epoll p.conn p'.conn e
  sends : Sends p.sys p'.sys e
  phase : p'.phase = e.after p.phase p'.conn.connectionsUpdated

theorem quieter_withConn (cfg : ProxyConfig κ) (p : Proxy κ) (c : Conn) :
    p.sys.Quieter (p.withConn cfg c).sys :=
  Sys.quieter_foldl_proxyScheduleReplyJob _ _

variable [DecidableEq κ]

/-- A control message writes no message of a worker. -/
theorem proxyControlMessage_quieter {env : ControlEnv} {message : ControlMessage κ}
    (h : p.proxyControlMessage cfg env message = .ok p') :
    p.sys.Quieter p'.sys ∧ p'.phase = p.phase := by
  cases controls_of_ok h with
  | tables _ c => exact ⟨quieter_withConn cfg p c, rfl⟩
  | timer | timerDel => exact ⟨.refl _, rfl⟩
  | batch spec => exact ⟨p.sys.quieter_submit spec, rfl⟩
  | inject task => exact ⟨Sys.quieter_proxyInjectTask cfg.pool p.sys task, rfl⟩
  | quit => exact ⟨p.sys.quieter_proxyControlQuit, rfl⟩

theorem seen_of_control {env : ControlEnv} {call : Call} {message : ControlMessage κ}
    (hvalid : p.validCall cfg env call = true)
    (hemit : call.emit cfg.commands cfg.ephemeralRoutingId = .ok (some message))
    (h : p.proxyControlMessage cfg env message = .ok p') : Seen cfg (.control env call) p p' := by
  obtain ⟨hquieter, hphase⟩ := proxyControlMessage_quieter h
  refine ⟨?_, hquieter, hphase⟩
  have hrun := proxyControlMessage_conn hvalid hemit h
  rcases controlEvents_cases cfg p env message with hnil | ⟨ev, hev, hflags⟩ | hskip
  · rw [hnil] at hrun
    exact Option.some.inj hrun ▸ .refl _
  · rw [hev] at hrun
    obtain ⟨c, hs, hc⟩ := Transition.run_cons_eq_some.1 hrun
    exact Conn.step_gains (hs.trans hc) hflags
  · rw [hskip] at hrun
    obtain ⟨c, hs, hc⟩ := Transition.run_cons_eq_some.1 hrun
    rw [← Option.some.inj (hs.trans hc)]
    exact ⟨none, .of_eq rfl rfl fun _ => rfl⟩

theorem seen_of_message {env : Env} {immediate : Bool} {connId : ℤ} {m : Incoming}
    (h : p.messageStep cfg env immediate connId m = some p') :
    Seen cfg (.message env immediate connId m) p p' := by
  obtain ⟨c, arr, hcan, hreceive, rfl, hphase, hsys⟩ := messageStep_cases h
  refine ⟨?_, ?_, hphase⟩
  · have hs : Conn.step cfg.commands p.conn (.message env immediate connId (p.isRouter connId) m) =
        some p'.conn := by
      rw [Conn.step, if_pos hcan, hreceive]
      rfl
    exact Conn.step_gains hs rfl
  · rcases hsys with ⟨_, hsys⟩ | ⟨a, _, hsys⟩
    · rw [hsys]
      exact quieter_withConn cfg p p'.conn
    · rw [← Sys.step_command hsys]
      exact (quieter_withConn cfg p p'.conn).trans (Sys.quieter_proxyToWorker cfg.pool _ a)

/-- **What an event of the proxy thread is to the sockets.** -/
theorem step_seen {e : Event} (h : step cfg p e = some p') : Seen cfg e p p' := by
  cases (step_does h).2 with
  | allocate hc =>
    cases hc
    exact ⟨⟨rfl, rfl, rfl⟩, .refl _, rfl⟩
  | receive hs => exact ⟨⟨rfl, rfl, rfl⟩, fun v hv => Sys.replies_of_thread (Or.inl rfl) hs hv, rfl⟩
  | finish hs =>
    exact ⟨⟨rfl, rfl, rfl⟩, fun v hv => Sys.replies_of_thread (Or.inr ⟨_, _, rfl⟩) hs hv, rfl⟩
  | begin _ hc => exact ⟨beginIteration_conn hc, .refl _, rfl⟩
  | stop hs =>
    obtain ⟨_, _, rfl⟩ := Sys.step_stop_cases hs
    exact ⟨rfl, .of_threads rfl, rfl⟩
  | control _ hvalid hemit h => exact seen_of_control hvalid hemit h
  | worker _ h =>
    obtain ⟨p₁, h₁, rfl⟩ := Option.map_eq_some_iff.1 h
    obtain ⟨s, hs, rfl⟩ := poolStep_eq_some.1 h₁
    exact ⟨Conn.Tracked.refl _, Sys.replies_proxyWorkerMessage (Sys.step_workerMessage hs), rfl⟩
  | timer _ h =>
    unfold timerStep at h
    split at h
    · dsimp only at h
      split at h
      · cases h
        exact ⟨Conn.Tracked.refl _, .refl _, rfl⟩
      · obtain ⟨s, hs, rfl⟩ := poolStep_eq_some.1 h
        rw [(Sys.step_submit_cases hs).2]
        exact ⟨Conn.Tracked.refl _, p.sys.quieter_submit _, rfl⟩
    · cases h
  | cleanup _ hc => exact ⟨Conn.step_gains hc rfl, quieter_withConn cfg p _, rfl⟩
  | next hnext =>
    refine ⟨rfl, .refl _, ?_⟩
    cases hphase : p.phase <;> rw [hphase] at hnext <;> cases hnext <;> rfl
  | processQueue hs =>
    refine ⟨rfl, ?_, rfl⟩
    rw [← Sys.step_processQueue hs]
    exact Sys.quieter_proxyProcessQueue cfg.pool p.sys
  | message _ h => exact seen_of_message h
  | done => exact ⟨rfl, .refl _, rfl⟩

end Proxy

/-! ## The sockets of the loop -/

namespace Poller

open EdgeTriggered

variable {σ : Type} [EdgeTriggered σ] {epoll : Bool} {q q' : Poller σ} {c c' : Conn}

/-- The loop has the sockets of the tables, and their flags. -/
structure Shows (q : Poller σ) (c : Conn) : Prop where
  connections : ∀ id, id ∈ q.connections ↔ c.isOpen id = true
  updated : q.connectionsUpdated = c.connectionsUpdated
  skip : q.proxySkipOnePoll = c.proxySkipOnePoll

omit [EdgeTriggered σ] in
theorem Shows.congr (h : q.Shows c) (hconnections : q'.connections = q.connections)
    (hupdated : q'.connectionsUpdated = q.connectionsUpdated)
    (hskip : q'.proxySkipOnePoll = q.proxySkipOnePoll) : q'.Shows c :=
  ⟨fun id => hconnections ▸ h.connections id, hupdated.trans h.updated, hskip.trans h.skip⟩

/-- A socket that is new is the one that has been opened. -/
theorem opened_between (h : c.Tracked c') (synced : List Ready) (id : ℤ) :
    (Effect.between c c' synced).opened = some id ↔ c'.isOpen id = true ∧ c.isOpen id = false := by
  have hnew : ∀ id, (Effect.between c c' synced).opened = some id →
      c'.isOpen id = true ∧ c.isOpen id = false := by
    intro id hid
    exact ⟨Conn.mem_openIds.1 (List.mem_of_find?_eq_some hid), by simpa using List.find?_some hid⟩
  refine ⟨hnew id, fun ⟨hopen, hclosed⟩ => ?_⟩
  obtain ⟨o, hopens⟩ := h
  have honly : ∀ id, c'.isOpen id = true → c.isOpen id = false → o = some id := by
    intro id hopen hclosed
    refine (hopens.old id hopen).resolve_left fun hold => ?_
    rw [hclosed] at hold
    cases hold
  cases hopened : (Effect.between c c' synced).opened with
  | none =>
    have := List.find?_eq_none.1 hopened id (Conn.mem_openIds.2 hopen)
    simp [hclosed] at this
  | some id' =>
    obtain ⟨hopen', hclosed'⟩ := hnew id' hopened
    exact (honly id' hopen' hclosed').symm.trans (honly id hopen hclosed)

theorem mem_closed_between {synced : List Ready} {id : ℤ} :
    id ∈ (Effect.between c c' synced).closed ↔ c.isOpen id = true ∧ c'.isOpen id = false := by
  simp [Effect.between, Conn.mem_openIds]

/-- What a handler has opened or closed is marked. -/
theorem updated_between (h : c.Tracked c') (synced : List Ready) :
    (c.connectionsUpdated || c'.connectionsUpdated ||
      (Effect.between c c' synced).opened.isSome || !(Effect.between c c' synced).closed.isEmpty) =
    c'.connectionsUpdated := by
  cases hupdated : c'.connectionsUpdated with
  | true => simp
  | false =>
    have hbefore : c.connectionsUpdated = false := by
      by_contra hne
      rw [h.elim fun _ hg => hg.mono (by simpa using hne)] at hupdated
      cases hupdated
    have hopened : (Effect.between c c' synced).opened = none := by
      by_contra hne
      obtain ⟨id, hid⟩ := Option.ne_none_iff_exists'.1 hne
      obtain ⟨hopen, hclosed⟩ := (opened_between h synced id).1 hid
      obtain ⟨o, hopens⟩ := h
      rcases hopens.old id hopen with hold | ho
      · rw [hclosed] at hold
        cases hold
      · rw [hopens.opened (by simp [ho])] at hupdated
        cases hupdated
    have hclosed : (Effect.between c c' synced).closed = [] := by
      refine List.eq_nil_iff_forall_not_mem.2 fun id hid => ?_
      obtain ⟨hopen, hgone⟩ := mem_closed_between.1 hid
      rw [h.elim fun _ hg => hg.gone id hopen hgone] at hupdated
      cases hupdated
    simp [hbefore, hopened, hclosed]

theorem mem_connections_between (h : c.Tracked c') (synced : List Ready) {connections : List ℤ}
    (hconnections : ∀ id, id ∈ connections ↔ c.isOpen id = true) (id : ℤ) :
    id ∈ (Effect.between c c' synced).connections connections ↔ c'.isOpen id = true := by
  have hleft : id ∈ connections.filter (· ∉ (Effect.between c c' synced).closed) ↔
      c.isOpen id = true ∧ c'.isOpen id = true := by
    simp only [List.mem_filter, hconnections, mem_closed_between, decide_eq_true_eq, not_and,
      Bool.not_eq_false]
    exact and_congr_right fun hopen => ⟨fun h => h hopen, fun h _ => h⟩
  unfold Effect.connections
  cases hopened : (Effect.between c c' synced).opened with
  | none =>
    rw [Option.elim_none, hleft, and_iff_right_iff_imp]
    intro hopen
    by_contra hne
    have := (opened_between h synced id).2 ⟨hopen, by simpa using hne⟩
    rw [hopened] at this
    cases this
  | some id' =>
    rw [Option.elim_some, List.mem_orderedInsert, hleft]
    have hid' := (opened_between h synced id').1 hopened
    constructor
    · rintro (rfl | ⟨_, hopen⟩)
      · exact hid'.1
      · exact hopen
    · intro hopen
      cases hbefore : c.isOpen id with
      | true => exact Or.inr ⟨rfl, hopen⟩
      | false =>
        have := (opened_between h synced id).2 ⟨hopen, hbefore⟩
        rw [hopened] at this
        exact Or.inl (Option.some.inj this).symm

/-- **A handler keeps the sockets of the loop and those of the tables together.** -/
theorem Shows.handle (hq : q.Shows c) (h : c.Tracked c') {synced : List Ready}
    (hs : q.handle (.between c c' synced) = some q') : q'.Shows c' := by
  unfold Poller.handle at hs
  split at hs
  · cases hs
  cases hs
  refine ⟨mem_connections_between h synced hq.connections, ?_, ?_⟩
  · dsimp only
    rw [hq.updated]
    exact updated_between h synced
  · dsimp only
    rw [hq.skip]
    obtain ⟨o, hopens⟩ := h
    cases hskip : c.proxySkipOnePoll with
    | false => exact Bool.false_or _
    | true => exact (hopens.skip hskip).symm

omit [EdgeTriggered σ] in
theorem source_incoming (hpc : q.pc = .incoming) :
    q.source = (q.queue.front?.join.filter (· ∈ q.connections)).map .connection := by
  simp only [source, hpc]

/-- The messages of the workers stay where they are. -/
theorem total_worker_handle {e : Effect} (h : q.handle e = some q') :
    total (q'.inboxes .worker) = total (q.inboxes .worker) := by
  unfold Poller.handle at h
  split at h
  · cases h
  cases h
  simp only [Effect.replaces, updateAll, Bool.false_eq_true, if_false]
  split <;> simp [total_sync]

end Poller

/-! ## The messages of the workers -/

namespace Sys

variable {κ : Type} {s s' : Sys κ} {n : ℕ} {w : Worker}

/-- The workers have said no more than `n` things that the proxy has not heard yet. -/
def Awaited (s : Sys κ) (n : ℕ) : Prop :=
  ∀ ws : List Worker, ws.Nodup → (ws.map s.replies).sum ≤ n

theorem sum_replies_le (s : Sys κ) (w : Worker) (ws : List Worker) :
    (ws.map s.replies).sum ≤ s.replies w + ((ws.erase w).map s.replies).sum := by
  by_cases hw : w ∈ ws
  · rw [List.sum_map_erase _ hw]
  · rw [List.erase_of_not_mem hw]
    exact Nat.le_add_left _ _

/-- One worker apart, the others together. -/
theorem Awaited.le_of_erase (h : s.Awaited n) {ws : List Worker} (hws : ws.Nodup) (w : Worker) :
    s.replies w + ((ws.erase w).map s.replies).sum ≤ n := by
  have hnodup : (w :: ws.erase w).Nodup := List.nodup_cons.2 ⟨hws.not_mem_erase, hws.erase w⟩
  simpa using h _ hnodup

theorem Awaited.quieter (h : s.Awaited n) (hs : s.Quieter s') : s'.Awaited n :=
  fun ws hws => (List.sum_le_sum fun w _ => hs w).trans (h ws hws)

/-- The proxy has heard something. -/
theorem Awaited.heard (h : s.Awaited n) (hw : s'.replies w + 1 ≤ s.replies w) (hs : s.Quieter s') :
    s'.Awaited (n - 1) := by
  intro ws hws
  have hsum := s'.sum_replies_le w ws
  have hrest : ((ws.erase w).map s'.replies).sum ≤ ((ws.erase w).map s.replies).sum :=
    List.sum_le_sum fun v _ => hs v
  have hle := h.le_of_erase hws w
  omega

/-- A worker may have said something. -/
theorem Awaited.said (h : s.Awaited n) (hs : ∀ v, v ≠ w → s'.replies v = s.replies v) :
    s'.Awaited (n + (s'.replies w - s.replies w)) := by
  intro ws hws
  have hsum := s'.sum_replies_le w ws
  have hrest : (ws.erase w).map s'.replies = (ws.erase w).map s.replies :=
    List.map_congr_left fun v hv => hs v fun heq => hws.not_mem_erase (heq ▸ hv)
  have hle := h.le_of_erase hws w
  rw [hrest] at hsum
  omega

end Sys

namespace Poller

open EdgeTriggered

variable {σ : Type} [EdgeTriggered σ] {epoll : Bool} {q q' : Poller σ}

/-- What another thread puts into the socket of the workers. -/
theorem run_arrive {n : ℕ} (h : Transition.run (Poller.step epoll) q
      (List.replicate n (.arrive .worker)) = some q') :
    q'.connections = q.connections ∧ q'.connectionsUpdated = q.connectionsUpdated ∧
      q'.proxySkipOnePoll = q.proxySkipOnePoll ∧ q'.pc = q.pc ∧
      total (q'.inboxes .worker) = total (q.inboxes .worker) + n := by
  induction n generalizing q with
  | zero =>
    cases h
    exact ⟨rfl, rfl, rfl, rfl, rfl⟩
  | succ n ih =>
    obtain ⟨q₁, hs, h⟩ := Transition.run_cons_eq_some.1 h
    obtain ⟨hconnections, hupdated, hskip, hpc, htotal⟩ := ih h
    rw [Poller.step] at hs
    split at hs
    · cases hs
      refine ⟨hconnections, hupdated, hskip, hpc, ?_⟩
      rw [htotal]
      simp only [update, if_true, total_arrive]
      omega
    · cases hs

end Poller

/-! ## The two together -/

namespace PolledProxy

open EdgeTriggered

variable {σ κ : Type} [EdgeTriggered σ] [DecidableEq κ] {cfg : ProxyConfig κ}
  {s s' : PolledProxy σ κ}

/-- The loop and the proxy agree. -/
structure Agrees (cfg : ProxyConfig κ) (s : PolledProxy σ κ) : Prop where
  shows : s.poller.Shows s.proxy.conn
  awaited : s.proxy.sys.Awaited (total (s.poller.inboxes .worker))
  phase : s.proxy.phase = s.poller.pc.phase
  /-- The sockets are looked at in the end with `epoll` only. -/
  checking : ∀ todo, s.poller.pc = .checking todo →
    cfg.epoll = true ∧ s.poller.connectionsUpdated = false

/-! ### Messages -/

/-- What the handler of a message from this socket does. -/
structure Answered (o : Option Ready) (p p' : Proxy κ) : Prop where
  same : o = none → p' = p
  handles : p.conn.Tracked p'.conn
  awaited : ∀ n, p.sys.Awaited n → p'.sys.Awaited (if o = some .worker then n - 1 else n)
  phase : p'.phase = match o with
    | some (.connection _) => .incoming p'.conn.connectionsUpdated
    | _ => p.phase

/-- **What `handle` can do.**  Nothing is received, or an authentication request, which leaves the
proxy as it is; or the event is one that a message from this socket makes in the proxy thread. -/
theorem handle_cases {e : Option Proxy.Event} {p : Proxy κ} (h : s.handle cfg e = some p) :
    ((s.poller.takes = none ∨ s.poller.takes = some .zap) ∧ e = none ∧ p = s.proxy) ∨
    (∃ env call, s.poller.takes = some .command ∧ e = some (.control env call) ∧
      Proxy.step cfg s.proxy (.control env call) = some p) ∨
    (∃ w, s.poller.takes = some .worker ∧ e = some (.worker w) ∧
      Proxy.step cfg s.proxy (.worker w) = some p) ∨
    ∃ env immediate id m, s.poller.takes = some (.connection id) ∧
      e = some (.message env immediate id m) ∧
      Proxy.step cfg s.proxy (.message env immediate id m) = some p := by
  unfold handle at h
  split at h
  · exact Or.inl ⟨Or.inl ‹_›, rfl, (Option.some.inj h).symm⟩
  · exact Or.inl ⟨Or.inr ‹_›, rfl, (Option.some.inj h).symm⟩
  · exact Or.inr (Or.inl ⟨_, _, ‹_›, rfl, h⟩)
  · exact Or.inr (Or.inr (Or.inl ⟨_, ‹_›, rfl, h⟩))
  · split at h
    · rename_i hid
      subst hid
      exact Or.inr (Or.inr (Or.inr ⟨_, _, _, _, ‹_›, rfl, h⟩))
    · cases h
  · cases h

theorem answered_of_handle {e : Option Proxy.Event} {p : Proxy κ} (h : s.handle cfg e = some p) :
    Answered s.poller.takes s.proxy p := by
  rcases handle_cases h with ⟨htakes | htakes, _, rfl⟩ | ⟨_, _, htakes, _, hs⟩ |
    ⟨_, htakes, _, hs⟩ | ⟨_, _, _, _, htakes, _, hs⟩ <;> rw [htakes]
  · exact ⟨fun _ => rfl, .refl _, fun n hn => hn, rfl⟩
  · exact ⟨fun _ => rfl, .refl _, fun n hn => hn, rfl⟩
  · have hseen := Proxy.step_seen hs
    exact ⟨by simp, hseen.leads, fun n hn => hn.quieter hseen.sends, hseen.phase⟩
  · have hseen := Proxy.step_seen hs
    exact ⟨by simp, hseen.leads, fun n hn => hn.heard hseen.sends.1 hseen.sends.2, hseen.phase⟩
  · have hseen := Proxy.step_seen hs
    exact ⟨by simp, hseen.leads, fun n hn => hn.quieter hseen.sends, hseen.phase⟩

/-! ### From one place to the next -/

omit [EdgeTriggered σ] in
theorem follow_proxy {p : Proxy κ} {q : Poller σ} (h : s.follow cfg p q = some s') :
    s'.poller = q ∧ ∃ es, Transition.run (Proxy.step cfg) p es = some s'.proxy := by
  obtain ⟨p', hrun, rfl⟩ := Option.map_eq_some_iff.1 h
  exact ⟨rfl, _, hrun⟩

omit [EdgeTriggered σ] in
theorem follow_nil {p : Proxy κ} {q : Poller σ}
    (hpassed : s.poller.pc.passed q.proxySkipOnePoll q.pc = []) (h : s.follow cfg p q = some s') :
    s' = ⟨q, p⟩ := by
  rw [follow, hpassed] at h
  exact (Option.some.inj h).symm

omit [EdgeTriggered σ] in
theorem follow_single {p : Proxy κ} {q : Poller σ} {e : Proxy.Event}
    (hpassed : s.poller.pc.passed q.proxySkipOnePoll q.pc = [e]) (h : s.follow cfg p q = some s') :
    ∃ p', Proxy.Seen cfg e p p' ∧ s' = ⟨q, p'⟩ := by
  rw [follow, hpassed] at h
  obtain ⟨p', hrun, rfl⟩ := Option.map_eq_some_iff.1 h
  obtain ⟨p₁, hs, hnil⟩ := Transition.run_cons_eq_some.1 hrun
  cases hnil
  exact ⟨p', Proxy.step_seen hs, rfl⟩

/-- An iteration begins, and the flags are cleared. -/
theorem Agrees.begun {q : Poller σ} (hs : s.follow cfg s.proxy q = some s')
    (hpassed : s.poller.pc.passed q.proxySkipOnePoll q.pc = [.begin])
    (hconnections : ∀ id, id ∈ q.connections ↔ s.proxy.conn.isOpen id = true)
    (hflags : q.connectionsUpdated = false ∧ q.proxySkipOnePoll = false)
    (hawaited : s.proxy.sys.Awaited (total (q.inboxes .worker))) (hphase : q.pc.phase = .control) :
    s'.Agrees cfg := by
  obtain ⟨p', hseen, rfl⟩ := follow_single hpassed hs
  have hconn : p'.conn = _ := hseen.leads
  refine ⟨?_, hawaited.quieter hseen.sends, hseen.phase.trans hphase.symm, fun todo htodo => ?_⟩
  · rw [hconn]
    exact ⟨hconnections, hflags.1, hflags.2⟩
  · change q.pc = _ at htodo
    rw [htodo] at hphase
    cases hphase

theorem Agrees.begin (h : s.Agrees cfg) (hpc : s.poller.pc = .top)
    (hs : s.follow cfg s.proxy (s.poller.begin cfg.epoll) = some s') : s'.Agrees cfg := by
  have hbegun := Poller.begun_begin cfg.epoll s.poller
  have hflags : (s.poller.begin cfg.epoll).connectionsUpdated = false ∧
      (s.poller.begin cfg.epoll).proxySkipOnePoll = false := by
    simpa [Poller.flagged] using hbegun.flagged
  have hphase : s.proxy.phase = .poll := by rw [h.phase, hpc]; rfl
  generalize s.poller.begin cfg.epoll = q at *
  have hconnections : ∀ id, id ∈ q.connections ↔ s.proxy.conn.isOpen id = true := fun id =>
    hbegun.connections ▸ h.shows.connections id
  have hawaited : s.proxy.sys.Awaited (total (q.inboxes .worker)) := by
    rw [hbegun.total]
    exact h.awaited
  cases hflagged : s.poller.flagged with
  | false =>
    have hwaiting : q.pc = .waiting := by simpa [hflagged] using hbegun.pc
    obtain rfl := follow_nil (by rw [hpc, hwaiting]; rfl) hs
    have hold : s.poller.connectionsUpdated = false ∧ s.poller.proxySkipOnePoll = false := by
      simpa [Poller.flagged] using hflagged
    refine ⟨⟨hconnections, ?_, ?_⟩, hawaited, ?_, ?_⟩
    · rw [hflags.1, ← h.shows.updated, hold.1]
    · rw [hflags.2, ← h.shows.skip, hold.2]
    · rw [hphase, hwaiting]
      rfl
    · simp [hwaiting]
  | true =>
    have hpc' : q.pc = .probing [.command, .worker, .zap] ∨ q.pc = .control := by
      rw [hbegun.pc, hflagged]
      cases cfg.epoll <;> simp
    refine .begun hs ?_ hconnections hflags hawaited ?_
    · rcases hpc' with hpc' | hpc' <;> rw [hpc, hpc'] <;> rfl
    · rcases hpc' with hpc' | hpc' <;> rw [hpc'] <;> rfl

/-- The wait is over. -/
theorem Agrees.awake (h : s.Agrees cfg) (hinv : s.poller.Inv cfg.epoll) {q : Poller σ}
    (hlooked : s.poller.Looked q) (hpc : s.poller.pc = .waiting) (hpc' : q.pc = .control)
    (hs : s.follow cfg s.proxy q = some s') : s'.Agrees cfg := by
  obtain ⟨hupdated, hskip⟩ := hinv.unflagged hpc
  refine .begun hs ?_ (fun id => ?_) ⟨?_, ?_⟩ ?_ ?_
  · rw [hpc, hpc']
    rfl
  · rw [hlooked.connections]
    exact h.shows.connections id
  · exact hlooked.connectionsUpdated.trans hupdated
  · exact hlooked.proxySkipOnePoll.trans hskip
  · rw [hlooked.total]
    exact h.awaited
  · rw [hpc']
    rfl

/-- The loop has looked at a socket. -/
theorem Agrees.looked (h : s.Agrees cfg) {q : Poller σ} (hs : s.follow cfg s.proxy q = some s')
    (hlooked : s.poller.Looked q) (hpassed : s.poller.pc.passed q.proxySkipOnePoll q.pc = [])
    (hphase : q.pc.phase = s.poller.pc.phase)
    (hchecking : ∀ todo, q.pc = .checking todo →
      cfg.epoll = true ∧ q.connectionsUpdated = false) : s'.Agrees cfg := by
  obtain rfl := follow_nil hpassed hs
  refine ⟨h.shows.congr hlooked.connections hlooked.connectionsUpdated hlooked.proxySkipOnePoll, ?_,
    h.phase.trans hphase.symm, hchecking⟩
  rw [hlooked.total]
  exact h.awaited

/-- The loop has gone on to its next part. -/
theorem Agrees.passed (h : s.Agrees cfg) {q : Poller σ} {e : Proxy.Event}
    (hs : s.follow cfg s.proxy q = some s') (hlooked : s.poller.Looked q)
    (he : e = .next ∨ e = .processQueue)
    (hpassed : s.poller.pc.passed q.proxySkipOnePoll q.pc = [e])
    (hphase : ∀ b, e.after s.poller.pc.phase b = q.pc.phase)
    (hchecking : ∀ todo, q.pc ≠ .checking todo) : s'.Agrees cfg := by
  obtain ⟨p', hseen, rfl⟩ := follow_single hpassed hs
  have hconn : p'.conn = s.proxy.conn := by
    rcases he with rfl | rfl <;> exact hseen.leads
  have hquieter : s.proxy.sys.Quieter p'.sys := by
    rcases he with rfl | rfl <;> exact hseen.sends
  refine ⟨?_, ?_, ?_, fun todo htodo => absurd htodo (hchecking todo)⟩
  · rw [hconn]
    exact h.shows.congr hlooked.connections hlooked.connectionsUpdated hlooked.proxySkipOnePoll
  · rw [hlooked.total]
    exact h.awaited.quieter hquieter
  · rw [hseen.phase, h.phase]
    exact hphase _

/-- One of the loops that take all messages off a socket. -/
theorem Agrees.drain (h : s.Agrees cfg) {process look : Bool} {r : Ready} {next : PollPc}
    {synced : List Ready} {p : Proxy κ} {q : Poller σ}
    (hp : Answered s.poller.takes s.proxy p)
    (hq : s.poller.drain process r next look (.between s.proxy.conn p.conn synced) = some q)
    (hs : s.follow cfg p q = some s')
    (hsource : s.poller.source = if process then some r else none)
    (hr : ∀ id, r ≠ .connection id) (hself : ∀ b, s.poller.pc.passed b s.poller.pc = [])
    (hnext : ∀ b, s.poller.pc.passed b next = [.next])
    (hphase : ∀ b, Proxy.Event.after s.poller.pc.phase b .next = next.phase)
    (hchecking : ∀ todo, s.poller.pc ≠ .checking todo ∧ next ≠ .checking todo) :
    s'.Agrees cfg := by
  rcases Poller.drain_cases hq with ⟨hprocess, htotal, hhandle⟩ | ⟨hempty, hlooked, hpc⟩
  · have htakes : s.poller.takes = some r := by simp [Poller.takes, hsource, hprocess, htotal]
    have hpc : q.pc = s.poller.pc := (Poller.handled_of_handle hhandle).pc
    rw [htakes] at hp
    obtain rfl := follow_nil (by rw [hpc]; exact hself _) hs
    have hshows : (s.poller.receive r look).1.Shows s.proxy.conn := h.shows.congr rfl rfl rfl
    refine ⟨hshows.handle hp.handles hhandle, ?_, ?_, fun todo htodo => ?_⟩
    · rw [Poller.total_worker_handle hhandle, Poller.total_receive]
      have hawaited := hp.awaited _ h.awaited
      simpa [eq_comm] using hawaited
    · rw [hp.phase, hpc, ← h.phase]
      cases r with
      | connection id => exact absurd rfl (hr id)
      | _ => rfl
    · exact absurd (hpc.symm.trans htodo) (hchecking todo).1
  · have htakes : s.poller.takes = none := by
      cases process with
      | false => simp [Poller.takes, hsource]
      | true => simp [Poller.takes, hsource, hempty rfl]
    obtain rfl := hp.same htakes
    refine h.passed hs hlooked (Or.inl rfl) ?_ ?_ fun todo htodo =>
      (hchecking todo).2 (hpc.symm.trans htodo)
    · rw [hpc]
      exact hnext _
    · rw [hpc]
      exact hphase

/-- The end of the incoming message loop. -/
theorem Agrees.finish {p : Proxy κ} {m : Poller σ} (hshows : m.Shows p.conn)
    (hawaited : p.sys.Awaited (total (m.inboxes .worker))) (hpc : s.poller.pc = .incoming)
    (hphase : m.connectionsUpdated = false → p.phase = .incoming false)
    (hs : s.follow cfg p (m.finish cfg.epoll) = some s') : s'.Agrees cfg := by
  unfold Poller.finish at hs
  split at hs
  · rename_i hcheck
    obtain rfl := follow_nil (by rw [hpc]; rfl) hs
    have hcheck : (cfg.epoll = true ∧ m.connectionsUpdated = false) ∧
        m.proxySkipOnePoll = false := by
      simpa using hcheck
    exact ⟨hshows.congr rfl rfl rfl, hawaited, hphase hcheck.1.2, fun _ _ => hcheck.1⟩
  · obtain ⟨p', hseen, rfl⟩ := follow_single (by rw [hpc]; rfl) hs
    have hconn : p'.conn = p.conn := hseen.leads.trans (by simp)
    exact ⟨hconn ▸ hshows.congr rfl rfl rfl, hawaited.quieter hseen.sends, hseen.phase, by simp⟩

theorem Agrees.turn (h : s.Agrees cfg) (hpc : s.poller.pc = .incoming) {look : Bool}
    {synced : List Ready} {p : Proxy κ} {q : Poller σ} (hp : Answered s.poller.takes s.proxy p)
    (hq : s.poller.turn cfg.epoll look (.between s.proxy.conn p.conn synced) = some q)
    (hs : s.follow cfg p q = some s') : s'.Agrees cfg := by
  have hsource := Poller.source_incoming hpc
  have hphase : s.proxy.phase = .incoming false := by
    rw [h.phase, hpc]
    rfl
  rcases Poller.turn_cases hq with ⟨hfront, rfl⟩ | ⟨_, hgone, rfl⟩ |
    ⟨id, hfront, hid, htotal, hlooked, hpc', _⟩ | ⟨id, m, hfront, hid, htotal, hm, rfl⟩
  · obtain rfl := hp.same (by simp [Poller.takes, hsource, hfront])
    exact .finish h.shows h.awaited hpc (fun _ => hphase) hs
  · have htakes : s.poller.takes = none := by
      cases hfront : s.poller.queue.front?.join with
      | none => simp [Poller.takes, hsource, hfront]
      | some id =>
        have hgone := hgone id (Option.join_eq_some_iff.1 hfront)
        simp [Poller.takes, hsource, hfront, hgone]
    obtain rfl := hp.same htakes
    exact h.looked hs (.of_inboxes rfl rfl rfl rfl) (by rw [hpc]; rfl) (by rw [hpc]; rfl) (by simp)
  · obtain rfl := hp.same (by simp [Poller.takes, hsource, hfront, hid, htotal])
    exact h.looked hs hlooked (by rw [hpc', hpc]; rfl) (by rw [hpc']) (by simp [hpc', hpc])
  · have htakes : s.poller.takes = some (.connection id) := by
      simp [Poller.takes, hsource, hfront, hid, htotal]
    rw [htakes] at hp
    have hshows : { (s.poller.receive (.connection id) look).1 with
        queue := s.poller.queue.requeue }.Shows s.proxy.conn := h.shows.congr rfl rfl rfl
    have hshows := hshows.handle hp.handles hm
    have hpc' : m.pc = .incoming := (Poller.handled_of_handle hm).pc.trans hpc
    have hawaited : p.sys.Awaited (total (m.inboxes .worker)) := by
      rw [Poller.total_worker_handle hm, Poller.total_receive, if_neg (by simp)]
      simpa using hp.awaited _ h.awaited
    have hphase' : m.connectionsUpdated = false → p.phase = .incoming false := fun hupdated => by
      rw [hp.phase, ← hshows.updated, hupdated]
    split at hs
    · exact .finish hshows hawaited hpc hphase' hs
    · rename_i hupdated
      obtain rfl := follow_nil (by simp only [hpc, hpc']; rfl) hs
      refine ⟨hshows.congr rfl rfl rfl, hawaited, ?_, ?_⟩
      · rw [hphase' (by simpa using hupdated)]
        simp only [hpc']
        rfl
      · simp [hpc']

/-- A socket is looked at in the end. -/
theorem Agrees.check (h : s.Agrees cfg) {todo : List Ready} (hpc : s.poller.pc = .checking todo)
    (hs : s.follow cfg s.proxy (s.poller.check todo) = some s') : s'.Agrees cfg := by
  obtain ⟨hepoll, hupdated⟩ := h.checking todo hpc
  cases todo with
  | nil =>
    obtain ⟨p', hseen, rfl⟩ := follow_single (by rw [hpc]; rfl) hs
    have hconn : p'.conn = s.proxy.conn := by
      refine hseen.leads.trans ?_
      rw [← h.shows.skip]
      cases hskip : s.poller.proxySkipOnePoll <;> simp [hskip, Poller.check]
    exact ⟨hconn ▸ h.shows.congr rfl rfl rfl, h.awaited.quieter hseen.sends, hseen.phase,
      by simp [Poller.check]⟩
  | cons r todo =>
    have hlooked := Poller.looked_sync s.poller r
    unfold Poller.check at hs
    dsimp only at hs
    split at hs
    · obtain ⟨p', hseen, rfl⟩ := follow_single (by rw [hpc]; rfl) hs
      have hconn : p'.conn = { s.proxy.conn with proxySkipOnePoll := true } := by
        have hkept : s.proxy.conn.connectionsUpdated = false := h.shows.updated ▸ hupdated
        refine hseen.leads.trans ?_
        cases hskip : s.proxy.conn.proxySkipOnePoll with
        | false => simp [hepoll, hkept]
        | true =>
          rw [if_neg (by simp), ← hskip]
      refine ⟨?_, ?_, hseen.phase, by simp⟩
      · rw [hconn]
        exact ⟨h.shows.connections, h.shows.updated, rfl⟩
      · dsimp only
        rw [hlooked.total]
        exact h.awaited.quieter hseen.sends
    · refine h.looked hs (hlooked.trans (.of_inboxes rfl rfl rfl rfl)) ?_ ?_
        fun _ _ => ⟨hepoll, hupdated⟩ <;> rw [hpc] <;> rfl

/-! ### The step -/

theorem run_eq_some {look : Bool} {e : Option Proxy.Event} {synced : List Ready} :
    s.run cfg look e synced = some s' ↔ s.asksNull = false ∧ ∃ p q, s.handle cfg e = some p ∧
      s.poller.run cfg.epoll look (.between s.proxy.conn p.conn synced) = some q ∧
      s.follow cfg p q = some s' := by
  unfold run
  cases s.asksNull with
  | true => simp
  | false => simp [Option.bind_eq_some_iff]

theorem Agrees.run (h : s.Agrees cfg) {look : Bool} {e : Option Proxy.Event} {synced : List Ready}
    (hs : s.run cfg look e synced = some s') : s'.Agrees cfg := by
  obtain ⟨_, p, q, hp, hq, hs⟩ := run_eq_some.1 hs
  have hp := answered_of_handle hp
  -- Where no message can be received, the proxy is left alone.
  have hsame : s.poller.source = none → p = s.proxy := fun hsource =>
    hp.same (by simp [Poller.takes, hsource])
  rw [Poller.run] at hq
  cases hpc : s.poller.pc with
  | waiting | stale => simp [hpc] at hq
  | top =>
    obtain rfl := hsame (by simp [Poller.source, hpc])
    rw [hpc] at hq
    cases hq
    exact h.begin hpc hs
  | probing todo =>
    obtain rfl := hsame (by simp [Poller.source, hpc])
    rw [hpc] at hq
    cases hq
    refine h.looked hs (Poller.looked_probe _ _) ?_ ?_ ?_ <;> cases todo <;>
      simp [hpc, Poller.probe, PollPc.passed, PollPc.phase]
  | control | workers | zap =>
    rw [hpc] at hq
    refine h.drain hp hq hs (by simp [Poller.source, hpc]) (by simp) ?_ ?_ ?_ ?_ <;> rw [hpc] <;>
      intros <;> simp [PollPc.passed, PollPc.phase, Proxy.Event.after]
  | timers =>
    obtain rfl := hsame (by simp [Poller.source, hpc])
    rw [hpc] at hq
    cases hq
    refine h.passed hs (.of_inboxes rfl rfl rfl rfl) (Or.inl rfl) (by rw [hpc]; rfl) ?_ (by simp)
    rw [hpc]
    exact fun _ => rfl
  | queue =>
    obtain rfl := hsame (by simp [Poller.source, hpc])
    rw [hpc] at hq
    cases hq
    refine h.passed hs (Poller.looked_processQueue _ _) (Or.inr rfl) ?_ ?_ ?_
    · rw [hpc]
      rfl
    · intro b
      rw [hpc, Poller.processQueue]
      cases s.poller.processAll <;> rfl
    · rw [Poller.processQueue]
      cases s.poller.processAll <;> simp
  | filling todo ready =>
    obtain rfl := hsame (by simp [Poller.source, hpc])
    rw [hpc] at hq
    cases hq
    refine h.looked hs (Poller.looked_fill _ _ _) ?_ ?_ ?_ <;> cases todo <;>
      simp [hpc, Poller.fill, PollPc.passed, PollPc.phase]
  | incoming =>
    rw [hpc] at hq
    exact h.turn hpc hp hq hs
  | checking todo =>
    obtain rfl := hsame (by simp [Poller.source, hpc])
    rw [hpc] at hq
    cases hq
    exact h.check hpc hs

/-- Something happens in another thread. -/
theorem Agrees.thread (h : s.Agrees cfg) {e : Proxy.Event} {p : Proxy κ} {q : Poller σ}
    (he : e.isThread = true) (hp : Proxy.step cfg s.proxy e = some p)
    (hq : Transition.run (Poller.step cfg.epoll) s.poller
      (List.replicate (s.proxy.sentBy p e) (.arrive .worker)) = some q) :
    Agrees cfg ⟨q, p⟩ := by
  obtain ⟨hconnections, hupdated, hskip, hpc, htotal⟩ := Poller.run_arrive hq
  have hseen := Proxy.step_seen hp
  have hphase : p.phase = s.proxy.phase := by
    rw [hseen.phase]
    cases e <;> first | rfl | cases he
  have hconn : p.conn.connections = s.proxy.conn.connections ∧
      p.conn.connectionsUpdated = s.proxy.conn.connectionsUpdated ∧
      p.conn.proxySkipOnePoll = s.proxy.conn.proxySkipOnePoll := by
    cases e with
    | receive | finish | allocate => exact hseen.leads
    | _ => cases he
  have hshows : s.poller.Shows p.conn := by
    refine ⟨fun id => ?_, ?_, ?_⟩
    · rw [Conn.isOpen_congr hconn.1]
      exact h.shows.connections id
    · rw [hconn.2.1, h.shows.updated]
    · rw [hconn.2.2, h.shows.skip]
  refine ⟨hshows.congr hconnections hupdated hskip, ?_, ?_, ?_⟩
  · show p.sys.Awaited (total (q.inboxes .worker))
    rw [htotal]
    cases e with
    | receive | finish => exact h.awaited.said hseen.sends
    | allocate => exact h.awaited.quieter hseen.sends
    | _ => cases he
  · rw [hphase, h.phase, hpc]
  · rw [hpc, hupdated]
    exact h.checking

/-- A timer runs out. -/
theorem Agrees.timer (h : s.Agrees cfg) {e : Proxy.Event} {p : Proxy κ} {q : Poller σ}
    {synced : List Ready} (he : e.isTimer = true) (hp : Proxy.step cfg s.proxy e = some p)
    (hq : Poller.step cfg.epoll s.poller (.timer (.between s.proxy.conn p.conn synced)) = some q) :
    Agrees cfg ⟨q, p⟩ := by
  have hseen := Proxy.step_seen hp
  rw [Poller.step] at hq
  split at hq
  · rename_i hpc
    have hpc' : q.pc = .timers := (Poller.handled_of_handle hq).pc.trans hpc
    have hleads : s.proxy.conn.Tracked p.conn ∧ s.proxy.sys.Quieter p.sys ∧
        p.phase = s.proxy.phase := by
      cases e with
      | timer | cleanup => exact ⟨hseen.leads, hseen.sends, hseen.phase⟩
      | _ => cases he
    obtain ⟨htracked, hquieter, hphase⟩ := hleads
    refine ⟨h.shows.handle htracked hq, ?_, ?_, ?_⟩
    · dsimp only
      rw [Poller.total_worker_handle hq]
      exact h.awaited.quieter hquieter
    · dsimp only
      rw [hphase, h.phase, hpc, hpc']
    · simp [hpc']
  · cases hq

/-! ### The incoming message loop

The loop takes messages off the connections as `Pass.turn` does, which is the loop by itself. -/

/-- The incoming message loop on its way. -/
def pass (s : PolledProxy σ κ) : Pass where
  conn := s.proxy.conn
  queue := s.poller.queue

/-- What is taken off a connection. -/
def delivery : Option Proxy.Event → Option Delivery
  | some (.message env immediate _ m) => some ⟨env, immediate, m⟩
  | _ => none

theorem handle_nothing {e : Option Proxy.Event} {p : Proxy κ} (htakes : s.poller.takes = none)
    (h : s.handle cfg e = some p) : e = none ∧ p = s.proxy := by
  unfold handle at h
  rw [htakes] at h
  cases e with
  | none => exact ⟨rfl, (Option.some.inj h).symm⟩
  | some e => cases h

/-- What is taken off a connection has something in it, and is received by the tables. -/
theorem handle_connection {e : Option Proxy.Event} {p : Proxy κ} {id : ℤ}
    (htakes : s.poller.takes = some (.connection id)) (h : s.handle cfg e = some p) :
    ∃ env immediate m arr, e = some (.message env immediate id m) ∧ m.parts ≠ [] ∧
      s.proxy.conn.receive cfg.commands env immediate id (s.proxy.isRouter id) m =
        .ok (p.conn, arr) := by
  rcases handle_cases h with ⟨htakes' | htakes', _⟩ | ⟨_, _, htakes', _⟩ | ⟨_, htakes', _⟩ |
    ⟨env, immediate, id', m, htakes', rfl, hs⟩ <;> rw [htakes] at htakes' <;> cases htakes'
  obtain ⟨_, hdoes⟩ := Proxy.step_does hs
  cases hdoes with
  | message _ h =>
  obtain ⟨c, arr, hcan, hreceive, rfl, _⟩ := Proxy.messageStep_cases h
  refine ⟨env, immediate, m, arr, rfl, ?_, hreceive⟩
  intro hparts
  unfold Conn.canReceive at hcan
  rw [hparts] at hcan
  split at hcan <;> simp at hcan

/-- **The loop and the loop by itself take the same turns.**  When the loop with its sockets goes on
in the incoming message loop, this has ended, or the next pointer is no good, or a turn is taken:
then the tables and the queue are what `Pass.turn` makes of them, and the loop is left when that one
is. -/
theorem Agrees.pass_turn (h : s.Agrees cfg) (hpc : s.poller.pc = .incoming) {look : Bool}
    {e : Option Proxy.Event} {synced : List Ready} (hs : s.run cfg look e synced = some s') :
    (s.pass.pointer = none ∧ s'.poller.pc ≠ .incoming) ∨
    (¬ s.pass.Fresh ∧ s'.poller.pc = .stale) ∨
    s.pass.turn cfg.commands (delivery e) =
      some ⟨s'.proxy.conn, s'.poller.queue, decide (s'.poller.pc ≠ .incoming)⟩ := by
  obtain ⟨_, p, q, hp, hq, hfollow⟩ := run_eq_some.1 hs
  have hsource := Poller.source_incoming hpc
  rw [Poller.run, hpc] at hq
  rcases Poller.turn_cases hq with ⟨hfront, rfl⟩ | ⟨hsome, hgone, rfl⟩ |
    ⟨id, hfront, hid, htotal, _, hpc', hqueue⟩ | ⟨id, m, hfront, hid, htotal, hm, rfl⟩
  · refine Or.inl ⟨hfront, ?_⟩
    rw [(follow_proxy hfollow).1, Poller.finish]
    split <;> simp
  · refine Or.inr (Or.inl ⟨fun hfresh => ?_, by rw [(follow_proxy hfollow).1]⟩)
    obtain ⟨ptr, hptr⟩ := Option.ne_none_iff_exists'.1 hsome
    obtain ⟨id, rfl, hopen⟩ := hfresh ptr hptr
    exact hgone id hptr ((h.shows.connections id).2 hopen)
  · have htakes : s.poller.takes = none := by
      simp [Poller.takes, hsource, hfront, hid, htotal]
    obtain ⟨rfl, rfl⟩ := handle_nothing htakes hp
    obtain rfl := follow_nil (by rw [hpc', hpc]; rfl) hfollow
    have hopen : s.proxy.conn.isOpen id = true := (h.shows.connections id).1 hid
    have hpointer : s.pass.pointer = some (some id) := hfront
    refine Or.inr (Or.inr ?_)
    rw [Pass.turn, hpointer]
    simp [hopen, delivery, pass, hqueue, hpc', hpc]
  · have htakes : s.poller.takes = some (.connection id) := by
      simp [Poller.takes, hsource, hfront, hid, htotal]
    obtain ⟨env, immediate, message, arr, rfl, hparts, hreceive⟩ := handle_connection htakes hp
    have hanswered := answered_of_handle hp
    rw [htakes] at hanswered
    have hhandled := Poller.handled_of_handle hm
    have hopen : s.proxy.conn.isOpen id = true := (h.shows.connections id).1 hid
    have hpointer : s.pass.pointer = some (some id) := hfront
    have hshows : { (s.poller.receive (.connection id) look).1 with
        queue := s.poller.queue.requeue }.Shows s.proxy.conn := h.shows.congr rfl rfl rfl
    have hupdated : m.connectionsUpdated = p.conn.connectionsUpdated :=
      (hshows.handle hanswered.handles hm).updated
    have hqueue : m.queue = s.poller.queue.requeue := hhandled.queue
    have hpc' : m.pc = .incoming := hhandled.pc.trans hpc
    refine Or.inr (Or.inr ?_)
    rw [delivery, Pass.turn_of_receive hpointer hopen hparts hreceive, ← hupdated, pass, ← hqueue]
    cases hflag : m.connectionsUpdated with
    | true =>
      rw [hflag, if_pos rfl, Poller.finish, hflag] at hfollow
      simp only [Bool.not_true, Bool.and_false, Bool.false_and, Bool.false_eq_true,
        if_false] at hfollow
      obtain ⟨p', hseen, rfl⟩ := follow_single (by rw [hpc]; rfl) hfollow
      have hconn : p'.conn = p.conn := hseen.leads.trans (by simp)
      simp [hconn]
    | false =>
      rw [hflag, if_neg Bool.false_ne_true] at hfollow
      obtain rfl := follow_nil (by simp only [hpc, hpc']; rfl) hfollow
      simp [hpc']

/-! ## Runs -/

theorem handle_proxy {e : Option Proxy.Event} {p : Proxy κ} (h : s.handle cfg e = some p) :
    ∃ es, Transition.run (Proxy.step cfg) s.proxy es = some p := by
  rcases handle_cases h with ⟨_, _, rfl⟩ | ⟨_, _, _, _, hs⟩ | ⟨_, _, _, hs⟩ | ⟨_, _, _, _, _, _, hs⟩
  · exact ⟨[], rfl⟩
  · exact Transition.exists_run_of_step hs
  · exact Transition.exists_run_of_step hs
  · exact Transition.exists_run_of_step hs

/-- **The step lemma.**  A step is a run of the loop and a run of the proxy, and they go on to
agree. -/
theorem Agrees.step {e : PolledEvent} (h : s.Agrees cfg) (hinv : s.poller.Inv cfg.epoll)
    (hs : step cfg s e = some s') :
    (∃ es, Transition.run (Poller.step cfg.epoll) s.poller es = some s'.poller) ∧
      (∃ es, Transition.run (Proxy.step cfg) s.proxy es = some s'.proxy) ∧ s'.Agrees cfg := by
  unfold PolledProxy.step at hs
  split at hs
  · cases hs
  cases e with
  | arrive r =>
    dsimp only at hs
    split at hs
    · cases hs
    · rename_i hne
      obtain ⟨q, hq, rfl⟩ := Option.map_eq_some_iff.1 hs
      refine ⟨Transition.exists_run_of_step hq, ⟨[], rfl⟩, ?_⟩
      rw [Poller.step] at hq
      split at hq
      · cases hq
        refine ⟨h.shows.congr rfl rfl rfl, ?_, h.phase, h.checking⟩
        simp only [Poller.update, if_neg (Ne.symm hne)]
        exact h.awaited
      · cases hq
  | thread e =>
    dsimp only at hs
    split at hs
    · rename_i he
      obtain ⟨p, hp, hs⟩ := Option.bind_eq_some_iff.1 hs
      obtain ⟨q, hq, hs⟩ := Option.bind_eq_some_iff.1 hs
      cases hs
      exact ⟨⟨_, hq⟩, Transition.exists_run_of_step hp, h.thread he hp hq⟩
    · cases hs
  | timer e synced =>
    dsimp only at hs
    split at hs
    · rename_i he
      obtain ⟨p, hp, hs⟩ := Option.bind_eq_some_iff.1 hs
      obtain ⟨q, hq, hs⟩ := Option.bind_eq_some_iff.1 hs
      cases hs
      exact ⟨Transition.exists_run_of_step hq, Transition.exists_run_of_step hp,
        h.timer he hp hq⟩
    · cases hs
  | timeout =>
    obtain ⟨q, hq, hs⟩ := Option.bind_eq_some_iff.1 hs
    obtain ⟨hlooked, hpc, hpc'⟩ := Poller.looked_timeout hq
    obtain ⟨rfl, hrun⟩ := follow_proxy hs
    exact ⟨Transition.exists_run_of_step (e := .timeout) hq, hrun,
      h.awake hinv hlooked hpc hpc' hs⟩
  | wake evs =>
    obtain ⟨q, hq, hs⟩ := Option.bind_eq_some_iff.1 hs
    obtain ⟨hlooked, hpc, hpc'⟩ := Poller.looked_wake hq
    obtain ⟨rfl, hrun⟩ := follow_proxy hs
    exact ⟨Transition.exists_run_of_step (e := .wake evs) hq, hrun,
      h.awake hinv hlooked hpc hpc' hs⟩
  | run look e synced =>
    obtain ⟨_, p, q, hp, hq, hfollow⟩ := run_eq_some.1 hs
    obtain ⟨rfl, es', hrun⟩ := follow_proxy hfollow
    obtain ⟨es, hes⟩ := handle_proxy hp
    exact ⟨Transition.exists_run_of_step (e := .run look _) hq,
      ⟨es ++ es', Transition.run_append_eq_some.2 ⟨p, hes, hrun⟩⟩, h.run hs⟩
  | stop =>
    dsimp only at hs
    split at hs
    · obtain ⟨p, hp, rfl⟩ := Option.map_eq_some_iff.1 hs
      have hseen := Proxy.step_seen hp
      have hconn : p.conn = s.proxy.conn := hseen.leads
      exact ⟨⟨[], rfl⟩, Transition.exists_run_of_step hp, hconn ▸ h.shows,
        h.awaited.quieter hseen.sends, hseen.phase.trans h.phase, h.checking⟩
    · cases hs

variable [Fintype κ] {timers : Timers} {inboxes : Ready → σ}

/-- **Every run is a run of the loop and a run of the proxy**, and they agree. -/
theorem parts_of_run {es : List PolledEvent}
    (hrun : Transition.run (step cfg) (start cfg timers inboxes) es = some s) :
    (∃ es, Transition.run (Poller.step cfg.epoll) (start cfg timers inboxes).poller es =
      some s.poller) ∧
      (∃ es, Transition.run (Proxy.step cfg) (.start cfg timers) es = some s.proxy) ∧
      s.Agrees cfg := by
  refine Transition.run_induction (P := fun s : PolledProxy σ κ =>
    (∃ es, Transition.run (Poller.step cfg.epoll) (start cfg timers inboxes).poller es =
      some s.poller) ∧
      (∃ es, Transition.run (Proxy.step cfg) (.start cfg timers) es = some s.proxy) ∧ s.Agrees cfg)
    ⟨⟨[], rfl⟩, ⟨[], rfl⟩, ?_⟩ ?_ hrun
  · refine ⟨⟨fun id => ?_, rfl, rfl⟩, fun ws _ => ?_, rfl, by simp [start, Poller.start]⟩
    · show id ∈ [1] ↔ (Conn.start.connections.lookup id).any Socket.isOpen = true
      by_cases hid : id = 1
      · subst hid
        exact ⟨fun _ => rfl, fun _ => List.mem_singleton_self 1⟩
      · have hnone : Conn.start.connections.lookup id = none :=
          AList.lookup_eq_none.2 (by simpa [Conn.start, AList.mem_keys] using hid)
        simp [hid, hnone]
    · have hsilent : ∀ w, (Sys.init cfg.pool).replies w = 0 := by
        rintro (i | t)
        · rfl
        · simp only [Sys.replies, Sys.init]
          split <;> rfl
      have hzero : (ws.map (Sys.init cfg.pool).replies).sum = 0 :=
        List.sum_eq_zero fun n hn => by
          obtain ⟨w, _, rfl⟩ := List.mem_map.1 hn
          exact hsilent w
      exact hzero.le.trans (Nat.zero_le _)
  · rintro _ s e s' _ ⟨⟨qs, hqs⟩, ⟨ps, hps⟩, hagrees⟩ hs
    obtain ⟨⟨qs', hqs'⟩, ⟨ps', hps'⟩, hagrees⟩ := hagrees.step (Poller.inv_of_run hqs) hs
    exact ⟨⟨qs ++ qs', Transition.run_append_eq_some.2 ⟨_, hqs, hqs'⟩⟩,
      ⟨ps ++ ps', Transition.run_append_eq_some.2 ⟨_, hps, hps'⟩⟩, hagrees⟩

/-! ## The proxy thread sleeps -/

omit [Fintype κ] in
/-- What wakes up the loop wakes up the proxy. -/
theorem wake_eq_none (h : s.Agrees cfg) (hinv : s.poller.Inv cfg.epoll)
    (hstopped : s.proxy.sys.stopped = false) (hpc : s.poller.pc = .waiting) {evs : List Ready}
    (hasleep : step cfg s (.wake evs) = none) :
    Poller.step cfg.epoll s.poller (.wake evs) = none := by
  cases hq : s.poller.wake cfg.epoll evs with
  | none => exact hq
  | some q =>
    obtain ⟨_, _, hpc'⟩ := Poller.looked_wake hq
    have hphase : s.proxy.phase = .poll := by
      rw [h.phase, hpc]
      rfl
    have hupdated : s.proxy.conn.connectionsUpdated = false :=
      h.shows.updated ▸ (hinv.unflagged hpc).1
    have hpassed : s.poller.pc.passed q.proxySkipOnePoll q.pc = [.begin] := by
      rw [hpc, hpc']
      rfl
    simp [step, hstopped, hq, follow, hpassed, Transition.run, Proxy.step, hphase, Proxy.beginStep,
      Conn.beginIteration, hupdated] at hasleep

omit [Fintype κ] in
/-- There is always room for a message of a worker. -/
theorem thread_eq_none (hstopped : s.proxy.sys.stopped = false) {e : Proxy.Event}
    (he : e.isThread = true) (hstuck : step cfg s (.thread e) = none) :
    Proxy.step cfg s.proxy e = none := by
  have hroom : ∀ n (q : Poller σ), (Transition.run (Poller.step cfg.epoll) q
      (List.replicate n (.arrive .worker))).isSome = true := by
    intro n
    induction n with
    | zero => exact fun _ => rfl
    | succ n ih =>
      intro q
      have hworker : Ready.worker ∈ q.sources := by simp [Poller.mem_sources]
      rw [List.replicate_succ, Transition.run, Poller.step, if_pos hworker]
      exact ih _
  by_contra hne
  obtain ⟨p, hp⟩ := Option.ne_none_iff_exists'.1 hne
  obtain ⟨q, hq⟩ := Option.isSome_iff_exists.1 (hroom (s.proxy.sentBy p e) s.poller)
  simp [step, hstopped, he, hp, hq] at hstuck

/-- **The threads of an instance do not wait for each other.**  When the proxy thread waits and
nothing wakes it up, it has received all that has arrived on its sockets, heard all that the workers
have said, and started all that could be started.  If moreover no worker can go on, there is nothing
left to do. -/
theorem nothing_left {es : List PolledEvent}
    (hrun : Transition.run (step cfg) (start cfg timers inboxes) es = some s)
    (hopen : s.proxy.sys.pool.maxWorkers ≠ 0) (hpc : s.poller.pc = .waiting)
    (hasleep : ∀ evs, step cfg s (.wake evs) = none) :
    (∀ r, (∀ id, r = .connection id → s.proxy.conn.isOpen id = true) →
      total (s.poller.inboxes r) = 0) ∧
    (∀ w, (s.proxy.sys.threads w).outbox = []) ∧
    s.proxy.sys.Saturated cfg.pool ∧
    ((∀ e, e.isThread = true → e ≠ .allocate → step cfg s (.thread e) = none) →
      s.proxy.sys.Drained) := by
  obtain ⟨⟨qs, hqs⟩, ⟨ps, hps⟩, hagrees⟩ := parts_of_run hrun
  have hinv := Poller.inv_of_run hqs
  obtain ⟨pes, hpes⟩ := Proxy.run_pool hps
  -- The proxy has not been told to quit, so it has not stopped.
  have hquit : .quit ∉ pes := fun hmem => hopen ((Sys.maxWorkers_eq_zero_iff hpes).2 hmem)
  have hstop : .stop ∉ pes := fun hmem => hquit (Sys.quit_of_stop hpes hmem)
  obtain ⟨hsound, hstopped⟩ := Sys.sound_of_run hpes
  have hstopped := hstopped hstop
  have hempty := Poller.drained_of_asleep hqs hpc fun evs =>
    wake_eq_none hagrees hinv hstopped hpc (hasleep evs)
  have hworker : total (s.poller.inboxes .worker) = 0 :=
    hempty .worker (by simp [Poller.mem_sources])
  have houtbox : ∀ w, (s.proxy.sys.threads w).outbox = [] := by
    intro w
    have hle := hagrees.awaited [w] (List.nodup_singleton w)
    rw [hworker] at hle
    exact List.eq_nil_of_length_eq_zero (by simpa [Sys.replies] using hle)
  have hsat : s.proxy.sys.Saturated cfg.pool := by
    have hphase : s.proxy.phase.afterQueue = true := by
      rw [hagrees.phase, hpc]
      rfl
    refine ((Proxy.run_drained hps hopen).saturated hphase).resolve_left fun hskip => ?_
    rw [Proxy.skip, ← hagrees.shows.skip, (hinv.unflagged hpc).2] at hskip
    cases hskip
  refine ⟨fun r hr => hempty r ?_, houtbox, hsat, fun hstuck => ?_⟩
  · rw [Poller.mem_sources]
    cases r with
    | connection id =>
      have hid := (hagrees.shows.connections id).2 (hr id rfl)
      simp [hid]
    | _ => simp
  · obtain ⟨f, hpool, hfit⟩ := hsound.inv
    refine hpool.drained hfit hsound.heap hopen hsat fun w => ?_
    have hreceive := thread_eq_none hstopped rfl (hstuck (.receive w) rfl (by simp))
    have hfinish := thread_eq_none hstopped rfl (hstuck (.finish w {} .unset) rfl (by simp))
    have hphase : f w = .absent ∨ f w = .idle ∨ f w = .joined := by
      refine hpool.phase_of_stuck (hpool.isOpen hopen).length_le ?_ ?_ (houtbox w)
      · simpa [Proxy.step, hstopped, Proxy.poolStep, Sys.step] using hreceive
      · simpa [Proxy.step, hstopped, Proxy.poolStep, Sys.step] using hfinish
    rcases hphase with hp | hp | hp <;> rw [hp] <;> rfl

/-- With `epoll`, one general worker and no commands. -/
def smallPolled : ProxyConfig Unit := { Proxy.smallProxy with epoll := true }

/-- The loop goes on, and there is no message. -/
def go : PolledEvent := .run false none []

/-- A job is handed over, run by a worker, and reported to the proxy, which goes to sleep. -/
def oneJob : List PolledEvent :=
  [.thread (.receive (.tagged 0)), .arrive .command] ++ List.replicate 5 go ++
    [.run false (some (.control {} (.job 1 none))) []] ++ List.replicate 9 go ++
    [.thread (.receive (.untagged 0)), .thread (.finish (.untagged 0) {} .unset)] ++
    List.replicate 5 go ++ [.run false (some (.worker (.untagged 0))) []] ++ List.replicate 13 go

/-- No socket has anything to read, and there is no timer. -/
def emptyStart : PolledProxy EdgeTriggered.Inbox Unit := start smallPolled {} fun _ => empty

theorem nothing_left_oneJob :
    ∃ s, Transition.run (step smallPolled) emptyStart oneJob = some s ∧
      s.proxy.sys.log.length = 5 ∧ s.proxy.sys.Drained := by
  have hrun : Transition.run (step smallPolled) emptyStart oneJob = some _ := rfl
  refine ⟨_, hrun, rfl, (nothing_left hrun (by decide) rfl fun evs => ?_).2.2.2 fun e he hne => ?_⟩
  · -- No socket has a signal.
    exact congrArg (Option.bind · _) (Poller.wake_eq_none_of_reported rfl evs)
  · cases e with
    | allocate => exact absurd rfl hne
    | receive w | finish w left r =>
      rcases w with (_ | i) | (_ | t) <;> rfl
    | _ => cases he

end PolledProxy

end OxenMQ
