import OxenMQ.Lib.Simulation
import OxenMQ.Proxy.Defs

/-!
# The connection tables inside the proxy thread

`Conn.step` has the connection tables as a system of their own, with decoded control messages for
events.  The proxy thread has the same tables, but it gets at them from the inside of its loop: a
call is encoded, sent over the control socket, decoded and handled, a message is taken off a socket
whose type is looked up, a timer goes off.

* `Controls` and `Does` say, case by case, what a control message and what an event of the proxy
  thread can do; all that is proved about a step of the thread goes through them;
* `connEvents` says which events of the tables each event of the proxy thread is;
* `run_connHistory` says that along every run of the loop the tables go through a run of their own.

So what holds in every run of the tables, given what has happened to them, holds in the loop.
-/

set_option autoImplicit false

namespace OxenMQ

namespace Proxy

open Control

variable {κ : Type}

/-- Is this the number of a listening socket? -/
def isRouter (p : Proxy κ) (connId : ℤ) : Bool :=
  decide (p.conn.connections.lookup connId = some .router)

/-- What a control message is to the connection tables.  A batch of jobs makes the loop skip a
poll. -/
def controlEvents (cfg : ProxyConfig κ) (p : Proxy κ) (env : ControlEnv) :
    ControlMessage κ → List ConnEvent
  | .send data =>
    ((decodeSend.get data).toOption.map fun r => ConnEvent.send env.toEnv r).toList
  | .setSns pubkeys => [.setActiveSns pubkeys.1]
  | .updateSns added removed => [.updateActiveSns added.1 removed.1]
  | .connectSn data =>
    (((decodeConnectSn cfg.ephemeralRoutingId env.garbage).get data).toOption.map fun r =>
      ConnEvent.connectSn env.toEnv r.toConnectSn).toList
  | .connectRemote data =>
    (((decodeConnectRemote cfg.ephemeralRoutingId).get data).toOption.map fun r =>
      ConnEvent.connectRemote env.toEnv r.toConnectRemote).toList
  | .disconnect data =>
    ((decodeDisconnect.get data).toOption.map fun r => ConnEvent.disconnect r.1 r.2).toList
  | .bind b => [.bind b.address b.curve b.allow env.good]
  | .batch _ => [.setFlags p.conn.connectionsUpdated true]
  | .inject _ | .timer _ | .timerDel _ | .quit => []

/-- A control message is at most one event, and the flags are all that it sets if it sets them. -/
theorem controlEvents_cases (cfg : ProxyConfig κ) (p : Proxy κ) (env : ControlEnv)
    (message : ControlMessage κ) :
    p.controlEvents cfg env message = [] ∨
      (∃ ev, p.controlEvents cfg env message = [ev] ∧ ev.setsFlags = false) ∨
      p.controlEvents cfg env message = [.setFlags p.conn.connectionsUpdated true] := by
  have hone : ∀ {α : Type} (x : Except Abort α) (f : α → ConnEvent),
      (∀ a, (f a).setsFlags = false) → (x.toOption.map f).toList = [] ∨
        (∃ ev, (x.toOption.map f).toList = [ev] ∧ ev.setsFlags = false) ∨
        (x.toOption.map f).toList = [.setFlags p.conn.connectionsUpdated true] := by
    intro α x f hf
    cases x with
    | error e => exact Or.inl rfl
    | ok a => exact Or.inr (Or.inl ⟨f a, rfl, hf a⟩)
  cases message with
  | send | connectSn | connectRemote | disconnect => exact hone _ _ fun _ => rfl
  | setSns | updateSns | bind => exact Or.inr (Or.inl ⟨_, rfl, rfl⟩)
  | batch => exact Or.inr (Or.inr rfl)
  | inject | timer | timerDel | quit => exact Or.inl rfl

/-- What an event of the proxy thread is to the connection tables.  At its two ends an iteration
sets the flags of the loop. -/
def connEvents (cfg : ProxyConfig κ) (p : Proxy κ) : Event → List ConnEvent
  | .allocate => [.allocate]
  | .begin => [.setFlags false false]
  | .control env call =>
    match call.emit cfg.commands cfg.ephemeralRoutingId with
    | .ok (some message) => p.controlEvents cfg env message
    | _ => []
  | .cleanup env => [.cleanup env]
  | .message env immediate connId m => [.message env immediate connId (p.isRouter connId) m]
  | .done pollin =>
    [.setFlags p.conn.connectionsUpdated (p.doneStep cfg pollin).conn.proxySkipOnePoll]
  | _ => []

variable {cfg : ProxyConfig κ} {p p' : Proxy κ}

/-- An iteration begins with its flags reset. -/
theorem beginIteration_conn {c c₀ : Conn} {epoll polled : Bool}
    (h : c.beginIteration epoll = some (c₀, polled)) :
    c₀ = { c with connectionsUpdated := false, proxySkipOnePoll := false } := by
  unfold Conn.beginIteration at h
  dsimp only at h
  split at h
  · obtain ⟨c₁, h₁, h⟩ := Option.bind_eq_some_iff.1 h
    obtain ⟨c₂, h₂, rfl⟩ := Option.map_eq_some_iff.1 h₁
    unfold Conn.rebuildPollitems at h₂
    split at h₂
    · cases h₂
    · cases h₂
      cases h
      rfl
  · rename_i hupdated
    cases h
    rw [Bool.not_eq_true] at hupdated
    rw [← hupdated]

theorem doneStep_conn (cfg : ProxyConfig κ) (p : Proxy κ) (pollin : Bool) :
    (p.doneStep cfg pollin).conn =
      { p.conn with proxySkipOnePoll := (p.doneStep cfg pollin).conn.proxySkipOnePoll } := by
  unfold doneStep
  dsimp only
  split <;> rfl

variable [DecidableEq κ]

theorem poolStep_eq_some {e : PoolEvent κ} :
    p.poolStep cfg e = some p' ↔
      ∃ s, Sys.step cfg.pool p.sys e = some s ∧ p' = { p with sys := s } := by
  rw [poolStep, Option.map_eq_some_iff]
  simp only [eq_comm]

/-- A message is taken off an open connection; if it invokes a command, the pool gets it. -/
theorem messageStep_cases {env : Env} {immediate : Bool} {connId : ℤ} {m : Incoming}
    (h : p.messageStep cfg env immediate connId m = some p') :
    ∃ c arr,
      Conn.canReceive (p.conn.connections.lookup connId) (p.isRouter connId) m.parts = true ∧
      p.conn.receive cfg.commands env immediate connId (p.isRouter connId) m = .ok (c, arr) ∧
      p'.conn = c ∧
      p'.phase = .incoming c.connectionsUpdated ∧
      (arr = none ∧ p'.sys = (p.withConn cfg c).sys ∨
        ∃ a, arr = some a ∧
          Sys.step cfg.pool (p.withConn cfg c).sys (.command a) = some p'.sys) := by
  unfold messageStep at h
  dsimp only at h
  split at h
  · rename_i hcan
    split at h
    · cases h
    · rename_i c hreceive
      cases h
      exact ⟨c, none, hcan, hreceive, rfl, rfl, Or.inl ⟨rfl, rfl⟩⟩
    · rename_i c a hreceive
      split at h
      · obtain ⟨s, hs, rfl⟩ := poolStep_eq_some.1 h
        exact ⟨c, some a, hcan, hreceive, rfl, rfl, Or.inr ⟨a, rfl, hs⟩⟩
      · cases h
  · cases h

/-! ## What can happen in the proxy thread -/

/-- Is this control message for the connection tables? -/
def forTables : ControlMessage κ → Bool
  | .batch _ | .inject _ | .timer _ | .timerDel _ | .quit => false
  | _ => true

/-- The phase that follows when everything has been taken off the socket of a phase. -/
def nextPhase : LoopPhase → Option LoopPhase
  | .control => some .workers
  | .workers => some .timers
  | .timers => some .zap
  | .zap => some .queue
  | _ => none

/-- What the handler of a control message can do to the proxy `p`: change the connection tables,
the timers, or the worker pool. -/
inductive Controls (cfg : ProxyConfig κ) (p : Proxy κ) (env : ControlEnv) :
    ControlMessage κ → Proxy κ → Prop
  | tables {message : ControlMessage κ} (hmessage : forTables message = true) (c : Conn) :
    Controls cfg p env message (p.withConn cfg c)
  | timer {data : List Value} {timers : Timers} : Controls cfg p env (.timer data) { p with timers }
  | timerDel (id : ℤ) :
    Controls cfg p env (.timerDel id) { p with timers := p.timers.proxyTimerDel id }
  | batch (spec : BatchSpec) : Controls cfg p env (.batch spec)
      { p with sys := p.sys.submit spec, conn := { p.conn with proxySkipOnePoll := true } }
  | inject (task : InjectedTask κ) :
    Controls cfg p env (.inject task) { p with sys := p.sys.proxyInjectTask cfg.pool task }
  | quit : Controls cfg p env .quit { p with sys := p.sys.proxyControlQuit }

theorem controls_of_ok {env : ControlEnv} {message : ControlMessage κ}
    (h : p.proxyControlMessage cfg env message = .ok p') : Controls cfg p env message p' := by
  cases message with
  | send | connectSn | connectRemote | disconnect =>
    obtain ⟨_, _, h⟩ := Except.bind_eq_ok.1 h
    obtain ⟨c, _, h⟩ := Except.bind_eq_ok.1 h
    cases h
    exact .tables rfl c
  | setSns | updateSns =>
    obtain ⟨c, _, h⟩ := Except.bind_eq_ok.1 h
    cases h
    exact .tables rfl c
  | bind =>
    obtain ⟨_, _, h⟩ := Except.bind_eq_ok.1 h
    obtain ⟨_, _, h⟩ := Except.bind_eq_ok.1 h
    cases h
    exact .tables rfl _
  | timer =>
    obtain ⟨_, _, h⟩ := Except.bind_eq_ok.1 h
    cases h
    exact .timer
  | timerDel | batch | inject | quit =>
    cases h
    constructor

/-- What an event can do to the proxy `p`, and what has to hold for it to happen. -/
inductive Does (cfg : ProxyConfig κ) (p : Proxy κ) : Event → Proxy κ → Prop
  | allocate {c : Conn} (hc : Conn.step cfg.commands p.conn .allocate = some c) :
    Does cfg p .allocate { p with conn := c }
  | receive {w : Worker} {s : Sys κ} (hs : Sys.step cfg.pool p.sys (.receive w) = some s) :
    Does cfg p (.receive w) { p with sys := s }
  | finish {w : Worker} {left : Message} {r : JobResult} {s : Sys κ}
      (hs : Sys.step cfg.pool p.sys (.finish w left r) = some s) :
    Does cfg p (.finish w left r) { p with sys := s }
  | begin {c : Conn} {polled : Bool} (hphase : p.phase = .poll)
      (hc : p.conn.beginIteration cfg.epoll = some (c, polled)) :
    Does cfg p .begin { p with conn := c, phase := .control }
  | stop {s : Sys κ} (hs : Sys.step cfg.pool p.sys .stop = some s) :
    Does cfg p .stop { p with sys := s }
  | control {env : ControlEnv} {call : Call} {message : ControlMessage κ} {p' : Proxy κ}
      (hphase : p.phase = .control) (hvalid : p.validCall cfg env call = true)
      (hemit : call.emit cfg.commands cfg.ephemeralRoutingId = .ok (some message))
      (h : p.proxyControlMessage cfg env message = .ok p') : Does cfg p (.control env call) p'
  | worker {w : Worker} {p' : Proxy κ} (hphase : p.phase = .workers)
      (h : p.workerStep cfg w = some p') : Does cfg p (.worker w) p'
  | timer {timerId : ℤ} {p' : Proxy κ} (hphase : p.phase = .timers)
      (h : p.timerStep cfg timerId = some p') : Does cfg p (.timer timerId) p'
  | cleanup {env : Env} {c : Conn} (hphase : p.phase = .timers)
      (hc : Conn.step cfg.commands p.conn (.cleanup env) = some c) :
    Does cfg p (.cleanup env) (p.withConn cfg c)
  | next {phase : LoopPhase} (hnext : nextPhase p.phase = some phase) :
    Does cfg p .next { p with phase := phase }
  | processQueue {s : Sys κ} (hs : Sys.step cfg.pool p.sys .processQueue = some s) :
    Does cfg p .processQueue { p with sys := s, phase := .incoming false }
  | message {env : Env} {immediate : Bool} {connId : ℤ} {m : Incoming} {p' : Proxy κ}
      (hphase : p.phase = .incoming false)
      (h : p.messageStep cfg env immediate connId m = some p') :
    Does cfg p (.message env immediate connId m) p'
  | done (pollin : Bool) {stale : Bool} (hphase : p.phase = .incoming stale) :
    Does cfg p (.done pollin) (p.doneStep cfg pollin)

/-- **There is nothing else that a step can do.** -/
theorem step_does {e : Event} (h : step cfg p e = some p') :
    p.sys.stopped = false ∧ Does cfg p e p' := by
  unfold step at h
  split at h
  · cases h
  rename_i hrunning
  refine ⟨Bool.eq_false_iff.2 hrunning, ?_⟩
  split at h
  · obtain ⟨c, hc, rfl⟩ := Option.map_eq_some_iff.1 h
    exact .allocate hc
  · obtain ⟨s, hs, rfl⟩ := poolStep_eq_some.1 h
    exact .receive hs
  · obtain ⟨s, hs, rfl⟩ := poolStep_eq_some.1 h
    exact .finish hs
  · rename_i hphase
    obtain ⟨⟨c, polled⟩, hc, rfl⟩ := Option.map_eq_some_iff.1 h
    exact .begin hphase hc
  · obtain ⟨s, hs, rfl⟩ := poolStep_eq_some.1 h
    exact .stop hs
  · rename_i hphase
    split at h
    · rename_i hvalid
      split at h
      · rename_i hemit
        exact .control hphase hvalid hemit (Except.toOption_eq_some.1 h)
      · cases h
    · cases h
  · rename_i hphase
    cases h
    exact .next (congrArg nextPhase hphase)
  · exact .worker ‹_› h
  · rename_i hphase
    cases h
    exact .next (congrArg nextPhase hphase)
  · exact .timer ‹_› h
  · rename_i hphase
    obtain ⟨c, hc, rfl⟩ := Option.map_eq_some_iff.1 h
    exact .cleanup hphase hc
  · rename_i hphase
    cases h
    exact .next (congrArg nextPhase hphase)
  · rename_i hphase
    cases h
    exact .next (congrArg nextPhase hphase)
  · obtain ⟨p₁, h₁, rfl⟩ := Option.map_eq_some_iff.1 h
    obtain ⟨s, hs, rfl⟩ := poolStep_eq_some.1 h₁
    exact .processQueue hs
  · exact .message ‹_› h
  · rename_i hphase
    cases h
    exact .done _ hphase
  · cases h

/-! ## The tables -/

/-- A control message is one event of the tables, or it has nothing to do with them. -/
theorem proxyControlMessage_conn {env : ControlEnv} {call : Call} {message : ControlMessage κ}
    (hvalid : p.validCall cfg env call = true)
    (hemit : call.emit cfg.commands cfg.ephemeralRoutingId = .ok (some message))
    (h : p.proxyControlMessage cfg env message = .ok p') :
    Transition.run (Conn.step cfg.commands) p.conn (p.controlEvents cfg env message) =
      some p'.conn := by
  have hone : ∀ {ev : ConnEvent} {c' : Conn}, Conn.step cfg.commands p.conn ev = some c' →
      Transition.run (Conn.step cfg.commands) p.conn [ev] = some c' := fun hs =>
    Transition.run_cons_eq_some.2 ⟨_, hs, rfl⟩
  have hok : ∀ {x : Except Abort Conn} {c : Conn}, x = .ok c → x.toOption = some c :=
    fun hx => Except.toOption_eq_some.2 hx
  cases message with
  | send data =>
    obtain ⟨r, hdecode, h⟩ := Except.bind_eq_ok.1 h
    obtain ⟨c, hsend, h⟩ := Except.bind_eq_ok.1 h
    cases h
    rw [controlEvents, hdecode]
    exact hone (hok hsend)
  | setSns pubkeys =>
    obtain ⟨c, hset, h⟩ := Except.bind_eq_ok.1 h
    cases h
    exact hone ((if_pos pubkeys.2).trans (hok hset))
  | updateSns added removed =>
    obtain ⟨c, hupdate, h⟩ := Except.bind_eq_ok.1 h
    cases h
    exact hone ((if_pos ⟨added.2, removed.2⟩).trans (hok hupdate))
  | connectSn data =>
    obtain ⟨r, hdecode, h⟩ := Except.bind_eq_ok.1 h
    obtain ⟨c, hconnect, h⟩ := Except.bind_eq_ok.1 h
    cases h
    rw [controlEvents, hdecode]
    exact hone (hok hconnect)
  | connectRemote data =>
    obtain ⟨r, hdecode, h⟩ := Except.bind_eq_ok.1 h
    obtain ⟨c, hconnect, h⟩ := Except.bind_eq_ok.1 h
    cases h
    -- the number has been drawn, because the call is valid
    have hid : r.connId ∈ p.conn.allocated := by
      obtain ⟨call, rfl⟩ := from_of_emit hemit
      have hall : (Call.connect call).connId.all (fun id => decide (id ∈ p.conn.allocated)) =
        true := hvalid
      rw [connId_of_decode hemit hdecode] at hall
      exact of_decide_eq_true hall
    rw [controlEvents, hdecode]
    exact hone ((if_pos hid).trans (hok hconnect))
  | disconnect data =>
    obtain ⟨⟨conn, linger⟩, hdecode, h⟩ := Except.bind_eq_ok.1 h
    obtain ⟨c, hdisconnect, h⟩ := Except.bind_eq_ok.1 h
    cases h
    rw [controlEvents, hdecode]
    exact hone (hok hdisconnect)
  | timer data =>
    obtain ⟨r, _, h⟩ := Except.bind_eq_ok.1 h
    cases h
    rfl
  | bind b =>
    obtain ⟨_, _, h⟩ := Except.bind_eq_ok.1 h
    obtain ⟨_, _, h⟩ := Except.bind_eq_ok.1 h
    cases h
    exact hone rfl
  | batch spec =>
    cases h
    exact hone rfl
  | inject task | timerDel id | quit =>
    cases h
    rfl

/-- **What a step of the proxy thread is to the connection tables.** -/
theorem step_conn {e : Event} (h : step cfg p e = some p') :
    Transition.run (Conn.step cfg.commands) p.conn (p.connEvents cfg e) = some p'.conn := by
  have hone : ∀ {ev : ConnEvent} {c' : Conn}, Conn.step cfg.commands p.conn ev = some c' →
      Transition.run (Conn.step cfg.commands) p.conn [ev] = some c' := fun hs =>
    Transition.run_cons_eq_some.2 ⟨_, hs, rfl⟩
  cases (step_does h).2 with
  | allocate hc | cleanup _ hc => exact hone hc
  | receive | finish | stop | next | processQueue => rfl
  | begin _ hc => exact hone (congrArg some (beginIteration_conn hc).symm)
  | control _ hvalid hemit h =>
    rw [connEvents, hemit]
    exact proxyControlMessage_conn hvalid hemit h
  | worker _ h =>
    obtain ⟨p₁, h₁, rfl⟩ := Option.map_eq_some_iff.1 h
    obtain ⟨s, _, rfl⟩ := poolStep_eq_some.1 h₁
    rfl
  | timer _ h =>
    unfold timerStep at h
    split at h
    · dsimp only at h
      split at h
      · cases h
        rfl
      · obtain ⟨s, _, rfl⟩ := poolStep_eq_some.1 h
        rfl
    · cases h
  | message _ h =>
    obtain ⟨c, arr, hcan, hreceive, rfl, _⟩ := messageStep_cases h
    refine hone ?_
    rw [Conn.step, if_pos hcan, hreceive]
    rfl
  | done pollin => exact hone (congrArg some (doneStep_conn cfg p pollin).symm)

variable [Fintype κ]

/-- What has happened to the connection tables along a run of the proxy thread. -/
def connHistory (cfg : ProxyConfig κ) (timers : Timers) (es : List Event) : List ConnEvent :=
  Transition.eventsOf (step cfg) (connEvents cfg) (start cfg timers) es

/-- **The loop refines the connection tables.**  Along every run of the proxy thread the tables go
through a run of their own. -/
theorem run_connHistory {timers : Timers} {es : List Event}
    (hrun : Transition.run (step cfg) (start cfg timers) es = some p) :
    Transition.run (Conn.step cfg.commands) Conn.start (connHistory cfg timers es) =
      some p.conn := by
  have hsim : Transition.Simulates (fun (p : Proxy κ) c => p.conn = c) (step cfg)
      (Conn.step cfg.commands) (connEvents cfg) := by
    rintro p _ e p' rfl h
    exact ⟨p'.conn, step_conn h, rfl⟩
  obtain ⟨c, hc, rfl⟩ := hsim.run rfl hrun
  exact hc

end Proxy

end OxenMQ
