import OxenMQ.Connections.Spec
import OxenMQ.Proxy.Tables
import OxenMQ.Workers.Books

/-!
# What a step of the proxy thread does to the worker pool

For the worker pool it matters in which phase of the loop something happens.  `Proxy.Move` lists
what can happen to the pool in which phase, and `Proxy.step_move` says that there is nothing else.
-/

set_option autoImplicit false

namespace OxenMQ

open Control

namespace Proxy

variable {κ : Type} [DecidableEq κ] {cfg : ProxyConfig κ} {p p' : Proxy κ}

/-- Has the next poll to be skipped? -/
def skip (p : Proxy κ) : Bool := p.conn.proxySkipOnePoll

/-- The command or the injected task that an event brings in, if any. -/
def received (cfg : ProxyConfig κ) (p : Proxy κ) : Event → Option (PendingCommand κ)
  | .control _ call =>
    match call.emit cfg.commands cfg.ephemeralRoutingId with
    | .ok (some (.inject task)) => some (.injected task)
    | _ => none
  | .message env immediate connId m =>
    match p.conn.receive cfg.commands env immediate connId (p.isRouter connId) m with
    | .ok (_, some a) => some (.command a)
    | _ => none
  | _ => none

/-- What can happen to the pool, and in which phase of the loop; `r` is the command or the task that
comes in. -/
inductive Move (cfg : ProxyConfig κ) : Option (PendingCommand κ) → Proxy κ → Proxy κ → Prop
  /-- Nothing happens to the pool. -/
  | quiet {p p' : Proxy κ} (hphase : p'.phase = p.phase) (hsys : p'.sys = p.sys)
      (hskip : p'.skip = p.skip) : Move cfg none p p'
  /-- A worker does something. -/
  | thread {p p' : Proxy κ} (e : PoolEvent κ)
      (he : (∃ w, e = .receive w) ∨ ∃ w left r, e = .finish w left r)
      (hphase : p'.phase = p.phase) (hsys : Sys.step cfg.pool p.sys e = some p'.sys)
      (hskip : p'.skip = p.skip) : Move cfg none p p'
  | begin {p p' : Proxy κ} (hphase : p.phase = .poll) (hphase' : p'.phase = .control)
      (hsys : p'.sys = p.sys) : Move cfg none p p'
  /-- From the control messages on, phase by phase, to the queue. -/
  | next {p p' : Proxy κ} (hphase' : p'.phase = .workers ∨ p'.phase = .timers ∨ p'.phase = .zap ∨
        p'.phase = .queue) (hsys : p'.sys = p.sys) : Move cfg none p p'
  /-- A control message or a timer that has to do with neither commands nor workers. -/
  | jobs {p p' : Proxy κ} (es : List (PoolEvent κ))
      (hes : ∀ e ∈ es, (∃ spec, e = .submit spec) ∨ ∃ f, e = .replyJob f)
      (hphase : p.phase = .control ∨ p.phase = .timers) (hphase' : p'.phase = p.phase)
      (hsys : Transition.run (Sys.step cfg.pool) p.sys es = some p'.sys) : Move cfg none p p'
  | inject {p p' : Proxy κ} (task : InjectedTask κ) (hphase : p.phase = .control)
      (hphase' : p'.phase = .control)
      (hsys : Sys.step cfg.pool p.sys (.inject task) = some p'.sys) :
      Move cfg (some (.injected task)) p p'
  | quit {p p' : Proxy κ} (hphase' : p'.phase = .control)
      (hsys : Sys.step cfg.pool p.sys .quit = some p'.sys) : Move cfg none p p'
  | worker {p p' : Proxy κ} (w : Worker) (hphase' : p'.phase = .workers)
      (hsys : Sys.step cfg.pool p.sys (.workerMessage w) = some p'.sys) : Move cfg none p p'
  | processQueue {p p' : Proxy κ} (hphase' : p'.phase = .incoming false)
      (hsys : Sys.step cfg.pool p.sys .processQueue = some p'.sys) : Move cfg none p p'
  /-- A message that does not invoke a command.  A reply job makes the loop skip the next poll. -/
  | builtin {p p' : Proxy κ} (es : List (PoolEvent κ)) (hes : ∀ e ∈ es, ∃ f, e = .replyJob f)
      (hphase : p.phase = .incoming false) (hphase' : ∃ stale, p'.phase = .incoming stale)
      (hsys : Transition.run (Sys.step cfg.pool) p.sys es = some p'.sys)
      (hskip : p'.skip = true ∨ es = [] ∧ p'.skip = p.skip) : Move cfg none p p'
  | command {p p' : Proxy κ} (a : Arrival κ) (htag : a.callback.isRequest = true → a.dataParts ≠ [])
      (hphase : p.phase = .incoming false) (hphase' : ∃ stale, p'.phase = .incoming stale)
      (hsys : Sys.step cfg.pool p.sys (.command a) = some p'.sys)
      (hskip : p'.skip = p.skip) : Move cfg (some (.command a)) p p'
  | done {p p' : Proxy κ} (hphase : ∃ stale, p.phase = .incoming stale) (hphase' : p'.phase = .poll)
      (hsys : p'.sys = p.sys) (hskip : p'.skip = true ∨ p'.skip = p.skip) : Move cfg none p p'
  | stop {p p' : Proxy κ} (hsys : Sys.step cfg.pool p.sys .stop = some p'.sys) : Move cfg none p p'

end Proxy

namespace Conn

variable {κ : Type} {c c' : Conn}

/-- No job is scheduled, or the loop skips the next poll. -/
def Skips (c c' : Conn) : Prop :=
  c'.proxySkipOnePoll = true ∨
    c'.scheduled = c.scheduled ∧ c'.proxySkipOnePoll = c.proxySkipOnePoll

theorem answerRequest_skips (c : Conn) (tag : String) (success : Bool) (data : List String) :
    c.Skips (c.answerRequest tag success data) := by
  unfold answerRequest
  split
  · exact Or.inl rfl
  · exact Or.inr ⟨rfl, rfl⟩

theorem proxyHandleBuiltin_skips {connId : ℤ} {router handled : Bool} {parts : List String}
    (h : c.proxyHandleBuiltin connId router parts = .ok (c', handled)) : c.Skips c' := by
  rcases proxyHandleBuiltin_cases h with ⟨_, rfl | ⟨wire, rfl⟩ | ⟨_, _, rfl⟩ | ⟨_, _, rfl⟩ |
    ⟨_, _, rfl⟩ | ⟨_, rfl⟩⟩ | ⟨_, rfl⟩
  · exact Or.inr ⟨rfl, rfl⟩
  · exact Or.inr ⟨rfl, rfl⟩
  · rcases handleReply_cases c router _ with hsame | ⟨_, _, hanswer⟩
    · rw [hsame]
      exact Or.inr ⟨rfl, rfl⟩
    · rw [hanswer]
      exact answerRequest_skips _ _ _ _
  · rcases handleHello_cases c connId with hsame | ⟨_, _, _, _, _, hdone⟩
    · rw [hsame]
      exact Or.inr ⟨rfl, rfl⟩
    · rw [hdone]
      exact Or.inl rfl
  · exact Or.inr ⟨rfl, rfl⟩
  · rcases handleErrorResponse_cases c router _ _ with hsame | ⟨_, hanswer⟩
    · rw [hsame]
      exact Or.inr ⟨rfl, rfl⟩
    · rw [hanswer]
      exact answerRequest_skips _ _ _ _
  · exact Or.inr ⟨rfl, rfl⟩

/-- Looking up the sender of a message schedules nothing. -/
theorem findPeer_scheduled {cfg : Config κ} {pos : ℕ} {connId : ℤ} {router : Bool} {m : Incoming}
    {found : Option (PeerInfo × String)}
    (h : findPeer cfg c pos connId router m = .ok (c', found)) :
    c'.scheduled = c.scheduled ∧ c'.proxySkipOnePoll = c.proxySkipOnePoll := by
  rcases findPeer_cases h with rfl | ⟨_, _, _, rfl⟩ | ⟨_, k, p, _, _, _, rfl⟩
  · exact ⟨rfl, rfl⟩
  · exact ⟨rfl, rfl⟩
  · exact ⟨rfl, rfl⟩

/-- A message that invokes a command schedules nothing. -/
theorem receive_scheduled {cfg : Config κ} {env : Env} {immediate : Bool} {connId : ℤ}
    {router : Bool} {m : Incoming} {arr : Option (Arrival κ)}
    (h : receive cfg c env immediate connId router m = .ok (c', arr)) :
    arr = none ∧ c.Skips c' ∨
      c'.scheduled = c.scheduled ∧ c'.proxySkipOnePoll = c.proxySkipOnePoll := by
  rcases receive_cases h with ⟨hb, harr⟩ | ⟨_, c₁, harrival, hc'⟩
  · exact Or.inl ⟨harr, proxyHandleBuiltin_skips hb⟩
  · obtain ⟨c₂, found, wire, hfind, rfl⟩ := arrival_cases harrival
    have hsame := findPeer_scheduled hfind
    rcases hc' with rfl | rfl <;> exact Or.inr hsame

/-- A command that is a request has a reply tag. -/
theorem receive_tag {cfg : Config κ} {env : Env} {immediate : Bool} {connId : ℤ} {router : Bool}
    {m : Incoming} {a : Arrival κ}
    (h : receive cfg c env immediate connId router m = .ok (c', some a)) :
    a.callback.isRequest = true → a.dataParts ≠ [] := by
  intro hrequest hnil
  rcases receive_cases h with ⟨_, harr⟩ | ⟨_, c₁, harrival, _⟩
  · cases harr
  · obtain ⟨peer, route, _, hpass, _⟩ := arrival_some harrival
    exact (Config.rejection_eq_none.1 hpass).2.2.2 hrequest hnil

end Conn

namespace Sys

variable {κ : Type} [DecidableEq κ] {cfg : PoolConfig κ}

/-- The reply jobs as events of the pool. -/
theorem run_replyJobs (fs : List Callback) {s : Sys κ} (hrunning : s.stopped = false) :
    Transition.run (Sys.step cfg) s (fs.map .replyJob) =
      some (fs.foldl proxyScheduleReplyJob s) := by
  induction fs generalizing s with
  | nil => rfl
  | cons f fs ih =>
    rw [List.map_cons, Transition.run, Sys.step, hrunning, if_neg Bool.false_ne_true,
      Option.bind_some, List.foldl_cons]
    exact ih hrunning

theorem step_submit {s : Sys κ} {spec : BatchSpec} (hrunning : s.stopped = false)
    (hvalid : spec.valid cfg = true) : Sys.step cfg s (.submit spec) = some (s.submit spec) := by
  rw [Sys.step, hrunning, if_neg Bool.false_ne_true]
  exact if_pos hvalid

end Sys

namespace Proxy

variable {κ : Type} {cfg : ProxyConfig κ} {p p' : Proxy κ}

/-- The reply jobs that a handler of the connection tables has scheduled. -/
def replyEvents (cfg : ProxyConfig κ) (p : Proxy κ) (c : Conn) : List (PoolEvent κ) :=
  (((c.scheduled.drop p.conn.scheduled.length).filter fun j => j.viaReply).map
    fun j => cfg.close j.body).map .replyJob

theorem exists_of_mem_replyEvents {c : Conn} {e : PoolEvent κ} (h : e ∈ p.replyEvents cfg c) :
    ∃ f, e = .replyJob f := by
  obtain ⟨f, _, rfl⟩ := List.mem_map.1 h
  exact ⟨f, rfl⟩

/-- The jobs that the proxy is given are for threads of this instance. -/
theorem valid_of_emit_batch {env : ControlEnv} {call : Call} {spec : BatchSpec}
    (hvalid : p.validCall cfg env call = true)
    (hemit : call.emit cfg.commands cfg.ephemeralRoutingId = .ok (some (.batch spec))) :
    spec.valid cfg.pool = true := by
  rcases from_of_emit hemit with rfl | ⟨f, thread, rfl, hne, rfl⟩
  · exact hvalid
  · cases thread with
    | none => simp [BatchSpec.valid]
    | some t =>
      have ht : -1 ≤ t ∧ t ≤ (cfg.pool.taggedThreads : ℤ) := by
        simpa [validCall] using hvalid
      have hne' : t ≠ -1 := fun heq => hne (congrArg some heq)
      have hpos : 0 ≤ t := by omega
      simp [BatchSpec.valid, hpos, ht.2]

theorem maxWorkers_of_emit_quit {env : ControlEnv} {call : Call}
    (hvalid : p.validCall cfg env call = true)
    (hemit : call.emit cfg.commands cfg.ephemeralRoutingId = .ok (some .quit)) :
    p.sys.pool.maxWorkers ≠ 0 := by
  obtain rfl : call = .quit := from_of_emit hemit
  exact of_decide_eq_true hvalid

variable [DecidableEq κ]

theorem run_replyEvents (hrunning : p.sys.stopped = false) (c : Conn) :
    Transition.run (Sys.step cfg.pool) p.sys (p.replyEvents cfg c) =
      some (p.withConn cfg c).sys := Sys.run_replyJobs _ hrunning

/-- A handler of the connection tables, as far as the pool is concerned. -/
theorem Move.withConn (hrunning : p.sys.stopped = false)
    (hphase : p.phase = .control ∨ p.phase = .timers) (c : Conn) :
    Move cfg none p (p.withConn cfg c) :=
  .jobs (p.replyEvents cfg c) (fun _ he => Or.inr (exists_of_mem_replyEvents he)) hphase rfl
    (run_replyEvents hrunning c)

/-- A control message, as far as the pool is concerned. -/
theorem proxyControlMessage_move {env : ControlEnv} {call : Call} {message : ControlMessage κ}
    (hrunning : p.sys.stopped = false) (hphase : p.phase = .control)
    (hvalid : p.validCall cfg env call = true)
    (hemit : call.emit cfg.commands cfg.ephemeralRoutingId = .ok (some message))
    (h : p.proxyControlMessage cfg env message = .ok p') :
    Move cfg (received cfg p (.control env call)) p p' := by
  rw [received, hemit]
  cases controls_of_ok h with
  | tables hmessage c =>
    cases message with
    | batch | inject | timer | timerDel | quit => cases hmessage
    | _ => exact .withConn hrunning (Or.inl hphase) c
  | timer | timerDel => exact .quiet rfl rfl rfl
  | batch spec =>
    have hspec := valid_of_emit_batch hvalid hemit
    refine .jobs [.submit spec] ?_ (Or.inl hphase) rfl ?_
    · exact fun e he => Or.inl ⟨spec, List.mem_singleton.1 he⟩
    · rw [Transition.run, Sys.step_submit hrunning hspec]
      rfl
  | inject task =>
    refine .inject task hphase hphase ?_
    rw [Sys.step, hrunning]
    rfl
  | quit =>
    refine .quit hphase ?_
    rw [Sys.step, hrunning]
    exact if_neg (maxWorkers_of_emit_quit hvalid hemit)

/-- A message on a connection, as far as the pool is concerned. -/
theorem messageStep_move {env : Env} {immediate : Bool} {connId : ℤ} {m : Incoming}
    (hrunning : p.sys.stopped = false) (hphase : p.phase = .incoming false)
    (h : p.messageStep cfg env immediate connId m = some p') :
    Move cfg (received cfg p (.message env immediate connId m)) p p' := by
  obtain ⟨c, arr, _, hreceive, rfl, hphase', hsys⟩ := messageStep_cases h
  rw [received, hreceive]
  rcases hsys with ⟨rfl, hsys⟩ | ⟨a, rfl, hsys⟩
  · refine .builtin (p.replyEvents cfg p'.conn) (fun e => exists_of_mem_replyEvents) hphase
      ⟨_, hphase'⟩ ?_ ?_
    · rw [hsys]
      exact run_replyEvents hrunning _
    · have hnone : p'.conn.scheduled = p.conn.scheduled → p.replyEvents cfg p'.conn = [] := by
        intro hs
        rw [replyEvents, hs, List.drop_length]
        rfl
      rcases Conn.receive_scheduled hreceive with ⟨_, hskip | ⟨hs, hskip⟩⟩ | ⟨hs, hskip⟩
      · exact Or.inl hskip
      · exact Or.inr ⟨hnone hs, hskip⟩
      · exact Or.inr ⟨hnone hs, hskip⟩
  · rcases Conn.receive_scheduled hreceive with ⟨hnone, _⟩ | ⟨hs, hskip⟩
    · cases hnone
    · refine .command a (Conn.receive_tag hreceive) hphase ⟨_, hphase'⟩ ?_ hskip
      rw [← hsys, withConn, hs, List.drop_length]
      rfl

/-- **There is nothing else that can happen to the pool.** -/
theorem step_move {e : Event} (h : step cfg p e = some p') : Move cfg (received cfg p e) p p' := by
  obtain ⟨hrunning, hdoes⟩ := step_does h
  cases hdoes with
  | allocate hc =>
    cases hc
    exact .quiet rfl rfl rfl
  | receive hs => exact .thread _ (Or.inl ⟨_, rfl⟩) rfl hs rfl
  | finish hs => exact .thread _ (Or.inr ⟨_, _, _, rfl⟩) rfl hs rfl
  | begin hphase _ => exact .begin hphase rfl rfl
  | stop hs => exact .stop hs
  | control hphase hvalid hemit h =>
    exact proxyControlMessage_move hrunning hphase hvalid hemit h
  | worker hphase h =>
    obtain ⟨p₁, h₁, rfl⟩ := Option.map_eq_some_iff.1 h
    obtain ⟨s, hs, rfl⟩ := poolStep_eq_some.1 h₁
    exact .worker _ hphase hs
  | timer hphase h =>
    unfold timerStep at h
    split at h
    · dsimp only at h
      split at h
      · cases h
        exact .quiet rfl rfl rfl
      · rename_i spec _
        obtain ⟨s, hs, rfl⟩ := poolStep_eq_some.1 h
        refine .jobs [.submit spec] ?_ (Or.inr hphase) rfl ?_
        · exact fun e he => Or.inl ⟨spec, List.mem_singleton.1 he⟩
        · exact Transition.run_cons_eq_some.2 ⟨s, hs, rfl⟩
    · cases h
  | cleanup hphase _ => exact .withConn hrunning (Or.inr hphase) _
  | next hnext =>
    refine .next ?_ rfl
    cases hphase : p.phase <;> rw [hphase] at hnext <;> cases hnext <;> simp
  | processQueue hs => exact .processQueue rfl hs
  | message hphase h => exact messageStep_move hrunning hphase h
  | done pollin hphase =>
    refine .done ⟨_, hphase⟩ rfl rfl ?_
    rw [skip, doneStep]
    dsimp only
    split
    · exact Or.inl rfl
    · exact Or.inr rfl

/-- A program without commands, with one general worker. -/
def smallProxy : ProxyConfig Unit where
  commands := Conn.bareConfig
  pool := Sys.smallConfig
  close _ := 0

end Proxy

end OxenMQ
