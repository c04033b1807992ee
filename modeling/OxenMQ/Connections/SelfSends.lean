import OxenMQ.Connections.Unsent
import OxenMQ.Lib.BoundedQueue

/-!
# The proxy thread and its own command queue

`job()` sends a message to the control socket, and waits if the queue of the socket is full.  The
one who takes the messages out is the proxy thread, and not while it is in one of its handlers.  So
when a handler calls `job()` and the queue is full, it waits for itself.

Each thread has a socket of its own for sending to the control socket, with a queue of its own.  The
one of the proxy thread is the `command` of a `Reader`, and can be any `BoundedQueue`: nothing but
the laws of that structure is assumed of it.  Its capacity is given by limits of `zmq` that the
program leaves as they are; here it is any number `cap`.  `Reader.handle` calls a handler of the
connection tables with a `job()` that has to wait as soon as the credit of the queue is used up.

* `Conn.step_limit`: such a handler returns if it would have returned without the limit, and all its
  jobs are within it.  A send has the jobs that go with its end; the cleanup has one for each
  attempt to connect and for each request that has run out of time, however many there are.
* `Reader.completes_iff`: so there has to be room for all of them.
* `Reader.asks_block`: whatever the capacity, a remote that does not answer makes the proxy thread
  wait for itself.
-/

set_option autoImplicit false

namespace OxenMQ

open Conn

variable {κ : Type} {cap : ℕ}

/-! ## A limit for `job()` -/

/-- From job number `limit` on, `job()` has to wait. -/
def Env.limit (env : Env) (limit : ℕ) : Env :=
  { env with job := fun n => if n < limit then env.job n else .blocked }

/-- Jobs are taken under a limit if they would be taken without it, and are within it. -/
theorem Env.takes_limit {env : Env} {n k : ℕ} {js : List Closure} :
    (env.limit (n + k)).Takes n js ↔ env.Takes n js ∧ js.length ≤ k := by
  constructor
  · intro h
    have hwithin : ∀ i < js.length, i < k ∧ env.job (n + i) = .scheduled := by
      intro i hi
      have hjob := h i hi
      dsimp only [limit] at hjob
      split at hjob
      · exact ⟨by omega, hjob⟩
      · cases hjob
    refine ⟨fun i hi => (hwithin i hi).2, ?_⟩
    by_contra hlong
    exact Nat.lt_irrefl k (hwithin k (by omega)).1
  · rintro ⟨h, hle⟩ i hi
    dsimp only [limit]
    rw [if_pos (by omega)]
    exact h i hi

namespace Conn

variable {c c' : Conn} {env : Env} {r : SendRequest}

/-! ### Sending -/

/-- The loop of `proxy_send` does not call `job()`. -/
theorem sendLoop_limit (limit fuel n : ℕ) (conn : ConnectionID) (c : Conn) :
    sendLoop (env.limit limit) r fuel n conn c = sendLoop env r fuel n conn c := by
  induction fuel generalizing n conn c with
  | zero => rfl
  | succ fuel ih =>
    simp only [sendLoop, ih]
    rfl

/-- The jobs of a send, if its loop ends. -/
def sendJobs (c : Conn) (env : Env) (r : SendRequest) : List Closure :=
  match sendLoop env r (c.peers.length + 2) 0 r.conn c with
  | .ok (_, turn) => turn.jobs r
  | .error _ => []

theorem sendJobs_eq {turn : Turn}
    (hloop : sendLoop env r (c.peers.length + 2) 0 r.conn c = .ok (c', turn)) :
    c.sendJobs env r = turn.jobs r := by
  rw [sendJobs, hloop]

theorem proxySend_limit {k : ℕ} :
    c.proxySend (env.limit (c.scheduled.length + k)) r = .ok c' ↔
      c.proxySend env r = .ok c' ∧ (c.sendJobs env r).length ≤ k := by
  rw [proxySend_eq, proxySend_eq, sendLoop_limit]
  cases hloop : sendLoop env r (c.peers.length + 2) 0 r.conn c with
  | error a => exact ⟨nofun, fun h => nomatch h.1⟩
  | ok p =>
    obtain ⟨c₁, turn⟩ := p
    rw [sendJobs_eq hloop]
    simp only [Except.ok_bind, Except.bind_eq_ok, jobAll_ok, sendLoop_scheduled hloop,
      Env.takes_limit]
    constructor
    · rintro ⟨c₂, ⟨⟨htakes, hle⟩, rfl⟩, h⟩
      exact ⟨⟨_, ⟨htakes, rfl⟩, h⟩, hle⟩
    · rintro ⟨⟨c₂, ⟨htakes, rfl⟩, h⟩, hle⟩
      exact ⟨_, ⟨⟨htakes, hle⟩, rfl⟩, h⟩

/-! ### The cleanup -/

/-- The job for an attempt to connect that has run out of time. -/
def connectJob (pc : PendingConnect) : Closure :=
  .connectFailure pc.onFailure (.ofId pc.connId) "connection attempt timed out"

/-- The job for a request that has run out of time. -/
def requestJob (e : Sigma fun _ : String => PendingRequest) : Closure :=
  .reply e.1 e.2.callback false ["TIMEOUT"]

/-- The jobs of a cleanup. -/
def cleanupJobs (c : Conn) (now : ℤ) : List Closure :=
  (c.pendingConnects.filter fun pc => decide (pc.deadline < now)).map connectJob ++
    (c.pendingRequests.entries.filter fun e => decide (e.2.deadline < now)).map requestJob

theorem job_takes {body : Closure} :
    c.job env body = .ok c' ↔
      env.job c.scheduled.length = .scheduled ∧ c.job {} body = .ok c' := by
  rw [job_ok, job_ok]
  exact ⟨fun ⟨h, hc⟩ => ⟨h, rfl, hc⟩, fun ⟨h, _, hc⟩ => ⟨h, hc⟩⟩

theorem timeOutConnect_takes (c : Conn) (pc : PendingConnect) (c' : Conn) :
    c.timeOutConnect env pc = .ok c' ↔
      env.job c.scheduled.length = .scheduled ∧ c.timeOutConnect {} pc = .ok c' := by
  simp only [timeOutConnect, Except.bind_eq_ok, @job_takes _ _ env]
  exact ⟨fun ⟨c₁, ⟨h, hjob⟩, hrest⟩ => ⟨h, c₁, hjob, hrest⟩,
    fun ⟨h, c₁, hjob, hrest⟩ => ⟨c₁, ⟨h, hjob⟩, hrest⟩⟩

theorem timeOutRequest_takes (c : Conn) (e : Sigma fun _ : String => PendingRequest) (c' : Conn) :
    c.timeOutRequest env e = .ok c' ↔
      env.job c.scheduled.length = .scheduled ∧ c.timeOutRequest {} e = .ok c' := by
  simp only [timeOutRequest, Except.bind_eq_ok, @job_takes _ _ env]
  exact ⟨fun ⟨c₁, ⟨h, hjob⟩, hrest⟩ => ⟨h, c₁, hjob, hrest⟩,
    fun ⟨h, c₁, hjob, hrest⟩ => ⟨c₁, ⟨h, hjob⟩, hrest⟩⟩

section Loops

variable {α : Type} {f g : Conn → α → Except Abort Conn} {body : α → Closure} {as : List α}

/-- A loop whose turns schedule one job each. -/
theorem foldlM_scheduled (hg : ∀ c a c', g c a = .ok c' → c'.scheduled = c.jobbed [body a])
    (h : as.foldlM g c = .ok c') : c'.scheduled = c.jobbed (as.map body) := by
  induction as generalizing c with
  | nil =>
    cases h
    exact (List.append_nil _).symm
  | cons a as ih =>
    rw [List.foldlM_cons] at h
    obtain ⟨c₁, h₁, h⟩ := Except.bind_eq_ok.1 h
    rw [ih h, jobbed_append (hg c a c₁ h₁), List.map_cons, List.singleton_append]

/-- If each turn returns once its job is taken, then the loop does once all of them are. -/
theorem foldlM_takes
    (hf : ∀ c a c', f c a = .ok c' ↔ env.job c.scheduled.length = .scheduled ∧ g c a = .ok c')
    (hg : ∀ c a c', g c a = .ok c' → c'.scheduled = c.jobbed [body a]) :
    as.foldlM f c = .ok c' ↔
      env.Takes c.scheduled.length (as.map body) ∧ as.foldlM g c = .ok c' := by
  induction as generalizing c with
  | nil => exact ⟨fun h => ⟨nofun, h⟩, fun h => h.2⟩
  | cons a as ih =>
    have hlength : ∀ c₁, g c a = .ok c₁ → c₁.scheduled.length = c.scheduled.length + 1 := by
      intro c₁ h₁
      rw [hg c a c₁ h₁, jobbed, List.length_append, List.length_map, List.length_singleton]
    simp only [List.foldlM_cons, Except.bind_eq_ok, List.map_cons, Env.takes_cons, hf, ih]
    constructor
    · rintro ⟨c₁, ⟨hjob, h₁⟩, htakes, h⟩
      rw [hlength c₁ h₁] at htakes
      exact ⟨⟨hjob, htakes⟩, c₁, h₁, h⟩
    · rintro ⟨⟨hjob, htakes⟩, c₁, h₁, h⟩
      rw [← hlength c₁ h₁] at htakes
      exact ⟨c₁, ⟨hjob, h₁⟩, htakes, h⟩

end Loops

theorem timeOutConnect_scheduled (c : Conn) (pc : PendingConnect) (c' : Conn)
    (h : c.timeOutConnect env pc = .ok c') : c'.scheduled = c.jobbed [connectJob pc] := by
  rw [(timeOutConnect_ok h).2]
  rfl

theorem timeOutRequest_scheduled (c : Conn) (e : Sigma fun _ : String => PendingRequest)
    (c' : Conn) (h : c.timeOutRequest env e = .ok c') : c'.scheduled = c.jobbed [requestJob e] := by
  rw [(timeOutRequest_ok h).2]
  rfl

/-- To close connections and to give up attempts to connect leaves the requests as they are. -/
theorem foldlM_timeOutConnect_pendingRequests {late : List PendingConnect}
    (h : late.foldlM (timeOutConnect env) c = .ok c') :
    c'.pendingRequests = c.pendingRequests := by
  refine Except.foldlM_induction
    (P := fun s : Conn => s.pendingRequests = c.pendingRequests) ?_ rfl h
  intro s pc s' hs h
  rw [(timeOutConnect_ok h).2]
  exact hs

/-- **The cleanup calls `job()` for everything that has run out of time**, and does not depend on it
otherwise. -/
theorem proxyConnCleanup_takes {closeLinger : ℤ} :
    c.proxyConnCleanup closeLinger env = .ok c' ↔
      env.Takes c.scheduled.length (c.cleanupJobs env.now) ∧
        c.proxyConnCleanup closeLinger { now := env.now } = .ok c' := by
  unfold proxyConnCleanup
  simp only [Except.bind_eq_ok]
  -- The two loops go through what was pending and late at the start.
  have hjobs : ∀ {env' : Env} {c₁ c₂ : Conn}, c.proxyExpireIdlePeers closeLinger env.now = .ok c₁ →
      (c₁.pendingConnects.filter fun pc => decide (pc.deadline < env.now)).foldlM
        (timeOutConnect env') c₁ = .ok c₂ →
      (env.Takes c.scheduled.length (c.cleanupJobs env.now) ↔
        env.Takes c₁.scheduled.length
            ((c₁.pendingConnects.filter fun pc => decide (pc.deadline < env.now)).map connectJob) ∧
          env.Takes c₂.scheduled.length
            ((c₂.pendingRequests.entries.filter fun e => decide (e.2.deadline < env.now)).map
              requestJob)) := by
    intro env' c₁ c₂ hidle hconnects
    have hscheduled := foldlM_scheduled timeOutConnect_scheduled hconnects
    rw [hscheduled, foldlM_timeOutConnect_pendingRequests hconnects, jobbed, List.length_append,
      List.length_map, proxyExpireIdlePeers_ok hidle, cleanupJobs, Env.takes_append]
    rfl
  constructor
  · rintro ⟨c₁, hidle, c₂, hconnects, hrequests⟩
    obtain ⟨htakes₁, hconnects'⟩ := (foldlM_takes timeOutConnect_takes
      timeOutConnect_scheduled).1 hconnects
    obtain ⟨htakes₂, hrequests'⟩ := (foldlM_takes timeOutRequest_takes
      timeOutRequest_scheduled).1 hrequests
    exact ⟨(hjobs hidle hconnects).2 ⟨htakes₁, htakes₂⟩, c₁, hidle, c₂, hconnects', hrequests'⟩
  · rintro ⟨htakes, c₁, hidle, c₂, hconnects, hrequests⟩
    obtain ⟨htakes₁, htakes₂⟩ := (hjobs hidle hconnects).1 htakes
    exact ⟨c₁, hidle, c₂,
      (foldlM_takes timeOutConnect_takes
        timeOutConnect_scheduled).2 ⟨htakes₁, hconnects⟩,
      (foldlM_takes timeOutRequest_takes
        timeOutRequest_scheduled).2 ⟨htakes₂, hrequests⟩⟩

theorem proxyConnCleanup_scheduled {closeLinger : ℤ}
    (h : c.proxyConnCleanup closeLinger env = .ok c') :
    c'.scheduled = c.jobbed (c.cleanupJobs env.now) := by
  obtain ⟨c₁, c₂, hidle, hconnects, hrequests⟩ := proxyConnCleanup_cases h
  have hscheduled := foldlM_scheduled timeOutConnect_scheduled hconnects
  rw [foldlM_scheduled timeOutRequest_scheduled hrequests, jobbed_append hscheduled,
    foldlM_timeOutConnect_pendingRequests hconnects, proxyExpireIdlePeers_ok hidle]
  rfl

end Conn

/-! ### All the handlers that call `job()` -/

/-- The calls of the handlers that call `job()`. -/
inductive JobCaller where
  | cleanup (env : Env)
  | send (env : Env) (r : SendRequest)

namespace JobCaller

/-- The call as an event of the connection tables. -/
def event : JobCaller → ConnEvent
  | .cleanup env => .cleanup env
  | .send env r => .send env r

/-- The jobs of a call. -/
def jobs (c : Conn) : JobCaller → List Closure
  | .cleanup env => c.cleanupJobs env.now
  | .send env r => c.sendJobs env r

end JobCaller

/-- The event with a limit for `job()`.  The handlers of the other events do not call it. -/
def ConnEvent.limit (limit : ℕ) : ConnEvent → ConnEvent
  | .cleanup env => .cleanup (env.limit limit)
  | .send env r => .send (env.limit limit) r
  | ev => ev

namespace Conn

variable {cfg : Config κ} {c c' : Conn} {h : JobCaller}

/-- **A handler returns under a limit** if it would return without it, and its jobs are within
it. -/
theorem step_limit {k : ℕ} :
    step cfg c (h.event.limit (c.scheduled.length + k)) = some c' ↔
      step cfg c h.event = some c' ∧ (h.jobs c).length ≤ k := by
  cases h with
  | cleanup env =>
    simp only [JobCaller.event, ConnEvent.limit, step, Except.toOption_eq_some, JobCaller.jobs]
    rw [proxyConnCleanup_takes, @proxyConnCleanup_takes _ _ env, Env.takes_limit, and_right_comm]
    rfl
  | send env r =>
    simp only [JobCaller.event, ConnEvent.limit, step, Except.toOption_eq_some, JobCaller.jobs]
    exact proxySend_limit

theorem step_jobCaller_scheduled (hstep : step cfg c h.event = some c') :
    c'.scheduled = c.jobbed (h.jobs c) := by
  cases h with
  | cleanup env => exact proxyConnCleanup_scheduled (Except.toOption_eq_some.1 hstep)
  | send env r =>
    have hsend := Except.toOption_eq_some.1 hstep
    obtain ⟨c₁, turn, _, hloop, -, -⟩ := proxySend_frame hsend
    rw [proxySend_scheduled hloop hsend, JobCaller.jobs, sendJobs_eq hloop]

/-- What has been handed over to `job()` since the tables were `c`. -/
def jobsSince (c c' : Conn) : List Closure :=
  ((c'.scheduled.drop c.scheduled.length).filter fun job => !job.viaReply).map Scheduled.body

theorem jobsSince_eq {js : List Closure} (h : c'.scheduled = c.jobbed js) :
    c.jobsSince c' = js := by
  rw [jobsSince, h, jobbed, List.drop_left, List.filter_eq_self.2 (by simp), List.map_map]
  exact List.map_id js

end Conn

/-! ## The proxy thread and its queue -/

/-- The proxy thread, with what it has sent to itself and not read so far. -/
structure Reader (Q : BoundedQueue Closure cap) where
  conn : Conn
  command : Q.State

namespace Reader

variable {Q : BoundedQueue Closure cap} {cfg : Config κ} {s : Reader Q} {h : JobCaller}

/-- The handler of an event.  `job()` has to wait when the credit of the queue is used up. -/
def handle (cfg : Config κ) (s : Reader Q) (ev : ConnEvent) : Option (Reader Q) := do
  let c ← Conn.step cfg s.conn (ev.limit (s.conn.scheduled.length + Q.free s.command))
  let command ← Q.sendAll s.command (s.conn.jobsSince c)
  return ⟨c, command⟩

/-- What the proxy thread does. -/
inductive Event where
  /-- It reads a message that it has sent to itself. -/
  | read
  | handle (ev : ConnEvent)

/-- The proxy thread reads a message, or handles an event. -/
def step (cfg : Config κ) (s : Reader Q) : Event → Option (Reader Q)
  | .read => (Q.recv s.command).map fun p => { s with command := p.2 }
  | .handle ev => s.handle cfg ev

/-- Nothing is connected, and nothing has been sent. -/
def start : Reader Q := ⟨Conn.start, Q.empty⟩

/-- What is expected of a handler that calls `job()`: it returns, and all the jobs that it schedules
are in the queue. -/
def Completes (cfg : Config κ) (s : Reader Q) (h : JobCaller) : Prop :=
  ∃ s' jobs, s.handle cfg h.event = some s' ∧ s'.conn.scheduled = s.conn.jobbed jobs ∧
    Q.items s'.command = Q.items s.command ++ jobs

/-- **A handler that calls `job()` returns exactly if it returns when `job()` never has to wait, and
there is room for all its jobs.** -/
theorem completes_iff (cfg : Config κ) (s : Reader Q) (h : JobCaller) :
    s.Completes cfg h ↔
      (∃ c', Conn.step cfg s.conn h.event = some c') ∧
        (h.jobs s.conn).length ≤ Q.free s.command := by
  constructor
  · rintro ⟨s', jobs, hhandle, -, -⟩
    obtain ⟨c', hstep, -⟩ := Option.bind_eq_some_iff.1 hhandle
    obtain ⟨hstep, hroom⟩ := Conn.step_limit.1 hstep
    exact ⟨⟨c', hstep⟩, hroom⟩
  · rintro ⟨⟨c', hstep⟩, hroom⟩
    have hscheduled := Conn.step_jobCaller_scheduled hstep
    obtain ⟨command, hsend⟩ := BoundedQueue.exists_sendAll_iff.2 hroom
    refine ⟨⟨c', command⟩, h.jobs s.conn, ?_, hscheduled, BoundedQueue.items_sendAll hsend⟩
    rw [handle, Conn.step_limit.2 ⟨hstep, hroom⟩, Option.bind_eq_bind, Option.bind_some,
      Conn.jobsSince_eq hscheduled, hsend]
    rfl

/-! ## Too many requests -/

/-- The tag of a request. -/
def tag (n : ℕ) : String := String.ofList (List.replicate n 'x')

@[simp] theorem length_tag (n : ℕ) : (tag n).length = n := by simp [tag]

/-- A request to the remote of connection 2. -/
def ask (n : ℕ) : SendRequest :=
  { conn := .ofId 2, request := some ⟨tag n, 7, 15000⟩, send := ["a.b", tag n] }

/-- We connect to a remote. -/
def connects : List ConnEvent :=
  [.allocate,
    .connectRemote {} { connId := 2, onConnect := 0, onFailure := 1, remote := "tcp://a" }]

/-- We connect to a remote and send it `n` requests. -/
def asks (n : ℕ) : List Event :=
  connects.map .handle ++ (List.range n).map fun i => .handle (.send {} (ask i))

/-- The tables when we have connected. -/
def connected : Conn := (Transition.run (Conn.step bareConfig) Conn.start connects).getD Conn.start

/-- The `n` requests are waiting for their replies. -/
structure Waiting (n : ℕ) (s : Reader Q) : Prop where
  tables : s.conn =
    { connected with wire := s.conn.wire, pendingRequests := s.conn.pendingRequests }
  tags : ∀ t ∈ s.conn.pendingRequests, t.length < n
  length : s.conn.pendingRequests.entries.length = n
  deadline : ∀ e ∈ s.conn.pendingRequests.entries, e.2.deadline = timeAfter 0 15000

theorem Waiting.socket {n : ℕ} (h : s.Waiting n) :
    s.conn.connections.lookup 2 = some (.dealer false) := by
  rw [h.tables]
  rfl

/-- The tables after another request. -/
def asked (c : Conn) (n : ℕ) : Conn :=
  { c with
    wire := c.wire ++ [(2, ["a.b", tag n])]
    pendingRequests := c.pendingRequests.insert (tag n) ⟨timeAfter 0 15000, 7⟩ }

theorem Waiting.sendTarget {n : ℕ} (h : s.Waiting n) :
    s.conn.sendTarget {} (ask n) (.ofId 2) = .ok (s.conn, some (2, .ofId 2)) := by
  have hmem : (2 : ℤ) ∈ s.conn.connections := AList.lookup_isSome.1 (h.socket ▸ rfl)
  obtain ⟨k, peer, rest, hrange, hid⟩ : ∃ k peer rest,
      s.conn.equalRange (.ofId 2) = (k, peer) :: rest ∧ peer.connId = 2 := by
    rw [h.tables]
    exact ⟨_, _, _, rfl, rfl⟩
  rw [Conn.sendTarget, if_neg (by decide), if_neg (by decide), hrange]
  dsimp only
  rw [hid, if_pos hmem]
  rfl

theorem Waiting.sendOn {n : ℕ} (h : s.Waiting n) (wire : List (ℤ × List String)) :
    { s.conn with wire := wire }.sendOn 2 .sent = .sent := by
  rw [Conn.sendOn, if_neg]
  rw [h.socket]
  intro hnull
  cases hnull

/-- The tag is a new one. -/
theorem Waiting.tag_not_mem {n : ℕ} (h : s.Waiting n) : tag n ∉ s.conn.pendingRequests := by
  intro hmem
  have hlt := h.tags (tag n) hmem
  rw [length_tag] at hlt
  exact Nat.lt_irrefl n hlt

theorem Waiting.proxySend {n : ℕ} (h : s.Waiting n) :
    s.conn.proxySend {} (ask n) = .ok (asked s.conn n) ∧ s.conn.sendJobs {} (ask n) = [] := by
  have hturn : Conn.sendTurn {} (ask n) 0 (.ofId 2) s.conn =
      .ok ({ s.conn with wire := s.conn.wire ++ [(2, ["a.b", tag n])] }, .sent 2 "") := by
    rw [Conn.sendTurn, h.sendTarget, Except.ok_bind]
    dsimp only
    rw [h.sendOn]
    rfl
  have hloop : Conn.sendLoop {} (ask n) (s.conn.peers.length + 2) 0 (ask n).conn s.conn =
      .ok ({ s.conn with wire := s.conn.wire ++ [(2, ["a.b", tag n])] }, .sent 2 "") := by
    rw [Conn.sendLoop, show (ask n).conn = .ofId 2 from rfl, hturn, Except.ok_bind]
    rfl
  refine ⟨?_, ?_⟩
  · rw [Conn.proxySend_eq, hloop, Except.ok_bind]
    simp only [Conn.Turn.jobs, Conn.Turn.early, Conn.Turn.unanswered, Conn.Turn.late,
      Conn.Turn.isSent, if_true, Conn.storeRequest, ask, Conn.jobAll]
    rw [List.append_nil, List.append_nil, List.foldlM_nil, pure_bind, if_neg h.tag_not_mem]
    rfl
  · rw [Conn.sendJobs_eq hloop]
    rfl

/-- Another request is sent, and waits. -/
theorem Waiting.next {n : ℕ} (h : s.Waiting n) :
    ∃ s', s.step bareConfig (.handle (.send {} (ask n))) = some s' ∧ s'.Waiting (n + 1) := by
  obtain ⟨hsend, hjobs⟩ := h.proxySend
  refine ⟨⟨asked s.conn n, s.command⟩, ?_, ?_, ?_, ?_, ?_⟩
  · have hstep : Conn.step bareConfig s.conn ((JobCaller.send {} (ask n)).event.limit
        (s.conn.scheduled.length + Q.free s.command)) = some (asked s.conn n) := by
      refine Conn.step_limit.2 ⟨Except.toOption_eq_some.2 hsend, ?_⟩
      rw [JobCaller.jobs, hjobs]
      exact Nat.zero_le _
    have hnone : s.conn.jobsSince (asked s.conn n) = [] :=
      Conn.jobsSince_eq (List.append_nil _).symm
    rw [step, handle, show ConnEvent.send {} (ask n) = (JobCaller.send {} (ask n)).event from rfl,
      hstep, Option.bind_eq_bind, Option.bind_some, hnone]
    rfl
  · exact congrArg (asked · n) h.tables
  · intro t ht
    rcases (AList.mem_insert _).1 ht with rfl | ht
    · rw [length_tag]
      exact Nat.lt_succ_self n
    · exact Nat.lt_succ_of_lt (h.tags t ht)
  · rw [asked, AList.entries_insert_of_notMem h.tag_not_mem, List.length_cons, h.length]
  · intro e he
    rw [asked, AList.entries_insert_of_notMem h.tag_not_mem] at he
    rcases List.mem_cons.1 he with rfl | he
    · rfl
    · exact h.deadline e he

theorem run_asks (Q : BoundedQueue Closure cap) (n : ℕ) : ∃ s : Reader Q,
    Transition.run (step bareConfig) start (asks n) = some s ∧ s.Waiting n := by
  induction n with
  | zero => exact ⟨_, rfl, rfl, nofun, rfl, nofun⟩
  | succ n ih =>
    obtain ⟨s, hrun, hwait⟩ := ih
    obtain ⟨s', hstep, hwait'⟩ := hwait.next
    refine ⟨s', ?_, hwait'⟩
    rw [asks, List.range_succ, List.map_append, ← List.append_assoc]
    exact Transition.run_snoc hrun hstep

/-- Without a limit, requests that have run out of time are all given up. -/
theorem foldlM_timeOutRequest_ok (now : ℤ) (es : List (Sigma fun _ : String => PendingRequest))
    (c : Conn) : ∃ c', es.foldlM (timeOutRequest { now := now }) c = .ok c' := by
  induction es generalizing c with
  | nil => exact ⟨c, rfl⟩
  | cons e es ih => exact ih _

/-- Without a limit, the cleanup would return: nothing is idle, and the attempt to connect and all
the requests are given up. -/
theorem Waiting.cleanup {n : ℕ} (h : s.Waiting n) :
    ∃ c', Conn.step bareConfig s.conn (.cleanup { now := 20000000000 }) = some c' := by
  have hidle : s.conn.proxyExpireIdlePeers bareConfig.closeLinger 20000000000 = .ok s.conn := by
    have hpeers : s.conn.peers = connected.peers := by rw [h.tables]
    have hnone : (connected.peers.filter fun e => e.2.idle 20000000000) = [] := by decide +kernel
    have hall : (connected.peers.filter fun e => !e.2.idle 20000000000) = connected.peers := by
      decide +kernel
    rw [proxyExpireIdlePeers, hpeers, hnone, List.foldlM_nil, pure_bind, hpeers, hall, ← hpeers]
    rfl
  have hlate : (s.conn.pendingConnects.filter fun pc => decide (pc.deadline < 20000000000)) =
      [⟨2, timeAfter 0 10000, 0, 1⟩] := by
    have hpending : s.conn.pendingConnects = connected.pendingConnects := by rw [h.tables]
    rw [hpending]
    decide +kernel
  obtain ⟨c₂, hconnects⟩ : ∃ c₂, s.conn.timeOutConnect { now := 20000000000 }
      ⟨2, timeAfter 0 10000, 0, 1⟩ = .ok c₂ := by
    rw [timeOutConnect, job_ok.2 ⟨rfl, rfl⟩, Except.ok_bind]
    dsimp only
    rw [proxyCloseConnection, h.socket]
    exact ⟨_, rfl⟩
  obtain ⟨c', hrequests⟩ := foldlM_timeOutRequest_ok 20000000000
    (c₂.pendingRequests.entries.filter fun e => decide (e.2.deadline < 20000000000)) c₂
  refine ⟨c', Except.toOption_eq_some.2 ?_⟩
  rw [proxyConnCleanup, hidle, Except.ok_bind, hlate]
  dsimp only
  rw [List.foldlM_cons, hconnects, Except.ok_bind, List.foldlM_nil]
  exact hrequests

/-- **Whatever the queue and its capacity, there are runs in which the proxy thread waits for
itself:** one more request than fits into the queue, and no replies. -/
theorem asks_block (Q : BoundedQueue Closure cap) : ∃ s : Reader Q,
    Transition.run (step bareConfig) start (asks (cap + 1)) = some s ∧
    (∃ c', Conn.step bareConfig s.conn (.cleanup { now := 20000000000 }) = some c') ∧
    ¬ s.Completes bareConfig (.cleanup { now := 20000000000 }) := by
  obtain ⟨s, hrun, hwait⟩ := run_asks Q (cap + 1)
  refine ⟨s, hrun, hwait.cleanup, ?_⟩
  rintro ⟨s', _, hhandle, -, -⟩
  obtain ⟨c', hstep, -⟩ := Option.bind_eq_some_iff.1 hhandle
  have hroom := (Conn.step_limit.1 hstep).2
  have hlate : ∀ e ∈ s.conn.pendingRequests.entries,
      decide (e.2.deadline < 20000000000) = true := by
    intro e he
    rw [hwait.deadline e he]
    decide +kernel
  rw [JobCaller.jobs, Conn.cleanupJobs, List.filter_eq_self.2 hlate, List.length_append,
    List.length_map, List.length_map, hwait.length] at hroom
  have hbound := Q.bounded s.command
  omega

/-- The capacity of the queue between two sockets of a process, if their limits are the default
ones. -/
def defaultCapacity : ℕ := 1000 + 1000

/-- The queue as `libzmq` has it, which gives the credit back when half of the capacity has been
read. -/
def commandQueue : BoundedQueue Closure defaultCapacity :=
  .batched Closure defaultCapacity ((defaultCapacity + 1) / 2)

/-- The proxy thread waits for itself after 2001 requests that are not answered. -/
theorem not_completes_asks : ∃ s : Reader commandQueue,
    Transition.run (step bareConfig) start (asks 2001) = some s ∧
    (∃ c', Conn.step bareConfig s.conn (.cleanup { now := 20000000000 }) = some c') ∧
    ¬ s.Completes bareConfig (.cleanup { now := 20000000000 }) :=
  asks_block commandQueue

end Reader

end OxenMQ
