import OxenMQ.Connections.Termination

/-!
# Who hears of a message that is not sent

A message can come with two callbacks: `queue_failure`, for a queue that is full and for a socket
that throws an exception, and `queue_full`, for a full queue alone.  How the last attempt to send
the message ended decides which of them is due (`Conn.Documented`).

`proxy_send` does not ask.  It calls `queue_failure` at once after an exception.  At its end, if the
message was not sent and `queue_failure` has not been used, it takes that for a full queue and calls
`queue_failure`, or else `queue_full`.  So the first one keeps the second from being called for a
full queue, the second one is called after an exception, and either is called if there never was a
socket.  `Turn.Agrees` lists what is left.

* `Conn.proxySend_eq`: after its loop, `proxy_send` hands over some jobs, which depend on how the
  last turn of the loop ended (`Turn.jobs`), and stores the request if there is one.
* `Conn.proxySend_frame` and `Conn.proxySend_ok_iff`: it returns if the loop does and every call of
  `job()` does.
* `Conn.reports_iff`: the callbacks that are due are scheduled if and only if `proxy_send` returns
  and `Turn.Agrees` holds.
-/

set_option autoImplicit false

namespace OxenMQ

/-- Is this the `queue_full` callback of a message? -/
def Closure.isQueueFull : Closure → Bool
  | .queueFull _ => true
  | _ => false

/-- Is this the `queue_failure` callback of a message? -/
def Closure.isQueueFailure : Closure → Bool
  | .queueFailure _ _ => true
  | _ => false

/-! ## Calls of `job()` -/

/-- The calls of `job()` for these jobs return, the first of them being job number `n`. -/
def Env.Takes (env : Env) (n : ℕ) (js : List Closure) : Prop :=
  ∀ i < js.length, env.job (n + i) = .scheduled

/-- One of the calls throws, and those before return. -/
def Env.Refuses (env : Env) (n : ℕ) (js : List Closure) : Prop :=
  ∃ i < js.length, (∃ what, env.job (n + i) = .error what) ∧ ∀ j < i, env.job (n + j) = .scheduled

theorem Env.takes_cons {env : Env} {n : ℕ} {j : Closure} {js : List Closure} :
    env.Takes n (j :: js) ↔ env.job n = .scheduled ∧ env.Takes (n + 1) js := by
  constructor
  · refine fun h => ⟨h 0 (Nat.succ_pos _), fun i hi => ?_⟩
    rw [Nat.add_right_comm]
    exact h (i + 1) (Nat.succ_lt_succ hi)
  · rintro ⟨hj, hjs⟩ i hi
    cases i with
    | zero => exact hj
    | succ i =>
      rw [← Nat.add_assoc, Nat.add_right_comm]
      exact hjs i (Nat.lt_of_succ_lt_succ hi)

theorem Env.takes_append {env : Env} {n : ℕ} {js ks : List Closure} :
    env.Takes n (js ++ ks) ↔ env.Takes n js ∧ env.Takes (n + js.length) ks := by
  induction js generalizing n with
  | nil => simp [Takes]
  | cons j js ih =>
    rw [List.cons_append, takes_cons, takes_cons, ih, and_assoc, List.length_cons,
      Nat.add_right_comm, Nat.add_assoc]

theorem Env.refuses_cons {env : Env} {n : ℕ} {j : Closure} {js : List Closure} :
    env.Refuses n (j :: js) ↔
      (∃ what, env.job n = .error what) ∨ (env.job n = .scheduled ∧ env.Refuses (n + 1) js) := by
  constructor
  · rintro ⟨i, hi, hwhat, hbefore⟩
    cases i with
    | zero => exact Or.inl hwhat
    | succ i =>
      refine Or.inr ⟨hbefore 0 (Nat.succ_pos _), i, Nat.lt_of_succ_lt_succ hi, ?_, fun k hk => ?_⟩
      · rw [Nat.add_right_comm]
        exact hwhat
      · rw [Nat.add_right_comm]
        exact hbefore (k + 1) (Nat.succ_lt_succ hk)
  · rintro (hwhat | ⟨hj, i, hi, hwhat, hbefore⟩)
    · exact ⟨0, Nat.succ_pos _, hwhat, nofun⟩
    · refine ⟨i + 1, Nat.succ_lt_succ hi, ?_, fun k hk => ?_⟩
      · rw [← Nat.add_assoc, Nat.add_right_comm]
        exact hwhat
      · cases k with
        | zero => exact hj
        | succ k =>
          rw [← Nat.add_assoc, Nat.add_right_comm]
          exact hbefore k (Nat.lt_of_succ_lt_succ hk)

namespace Conn

variable {c c' : Conn} {env : Env} {r : SendRequest} {conn : ConnectionID} {n : ℕ}

/-- What is scheduled when these jobs have been handed over to `job()`. -/
def jobbed (c : Conn) (jobs : List Closure) : List Scheduled :=
  c.scheduled ++ jobs.map fun body => ⟨body, false⟩

theorem jobbed_append {js ks : List Closure} (h : c'.scheduled = c.jobbed js) :
    c'.jobbed ks = c.jobbed (js ++ ks) := by
  rw [jobbed, h, jobbed, jobbed, List.map_append, List.append_assoc]

theorem jobbed_inj {js ks : List Closure} : c.jobbed js = c.jobbed ks ↔ js = ks := by
  have hinj : Function.Injective fun body : Closure => (⟨body, false⟩ : Scheduled) :=
    fun _ _ h => congrArg Scheduled.body h
  rw [jobbed, jobbed, List.append_cancel_left_eq, (List.map_injective_iff.2 hinj).eq_iff]

/-- Hand over several jobs, one after the other. -/
def jobAll (c : Conn) (env : Env) (jobs : List Closure) : Except Abort Conn :=
  jobs.foldlM (fun c body => c.job env body) c

theorem jobAll_append (js ks : List Closure) :
    c.jobAll env (js ++ ks) = c.jobAll env js >>= fun c => c.jobAll env ks :=
  List.foldlM_append ..

/-- **Jobs are handed over if every call of `job()` returns.** -/
theorem jobAll_ok {js : List Closure} : c.jobAll env js = .ok c' ↔
    env.Takes c.scheduled.length js ∧ c' = { c with scheduled := c.jobbed js } := by
  induction js generalizing c with
  | nil =>
    have htakes : env.Takes c.scheduled.length [] := nofun
    simp [jobAll, jobbed, htakes, pure, Except.pure, eq_comm]
  | cons j js ih =>
    rw [jobAll, List.foldlM_cons, Except.bind_eq_ok, Env.takes_cons]
    constructor
    · rintro ⟨c₁, hjob, hrest⟩
      obtain ⟨hj, rfl⟩ := job_ok.1 hjob
      obtain ⟨hjs, rfl⟩ := ih.1 hrest
      rw [List.length_append, List.length_singleton] at hjs
      refine ⟨⟨hj, hjs⟩, ?_⟩
      simp [jobbed]
    · rintro ⟨⟨hj, hjs⟩, rfl⟩
      refine ⟨_, job_ok.2 ⟨hj, rfl⟩, ih.2 ⟨?_, ?_⟩⟩
      · rw [List.length_append, List.length_singleton]
        exact hjs
      · simp [jobbed]

theorem throws_job {body : Closure} :
    Throws (c.job env body) ↔ ∃ what, env.job c.scheduled.length = .error what := by
  unfold job
  cases env.job c.scheduled.length with
  | scheduled => exact iff_of_false (not_throws_ok _) (by simp)
  | error what => exact iff_of_true ⟨what, rfl⟩ ⟨what, rfl⟩
  | blocked => exact iff_of_false (fun ⟨_, h⟩ => by cases h) (by simp)

theorem throws_jobAll {js : List Closure} :
    Throws (c.jobAll env js) ↔ env.Refuses c.scheduled.length js := by
  induction js generalizing c with
  | nil => exact iff_of_false (not_throws_ok _) fun ⟨_, h, _⟩ => absurd h (Nat.not_lt_zero _)
  | cons j js ih =>
    rw [jobAll, List.foldlM_cons, throws_bind, throws_job, Env.refuses_cons]
    refine or_congr_right ⟨?_, ?_⟩
    · rintro ⟨c₁, hjob, hrest⟩
      obtain ⟨hj, rfl⟩ := job_ok.1 hjob
      have hrefuses := ih.1 hrest
      rw [List.length_append, List.length_singleton] at hrefuses
      exact ⟨hj, hrefuses⟩
    · rintro ⟨hj, hrest⟩
      refine ⟨_, job_ok.2 ⟨hj, rfl⟩, ih.2 ?_⟩
      rw [List.length_append, List.length_singleton]
      exact hrest

/-! ## What is scheduled -/

namespace Turn

variable (r : SendRequest)

/-- The job of the exception handler. -/
def early : Turn → List Closure
  | .failed what => (r.sendFail.map fun callback => .queueFailure callback (some what)).toList
  | _ => []

/-- The job for the request that the message was. -/
def unanswered : Turn → List Closure
  | .sent _ _ => []
  | _ => (r.request.map fun q => .reply q.tag q.callback false ["TIMEOUT"]).toList

/-- The job at the end of `proxy_send`. -/
def late : Turn → List Closure
  | .sent _ _ => []
  | .failed _ => (r.sendFullQ.map .queueFull).toList
  | _ =>
    match r.sendFail, r.sendFullQ with
    | some callback, _ => [.queueFailure callback none]
    | none, some callback => [.queueFull callback]
    | none, none => []

/-- What `proxy_send` schedules after a loop that ends like this. -/
def jobs (turn : Turn) : List Closure := turn.early r ++ turn.unanswered r ++ turn.late r

/-- The failure callback, if the exception handler has not used it. -/
def unused : Turn → Option Callback
  | .failed _ => none
  | _ => r.sendFail

end Turn

/-- The request of a message that has been sent waits for its reply. -/
def storeRequest (c : Conn) (env : Env) : Option Request → Conn
  | none => c
  | some q =>
    if q.tag ∈ c.pendingRequests then c
    else { c with pendingRequests :=
      c.pendingRequests.insert q.tag ⟨timeAfter env.now q.timeout, q.callback⟩ }

theorem reportFailure_eq (c : Conn) (env : Env) (r : SendRequest) (turn : Turn) :
    c.reportFailure env r.sendFail turn =
      c.jobAll env (turn.early r) >>= fun c => pure (c, turn.unused r) := by
  cases turn with
  | failed what =>
      cases hfail : r.sendFail <;> simp [reportFailure, jobAll, Turn.early, Turn.unused, hfail]
  | noSocket | sent | full | again => rfl

theorem recordRequest_eq (c : Conn) (env : Env) (r : SendRequest) (turn : Turn) :
    c.recordRequest env turn.isSent r.request =
      c.jobAll env (turn.unanswered r) >>= fun c =>
        pure (if turn.isSent then c.storeRequest env r.request else c) := by
  cases turn with
  | sent id route =>
    cases hq : r.request with
    | none => rfl
    | some q =>
      by_cases hmem : q.tag ∈ c.pendingRequests <;>
        simp [recordRequest, Turn.isSent, Turn.unanswered, storeRequest, jobAll, hmem]
  | noSocket | full | failed | again =>
    cases hq : r.request <;> simp [recordRequest, Turn.isSent, jobAll, Turn.unanswered, hq]

theorem reportUnsent_eq (c : Conn) (env : Env) (r : SendRequest) (turn : Turn) :
    (if turn.isSent then pure c else c.reportUnsent env (turn.unused r) r.sendFullQ) =
      c.jobAll env (turn.late r) := by
  cases turn with
  | sent => rfl
  | failed what =>
    cases hfull : r.sendFullQ <;>
      simp [Turn.isSent, Turn.late, Turn.unused, reportUnsent, jobAll, hfull]
  | noSocket | full | again =>
    cases hfail : r.sendFail <;> cases hfull : r.sendFullQ <;>
      simp [Turn.isSent, Turn.late, Turn.unused, reportUnsent, jobAll, hfail, hfull]

/-- **After the loop, `proxy_send` hands over the jobs that go with its end.** -/
theorem proxySend_eq (c : Conn) (env : Env) (r : SendRequest) :
    c.proxySend env r = sendLoop env r (c.peers.length + 2) 0 r.conn c >>= fun p =>
      p.1.jobAll env (p.2.jobs r) >>= fun c =>
        pure (if p.2.isSent then c.storeRequest env r.request else c) := by
  unfold proxySend
  refine congrArg _ (funext fun ⟨c₁, turn⟩ => ?_)
  dsimp only
  rw [reportFailure_eq, Turn.jobs, List.append_assoc]
  simp only [jobAll_append, bind_assoc, pure_bind, recordRequest_eq]
  refine congrArg _ (funext fun c₂ => congrArg _ (funext fun c₃ => ?_))
  rw [reportUnsent_eq]
  cases turn with
  | sent id route =>
    simp only [Turn.isSent, if_true, Turn.late]
    rfl
  | noSocket | full | failed | again => simp [Turn.isSent]

/-- The loop itself schedules nothing. -/
theorem sendLoop_scheduled {fuel : ℕ} {turn : Turn}
    (h : sendLoop env r fuel n conn c = .ok (c', turn)) : c'.scheduled = c.scheduled := by
  have hturn : ∀ {n conn s s' turn}, sendTurn env r n conn s = .ok (s', turn) →
      s'.scheduled = s.scheduled := by
    intro n conn s s' turn hturn
    obtain ⟨s₁, target, htarget, hcases⟩ := sendTurn_cases hturn
    have hsame := (sendTarget_frame htarget).2
    rcases hcases with ⟨_, rfl, _⟩ | ⟨_, _, _, ⟨rfl, _⟩ | ⟨_, _, _, _, herror, _⟩⟩
    · exact hsame
    · exact hsame
    · exact (handleSendError_frame herror).2.trans hsame
  refine sendLoop_rule (P := fun _ _ s => s.scheduled = c.scheduled)
    (Q := fun s _ => s.scheduled = c.scheduled) ?_ ?_ rfl h
  · exact fun _ _ _ _ _ _ hs h => (hturn h).trans hs
  · exact fun _ _ _ _ _ hs h _ => (hturn h).trans hs

/-- To store a request changes the requests only. -/
theorem storeRequest_eq (c : Conn) (env : Env) (q : Option Request) :
    ∃ requests, c.storeRequest env q = { c with pendingRequests := requests } := by
  unfold storeRequest
  split
  · exact ⟨_, rfl⟩
  · split <;> exact ⟨_, rfl⟩

/-- What `proxy_send` does after its loop leaves the rest of the tables as it is. -/
theorem proxySend_frame (h : c.proxySend env r = .ok c') :
    ∃ c₁ turn requests, sendLoop env r (c.peers.length + 2) 0 r.conn c = .ok (c₁, turn) ∧
      env.Takes c.scheduled.length (turn.jobs r) ∧
      c' = { c₁ with pendingRequests := requests, scheduled := c.jobbed (turn.jobs r) } := by
  rw [proxySend_eq] at h
  obtain ⟨⟨c₁, turn⟩, hloop, h⟩ := Except.bind_eq_ok.1 h
  obtain ⟨c₂, hjobs, h⟩ := Except.bind_eq_ok.1 h
  obtain ⟨htakes, rfl⟩ := jobAll_ok.1 hjobs
  rw [sendLoop_scheduled hloop] at htakes
  have hjobbed : c₁.jobbed (turn.jobs r) = c.jobbed (turn.jobs r) := by
    rw [jobbed, sendLoop_scheduled hloop, jobbed]
  cases h
  dsimp only
  rw [hjobbed]
  split
  · obtain ⟨requests, hstore⟩ :=
      storeRequest_eq { c₁ with scheduled := c.jobbed (turn.jobs r) } env r.request
    exact ⟨c₁, turn, requests, hloop, htakes, hstore⟩
  · exact ⟨c₁, turn, _, hloop, htakes, rfl⟩

/-- **When `proxy_send` returns.** -/
theorem proxySend_ok_iff {turn : Turn}
    (hloop : sendLoop env r (c.peers.length + 2) 0 r.conn c = .ok (c', turn)) :
    (∃ c'', c.proxySend env r = .ok c'') ↔ env.Takes c.scheduled.length (turn.jobs r) := by
  constructor
  · rintro ⟨c'', h⟩
    obtain ⟨_, _, _, hloop', htakes, _⟩ := proxySend_frame h
    rw [hloop] at hloop'
    cases hloop'
    exact htakes
  · intro htakes
    rw [proxySend_eq, hloop, Except.ok_bind]
    rw [← sendLoop_scheduled hloop] at htakes
    exact ⟨_, Except.bind_eq_ok.2 ⟨_, jobAll_ok.2 ⟨htakes, rfl⟩, rfl⟩⟩

theorem proxySend_scheduled {turn : Turn} {c'' : Conn}
    (hloop : sendLoop env r (c.peers.length + 2) 0 r.conn c = .ok (c', turn))
    (h : c.proxySend env r = .ok c'') : c''.scheduled = c.jobbed (turn.jobs r) := by
  obtain ⟨_, _, _, hloop', _, rfl⟩ := proxySend_frame h
  rw [hloop] at hloop'
  cases hloop'
  rfl

/-! ## What is due -/

/-- `queue_full` is for a full queue. -/
def Turn.dueFull (r : SendRequest) : Turn → List Closure
  | .full => (r.sendFullQ.map .queueFull).toList
  | _ => []

/-- `queue_failure` is for a full queue and for an exception. -/
def Turn.dueFailure (r : SendRequest) : Turn → List Closure
  | .full => (r.sendFail.map fun callback => .queueFailure callback none).toList
  | .failed what => (r.sendFail.map fun callback => .queueFailure callback (some what)).toList
  | _ => []

/-- Of `queue_full` and `queue_failure`, the callbacks that are documented for a last attempt like
`turn` are among the jobs, each once, and no others. -/
@[mk_iff]
structure Documented (r : SendRequest) (turn : Turn) (jobs : List Closure) : Prop where
  queueFull : jobs.filter Closure.isQueueFull = turn.dueFull r
  queueFailure : jobs.filter Closure.isQueueFailure = turn.dueFailure r

/-- The callbacks that can be given to a message so that, when its last attempt ends like this,
`proxy_send` schedules what is documented. -/
def Turn.Agrees (r : SendRequest) : Turn → Prop
  | .sent _ _ => True
  | .full => r.sendFail = none ∨ r.sendFullQ = none
  | .failed _ => r.sendFullQ = none
  | _ => r.sendFail = none ∧ r.sendFullQ = none

/-- The job for a request is neither of the callbacks. -/
theorem Turn.filter_unanswered (r : SendRequest) (turn : Turn) :
    (turn.unanswered r).filter Closure.isQueueFull = [] ∧
      (turn.unanswered r).filter Closure.isQueueFailure = [] := by
  cases turn <;> cases hq : r.request <;>
    simp [unanswered, hq, Closure.isQueueFull, Closure.isQueueFailure]

theorem documented_jobs_iff (r : SendRequest) (turn : Turn) :
    Documented r turn (turn.jobs r) ↔ turn.Agrees r := by
  obtain ⟨hfull, hfailure⟩ := turn.filter_unanswered r
  rw [documented_iff, Turn.jobs, List.filter_append, List.filter_append, List.filter_append,
    List.filter_append, hfull, hfailure]
  -- the ways to end, by which of the callbacks there are
  cases turn <;> cases hf : r.sendFail <;> cases hq : r.sendFullQ <;>
    simp [Turn.early, Turn.late, Turn.dueFull, Turn.dueFailure, Turn.Agrees, hf, hq,
      Closure.isQueueFull, Closure.isQueueFailure]

/-- What is expected of `proxy_send`: it returns, and the callbacks that are due to how the last
attempt ended have been scheduled then, and no others. -/
def Reports (c : Conn) (env : Env) (r : SendRequest) : Prop :=
  ∃ c' c₁ turn jobs, c.proxySend env r = .ok c' ∧
    sendLoop env r (c.peers.length + 2) 0 r.conn c = .ok (c₁, turn) ∧
    c'.scheduled = c.jobbed jobs ∧ Documented r turn jobs

/-- The callbacks are as due only where the list says so. -/
theorem Reports.agrees {turn : Turn} (h : c.Reports env r)
    (hloop : sendLoop env r (c.peers.length + 2) 0 r.conn c = .ok (c', turn)) : turn.Agrees r := by
  obtain ⟨c'', _, _, jobs, hsend, hloop', hjobs, hdoc⟩ := h
  rw [hloop] at hloop'
  cases hloop'
  rw [proxySend_scheduled hloop hsend, jobbed_inj] at hjobs
  exact (documented_jobs_iff r turn).1 (hjobs ▸ hdoc)

/-- **Where the callbacks are those that are due**: the search for the dead record ends, a service
node's pubkey has 32 bytes and its address can be looked up, the callbacks given are ones that agree
with how the last attempt ends, and every job can be handed over. -/
theorem reports_iff (c : Conn) (env : Env) (r : SendRequest) :
    c.Reports env r ↔ ¬ c.Stuck env r ∧
      (r.conn.sn = true → r.conn.pk.length = 32 ∧
        ¬ c.LookupFails env r 0 (c.equalRange r.conn)) ∧
      ∀ c' turn, sendLoop env r (c.peers.length + 2) 0 r.conn c = .ok (c', turn) →
        turn.Agrees r ∧ env.Takes c.scheduled.length (turn.jobs r) := by
  rw [← and_assoc, ← sendLoop_returns_iff]
  constructor
  · intro h
    obtain ⟨c'', c', turn, _, hsend, hloop, _⟩ := id h
    refine ⟨⟨c', turn, hloop⟩, fun c₁ turn₁ hloop₁ => ?_⟩
    exact ⟨h.agrees hloop₁, (proxySend_ok_iff hloop₁).1 ⟨c'', hsend⟩⟩
  · rintro ⟨⟨c', turn, hloop⟩, h⟩
    obtain ⟨hagrees, htakes⟩ := h c' turn hloop
    obtain ⟨c'', hsend⟩ := (proxySend_ok_iff hloop).2 htakes
    exact ⟨c'', c', turn, turn.jobs r, hsend, hloop, proxySend_scheduled hloop hsend,
      (documented_jobs_iff r turn).2 hagrees⟩

/-- We have connected somewhere, which is connection 2. -/
def oneConnection : List ConnEvent :=
  [.allocate,
    .connectRemote {} { connId := 2, onConnect := 0, onFailure := 1, remote := "tcp://a" }]

/-- With both callbacks given, `queue_full` is called after an exception and not called for a full
queue; and a message that has no connection to go out on counts as a full queue. -/
theorem not_reports_oneConnection : ∃ c,
    Transition.run (step bareConfig) start oneConnection = some c ∧
    ¬ c.Reports { send := fun _ => .error false "Host unreachable" }
      { conn := .ofId 2, send := ["a.b"], sendFail := some 5, sendFullQ := some 6 } ∧
    ¬ c.Reports { send := fun _ => .full }
      { conn := .ofId 2, send := ["a.b"], sendFail := some 5, sendFullQ := some 6 } ∧
    ¬ c.Reports {} { conn := .ofId 3, send := ["a.b"], sendFullQ := some 6 } := by
  refine ⟨_, rfl, fun h => ?_, fun h => ?_, fun h => ?_⟩
  · have hnone : some 6 = none := @Reports.agrees _ _ _ _ (.failed "Host unreachable") h rfl
    cases hnone
  · rcases @Reports.agrees _ _ _ _ .full h rfl with hnone | hnone
    · cases hnone
    · cases hnone
  · have hnone := (@Reports.agrees _ _ _ _ .noSocket h rfl).2
    cases hnone

end Conn

end OxenMQ
