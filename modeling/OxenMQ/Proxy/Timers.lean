import OxenMQ.Proxy.Saturation
import OxenMQ.Workers.Sites

/-!
# Timers in the proxy thread

A timer that is squelched marks itself as running when it queues its job, and the completion
function of the job, which runs in the proxy thread, takes the mark away.  `Timers.Agrees` compares
the marks with the log of the pool: a timer is marked as running exactly as long as the proxy has
not heard that its job has returned.  Where the job is in the meantime is known from the pool.

`add_timer` and `cancel_timer` can be called before the proxy thread is there, in which case they do
their work themselves.  So a run begins with the timers that the calls until then have made
(`Timers.step`).
-/

set_option autoImplicit false

namespace OxenMQ

open Control

/-- A call of `add_timer` or of `cancel_timer`. -/
inductive TimerCall where
  /-- The new timer gets the number `zmqTimerId` from `zmq`. -/
  | add (zmqTimerId id : ℤ) (job : Callback) (interval : ℤ) (squelch : Bool) (thread : ℤ)
  | cancel (id : ℤ)
  deriving DecidableEq

/-- A timer is for a thread of this instance, and `zmq` hands out a new number for it. -/
def TimerCall.valid {κ : Type} (cfg : PoolConfig κ) (t : Timers) : TimerCall → Bool
  | .add zmqTimerId _ _ _ _ thread =>
    decide (t.Fresh zmqTimerId) && decide (-1 ≤ thread) &&
      decide (thread ≤ (cfg.taggedThreads : ℤ))
  | .cancel _ => true

/-- What a call does, in the proxy thread or before there is one.  Without any timers there is
nothing to be cancelled. -/
def Timers.call (t : Timers) : TimerCall → Timers
  | .add zmqTimerId id job interval squelch thread =>
    t.proxyTimer zmqTimerId id job interval squelch thread
  | .cancel id => t.proxyTimerDel id

/-- A call before there is a proxy thread. -/
def Timers.step {κ : Type} (cfg : PoolConfig κ) (t : Timers) (c : TimerCall) : Option Timers :=
  if c.valid cfg t then some (t.call c) else none

theorem Timers.step_eq_some {κ : Type} {cfg : PoolConfig κ} {t t' : Timers} {c : TimerCall} :
    t.step cfg c = some t' ↔ c.valid cfg t = true ∧ t' = t.call c := by
  rw [Timers.step, Option.ite_none_right_eq_some, Option.some.injEq, eq_comm (a := t')]

/-- A timer as it was added, whether or not it is marked as running. -/
def TimerJob.unmarked (j : TimerJob) : TimerJob := { j with running := false }

theorem TimerJob.eq_of_unmarked {j j' : TimerJob} (h : j'.unmarked = j.unmarked) :
    j' = { j with running := j'.running } := by
  cases j
  cases j'
  cases h
  rfl

/-- The batch that is made of the job of a squelched timer. -/
def TimerJob.spec (j : TimerJob) : BatchSpec where
  jobs := [(j.function, j.thread)]
  complete := some (Timers.completion, -1)

/-! ## The marks and the log -/

namespace Timers

variable {κ : Type} {cfg : PoolConfig κ} {t : Timers} {log log' : List (LogEntry κ)}

/-- The timers agree with what has happened in the pool.  A timer is marked as running if the proxy
has not heard that its job has returned, and it has one job at most that the proxy has not heard of.
-/
structure Agrees (cfg : PoolConfig κ) (t : Timers) (log : List (LogEntry κ)) : Prop where
  jobs : ∀ z j, t.timerJobs.lookup z = some j →
    z ∈ t.handedOut ∧ -1 ≤ j.thread ∧ j.thread ≤ (cfg.taggedThreads : ℤ)
  captured : ∀ ptr z, t.captured.lookup ptr = some z →
    ∃ j, t.timerJobs.lookup z = some j ∧ .submitted ptr j.spec ∈ log
  running : ∀ z j, t.timerJobs.lookup z = some j →
    (j.running = true ↔ ∃ ptr, t.captured.lookup ptr = some z ∧ .finished ⟨ptr, 0⟩ ∉ log)
  unique : ∀ z ptr ptr', t.captured.lookup ptr = some z → t.captured.lookup ptr' = some z →
    .finished ⟨ptr, 0⟩ ∉ log → .finished ⟨ptr', 0⟩ ∉ log → ptr = ptr'

theorem lookup_mark {z : ℤ} {j : TimerJob} (hj : t.timerJobs.lookup z = some j) (b : Bool)
    (z' : ℤ) : (t.timerJobs.insert z { j with running := b }).lookup z' =
      (t.timerJobs.lookup z').map fun j' =>
        { j' with running := if z' = z then b else j'.running } := by
  rcases eq_or_ne z' z with rfl | hne
  · rw [AList.lookup_insert, hj, Option.map_some, if_pos rfl]
  · rw [AList.lookup_insert_ne hne]
    simp only [if_neg hne]
    exact Option.map_id'.symm

namespace Agrees

/-- Nothing is known of a timer that is yet to come. -/
theorem captured_ne (h : t.Agrees cfg log) {z : ℤ} (hz : t.Fresh z) (ptr : ℕ) :
    t.captured.lookup ptr ≠ some z := by
  intro hcaptured
  obtain ⟨j, hj, _⟩ := h.captured _ _ hcaptured
  exact hz (h.jobs _ _ hj).1

/-- As long as no job returns, all is well. -/
theorem of_log (h : t.Agrees cfg log) (hmem : ∀ e ∈ log, e ∈ log')
    (hfinished : ∀ bj, .finished bj ∈ log' ↔ .finished bj ∈ log) : t.Agrees cfg log' where
  jobs := h.jobs
  captured ptr z hz := (h.captured ptr z hz).imp fun _ hj => ⟨hj.1, hmem _ hj.2⟩
  running z j hj := by simpa only [hfinished] using h.running z j hj
  unique z ptr ptr' := by simpa only [hfinished] using h.unique z ptr ptr'

theorem proxyTimer (h : t.Agrees cfg log) {z₀ : ℤ} (hnew : t.Fresh z₀) (id : ℤ) (job : Callback)
    (interval : ℤ) (squelch : Bool) {thread : ℤ} (hle : -1 ≤ thread)
    (hge : thread ≤ (cfg.taggedThreads : ℤ)) :
    (t.proxyTimer z₀ id job interval squelch thread).Agrees cfg log where
  jobs z j hj := by
    rcases eq_or_ne z z₀ with rfl | hne
    · cases (AList.lookup_insert _).symm.trans hj
      exact ⟨List.mem_append_right _ List.mem_cons_self, hle, hge⟩
    · obtain ⟨hmem, hthread⟩ := h.jobs z j ((AList.lookup_insert_ne hne).symm.trans hj)
      exact ⟨List.mem_append_left _ hmem, hthread⟩
  captured ptr z hz := by
    obtain ⟨j, hj, hspec⟩ := h.captured ptr z hz
    refine ⟨j, (AList.lookup_insert_ne ?_).trans hj, hspec⟩
    rintro rfl
    exact h.captured_ne hnew ptr hz
  running z j hj := by
    rcases eq_or_ne z z₀ with rfl | hne
    · cases (AList.lookup_insert _).symm.trans hj
      exact iff_of_false nofun fun ⟨ptr, hptr, _⟩ => h.captured_ne hnew ptr hptr
    · exact h.running z j ((AList.lookup_insert_ne hne).symm.trans hj)
  unique := h.unique

theorem call (h : t.Agrees cfg log) {c : TimerCall} (hvalid : c.valid cfg t = true) :
    (t.call c).Agrees cfg log := by
  cases c with
  | add z id job interval squelch thread =>
    simp only [TimerCall.valid, Bool.and_eq_true, decide_eq_true_eq] at hvalid
    exact h.proxyTimer hvalid.1.1 id job interval squelch hvalid.1.2 hvalid.2
  | cancel id =>
    rw [Timers.call, proxyTimerDel]
    split
    · exact h
    · exact ⟨h.jobs, h.captured, h.running, h.unique⟩

/-- The mark of one timer changes, and with it what is known about its jobs. -/
theorem mark (h : t.Agrees cfg log) {z : ℤ} {j : TimerJob} {b : Bool}
    {captured : AList fun _ : ℕ => ℤ} (hj : t.timerJobs.lookup z = some j)
    (hcaptured : ∀ ptr z', captured.lookup ptr = some z' →
      ∃ j', t.timerJobs.lookup z' = some j' ∧ .submitted ptr j'.spec ∈ log')
    (hmark : b = true ↔ ∃ ptr, captured.lookup ptr = some z ∧ .finished ⟨ptr, 0⟩ ∉ log')
    (hunique : ∀ ptr ptr', captured.lookup ptr = some z → captured.lookup ptr' = some z →
      .finished ⟨ptr, 0⟩ ∉ log' → .finished ⟨ptr', 0⟩ ∉ log' → ptr = ptr')
    (hother : ∀ z' ≠ z, ∀ ptr, captured.lookup ptr = some z' ∧ .finished ⟨ptr, 0⟩ ∉ log' ↔
      t.captured.lookup ptr = some z' ∧ .finished ⟨ptr, 0⟩ ∉ log) :
    { t with timerJobs := t.timerJobs.insert z { j with running := b }, captured }.Agrees cfg
      log' where
  jobs z' j' hj' := by
    obtain ⟨j₀, hj₀, rfl⟩ := Option.map_eq_some_iff.1 ((lookup_mark hj b z').symm.trans hj')
    exact h.jobs z' j₀ hj₀
  captured ptr z' hz' := by
    obtain ⟨j₀, hj₀, hspec⟩ := hcaptured ptr z' hz'
    refine ⟨_, (lookup_mark hj b z').trans (congrArg _ hj₀), hspec⟩
  running z' j' hj' := by
    obtain ⟨j₀, hj₀, rfl⟩ := Option.map_eq_some_iff.1 ((lookup_mark hj b z').symm.trans hj')
    rcases eq_or_ne z' z with rfl | hne
    · simpa only [if_true] using hmark
    · simpa only [if_neg hne, hother z' hne] using h.running z' j₀ hj₀
  unique z' ptr ptr' hz hz' hptr hptr' := by
    rcases eq_or_ne z' z with rfl | hne
    · exact hunique ptr ptr' hz hz' hptr hptr'
    · obtain ⟨hz, hptr⟩ := (hother z' hne ptr).1 ⟨hz, hptr⟩
      obtain ⟨hz', hptr'⟩ := (hother z' hne ptr').1 ⟨hz', hptr'⟩
      exact h.unique z' ptr ptr' hz hz' hptr hptr'

/-- A squelched timer runs out that is not marked as running. -/
theorem queued (h : t.Agrees cfg log) {z : ℤ} {j : TimerJob} {ptr : ℕ}
    (hj : t.timerJobs.lookup z = some j) (hrunning : j.running = false)
    (hfresh : t.captured.lookup ptr = none) (hptr : .finished ⟨ptr, 0⟩ ∉ log)
    (hlog : log' = log ++ [.submitted ptr j.spec]) :
    { t with
      timerJobs := t.timerJobs.insert z { j with running := true }
      captured := t.captured.insert ptr z }.Agrees cfg log' := by
  have hfinished : ∀ bj, .finished bj ∈ log' ↔ .finished bj ∈ log := by simp [hlog]
  have hcaptured : ∀ {ptr' z'}, (t.captured.insert ptr z).lookup ptr' = some z' ↔
      ptr' = ptr ∧ z' = z ∨ t.captured.lookup ptr' = some z' := by
    intro ptr' z'
    rcases eq_or_ne ptr' ptr with rfl | hne
    · rw [AList.lookup_insert, hfresh]
      simp [eq_comm]
    · rw [AList.lookup_insert_ne hne]
      simp [hne]
  have hmine : ∀ ptr', (t.captured.insert ptr z).lookup ptr' = some z →
      .finished ⟨ptr', 0⟩ ∉ log' → ptr' = ptr := by
    intro ptr' hz hptr'
    refine (hcaptured.1 hz).elim And.left fun hz => ?_
    rw [hfinished] at hptr'
    rw [(h.running z j hj).2 ⟨ptr', hz, hptr'⟩] at hrunning
    cases hrunning
  refine h.mark hj (fun ptr' z' hz' => ?_) (iff_of_true rfl ⟨ptr, AList.lookup_insert _, ?_⟩)
    (fun ptr₁ ptr₂ h₁ h₂ hptr₁ hptr₂ => ?_) (fun z' hne ptr' => ?_)
  · rcases hcaptured.1 hz' with ⟨rfl, rfl⟩ | hz'
    · exact ⟨j, hj, by simp [hlog]⟩
    · obtain ⟨j', hj', hspec⟩ := h.captured ptr' z' hz'
      exact ⟨j', hj', by simp [hlog, hspec]⟩
  · rwa [hfinished]
  · exact (hmine ptr₁ h₁ hptr₁).trans (hmine ptr₂ h₂ hptr₂).symm
  · rw [hcaptured, hfinished]
    simp [hne]

/-- The proxy hears that a job has returned. -/
theorem complete (h : t.Agrees cfg log) {bj : BatchJob} {es : List (LogEntry κ)}
    (hbj : ∀ z, t.captured.lookup bj.ptr = some z → bj.jobno = 0 ∧ .finished bj ∉ log)
    (hes : ∀ bj', .finished bj' ∉ es) (hlog : log' = log ++ .finished bj :: es) :
    (t.complete bj.ptr).Agrees cfg log' := by
  have hfinished : ∀ bj', .finished bj' ∈ log' ↔ .finished bj' ∈ log ∨ bj' = bj := by
    simp [hlog, hes]
  have hmem : ∀ e ∈ log, e ∈ log' := by
    rw [hlog]
    exact fun _ he => List.mem_append_left _ he
  have hspec : ∀ ptr z, t.captured.lookup ptr = some z →
      ∃ j, t.timerJobs.lookup z = some j ∧ .submitted ptr j.spec ∈ log' := fun ptr z hz =>
    (h.captured ptr z hz).imp fun _ hj => ⟨hj.1, hmem _ hj.2⟩
  rcases hz : t.captured.lookup bj.ptr with _ | z
  · -- The batch is not that of a timer.
    have hsame : ∀ {ptr z}, t.captured.lookup ptr = some z →
        (.finished ⟨ptr, 0⟩ ∈ log' ↔ .finished ⟨ptr, 0⟩ ∈ log) := by
      intro ptr z hptr
      rw [hfinished, or_iff_left]
      rintro rfl
      cases hz.symm.trans hptr
    rw [Timers.complete, hz]
    refine ⟨h.jobs, hspec, fun z j hj => ?_, fun z ptr ptr' hptr hptr' hout hout' => ?_⟩
    · rw [h.running z j hj]
      exact exists_congr fun ptr => and_congr_right fun hptr => not_congr (hsame hptr).symm
    · rw [hsame hptr] at hout
      rw [hsame hptr'] at hout'
      exact h.unique z ptr ptr' hptr hptr' hout hout'
  · obtain ⟨hno, hout⟩ := hbj z hz
    obtain ⟨j, hj, _⟩ := h.captured bj.ptr z hz
    obtain ⟨ptr, n⟩ := bj
    obtain rfl : n = 0 := hno
    have hnone : ∀ ptr', t.captured.lookup ptr' = some z → .finished ⟨ptr', 0⟩ ∈ log' := by
      intro ptr' hptr'
      by_contra hout'
      rw [hfinished, not_or] at hout'
      exact hout'.2 (congrArg (BatchJob.mk · 0) (h.unique z ptr' ptr hptr' hz hout'.1 hout))
    rw [Timers.complete, hz]
    dsimp only
    rw [hj]
    refine h.mark hj hspec ?_ (fun ptr₁ _ h₁ _ hout₁ _ => absurd (hnone ptr₁ h₁) hout₁)
      (fun z' hne ptr' => and_congr_right fun hptr' => ?_)
    · exact iff_of_false nofun fun ⟨ptr', hptr', hout'⟩ => hout' (hnone ptr' hptr')
    · rw [hfinished, or_iff_left]
      rintro ⟨⟩
      exact hne (Option.some.inj (hptr'.symm.trans hz))

end Agrees

/-- Timers are neither added nor cancelled. -/
structure Keeps (t t' : Timers) : Prop where
  timerZmqId : t'.timerZmqId = t.timerZmqId
  armed : t'.armed = t.armed
  handedOut : t'.handedOut = t.handedOut
  jobs : ∀ z, (t'.timerJobs.lookup z).map TimerJob.unmarked =
    (t.timerJobs.lookup z).map TimerJob.unmarked

theorem Keeps.refl (t : Timers) : Keeps t t := ⟨rfl, rfl, rfl, fun _ => rfl⟩

theorem Keeps.trans {t' t'' : Timers} (h : Keeps t t') (h' : Keeps t' t'') : Keeps t t'' :=
  ⟨h'.timerZmqId.trans h.timerZmqId, h'.armed.trans h.armed, h'.handedOut.trans h.handedOut,
    fun z => (h'.jobs z).trans (h.jobs z)⟩

theorem Keeps.mark {z : ℤ} {j : TimerJob} {b : Bool} {captured : AList fun _ : ℕ => ℤ}
    (hj : t.timerJobs.lookup z = some j) :
    Keeps t { t with timerJobs := t.timerJobs.insert z { j with running := b }, captured } := by
  refine ⟨rfl, rfl, rfl, fun z' => ?_⟩
  dsimp only
  rw [lookup_mark hj, Option.map_map]
  rfl

theorem complete_cases (t : Timers) (ptr : ℕ) : t.complete ptr = t ∨ ∃ z j,
    t.timerJobs.lookup z = some j ∧
    t.complete ptr = { t with timerJobs := t.timerJobs.insert z { j with running := false } } := by
  unfold complete
  split
  · exact Or.inl rfl
  · rename_i z _
    split
    · exact Or.inl rfl
    · rename_i j hj
      exact Or.inr ⟨z, j, hj, rfl⟩

/-- Completion functions change nothing but marks. -/
theorem foldl_complete (ptrs : List ℕ) (t : Timers) :
    Keeps t (ptrs.foldl complete t) ∧ (ptrs.foldl complete t).captured = t.captured := by
  refine List.foldlRecOn ptrs complete (motive := fun t' => Keeps t t' ∧ t'.captured = t.captured)
    ⟨.refl t, rfl⟩ fun t₁ ⟨hkeeps, hcaptured⟩ ptr _ => ?_
  rcases t₁.complete_cases ptr with heq | ⟨z, j, hj, heq⟩ <;> rw [heq]
  · exact ⟨hkeeps, hcaptured⟩
  · exact ⟨hkeeps.trans (.mark hj), hcaptured⟩

end Timers

namespace Proxy

variable {κ : Type}

/-- The call that reaches the proxy thread with an event. -/
def Event.timerCall : Event → Option TimerCall
  | .control env (.addTimer id f interval squelch thread) =>
    some (.add env.zmqTimerId id f interval squelch (thread.getD 0))
  | .control _ (.cancelTimer id) => some (.cancel id)
  | _ => none

variable [DecidableEq κ] {cfg : ProxyConfig κ} {p p' : Proxy κ}

/-! ## What a step does to the timers -/

/-- The pool goes on, and the proxy hears of no job that has returned. -/
def Goes (cfg : ProxyConfig κ) (p p' : Proxy κ) : Prop :=
  ∃ es, (∀ e ∈ es, ∀ w, e ≠ .workerMessage w) ∧
    Transition.run (Sys.step cfg.pool) p.sys es = some p'.sys

theorem Goes.of_eq (h : p'.sys = p.sys) : Goes cfg p p' :=
  ⟨[], fun _ he => absurd he List.not_mem_nil, by rw [h]; rfl⟩

theorem Goes.step {e : PoolEvent κ} (h : Sys.step cfg.pool p.sys e = some p'.sys)
    (he : ∀ w, e ≠ .workerMessage w) : Goes cfg p p' := by
  refine ⟨[e], fun e' he' => ?_, Transition.run_cons_eq_some.2 ⟨_, h, rfl⟩⟩
  rwa [List.mem_singleton.1 he']

/-- Only in one phase of the loop does the proxy listen to the workers. -/
theorem Move.goes {r : Option (PendingCommand κ)} (h : Move cfg r p p')
    (hphase : p'.phase ≠ .workers) : Goes cfg p p' := by
  cases h with
  | quiet _ hsys _ => exact .of_eq hsys
  | thread e he _ hsys _ =>
    refine .step hsys ?_
    rcases he with ⟨w, rfl⟩ | ⟨w, left, r, rfl⟩ <;> exact nofun
  | begin _ _ hsys => exact .of_eq hsys
  | next _ hsys => exact .of_eq hsys
  | jobs es hes _ _ hsys =>
    refine ⟨es, fun e he => ?_, hsys⟩
    rcases hes e he with ⟨spec, rfl⟩ | ⟨f, rfl⟩ <;> exact nofun
  | inject _ _ _ hsys => exact .step hsys nofun
  | quit _ hsys => exact .step hsys nofun
  | worker _ hphase' _ => exact absurd hphase' hphase
  | processQueue _ hsys => exact .step hsys nofun
  | builtin es hes _ _ hsys _ =>
    refine ⟨es, fun e he => ?_, hsys⟩
    obtain ⟨f, rfl⟩ := hes e he
    exact nofun
  | command _ _ _ _ hsys _ => exact .step hsys nofun
  | done _ _ hsys _ => exact .of_eq hsys
  | stop hsys => exact .step hsys nofun

/-- A control message that is not about timers. -/
theorem proxyControlMessage_timers {env : ControlEnv} {message : ControlMessage κ}
    (hadd : ∀ data, message ≠ .timer data) (hdel : ∀ id, message ≠ .timerDel id)
    (h : p.proxyControlMessage cfg env message = .ok p') :
    p'.timers = p.timers ∧ p'.phase = p.phase := by
  cases controls_of_ok h with
  | timer => exact absurd rfl (hadd _)
  | timerDel id => exact absurd rfl (hdel id)
  | _ => exact ⟨rfl, rfl⟩

theorem messageStep_timers {env : Env} {immediate : Bool} {connId : ℤ} {m : Incoming}
    (h : p.messageStep cfg env immediate connId m = some p') : p'.timers = p.timers := by
  unfold messageStep at h
  dsimp only at h
  split at h
  · split at h
    · cases h
    · cases h
      rfl
    · split at h
      · obtain ⟨s, _, rfl⟩ := poolStep_eq_some.1 h
        rfl
      · cases h
  · cases h

/-- What an event can do to the timers. -/
inductive TimerMove (cfg : ProxyConfig κ) (p p' : Proxy κ) : Event → Prop
  | call {e : Event} (c : TimerCall) (he : e.timerCall = some c)
      (hvalid : c.valid cfg.pool p.timers = true)
      (htimers : p'.timers = p.timers.call c) (hsys : p'.sys = p.sys) : TimerMove cfg p p' e
  | other {e : Event} (he : e.timerCall = none) (htimers : p'.timers = p.timers)
      (hgoes : Goes cfg p p') : TimerMove cfg p p' e
  | worker (w : Worker) (h : p.workerStep cfg w = some p') : TimerMove cfg p p' (.worker w)
  | fire (timerId : ℤ) (h : p.timerStep cfg timerId = some p') : TimerMove cfg p p' (.timer timerId)

theorem control_timers {env : ControlEnv} {call : Call} {message : ControlMessage κ}
    (hrunning : p.sys.stopped = false) (hphase : p.phase = .control)
    (hvalid : p.validCall cfg env call = true)
    (hemit : call.emit cfg.commands cfg.ephemeralRoutingId = .ok (some message))
    (h : p.proxyControlMessage cfg env message = .ok p') :
    TimerMove cfg p p' (.control env call) := by
  have hfrom := from_of_emit hemit
  have hother : (∀ id f interval squelch thread, call ≠ .addTimer id f interval squelch thread) →
      (∀ id, call ≠ .cancelTimer id) → p'.timers = p.timers ∧ Goes cfg p p' := by
    intro hadd hdel
    have hadd' : ∀ data, message ≠ .timer data := by
      rintro data rfl
      obtain ⟨_, _, _, _, _, rfl⟩ := hfrom
      exact hadd _ _ _ _ _ rfl
    have hdel' : ∀ id, message ≠ .timerDel id := by
      rintro id rfl
      exact hdel id hfrom
    obtain ⟨htimers, hphase'⟩ := proxyControlMessage_timers hadd' hdel' h
    refine ⟨htimers, (proxyControlMessage_move hrunning hphase hvalid hemit h).goes ?_⟩
    rw [hphase', hphase]
    nofun
  cases call with
  | addTimer id f interval squelch thread =>
    cases hemit
    obtain ⟨r, hr, h⟩ := Except.bind_eq_ok.1 h
    cases h
    rw [decode_addTimer] at hr
    split at hr
    · cases hr
    · cases hr
      exact .call (.add env.zmqTimerId id f interval squelch (thread.getD 0)) rfl hvalid rfl rfl
  | cancelTimer id =>
    cases hemit
    cases h
    exact .call (.cancel id) rfl rfl rfl rfl
  | _ =>
    obtain ⟨htimers, hgoes⟩ := hother nofun nofun
    exact .other rfl htimers hgoes

theorem step_timers {e : Event} (h : step cfg p e = some p') : TimerMove cfg p p' e := by
  have hmove := step_move h
  obtain ⟨hrunning, hdoes⟩ := step_does h
  cases hdoes with
  | allocate | begin | next | done => exact .other rfl rfl (.of_eq rfl)
  | receive hs | finish hs | stop hs | processQueue hs =>
    exact .other rfl rfl (.step hs fun _ he => by cases he)
  | control hphase hvalid hemit h => exact control_timers hrunning hphase hvalid hemit h
  | worker _ h => exact .worker _ h
  | timer _ h => exact .fire _ h
  | cleanup hphase _ =>
    refine .other rfl rfl (hmove.goes ?_)
    rw [withConn, hphase]
    rintro ⟨⟩
  | message _ h =>
    refine .other rfl (messageStep_timers h) (hmove.goes ?_)
    obtain ⟨_, _, _, _, _, hphase, _⟩ := messageStep_cases h
    rw [hphase]
    rintro ⟨⟩

/-! ## The marks are right in every run -/

omit [DecidableEq κ] in
theorem completedInProxy_eq {s s' : Sys κ} {bj : BatchJob}
    (hlog : s'.log = s.log ++ .finished bj :: s.returnEntries bj) :
    completedInProxy s s' = (s.completionFor (-1) bj).map BatchJob.ptr := by
  rw [completedInProxy, hlog, List.drop_left, Sys.returnEntries, Sys.completionFor]
  split
  · rfl
  rcases s.heap bj.ptr with _ | b
  · rfl
  dsimp only [Option.map_some]
  rcases b.jobFinished with ⟨b', state⟩
  cases state with
  | running => rfl
  | done => rfl
  | complete place =>
    dsimp only
    split <;> rfl

/-- What the proxy hears from a worker.  If it is that a job has returned, and the completion
function of the batch is for the proxy thread and this was the last job, the function is called. -/
theorem workerStep_cases {w : Worker} (h : p.workerStep cfg w = some p') :
    ∃ run rest, p.sys.pool.runInfo w = some run ∧
      ((p.sys.threads w).outbox = .ran :: rest ∧
        (run.batchJob = none ∧ p'.sys.log = p.sys.log ∧ p'.timers = p.timers ∨
          ∃ bj, run.batchJob = some bj ∧
            p'.sys.log = p.sys.log ++ .finished bj :: p.sys.returnEntries bj ∧
            p'.timers =
              ((p.sys.completionFor (-1) bj).map BatchJob.ptr).foldl Timers.complete p.timers) ∨
      (p.sys.threads w).outbox = .quitting :: rest ∧ p'.sys.log = p.sys.log ∧
        p'.timers = p.timers) := by
  obtain ⟨p₁, h₁, rfl⟩ := Option.map_eq_some_iff.1 h
  obtain ⟨s, hs, rfl⟩ := poolStep_eq_some.1 h₁
  have hsame : s.log = p.sys.log → completedInProxy p.sys s = [] := by
    intro hlog
    rw [completedInProxy, hlog, List.drop_length]
    rfl
  obtain ⟨run, rest, hrun, ⟨houtbox, hran⟩ | ⟨houtbox, hquit⟩⟩ :=
    Sys.proxyWorkerMessage_cases (Sys.step_workerMessage hs)
  · refine ⟨run, rest, hrun, Or.inl ⟨houtbox, ?_⟩⟩
    have hlog : s.log = p.sys.log ++
        (run.batchJob.map fun bj => .finished bj :: p.sys.returnEntries bj).getD [] := by
      rw [hran, Sys.log_workerRan]
      rfl
    rcases hbj : run.batchJob with _ | bj
    · rw [hbj] at hlog
      have hlog' : s.log = p.sys.log := hlog.trans (List.append_nil _)
      refine Or.inl ⟨rfl, hlog', ?_⟩
      dsimp only
      rw [hsame hlog']
      rfl
    · rw [hbj] at hlog
      refine Or.inr ⟨bj, rfl, hlog, ?_⟩
      dsimp only
      rw [completedInProxy_eq hlog]
  · have hlog : s.log = p.sys.log := by rw [hquit]; rfl
    refine ⟨run, rest, hrun, Or.inr ⟨houtbox, hlog, ?_⟩⟩
    dsimp only
    rw [hsame hlog]
    rfl

theorem timerStep_cases {z : ℤ} (h : p.timerStep cfg z = some p') :
    z ∈ p.timers.armed ∧ (p' = p ∨ ∃ j, p.timers.timerJobs.lookup z = some j ∧
      (p'.timers = p.timers ∧ (∃ spec, Sys.step cfg.pool p.sys (.submit spec) = some p'.sys) ∨
        j.running = false ∧
          p'.timers = { p.timers with
            timerJobs := p.timers.timerJobs.insert z { j with running := true }
            captured := p.timers.captured.insert p.sys.nextPtr z } ∧
          Sys.step cfg.pool p.sys (.submit j.spec) = some p'.sys)) := by
  unfold timerStep at h
  split at h
  · rename_i harmed
    refine ⟨harmed, ?_⟩
    unfold Timers.queueTimerJob at h
    rcases hj : p.timers.timerJobs.lookup z with _ | j
    · rw [hj] at h
      exact Or.inl (Option.some.inj h).symm
    rw [hj] at h
    dsimp only at h
    split_ifs at h with hmarked hdirect hsquelch
    · exact Or.inl (Option.some.inj h).symm
    · exact Or.inl (Option.some.inj h).symm
    · obtain ⟨s, hs, rfl⟩ := poolStep_eq_some.1 h
      rw [hsquelch, Bool.true_and, Bool.not_eq_true] at hmarked
      exact Or.inr ⟨j, rfl, Or.inr ⟨hmarked, rfl, hs⟩⟩
    · obtain ⟨s, hs, rfl⟩ := poolStep_eq_some.1 h
      exact Or.inr ⟨j, rfl, Or.inl ⟨rfl, _, hs⟩⟩
  · cases h

omit [DecidableEq κ] in
theorem captured_fresh {f : Worker → Phase} (hfits : p.sys.BatchesFit cfg.pool f)
    (h : p.timers.Agrees cfg.pool p.sys.log) : p.timers.captured.lookup p.sys.nextPtr = none := by
  rw [Option.eq_none_iff_forall_ne_some]
  intro z hz
  obtain ⟨_, _, hspec⟩ := h.captured _ _ hz
  exact lt_irrefl _ (Sys.lt_nextPtr_of_submitted hfits hspec)

theorem agrees_fire {f : Worker → Phase} {z : ℤ} (hfits : p.sys.BatchesFit cfg.pool f)
    (h : p.timers.Agrees cfg.pool p.sys.log) (hs : p.timerStep cfg z = some p') :
    p'.timers.Agrees cfg.pool p'.sys.log := by
  obtain ⟨_, rfl | ⟨j, hj, ⟨htimers, spec, hsubmit⟩ | ⟨hmark, htimers, hsubmit⟩⟩⟩ :=
    timerStep_cases hs
  · exact h
  · have hlog := Sys.step_log hsubmit
    rw [htimers]
    exact h.of_log (fun _ => hlog.mem) fun _ => hlog.mem_iff nofun
  · rw [htimers]
    refine h.queued hj hmark (captured_fresh hfits h) (Sys.not_finished_of_le hfits le_rfl 0) ?_
    rw [(Sys.step_submit_cases hsubmit).2, Sys.submit_eq]
    rfl

theorem Goes.finished_iff (h : Goes cfg p p') (bj : BatchJob) :
    .finished bj ∈ p'.sys.log ↔ .finished bj ∈ p.sys.log := by
  obtain ⟨es, hes, hrun⟩ := h
  have hlog := Sys.run_log (Q := fun x => ∀ bj, x ≠ .finished bj) hrun fun e he x hx bj hbj => by
    subst hbj
    cases e with
    | workerMessage w => exact hes _ he w rfl
    | _ => cases hx
  exact hlog.mem_iff fun hne => hne bj rfl

theorem Goes.mem_log (h : Goes cfg p p') {x : LogEntry κ} (hx : x ∈ p.sys.log) :
    x ∈ p'.sys.log := by
  obtain ⟨es, _, hrun⟩ := h
  exact (Sys.run_log (Q := fun _ => True) hrun fun _ _ _ _ => trivial).mem hx

variable [Fintype κ]

/-- The proxy hears that a worker is through with its job, or that the worker quits.  The job of a
timer is the only one of its batch, so its completion function is called at once. -/
theorem workerStep_complete {f : Worker → Phase} {w : Worker} (hinv : p.sys.Inv cfg.pool f)
    (hfits : p.sys.BatchesFit cfg.pool f) (h : p.timers.Agrees cfg.pool p.sys.log)
    (hs : p.workerStep cfg w = some p') :
    (∀ bj, ¬ p.sys.IsAt bj (.worker w)) ∧ p'.sys.log = p.sys.log ∧ p'.timers = p.timers ∨
    ∃ bj, p.sys.IsAt bj (.worker w) ∧
      (∀ z, p.timers.captured.lookup bj.ptr = some z → bj.jobno = 0) ∧
      p'.sys.log = p.sys.log ++ .finished bj :: p.sys.returnEntries bj ∧
      p'.timers = p.timers.complete bj.ptr := by
  obtain ⟨run, rest, hrun, ⟨houtbox, hran⟩ | ⟨houtbox, hsame⟩⟩ := workerStep_cases hs
  · obtain ⟨hphase, rfl⟩ := (hinv.fits w).eq_of_outbox_ran houtbox
    rcases hran with ⟨hnone, hsame⟩ | ⟨bj, hbj, hlog, htimers⟩
    · refine Or.inl ⟨fun bj ⟨_, run', hrun', hbj⟩ => ?_, hsame⟩
      obtain rfl : run' = run := Option.some.inj (hrun'.symm.trans hrun)
      cases hbj.symm.trans hnone
    · have hsingle : ∀ z, p.timers.captured.lookup bj.ptr = some z →
          bj.jobno = 0 ∧ p.sys.completionFor (-1) bj = [⟨bj.ptr, -1⟩] := by
        intro z hz
        obtain ⟨j, _, hspec⟩ := h.captured _ _ hz
        exact Sys.completionFor_of_single hfits hspec rfl rfl hphase hrun hbj
      refine Or.inr ⟨bj, ⟨?_, run, hrun, hbj⟩, fun z hz => (hsingle z hz).1, hlog, htimers.trans ?_⟩
      · rw [hinv.outstanding_ne_zero_iff, hphase]
        rfl
      · rcases hz : p.timers.captured.lookup bj.ptr with _ | z
        · have hnone : p.timers.complete bj.ptr = p.timers := by rw [Timers.complete, hz]
          rcases p.sys.completionFor_cases (-1) bj with hc | hc <;> rw [hc]
          · exact hnone.symm
          · rfl
        · rw [(hsingle z hz).2]
          rfl
  · refine Or.inl ⟨fun bj ⟨hout, _⟩ => ?_, hsame⟩
    rw [hinv.outstanding_ne_zero_iff, ((hinv.fits w).eq_of_outbox_quitting houtbox).1] at hout
    cases hout

theorem agrees_worker {f : Worker → Phase} {w : Worker} (hinv : p.sys.Inv cfg.pool f)
    (hfits : p.sys.BatchesFit cfg.pool f) (h : p.timers.Agrees cfg.pool p.sys.log)
    (hs : p.workerStep cfg w = some p') : p'.timers.Agrees cfg.pool p'.sys.log := by
  rcases workerStep_complete hinv hfits h hs with ⟨_, hlog, htimers⟩ | ⟨bj, hat, hno, hlog, htimers⟩
  · rw [hlog, htimers]
    exact h
  · rw [htimers]
    refine h.complete (fun z hz => ⟨hno z hz, ?_⟩) (fun bj' hmem => ?_) hlog
    · obtain ⟨j, _, hspec⟩ := h.captured _ _ hz
      obtain ⟨ptr, n⟩ := bj
      obtain rfl : n = 0 := hno z hz
      exact (Sys.exists_isAt_iff hinv hfits hspec (i := 0) one_pos).1 ⟨_, hat⟩
    · rcases Sys.eq_of_mem_returnEntries hmem with heq | ⟨_, heq⟩ <;> cases heq

theorem agrees_step {f : Worker → Phase} {e : Event} (hinv : p.sys.Inv cfg.pool f)
    (hfits : p.sys.BatchesFit cfg.pool f) (h : p.timers.Agrees cfg.pool p.sys.log)
    (hs : step cfg p e = some p') : p'.timers.Agrees cfg.pool p'.sys.log := by
  cases step_timers hs with
  | call c _ hvalid htimers hsys =>
    rw [htimers, hsys]
    exact h.call hvalid
  | other _ htimers hgoes =>
    rw [htimers]
    exact h.of_log (fun _ => hgoes.mem_log) hgoes.finished_iff
  | worker w hw => exact agrees_worker hinv hfits h hw
  | fire z hz => exact agrees_fire hfits h hz

/-- What holds in every state of the proxy thread, whatever timers there were at the beginning. -/
structure Reached (cfg : ProxyConfig κ) (p : Proxy κ) : Prop where
  fits : ∃ f, p.sys.Inv cfg.pool f ∧ p.sys.BatchesFit cfg.pool f
  agrees : p.timers.Agrees cfg.pool p.sys.log

theorem reached_start {calls : List TimerCall} {timers : Timers}
    (hcalls : Transition.run (Timers.step cfg.pool) {} calls = some timers) :
    (start cfg timers).Reached cfg := by
  refine ⟨⟨_, Sys.init_inv cfg.pool, Sys.batchesFit_init cfg.pool⟩, ?_⟩
  have hempty : ({} : Timers).Agrees cfg.pool (Sys.init cfg.pool).log :=
    ⟨nofun, nofun, nofun, nofun⟩
  refine Transition.run_induction
    (P := fun t : Timers => t.Agrees cfg.pool (Sys.init cfg.pool).log) hempty ?_ hcalls
  intro _ t c t' _ h hs
  obtain ⟨hvalid, rfl⟩ := Timers.step_eq_some.1 hs
  exact h.call hvalid

theorem Reached.step {e : Event} (h : p.Reached cfg) (hs : step cfg p e = some p') :
    p'.Reached cfg := by
  obtain ⟨f, hinv, hfits⟩ := h.fits
  obtain ⟨pes, hpes⟩ := (step_move hs).run
  refine ⟨?_, agrees_step hinv hfits h.agrees hs⟩
  exact Transition.run_induction
    (P := fun s => ∃ f, s.Inv cfg.pool f ∧ s.BatchesFit cfg.pool f) h.fits
    (fun _ _ _ _ _ ⟨_, hinv, hfits⟩ hs => hfits.step hinv hs) hpes

theorem Reached.run {es : List Event} (h : p.Reached cfg)
    (hrun : Transition.run (Proxy.step cfg) p es = some p') : p'.Reached cfg :=
  Transition.run_induction (P := Reached cfg) h (fun _ _ _ _ _ h hs => h.step hs) hrun

omit [Fintype κ] in
theorem workerStep_timers {w : Worker} (h : p.workerStep cfg w = some p') :
    p.timers.Keeps p'.timers ∧ p'.timers.captured = p.timers.captured := by
  obtain ⟨p₁, _, rfl⟩ := Option.map_eq_some_iff.1 h
  exact p.timers.foldl_complete _

omit [Fintype κ] in
theorem timerStep_keeps {z : ℤ} (h : p.timerStep cfg z = some p') : p.timers.Keeps p'.timers := by
  obtain ⟨_, rfl | ⟨j, hj, ⟨htimers, _⟩ | ⟨_, htimers, _⟩⟩⟩ := timerStep_cases h
  · exact .refl _
  · rw [htimers]
    exact .refl _
  · rw [htimers]
    exact .mark hj

omit [Fintype κ] in
/-- Timers are added and cancelled by calls, and by nothing else. -/
theorem keeps_of_step {e : Event} (h : step cfg p e = some p') :
    match e.timerCall with
    | some c => c.valid cfg.pool p.timers = true ∧ p'.timers = p.timers.call c
    | none => p.timers.Keeps p'.timers := by
  cases step_timers h with
  | call c he hvalid htimers _ =>
    rw [he]
    exact ⟨hvalid, htimers⟩
  | other he htimers _ =>
    rw [he, htimers]
    exact .refl _
  | worker w hw => exact (workerStep_timers hw).1
  | fire z hz => exact timerStep_keeps hz

omit [Fintype κ] in
/-- A timer gets a job only when it runs out. -/
theorem captured_of_step {e : Event} {z : ℤ} (h : step cfg p e = some p')
    (he : e ≠ .timer z ∨ z ∉ p.timers.armed)
    (hfresh : p.timers.captured.lookup p.sys.nextPtr = none) (ptr : ℕ) :
    p'.timers.captured.lookup ptr = some z ↔ p.timers.captured.lookup ptr = some z := by
  cases step_timers h with
  | call c _ _ htimers _ =>
    rw [htimers]
    cases c with
    | add => rfl
    | cancel id =>
      rw [Timers.call, Timers.proxyTimerDel]
      split <;> rfl
  | other _ htimers _ => rw [htimers]
  | worker w hw => rw [(workerStep_timers hw).2]
  | fire z' hz =>
    obtain ⟨harmed, rfl | ⟨j, hj, ⟨htimers, _⟩ | ⟨_, htimers, _⟩⟩⟩ := timerStep_cases hz
    · rfl
    · rw [htimers]
    · have hne : z ≠ z' := by
        rintro rfl
        exact he.elim (absurd rfl) (absurd harmed)
      rw [htimers]
      rcases eq_or_ne ptr p.sys.nextPtr with rfl | hptr
      · rw [AList.lookup_insert, hfresh]
        simp [hne.symm]
      · rw [AList.lookup_insert_ne hptr]

/-! ## Squelching -/

/-- A job of a squelched timer is in a queue, or a worker has it and the proxy has not heard that it
has returned. -/
def HasJob (p : Proxy κ) (z : ℤ) (ptr : ℕ) (x : Site) : Prop :=
  p.timers.captured.lookup ptr = some z ∧ p.sys.IsAt ⟨ptr, 0⟩ x

/-- What holds in the state `p`, and from there on, of the squelched timer with the number `z` and
the entry `j` in `timer_jobs`. -/
structure Squelched (cfg : ProxyConfig κ) (p : Proxy κ) (z : ℤ) (j : TimerJob) : Prop where
  /-- It stays what it is, but for the mark. -/
  stays : ∀ es p', Transition.run (step cfg) p es = some p' →
    ∃ running, p'.timers.timerJobs.lookup z = some { j with running }
  /-- It has one job at most, and this is in one place. -/
  one : ∀ ptr ptr' x x', p.HasJob z ptr x → p.HasJob z ptr' x' → ptr = ptr' ∧ x = x'
  once : ∀ ptr thread, p.HasJob z ptr (.queue thread) →
    (p.sys.pool.queue thread).count ⟨ptr, 0⟩ = 1
  running : j.running = true ↔ ∃ ptr x, p.HasJob z ptr x
  /-- When it runs out it is given a job if it is not marked as running, and only then. -/
  fires : p.phase = .timers → p.sys.stopped = false → z ∈ p.timers.armed →
    ∃ p', step cfg p (.timer z) = some p' ∧
      if j.running = true then p' = p
      else p'.sys.pool = p.sys.pool.pushJob j.thread false ⟨p.sys.nextPtr, 0⟩ ∧
        p'.HasJob z p.sys.nextPtr (.queue j.thread) ∧ ∀ x, ¬ p.sys.IsAt ⟨p.sys.nextPtr, 0⟩ x
  /-- Nothing else gives it a job. -/
  only : ∀ e p', step cfg p e = some p' → e ≠ .timer z →
    ∀ ptr, p'.timers.captured.lookup ptr = some z ↔ p.timers.captured.lookup ptr = some z
  /-- The mark goes when the proxy hears that the job has returned, with whatever result. -/
  returned : ∀ w ptr p', p.HasJob z ptr (.worker w) → step cfg p (.worker w) = some p' →
    p'.timers.timerJobs.lookup z = some { j with running := false }
  cancel : ∀ id env p', p.timers.timerZmqId.lookup id = some z →
    step cfg p (.control env (.cancelTimer id)) = some p' → z ∉ p'.timers.armed
  /-- It gets no job any more once it has been cancelled. -/
  cancelled : z ∉ p.timers.armed → ∀ es p', Transition.run (step cfg) p es = some p' →
    ∀ ptr, p'.timers.captured.lookup ptr = some z ↔ p.timers.captured.lookup ptr = some z

theorem Reached.isAt_iff (h : p.Reached cfg) {z : ℤ} {ptr : ℕ}
    (hz : p.timers.captured.lookup ptr = some z) :
    (∃ x, p.sys.IsAt ⟨ptr, 0⟩ x) ↔ .finished ⟨ptr, 0⟩ ∉ p.sys.log := by
  obtain ⟨f, hinv, hfits⟩ := h.fits
  obtain ⟨j, _, hspec⟩ := h.agrees.captured ptr z hz
  exact Sys.exists_isAt_iff hinv hfits hspec (i := 0) one_pos

omit [Fintype κ] in
theorem step_timer (hrunning : p.sys.stopped = false) (hphase : p.phase = .timers) (z : ℤ) :
    step cfg p (.timer z) = p.timerStep cfg z := by
  unfold step
  rw [if_neg (by rw [hrunning]; nofun), hphase]

omit [Fintype κ] in
theorem step_worker {w : Worker} (h : step cfg p (.worker w) = some p') :
    p.workerStep cfg w = some p' := by
  cases (step_does h).2 with
  | worker _ h => exact h

omit [Fintype κ] in
/-- A squelched timer runs out. -/
theorem timerStep_squelched {z : ℤ} {j : TimerJob} (harmed : z ∈ p.timers.armed)
    (hj : p.timers.timerJobs.lookup z = some j) (hsquelch : j.squelch = true)
    (hthread : 0 ≤ j.thread) (hle : j.thread ≤ (cfg.pool.taggedThreads : ℤ))
    (hrunning : p.sys.stopped = false) :
    p.timerStep cfg z = some (if j.running = true then p else
      { p with
        timers := { p.timers with
          timerJobs := p.timers.timerJobs.insert z { j with running := true }
          captured := p.timers.captured.insert p.sys.nextPtr z }
        sys := { p.sys.alloc j.spec with
          pool := p.sys.pool.pushJob j.thread false ⟨p.sys.nextPtr, 0⟩ } }) := by
  have hvalid : j.spec.valid cfg.pool = true := by
    simp [TimerJob.spec, BatchSpec.valid, hthread, hle]
  have hsubmit : Sys.step cfg.pool p.sys (.submit j.spec) = some { p.sys.alloc j.spec with
      pool := p.sys.pool.pushJob j.thread false ⟨p.sys.nextPtr, 0⟩ } := by
    rw [Sys.step, if_neg (by rw [hrunning]; rintro ⟨⟩)]
    dsimp only
    rw [if_pos hvalid, Sys.submit_eq]
    rfl
  have hne : j.thread ≠ -1 := by omega
  have hqueue : p.timers.queueTimerJob p.sys.nextPtr z =
      if j.running = true then (p.timers, none)
      else ({ p.timers with
          timerJobs := p.timers.timerJobs.insert z { j with running := true }
          captured := p.timers.captured.insert p.sys.nextPtr z }, some j.spec) := by
    simp only [Timers.queueTimerJob, hj, hsquelch, Bool.true_and, if_neg hne, if_true]
    rfl
  rw [timerStep, if_pos harmed, hqueue]
  by_cases hmark : j.running = true
  · rw [if_pos hmark, if_pos hmark]
  · rw [if_neg hmark, if_neg hmark]
    exact poolStep_eq_some.2 ⟨_, hsubmit, rfl⟩

omit [Fintype κ] in
/-- A timer that has been added stays as it is, and if it has been cancelled it stays so. -/
theorem old_of_step {e : Event} {z : ℤ} (h : step cfg p e = some p') (hz : z ∈ p.timers.handedOut) :
    z ∈ p'.timers.handedOut ∧
    (p'.timers.timerJobs.lookup z).map TimerJob.unmarked =
      (p.timers.timerJobs.lookup z).map TimerJob.unmarked ∧
    (z ∈ p'.timers.armed → z ∈ p.timers.armed) := by
  have hkeeps := keeps_of_step h
  split at hkeeps
  · rename_i c _
    obtain ⟨hvalid, htimers⟩ := hkeeps
    rw [htimers]
    cases c with
    | add z₀ id job interval squelch thread =>
      simp only [TimerCall.valid, Bool.and_eq_true, decide_eq_true_eq] at hvalid
      have hne : z ≠ z₀ := fun heq => hvalid.1.1 (heq ▸ hz)
      refine ⟨List.mem_append_left _ hz, congrArg _ (AList.lookup_insert_ne hne), fun hmem => ?_⟩
      exact ((AList.mem_insert _).1 hmem).resolve_left hne
    | cancel id =>
      rw [Timers.call, Timers.proxyTimerDel]
      split
      · exact ⟨hz, rfl, fun hmem => hmem⟩
      · exact ⟨hz, rfl, fun hmem => (AList.mem_erase.1 hmem).2⟩
  · rw [hkeeps.handedOut, hkeeps.armed]
    exact ⟨hz, hkeeps.jobs z, fun hmem => hmem⟩

theorem Reached.squelched (h : p.Reached cfg) {z : ℤ} {j : TimerJob}
    (hj : p.timers.timerJobs.lookup z = some j) (hsquelch : j.squelch = true)
    (hthread : j.thread ≠ -1) : p.Squelched cfg z j := by
  obtain ⟨f, hinv, hfits⟩ := h.fits
  obtain ⟨hold, hge, hle⟩ := h.agrees.jobs z j hj
  have hfresh := captured_fresh hfits h.agrees
  refine ⟨?_, ?_, ?_, ?_, ?_, ?_, ?_, ?_, ?_⟩
  · intro es p' hrun
    obtain ⟨j', hj', heq⟩ := Option.map_eq_some_iff.1 <| (Transition.run_induction
      (P := fun p' => z ∈ p'.timers.handedOut ∧
        (p'.timers.timerJobs.lookup z).map TimerJob.unmarked = some j.unmarked)
      ⟨hold, congrArg _ hj⟩ (fun _ _ _ _ _ ⟨hold₁, hsame⟩ hs =>
        ⟨(old_of_step hs hold₁).1, (old_of_step hs hold₁).2.1.trans hsame⟩) hrun).2
    exact ⟨j'.running, hj'.trans (congrArg some (TimerJob.eq_of_unmarked heq))⟩
  · rintro ptr ptr' x x' ⟨hz, hx⟩ ⟨hz', hx'⟩
    obtain rfl := h.agrees.unique z ptr ptr' hz hz' ((h.isAt_iff hz).1 ⟨x, hx⟩)
      ((h.isAt_iff hz').1 ⟨x', hx'⟩)
    exact ⟨rfl, Sys.isAt_unique hinv hfits hx hx'⟩
  · rintro ptr thread ⟨_, hx⟩
    exact le_antisymm (Sys.count_queue_le_one hfits _ _) (List.count_pos_iff.2 hx)
  · rw [h.agrees.running z j hj]
    refine exists_congr fun ptr => ⟨fun ⟨hz, hout⟩ => ?_, fun ⟨x, hz, hx⟩ => ?_⟩
    · exact ((h.isAt_iff hz).2 hout).imp fun _ hx => ⟨hz, hx⟩
    · exact ⟨hz, (h.isAt_iff hz).1 ⟨x, hx⟩⟩
  · intro hphase hrunning harmed
    have hpos : 0 ≤ j.thread := by omega
    refine ⟨_, (step_timer hrunning hphase z).trans
      (timerStep_squelched harmed hj hsquelch hpos hle hrunning), ?_⟩
    by_cases hmark : j.running = true
    · rw [if_pos hmark, if_pos hmark]
    · rw [if_neg hmark, if_neg hmark]
      refine ⟨rfl, ⟨AList.lookup_insert _, ?_⟩, Sys.not_isAt_of_le hinv hfits le_rfl⟩
      refine List.count_pos_iff.1 ?_
      dsimp only
      rw [Pool.count_pushJob _ _ _ hpos (by rwa [hinv.tagged_length]), if_pos ⟨rfl, rfl⟩]
      omega
  · exact fun e p' hs hne => captured_of_step hs (Or.inl hne) hfresh
  · rintro w ptr p' ⟨hz, hx⟩ hs
    rcases workerStep_complete hinv hfits h.agrees (step_worker hs) with
      ⟨hnone, _⟩ | ⟨bj, hx', _, _, htimers⟩
    · exact absurd hx (hnone _)
    · obtain rfl : bj = ⟨ptr, 0⟩ := Sys.isAt_worker_inj hx' hx
      rw [htimers, Timers.complete, hz]
      dsimp only
      rw [hj]
      exact AList.lookup_insert _
  · intro id env p' hid hs
    obtain ⟨_, htimers⟩ : _ ∧ p'.timers = p.timers.proxyTimerDel id := keeps_of_step hs
    rw [htimers, Timers.proxyTimerDel, hid]
    exact fun hmem => (AList.mem_erase.1 hmem).1 rfl
  · intro harmed es p' hrun
    refine (Transition.run_induction (P := fun p' => p'.Reached cfg ∧
      (z ∈ p'.timers.handedOut ∧ z ∉ p'.timers.armed) ∧
      ∀ ptr, p'.timers.captured.lookup ptr = some z ↔ p.timers.captured.lookup ptr = some z)
      ⟨h, ⟨hold, harmed⟩, fun _ => Iff.rfl⟩ ?_ hrun).2.2
    rintro _ p₁ e p₂ _ ⟨h₁, ⟨hold₁, harmed₁⟩, hsame⟩ hs
    obtain ⟨_, _, hfits₁⟩ := h₁.fits
    have hstep := captured_of_step hs (Or.inr harmed₁) (captured_fresh hfits₁ h₁.agrees)
    obtain ⟨hold₂, _, harmed₂⟩ := old_of_step hs hold₁
    exact ⟨h₁.step hs, ⟨hold₂, fun hmem => harmed₁ (harmed₂ hmem)⟩,
      fun ptr => (hstep ptr).trans (hsame ptr)⟩

/-- **A squelched timer has one job at a time**, whichever timers there are when the loop starts. -/
theorem timer_squelched {calls : List TimerCall} {timers : Timers} {es : List Event}
    (hcalls : Transition.run (Timers.step cfg.pool) {} calls = some timers)
    (hrun : Transition.run (step cfg) (start cfg timers) es = some p) {z : ℤ} {j : TimerJob}
    (hj : p.timers.timerJobs.lookup z = some j) (hsquelch : j.squelch = true)
    (hthread : j.thread ≠ -1) : p.Squelched cfg z j :=
  ((reached_start hcalls).run hrun).squelched hj hsquelch hthread

/-- The timers after one call before the start. -/
def earlyTimer : Timers := ({} : Timers).proxyTimer 1 5 7 100 true 0

/-- A timer runs out twice, the second time while its job is still in the queue. -/
def twoFirings : List Event := [.begin, .next, .next, .timer 1, .timer 1]

theorem timer_squelched_twoFirings :
    Transition.run (Timers.step smallProxy.pool) {} [.add 1 5 7 100 true 0] = some earlyTimer ∧
      ∃ p j, Transition.run (step smallProxy) (start smallProxy earlyTimer) twoFirings = some p ∧
        j.running = true ∧ p.HasJob 1 0 (.queue 0) ∧ p.Squelched smallProxy 1 j := by
  have hcalls : Transition.run (Timers.step smallProxy.pool) {} [.add 1 5 7 100 true 0] =
    some earlyTimer := rfl
  have hrun : Transition.run (step smallProxy) (start smallProxy earlyTimer) twoFirings =
    some _ := rfl
  refine ⟨hcalls, _, ⟨7, true, true, 0⟩, hrun, rfl, ⟨rfl, List.mem_singleton.2 rfl⟩, ?_⟩
  exact timer_squelched hcalls hrun rfl rfl (by decide)

end Proxy

end OxenMQ
