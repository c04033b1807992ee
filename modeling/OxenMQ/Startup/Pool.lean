import Mathlib.Algebra.BigOperators.Ring.Finset
import OxenMQ.Startup.Handshake

/-!
# From the startup to the worker pool

When `proxy_loop_init` is done, the proxy loop takes over the worker pool as `Sys.init` has it,
except that some of the tagged threads may have received their `START` already: the ones that were
sent it first do not wait for the others.  `handshake` says so, and that none of them was sent
`START` before the proxy thread could reach all of them.

The thread counts that the pool runs with are the ones that the owner has set; where the owner has
not set any, the defaults are the ones of `PoolConfig` (`Sized`).
-/

set_option autoImplicit false

namespace OxenMQ

open Tally (valuesOf)

variable {κ : Type}

/-! ## The numbers -/

namespace Startup

variable {s s' : Startup}

/-- Filling in the defaults does not change what they stand for. -/
theorem maxWorkers_resolve [Fintype κ] (cfg : Categories κ) (s : Startup) :
    ((resolve s.settings).generalWorkers + (resolve s.settings).batchJobsReserved +
      (resolve s.settings).replyJobsReserved + ∑ c, (cfg.reservedThreads c : ℤ)).toNat =
      ({ s with settings := resolve s.settings }.poolConfig cfg).maxWorkers := by
  have hbatch : 0 ≤ (resolve s.settings).batchJobsReserved := by
    unfold resolve
    dsimp only
    split <;> omega
  have hreply : 0 ≤ (resolve s.settings).replyJobsReserved := by
    unfold resolve
    dsimp only
    split <;> omega
  have hsum : ∑ c, (cfg.reservedThreads c : ℤ) = ((∑ c, cfg.reservedThreads c : ℕ) : ℤ) := by
    rw [Nat.cast_sum]
  rw [PoolConfig.maxWorkers, PoolConfig.batchJobsReserved, PoolConfig.replyJobsReserved, hsum]
  show _ = (resolve s.settings).generalWorkers +
    (if (resolve s.settings).batchJobsReserved < 0 then _ else
      (resolve s.settings).batchJobsReserved.toNat) +
    (if (resolve s.settings).replyJobsReserved < 0 then _ else
      (resolve s.settings).replyJobsReserved.toNat) + ∑ c, cfg.reservedThreads c
  rw [if_neg (by omega), if_neg (by omega)]
  omega

/-- The proxy thread runs the pool with the numbers that the owner has set, and there is a socket
for every worker. -/
structure Sized [Fintype κ] (cfg : Categories κ) (s : Startup) : Prop where
  max : s.proxy ≠ .absent → s.maxWorkers = (s.poolConfig cfg).maxWorkers
  sockets : s.proxy.released = true → s.workerSockets = s.maxWorkers

variable [Fintype κ] {cfg : Categories κ}

theorem Sized.step (h : s.Sized cfg) {e : StartupEvent} (hs : Startup.step cfg s e = some s') :
    s'.Sized cfg := by
  have habsent : ∀ {settings : Settings}, s.proxy = .absent →
      ({ s with settings := settings } : Startup).Sized cfg := by
    intro settings hp
    refine ⟨fun hne => absurd hp hne, fun hr => ?_⟩
    have hr : s.proxy.released = true := hr
    rw [hp] at hr
    cases hr
  cases e with
  | setThreads count threads =>
    rw [Startup.step] at hs
    obtain ⟨_, rfl | hok⟩ := call_cases hs
    · exact h
    · obtain ⟨hp, settings, rfl⟩ := setThreads_eq hok
      exact habsent hp
  | addTaggedThread name start =>
    rw [Startup.step] at hs
    obtain ⟨_, rfl | hok⟩ := call_cases hs
    · exact h
    · obtain ⟨_, rfl⟩ := addTaggedThread_eq hok
      exact ⟨h.max, h.sockets⟩
  | start =>
    rw [Startup.step] at hs
    obtain ⟨_, rfl | hok⟩ := call_cases hs
    · exact h
    · obtain ⟨_, rfl⟩ := start_eq hok
      exact ⟨fun _ => maxWorkers_resolve cfg s, fun hr => (by cases hr)⟩
  | destroy =>
    rw [Startup.step] at hs
    obtain ⟨_, rfl | hok⟩ := call_cases hs
    · exact h
    · cases hok
      unfold Startup.destroy
      split_ifs <;> exact ⟨h.max, h.sockets⟩
  | thread i e =>
    obtain ⟨t, _, hact⟩ := Option.bind_eq_some_iff.1 hs
    obtain ⟨r, _, rfl⟩ := Option.map_eq_some_iff.1 hact
    exact ⟨h.max, h.sockets⟩
  | proxyLoopInit outcome =>
    obtain ⟨hproxy, ⟨e, n, _, rfl⟩ | ⟨_, rfl⟩ | ⟨_, rfl⟩⟩ := proxyLoopInit_cases hs
    · exact ⟨fun _ => h.max (by rw [hproxy]; simp), fun hr => (by cases hr)⟩
    · exact ⟨fun _ => h.max (by rw [hproxy]; simp), fun _ => rfl⟩
    · exact ⟨fun _ => h.max (by rw [hproxy]; simp), fun _ => rfl⟩
  | _ =>
    simp only [Startup.step, Startup.resume, Startup.getReady, Startup.notifyShutdown, Startup.join,
      Startup.announce, Startup.collect, Startup.release, Startup.serve, notifyAll] at hs
    repeat' split at hs
    all_goals cases hs
    all_goals exact ⟨fun hne => h.max (by simp_all),
      fun hr => h.sockets (by simp_all [ProxyPc.released])⟩

theorem sized_of_run {settings : Settings} {es : List StartupEvent}
    (hrun : Transition.run (Startup.step cfg) (fresh settings) es = some s) : s.Sized cfg :=
  Transition.run_induction (P := Sized cfg)
    ⟨fun hne => absurd rfl hne, fun hr => by cases hr⟩ (fun _ _ _ _ _ h hs => h.step hs) hrun

end Startup

/-! ## The threads -/

/-- A tagged thread as the worker pool sees it. -/
def TaggedThread.toThread (t : TaggedThread) : Thread where
  status :=
    match t.pc with
    | .starting => .starting
    | .calling | .ready => .waiting
    | .exited => .exited
    | _ => .absent
  inbox := t.inbox

namespace Startup

variable [Fintype κ] {cfg : Categories κ} {s : Startup}

/-- The worker pool that the proxy loop takes over. -/
def toSys (cfg : Categories κ) (s : Startup) : Sys κ :=
  { Sys.init (s.poolConfig cfg) with
    threads := fun
      | .untagged _ => {}
      | .tagged i => (s.threads[i]?.map TaggedThread.toThread).getD {} }

end Startup

namespace Sys

variable [Fintype κ] [DecidableEq κ] {cfg : PoolConfig κ}

/-- The pool in which some of the tagged threads have received their `START`. -/
def initWith (cfg : PoolConfig κ) (started : List ℕ) : Sys κ :=
  { init cfg with
    threads := fun
      | .untagged _ => {}
      | .tagged i =>
        if cfg.taggedThreads ≤ i then {}
        else if i ∈ started then { status := .waiting }
        else { status := .starting, inbox := [.start] } }

omit [DecidableEq κ] in
theorem initWith_nil (cfg : PoolConfig κ) : initWith cfg [] = init cfg := by
  have hthreads : (initWith cfg []).threads = (init cfg).threads := by
    funext w
    cases w with
    | untagged i => rfl
    | tagged i =>
      rcases Nat.lt_or_ge i cfg.taggedThreads with hi | hi
      · simp [initWith, init, hi]
      · simp [initWith, init, hi, Nat.not_lt.2 hi]
  show ({ init cfg with threads := (initWith cfg []).threads } : Sys κ) = init cfg
  rw [hthreads]

/-- One more tagged thread receives its `START`. -/
theorem step_initWith {started : List ℕ} {i : ℕ} (hnew : i ∉ started) (hi : i < cfg.taggedThreads) :
    Sys.step cfg (initWith cfg started) (.receive (.tagged i)) =
      some (initWith cfg (started ++ [i])) := by
  have hthread : (initWith cfg started).threads (.tagged i) =
      { status := .starting, inbox := [.start] } := by
    simp [initWith, hnew, Nat.not_le.2 hi]
  have hthreads : (initWith cfg (started ++ [i])).threads =
      Function.update (initWith cfg started).threads (.tagged i) { status := .waiting } := by
    funext w
    cases w with
    | untagged j => rfl
    | tagged j =>
      rcases eq_or_ne j i with rfl | hne
      · simp [initWith, Nat.not_le.2 hi]
      · simp [initWith, hne]
  have hreceive : (initWith cfg started).workerReceive (.tagged i) =
      some { initWith cfg started with
        threads :=
          Function.update (initWith cfg started).threads (.tagged i) { status := .waiting } } := by
    rw [workerReceive, hthread]
    cases (initWith cfg started).pool.runInfo (.tagged i) <;> rfl
  show (if (init cfg).stopped then none else (initWith cfg started).workerReceive (.tagged i)) = _
  rw [hreceive, ← hthreads]
  rfl

/-- The tagged threads receive their `START` in any order. -/
theorem run_initWith {started : List ℕ} (hnodup : started.Nodup)
    (hlt : ∀ i ∈ started, i < cfg.taggedThreads) :
    Transition.run (Sys.step cfg) (init cfg) (started.map fun i => .receive (.tagged i)) =
      some (initWith cfg started) := by
  induction started using List.reverseRecOn with
  | nil => rw [initWith_nil]; rfl
  | append_singleton started i ih =>
    obtain ⟨hstarted, _, hne⟩ := List.nodup_append.1 hnodup
    have hnew : i ∉ started := fun hmem => hne i hmem i (by simp) rfl
    rw [List.map_append]
    exact Transition.run_snoc (ih hstarted fun j hj => hlt j (List.mem_append_left _ hj))
      (step_initWith hnew (hlt i (by simp)))

end Sys

namespace Startup

variable [Fintype κ] [DecidableEq κ] {cfg : Categories κ} {s : Startup}

/-- The tagged threads that have received their `START`. -/
def startedThreads (s : Startup) : List ℕ :=
  (List.range s.threads.length).filter fun i => s.threads[i]?.any fun t => t.pc.started

theorem mem_startedThreads {i : ℕ} {t : TaggedThread} (ht : s.threads[i]? = some t) :
    i ∈ s.startedThreads ↔ t.pc.started = true := by
  have hi : i < s.threads.length := (List.getElem?_eq_some_iff.1 ht).1
  rw [startedThreads, List.mem_filter, List.mem_range, ht, Option.any_some]
  exact and_iff_right hi

/-- When the proxy loop begins, a tagged thread has its `START` before it or behind it. -/
theorem Inv.toThread_eq (h : s.Inv) (hproxy : s.proxy = .looping) {i : ℕ} {t : TaggedThread}
    (ht : s.threads[i]? = some t) :
    t.toThread = if t.pc.started = true then { status := .waiting }
      else { status := .starting, inbox := [.start] } := by
  have hfits := h.threads i t ht
  have htold : (s.situation i).told = true := by
    show s.proxy.told i = true
    rw [hproxy]
    rfl
  have hannounced := hfits.announced (hfits.heard htold)
  have hinbox := hfits.inbox
  rw [htold] at hinbox
  rw [TaggedThread.toThread, hinbox]
  cases hpc : t.pc with
  | starting | calling | ready => rfl
  | _ =>
    rw [hpc] at hannounced
    cases hannounced

omit [DecidableEq κ] in
theorem Inv.toSys_eq (h : s.Inv) (hproxy : s.proxy = .looping) :
    s.toSys cfg = Sys.initWith (s.poolConfig cfg) s.startedThreads := by
  have hthreads : (s.toSys cfg).threads =
      (Sys.initWith (s.poolConfig cfg) s.startedThreads).threads := by
    funext w
    cases w with
    | untagged i => rfl
    | tagged i =>
      show (s.threads[i]?.map TaggedThread.toThread).getD {} =
        if s.threads.length ≤ i then {} else if i ∈ s.startedThreads then _ else _
      cases ht : s.threads[i]? with
      | none => rw [if_pos (List.getElem?_eq_none_iff.1 ht)]; rfl
      | some t =>
        have hi : i < s.threads.length := (List.getElem?_eq_some_iff.1 ht).1
        rw [if_neg (Nat.not_le.2 hi), Option.map_some, Option.getD_some, h.toThread_eq hproxy ht]
        simp only [mem_startedThreads ht]
  show ({ Sys.init (s.poolConfig cfg) with threads := (s.toSys cfg).threads } : Sys κ) = _
  rw [hthreads]
  rfl

/-- **The tagged threads are started together, and then the proxy loop takes over.** -/
theorem handshake {settings : Settings} {es : List StartupEvent}
    (hrun : Transition.run (Startup.step cfg) (fresh settings) es = some s)
    (hlen : s.threads.length < 2 ^ 32) :
    s.proxy ≠ .failed .hostUnreachable ∧
    (∀ (i : ℕ) (t : TaggedThread), s.threads[i]? = some t →
      (.start ∈ t.inbox ∨ t.pc.started = true) →
      ∀ (j : ℕ) (u : TaggedThread), s.threads[j]? = some u →
        u.pc.announced = true ∧ routingId j ∈ s.known) ∧
    (∀ (i : ℕ) (t : TaggedThread), s.threads[i]? = some t →
      valuesOf s.started i = if t.pc.started = true then t.start.toList else []) ∧
    (s.proxy = .looping → s.workerSockets = (s.poolConfig cfg).maxWorkers ∧
      ∃ ps, (∀ e ∈ ps, ∃ i, e = .receive (.tagged i)) ∧
        Transition.run (Sys.step (s.poolConfig cfg)) (Sys.init (s.poolConfig cfg)) ps =
          some (s.toSys cfg)) := by
  have h := inv_of_run hrun hlen
  have hsized := sized_of_run hrun
  refine ⟨h.reachable, fun i t ht hstart => ?_, fun i t ht => (h.threads i t ht).calls,
    fun hproxy => ?_⟩
  · -- The proxy thread sends no `START` before it has heard from everyone.
    have hfits := h.threads i t ht
    have htold : s.proxy.told i = true := by
      rcases hstart with hmem | hstarted
      · rw [hfits.inbox] at hmem
        split at hmem
        · rename_i hp
          exact hp.1
        · cases hmem
      · exact hfits.started hstarted
    have hcollected : s.proxy.collected = true := by
      cases hp : s.proxy with
      | releasing k => rfl
      | looping => rfl
      | _ =>
        rw [hp] at htold
        cases htold
    intro j u hu
    have hknown := h.collected hcollected _ (mem_routingIds (List.getElem?_eq_some_iff.1 hu).1)
    exact ⟨(h.threads j u hu).announced (decide_eq_true hknown), hknown⟩
  · refine ⟨?_, s.startedThreads.map fun i => .receive (.tagged i), fun e he => ?_, ?_⟩
    · rw [hsized.sockets (by rw [hproxy]; rfl), hsized.max (by rw [hproxy]; simp)]
    · obtain ⟨i, _, rfl⟩ := List.mem_map.1 he
      exact ⟨i, rfl⟩
    · rw [h.toSys_eq hproxy]
      refine Sys.run_initWith (List.nodup_range.filter _) fun i hi => ?_
      exact List.mem_range.1 (List.mem_filter.1 hi).1

/-- One category, with nothing reserved for it. -/
def plainCategories : Categories Unit := ⟨fun _ => 0, fun _ => 200⟩

/-- One general thread. -/
def oneThread : Settings := ⟨1, Nat.one_pos, -1, -1⟩

/-- Two tagged threads, the second of which falls asleep, wakes up for no reason and falls asleep
again.  The proxy loop has begun, and the first thread is in its `start` function. -/
def twoThreads : List StartupEvent :=
  [.addTaggedThread "a" (some 7), .thread 0 .test, .addTaggedThread "b" none, .thread 1 .test,
    .thread 1 .wake, .thread 1 .test, .start, .proxyLoopInit .fine, .announce, .thread 1 .test,
    .thread 1 .look, .thread 1 .connect, .collect 1, .thread 0 .test, .thread 0 .look,
    .thread 0 .connect, .collect 0, .release, .thread 0 .receive, .release, .release]

theorem handshake_twoThreads :
    ∃ s, Transition.run (Startup.step plainCategories) (fresh oneThread) twoThreads = some s ∧
      s.proxy = .looping ∧ s.started = [(0, 7)] ∧
      ∃ ps, Transition.run (Sys.step (s.poolConfig plainCategories))
        (Sys.init (s.poolConfig plainCategories)) ps = some (s.toSys plainCategories) := by
  have hrun : Transition.run (Startup.step plainCategories) (fresh oneThread) twoThreads = some _ :=
    rfl
  obtain ⟨_, _, _, hpool⟩ := handshake hrun (by decide)
  obtain ⟨_, ps, _, hps⟩ := hpool rfl
  exact ⟨_, hrun, rfl, rfl, ps, hps⟩

end Startup

end OxenMQ
