import OxenMQ.Polling.Spec

/-!
# The proxy thread sleeps only when there is nothing to do

With `epoll`, a socket that has something to read need not be reported.  Nevertheless the loop never
waits while there is a message that it is not told about: `drained_of_asleep` says that when it
waits and nothing wakes it up, every message that has arrived has been received.

* `Safe` is what the loop knows at each point about the sockets that it has looked at;
* `Inv` adds that all sockets are watched unless `connections_updated` is set.
-/

set_option autoImplicit false

namespace OxenMQ

open EdgeTriggered

namespace Poller

variable {σ : Type} [EdgeTriggered σ] {epoll : Bool} {s s' : Poller σ} {e : Effect} {r : Ready}

/-! ## Sockets are watched -/

/-- If `connections_updated` is not set afterwards, it has not been set before, and the same sockets
are watched. -/
structure Steady (s s' : Poller σ) : Prop where
  updated : s'.connectionsUpdated = false → s.connectionsUpdated = false
  connections : s'.connectionsUpdated = false → s'.connections = s.connections
  watched : s'.connectionsUpdated = false → ∀ r, isWatched (s'.inboxes r) = isWatched (s.inboxes r)

namespace Steady

theorem of_watched (hupdated : s'.connectionsUpdated = s.connectionsUpdated)
    (hconnections : s'.connections = s.connections)
    (hwatched : ∀ r, isWatched (s'.inboxes r) = isWatched (s.inboxes r)) : s.Steady s' :=
  ⟨fun h => hupdated ▸ h, fun _ => hconnections, fun _ => hwatched⟩

theorem of_inboxes (hupdated : s'.connectionsUpdated = s.connectionsUpdated)
    (hconnections : s'.connections = s.connections) (hinboxes : s'.inboxes = s.inboxes) :
    s.Steady s' :=
  of_watched hupdated hconnections fun r => by rw [hinboxes]

theorem trans {s'' : Poller σ} (h : s.Steady s') (h' : s'.Steady s'') : s.Steady s'' where
  updated hflag := h.updated (h'.updated hflag)
  connections hflag := (h'.connections hflag).trans (h.connections (h'.updated hflag))
  watched hflag r := (h'.watched hflag r).trans (h.watched (h'.updated hflag) r)

end Steady

theorem Looked.steady (h : s.Looked s') : s.Steady s' :=
  .of_watched h.connectionsUpdated h.connections h.watched

theorem Handled.steady (h : s.Handled s') : s.Steady s' where
  updated hflag := Bool.eq_false_iff.2 fun hs => by simp [h.updated hs] at hflag
  connections := h.connections
  watched := h.watched

theorem steady_receive (s : Poller σ) (r : Ready) (look : Bool) : s.Steady (s.receive r look).1 :=
  .of_watched rfl rfl (watched_update (watched_recv look) r s)

theorem steady_drain {process look : Bool} {next : PollPc}
    (h : s.drain process r next look e = some s') : s.Steady s' := by
  rcases drain_cases h with ⟨_, _, hhandle⟩ | ⟨_, hlooked, _⟩
  · exact (steady_receive s r look).trans (handled_of_handle hhandle).steady
  · exact hlooked.steady

theorem steady_finish (epoll : Bool) (s : Poller σ) : s.Steady (s.finish epoll) := by
  unfold finish
  split <;> exact .of_inboxes rfl rfl rfl

theorem steady_turn {look : Bool} (h : s.turn epoll look e = some s') : s.Steady s' := by
  rcases turn_cases h with ⟨_, rfl⟩ | ⟨_, _, rfl⟩ | ⟨id, _, _, _, hlooked, _⟩ |
    ⟨id, m, _, _, _, hm, rfl⟩
  · exact steady_finish epoll s
  · exact .of_inboxes rfl rfl rfl
  · exact hlooked.steady
  · have hqueue : s.Steady { (s.receive (.connection id) look).1 with queue := s.queue.requeue } :=
      (steady_receive s (.connection id) look).trans (.of_inboxes rfl rfl rfl)
    refine (hqueue.trans (handled_of_handle hm).steady).trans ?_
    split
    · exact steady_finish epoll m
    · exact .of_inboxes rfl rfl rfl

theorem steady_check (s : Poller σ) (todo : List Ready) : s.Steady (s.check todo) := by
  cases todo with
  | nil => exact .of_inboxes rfl rfl rfl
  | cons r todo =>
    refine (looked_sync s r).steady.trans ?_
    simp only [check]
    split <;> exact .of_inboxes rfl rfl rfl

/-- Only at the top of the loop `connections_updated` is cleared. -/
theorem steady_run {look : Bool} (hpc : s.pc ≠ .top) (h : s.run epoll look e = some s') :
    s.Steady s' := by
  rw [run] at h
  cases hs : s.pc with
  | top => exact absurd hs hpc
  | waiting | stale => simp [hs] at h
  | control | workers | zap =>
    rw [hs] at h
    exact steady_drain h
  | incoming =>
    rw [hs] at h
    exact steady_turn h
  | probing todo =>
    rw [hs] at h
    exact Option.some.inj h ▸ (looked_probe s todo).steady
  | timers =>
    rw [hs] at h
    exact Option.some.inj h ▸ .of_inboxes rfl rfl rfl
  | queue =>
    rw [hs] at h
    exact Option.some.inj h ▸ (looked_processQueue s e.synced).steady
  | filling todo ready =>
    rw [hs] at h
    exact Option.some.inj h ▸ (looked_fill s ready todo).steady
  | checking todo =>
    rw [hs] at h
    exact Option.some.inj h ▸ steady_check s todo

/-! ## Sockets are safe to wait for -/

/-- It is safe to wait for all sockets. -/
def Quiet (s : Poller σ) : Prop := ∀ r ∈ s.sources, Alert (s.inboxes r)

/-- What the loop knows about the sockets that it has looked at. -/
def Safe (epoll : Bool) (s : Poller σ) : Prop :=
  match s.pc with
  | .top => epoll = true → s.connectionsUpdated = false → s.proxySkipOnePoll = false → s.Quiet
  | .waiting => s.connectionsUpdated = false ∧ s.proxySkipOnePoll = false ∧
    (s.processCommand = !epoll ∧ s.processWorker = !epoll ∧ s.processZap = !epoll ∧
      s.processAll = !epoll) ∧ (epoll = true → s.Quiet)
  | .checking todo => s.connectionsUpdated = false ∧ (∀ r ∈ todo, r ∈ s.sources) ∧
    ∀ r ∈ s.sources, r ∉ todo → Alert (s.inboxes r)
  | _ => True

structure Inv (epoll : Bool) (s : Poller σ) : Prop where
  watched : s.connectionsUpdated = false → ∀ r ∈ s.sources, isWatched (s.inboxes r) = true
  safe : s.Safe epoll

theorem Steady.watched_of (h : s.Steady s')
    (hs : s.connectionsUpdated = false → ∀ r ∈ s.sources, isWatched (s.inboxes r) = true) :
    s'.connectionsUpdated = false → ∀ r ∈ s'.sources, isWatched (s'.inboxes r) = true := by
  intro hflag r hr
  rw [h.watched hflag]
  exact hs (h.updated hflag) r (sources_congr (h.connections hflag) ▸ hr)

theorem Inv.begin (h : s.Inv epoll) (hpc : s.pc = .top) : (s.begin epoll).Inv epoll := by
  have hsafe := h.safe
  rw [Safe, hpc] at hsafe
  unfold Poller.begin
  by_cases hupdated : s.connectionsUpdated = true
  · -- All sockets are watched from now on.
    have hwatched : ∀ r ∈ s.sources,
        isWatched ((s.updateAll s.sources watch).inboxes r) = true := by
      intro r hr
      simp [updateAll, hr, watched_watch]
    simp only [hupdated, if_true]
    refine ⟨fun _ => hwatched, ?_⟩
    cases epoll <;> trivial
  · have hupdated : s.connectionsUpdated = false := by simpa using hupdated
    simp only [hupdated, Bool.false_eq_true, if_false]
    split
    · exact ⟨fun _ => h.watched hupdated, by cases epoll <;> trivial⟩
    · rename_i hskip
      have hskip : s.proxySkipOnePoll = false := by simpa using hskip
      refine ⟨fun _ => h.watched hupdated, rfl, hskip, ⟨rfl, rfl, rfl, ?_⟩, fun hepoll => ?_⟩
      · simp [hskip]
      · exact hsafe hepoll hupdated hskip

theorem safe_finish (epoll : Bool) (s : Poller σ) : (s.finish epoll).Safe epoll := by
  unfold finish
  split
  · rename_i h
    simp only [Bool.and_eq_true, Bool.not_eq_true'] at h
    exact ⟨h.1.2, fun r hr => hr, fun r hr hnot => absurd hr hnot⟩
  · rename_i h
    intro hepoll hupdated hskip
    dsimp only at hupdated hskip
    simp [hepoll, hupdated, hskip] at h

theorem safe_drain {process look : Bool} {next : PollPc}
    (h : s.drain process r next look e = some s') (hsame : { s' with pc := s.pc }.Safe epoll)
    (hnext : { s' with pc := next }.Safe epoll) : s'.Safe epoll := by
  rcases drain_cases h with ⟨_, _, hhandle⟩ | ⟨_, _, hpc⟩
  · have hpc : s'.pc = s.pc := (handled_of_handle hhandle).pc
    rwa [← hpc] at hsame
  · rwa [← hpc] at hnext

theorem safe_turn {look : Bool} (hpc : s.pc = .incoming) (h : s.turn epoll look e = some s') :
    s'.Safe epoll := by
  rcases turn_cases h with ⟨_, rfl⟩ | ⟨_, _, rfl⟩ | ⟨id, _, _, _, _, hpc', _⟩ | ⟨id, m, _, _, _, hm,
    rfl⟩
  · exact safe_finish epoll s
  · trivial
  · simp only [Safe, hpc', hpc]
  · have hpc' : m.pc = .incoming := (handled_of_handle hm).pc.trans hpc
    split
    · exact safe_finish epoll m
    · simp only [Safe, hpc']

/-- A socket that has been looked at and has nothing to read is safe to wait for. -/
theorem safe_check {todo : List Ready} (hpc : s.pc = .checking todo) (h : s.Safe epoll) :
    (s.check todo).Safe epoll := by
  rw [Safe, hpc] at h
  obtain ⟨hupdated, htodo, halert⟩ := h
  cases todo with
  | nil => exact fun _ _ _ r hr => halert r hr List.not_mem_nil
  | cons r todo =>
    simp only [check]
    split
    · rename_i hseen
      intro _ _ hskip
      cases hskip
    · rename_i hseen
      refine ⟨hupdated, fun r' hr' => htodo r' (List.mem_cons_of_mem r hr'), fun r' hr' hnot => ?_⟩
      simp only [update] at hseen ⊢
      split
      · rename_i heq
        rw [heq]
        simp only [if_true] at hseen
        exact alert_sync (by simpa using hseen)
      · rename_i hne
        refine halert r' hr' ?_
        rw [List.mem_cons, not_or]
        exact ⟨hne, hnot⟩

theorem Inv.run {look : Bool} (h : s.Inv epoll) (hs : s.run epoll look e = some s') :
    s'.Inv epoll := by
  by_cases htop : s.pc = .top
  · rw [Poller.run, htop] at hs
    cases hs
    exact h.begin htop
  refine ⟨(steady_run htop hs).watched_of h.watched, ?_⟩
  rw [Poller.run] at hs
  cases hpc : s.pc with
  | top => exact absurd hpc htop
  | waiting | stale => simp [hpc] at hs
  | control | workers | zap =>
    rw [hpc] at hs
    refine safe_drain hs ?_ trivial
    rw [Safe, hpc]
    trivial
  | incoming =>
    rw [hpc] at hs
    exact safe_turn hpc hs
  | probing todo | filling todo ready =>
    rw [hpc] at hs
    cases hs
    cases todo <;> trivial
  | timers =>
    rw [hpc] at hs
    cases hs
    trivial
  | queue =>
    rw [hpc] at hs
    cases hs
    rw [Safe, processQueue]
    cases s.processAll <;> trivial
  | checking todo =>
    rw [hpc] at hs
    cases hs
    exact safe_check hpc h.safe

/-- What arrives is reported. -/
theorem Inv.update_arrive (h : s.Inv epoll) (r : Ready) : (s.update r arrive).Inv epoll := by
  have halert : ∀ r', s.connectionsUpdated = false → r' ∈ s.sources → Alert (s.inboxes r') →
      Alert ((s.update r arrive).inboxes r') := by
    intro r' hupdated hr' hr''
    simp only [update]
    split
    · exact hr''.arrive (h.watched hupdated r' hr')
    · exact hr''
  have hsteady : s.Steady (s.update r arrive) :=
    .of_watched rfl rfl (watched_update watched_arrive r s)
  refine ⟨hsteady.watched_of h.watched, ?_⟩
  have hsafe := h.safe
  unfold Safe at hsafe ⊢
  cases hpc : s.pc with
  | top =>
    rw [hpc] at hsafe
    simp only [update, hpc]
    intro hepoll hupdated hskip r' hr'
    exact halert r' hupdated hr' (hsafe hepoll hupdated hskip r' hr')
  | waiting =>
    rw [hpc] at hsafe
    simp only [update, hpc]
    obtain ⟨hupdated, hskip, hprocess, hquiet⟩ := hsafe
    exact ⟨hupdated, hskip, hprocess,
      fun hepoll r' hr' => halert r' hupdated hr' (hquiet hepoll r' hr')⟩
  | checking todo =>
    rw [hpc] at hsafe
    simp only [update, hpc]
    obtain ⟨hupdated, htodo, hchecked⟩ := hsafe
    exact ⟨hupdated, htodo, fun r' hr' hnot => halert r' hupdated hr' (hchecked r' hr' hnot)⟩
  | _ =>
    simp only [update, hpc]

/-- No flag is set while the loop waits. -/
theorem Inv.unflagged (h : s.Inv epoll) (hpc : s.pc = .waiting) :
    s.connectionsUpdated = false ∧ s.proxySkipOnePoll = false := by
  have hsafe := h.safe
  rw [Safe, hpc] at hsafe
  exact ⟨hsafe.1, hsafe.2.1⟩

/-- The wait is over. -/
theorem Inv.awake (h : s.Inv epoll) (hlooked : s.Looked s') (hpc : s'.pc = .control) :
    s'.Inv epoll := by
  refine ⟨hlooked.steady.watched_of h.watched, ?_⟩
  rw [Safe, hpc]
  trivial

theorem Inv.step {ev : PollEvent} (h : s.Inv epoll) (hs : Poller.step epoll s ev = some s') :
    s'.Inv epoll := by
  cases ev with
  | arrive r =>
    rw [Poller.step] at hs
    split at hs
    · cases hs
      exact h.update_arrive r
    · cases hs
  | timeout =>
    obtain ⟨hlooked, _, hpc⟩ := looked_timeout hs
    exact h.awake hlooked hpc
  | timer e =>
    rw [Poller.step] at hs
    split at hs
    · rename_i hpc
      have hhandled := handled_of_handle hs
      refine ⟨hhandled.steady.watched_of h.watched, ?_⟩
      rw [Safe, hhandled.pc, hpc]
      trivial
    · cases hs
  | wake evs =>
    obtain ⟨hlooked, _, hpc⟩ := looked_wake hs
    exact h.awake hlooked hpc
  | run look e => exact h.run hs

theorem inv_of_run {connections : List ℤ} {hnodup : connections.Nodup} {inboxes : Ready → σ}
    {es : List PollEvent}
    (hrun : Transition.run (Poller.step epoll) (start connections hnodup inboxes) es = some s) :
    s.Inv epoll := by
  refine Transition.run_induction (P := Inv epoll) ⟨?_, ?_⟩ (fun _ _ _ _ _ h hs => h.step hs) hrun
  · simp [start]
  · simp [Safe, start]

theorem length_reported_le (s : Poller σ) : s.reported.length ≤ 3 + s.connections.length :=
  s.length_sources ▸ List.length_filter_le _ s.sources

/-- There is room for all signals. -/
theorem isSome_wake (hpc : s.pc = .waiting) (h : s.reported ≠ []) :
    (s.wake true s.reported).isSome = true := by
  have hroom : s.reported.length = min (3 + s.connections.length) s.reported.length :=
    (min_eq_right s.length_reported_le).symm
  rw [Poller.wake, if_neg (not_not.2 hpc), if_pos rfl,
    if_pos ⟨h, s.nodup_sources.filter _, fun _ hr => hr, hroom⟩]
  rfl

/-- Without a signal nothing is reported. -/
theorem wake_eq_none_of_reported (h : s.reported = []) (evs : List Ready) :
    s.wake true evs = none := by
  unfold Poller.wake
  cases evs with
  | nil => simp
  | cons r evs => simp [h]

/-- **The proxy thread sleeps only when there is nothing to do.**  While it waits and nothing wakes
it up, everything that has arrived has been received. -/
theorem drained_of_asleep {connections : List ℤ} {hnodup : connections.Nodup} {inboxes : Ready → σ}
    {es : List PollEvent}
    (hrun : Transition.run (Poller.step epoll) (start connections hnodup inboxes) es = some s)
    (hpc : s.pc = .waiting) (hasleep : ∀ evs, Poller.step epoll s (.wake evs) = none) :
    ∀ r ∈ s.sources, total (s.inboxes r) = 0 := by
  intro r hr
  have h := inv_of_run hrun
  have hsafe := h.safe
  rw [Safe, hpc] at hsafe
  obtain ⟨hupdated, _, _, hquiet⟩ := hsafe
  refine Nat.eq_zero_of_not_pos fun htotal => ?_
  cases hepoll : epoll with
  | false =>
    -- `zmq::poll` looks at the sockets itself.
    have hany : (s.sources.any fun r =>
        isWatched (s.inboxes r) && decide (0 < total (s.inboxes r))) = true :=
      List.any_eq_true.2 ⟨r, hr, by simp [h.watched hupdated r hr, htotal]⟩
    have hnone := hasleep []
    simp [Poller.step, Poller.wake, hpc, hepoll, hany] at hnone
  | true =>
    -- There is a signal, and as many signals are reported as there is room for.
    have hreported : r ∈ s.reported :=
      List.mem_filter.2 ⟨hr, hquiet hepoll r hr htotal⟩
    have hwake := isSome_wake hpc (List.ne_nil_of_mem hreported)
    have hnone := hasleep s.reported
    rw [Poller.step, hepoll] at hnone
    simp [hnone] at hwake

end Poller

end OxenMQ
