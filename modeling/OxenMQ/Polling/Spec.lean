import OxenMQ.Polling.Defs

/-!
# What the steps of the loop do to the sockets

`Handled` is what a handler may do; `drain_cases` and `turn_cases` say what a turn of one of the
loops does, which either handles a message or finds nothing.
-/

set_option autoImplicit false

namespace OxenMQ

open EdgeTriggered

namespace Poller

variable {σ : Type} {epoll look : Bool} {s s' : Poller σ} {e : Effect} {r : Ready}

theorem mem_sources : r ∈ s.sources ↔
    r = .command ∨ r = .worker ∨ r = .zap ∨ ∃ id ∈ s.connections, .connection id = r := by
  simp [sources]

theorem sources_congr (h : s'.connections = s.connections) : s'.sources = s.sources := by
  rw [sources, h, sources]

theorem nodup_sources (s : Poller σ) : s.sources.Nodup := by
  have hconnections : (s.connections.map Ready.connection).Nodup :=
    s.nodup.map fun _ _ h => Ready.connection.inj h
  simp [sources, hconnections]

theorem length_sources (s : Poller σ) : s.sources.length = 3 + s.connections.length := by
  simp only [sources, List.length_append, List.length_cons, List.length_nil, List.length_map]

variable [EdgeTriggered σ]

/-! ## What a handler does -/

/-- What becomes of the sockets and the flags in a handler. -/
structure Handled (s s' : Poller σ) : Prop where
  updated : s.connectionsUpdated = true → s'.connectionsUpdated = true
  /-- Without `connections_updated` the sockets are the same. -/
  connections : s'.connectionsUpdated = false → s'.connections = s.connections
  watched : s'.connectionsUpdated = false → ∀ r, isWatched (s'.inboxes r) = isWatched (s.inboxes r)
  pc : s'.pc = s.pc
  queue : s'.queue = s.queue

theorem handled_of_handle (h : s.handle e = some s') : s.Handled s' := by
  unfold handle at h
  split at h
  · cases h
  cases h
  refine ⟨?_, ?_, fun hflag r => ?_, rfl, rfl⟩
  · intro hflag
    simp [hflag]
  · simp only [Bool.or_eq_false_iff, Bool.not_eq_false']
    rintro ⟨⟨_, hopened⟩, hclosed⟩
    simp [Effect.connections, Option.isNone_iff_eq_none.1 (Option.isSome_eq_false_iff.1 hopened),
      List.isEmpty_iff.1 hclosed]
  · simp only [Bool.or_eq_false_iff, Bool.not_eq_false'] at hflag
    obtain ⟨⟨_, hopened⟩, hclosed⟩ := hflag
    have hreplaces : e.replaces r = false := by
      cases r with
      | connection id =>
        simp [Effect.replaces, List.isEmpty_iff.1 hclosed,
          Option.isNone_iff_eq_none.1 (Option.isSome_eq_false_iff.1 hopened)]
      | _ => rfl
    dsimp only [updateAll]
    rw [hreplaces]
    split
    · cases ‹false = true›
    · split
      · exact watched_sync _
      · rfl

/-! ## What is in the sockets -/

theorem total_receive (s : Poller σ) (r r' : Ready) (look : Bool) :
    total ((s.receive r look).1.inboxes r') =
      if r' = r then total (s.inboxes r') - 1 else total (s.inboxes r') := by
  simp only [receive, update]
  split
  · exact total_recv look _
  · rfl

theorem total_update_sync (s : Poller σ) (r r' : Ready) :
    total ((s.update r sync).inboxes r') = total (s.inboxes r') := by
  simp only [update]
  split
  · exact total_sync _
  · rfl

theorem total_updateAll {f : σ → σ} (hf : ∀ x : σ, total (f x) = total x)
    (rs : List Ready) (s : Poller σ) (r : Ready) :
    total ((s.updateAll rs f).inboxes r) = total (s.inboxes r) := by
  simp only [updateAll]
  split
  · exact hf _
  · rfl

theorem watched_update {f : σ → σ} (hf : ∀ x : σ, isWatched (f x) = isWatched x) (r : Ready)
    (s : Poller σ) (r' : Ready) :
    isWatched ((s.update r f).inboxes r') = isWatched (s.inboxes r') := by
  simp only [update]
  split
  · exact hf _
  · rfl

theorem watched_updateAll {f : σ → σ} (hf : ∀ x : σ, isWatched (f x) = isWatched x)
    (rs : List Ready) (s : Poller σ) (r : Ready) :
    isWatched ((s.updateAll rs f).inboxes r) = isWatched (s.inboxes r) := by
  simp only [updateAll]
  split
  · exact hf _
  · rfl

/-- The sockets have been looked at, and nothing has been received. -/
structure Looked (s s' : Poller σ) : Prop where
  total : ∀ r, total (s'.inboxes r) = total (s.inboxes r)
  watched : ∀ r, isWatched (s'.inboxes r) = isWatched (s.inboxes r)
  connections : s'.connections = s.connections
  connectionsUpdated : s'.connectionsUpdated = s.connectionsUpdated
  proxySkipOnePoll : s'.proxySkipOnePoll = s.proxySkipOnePoll

theorem Looked.of_inboxes (hinboxes : s'.inboxes = s.inboxes)
    (hconnections : s'.connections = s.connections)
    (hupdated : s'.connectionsUpdated = s.connectionsUpdated)
    (hskip : s'.proxySkipOnePoll = s.proxySkipOnePoll) : s.Looked s' :=
  ⟨fun r => by rw [hinboxes], fun r => by rw [hinboxes], hconnections, hupdated, hskip⟩

theorem Looked.trans {s'' : Poller σ} (h : s.Looked s') (h' : s'.Looked s'') : s.Looked s'' :=
  ⟨fun r => (h'.total r).trans (h.total r), fun r => (h'.watched r).trans (h.watched r),
    h'.connections.trans h.connections, h'.connectionsUpdated.trans h.connectionsUpdated,
    h'.proxySkipOnePoll.trans h.proxySkipOnePoll⟩

theorem looked_sync (s : Poller σ) (r : Ready) : s.Looked (s.update r sync) :=
  ⟨total_update_sync s r, watched_update watched_sync r s, rfl, rfl, rfl⟩

/-- There is nothing to receive. -/
theorem looked_receive (htotal : total (s.inboxes r) = 0) : s.Looked (s.receive r look).1 := by
  refine ⟨fun r' => ?_, watched_update (watched_recv look) r s, rfl, rfl, rfl⟩
  rw [total_receive]
  split
  · rename_i heq
    rw [heq, htotal]
  · rfl

/-- There is something to receive, or there is not. -/
theorem receive_cases (s : Poller σ) (r : Ready) (look : Bool) :
    ((s.receive r look).2 = true ∧ 0 < total (s.inboxes r)) ∨
      (¬(s.receive r look).2 = true ∧ total (s.inboxes r) = 0 ∧ s.Looked (s.receive r look).1) := by
  have hreceived : (s.receive r look).2 = decide (0 < total (s.inboxes r)) := recv_snd look _
  rw [hreceived, decide_eq_true_eq]
  rcases Nat.eq_zero_or_pos (total (s.inboxes r)) with htotal | htotal
  · exact Or.inr ⟨by omega, htotal, looked_receive htotal⟩
  · exact Or.inl ⟨htotal, htotal⟩

theorem looked_updateAll {f : σ → σ} (htotal : ∀ x : σ, total (f x) = total x)
    (hwatched : ∀ x : σ, isWatched (f x) = isWatched x) (rs : List Ready) (s : Poller σ) :
    s.Looked (s.updateAll rs f) :=
  ⟨total_updateAll htotal rs s, watched_updateAll hwatched rs s, rfl, rfl, rfl⟩

theorem looked_probe (s : Poller σ) (todo : List Ready) : s.Looked (s.probe todo) := by
  cases todo with
  | nil => exact .of_inboxes rfl rfl rfl rfl
  | cons r todo =>
    refine (looked_sync s r).trans ?_
    cases r <;> exact .of_inboxes rfl rfl rfl rfl

theorem looked_fill (s : Poller σ) (ready todo : List ℤ) : s.Looked (s.fill ready todo) := by
  cases todo with
  | nil => exact .of_inboxes rfl rfl rfl rfl
  | cons id todo => exact (looked_sync s (.connection id)).trans (.of_inboxes rfl rfl rfl rfl)

theorem looked_processQueue (s : Poller σ) (synced : List Ready) :
    s.Looked (s.processQueue synced) :=
  (looked_updateAll total_sync watched_sync synced s).trans
    (.of_inboxes rfl rfl rfl rfl)

theorem looked_wake {evs : List Ready} (h : s.wake epoll evs = some s') :
    s.Looked s' ∧ s.pc = .waiting ∧ s'.pc = .control := by
  unfold wake at h
  split at h
  · cases h
  · rename_i hpc
    have hpc := not_not.1 hpc
    split at h
    · split at h
      · cases h
        exact ⟨(looked_updateAll total_report watched_report evs s).trans
          (.of_inboxes rfl rfl rfl rfl), hpc, rfl⟩
      · cases h
    · split at h
      · cases h
        exact ⟨(looked_updateAll total_sync watched_sync s.sources s).trans
          (.of_inboxes rfl rfl rfl rfl), hpc, rfl⟩
      · cases h

theorem looked_timeout (h : s.timeout = some s') :
    s.Looked s' ∧ s.pc = .waiting ∧ s'.pc = .control := by
  unfold timeout at h
  split at h
  · rename_i hpc
    cases h
    exact ⟨.of_inboxes rfl rfl rfl rfl, hpc, rfl⟩
  · cases h

/-! ## The top of the loop -/

/-- The next iteration does not wait. -/
def flagged (s : Poller σ) : Bool := s.connectionsUpdated || s.proxySkipOnePoll

/-- The state in which an iteration begins. -/
structure Begun (epoll : Bool) (s s' : Poller σ) : Prop where
  total : ∀ r, total (s'.inboxes r) = total (s.inboxes r)
  connections : s'.connections = s.connections
  flagged : s'.flagged = false
  pc : s'.pc = if s.flagged then if epoll then .probing [.command, .worker, .zap] else .control
    else .waiting

theorem begun_begin (epoll : Bool) (s : Poller σ) : s.Begun epoll (s.begin epoll) := by
  have htotals : ∀ r, total ((s.updateAll s.sources watch).inboxes r) = total (s.inboxes r) :=
    total_updateAll total_watch s.sources s
  unfold Poller.begin
  by_cases hupdated : s.connectionsUpdated = true
  · have hflagged : s.flagged = true := by simp [flagged, hupdated]
    simp only [hupdated, if_true]
    exact ⟨htotals, rfl, rfl, by simp [hflagged]⟩
  · have hupdated : s.connectionsUpdated = false := by simpa using hupdated
    have hflagged : s.flagged = s.proxySkipOnePoll := by simp [flagged, hupdated]
    simp only [hupdated, Bool.false_eq_true, if_false]
    split
    · rename_i hskip
      exact ⟨fun _ => rfl, rfl, rfl, by simp [hflagged, hskip]⟩
    · rename_i hskip
      refine ⟨fun _ => rfl, rfl, ?_, by simp [hflagged, hskip]⟩
      simpa [flagged] using hskip

/-! ## Turns of the loops -/

/-- A message is handled, or there is none. -/
theorem drain_cases {process : Bool} {next : PollPc} (h : s.drain process r next look e = some s') :
    (process = true ∧ 0 < total (s.inboxes r) ∧ (s.receive r look).1.handle e = some s') ∨
      ((process = true → total (s.inboxes r) = 0) ∧
        s.Looked s' ∧ s'.pc = next) := by
  unfold drain at h
  split at h
  · rename_i hprocess
    dsimp only at h
    rcases receive_cases s r look with ⟨hgot, htotal⟩ | ⟨hgot, htotal, hlooked⟩
    · rw [if_pos hgot] at h
      exact Or.inl ⟨hprocess, htotal, h⟩
    · rw [if_neg hgot] at h
      cases h
      exact Or.inr ⟨fun _ => htotal, hlooked.trans (.of_inboxes rfl rfl rfl rfl), rfl⟩
  · rename_i hprocess
    cases h
    exact Or.inr ⟨fun hp => absurd hp hprocess, .of_inboxes rfl rfl rfl rfl, rfl⟩

/-- The incoming message loop is at its end, it follows a pointer that is no good, it finds nothing,
or it handles a message. -/
theorem turn_cases (h : s.turn epoll look e = some s') :
    (s.queue.front? = none ∧ s' = s.finish epoll) ∨
    (s.queue.front? ≠ none ∧ (∀ id, s.queue.front? = some (some id) → id ∉ s.connections) ∧
      s' = { s with pc := .stale }) ∨
    (∃ id, s.queue.front? = some (some id) ∧ id ∈ s.connections ∧
      total (s.inboxes (.connection id)) = 0 ∧ s.Looked s' ∧ s'.pc = s.pc ∧
      s'.queue = s.queue.advance) ∨
    ∃ (id : ℤ) (m : Poller σ), s.queue.front? = some (some id) ∧ id ∈ s.connections ∧
      0 < total (s.inboxes (.connection id)) ∧
      { (s.receive (.connection id) look).1 with queue := s.queue.requeue }.handle e = some m ∧
      s' = if m.connectionsUpdated then m.finish epoll
        else { m with queue := m.queue.advance } := by
  unfold turn at h
  split at h
  · rename_i hfront
    cases h
    exact Or.inl ⟨hfront, rfl⟩
  · rename_i hfront
    cases h
    exact Or.inr (Or.inl ⟨by simp [hfront], by simp [hfront], rfl⟩)
  · rename_i id hfront
    split at h
    · rename_i hid
      dsimp only at h
      rcases receive_cases s (.connection id) look with ⟨hgot, htotal⟩ | ⟨hgot, htotal, hlooked⟩
      · rw [if_pos hgot] at h
        obtain ⟨m, hm, rfl⟩ := Option.map_eq_some_iff.1 h
        exact Or.inr (Or.inr (Or.inr ⟨id, m, hfront, hid, htotal, hm, rfl⟩))
      · rw [if_neg hgot] at h
        cases h
        exact Or.inr (Or.inr (Or.inl ⟨id, hfront, hid, htotal,
          hlooked.trans (.of_inboxes rfl rfl rfl rfl), rfl, rfl⟩))
    · rename_i hid
      cases h
      refine Or.inr (Or.inl ⟨by simp [hfront], fun id' hid' => ?_, rfl⟩)
      rw [hfront] at hid'
      cases hid'
      exact hid

end Poller

end OxenMQ
