import OxenMQ.Connections.ActiveSns

/-!
# When a connection can be closed

`proxy_close_connection` sets the linger time of a socket before it takes the socket out of the
table.  `zmq` refuses this for a time below `-1`, and for a socket that has only been made by
`connections[id]`, with nothing behind it.  The exception goes through the functions that close
connections one after the other, and leaves them half done.

* `Conn.Closes` says that a connection can be closed, if it is there, and `Conn.Droppable` that all
  connections of ours to a service node can.
* For every function there is its result where this holds, and the exception where it does not:
  closing one connection, closing the connections of several records, dropping one service node, and
  an update of the list of service nodes.
-/

set_option autoImplicit false

namespace OxenMQ

namespace Conn

variable {c c' : Conn} {linger id : ℤ}

/-! ## Connections -/

/-- If there is a connection numbered `id`, then it has a socket behind it, which accepts the linger
time. -/
def Closes (linger : ℤ) (c : Conn) (id : ℤ) : Prop :=
  ∀ s, c.connections.lookup id = some s → s ≠ .null ∧ -1 ≤ lingerValue linger

theorem proxyCloseConnection_of_closes (h : c.Closes linger id) :
    c.proxyCloseConnection linger id = .ok (c.closeAll [id]) := by
  unfold proxyCloseConnection
  split
  · rename_i hnone
    rw [closeAll_of_notMem (AList.lookup_eq_none.1 hnone)]
    rfl
  · rename_i s hs
    obtain ⟨hnull, hlinger⟩ := h s hs
    rw [setLinger, if_neg hnull, if_neg (not_lt.2 hlinger),
      closeAll_of_mem (AList.lookup_isSome.1 (Option.isSome_of_mem hs))]
    rfl

theorem throws_proxyCloseConnection :
    Throws (c.proxyCloseConnection linger id) ↔ ¬ c.Closes linger id := by
  refine ⟨fun h hcloses => ?_, fun h => ?_⟩
  · rw [proxyCloseConnection_of_closes hcloses] at h
    exact not_throws_ok _ h
  · unfold Closes at h
    push Not at h
    obtain ⟨s, hs, hbad⟩ := h
    unfold proxyCloseConnection
    rw [hs]
    refine throws_bind.2 (Or.inl ?_)
    unfold setLinger
    split
    · exact ⟨_, rfl⟩
    · rename_i hnull
      rw [if_pos (hbad hnull)]
      exact ⟨_, rfl⟩

/-- Closing some connections leaves the others as easy to close as they were. -/
theorem closes_closeAll_iff {ids : List ℤ} (h : ∀ i ∈ ids, c.Closes linger i) :
    (c.closeAll ids).Closes linger id ↔ c.Closes linger id := by
  by_cases hid : id ∈ ids
  · refine iff_of_true (fun s hs => ?_) (h id hid)
    rw [lookup_closeAll, if_pos hid] at hs
    cases hs
  · unfold Closes
    rw [lookup_closeAll, if_neg hid]

/-- Closing the connections of several records, one after the other. -/
theorem foldlM_close_of_closes {es : List (ConnectionID × PeerInfo)}
    (h : ∀ e ∈ es, c.Closes linger e.2.connId) :
    es.foldlM (fun c e => c.proxyCloseConnection linger e.2.connId) c =
      .ok (c.closeAll (es.map fun e => e.2.connId)) := by
  induction es generalizing c with
  | nil => rfl
  | cons e es ih =>
    have he := h e List.mem_cons_self
    have hone : ∀ i ∈ [e.2.connId], c.Closes linger i := by simpa using he
    rw [List.foldlM_cons, proxyCloseConnection_of_closes he, Except.ok_bind, List.map_cons,
      closeAll_cons]
    exact ih fun e' he' => (closes_closeAll_iff hone).2 (h e' (List.mem_cons_of_mem _ he'))

theorem throws_foldlM_close {es : List (ConnectionID × PeerInfo)} :
    Throws (es.foldlM (fun c e => c.proxyCloseConnection linger e.2.connId) c) ↔
      ∃ e ∈ es, ¬ c.Closes linger e.2.connId := by
  induction es generalizing c with
  | nil => exact iff_of_false (not_throws_ok _) (by simp)
  | cons e es ih =>
    rw [List.foldlM_cons]
    by_cases hcloses : c.Closes linger e.2.connId
    · have hone : ∀ i ∈ [e.2.connId], c.Closes linger i := by simpa using hcloses
      rw [proxyCloseConnection_of_closes hcloses, Except.ok_bind, ih]
      simp [closes_closeAll_iff hone, hcloses]
    · exact iff_of_true (throws_bind.2 (Or.inl (throws_proxyCloseConnection.2 hcloses)))
        ⟨e, List.mem_cons_self, hcloses⟩

/-! ## Service nodes -/

/-- Every connection of ours to the service node `pk` that is in the table has a socket behind it,
which accepts the linger time. -/
def Droppable (linger : ℤ) (c : Conn) (pk : String) : Prop :=
  ∀ e ∈ c.equalRange ⟨snId, pk, ""⟩, e.2.outgoing = true → c.Closes linger e.2.connId

/-- The tables without a service node. -/
def dropSn (c : Conn) (pk : String) : Conn :=
  { c.closeAll (outgoingIds (c.equalRange ⟨snId, pk, ""⟩)) with
    activeServiceNodes := c.activeServiceNodes.filter (· ≠ pk)
    peers := c.peers.filter fun e => !e.1.eq ⟨snId, pk, ""⟩ }

theorem removeSn_of_droppable {pk : String} (hlen : pk.length = 32) (h : c.Droppable linger pk) :
    c.removeSn linger pk = .ok (c.dropSn pk) := by
  rw [removeSn, ConnectionID.ofPubkey_ok.2 ⟨hlen, rfl⟩, Except.ok_bind]
  refine foldlM_close_of_closes fun e he => ?_
  obtain ⟨he, hout⟩ := List.mem_filter.1 he
  exact h e he hout

theorem throws_removeSn {pk : String} (hlen : pk.length = 32) (h : ¬ c.Droppable linger pk) :
    Throws (c.removeSn linger pk) := by
  unfold Droppable at h
  push Not at h
  obtain ⟨e, he, hout, hcloses⟩ := h
  rw [removeSn, ConnectionID.ofPubkey_ok.2 ⟨hlen, rfl⟩, Except.ok_bind]
  exact throws_foldlM_close.2 ⟨e, List.mem_filter.2 ⟨he, hout⟩, hcloses⟩

/-- A service node that has been dropped can be dropped again, and any other one as before. -/
theorem droppable_dropSn {pk pk' : String} (h : c.Droppable linger pk) :
    (c.dropSn pk).Droppable linger pk' ↔ pk' = pk ∨ c.Droppable linger pk' := by
  have hclosed : ∀ i ∈ outgoingIds (c.equalRange ⟨snId, pk, ""⟩), c.Closes linger i := by
    intro i hi
    obtain ⟨e, he, rfl⟩ := List.mem_map.1 hi
    obtain ⟨he, hout⟩ := List.mem_filter.1 he
    exact h e he hout
  have hcloses : ∀ i, (c.dropSn pk).Closes linger i ↔ c.Closes linger i := fun i =>
    closes_closeAll_iff hclosed
  have hrange : ∀ e, e ∈ (c.dropSn pk).equalRange ⟨snId, pk', ""⟩ ↔
      e ∈ c.equalRange ⟨snId, pk', ""⟩ ∧ pk' ≠ pk := by
    intro e
    simp only [equalRange, dropSn, List.mem_filter, Bool.not_eq_true']
    refine ⟨fun ⟨⟨he, hnot⟩, hkey⟩ => ⟨⟨he, hkey⟩, ?_⟩, fun ⟨⟨he, hkey⟩, hne⟩ => ⟨⟨he, ?_⟩, hkey⟩⟩
    · rintro rfl
      exact Bool.eq_false_iff.1 hnot hkey
    · refine Bool.eq_false_iff.2 fun hsame => hne ?_
      exact ((ConnectionID.eq_sn_iff rfl).1 hkey).2.symm.trans
        ((ConnectionID.eq_sn_iff rfl).1 hsame).2
  unfold Droppable
  simp only [hrange, hcloses, and_imp]
  by_cases heq : pk' = pk
  · exact iff_of_true (fun e _ hne => absurd heq hne) (Or.inl heq)
  · exact ⟨fun hd => Or.inr fun e he => hd e he heq, fun hd e he _ => (hd.resolve_left heq) e he⟩

/-- Dropping several service nodes, one after the other. -/
theorem foldlM_removeSn_of_droppable {removed : List String} (hlen : ∀ pk ∈ removed, pk.length = 32)
    (h : ∀ pk ∈ removed, c.Droppable linger pk) :
    removed.foldlM (removeSn linger) c = .ok (removed.foldl dropSn c) := by
  induction removed generalizing c with
  | nil => rfl
  | cons pk removed ih =>
    have hpk := h pk List.mem_cons_self
    rw [List.foldlM_cons, removeSn_of_droppable (hlen pk List.mem_cons_self) hpk, Except.ok_bind]
    exact ih (fun pk' h' => hlen pk' (List.mem_cons_of_mem _ h'))
      fun pk' h' => (droppable_dropSn hpk).2 (Or.inr (h pk' (List.mem_cons_of_mem _ h')))

theorem throws_foldlM_removeSn {removed : List String} (hlen : ∀ pk ∈ removed, pk.length = 32) :
    Throws (removed.foldlM (removeSn linger) c) ↔ ∃ pk ∈ removed, ¬ c.Droppable linger pk := by
  induction removed generalizing c with
  | nil => exact iff_of_false (not_throws_ok _) (by simp)
  | cons pk removed ih =>
    have hpk := hlen pk List.mem_cons_self
    rw [List.foldlM_cons]
    by_cases hdrop : c.Droppable linger pk
    · rw [removeSn_of_droppable hpk hdrop, Except.ok_bind,
        ih fun pk' h' => hlen pk' (List.mem_cons_of_mem _ h')]
      simp only [droppable_dropSn hdrop, not_or, List.exists_mem_cons_iff, hdrop, not_true,
        false_or]
      refine exists_congr fun pk' => and_congr_right fun _ => and_iff_right_of_imp ?_
      rintro hnot rfl
      exact hnot hdrop
    · exact iff_of_true (throws_bind.2 (Or.inl (throws_removeSn hpk hdrop)))
        ⟨pk, List.mem_cons_self, hdrop⟩

/-! ## Updates of the list -/

theorem throws_proxyUpdateActiveSnsClean {added removed : List String}
    (hlen : ∀ pk ∈ removed, pk.length = 32) :
    Throws (c.proxyUpdateActiveSnsClean linger added removed) ↔
      ∃ pk ∈ removed, ¬ c.Droppable linger pk := by
  rw [← throws_foldlM_removeSn hlen]
  exact throws_bind_pure

/-- `set_active_sns` throws when a service node that leaves the list cannot be dropped. -/
theorem throws_proxySetActiveSns (hok : c.ActiveOk) {pubkeys : List String}
    (hnodup : pubkeys.Nodup) :
    Throws (c.proxySetActiveSns linger pubkeys) ↔
      ∃ pk ∈ c.activeServiceNodes, pk ∉ pubkeys ∧ ¬ c.Droppable linger pk := by
  rw [proxySetActiveSns_eq linger hnodup hok rfl,
    throws_proxyUpdateActiveSnsClean fun pk hpk => hok.length pk (List.mem_filter.1 hpk).1]
  refine exists_congr fun pk => ?_
  rw [List.mem_filter, decide_eq_true_iff, and_assoc]
  refine and_congr_right fun hpk => ?_
  simp [hok.length pk hpk]

theorem throws_proxyUpdateActiveSns {added removed : List String} (hok : c.ActiveOk) :
    Throws (c.proxyUpdateActiveSns linger added removed) ↔
      ∃ pk ∈ removed, pk ∈ c.activeServiceNodes ∧ pk ∉ added ∧ ¬ c.Droppable linger pk := by
  unfold proxyUpdateActiveSns
  rw [throws_proxyUpdateActiveSnsClean fun pk hpk =>
    (of_decide_eq_true (List.mem_filter.1 hpk).2).1]
  simp only [List.mem_filter, decide_eq_true_iff, and_assoc]
  refine exists_congr fun pk => and_congr_right fun _ => ?_
  exact ⟨fun h => h.2, fun h => ⟨hok.length pk h.1, h⟩⟩

end Conn

end OxenMQ
