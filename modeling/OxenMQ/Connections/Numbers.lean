import OxenMQ.Connections.Changes

/-!
# Connection numbers are never used twice

All numbers for connections come from one counter.  `Conn.Uses` says that a number occurs somewhere
in the tables, or in a job that has been scheduled.  What is used lies below the counter, and a
number that has been drawn for a `CONNECT_REMOTE` message is not used before the message is
processed (`Conn.run_counted`).
-/

set_option autoImplicit false

namespace OxenMQ

variable {κ : Type}

/-- The number of the connection that a job is about. -/
def Closure.connectId : Closure → Option ℤ
  | .connectSuccess _ conn => some conn.id
  | .connectFailure _ conn _ => some conn.id
  | _ => none

theorem Closure.connectId_of_not_isConnect {b : Closure} (h : b.isConnect = false) :
    b.connectId = none := by
  cases b with
  | connectSuccess | connectFailure => cases h
  | _ => rfl

namespace Conn

variable {cfg : Config κ} {c c' : Conn} {ev : ConnEvent} {id : ℤ} {o : Option ℤ}

/-- Where the number of a connection can occur. -/
inductive Uses (c : Conn) (id : ℤ) : Prop
  | socket (h : id ∈ c.connections)
  | index (h : id ∈ c.outgoingSnConns)
  | key (e : ConnectionID × PeerInfo) (he : e ∈ c.peers) (hsn : e.1.sn = false) (h : e.1.id = id)
  | peer (e : ConnectionID × PeerInfo) (he : e ∈ c.peers) (h : e.2.connId = id)
  | pending (pc : PendingConnect) (hpc : pc ∈ c.pendingConnects) (h : pc.connId = id)
  | job (j : Scheduled) (hj : j ∈ c.scheduled) (h : j.body.connectId = some id)

/-- The numbers in use are below the counter, and not among those that have been drawn. -/
structure Counted (c : Conn) : Prop where
  next_pos : 0 < c.nextConnId
  allocated_pos : ∀ id ∈ c.allocated, 0 < id
  allocated_lt : ∀ id ∈ c.allocated, id < c.nextConnId
  allocated_nodup : c.allocated.Nodup
  used_pos : ∀ id, c.Uses id → 0 < id
  used_lt : ∀ id, c.Uses id → id < c.nextConnId
  used_not_allocated : ∀ id, c.Uses id → id ∉ c.allocated

/-! ## What a change can use -/

/-- What is used afterwards was used before or is new, if this is so for every table. -/
theorem Uses.elim {P : ℤ → Prop} (hu : c'.Uses id)
    (hconn : ∀ id ∈ c'.connections, id ∈ c.connections ∨ P id)
    (hindex : ∀ id ∈ c'.outgoingSnConns, id ∈ c.outgoingSnConns ∨ P id)
    (hpeers : ∀ e ∈ c'.peers, e ∈ c.peers ∨ (e.1.sn = false → P e.1.id) ∧ P e.2.connId)
    (hpending : ∀ pc ∈ c'.pendingConnects, pc ∈ c.pendingConnects ∨ P pc.connId)
    (hjobs : ∀ j ∈ c'.scheduled, j ∈ c.scheduled ∨ ∀ id, j.body.connectId = some id → P id) :
    c.Uses id ∨ P id := by
  cases hu with
  | socket hs => exact (hconn id hs).imp_left .socket
  | index hi => exact (hindex id hi).imp_left .index
  | key e he hsn hk => exact (hpeers e he).imp (fun he => .key e he hsn hk) fun h => hk ▸ h.1 hsn
  | peer e he hk => exact (hpeers e he).imp (fun he => .peer e he hk) fun h => hk ▸ h.2
  | pending pc hpc hk => exact (hpending pc hpc).imp (fun h => .pending pc h hk) fun h => hk ▸ h
  | job j hj hk => exact (hjobs j hj).imp (fun h => .job j h hk) fun h => h id hk

/-- Taking things out of the tables uses nothing new. -/
theorem Uses.mono (hu : c'.Uses id) (hconn : ∀ id ∈ c'.connections, id ∈ c.connections)
    (hindex : ∀ id ∈ c'.outgoingSnConns, id ∈ c.outgoingSnConns) (hpeers : c'.peers ⊆ c.peers)
    (hpending : c'.pendingConnects ⊆ c.pendingConnects)
    (hscheduled : c'.scheduled ⊆ c.scheduled) : c.Uses id := by
  refine (hu.elim (P := fun _ => False) ?_ ?_ ?_ ?_ ?_).resolve_right not_false
  · exact fun id h => Or.inl (hconn id h)
  · exact fun id h => Or.inl (hindex id h)
  · exact fun e h => Or.inl (hpeers h)
  · exact fun pc h => Or.inl (hpending h)
  · exact fun j h => Or.inl (hscheduled h)

/-- A change to other tables. -/
theorem Uses.of_eq (hu : c'.Uses id) (hconn : c'.connections = c.connections)
    (hindex : c'.outgoingSnConns = c.outgoingSnConns) (hpeers : c'.peers = c.peers)
    (hpending : c'.pendingConnects = c.pendingConnects) (hscheduled : c'.scheduled = c.scheduled) :
    c.Uses id :=
  hu.mono (fun _ h => hconn ▸ h) (fun _ h => hindex ▸ h) (fun _ h => hpeers ▸ h)
    (fun _ h => hpending ▸ h) fun _ h => hscheduled ▸ h

theorem Uses.of_touch {peers : List (ConnectionID × PeerInfo)}
    (h : List.Forall₂ (Touched cfg c ev) c.peers peers) (hu : { c with peers := peers }.Uses id) :
    c.Uses id := by
  cases hu with
  | socket hs => exact .socket hs
  | index hi => exact .index hi
  | key e' he' hsn hk =>
    obtain ⟨e, he, ht⟩ := exists_touched_of_mem h he'
    exact .key e he (ht.key ▸ hsn) (ht.key ▸ hk)
  | peer e' he' hk =>
    obtain ⟨e, he, ht⟩ := exists_touched_of_mem h he'
    exact .peer e he (ht.connId ▸ hk)
  | pending pc hpc hk => exact .pending pc hpc hk
  | job j hj hk => exact .job j hj hk

/-- Closing connections, and dropping records and attempts, uses nothing new. -/
theorem Uses.of_closeAll {ids : List ℤ} {peers : List (ConnectionID × PeerInfo)}
    (hpeers : peers ⊆ c.peers) (hu : { c.closeAll ids with peers := peers }.Uses id) : c.Uses id :=
  hu.mono (fun _ => mem_of_mem_closeAll) (fun _ => mem_index_of_mem_closeAll) hpeers
    (List.Subset.refl _) (List.Subset.refl _)

/-- A job is scheduled, in either way. -/
theorem Uses.of_scheduled {j : Scheduled} (hu : c'.Uses id) (hpeers : c'.peers = c.peers)
    (hconn : c'.connections = c.connections) (hindex : c'.outgoingSnConns = c.outgoingSnConns)
    (hpending : c'.pendingConnects ⊆ c.pendingConnects)
    (hscheduled : c'.scheduled = c.scheduled ++ [j]) :
    c.Uses id ∨ j.body.connectId = some id := by
  refine hu.elim (P := fun id => j.body.connectId = some id) ?_ ?_ ?_ ?_ ?_
  · exact fun id h => Or.inl (hconn ▸ h)
  · exact fun id h => Or.inl (hindex ▸ h)
  · exact fun e h => Or.inl (hpeers ▸ h)
  · exact fun pc h => Or.inl (hpending h)
  · intro j' hj'
    rw [hscheduled, List.mem_append, List.mem_singleton] at hj'
    rcases hj' with h | rfl
    · exact Or.inl h
    · exact Or.inr fun id h => h

theorem Uses.of_report {j : Scheduled} (hu : c'.Uses id) (hj : j.body.isConnect = false)
    (hpeers : c'.peers = c.peers) (hconn : c'.connections = c.connections)
    (hindex : c'.outgoingSnConns = c.outgoingSnConns)
    (hpending : c'.pendingConnects = c.pendingConnects)
    (hscheduled : c'.scheduled = c.scheduled ++ [j]) : c.Uses id := by
  have hpending : c'.pendingConnects ⊆ c.pendingConnects := fun _ h => hpending ▸ h
  refine (hu.of_scheduled hpeers hconn hindex hpending hscheduled).resolve_right fun h => ?_
  rw [Closure.connectId_of_not_isConnect hj] at h
  cases h

theorem mem_or_eq_of_mem_insert {connections : AList fun _ : ℤ => Socket} {i : ℤ} {s : Socket}
    (h : id ∈ connections.insert i s) : id ∈ connections ∨ id = i :=
  ((AList.mem_insert _).1 h).symm

theorem mem_emplaceConnection {i : ℤ} {s : Socket}
    (h : id ∈ (c.emplaceConnection i s).connections) : id ∈ c.connections ∨ id = i := by
  unfold emplaceConnection at h
  dsimp only at h
  split at h
  · exact Or.inl h
  · exact mem_or_eq_of_mem_insert h

/-! ## The counter -/

/-- How a change draws and uses numbers. -/
inductive Counting (c c' : Conn) : Prop
  | none (hnext : c'.nextConnId = c.nextConnId) (halloc : c'.allocated = c.allocated)
      (huses : ∀ id, c'.Uses id → c.Uses id)
  | next (hnext : c'.nextConnId = c.nextConnId + 1) (halloc : c'.allocated = c.allocated)
      (huses : ∀ id, c'.Uses id → c.Uses id ∨ id = c.nextConnId)
  | allocate (hnext : c'.nextConnId = c.nextConnId + 1)
      (halloc : c'.allocated = c.allocated ++ [c.nextConnId])
      (huses : ∀ id, c'.Uses id → c.Uses id)
  | redeem (i : ℤ) (hi : i ∈ c.allocated) (hnext : c'.nextConnId = c.nextConnId)
      (halloc : c'.allocated = c.allocated.erase i)
      (huses : ∀ id, c'.Uses id → c.Uses id ∨ id = i)

theorem openSn_counting (c : Conn) (env : Env) (pk : String) (keepAlive : ℤ) :
    Counting c (c.openSn env ⟨snId, pk, ""⟩ pk keepAlive) := by
  refine .next rfl rfl fun id hu => hu.elim (P := (· = c.nextConnId)) ?_ ?_ ?_ (fun _ => Or.inl)
    (fun _ => Or.inl)
  · exact fun id h => mem_emplaceConnection h
  · exact fun id h => ((AList.mem_insert _).1 h).symm
  · intro e he
    rcases Multimap.mem_emplace.1 he with rfl | he
    · exact Or.inr ⟨nofun, rfl⟩
    · exact Or.inl he

theorem proxyBind_counting (c : Conn) (address : String) (curve : Bool) (allow : Callback) :
    Counting c (c.proxyBind address curve allow true) := by
  refine .next rfl rfl fun id hu => hu.elim (P := (· = c.nextConnId)) ?_ (fun _ => Or.inl)
    (fun _ => Or.inl) (fun _ => Or.inl) (fun _ => Or.inl)
  exact fun id h => mem_emplaceConnection h

/-- A `CONNECT_REMOTE` message uses the number that it brings along, for a socket, a record and an
attempt. -/
theorem connectRemote_counting {env : Env} {r : ConnectRemote} {pc : PendingConnect} {p : PeerInfo}
    {wire : List (ℤ × List String)} (hid : r.connId ∈ c.allocated) (hpc : pc.connId = r.connId)
    (hp : p.connId = r.connId) :
    Counting c (emplacePeer
      { c.emplaceConnection r.connId (.dealer false) with
        allocated := c.allocated.erase r.connId
        wire := wire
        pendingConnects := c.pendingConnects ++ [pc] }
      env.pos ⟨r.connId, r.pubkey, ""⟩ p) := by
  refine .redeem r.connId hid rfl rfl fun id hu =>
    hu.elim (P := (· = r.connId)) ?_ (fun _ => Or.inl) ?_ ?_ (fun _ => Or.inl)
  · exact fun id h => mem_emplaceConnection h
  · intro e he
    rcases Multimap.mem_emplace.1 he with rfl | he
    · exact Or.inr ⟨fun _ => rfl, hp⟩
    · exact Or.inl he
  · intro pc' hpc'
    rcases List.mem_append.1 hpc' with h | h
    · exact Or.inl h
    · rw [List.mem_singleton.1 h]
      exact Or.inr hpc

/-- Every change draws and uses numbers in one of the four ways. -/
theorem Change.counting (h : Change cfg ev o c c') : Counting c c' := by
  cases h with
  | write | record | active | flags =>
    exact .none rfl rfl fun id hu => hu.of_eq rfl rfl rfl rfl rfl
  | report _ hconnect | settle _ _ _ hconnect =>
    exact .none rfl rfl fun id hu => hu.of_report hconnect rfl rfl rfl rfl rfl
  | touch h => exact .none rfl rfl fun id hu => hu.of_touch h
  | drop hperm =>
    refine .none rfl rfl fun id hu => hu.of_closeAll ?_
    exact List.Subset.trans (List.subset_append_right _ _) hperm.symm.subset
  | dropDead hperm =>
    refine .none rfl rfl fun id hu => hu.mono (fun _ h => h) (fun _ h => h) ?_
      (List.Subset.refl _) (List.Subset.refl _)
    exact List.Subset.trans (List.subset_cons_self _ _) hperm.symm.subset
  | bye => exact .none rfl rfl fun id hu => hu.of_closeAll (List.Subset.refl c.peers)
  | index he =>
    refine .none rfl rfl fun id hu => ?_
    have hu := hu.elim (c := c) (P := c.Uses) ?_ (fun _ => Or.inl) (fun _ => Or.inl)
      (fun _ => Or.inl) (fun _ => Or.inl)
    · exact hu.elim (fun h => h) fun h => h
    · exact fun id h => (mem_or_eq_of_mem_insert h).imp_right fun h => .peer _ he h.symm
  | openSn env => exact openSn_counting c env _ _
  | allocate => exact .allocate rfl rfl fun id hu => hu.of_eq rfl rfl rfl rfl rfl
  | connectFail _ _ _ hid =>
    refine .redeem _ hid rfl rfl fun id hu => ?_
    have hu := hu.of_scheduled (c := c) rfl rfl rfl (List.Subset.refl _) rfl
    exact hu.imp_right fun h => (Option.some.inj h).symm
  | connectRemote _ _ hid => exact connectRemote_counting hid rfl rfl
  | bind => exact proxyBind_counting c _ _ _
  | addPeer pos hev hp hs =>
    refine .none rfl rfl fun id hu => ?_
    have hu := hu.elim (c := c) (P := c.Uses) (fun _ => Or.inl) (fun _ => Or.inl) ?_
      (fun _ => Or.inl) (fun _ => Or.inl)
    · exact hu.elim (fun h => h) fun h => h
    · intro e he
      rcases Multimap.mem_emplace.1 he with rfl | he
      · exact Or.inr ⟨nofun, .socket (AList.lookup_isSome.1 (Option.isSome_of_mem hs))⟩
      · exact Or.inl he
  | hello _ _ hpc hfind =>
    refine .none rfl rfl fun id hu => ?_
    rcases hu.of_scheduled (c := c) rfl rfl rfl List.eraseP_subset rfl with h | h
    · exact h
    · have hhit := List.find?_some hfind
      have hkey := ConnectionID.id_eq_of_eq hhit
      exact .pending _ (List.mem_of_find?_eq_some hpc) (hkey.symm.trans (Option.some.inj h))
  | timeOut _ hpc =>
    refine .none rfl rfl fun id hu => ?_
    have hu := hu.elim (c := c) (P := c.Uses) (fun _ h => Or.inl (mem_of_mem_closeAll h))
      (fun _ h => Or.inl (mem_index_of_mem_closeAll h))
      (fun e h => Or.inl (List.mem_of_mem_filter h))
      (fun pc h => Or.inl (List.mem_of_mem_erase h)) ?_
    · exact hu.elim (fun h => h) fun h => h
    · intro j hj
      rcases List.mem_append.1 hj with h | h
      · exact Or.inl h
      · rw [List.mem_singleton.1 h]
        exact Or.inr fun id hid => .pending _ hpc (Option.some.inj hid)

theorem Counted.change (h : c.Counted) (hc : Change cfg ev o c c') : c'.Counted := by
  have hlt : c.nextConnId < c.nextConnId + 1 := by omega
  cases hc.counting with
  | none hnext halloc huses =>
    constructor
    · rw [hnext]; exact h.next_pos
    · rw [halloc]; exact h.allocated_pos
    · rw [halloc, hnext]; exact h.allocated_lt
    · rw [halloc]; exact h.allocated_nodup
    · exact fun id hu => h.used_pos id (huses id hu)
    · rw [hnext]; exact fun id hu => h.used_lt id (huses id hu)
    · rw [halloc]; exact fun id hu => h.used_not_allocated id (huses id hu)
  | next hnext halloc huses =>
    constructor
    · rw [hnext]; exact h.next_pos.trans hlt
    · rw [halloc]; exact h.allocated_pos
    · rw [halloc, hnext]; exact fun id hid => (h.allocated_lt id hid).trans hlt
    · rw [halloc]; exact h.allocated_nodup
    · intro id hu
      rcases huses id hu with hu | rfl
      · exact h.used_pos id hu
      · exact h.next_pos
    · rw [hnext]
      intro id hu
      rcases huses id hu with hu | rfl
      · exact (h.used_lt id hu).trans hlt
      · exact hlt
    · rw [halloc]
      intro id hu hid
      rcases huses id hu with hu | rfl
      · exact h.used_not_allocated id hu hid
      · exact lt_irrefl _ (h.allocated_lt _ hid)
  | allocate hnext halloc huses =>
    have hfresh : c.nextConnId ∉ c.allocated := fun hid => lt_irrefl _ (h.allocated_lt _ hid)
    constructor
    · rw [hnext]; exact h.next_pos.trans hlt
    · rw [halloc]
      intro id hid
      rcases List.mem_append.1 hid with hid | hid
      · exact h.allocated_pos id hid
      · rw [List.mem_singleton.1 hid]; exact h.next_pos
    · rw [halloc, hnext]
      intro id hid
      rcases List.mem_append.1 hid with hid | hid
      · exact (h.allocated_lt id hid).trans hlt
      · rw [List.mem_singleton.1 hid]; exact hlt
    · rw [halloc]
      exact h.allocated_nodup.append (List.nodup_singleton _) (List.disjoint_singleton.2 hfresh)
    · exact fun id hu => h.used_pos id (huses id hu)
    · rw [hnext]; exact fun id hu => (h.used_lt id (huses id hu)).trans hlt
    · rw [halloc]
      intro id hu hid
      rcases List.mem_append.1 hid with hid | hid
      · exact h.used_not_allocated id (huses id hu) hid
      · exact (h.used_lt id (huses id hu)).ne (List.mem_singleton.1 hid)
  | redeem i hi hnext halloc huses =>
    constructor
    · rw [hnext]; exact h.next_pos
    · rw [halloc]; exact fun id hid => h.allocated_pos id (List.mem_of_mem_erase hid)
    · rw [halloc, hnext]; exact fun id hid => h.allocated_lt id (List.mem_of_mem_erase hid)
    · rw [halloc]; exact h.allocated_nodup.erase i
    · intro id hu
      rcases huses id hu with hu | rfl
      · exact h.used_pos id hu
      · exact h.allocated_pos id hi
    · rw [hnext]
      intro id hu
      rcases huses id hu with hu | rfl
      · exact h.used_lt id hu
      · exact h.allocated_lt id hi
    · rw [halloc]
      intro id hu hid
      rcases huses id hu with hu | rfl
      · exact h.used_not_allocated id hu (List.mem_of_mem_erase hid)
      · exact h.allocated_nodup.not_mem_erase hid

theorem start_counted : start.Counted := by
  have huses : ∀ id, start.Uses id → id = 1 := by
    intro id hu
    cases hu with
    | socket hs => simpa [start, AList.mem_keys] using hs
    | index hi => cases hi
    | key e he _ _ => cases he
    | peer e he _ => cases he
    | pending pc hpc _ => cases hpc
    | job j hj _ => cases hj
  refine ⟨by decide, nofun, nofun, List.nodup_nil, fun id hu => ?_, fun id hu => ?_,
    fun _ _ => List.not_mem_nil⟩
  · rw [huses id hu]
    decide
  · rw [huses id hu]
    decide

/-- **No number is used twice.** -/
theorem run_counted {cfg : Config κ} {es : List ConnEvent}
    (h : Transition.run (step cfg) start es = some c) : c.Counted :=
  run_changes (fun _ _ _ _ _ hc hchange => hc.change hchange) start_counted h

end Conn

end OxenMQ
