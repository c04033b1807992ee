import OxenMQ.Connections.Changes
import OxenMQ.Connections.Tables

/-!
# The handlers keep the connection tables consistent, except one

`Conn.Consistent` says that `peers`, `connections` and `outgoing_sn_conns` agree.  Every handler
but one keeps it that way: the changes it makes are moves of `OxenMQ.Connections.Tables`
(`Conn.Change.moves`), and the moves keep the tables in order.

The exception is `BYE`.  A remote that says `BYE` on a connection we opened has it closed, but the
`peers` entry that refers to it stays.  So the tables are consistent throughout a run if and only
if no step of it is a `BYE` on an outgoing connection (`Conn.states_consistent_iff`).
-/

set_option autoImplicit false

namespace OxenMQ

open Relation (ReflTransGen)

variable {κ : Type}

namespace Conn

/-! ## Consistency -/

/-- The number of outgoing `peers` entries with a given connection number. -/
def outgoingCount (c : Conn) (id : ℤ) : ℕ :=
  c.peers.countP fun e => e.2.outgoing && e.2.connId == id

/-- `peers`, `connections` and `outgoing_sn_conns` agree: records and open sockets go together, and
the index has the sockets that were opened to service nodes. -/
structure Consistent (c : Conn) : Prop where
  /-- Every peer's socket is there and has been opened. -/
  peer_open : ∀ e ∈ c.peers, ∃ s, c.connections.lookup e.2.connId = some s ∧ s.isOpen = true
  /-- Every outgoing socket has exactly one outgoing peer. -/
  dealer_peer : ∀ id sn, c.connections.lookup id = some (.dealer sn) → c.outgoingCount id = 1
  /-- The index has exactly the connections `proxy_connect_sn` opened. -/
  mem_sn_conns : ∀ id, id ∈ c.outgoingSnConns ↔ c.connections.lookup id = some (.dealer true)
  /-- It maps each of them to the key of its peer. -/
  sn_conns_key : ∀ id k, c.outgoingSnConns.lookup id = some k →
    ∃ p : PeerInfo, (k, p) ∈ c.peers ∧ p.outgoing = true ∧ p.connId = id
  /-- Looking up a peer's socket inserts nothing. -/
  index_peer : ∀ e ∈ c.peers, c.indexConnection e.2.connId = c

/-! ## The tables behind the state -/

/-- The reference a `peers` entry makes. -/
def ref (e : ConnectionID × PeerInfo) : Ref := ⟨e.1, e.2.connId, e.2.outgoing⟩

def tables (c : Conn) : Tables where
  refs := c.peers.map ref
  sockets := fun id => c.connections.lookup id
  snConns := fun id => c.outgoingSnConns.lookup id
  next := c.nextConnId
  allocated := c.allocated
  pending := c.pendingConnects.map PendingConnect.connId

theorem refCount_tables (c : Conn) (id : ℤ) :
    Tables.refCount c.tables.refs id = c.outgoingCount id := List.countP_map ..

variable {cfg : Config κ} {c c' : Conn}

/-- The three kinds of peers. -/
theorem peer_cases (h : c.tables.Ok) {e : ConnectionID × PeerInfo} (he : e ∈ c.peers) :
    (e.2.outgoing = false ∧ e.1.sn = true ∧ c.connections.lookup e.2.connId = some .router) ∨
    (e.2.outgoing = true ∧ e.1.sn = true ∧
      c.connections.lookup e.2.connId = some (.dealer true) ∧
      c.outgoingSnConns.lookup e.2.connId = some e.1) ∨
    (e.2.outgoing = true ∧ e.1.sn = false ∧ e.1.id = e.2.connId ∧ e.1.route = "" ∧
      c.connections.lookup e.2.connId = some (.dealer false)) := by
  have hok := h.ref_ok (ref e) (List.mem_map_of_mem he)
  have hkey : (ref e).key = e.1 := rfl
  have hid : (ref e).connId = e.2.connId := rfl
  have hout : (ref e).outgoing = e.2.outgoing := rfl
  rw [← hkey, ← hid, ← hout]
  generalize ref e = r at hok
  cases hok with
  | incoming hk hs => exact Or.inl ⟨rfl, hk, hs⟩
  | toSn hk hs hi => exact Or.inr (Or.inl ⟨rfl, hk, hs, hi⟩)
  | remote hk hid hr hs => exact Or.inr (Or.inr ⟨rfl, hk, hid, hr, hs⟩)

/-- A peer whose socket is known has it in the table. -/
theorem mem_connections_of_mem_peers (h : c.tables.Ok) {e : ConnectionID × PeerInfo}
    (he : e ∈ c.peers) : e.2.connId ∈ c.connections := by
  obtain ⟨s, hs, _⟩ := (h.ref_ok (ref e) (List.mem_map_of_mem he)).socket
  exact AList.lookup_isSome.1 (Option.isSome_of_mem hs)

theorem exists_outgoing_peer (h : c.tables.Ok) {id : ℤ} {sn : Bool}
    (hs : c.connections.lookup id = some (.dealer sn)) :
    ∃ e ∈ c.peers, e.2.outgoing = true ∧ e.2.connId = id := by
  have hcount : 0 < Tables.refCount c.tables.refs id := by
    rw [h.dealer_ref id sn hs]
    exact Nat.one_pos
  obtain ⟨r, hr, hout, hid⟩ := Tables.refCount_pos.1 hcount
  obtain ⟨e, he, rfl⟩ := List.mem_map.1 hr
  exact ⟨e, he, hout, hid⟩

theorem indexConnection_of_mem {id : ℤ} (h : id ∈ c.connections) : c.indexConnection id = c :=
  if_pos h

/-- **Tables that are in order are consistent.** -/
theorem Consistent.of_ok (h : c.tables.Ok) : c.Consistent where
  peer_open := fun e he => by
    obtain ⟨s, hs, _⟩ := (h.ref_ok (ref e) (List.mem_map_of_mem he)).socket
    refine ⟨s, hs, ?_⟩
    cases s with
    | null => exact absurd hs (h.socket_open _)
    | router => rfl
    | dealer sn => rfl
  dealer_peer := fun id sn hs => by
    rw [← refCount_tables]
    exact h.dealer_ref id sn hs
  mem_sn_conns := fun id => by
    rw [← AList.lookup_isSome]
    exact h.sn_conns id
  sn_conns_key := fun id k hk => by
    have hs := (h.sn_conns id).1 (Option.isSome_of_mem hk)
    obtain ⟨⟨k', p⟩, he, hout, rfl⟩ := exists_outgoing_peer h hs
    refine ⟨p, ?_, hout, rfl⟩
    rcases peer_cases h he with ⟨hin, _⟩ | ⟨_, _, _, hi⟩ | ⟨_, _, _, _, hd⟩
    · exact absurd hout (by show ¬ p.outgoing = true; rw [hin]; exact Bool.false_ne_true)
    · have hkk : k = k' := Option.some.inj (hk.symm.trans hi)
      rw [hkk]
      exact he
    · exact absurd (hs.symm.trans hd) (by simp)
  index_peer := fun _ he => indexConnection_of_mem (mem_connections_of_mem_peers h he)

/-! ## Closing connections -/

theorem tables_closeAll (h : c.tables.Linked) (ids : List ℤ) :
    (c.closeAll ids).tables = { c.tables with
      sockets := fun j => if j ∈ ids then none else c.tables.sockets j
      snConns := fun j => if j ∈ ids then none else c.tables.snConns j } := by
  have hsockets : (fun j => (c.closeAll ids).connections.lookup j) =
      fun j => if j ∈ ids then none else c.tables.sockets j :=
    funext fun j => lookup_closeAll c ids j
  have hindex : (fun j => (c.closeAll ids).outgoingSnConns.lookup j) =
      fun j => if j ∈ ids then none else c.tables.snConns j := by
    funext j
    rw [lookup_outgoingSnConns_closeAll]
    by_cases hj : j ∈ c.connections
    · simp only [hj, and_true]
      rfl
    · have hnone : c.outgoingSnConns.lookup j = none :=
        h.snConns_of_sockets_none (AList.lookup_eq_none.2 hj)
      rw [if_neg fun h => hj h.2, hnone]
      split
      · rfl
      · exact hnone.symm
  unfold tables at hsockets hindex ⊢
  rw [hsockets, hindex]
  rfl

/-- Dropping some of the peers and closing the sockets of the outgoing ones is a move.  A number
that has no socket may be closed as well. -/
theorem move_drop (h : c.tables.Ok) {gone kept : List (ConnectionID × PeerInfo)} {ids : List ℤ}
    (hperm : c.peers.Perm (gone ++ kept))
    (hids : ∀ e ∈ gone, e.2.outgoing = true → e.2.connId ∈ ids)
    (hids' : ∀ id ∈ ids, (∃ e ∈ gone, e.2.outgoing = true ∧ e.2.connId = id) ∨
      c.tables.sockets id = none) :
    c.tables.Move { c.tables with
      refs := kept.map ref
      sockets := fun j => if j ∈ ids then none else c.tables.sockets j
      snConns := fun j => if j ∈ ids then none else c.tables.snConns j } := by
  have hcloses : ∀ id, Tables.Closes (gone.map ref) id → id ∈ ids := by
    rintro id ⟨r, hr, hout, rfl⟩
    obtain ⟨e, he, rfl⟩ := List.mem_map.1 hr
    exact hids e he hout
  refine .drop (gone.map ref) ?_ (fun id hc => ?_) (fun id hc => ?_)
  · rw [← List.map_append]
    exact hperm.map ref
  · rw [if_pos (hcloses id hc), if_pos (hcloses id hc)]
    exact ⟨rfl, rfl⟩
  · by_cases hid : id ∈ ids
    · rw [if_pos hid, if_pos hid]
      rcases hids' id hid with ⟨e, he, hout, rfl⟩ | hnone
      · exact absurd ⟨ref e, List.mem_map_of_mem he, hout, rfl⟩ hc
      · exact ⟨hnone.symm, (h.snConns_of_sockets_none hnone).symm⟩
    · rw [if_neg hid, if_neg hid]
      exact ⟨rfl, rfl⟩

/-- The form in which the changes have it. -/
theorem moves_close (h : c.tables.Ok) (gone : List (ConnectionID × PeerInfo)) (ids : List ℤ)
    {kept : List (ConnectionID × PeerInfo)}
    (hperm : c.peers.Perm (gone ++ kept))
    (hids : ∀ e ∈ gone, e.2.outgoing = true → e.2.connId ∈ ids)
    (hids' : ∀ id ∈ ids, (∃ e ∈ gone, e.2.outgoing = true ∧ e.2.connId = id) ∨
      c.tables.sockets id = none) :
    ReflTransGen Tables.Move c.tables (tables { c.closeAll ids with peers := kept }) := by
  have htables : tables { c.closeAll ids with peers := kept } =
      { (c.closeAll ids).tables with refs := kept.map ref } := rfl
  rw [htables, tables_closeAll h.toLinked ids]
  exact .single (move_drop h hperm hids hids')

/-- The peers filed under a number are those of a socket `proxy_connect_remote` opened. -/
theorem eq_ofId_iff (h : c.tables.Ok) {e : ConnectionID × PeerInfo} (he : e ∈ c.peers) {id : ℤ}
    (hid : 0 < id) :
    e.1.eq (.ofId id) = true ↔ e.2.outgoing = true ∧ e.2.connId = id ∧
      c.tables.sockets id = some (.dealer false) := by
  have hsn : (ConnectionID.ofId id).sn = false := by
    simp only [ConnectionID.sn, ConnectionID.ofId, snId, beq_eq_false_iff_ne]
    omega
  have heq : e.1.eq (.ofId id) = true ↔ e.1.id = id ∧ e.1.route = "" := by
    rw [ConnectionID.eq, hsn, Bool.and_false, if_neg Bool.false_ne_true, Bool.and_eq_true,
      beq_iff_eq, beq_iff_eq]
    rfl
  -- a service node is filed under `-1`
  have hkey : e.1.sn = true → e.1.id ≠ id := by
    intro hk
    rw [ConnectionID.sn, beq_iff_eq, snId] at hk
    omega
  rw [heq]
  rcases peer_cases h he with ⟨hout, hk, _⟩ | ⟨_, hk, hs, _⟩ | ⟨hout, _, hid', hroute, hs⟩
  · exact ⟨fun hc => absurd hc.1 (hkey hk), fun hc => absurd (hout.symm.trans hc.1) (by simp)⟩
  · refine ⟨fun hc => absurd hc.1 (hkey hk), fun hc => ?_⟩
    have hs' := hc.2.2
    rw [← hc.2.1] at hs'
    exact absurd (hs.symm.trans hs') (by simp)
  · rw [hid']
    exact ⟨fun hc => ⟨hout, hc.1, hc.1 ▸ hs⟩, fun hc => ⟨hc.2.1, hroute⟩⟩

/-- The record of an attempt that is given up is that of its socket, if it has one. -/
theorem timeOut_moves (h : c.tables.Ok) {pc : PendingConnect} (hpc : pc ∈ c.pendingConnects) :
    ReflTransGen Tables.Move c.tables (tables { c.closeAll [pc.connId] with
      peers := c.peers.filter fun e => !e.1.eq (.ofId pc.connId) }) := by
  have hpending : pc.connId ∈ c.tables.pending := List.mem_map_of_mem hpc
  have hpos := (h.pending_range _ hpending).1
  refine moves_close h (c.peers.filter fun e => e.1.eq (.ofId pc.connId)) [pc.connId]
    (List.filter_append_perm _ c.peers).symm (fun e he _ => ?_) (fun id hid => ?_)
  · obtain ⟨he, heq⟩ := List.mem_filter.1 he
    rw [((eq_ofId_iff h he hpos).1 heq).2.1]
    exact List.mem_singleton_self _
  · rw [List.mem_singleton.1 hid]
    rcases h.pending_socket _ hpending with hnone | hs
    · exact Or.inr hnone
    · obtain ⟨e, he, hout, hid⟩ := exists_outgoing_peer h hs
      have heq := (eq_ofId_iff h he hpos).2 ⟨hout, hid, hs⟩
      exact Or.inl ⟨e, List.mem_filter.2 ⟨he, heq⟩, hout, hid⟩

/-- A dead record is one of an incoming connection, so no socket goes with it. -/
theorem not_outgoing_of_dead (h : c.tables.Ok) {e : ConnectionID × PeerInfo} (he : e ∈ c.peers)
    (hdead : e.1.sn = true ∧ e.2.outgoing = false ∨ e.1.sn = false ∧ e.1.route ≠ "") :
    e.2.outgoing = false := by
  rcases hdead with ⟨_, hin⟩ | ⟨hsn, hroute⟩
  · exact hin
  · rcases peer_cases h he with ⟨hin, _⟩ | ⟨_, hsn', _⟩ | ⟨_, _, _, hempty, _⟩
    · exact hin
    · exact absurd (hsn.symm.trans hsn') Bool.false_ne_true
    · exact absurd hempty hroute

/-! ## Opening connections -/

theorem lookup_insert_eq_update {β : Type} (m : AList fun _ : ℤ => β) (id : ℤ) (b : β) :
    (fun j => (m.insert id b).lookup j) = Function.update (fun j => m.lookup j) id (some b) := by
  funext j
  rcases eq_or_ne j id with rfl | hj
  · rw [Function.update_self, AList.lookup_insert]
  · rw [Function.update_of_ne hj, AList.lookup_insert_ne hj]

theorem map_ref_emplace (pos : ℕ) (e : ConnectionID × PeerInfo)
    (l : List (ConnectionID × PeerInfo)) :
    ((Multimap.emplace pos e l).map ref).Perm (ref e :: l.map ref) :=
  (Multimap.emplace_perm pos e l).map ref

theorem openSn_move (h : c.tables.Ok) (env : Env) {k : ConnectionID} (hk : k.sn = true)
    (remote : String) (keepAlive : ℤ) :
    c.tables.Move (c.openSn env k remote keepAlive).tables := by
  have hfree : c.nextConnId ∉ c.connections := AList.lookup_eq_none.1 h.sockets_next
  unfold openSn emplaceConnection emplacePeer
  dsimp only
  rw [if_neg hfree]
  unfold tables
  dsimp only
  rw [lookup_insert_eq_update, lookup_insert_eq_update]
  exact .openSn hk (map_ref_emplace _ _ _)

/-! ## Whole runs -/

theorem ref_touched {ev : ConnEvent} {e e' : ConnectionID × PeerInfo}
    (h : Touched cfg c ev e e') : ref e' = ref e := by
  rw [ref, ref, h.key, h.connId, h.outgoing]

/-- To bring records up to date is nothing the tables see. -/
theorem map_ref_touched {ev : ConnEvent} {es es' : List (ConnectionID × PeerInfo)}
    (h : List.Forall₂ (Touched cfg c ev) es es') : es'.map ref = es.map ref := by
  induction h with
  | nil => rfl
  | cons ht _ ih => rw [List.map_cons, List.map_cons, ref_touched ht, ih]

/-- **Every change but the one of a `BYE` is a sequence of moves.** -/
theorem Change.moves {ev : ConnEvent} {o : Option ℤ} (hc : Change cfg ev o c c') (h : c.tables.Ok)
    (hbye : ev.isBye = false) : ReflTransGen Tables.Move c.tables c'.tables := by
  cases hc with
  | write | report | record | settle | active | flags => exact .refl
  | touch ht =>
    have hsame : tables { c with peers := _ } = c.tables :=
      congrArg (fun refs => { c.tables with refs := refs }) (map_ref_touched ht)
    rw [hsame]
  | @drop _ gone kept hperm =>
    refine moves_close h gone (outgoingIds gone) hperm (fun e he hout => ?_)
      (fun id hid => Or.inl ?_)
    · exact List.mem_map.2 ⟨e, List.mem_filter.2 ⟨he, hout⟩, rfl⟩
    · obtain ⟨e, he, rfl⟩ := List.mem_map.1 hid
      exact ⟨e, (List.mem_filter.1 he).1, (List.mem_filter.1 he).2, rfl⟩
  | @dropDead _ e rest hperm hdead =>
    refine moves_close h [e] [] hperm (fun d hd hout => ?_) (by simp)
    rw [List.mem_singleton.1 hd, not_outgoing_of_dead h (hperm.mem_iff.2 List.mem_cons_self) hdead]
      at hout
    cases hout
  | bye _ hev hm =>
    subst hev
    simp [ConnEvent.isBye, head?_of_getD hm (by decide)] at hbye
  | index he hsn hnot => exact absurd (mem_connections_of_mem_peers h he) hnot
  | openSn env => exact .single (openSn_move h env rfl _ _)
  | allocate => exact .single .allocate
  | connectFail _ _ _ hid => exact .single (.waste hid)
  | @connectRemote _ env r hev hid =>
    have hfree : r.connId ∉ c.connections := AList.lookup_eq_none.1 (h.sockets_allocated hid)
    refine .single ?_
    unfold emplaceConnection emplacePeer
    dsimp only
    rw [if_neg hfree]
    unfold tables
    dsimp only
    rw [lookup_insert_eq_update, List.map_append]
    exact .openRemote hid (map_ref_emplace _ _ _)
  | bind =>
    have hfree : c.nextConnId ∉ c.connections := AList.lookup_eq_none.1 h.sockets_next
    refine .single ?_
    unfold proxyBind emplaceConnection
    dsimp only
    rw [if_pos rfl, if_neg hfree]
    unfold tables
    dsimp only
    rw [lookup_insert_eq_update]
    exact .listen
  | @addPeer _ pos p env immediate m hev hp hs hroute =>
    have hperm := map_ref_emplace pos (⟨snId, p.pubkey, ""⟩, p) c.peers
    have hout : p.outgoing = false := beq_eq_false_iff_ne.2 hroute
    rw [ref, hout] at hperm
    exact .single (Tables.Move.file rfl hs hperm)
  | hello => exact .single (.settle (List.map_subset _ (List.eraseP_subset ..)))
  | timeOut _ hpc =>
    exact (timeOut_moves h hpc).tail (.settle (List.map_subset _ List.erase_subset))

/-- Every step but a `BYE` on an outgoing connection keeps the tables in order. -/
theorem step_ok {e : ConnEvent} (h : c.tables.Ok) (hbye : e.isBye = false)
    (hstep : step cfg c e = some c') : c'.tables.Ok := by
  obtain ⟨o, hchanges⟩ := step_changes hstep
  exact hchanges.induction (P := fun s => s.tables.Ok)
    (fun _ _ _ hs hchange => hs.moves (hchange.moves hs hbye)) h

/-- The tables are in order at the start: there is one listening socket and nothing else. -/
theorem start_ok : start.tables.Ok := by
  have hsock : ∀ id s, start.tables.sockets id = some s → id = 1 ∧ s = .router := by
    intro id s hs
    have hmem : id ∈ start.connections := AList.lookup_isSome.1 (Option.isSome_of_mem hs)
    obtain rfl : id = 1 := List.mem_singleton.1 hmem
    exact ⟨rfl, (Option.some.inj hs).symm⟩
  refine ⟨⟨by decide, fun id s hs => ?_, List.nodup_nil, nofun, nofun, nofun⟩,
    ⟨fun id hs => ?_, nofun, fun id sn hs => ?_, fun id => ⟨nofun, fun hs => ?_⟩⟩⟩
  · rw [(hsock id s hs).1]
    exact ⟨by decide, List.not_mem_nil⟩
  · exact absurd (hsock _ _ hs).2 (by decide)
  · exact absurd (hsock _ _ hs).2 (by simp)
  · exact absurd (hsock _ _ hs).2 (by decide)

/-- After a `BYE` on an outgoing connection there is a peer whose socket is gone. -/
theorem not_consistent_of_bye (cfg : Config κ) {e : ConnEvent} (h : c.tables.Ok)
    (hbye : e.isBye = true) (hstep : step cfg c e = some c') : ¬ c'.Consistent := by
  cases e with
  | message env immediate connId router m =>
    rw [ConnEvent.isBye, Bool.and_eq_true, Bool.not_eq_true', beq_iff_eq] at hbye
    obtain ⟨rfl, hhead⟩ := hbye
    rw [step] at hstep
    split at hstep
    · rename_i hrecv
      obtain ⟨⟨c₁, arr⟩, hok, rfl⟩ := Option.map_eq_some_iff.1 hstep
      obtain ⟨⟨c₂, handled⟩, hbuiltin, hrest⟩ := Except.bind_eq_ok.1 (Except.toOption_eq_some.1 hok)
      obtain ⟨rest, hparts⟩ : ∃ rest, m.parts = "BYE" :: rest := List.head?_eq_some_iff.1 hhead
      rw [hparts] at hbuiltin
      obtain ⟨rfl, rfl⟩ := proxyHandleBuiltin_bye hbuiltin
      cases hrest
      obtain ⟨sn, hs⟩ : ∃ sn, c.connections.lookup connId = some (.dealer sn) := by
        unfold canReceive at hrecv
        split at hrecv
        · cases hrecv
        · exact ⟨_, ‹_›⟩
        · cases hrecv
      obtain ⟨d, hd, _, rfl⟩ := exists_outgoing_peer h hs
      intro hcons
      obtain ⟨s, hs', _⟩ := hcons.peer_open d hd
      rw [lookup_closeAll, if_pos (List.mem_singleton_self _)] at hs'
      cases hs'
    · cases hstep
  | _ => cases hbye

/-- **The connection tables are consistent in every state of a run if and only if no step of the
run is a `BYE` from a remote we connected to.** -/
theorem states_consistent_iff (cfg : Config κ) (es : List ConnEvent) :
    (∀ c ∈ Transition.states (step cfg) start es, c.Consistent) ↔
      ∀ p ∈ Transition.steps (step cfg) start es, p.2.isBye = false := by
  constructor
  · intro hall
    by_contra hbad
    obtain ⟨pre, e, post, m, t, rfl, hm, ht, he, hpre⟩ :=
      Transition.exists_first_bad (C := fun _ (e : ConnEvent) => e.isBye = false) hbad
    have hok : m.tables.Ok :=
      Transition.states_of_steps (P := fun c => c.tables.Ok)
        (fun s e s' hs hC hstep => step_ok hs hC hstep) start_ok hpre m
        (by simpa using Transition.mem_states_of_run [] hm)
    refine not_consistent_of_bye cfg hok (Bool.of_not_eq_false he) ht (hall t ?_)
    have hrun := Transition.run_snoc hm ht
    have hmem := Transition.mem_states_of_run post hrun
    rwa [List.append_assoc, List.singleton_append] at hmem
  · intro hC c hc
    refine .of_ok ?_
    exact Transition.states_of_steps (P := fun c => c.tables.Ok)
      (fun s e s' hs hC hstep => step_ok hs hC hstep) start_ok hC c hc

/-! ### A run with a `BYE` -/

def connectSomeSn : ConnEvent :=
  .connectSn {} { pubkey := "abcdefghijklmnopqrstuvwxyz012345", hint := "tcp://sn", keepAlive := 9 }

/-- We connect to a service node, and it says `BYE`. -/
def byeRun : List ConnEvent := [connectSomeSn, .message {} false 2 false { parts := ["BYE"] }]

/-- The peer is still there, its socket is not; connecting again makes a socket that was never
opened. -/
theorem byeRun_not_consistent :
    ∃ c c', Transition.run (step bareConfig) start byeRun = some c ∧ ¬ c.Consistent ∧
      step bareConfig c connectSomeSn = some c' ∧ c'.connections.lookup 2 = some .null := by
  refine ⟨_, _, rfl, fun hc => ?_, rfl, by decide⟩
  obtain ⟨s, hs, _⟩ := hc.peer_open _ (List.mem_cons_self ..)
  change none = some s at hs
  cases hs

end Conn

end OxenMQ
