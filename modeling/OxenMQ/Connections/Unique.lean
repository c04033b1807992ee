import OxenMQ.Connections.Gating

/-!
# No record is there twice

`peers` is a multimap, and three handlers add to it.  Each of them makes sure in its own way that
what it adds is not there yet: `proxy_connect_sn` looks for a record it may use, `proxy_to_worker`
for one with the same socket and route, and `proxy_connect_remote` does not look at all but has a
new number.

`Conn.Clash` says which two records must not be there at the same time, and `Conn.run_unique` that
they never are (`Conn.peers_unique` spells it out).  The same invariant says that there is a record
for every socket that `proxy_connect_sn` has opened, so that it never opens a second one to the same
service node.  It holds after a `BYE` too, when there may be records without a socket.
-/

set_option autoImplicit false

namespace OxenMQ

variable {κ : Type}

namespace Conn

variable {cfg : Config κ} {c c' : Conn} {ev : ConnEvent} {o : Option ℤ}

/-! ## Records that exclude each other -/

/-- Two records that must not be there at the same time: they are the same but for their contents,
or they are both of outgoing connections, with the same socket or the same service node. -/
def Clash (e e' : ConnectionID × PeerInfo) : Prop :=
  (e.1.eq e'.1 = true ∧ e.2.connId = e'.2.connId ∧ e.2.route = e'.2.route) ∨
  (e.2.outgoing = true ∧ e'.2.outgoing = true ∧
    (e.2.connId = e'.2.connId ∨ e.1.sn = true ∧ e.1.eq e'.1 = true))

/-- The records exclude no other. -/
def Distinct (peers : List (ConnectionID × PeerInfo)) : Prop :=
  peers.Pairwise fun e e' => ¬ Clash e e'

theorem Clash.symm {e e' : ConnectionID × PeerInfo} (h : Clash e e') : Clash e' e := by
  rcases h with ⟨hkey, hid, hroute⟩ | ⟨hout, hout', hid | ⟨hsn, hkey⟩⟩
  · exact Or.inl ⟨ConnectionID.eq_symm hkey, hid.symm, hroute.symm⟩
  · exact Or.inr ⟨hout', hout, Or.inl hid.symm⟩
  · refine Or.inr ⟨hout', hout, Or.inr ⟨?_, ConnectionID.eq_symm hkey⟩⟩
    rwa [ConnectionID.sn, ← ConnectionID.id_eq_of_eq hkey]

theorem Clash.of_touched {e f e' f' : ConnectionID × PeerInfo} (h : Touched cfg c ev e e')
    (hf : Touched cfg c ev f f') (hclash : Clash e' f') : Clash e f := by
  unfold Clash PeerInfo.outgoing at hclash ⊢
  rwa [h.key, h.connId, h.route, hf.key, hf.connId, hf.route] at hclash

theorem Distinct.touched {es es' : List (ConnectionID × PeerInfo)}
    (h : List.Forall₂ (Touched cfg c ev) es es') (hd : Distinct es) : Distinct es' := by
  induction h with
  | nil => exact .nil
  | cons ht hrest ih =>
    obtain ⟨hhead, htail⟩ := List.pairwise_cons.1 hd
    refine List.pairwise_cons.2 ⟨fun f' hf' hclash => ?_, ih htail⟩
    obtain ⟨f, hf, htf⟩ := exists_touched_of_mem hrest hf'
    exact hhead f hf (hclash.of_touched ht htf)

theorem Distinct.subperm {es es' : List (ConnectionID × PeerInfo)} (hd : Distinct es)
    (h : List.Subperm es' es) : Distinct es' := by
  obtain ⟨l, hperm, hsub⟩ := h
  exact (hperm.pairwise_iff fun hne hclash => hne hclash.symm).1 (List.Pairwise.sublist hsub hd)

theorem Distinct.emplace {es : List (ConnectionID × PeerInfo)} (hd : Distinct es) (pos : ℕ)
    {e : ConnectionID × PeerInfo} (hnew : ∀ f ∈ es, ¬ Clash e f) :
    Distinct (Multimap.emplace pos e es) :=
  ((Multimap.emplace_perm pos e es).pairwise_iff fun hne hclash => hne hclash.symm).2
    (List.pairwise_cons.2 ⟨hnew, hd⟩)

/-- Two records of the table that clash are one. -/
theorem Distinct.eq {es : List (ConnectionID × PeerInfo)} (hd : Distinct es)
    {e e' : ConnectionID × PeerInfo} (he : e ∈ es) (he' : e' ∈ es) (hclash : Clash e e') :
    e = e' := by
  by_contra hne
  have hsymm : Std.Symm fun e e' => ¬ Clash e e' := ⟨fun _ _ hne hclash => hne hclash.symm⟩
  exact List.Pairwise.forall hd he he' hne hclash

theorem Distinct.length_le_one {es : List (ConnectionID × PeerInfo)} (hd : Distinct es)
    (hclash : ∀ e ∈ es, ∀ e' ∈ es, Clash e e') : es.length ≤ 1 := by
  match es with
  | [] => exact Nat.zero_le 1
  | [e] => exact Nat.le_refl 1
  | e :: e' :: rest =>
    exact absurd (hclash e (by simp) e' (by simp))
      ((List.pairwise_cons.1 hd).1 e' List.mem_cons_self)

/-- Two records for outgoing connections to one service node clash. -/
theorem clash_of_pk {e e' : ConnectionID × PeerInfo} (hout : e.2.outgoing = true)
    (hout' : e'.2.outgoing = true) (hsn : e.1.sn = true) (hsn' : e'.1.sn = true)
    (hpk : e.1.pk = e'.1.pk) : Clash e e' :=
  Or.inr ⟨hout, hout', Or.inr ⟨hsn, (ConnectionID.eq_sn_iff hsn').2 ⟨hsn, hpk⟩⟩⟩

/-! ## The invariant -/

/-- The socket `id`, opened to a service node, has a record. -/
def HasRecord (c : Conn) (id : ℤ) : Prop :=
  ∃ e ∈ c.peers, e.2.outgoing = true ∧ e.1.sn = true ∧ e.2.connId = id ∧
    c.outgoingSnConns.lookup id = some e.1

/-- No two records clash, and every socket that was opened to a service node has a record. -/
structure Unique (c : Conn) : Prop where
  distinct : Distinct c.peers
  socket : ∀ id, c.connections.lookup id = some (.dealer true) → c.HasRecord id

/-- What is left of the sockets to service nodes has its entry in the index. -/
def Closing (c c' : Conn) : Prop :=
  ∀ id, c'.connections.lookup id = some (.dealer true) →
    c.connections.lookup id = some (.dealer true) ∧
      c'.outgoingSnConns.lookup id = c.outgoingSnConns.lookup id

theorem Closing.refl (hconn : c'.connections = c.connections)
    (hindex : c'.outgoingSnConns = c.outgoingSnConns) : Closing c c' := by
  intro id hid
  rw [hindex]
  exact ⟨hconn ▸ hid, rfl⟩

theorem closeAll_closing (c : Conn) (ids : List ℤ) : Closing c (c.closeAll ids) := by
  intro id hid
  rw [lookup_closeAll] at hid
  split at hid
  · cases hid
  · rename_i hne
    rw [lookup_outgoingSnConns_closeAll, if_neg fun h => hne h.1]
    exact ⟨hid, rfl⟩

/-- Records may go if their sockets do. -/
theorem Unique.shrink (h : c.Unique) (hpeers : List.Subperm c'.peers c.peers)
    (hclosing : Closing c c')
    (hkept : ∀ e ∈ c.peers, e.2.outgoing = true → e.1.sn = true →
      c'.connections.lookup e.2.connId = some (.dealer true) → e ∈ c'.peers) : c'.Unique := by
  refine ⟨h.distinct.subperm hpeers, fun id hid => ?_⟩
  obtain ⟨hid', hindex⟩ := hclosing id hid
  obtain ⟨e, he, hout, hsn, rfl, hkey⟩ := h.socket id hid'
  exact ⟨e, hkept e he hout hsn hid, hout, hsn, rfl, hindex.trans hkey⟩

/-- Sockets may go. -/
theorem Unique.closing (h : c.Unique) (hpeers : c'.peers = c.peers)
    (hclosing : Closing c c') : c'.Unique :=
  h.shrink (hpeers ▸ List.Subperm.refl _) hclosing fun _ he _ _ _ => hpeers ▸ he

theorem Unique.touch (h : c.Unique) {peers : List (ConnectionID × PeerInfo)}
    (hpeers : List.Forall₂ (Touched cfg c ev) c.peers peers) :
    { c with peers := peers }.Unique := by
  refine ⟨h.distinct.touched hpeers, fun id hid => ?_⟩
  obtain ⟨e, he, hout, hsn, rfl, hkey⟩ := h.socket id hid
  obtain ⟨e', he', ht⟩ := exists_touched hpeers he
  exact ⟨e', he', ht.outgoing.trans hout, ht.key ▸ hsn, ht.connId, ht.key ▸ hkey⟩

/-! ## Connecting -/

theorem lookup_emplaceConnection_fresh {i : ℤ} (hi : i ∉ c.connections) (s : Socket) (id : ℤ) :
    (c.emplaceConnection i s).connections.lookup id =
      if id = i then some s else c.connections.lookup id := by
  rw [emplaceConnection, if_neg hi]
  split
  · rename_i heq
    rw [heq]
    exact AList.lookup_insert c.connections
  · rename_i hne
    exact AList.lookup_insert_ne hne

/-- A socket is opened, but not to a service node. -/
theorem emplaceConnection_closing {i : ℤ} {s : Socket} (hi : i ∉ c.connections)
    (hs : s ≠ .dealer true) : Closing c (c.emplaceConnection i s) := by
  intro id hid
  rw [lookup_emplaceConnection_fresh hi] at hid
  split at hid
  · exact absurd (Option.some.inj hid) hs
  · exact ⟨hid, rfl⟩

/-- A record that does not clash is added. -/
theorem Unique.emplacePeer (h : c.Unique) (pos : ℕ) {k : ConnectionID} {p : PeerInfo}
    (hnew : ∀ e ∈ c.peers, ¬ Clash (k, p) e) : (c.emplacePeer pos k p).Unique := by
  refine ⟨h.distinct.emplace pos hnew, fun id hid => ?_⟩
  obtain ⟨e, he, hout, hsn, hid, hkey⟩ := h.socket id hid
  exact ⟨e, Multimap.mem_emplace.2 (Or.inr he), hout, hsn, hid, hkey⟩

/-- Without a number in common, only the service node counts. -/
theorem not_clash_of_connId {e e' : ConnectionID × PeerInfo} (hid : e'.2.connId ≠ e.2.connId)
    (hsn : e.1.sn = true → e'.2.outgoing = true → e'.1.eq e.1 = false) : ¬ Clash e e' := by
  rintro (⟨_, heq, _⟩ | ⟨_, hout, heq | ⟨hsn', hkey⟩⟩)
  · exact hid heq.symm
  · exact hid heq.symm
  · rw [ConnectionID.eq_symm hkey] at hsn
    cases hsn hsn' hout

/-- A connection to a service node is opened if there is none. -/
theorem Unique.openSn (h : c.Unique) (hcounted : c.Counted) (env : Env) {pk : String}
    (keepAlive : ℤ) (hnone : ∀ e ∈ c.peers, e.1.eq ⟨snId, pk, ""⟩ = true → e.2.outgoing = false) :
    (c.openSn env ⟨snId, pk, ""⟩ pk keepAlive).Unique := by
  have hfree : c.nextConnId ∉ c.connections := fun hmem => (hcounted.used_lt _ (.socket hmem)).false
  have hdistinct := h.distinct.emplace env.pos (e := (⟨snId, pk, ""⟩,
    { serviceNode := true, pubkey := pk, connId := c.nextConnId, idleExpiry := keepAlive,
      lastActivity := env.now })) fun e he => by
    refine not_clash_of_connId (hcounted.used_lt _ (.peer e he rfl)).ne fun _ hout => ?_
    by_contra hkey
    rw [hnone e he (by simpa using hkey)] at hout
    cases hout
  refine ⟨hdistinct, fun id hid => ?_⟩
  unfold Conn.openSn at hid
  rw [lookup_emplaceConnection_fresh (by exact hfree)] at hid
  split at hid
  · rename_i heq
    subst heq
    exact ⟨_, Multimap.mem_emplace.2 (Or.inl rfl), rfl, rfl, rfl,
      AList.lookup_insert c.outgoingSnConns⟩
  · rename_i hne
    obtain ⟨e, he, hout, hsn, heq, hkey⟩ := h.socket id hid
    exact ⟨e, Multimap.mem_emplace.2 (Or.inr he), hout, hsn, heq,
      (AList.lookup_insert_ne hne).trans hkey⟩

/-- `proxy_connect_remote` uses a number that nobody else has. -/
theorem not_clash_fresh {r : ConnectRemote} {p : PeerInfo} (hcounted : c.Counted)
    (hid : r.connId ∈ c.allocated) (hp : p.connId = r.connId) {e : ConnectionID × PeerInfo}
    (he : e ∈ c.peers) : ¬ Clash (⟨r.connId, r.pubkey, ""⟩, p) e := by
  have hsn : (ConnectionID.mk r.connId r.pubkey "").sn = false :=
    ConnectionID.sn_ofId_of_pos (hcounted.allocated_pos _ hid)
  refine not_clash_of_connId (fun heq => ?_) fun hsn' => ?_
  · exact hcounted.used_not_allocated _ (.peer e he (heq.trans hp)) hid
  · rw [hsn] at hsn'
    cases hsn'

/-! ## Runs -/

theorem mem_of_perm_cons {e e' : ConnectionID × PeerInfo} {es rest : List (ConnectionID × PeerInfo)}
    (hperm : es.Perm (e :: rest)) (he' : e' ∈ es) (hne : e' ≠ e) : e' ∈ rest :=
  (List.mem_cons.1 (hperm.mem_iff.1 he')).resolve_left hne

theorem Unique.change (h : c.Unique) (hcounted : c.Counted) (hc : Change cfg ev o c c') :
    c'.Unique := by
  cases hc with
  | write | report | record | settle | allocate | connectFail | hello | active | flags =>
    exact h.closing rfl (.refl rfl rfl)
  | touch hpeers => exact h.touch hpeers
  | @drop _ gone kept hperm =>
    refine h.shrink ?_ (closeAll_closing c (outgoingIds gone)) fun e he hout _ hopen => ?_
    · exact (List.sublist_append_right gone kept).subperm.trans hperm.symm.subperm
    · refine (List.mem_append.1 (hperm.mem_iff.1 he)).resolve_left fun hgone => ?_
      -- the socket of a record that goes is closed
      have hclosed : e.2.connId ∈ outgoingIds gone :=
        List.mem_map.2 ⟨e, List.mem_filter.2 ⟨hgone, hout⟩, rfl⟩
      rw [lookup_closeAll, if_pos hclosed] at hopen
      cases hopen
  | @dropDead _ e rest hperm hdead =>
    refine h.shrink ((List.sublist_cons_self e rest).subperm.trans hperm.symm.subperm)
      (.refl rfl rfl) fun e' he' hout hsn _ => mem_of_perm_cons hperm he' ?_
    rintro rfl
    rcases hdead with ⟨_, hin⟩ | ⟨hnot, _⟩
    · exact Bool.false_ne_true (hin.symm.trans hout)
    · exact Bool.false_ne_true (hnot.symm.trans hsn)
  | bye => exact h.closing rfl (closeAll_closing c _)
  | @index _ e he hsn hnot =>
    refine h.closing rfl fun id hid => ?_
    by_cases hne : id = e.2.connId
    · rw [hne, AList.lookup_insert] at hid
      cases hid
    · rw [AList.lookup_insert_ne hne] at hid
      exact ⟨hid, rfl⟩
  | openSn env hev htime hkeep hpk hnone => exact h.openSn hcounted env _ hnone
  | @connectRemote _ env r hev hid =>
    have hfree : r.connId ∉ c.connections := fun hmem =>
      hcounted.used_not_allocated _ (.socket hmem) hid
    refine Unique.emplacePeer ?_ env.pos fun e he => not_clash_fresh hcounted hid rfl he
    exact h.closing rfl (emplaceConnection_closing hfree nofun)
  | bind =>
    have hfree : c.nextConnId ∉ c.connections := fun hmem =>
      (hcounted.used_lt _ (.socket hmem)).false
    exact h.closing rfl (emplaceConnection_closing hfree (by simp))
  | addPeer pos hev hp hs hroute hpk hnew =>
    refine h.emplacePeer pos fun e he hclash => ?_
    rcases hclash with ⟨hkey, hid, hsame⟩ | ⟨hout, _⟩
    · exact hnew e he (ConnectionID.eq_symm hkey) hid.symm hsame.symm
    · exact hroute (beq_iff_eq.1 hout)
  | @timeOut _ env pc hev hpc =>
    refine h.shrink List.filter_sublist.subperm (closeAll_closing c _) fun e he _ hsn _ => ?_
    refine List.mem_filter.2 ⟨he, ?_⟩
    -- the record of an attempt is not that of a service node
    by_contra hkey
    have hkey : e.1.eq (.ofId pc.connId) = true := by simpa using hkey
    have hid := ConnectionID.id_eq_of_eq hkey
    have hnot := ConnectionID.sn_ofId_of_pos (hcounted.used_pos _ (.pending pc hpc rfl))
    rw [ConnectionID.sn, ← hid, ← ConnectionID.sn, hsn] at hnot
    cases hnot

theorem start_unique : start.Unique := by
  refine ⟨.nil, fun id hid => ?_⟩
  have hmem : id ∈ start.connections := AList.lookup_isSome.1 (Option.isSome_of_eq_some hid)
  obtain rfl : id = 1 := by simpa [start, AList.mem_keys] using hmem
  cases hid

theorem run_unique {es : List ConnEvent} (h : Transition.run (step cfg) start es = some c) :
    c.Unique :=
  (run_changes (P := fun c => c.Counted ∧ c.Unique)
    (fun _ _ _ _ _ hc hchange => ⟨hc.1.change hchange, hc.2.change hc.1 hchange⟩)
    ⟨start_counted, start_unique⟩ h).2

/-- The socket of a connection to a service node has the record of that service node. -/
theorem exists_record {es : List ConnEvent} (h : Transition.run (step cfg) start es = some c)
    {id : ℤ} {pk : String} (hopened : Opened cfg es id pk)
    (hsocket : c.connections.lookup id = some (.dealer true)) :
    ∃ e ∈ c.peers, e.2.outgoing = true ∧ e.1.sn = true ∧ e.2.connId = id ∧ e.1.pk = pk := by
  obtain ⟨e, he, hout, hsn, rfl, _⟩ := (run_unique h).socket id hsocket
  refine ⟨e, he, hout, hsn, rfl, opened_unique h ?_ hopened⟩
  have hproved := (run_filed h).proved e he
  rwa [beq_iff_eq.1 hout, authenticated_own] at hproved

/-- **The records of `peers` are unique.**  Under equal keys there are no two with the same socket
and route, and each service node has at most one for an outgoing connection, so there is at most one
connection to it open.  Outgoing connections under different keys have different sockets. -/
theorem peers_unique {es : List ConnEvent}
    (h : Transition.run (step cfg) start es = some c) :
    (c.peers.Pairwise fun e e' => e.1.eq e'.1 = true →
      (e.2.connId, e.2.route) ≠ (e'.2.connId, e'.2.route)) ∧
    (∀ pk, (c.peers.filter fun e => e.1.eq ⟨snId, pk, ""⟩ && e.2.outgoing).length ≤ 1) ∧
    (∀ id id' pk, Opened cfg es id pk → Opened cfg es id' pk →
      c.connections.lookup id = some (.dealer true) →
      c.connections.lookup id' = some (.dealer true) → id = id') ∧
    (c.peers.Pairwise fun e e' => e.2.outgoing = true → e'.2.outgoing = true →
      e.1.eq e'.1 = false → e.2.connId ≠ e'.2.connId) := by
  have hdistinct := (run_unique h).distinct
  refine ⟨hdistinct.imp fun hne hkey heq => ?_, fun pk => ?_, fun id id' pk hpk hpk' hid hid' => ?_,
    hdistinct.imp fun hne hout hout' _ hid => hne (Or.inr ⟨hout, hout', Or.inl hid⟩)⟩
  · obtain ⟨hid, hroute⟩ := Prod.mk.inj heq
    exact hne (Or.inl ⟨hkey, hid, hroute⟩)
  · have hmem : ∀ e ∈ c.peers.filter fun e => e.1.eq ⟨snId, pk, ""⟩ && e.2.outgoing,
        e.2.outgoing = true ∧ e.1.sn = true ∧ e.1.pk = pk := by
      intro e he
      have hboth := (List.mem_filter.1 he).2
      rw [Bool.and_eq_true, ConnectionID.eq_sn_iff rfl] at hboth
      exact ⟨hboth.2, hboth.1⟩
    refine Distinct.length_le_one (List.Pairwise.filter _ hdistinct) fun e he e' he' => ?_
    obtain ⟨hout, hsn, hpk⟩ := hmem e he
    obtain ⟨hout', hsn', hpk'⟩ := hmem e' he'
    exact clash_of_pk hout hout' hsn hsn' (hpk.trans hpk'.symm)
  · obtain ⟨e, he, hout, hsn, rfl, hkey⟩ := exists_record h hpk hid
    obtain ⟨e', he', hout', hsn', rfl, hkey'⟩ := exists_record h hpk' hid'
    rw [hdistinct.eq he he' (clash_of_pk hout hout' hsn hsn' (hkey.trans hkey'.symm))]

/-- We connect to a service node, it connects to us twice, and it hangs up on our connection. -/
def severalRecords : List ConnEvent :=
  let pk := "0123456789abcdef0123456789abcdef"
  let m := fun route => { parts := [route, "a.b"], userId := some (pk ++ pk) }
  [.bind "tcp://*:5678" true 0 true, .setActiveSns [pk],
    .connectSn {} { pubkey := pk, hint := "tcp://sn:5678", keepAlive := 300000 },
    .message {} true 2 true (m "first"), .message {} true 2 true (m "second"),
    .message {} true 2 true (m "first"), .message {} true 3 false { parts := ["BYE"] }]

/-- There are three records then. -/
theorem peers_unique_severalRecords : ∃ c, Transition.run (step { bareConfig with
      fromHex := fun _ => "0123456789abcdef0123456789abcdef" }) start severalRecords = some c ∧
    c.peers.length = 3 ∧ c.peers.Pairwise fun e e' => e.1.eq e'.1 = true →
      (e.2.connId, e.2.route) ≠ (e'.2.connId, e'.2.route) := by
  have hrun : Transition.run (step { bareConfig with
    fromHex := fun _ => "0123456789abcdef0123456789abcdef" }) start severalRecords = some _ := rfl
  exact ⟨_, hrun, rfl, (peers_unique hrun).1⟩

end Conn

end OxenMQ
