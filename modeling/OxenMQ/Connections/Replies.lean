import OxenMQ.Connections.Gating
import OxenMQ.Connections.Updated

/-!
# Where a reply goes

The callback of a command gets a `ConnectionID` to answer to.  `proxy_to_worker` makes it up from
what it knows about the sender: the pubkey if the sender is an active service node, the number of
the connection (and the route, on a listening socket) if not.  `proxy_send` resolves it by a search
in `peers`, where the record of the connection may be under the other kind of key.

`Conn.RepliesOn` says on which connection an answer goes out, without a lookup and without a new
connection.  `reply_reaches_sender_iff` has the exact condition for this connection to lead to the
sender.  There are three ways for it to fail:

* we have connected to the sender with `connect_remote`, and it is an active service node: its
  record is under the number, and the answer is for a pubkey;
* we have connected to the sender with `connect_sn`, and it is not an active service node: its
  record is under the pubkey, and the answer is for a number;
* the sender is an active service node, but the first record under its pubkey is of a connection
  that is closed.
-/

set_option autoImplicit false

namespace OxenMQ

variable {κ : Type}

namespace Conn

variable {cfg : Config κ} {c c' : Conn}

/-! ## Resolving a connection id -/

/-- The connection of the first record under a key, and the route on it. -/
def firstEnd (peers : List (ConnectionID × PeerInfo)) (k : ConnectionID) : Option (ℤ × String) :=
  (peers.find? fun e => e.1.eq k).map fun e => (e.2.connId, e.2.route)

theorem firstEnd_eq_some {peers : List (ConnectionID × PeerInfo)} {k : ConnectionID} {id : ℤ}
    {route : String} :
    firstEnd peers k = some (id, route) ↔
      ∃ e, peers.find? (fun e => e.1.eq k) = some e ∧ e.2.connId = id ∧ e.2.route = route := by
  simp [firstEnd]

/-- Two records that lead to the same place. -/
def SameEnd (e e' : ConnectionID × PeerInfo) : Prop :=
  e'.1 = e.1 ∧ e'.2.connId = e.2.connId ∧ e'.2.route = e.2.route

theorem SameEnd.refl (e : ConnectionID × PeerInfo) : SameEnd e e := ⟨rfl, rfl, rfl⟩

theorem firstEnd_sameEnd {es es' : List (ConnectionID × PeerInfo)}
    (h : List.Forall₂ SameEnd es es') (k : ConnectionID) : firstEnd es' k = firstEnd es k := by
  unfold firstEnd
  induction h with
  | nil => rfl
  | cons ht _ ih =>
    obtain ⟨hkey, hid, hroute⟩ := ht
    rw [List.find?_cons, List.find?_cons, hkey]
    split
    · simp [hid, hroute]
    · exact ih

/-- What is sent to `conn` goes out on the open connection `id` with `route`.  Nothing is looked up
or opened for it, since this is so whatever a lookup would say. -/
structure RepliesOn (c : Conn) (conn : ConnectionID) (id : ℤ) (route : String) : Prop where
  isOpen : c.isOpen id = true
  target : ∀ (env : Env) (r : SendRequest), r.incoming = false → r.outgoing = false →
    ∃ c', c.sendTarget env r conn = .ok (c', some (id, { conn with route := route })) ∧
      c'.nextConnId = c.nextConnId

/-- `proxy_connect_sn` reuses the first record under the pubkey. -/
theorem proxyConnectSn_reuse {pk : String} (hpk : pk.length = 32) {e : ConnectionID × PeerInfo}
    (hfind : c.peers.find? (fun e => e.1.eq ⟨snId, pk, ""⟩) = some e) (env : Env) (hint : String)
    (isOptional : Bool) (keepAlive : ℤ) :
    ∃ c', c.proxyConnectSn env pk hint isOptional false false keepAlive =
      .ok (c', some (e.2.connId, e.2.route)) ∧ c'.nextConnId = c.nextConnId := by
  have hok : ConnectionID.ofPubkey pk = .ok ⟨snId, pk, ""⟩ := ConnectionID.ofPubkey_ok.2 ⟨hpk, rfl⟩
  unfold proxyConnectSn
  simp only [hok, Except.ok_bind, usablePeer, Bool.false_and, Bool.not_false, Bool.and_true, hfind]
  exact ⟨_, rfl, reuseSn_nextConnId ..⟩

/-- Without a record it depends on the lookup. -/
theorem proxyConnectSn_lookup {pk what : String} {keepAlive : ℤ} (hpk : pk.length = 32)
    (hfind : c.peers.find? (fun e => e.1.eq ⟨snId, pk, ""⟩) = none) :
    c.proxyConnectSn { snLookup := .error what } pk "" false false false keepAlive =
      .error (.exception what) := by
  have hok : ConnectionID.ofPubkey pk = .ok ⟨snId, pk, ""⟩ := ConnectionID.ofPubkey_ok.2 ⟨hpk, rfl⟩
  unfold proxyConnectSn
  simp only [hok, Except.ok_bind, usablePeer, Bool.false_and, Bool.not_false, Bool.and_true, hfind]
  rfl

/-- A service node is answered on the connection of its first record. -/
theorem repliesOn_sn {pk route₀ : String} (hpk : pk.length = 32) {id : ℤ} {route : String} :
    c.RepliesOn ⟨snId, pk, route₀⟩ id route ↔
      firstEnd c.peers ⟨snId, pk, ""⟩ = some (id, route) ∧ c.isOpen id = true := by
  rw [firstEnd_eq_some]
  have hsn : (ConnectionID.mk snId pk route₀).sn = true := rfl
  have hconnect : ∀ (env : Env) (r : SendRequest), r.incoming = false → r.outgoing = false →
      ∀ e, c.peers.find? (fun e => e.1.eq ⟨snId, pk, ""⟩) = some e →
      ∃ c', c.sendTarget env r ⟨snId, pk, route₀⟩ =
        .ok (c', some (e.2.connId, ⟨snId, pk, e.2.route⟩)) ∧ c'.nextConnId = c.nextConnId := by
    intro env r hin hout e hfind
    obtain ⟨c₁, h₁, hnext⟩ :=
      proxyConnectSn_reuse hpk hfind env r.hint r.isOptional r.keepAlive
    refine ⟨c₁, ?_, hnext⟩
    unfold sendTarget
    rw [if_pos hsn, hin, hout]
    exact Except.bind_eq_ok.2 ⟨_, h₁, rfl⟩
  constructor
  · rintro ⟨hopen, htarget⟩
    cases hfind : c.peers.find? (fun e => e.1.eq ⟨snId, pk, ""⟩) with
    | none =>
      -- the lookup may fail
      obtain ⟨c₂, h₂, _⟩ := htarget { snLookup := .error "" } { conn := {}, send := [] } rfl rfl
      unfold sendTarget at h₂
      rw [if_pos hsn] at h₂
      obtain ⟨_, h₁, _⟩ := Except.bind_eq_ok.1 h₂
      exact absurd ((proxyConnectSn_lookup hpk hfind).symm.trans h₁) nofun
    | some e =>
      obtain ⟨c₁, h₁, _⟩ := hconnect {} { conn := {}, send := [] } rfl rfl e hfind
      obtain ⟨c₂, h₂, _⟩ := htarget {} { conn := {}, send := [] } rfl rfl
      rw [h₁] at h₂
      cases h₂
      exact ⟨⟨e, rfl, rfl, rfl⟩, hopen⟩
  · rintro ⟨⟨e, hfind, rfl, rfl⟩, hopen⟩
    exact ⟨hopen, fun env r hin hout => hconnect env r hin hout e hfind⟩

/-- Who came in on a listening socket is answered there. -/
theorem repliesOn_route {conn : ConnectionID} (hsn : conn.sn = false) (hroute : conn.route ≠ "")
    (hopen : c.isOpen conn.id = true) : c.RepliesOn conn conn.id conn.route := by
  refine ⟨hopen, fun env r _ _ => ⟨c, ?_, rfl⟩⟩
  unfold sendTarget
  rw [if_neg (by rw [hsn]; exact Bool.false_ne_true), if_pos hroute, if_pos (mem_of_isOpen hopen)]
  rfl

/-- Anyone else is answered on the connection of the first record under its number. -/
theorem repliesOn_own {conn : ConnectionID} (hsn : conn.sn = false) (hroute : conn.route = "")
    {id : ℤ} {route : String} :
    c.RepliesOn conn id route ↔
      (∃ r, firstEnd c.peers conn = some (id, r)) ∧ route = "" ∧ c.isOpen id = true := by
  simp only [firstEnd_eq_some]
  have hsn' : ¬ conn.sn = true := by simp [hsn]
  constructor
  · rintro ⟨hopen, htarget⟩
    obtain ⟨c₁, h₁, _⟩ := htarget {} { conn := {}, send := [] } rfl rfl
    unfold sendTarget at h₁
    rw [if_neg hsn', if_neg (not_not.2 hroute)] at h₁
    split at h₁
    · cases h₁
    · rename_i k peer rest hrange
      split at h₁
      · have hconn := Option.some.inj (congrArg Prod.snd (Except.ok.inj h₁))
        refine ⟨⟨_, (k, peer), ?_, congrArg Prod.fst hconn, rfl⟩, ?_, hopen⟩
        · rw [← List.head?_filter]
          exact congrArg List.head? hrange
        · exact (congrArg (fun s => s.2.route) hconn).symm.trans hroute
      · cases h₁
  · rintro ⟨⟨_, ⟨k, peer⟩, hfind, rfl, rfl⟩, rfl, hopen⟩
    refine ⟨hopen, fun env r _ _ => ⟨c, ?_, rfl⟩⟩
    obtain ⟨rest, hrange⟩ : ∃ rest, c.equalRange conn = (k, peer) :: rest := by
      rw [← List.head?_filter] at hfind
      exact List.head?_eq_some_iff.1 hfind
    unfold sendTarget
    rw [if_neg hsn', if_neg (not_not.2 hroute), hrange]
    dsimp only
    rw [if_pos (mem_of_isOpen hopen), ← hroute]
    rfl

/-! ## Who is to be answered -/

/-- The peer a message comes from, as it is known before the message. -/
def senderPeer (cfg : Config κ) (c : Conn) (connId : ℤ) (router : Bool) (m : Incoming) :
    Option PeerInfo :=
  if router then some (incomingPeer cfg c connId m)
  else
    let k := (c.outgoingSnConns.lookup connId).getD (.ofId connId)
    (c.peers.find? fun e => e.1.eq k).map Prod.snd

/-- The records of `peers`, with one for the service node `p` if it has come in on a listening
socket and has none yet. -/
def recordsWith (c : Conn) (pos : ℕ) (router : Bool) (p : PeerInfo) :
    List (ConnectionID × PeerInfo) :=
  let cid : ConnectionID := ⟨snId, p.pubkey, ""⟩
  let known := fun e : ConnectionID × PeerInfo =>
    e.1.eq cid && e.2.connId == p.connId && e.2.route == p.route
  if router && (c.peers.find? known).isNone then Multimap.emplace pos (cid, p) c.peers else c.peers

/-- An answer to the message will find its way.  For an active service node the first record under
its pubkey has to be of an open connection; anyone else must not be on a connection that has been
opened to a service node. -/
def Answerable (cfg : Config κ) (c : Conn) (pos : ℕ) (connId : ℤ) (router : Bool) (m : Incoming) :
    Prop :=
  ∀ p, senderPeer cfg c connId router m = some p →
    if p.pubkey ∈ c.activeServiceNodes then
      ∃ id route, firstEnd (c.recordsWith pos router p) ⟨snId, p.pubkey, ""⟩ = some (id, route) ∧
        c.isOpen id = true
    else router = true ∨ connId ∉ c.outgoingSnConns

/-- What becomes of the tables when the peer is looked up. -/
theorem findPeer_tables {auth : ℤ → String → String → Prop} (hfiled : c.Filed auth) {pos : ℕ}
    {connId : ℤ} {router : Bool} {m : Incoming} {peer : PeerInfo} {route : String}
    (h : findPeer cfg c pos connId router m = .ok (c', some (peer, route))) :
    ∃ p, senderPeer cfg c connId router m = some p ∧ peer.pubkey = p.pubkey ∧
      c'.connections = c.connections ∧ c'.outgoingSnConns = c.outgoingSnConns ∧
      (peer.serviceNode = true → List.Forall₂ SameEnd (c.recordsWith pos router p) c'.peers) ∧
      (peer.serviceNode = false → List.Forall₂ SameEnd c.peers c'.peers ∧
        route = if router then m.parts.getD 0 "" else "") := by
  unfold findPeer at h
  dsimp only at h
  cases router with
  | true =>
    rw [if_pos rfl] at h
    refine ⟨incomingPeer cfg c connId m, rfl, ?_⟩
    split at h
    · rename_i hflag
      obtain ⟨cid, hcid, h⟩ := Except.bind_eq_ok.1 h
      obtain ⟨_, rfl⟩ := ConnectionID.ofPubkey_ok.1 hcid
      split at h
      · rename_i k known hfind
        cases h
        have hkey := List.find?_some hfind
        simp only [Bool.and_eq_true] at hkey
        refine ⟨?_, rfl, rfl, fun _ => ?_, nofun⟩
        · rw [hfiled.pubkey _ (List.mem_of_find?_eq_some hfind)]
          exact ((ConnectionID.eq_sn_iff rfl).1 hkey.1.1).2
        · simp only [recordsWith, hfind]
          exact Multimap.forall₂_modifyFirst .refl fun _ _ _ => ⟨rfl, rfl, rfl⟩
      · rename_i hfind
        cases h
        refine ⟨rfl, rfl, rfl, fun _ => ?_, fun hnot => ?_⟩
        · simp only [recordsWith, hfind]
          exact List.forall₂_same.2 fun e _ => .refl e
        · exact absurd (hflag.symm.trans hnot) (by decide)
    · rename_i hflag
      cases h
      refine ⟨rfl, rfl, rfl, fun hsn => absurd hsn hflag, fun _ =>
        ⟨List.forall₂_same.2 fun e _ => .refl e, ?_⟩⟩
      exact incomingPeer_route cfg c connId m
  | false =>
    rw [if_neg Bool.false_ne_true] at h
    split at h
    · cases h
    · rename_i k found hfind
      cases h
      have hsame : ∀ p : ConnectionID × PeerInfo → Bool, List.Forall₂ SameEnd c.peers
          (Multimap.modifyFirst p (fun e => (e.1, if e.2.pubkey = "" then e.2
            else { e.2 with serviceNode := decide (e.2.pubkey ∈ c.activeServiceNodes) })) c.peers) := by
        refine fun p => Multimap.forall₂_modifyFirst .refl fun e _ _ => ⟨rfl, ?_⟩
        split <;> exact ⟨rfl, rfl⟩
      refine ⟨found, ?_, ?_, rfl, rfl, fun _ => hsame _, fun _ => ⟨hsame _, rfl⟩⟩
      · simp [senderPeer, hfind]
      · split <;> rfl

/-- The tables after a command has been accepted, up to the activity timer. -/
theorem receive_tables {env : Env} {immediate : Bool} {connId : ℤ} {router : Bool} {m : Incoming}
    {a : Arrival κ} (ha : receive cfg c env immediate connId router m = .ok (c', some a)) :
    ∃ c₁, arrival cfg c env.pos connId router m = .ok (c₁, some a) ∧
      c'.connections = c₁.connections ∧ c'.outgoingSnConns = c₁.outgoingSnConns ∧
      ∀ k, firstEnd c'.peers k = firstEnd c₁.peers k := by
  rcases receive_cases ha with ⟨_, ⟨⟩⟩ | ⟨_, c₁, harrival, rfl | rfl⟩
  · exact ⟨_, harrival, rfl, rfl, fun _ => rfl⟩
  · refine ⟨c₁, harrival, rfl, rfl, firstEnd_sameEnd ?_⟩
    exact Multimap.forall₂_modifyFirst .refl fun _ _ _ => ⟨rfl, rfl, rfl⟩

/-- A message comes in on an open connection. -/
theorem isOpen_of_canReceive {connId : ℤ} {router : Bool} {parts : List String}
    (h : canReceive (c.connections.lookup connId) router parts = true) :
    c.isOpen connId = true := by
  unfold canReceive at h
  unfold isOpen
  split at h
  · rename_i hs
    rw [hs]
    rfl
  · rename_i hs
    rw [hs]
    rfl
  · cases h

/-- The connection of a service node's first record has its pubkey at the other end. -/
theorem Filed.auth_of_firstEnd {auth : ℤ → String → String → Prop} (h : c.Filed auth) {pk : String}
    {id : ℤ} {route : String} (hfirst : firstEnd c.peers ⟨snId, pk, ""⟩ = some (id, route)) :
    auth id route pk := by
  obtain ⟨e, hfind, rfl, rfl⟩ := firstEnd_eq_some.1 hfirst
  have hkey := List.find?_some hfind
  have hpk : e.1.pk = pk := ((ConnectionID.eq_sn_iff rfl).1 hkey).2
  rw [← hpk]
  exact h.proved e (List.mem_of_find?_eq_some hfind)

/-- Anyone else we have connected to is answered if the connection was not opened to a service
node. -/
theorem repliesOn_outgoing_iff {auth : ℤ → String → String → Prop} (h : c.Filed auth) {connId : ℤ}
    (hpos : 0 < connId) (hopen : c.isOpen connId = true) {pk : String}
    (hfound : ∃ s, firstEnd c.peers ((c.outgoingSnConns.lookup connId).getD (.ofId connId)) =
      some s) :
    (∃ id route, c.RepliesOn ⟨connId, pk, ""⟩ id route ∧ id = connId ∧ route = "") ↔
      connId ∉ c.outgoingSnConns := by
  have hsn : (ConnectionID.mk connId pk "").sn = false := ConnectionID.sn_ofId_of_pos hpos
  have hsn' : (ConnectionID.ofId connId).sn = false := ConnectionID.sn_ofId_of_pos hpos
  -- the records under a number are about the connection with this number
  have hown : ∀ e ∈ c.peers, e.1.eq ⟨connId, pk, ""⟩ = true →
      e.2.connId = connId ∧ connId ∉ c.outgoingSnConns := by
    intro e he hkey
    have hid : e.1.id = connId := ConnectionID.id_eq_of_eq hkey
    have hesn : e.1.sn = false := by
      rw [← hsn, ConnectionID.sn, hid]
      rfl
    obtain ⟨hconn, _, hnot⟩ := h.own e he hesn
    exact ⟨hconn.trans hid, hid ▸ hnot⟩
  constructor
  · rintro ⟨id, route, hreplies, -, -⟩
    obtain ⟨⟨r, hfirst⟩, _⟩ := (repliesOn_own hsn rfl).1 hreplies
    obtain ⟨e, hfind, _⟩ := firstEnd_eq_some.1 hfirst
    have hkey := List.find?_some hfind
    exact (hown e (List.mem_of_find?_eq_some hfind) hkey).2
  · intro hnot
    have hnone : c.outgoingSnConns.lookup connId = none := AList.lookup_eq_none.2 hnot
    obtain ⟨⟨id, r⟩, hfirst⟩ := hfound
    rw [hnone, Option.getD_none, firstEnd_eq_some] at hfirst
    obtain ⟨e, hfind, rfl, rfl⟩ := hfirst
    -- the two keys are equal to the same keys
    have hkeys : (fun e : ConnectionID × PeerInfo => e.1.eq (.ofId connId)) =
        fun e => e.1.eq ⟨connId, pk, ""⟩ := by
      funext e
      rw [Bool.eq_iff_iff, ConnectionID.eq_not_sn_iff hsn', ConnectionID.eq_not_sn_iff hsn]
      rfl
    rw [hkeys] at hfind
    have hkey := List.find?_some hfind
    obtain ⟨hconn, _⟩ := hown e (List.mem_of_find?_eq_some hfind) hkey
    refine ⟨connId, "", (repliesOn_own hsn rfl).2 ⟨⟨e.2.route, ?_⟩, rfl, hopen⟩, rfl, rfl⟩
    exact firstEnd_eq_some.2 ⟨e, hfind, hconn, rfl⟩

/-- **An answer reaches the sender of a command exactly if the sender is answerable.**  It goes out
on an open connection, without a lookup and without a new connection: for an active service node
one with the pubkey of the sender at the other end, for anyone else the one the command came in
on. -/
theorem reply_reaches_sender_iff {es : List ConnEvent}
    (h : Transition.run (step cfg) start es = some c) {env : Env} {immediate : Bool} {connId : ℤ}
    {router : Bool} {m : Incoming} {a : Arrival κ}
    (hreceive : canReceive (c.connections.lookup connId) router m.parts = true)
    (ha : receive cfg c env immediate connId router m = .ok (c', some a)) :
    (∃ id route, c'.RepliesOn a.conn id route ∧
      (a.conn.sn = true → ∃ pk, Sender cfg es c connId router m pk ∧
        Authenticated cfg (es ++ [.message env immediate connId router m]) id route pk) ∧
      (a.conn.sn = false → id = connId ∧ route = if router then m.parts.getD 0 "" else "")) ↔
    Answerable cfg c env.pos connId router m := by
  have hrun : Transition.run (step cfg) start
      (es ++ [.message env immediate connId router m]) = some c' := by
    refine Transition.run_snoc h ?_
    rw [step, if_pos hreceive, ha]
    rfl
  have hopen := isOpen_of_canReceive hreceive
  have hpos : 0 < connId := (run_counted h).used_pos connId (.socket (mem_of_isOpen hopen))
  obtain ⟨c₁, harrival, hconn, hindex, hends⟩ := receive_tables ha
  obtain ⟨peer, route₀, hfind, _, _, hconnId⟩ := arrival_some harrival
  obtain ⟨hok, _⟩ := run_active h
  obtain ⟨hsender, hflag⟩ := findPeer_serviceNode (run_filed h) hok hfind
  obtain ⟨p, hp, hpk, hconn₁, hindex₁, hsnTables, hownTables⟩ :=
    findPeer_tables (run_filed h) hfind
  have hisOpen : ∀ id, c'.isOpen id = c.isOpen id :=
    isOpen_congr (hconn.trans hconn₁)
  have hanswerable : Answerable cfg c env.pos connId router m ↔
      if p.pubkey ∈ c.activeServiceNodes then
        ∃ id route, firstEnd (c.recordsWith env.pos router p) ⟨snId, p.pubkey, ""⟩ =
          some (id, route) ∧ c.isOpen id = true
      else router = true ∨ connId ∉ c.outgoingSnConns := by
    simp [Answerable, hp]
  have hfiled := run_filed hrun
  rw [hanswerable, hconnId, ← hpk]
  cases hsn : peer.serviceNode with
  | true =>
    have hactive := hflag.1 hsn
    have hlen := hok.length _ hactive
    have hrecords := firstEnd_sameEnd (hsnTables hsn) ⟨snId, peer.pubkey, ""⟩
    rw [if_pos hactive, ← hrecords, ← hends]
    constructor
    · rintro ⟨id, route, hreplies, _⟩
      obtain ⟨hfirst, hopen'⟩ := (repliesOn_sn hlen).1 hreplies
      exact ⟨id, route, hfirst, hisOpen id ▸ hopen'⟩
    · rintro ⟨id, route, hfirst, hopen'⟩
      refine ⟨id, route, (repliesOn_sn hlen).2 ⟨hfirst, (hisOpen id).trans hopen'⟩, fun _ => ?_, ?_⟩
      · exact ⟨peer.pubkey, hsender, hfiled.auth_of_firstEnd hfirst⟩
      · intro hnot
        cases hnot
  | false =>
    have hinactive : peer.pubkey ∉ c.activeServiceNodes := fun hmem => by
      rw [hflag.2 hmem] at hsn
      cases hsn
    obtain ⟨htouched, rfl⟩ := hownTables hsn
    have hconnSn : (ConnectionID.mk connId peer.pubkey
        (if router then m.parts.getD 0 "" else "")).sn = false := ConnectionID.sn_ofId_of_pos hpos
    rw [if_neg hinactive, if_neg Bool.false_ne_true]
    simp only [hconnSn, Bool.false_eq_true, false_implies, true_and, forall_const]
    cases router with
    | true =>
      obtain ⟨_, hroute⟩ := canReceive_router hreceive
      refine iff_of_true ⟨connId, m.parts.getD 0 "", ?_, rfl, rfl⟩ (Or.inl rfl)
      exact repliesOn_route hconnSn hroute ((hisOpen connId).trans hopen)
    | false =>
      rw [← hindex₁, ← hindex]
      refine (repliesOn_outgoing_iff hfiled hpos ((hisOpen connId).trans hopen) ?_).trans ?_
      · -- the record that was found is still there
        rw [hends, firstEnd_sameEnd htouched, hindex, hindex₁]
        obtain ⟨e, hfound, _⟩ := Option.map_eq_some_iff.1 hp
        exact ⟨_, firstEnd_eq_some.2 ⟨e, hfound, rfl, rfl⟩⟩
      · simp

/-- A program with a command for everyone. -/
def openConfig : Config Unit := { snConfig with access := fun _ => {} }

/-- A client on a listening socket is answered there. -/
theorem reply_reaches_client : ∃ c c' a,
    Transition.run (step openConfig) start [.bind "tcp://a" false 0 true] = some c ∧
    canReceive (c.connections.lookup 2) true ["client", "sn.ping"] = true ∧
    receive openConfig c {} true 2 true { parts := ["client", "sn.ping"] } = .ok (c', some a) ∧
    ∃ id route, c'.RepliesOn a.conn id route ∧
      (a.conn.sn = true → ∃ pk,
        Sender openConfig [.bind "tcp://a" false 0 true] c 2 true { parts := ["client", "sn.ping"] }
          pk ∧
        Authenticated openConfig ([.bind "tcp://a" false 0 true] ++
          [.message {} true 2 true { parts := ["client", "sn.ping"] }]) id route pk) ∧
      (a.conn.sn = false → id = 2 ∧ route = if true then "client" else "") := by
  have hsome : ∃ c c' a,
      Transition.run (step openConfig) start [.bind "tcp://a" false 0 true] = some c ∧
      canReceive (c.connections.lookup 2) true ["client", "sn.ping"] = true ∧
      receive openConfig c {} true 2 true { parts := ["client", "sn.ping"] } = .ok (c', some a) ∧
      c.activeServiceNodes = [] := ⟨_, _, _, rfl, rfl, rfl, rfl⟩
  obtain ⟨c, c', a, hrun, hreceive, ha, hactive⟩ := hsome
  refine ⟨c, c', a, hrun, hreceive, ha, (reply_reaches_sender_iff hrun hreceive ha).2 ?_⟩
  intro p _
  simp [hactive]

/-- Two commands whose sender is not answered.  The first comes from an active service node that we
have connected to with `connect_remote`: the answer opens another connection.  The second comes from
a remote that we have connected to with `connect_sn` and that is not an active service node: the
answer is dropped. -/
theorem reply_misses_sender :
    (∃ c c' a, Transition.run (step snConfig) start lateSnRun = some c ∧
      receive snConfig c {} true 2 false { parts := ["sn.ping"] } = .ok (c', some a) ∧
      ∃ c'', c'.sendTarget { snLookup := .ok "tcp://b" } { conn := a.conn, send := [] } a.conn =
          .ok (c'', some (3, a.conn)) ∧ c''.connections.lookup 3 = some (.dealer true)) ∧
    ∃ c c' a, Transition.run (step openConfig) start
        [.connectSn {} ⟨"0123456789abcdef0123456789abcdef", "tcp://a", false, false, false, 1000⟩] =
        some c ∧
      receive openConfig c {} true 2 false { parts := ["sn.ping"] } = .ok (c', some a) ∧
      a.conn.sn = false ∧
      c'.sendTarget {} { conn := a.conn, send := [] } a.conn = .ok (c', none) :=
  ⟨⟨_, _, _, rfl, rfl, _, rfl, rfl⟩, _, _, _, rfl, rfl, rfl, rfl⟩

end Conn

end OxenMQ
