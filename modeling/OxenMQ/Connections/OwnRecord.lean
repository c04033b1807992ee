import OxenMQ.Connections.Gating

/-!
# Which record a message on an outgoing connection is handled with

A command that comes in on a connection we have opened ourselves is checked with a record of
`peers`; what the callback is told about the sender is taken from the record, and its activity timer
is refreshed.  `proxy_to_worker` does not look for the record of the connection, though.  It looks
for the service node that the connection was opened to, and takes the first record it comes across
(`Conn.recordIdx`).

If the service node has also connected to us then there are several records under its key, and which
one is the first is up to the multimap.  `own_record_iff` says when the record is the right one in
every order: exactly if there is no other.  A connection that was not opened to a service node is
looked for by its number, and is always found.
-/

set_option autoImplicit false

namespace OxenMQ

namespace Conn

variable {κ : Type} {cfg : Config κ} {c c' : Conn} {env : Env} {immediate : Bool} {connId : ℤ}
  {m : Incoming}

/-- What `proxy_to_worker` looks for when a message comes in on a connection of ours. -/
def recordKey (c : Conn) (connId : ℤ) : ConnectionID :=
  (c.outgoingSnConns.lookup connId).getD (.ofId connId)

/-- Where it finds a record. -/
def recordIdx (c : Conn) (connId : ℤ) : Option ℕ :=
  c.peers.findIdx? fun e => e.1.eq (c.recordKey connId)

/-- The record that `peers.find` returns for a message on `connId`, if any, is of that
connection. -/
def UsesOwn (c : Conn) (connId : ℤ) : Prop :=
  ∀ i, c.recordIdx connId = some i → ∃ e, c.peers[i]? = some e ∧ e.2.connId = connId

/-- Whether the remote is a service node is looked up again. -/
def relook (c : Conn) (p : PeerInfo) : PeerInfo :=
  if p.pubkey = "" then p else { p with serviceNode := decide (p.pubkey ∈ c.activeServiceNodes) }

/-- A command is handled with the record at this place: it is what the check is about, who the
callback is told the sender is, and the one that is refreshed. -/
inductive Handles (cfg : Config κ) (c : Conn) (env : Env) (immediate : Bool) (m : Incoming)
    (i : ℕ) : Conn → Option (Arrival κ) → Prop
  | rejected {k : ConnectionID} {p : PeerInfo} {code : String} (wire : List (ℤ × List String))
      (hrecord : c.peers[i]? = some (k, p))
      (hcheck : cfg.rejection (c.relook p) (cfg.getCommand (m.parts.getD 0 "")).2 (m.parts.drop 1) =
        some code) :
    Handles cfg c env immediate m i
      { c with peers := c.peers.set i (k, c.relook p), wire := wire } none
  | accepted {k : ConnectionID} {p : PeerInfo} {a : Arrival κ} (hrecord : c.peers[i]? = some (k, p))
      (hcheck : cfg.rejection (c.relook p) (cfg.getCommand (m.parts.getD 0 "")).2 (m.parts.drop 1) =
        none)
      (haccess : a.access = ⟨p.authLevel, (c.relook p).serviceNode, cfg.localServiceNode⟩) :
    Handles cfg c env immediate m i
      { c with peers := c.peers.set i (k, { c.relook p with
          lastActivity := if immediate then env.now else p.lastActivity }) } (some a)

theorem relook_lastActivity (c : Conn) (p : PeerInfo) :
    (c.relook p).lastActivity = p.lastActivity ∧ (c.relook p).authLevel = p.authLevel := by
  rw [relook]
  split <;> exact ⟨rfl, rfl⟩

theorem findPeer_of_recordIdx_none (h : c.recordIdx connId = none) (cfg : Config κ) (pos : ℕ)
    (m : Incoming) : findPeer cfg c pos connId false m = .ok (c, none) := by
  have hnone : c.peers.find? (fun e =>
      e.1.eq ((c.outgoingSnConns.lookup connId).getD (.ofId connId))) = none :=
    List.find?_eq_none.2 fun e he => Bool.eq_false_iff.1 (List.findIdx?_eq_none_iff.1 h e he)
  simp only [findPeer, Bool.false_eq_true, if_false, hnone]
  rfl

theorem findPeer_of_recordIdx {i : ℕ} (h : c.recordIdx connId = some i) :
    ∃ k p, c.peers[i]? = some (k, p) ∧
      (∀ (cfg : Config κ) (pos : ℕ) (m : Incoming), findPeer cfg c pos connId false m =
        .ok ({ c with peers := c.peers.set i (k, c.relook p) }, some (c.relook p, ""))) ∧
      ∀ now, pumpActivity { c with peers := c.peers.set i (k, c.relook p) } now connId =
        { c with peers := c.peers.set i (k, { c.relook p with lastActivity := now }) } := by
  obtain ⟨⟨k, p⟩, hrecord, hfind, hset⟩ := Multimap.modifyFirst_eq_set h
  refine ⟨k, p, hrecord, fun cfg pos m => ?_, fun now => ?_⟩
  · rw [← hset fun e => (e.1, c.relook e.2)]
    simp only [findPeer, Bool.false_eq_true, if_false]
    rw [show c.peers.find? (fun e =>
      e.1.eq ((c.outgoingSnConns.lookup connId).getD (.ofId connId))) = some (k, p) from hfind]
    rfl
  · rw [← hset fun e => (e.1, c.relook e.2), pumpActivity]
    dsimp only
    rw [show (c.outgoingSnConns.lookup connId).getD (.ofId connId) = c.recordKey connId from rfl,
      Multimap.modifyFirst_modifyFirst, hset]
    exact fun _ => rfl

/-- The check and what the callback is told, given the record. -/
theorem arrival_of_findPeer {c₁ : Conn} {pos : ℕ} {peer : PeerInfo}
    (h : findPeer cfg c pos connId false m = .ok (c₁, some (peer, ""))) :
    (∃ code wire,
      cfg.rejection peer (cfg.getCommand (m.parts.getD 0 "")).2 (m.parts.drop 1) = some code ∧
      arrival cfg c pos connId false m = .ok ({ c₁ with wire := wire }, none)) ∨
    ∃ a : Arrival κ,
      cfg.rejection peer (cfg.getCommand (m.parts.getD 0 "")).2 (m.parts.drop 1) = none ∧
      a.access = ⟨peer.authLevel, peer.serviceNode, cfg.localServiceNode⟩ ∧
      arrival cfg c pos connId false m = .ok (c₁, some a) := by
  rw [arrival, h, Except.ok_bind]
  dsimp only [Bool.toNat_false, Nat.zero_add]
  rcases cfg.getCommand (m.parts.getD 0 "") with ⟨command, catCall⟩
  rcases hcheck : cfg.rejection peer catCall (m.parts.drop 1) with _ | code
  · rcases catCall with _ | ⟨cat, callback⟩
    · cases hcheck
    · exact .inr ⟨_, rfl, rfl, rfl⟩
  · exact .inl ⟨code, _, rfl, rfl⟩

/-- The record at `recordIdx` is the one that a command is handled with. -/
theorem receive_outgoing (cfg : Config κ) (env : Env) (immediate : Bool)
    (hcommand : c.proxyHandleBuiltin connId false m.parts = .ok (c, false)) :
    (c.recordIdx connId = none ∧ receive cfg c env immediate connId false m = .ok (c, none)) ∨
      ∃ i c' r, c.recordIdx connId = some i ∧
        receive cfg c env immediate connId false m = .ok (c', r) ∧
        Handles cfg c env immediate m i c' r := by
  rw [receive, hcommand, Except.ok_bind]
  rcases hidx : c.recordIdx connId with _ | i
  · refine .inl ⟨rfl, ?_⟩
    simp only [arrival, findPeer_of_recordIdx_none hidx]
    rfl
  · obtain ⟨k, p, hrecord, hfind, hpump⟩ := findPeer_of_recordIdx (κ := κ) hidx
    rcases arrival_of_findPeer (hfind cfg env.pos m) with ⟨code, wire, hcheck, harrival⟩ |
      ⟨a, hcheck, haccess, harrival⟩
    · refine .inr ⟨i, _, none, rfl, ?_, .rejected wire hrecord hcheck⟩
      simp only [harrival]
      rfl
    · refine .inr ⟨i, _, some a, rfl, ?_, .accepted hrecord hcheck ?_⟩
      · simp only [harrival]
        cases immediate with
        | false =>
          rw [if_neg Bool.false_ne_true, ← (c.relook_lastActivity p).1]
          rfl
        | true => exact congrArg (fun c => Except.ok (c, some a)) (hpump env.now)
      · rw [haccess, (c.relook_lastActivity p).2]

/-- In the order in which a record comes first, it is the one. -/
theorem recordIdx_cons {e : ConnectionID × PeerInfo} {rest : List (ConnectionID × PeerInfo)}
    (h : e.1.eq (c.recordKey connId) = true) :
    recordIdx { c with peers := e :: rest } connId = some 0 := by
  rw [recordIdx, List.findIdx?_cons]
  exact if_pos h

theorem usesOwn_of_forall
    (h : ∀ e ∈ c.peers, e.1.eq (c.recordKey connId) = true → e.2.connId = connId) :
    c.UsesOwn connId := by
  intro i hi
  obtain ⟨e, hrecord, hfind, _⟩ := Multimap.modifyFirst_eq_set hi
  have hkey := List.find?_some hfind
  exact ⟨e, hrecord, h e (List.mem_of_find?_eq_some hfind) hkey⟩

/-- **A message on a connection of ours is handled with the record of the connection**, in every
order of the multimap, exactly if there is no other record under the same key. -/
theorem own_record_iff (cfg : Config κ) {es : List ConnEvent}
    (h : Transition.run (step cfg) start es = some c) (connId : ℤ) :
    (∀ env immediate m, c.proxyHandleBuiltin connId false m.parts = .ok (c, false) →
      (c.recordIdx connId = none ∧ receive cfg c env immediate connId false m = .ok (c, none)) ∨
      ∃ i c' r, c.recordIdx connId = some i ∧
        receive cfg c env immediate connId false m = .ok (c', r) ∧
        Handles cfg c env immediate m i c' r) ∧
    (c.outgoingSnConns.lookup connId = none →
      ∀ e ∈ c.peers, e.1.eq (c.recordKey connId) = true → e.2.connId = connId) ∧
    ((∀ peers, peers.Perm c.peers → UsesOwn { c with peers := peers } connId) ↔
      ∀ e ∈ c.peers, e.1.eq (c.recordKey connId) = true → e.2.connId = connId) := by
  refine ⟨fun env immediate m => receive_outgoing cfg env immediate, fun hid e he hkey => ?_,
    fun howns e he hkey => ?_, fun hall peers hperm => ?_⟩
  · rw [recordKey, hid, Option.getD_none] at hkey
    exact ((run_filed h).own_of_eq he hkey).1
  · -- the order in which this record comes first
    obtain ⟨e', hrecord, hconn⟩ :=
      howns _ (List.perm_cons_erase he).symm 0 (recordIdx_cons hkey)
    cases hrecord
    exact hconn
  · exact usesOwn_of_forall fun e he => hall e (hperm.mem_iff.1 he)

/-- The record of a service node that has not connected to us is the right one. -/
theorem own_record_iff_alone : ∃ c, Transition.run (step bareConfig) start
      [.connectSn {}
        { pubkey := "0123456789abcdef0123456789abcdef", hint := "tcp://sn:5678",
          keepAlive := 1000 }] =
        some c ∧ c.connections.lookup 2 = some (.dealer true) ∧
      ∀ peers, peers.Perm c.peers → UsesOwn { c with peers := peers } 2 := by
  have hrun : Transition.run (step bareConfig) start
    [.connectSn {}
      { pubkey := "0123456789abcdef0123456789abcdef", hint := "tcp://sn:5678",
        keepAlive := 1000 }] =
      some _ := rfl
  refine ⟨_, hrun, rfl, (own_record_iff bareConfig hrun 2).2.2.2 fun e he _ => ?_⟩
  obtain rfl := List.mem_singleton.1 he
  rfl

/-- A program with a command for administrators. -/
def keeperConfig (pk : String) : Config Unit :=
  { bareConfig with
    fromHex := fun _ => pk
    categories := fun name => if name = "admin" then some () else none
    access := fun _ => { auth := .admin }
    commands := fun _ name => if name = "stop" then some ⟨0, false⟩ else none }

/-- We connect to a service node, which then connects to us as an administrator; the multimap puts
the new record in front. -/
def keeperRun (pk : String) : List ConnEvent :=
  [.bind "tcp://*:5678" true 0 true, .setActiveSns [pk],
    .connectSn {} { pubkey := pk, hint := "tcp://sn:5678", keepAlive := 1000 },
    .message {} true 2 true
      { parts := ["route", "admin.stop"], userId := some (pk ++ pk), xAuthLevel := some "admin" }]

/-- A message on our connection is taken for one of the administrator's, and so the service node can
invoke the command on it. -/
theorem not_own_record_keeper : let pk := "0123456789abcdef0123456789abcdef"
    ∃ c c' a, Transition.run (step (keeperConfig pk)) start (keeperRun pk) = some c ∧
      c.connections.lookup 3 = some (.dealer true) ∧ ¬ c.UsesOwn 3 ∧
      (∃ e ∈ c.peers, e.2.connId = 3 ∧ e.2.authLevel = .none) ∧
      receive (keeperConfig pk) c {} true 3 false { parts := ["admin.stop"] } = .ok (c', some a) ∧
      a.access.auth = .admin := by
  refine ⟨_, _, _, rfl, rfl, fun howns => ?_,
    ⟨_, List.mem_cons_of_mem _ List.mem_cons_self, rfl, rfl⟩, rfl, rfl⟩
  obtain ⟨e, he, hconn⟩ := howns 0 rfl
  cases he
  cases hconn

end Conn

end OxenMQ
