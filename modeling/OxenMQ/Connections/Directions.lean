import OxenMQ.Connections.Unsent

/-!
# Which way a message goes

A message can be sent with the wish that it use an incoming connection, or that it use an outgoing
one, and is to be dropped if there is no such connection.  `proxy_send` hands the wishes on to
`proxy_connect_sn`, which looks at them when it chooses among the connections of a service node and
when it decides whether to open one.  Nobody else looks at them, so a message to anything but a
service node goes out on the connection it is addressed to, whatever was wished for.

`Conn.Ignores` says when this happens, and `Conn.honoured_iff` that it is the only thing that goes
wrong.  New connections are only opened where they should be, and at most one for each message: the
message goes out on it, and after an outgoing connection there is no other turn.
-/

set_option autoImplicit false

namespace OxenMQ

namespace Conn

variable {c c' : Conn} {env : Env} {r : SendRequest} {conn conn' : ConnectionID} {id : ℤ} {n m : ℕ}

/-! ## The turns of a send -/

/-- There is one turn of each number. -/
theorem Tries.unique {c₁ c₂ : Conn} (h : Tries env r c n conn c₁) (h' : Tries env r c n conn' c₂) :
    conn = conn' ∧ c₁ = c₂ := by
  induction h generalizing conn' c₂ with
  | first =>
    cases h'
    exact ⟨rfl, rfl⟩
  | again h hturn ih =>
    cases h' with
    | again h' hturn' =>
      obtain ⟨rfl, rfl⟩ := ih h'
      rw [hturn] at hturn'
      cases hturn'
      exact ⟨rfl, rfl⟩

/-- If there is a later turn, this one ends with another try. -/
theorem Tries.continues {c₁ c₂ : Conn} (h : Tries env r c n conn c₁) (h' : Tries env r c m conn' c₂)
    (hlt : n < m) : ∃ id conn₃ c₃, sendTurn env r n conn c₁ = .ok (c₃, .again id conn₃) := by
  induction h' with
  | first => omega
  | again h'' hturn ih =>
    rcases Nat.lt_succ_iff_lt_or_eq.1 hlt with hlt | rfl
    · exact ih hlt
    · obtain ⟨rfl, rfl⟩ := h.unique h''
      exact ⟨_, _, _, hturn⟩

/-- Only the route of the destination changes from turn to turn. -/
theorem Tries.dest {c₁ : Conn} (h : Tries env r c n conn c₁) : conn.id = r.conn.id := by
  induction h with
  | first => rfl
  | again _ hturn ih =>
    obtain ⟨_, _, _, _, _, rfl, _⟩ := sendTurn_again hturn
    exact ih

theorem Tries.sn {c₁ : Conn} (h : Tries env r c n conn c₁) : conn.sn = r.conn.sn := by
  rw [ConnectionID.sn, h.dest, ConnectionID.sn]

/-- A message to anything but a service node is tried once. -/
theorem Tries.eq_first {c₁ : Conn} (h : Tries env r c n conn c₁) (hsn : r.conn.sn = false) :
    conn = r.conn ∧ c₁ = c := by
  cases h with
  | first => exact ⟨rfl, rfl⟩
  | again h hturn =>
    have hsn' := (sendTurn_again hturn).1
    rw [h.sn, hsn] at hsn'
    cases hsn'

/-! ## Where a turn sends the message -/

/-- The socket for a destination that is not a service node: the one that is named along with the
route, or the one in the first record of the destination. -/
def socketOf (c : Conn) (conn : ConnectionID) : Option ℤ :=
  if conn.route ≠ "" then some conn.id else (c.equalRange conn).head?.map fun e => e.2.connId

/-- The wishes make no difference to it. -/
theorem sendTarget_of_not_sn (hsn : conn.sn = false) :
    c.sendTarget env r conn = .ok (c, (c.socketOf conn).bind fun id =>
      if id ∈ c.connections then some (id, conn) else none) := by
  rw [sendTarget, if_neg (by simp [hsn]), socketOf]
  split
  · rfl
  · cases c.equalRange conn with
    | nil => rfl
    | cons e rest => rfl

/-- For a service node a connection that may be used is taken, or one is opened if there is none. -/
theorem sendTarget_sn_cases {target : Option (ℤ × ConnectionID)} (hsn : conn.sn = true)
    (h : c.sendTarget env r conn = .ok (c', target)) :
    (∃ e : ConnectionID × PeerInfo, usablePeer r.incoming r.outgoing e.2 = true ∧
      c'.nextConnId = c.nextConnId ∧ target = some (e.2.connId, { conn with route := e.2.route })) ∨
    (c'.nextConnId = c.nextConnId ∧ target = none) ∨
    (tried r (c.equalRange conn) = none ∧ r.isOptional = false ∧ r.incoming = false ∧
      target = some (c.nextConnId, { conn with route := "" })) := by
  rw [sendTarget, if_pos hsn] at h
  obtain ⟨⟨c₁, s⟩, hconnect, h⟩ := Except.bind_eq_ok.1 h
  rcases proxyConnectSn_ok hconnect with
    ⟨e, hfind, rfl, rfl⟩ | ⟨_, rfl, rfl⟩ | ⟨hfind, hopt, hin, rfl, rfl⟩
  · cases h
    rw [find?_usable hsn] at hfind
    exact Or.inl ⟨e, usable_of_tried hfind, reuseSn_nextConnId .., rfl⟩
  · cases h
    exact Or.inr (Or.inl ⟨rfl, rfl⟩)
  · cases h
    exact Or.inr (Or.inr ⟨(find?_usable hsn).symm.trans hfind, hopt, hin, rfl⟩)

theorem usablePeer_iff {incomingOnly outgoingOnly : Bool} {p : PeerInfo} :
    usablePeer incomingOnly outgoingOnly p = true ↔
      (incomingOnly = true → p.route ≠ "") ∧ (outgoingOnly = true → p.route = "") := by
  simp [usablePeer, PeerInfo.outgoing, Decidable.imp_iff_not_or]

/-- A message to a service node goes the way that was wished for. -/
theorem sendTarget_route (hsn : conn.sn = true)
    (h : c.sendTarget env r conn = .ok (c', some (id, conn'))) :
    (r.incoming = true → conn'.route ≠ "") ∧ (r.outgoing = true → conn'.route = "") := by
  rcases sendTarget_sn_cases hsn h with ⟨e, husable, _, hsome⟩ | ⟨_, hsome⟩ | ⟨_, _, hin, hsome⟩
  · cases hsome
    exact usablePeer_iff.1 husable
  · cases hsome
  · cases hsome
    exact ⟨fun hin' => by simp [hin] at hin', fun _ => rfl⟩

/-! ## What is passed to a socket -/

/-- In one of the turns the message is passed to the socket `id`, to go to `route`. -/
def Passes (c : Conn) (env : Env) (r : SendRequest) (id : ℤ) (route : String) : Prop :=
  ∃ n conn c₁ c₂ conn', Tries env r c n conn c₁ ∧
    c₁.sendTarget env r conn = .ok (c₂, some (id, conn')) ∧ conn'.route = route

/-- The turn of the destination `conn` that starts from `c₁` opens a connection: it takes a number
for it. -/
def OpensNew (env : Env) (r : SendRequest) (conn : ConnectionID) (c₁ : Conn) : Prop :=
  ∃ c₂ target, c₁.sendTarget env r conn = .ok (c₂, target) ∧ c₂.nextConnId ≠ c₁.nextConnId

/-- A turn puts the message on the wire that it passes to a socket, and nothing else. -/
theorem sendTurn_wire {turn : Turn} (h : sendTurn env r n conn c = .ok (c', turn)) :
    ∀ m ∈ c'.wire, m ∈ c.wire ∨ ∃ c₁ id conn',
      c.sendTarget env r conn = .ok (c₁, some (id, conn')) ∧
      m = (id, buildSendParts r.send conn'.route) := by
  obtain ⟨c₁, target, htarget, hcases⟩ := sendTurn_cases h
  have hwire := (sendTarget_frame htarget).1
  intro m hm
  rcases hcases with ⟨rfl, rfl, _⟩ | ⟨id, conn', rfl, hsent⟩
  · exact Or.inl (hwire ▸ hm)
  · have hm' : m ∈ c₁.wire ++ [(id, buildSendParts r.send conn'.route)] := by
      rcases hsent with ⟨rfl, _⟩ | ⟨_, _, _, _, herror, _⟩
      · exact hm
      · rwa [(handleSendError_frame herror).1] at hm
    rcases List.mem_append.1 hm' with hm | hm
    · exact Or.inl (hwire ▸ hm)
    · exact Or.inr ⟨c₁, id, conn', htarget, List.mem_singleton.1 hm⟩

/-- What is on the wire was there before, or has been passed to a socket. -/
def OnWire (c : Conn) (env : Env) (r : SendRequest) (wire : List (ℤ × List String)) : Prop :=
  ∀ m ∈ wire, m ∈ c.wire ∨
    ∃ id route, c.Passes env r id route ∧ m = (id, buildSendParts r.send route)

theorem OnWire.turn {turn : Turn} {c₁ : Conn} (hwire : c.OnWire env r c₁.wire)
    (htries : Tries env r c n conn c₁) (h : sendTurn env r n conn c₁ = .ok (c', turn)) :
    c.OnWire env r c'.wire := by
  intro m hm
  rcases sendTurn_wire h m hm with hm | ⟨c₂, id, conn', htarget, hm⟩
  · exact hwire m hm
  · exact Or.inr ⟨id, conn'.route, ⟨n, conn, c₁, c₂, conn', htries, htarget, rfl⟩, hm⟩

/-- What the loop puts on the wire has been passed to a socket in one of its turns. -/
theorem sendLoop_wire {fuel : ℕ} {turn : Turn}
    (h : sendLoop env r fuel 0 r.conn c = .ok (c', turn)) : c.OnWire env r c'.wire := by
  refine sendLoop_rule (P := fun n conn s => Tries env r c n conn s ∧ c.OnWire env r s.wire)
    (Q := fun s _ => c.OnWire env r s.wire) ?_ ?_ ⟨.first, fun _ => Or.inl⟩ h
  · rintro n conn s s' id conn' ⟨htries, hwire⟩ hturn
    exact ⟨htries.again hturn, hwire.turn htries hturn⟩
  · rintro n conn s s' turn ⟨htries, hwire⟩ hturn _
    exact hwire.turn htries hturn

theorem proxySend_wire (h : c.proxySend env r = .ok c') : c.OnWire env r c'.wire := by
  obtain ⟨c₁, turn, _, hloop, _, rfl⟩ := proxySend_frame h
  have hwire := sendLoop_wire hloop
  exact hwire

/-! ## Are the wishes honoured? -/

/-- What is expected of a send with `incoming` or `outgoing` set: the message goes out on a
connection of that kind or not at all, and a connection is opened only where the wish allows it. -/
structure Honoured (c : Conn) (env : Env) (r : SendRequest) : Prop where
  /-- All that is put on the wire has been passed to a socket in one of the turns. -/
  wire : ∀ {c'}, c.proxySend env r = .ok c' → c.OnWire env r c'.wire
  incoming : ∀ {id route}, r.incoming = true → c.Passes env r id route → route ≠ ""
  outgoing : ∀ {id route}, r.outgoing = true → c.Passes env r id route → route = ""
  /-- A connection is opened only to a service node, if we may, and if no record of it can be used.
  -/
  opens : ∀ {n conn c₁}, Tries env r c n conn c₁ → OpensNew env r conn c₁ →
    r.conn.sn = true ∧ r.isOptional = false ∧ r.incoming = false ∧
      ∀ e ∈ c₁.equalRange conn, usablePeer r.incoming r.outgoing e.2 = false
  /-- And at most one. -/
  once : ∀ {n m conn conn' c₁ c₂}, Tries env r c n conn c₁ → OpensNew env r conn c₁ →
    Tries env r c m conn' c₂ → OpensNew env r conn' c₂ → n = m

/-- The message is addressed to something else than a service node, the wish is for the other kind
of connection, and there is a socket. -/
def Ignores (c : Conn) (r : SendRequest) : Prop :=
  r.conn.sn = false ∧
    (r.incoming = true ∧ r.conn.route = "" ∨ r.outgoing = true ∧ r.conn.route ≠ "") ∧
    ∃ id ∈ c.connections, c.socketOf r.conn = some id

theorem OpensNew.spec {c₁ : Conn} (h : OpensNew env r conn c₁) :
    conn.sn = true ∧ tried r (c₁.equalRange conn) = none ∧ r.isOptional = false ∧
      r.incoming = false := by
  obtain ⟨c₂, target, htarget, hnew⟩ := h
  cases hsn : conn.sn with
  | false =>
    rw [sendTarget_of_not_sn hsn] at htarget
    cases htarget
    exact absurd rfl hnew
  | true =>
    rcases sendTarget_sn_cases hsn htarget with ⟨_, _, hid, _⟩ | ⟨hid, _⟩ | ⟨htried, hopt, hin, _⟩
    · exact absurd hid hnew
    · exact absurd hid hnew
    · exact ⟨rfl, htried, hopt, hin⟩

/-- The turn that opens a connection is the last one. -/
theorem OpensNew.last {c₁ : Conn} (h : OpensNew env r conn c₁) :
    sendTurn env r n conn c₁ ≠ .ok (c', .again id conn') := by
  intro hturn
  obtain ⟨_, e, htried, _⟩ := sendTurn_again hturn
  rw [h.spec.2.1] at htried
  cases htried

theorem OpensNew.not_lt {c₁ c₂ : Conn} (h : OpensNew env r conn c₁)
    (htries : Tries env r c n conn c₁)
    (htries' : Tries env r c m conn' c₂) : ¬ n < m := by
  intro hlt
  obtain ⟨_, _, _, hturn⟩ := htries.continues htries' hlt
  exact h.last hturn

/-- A message to anything but a service node is passed to its socket, if there is one. -/
theorem passes_iff_of_not_sn (hsn : r.conn.sn = false) {route : String} :
    c.Passes env r id route ↔
      route = r.conn.route ∧ id ∈ c.connections ∧ c.socketOf r.conn = some id := by
  constructor
  · rintro ⟨n, conn, c₁, c₂, conn', htries, htarget, rfl⟩
    obtain ⟨rfl, rfl⟩ := htries.eq_first hsn
    rw [sendTarget_of_not_sn hsn] at htarget
    obtain ⟨_, hbind⟩ := Prod.mk.inj (Except.ok.inj htarget)
    obtain ⟨i, hsocket, hmem⟩ := Option.bind_eq_some_iff.1 hbind
    split at hmem
    · rename_i hi
      cases hmem
      exact ⟨rfl, hi, hsocket⟩
    · cases hmem
  · rintro ⟨rfl, hmem, hsocket⟩
    refine ⟨0, r.conn, c, c, r.conn, .first, ?_, rfl⟩
    rw [sendTarget_of_not_sn hsn, hsocket, Option.bind_some, if_pos hmem]

/-- **The wishes are honoured, except for what is not addressed to a service node.** -/
theorem honoured_iff (c : Conn) (env : Env) (r : SendRequest) :
    c.Honoured env r ↔ ¬ c.Ignores r := by
  constructor
  · rintro h ⟨hsn, hwish, id, hmem, hsocket⟩
    have hpasses : c.Passes env r id r.conn.route :=
      (passes_iff_of_not_sn hsn).2 ⟨rfl, hmem, hsocket⟩
    rcases hwish with ⟨hin, hroute⟩ | ⟨hout, hroute⟩
    · exact h.incoming hin hpasses hroute
    · exact hroute (h.outgoing hout hpasses)
  · intro h
    have hroute : ∀ {id route}, c.Passes env r id route →
        (r.incoming = true → route ≠ "") ∧ (r.outgoing = true → route = "") := by
      intro id route hpasses
      cases hsn : r.conn.sn with
      | false =>
        obtain ⟨rfl, hmem, hsocket⟩ := (passes_iff_of_not_sn hsn).1 hpasses
        refine ⟨fun hin hroute => ?_, fun hout => ?_⟩
        · exact h ⟨hsn, Or.inl ⟨hin, hroute⟩, id, hmem, hsocket⟩
        · by_contra hroute
          exact h ⟨hsn, Or.inr ⟨hout, hroute⟩, id, hmem, hsocket⟩
      | true =>
        obtain ⟨n, conn, c₁, c₂, conn', htries, htarget, rfl⟩ := hpasses
        exact sendTarget_route (htries.sn.trans hsn) htarget
    refine ⟨proxySend_wire, fun hin hp => (hroute hp).1 hin, fun hout hp => (hroute hp).2 hout,
      fun htries hnew => ?_, fun htries hnew htries' hnew' => ?_⟩
    · obtain ⟨hsn, htried, hopt, hin⟩ := hnew.spec
      refine ⟨htries.sn.symm.trans hsn, hopt, hin, fun e he => ?_⟩
      exact Bool.eq_false_iff.2 (List.find?_eq_none.1 htried e he)
    · exact Nat.le_antisymm (Nat.le_of_not_lt (hnew'.not_lt htries' htries))
        (Nat.le_of_not_lt (hnew.not_lt htries htries'))

/-- We connect somewhere, which is connection 2, and listen, with the socket numbered 3. -/
def bothKinds : List ConnEvent :=
  [.allocate,
    .connectRemote {} { connId := 2, onConnect := 0, onFailure := 1, remote := "tcp://a" },
    .bind "tcp://*:5678" true 0 true]

/-- What is to go to an incoming connection goes out on the one we opened, and the other way round.
-/
theorem not_honoured_bothKinds : ∃ c,
    Transition.run (step bareConfig) start bothKinds = some c ∧
    ¬ c.Honoured {} { conn := .ofId 2, incoming := true, send := ["a.b"] } ∧
    ¬ c.Honoured {} { conn := ⟨3, "", "client"⟩, outgoing := true, send := ["a.b"] } := by
  refine ⟨_, rfl, fun h => ?_, fun h => ?_⟩
  · exact @Honoured.incoming _ _ _ h 2 _ rfl ⟨0, _, _, _, _, .first, rfl, rfl⟩ rfl
  · have hroute := @Honoured.outgoing _ _ _ h 3 _ rfl ⟨0, _, _, _, _, .first, rfl, rfl⟩
    exact absurd hroute (by decide)

end Conn

end OxenMQ
