import OxenMQ.Connections.Incoming

/-!
# What each handler can do to the connection tables

One statement for each handler of `OxenMQ.Connections.Defs` and `OxenMQ.Connections.Incoming` that
has more than one way to end, listing the ways.  Everything proved about the tables over time goes
through these, so no other proof has to look inside the handlers.

* Closing connections has one effect on the tables, `Conn.closeAll`, whatever handler does it; the
  lemmas that end in `_ok` say so for the handlers that may throw.
* The retry loop of `proxy_send` has a rule for its turns (`Conn.sendLoop_rule`), and
  `Conn.sendTurn_cases` says what a turn does.
-/

set_option autoImplicit false

namespace OxenMQ

variable {κ : Type}

/-- Who may invoke a command. -/
theorem Config.rejection_eq_none {cfg : Config κ} {peer : PeerInfo} {cat : κ} {callback : Command}
    {data : List String} :
    cfg.rejection peer (some (cat, callback)) data = none ↔
      (cfg.access cat).auth.toNat ≤ peer.authLevel.toNat ∧
      ((cfg.access cat).localSn = true → cfg.localServiceNode = true) ∧
      ((cfg.access cat).remoteSn = true → peer.serviceNode = true) ∧
      (callback.isRequest = true → data ≠ []) := by
  simp only [rejection]
  split_ifs with hauth hlocal hremote htag <;> simp_all

namespace Conn

variable {c c' : Conn}

/-- `job()` schedules the job, if it returns. -/
theorem job_ok {env : Env} {body : Closure} : c.job env body = .ok c' ↔
    env.job c.scheduled.length = .scheduled ∧
      c' = { c with scheduled := c.scheduled ++ [⟨body, false⟩] } := by
  unfold job
  cases env.job c.scheduled.length with
  | scheduled => simp [pure, Except.pure, eq_comm]
  | error | blocked => simp [throw, throwThe, MonadExceptOf.throw]

/-- It does not loop. -/
theorem job_ne_endless {env : Env} {body : Closure} : c.job env body ≠ .error .endless := by
  unfold job
  split <;> exact nofun

/-! ## Connecting to a service node -/

/-- To look a socket up changes the sockets only. -/
theorem indexConnection_eq (c : Conn) (id : ℤ) : ∃ connections,
    c.indexConnection id = { c with connections := connections } := by
  unfold indexConnection
  split
  · exact ⟨c.connections, rfl⟩
  · exact ⟨_, rfl⟩

/-- To reuse a connection changes the records and the sockets only. -/
theorem reuseSn_eq (c : Conn) (now keepAlive : ℤ) (usable : ConnectionID × PeerInfo → Bool)
    (peer : PeerInfo) : ∃ peers connections, c.reuseSn now keepAlive usable peer =
      { c with peers := peers, connections := connections } := by
  obtain ⟨connections, h⟩ := indexConnection_eq { c with peers := _ } peer.connId
  exact ⟨_, connections, h⟩

theorem reuseSn_nextConnId (c : Conn) (now keepAlive : ℤ)
    (usable : ConnectionID × PeerInfo → Bool) (peer : PeerInfo) :
    (c.reuseSn now keepAlive usable peer).nextConnId = c.nextConnId := by
  obtain ⟨_, _, h⟩ := reuseSn_eq c now keepAlive usable peer
  rw [h]

/-- The first connection that may be used is reused.  If there is none, one is opened, or none is.
-/
theorem proxyConnectSn_ok {env : Env} {remote hint : String}
    {isOptional incomingOnly outgoingOnly : Bool} {keepAlive : ℤ} {r : Option (ℤ × String)}
    (h : c.proxyConnectSn env remote hint isOptional incomingOnly outgoingOnly keepAlive =
      .ok (c', r)) :
    let usable := fun e : ConnectionID × PeerInfo =>
      e.1.eq ⟨snId, remote, ""⟩ && usablePeer incomingOnly outgoingOnly e.2
    (∃ e, c.peers.find? usable = some e ∧ c' = c.reuseSn env.now keepAlive usable e.2 ∧
      r = some (e.2.connId, e.2.route)) ∨
    (c.peers.find? usable = none ∧ c' = c ∧ r = none) ∨
    (c.peers.find? usable = none ∧ isOptional = false ∧ incomingOnly = false ∧
      c' = c.openSn env ⟨snId, remote, ""⟩ remote keepAlive ∧ r = some (c.nextConnId, "")) := by
  obtain ⟨cid, hcid, h⟩ := Except.bind_eq_ok.1 h
  obtain ⟨_, rfl⟩ := ConnectionID.ofPubkey_ok.1 hcid
  dsimp only at h ⊢
  split at h
  · rename_i k peer hfind
    cases h
    exact Or.inl ⟨_, hfind, rfl, rfl⟩
  · rename_i hfind
    split at h
    · cases h
      exact Or.inr (Or.inl ⟨hfind, rfl, rfl⟩)
    · rename_i hopen
      obtain ⟨addr, _, h⟩ := Except.bind_eq_ok.1 h
      split at h
      · cases h
        exact Or.inr (Or.inl ⟨hfind, rfl, rfl⟩)
      · split at h
        · cases h
          exact Or.inr (Or.inl ⟨hfind, rfl, rfl⟩)
        · cases h
          rw [Bool.or_eq_true, not_or] at hopen
          exact Or.inr (Or.inr
            ⟨hfind, Bool.eq_false_iff.2 hopen.1, Bool.eq_false_iff.2 hopen.2, rfl, rfl⟩)

/-- An existing connection is reused, there is none and none is opened, or one is opened. -/
theorem proxyConnectSn_cases {env : Env} {remote hint : String}
    {isOptional incomingOnly outgoingOnly : Bool} {keepAlive : ℤ} {r : Option (ℤ × String)}
    (h : c.proxyConnectSn env remote hint isOptional incomingOnly outgoingOnly keepAlive =
      .ok (c', r)) :
    (∃ (usable : ConnectionID × PeerInfo → Bool) (e : ConnectionID × PeerInfo),
      c.peers.find? usable = some e ∧ e.1.eq ⟨snId, remote, ""⟩ = true ∧
      c' = c.reuseSn env.now keepAlive usable e.2 ∧
      r = some (e.2.connId, e.2.route)) ∨
    (c' = c ∧ r = none) ∨
    (c' = c.openSn env ⟨snId, remote, ""⟩ remote keepAlive ∧ r = some (c.nextConnId, "")) := by
  rcases proxyConnectSn_ok h with ⟨e, hfind, hc', hr⟩ | ⟨_, hc', hr⟩ | ⟨_, _, _, hc', hr⟩
  · have husable := List.find?_some hfind
    rw [Bool.and_eq_true] at husable
    exact Or.inl ⟨_, e, hfind, husable.1, hc', hr⟩
  · exact Or.inr (Or.inl ⟨hc', hr⟩)
  · exact Or.inr (Or.inr ⟨hc', hr⟩)

/-- All that can escape from it is an exception. -/
theorem proxyConnectSn_error {env : Env} {remote hint : String}
    {isOptional incomingOnly outgoingOnly : Bool} {keepAlive : ℤ} {e : Abort}
    (h : c.proxyConnectSn env remote hint isOptional incomingOnly outgoingOnly keepAlive =
      .error e) :
    ∃ what, e = .exception what := by
  rcases Except.bind_eq_error.1 h with h | ⟨cid, _, h⟩
  · unfold ConnectionID.ofPubkey at h
    split at h
    · cases h
      exact ⟨_, rfl⟩
    · cases h
  · dsimp only at h
    split at h
    · cases h
    · split at h
      · cases h
      · rcases Except.bind_eq_error.1 h with h | ⟨addr, _, h⟩
        · unfold snAddress at h
          split at h
          · split at h
            · cases h
            · cases h
              exact ⟨_, rfl⟩
          · cases h
        · split at h
          · cases h
          · split at h
            · cases h
            · cases h

theorem throws_snAddress {env : Env} {hint : String} :
    Throws (snAddress env hint) ↔ hint = "" ∧ ∃ what, env.snLookup = .error what := by
  unfold snAddress
  split
  · rename_i hhint
    cases env.snLookup with
    | ok addr => exact iff_of_false (not_throws_ok _) (by simp)
    | error what => exact iff_of_true ⟨what, rfl⟩ ⟨hhint, what, rfl⟩
  · rename_i hhint
    exact iff_of_false (not_throws_ok _) fun h => hhint h.1

/-- It throws on a pubkey of the wrong length, and if it has to ask for the address and the lookup
throws. -/
theorem throws_proxyConnectSn {env : Env} {remote hint : String}
    {isOptional incomingOnly outgoingOnly : Bool} {keepAlive : ℤ} :
    Throws (c.proxyConnectSn env remote hint isOptional incomingOnly outgoingOnly keepAlive) ↔
      remote.length ≠ 32 ∨ (remote.length = 32 ∧
        (c.peers.find? fun e => e.1.eq ⟨snId, remote, ""⟩ &&
          usablePeer incomingOnly outgoingOnly e.2) = none ∧
        isOptional = false ∧ incomingOnly = false ∧ hint = "" ∧
        ∃ what, env.snLookup = .error what) := by
  unfold proxyConnectSn
  rw [throws_bind, ConnectionID.throws_ofPubkey]
  refine or_congr_right ⟨?_, ?_⟩
  · rintro ⟨cid, hcid, hthrows⟩
    obtain ⟨hlen, rfl⟩ := ConnectionID.ofPubkey_ok.1 hcid
    refine ⟨hlen, ?_⟩
    dsimp only at hthrows
    split at hthrows
    · exact absurd hthrows (not_throws_ok _)
    · rename_i hfind
      refine ⟨hfind, ?_⟩
      split at hthrows
      · exact absurd hthrows (not_throws_ok _)
      · rename_i hopen
        rw [Bool.or_eq_true, not_or, Bool.not_eq_true, Bool.not_eq_true] at hopen
        refine ⟨hopen.1, hopen.2, ?_⟩
        rcases throws_bind.1 hthrows with hthrows | ⟨addr, _, hthrows⟩
        · exact throws_snAddress.1 hthrows
        · split at hthrows
          · exact absurd hthrows (not_throws_ok _)
          · split at hthrows <;> exact absurd hthrows (not_throws_ok _)
  · rintro ⟨hlen, hfind, rfl, rfl, hlookup⟩
    refine ⟨_, ConnectionID.ofPubkey_ok.2 ⟨hlen, rfl⟩, ?_⟩
    dsimp only
    rw [hfind]
    exact throws_bind.2 (Or.inl (throws_snAddress.2 hlookup))

theorem proxyConnectSnMessage_cases {env : Env} {r : ConnectSn}
    (h : c.proxyConnectSnMessage env r = .ok c') :
    ∃ s, c.proxyConnectSn env r.pubkey r.hint r.isOptional r.incomingOnly r.outgoingOnly
      r.keepAlive = .ok (c', s) := by
  obtain ⟨⟨c₁, s⟩, h₁, h⟩ := Except.bind_eq_ok.1 h
  cases h
  exact ⟨s, h₁⟩

/-! ## Connecting to a remote -/

/-- If the connection cannot be attempted the failure callback is scheduled.  Otherwise there are a
socket with a `HI` on its way, an attempt that waits for the answer, and a record. -/
theorem proxyConnectRemote_cases {env : Env} {r : ConnectRemote}
    (h : c.proxyConnectRemote env r = .ok c') :
    (∃ what, env.connectError = some what ∧ c' = c.proxyScheduleReplyJob
      (.connectFailure r.onFailure (.ofId r.connId) ("connect() failed: " ++ what))) ∨
    (env.connectError = none ∧ c' = emplacePeer
      { c.emplaceConnection r.connId (.dealer false) with
        wire := c.wire ++ [(r.connId, ["HI"])]
        pendingConnects := c.pendingConnects ++
          [⟨r.connId, timeAfter env.now r.timeout, r.onConnect, r.onFailure⟩] }
      env.pos ⟨r.connId, r.pubkey, ""⟩
      { pubkey := r.pubkey, authLevel := r.authLevel, connId := r.connId,
        idleExpiry := forever, lastActivity := env.now }) := by
  unfold proxyConnectRemote at h
  split at h
  · cases h
  · split at h
    · rename_i what herror
      cases h
      exact Or.inl ⟨what, herror, rfl⟩
    · rename_i herror
      cases h
      exact Or.inr ⟨herror, rfl⟩

/-! ## Sending -/

/-- The search for a socket only changes the tables through `proxy_connect_sn`. -/
theorem sendTarget_cases {env : Env} {r : SendRequest} {conn : ConnectionID}
    {target : Option (ℤ × ConnectionID)} (h : c.sendTarget env r conn = .ok (c', target)) :
    c' = c ∨ ∃ s, c.proxyConnectSn env conn.pk r.hint r.isOptional r.incoming r.outgoing
      r.keepAlive = .ok (c', s) := by
  unfold sendTarget at h
  split at h
  · obtain ⟨⟨c₁, s⟩, h₁, h⟩ := Except.bind_eq_ok.1 h
    cases h
    exact Or.inr ⟨s, h₁⟩
  · split at h
    · cases h
      exact Or.inl rfl
    · split at h
      · cases h
        exact Or.inl rfl
      · cases h
        exact Or.inl rfl

/-- It neither sends anything nor schedules a job. -/
theorem sendTarget_frame {env : Env} {r : SendRequest} {conn : ConnectionID}
    {target : Option (ℤ × ConnectionID)} (h : c.sendTarget env r conn = .ok (c', target)) :
    c'.wire = c.wire ∧ c'.scheduled = c.scheduled := by
  rcases sendTarget_cases h with rfl | ⟨s, hs⟩
  · exact ⟨rfl, rfl⟩
  · rcases proxyConnectSn_ok hs with ⟨e, _, rfl, _⟩ | ⟨_, rfl, _⟩ | ⟨_, _, _, rfl, _⟩
    · obtain ⟨_, _, h⟩ := reuseSn_eq c env.now r.keepAlive _ e.2
      rw [h]
      exact ⟨rfl, rfl⟩
    · exact ⟨rfl, rfl⟩
    · exact ⟨rfl, rfl⟩

/-- Only the route of the destination is completed. -/
theorem sendTarget_dest {env : Env} {r : SendRequest} {conn conn' : ConnectionID} {id : ℤ}
    (h : c.sendTarget env r conn = .ok (c', some (id, conn'))) :
    conn'.id = conn.id ∧ conn'.pk = conn.pk := by
  unfold sendTarget at h
  split at h
  · obtain ⟨⟨c₁, s⟩, _, h⟩ := Except.bind_eq_ok.1 h
    cases s with
    | none => cases h
    | some s => cases h; exact ⟨rfl, rfl⟩
  · split at h
    · split at h
      · cases h; exact ⟨rfl, rfl⟩
      · cases h
    · split at h
      · cases h
      · split at h
        · cases h; exact ⟨rfl, rfl⟩
        · cases h

/-- The dead entry that is removed is the first one with its key; for a service node it has the
route that failed. -/
theorem dropUnreachable_cases {conn : ConnectionID} {retry : Bool}
    (h : c.dropUnreachable conn = .ok (c', retry)) :
    c' = c ∨ ∃ e ∈ c.peers, e.1.eq conn = true ∧ (conn.sn = true → e.2.route = conn.route) ∧
      ∃ rest, c.peers.Perm (e :: rest) ∧ c' = { c with peers := rest } := by
  unfold dropUnreachable at h
  split at h
  · cases h
    exact Or.inl rfl
  · rename_i k peer tail hrange
    have hfind : c.peers.find? (fun e => e.1.eq conn) = some (k, peer) := by
      rw [← List.head?_filter]
      exact congrArg List.head? hrange
    have hpeer := List.mem_of_find?_eq_some hfind
    have heq := List.find?_some hfind
    have hperm := Multimap.perm_cons_eraseP hfind
    dsimp only at h
    split at h
    · split at h
      · rename_i hroute
        cases h
        exact Or.inr ⟨_, hpeer, heq, fun _ => hroute, _, hperm, rfl⟩
      · cases h
    · rename_i hsn
      cases h
      exact Or.inr ⟨_, hpeer, heq, fun hs => absurd hs hsn, _, hperm, rfl⟩

/-- The handler around the send neither sends anything nor schedules a job. -/
theorem handleSendError_frame {unreachable retry : Bool} {conn : ConnectionID}
    (h : c.handleSendError unreachable conn = .ok (c', retry)) :
    c'.wire = c.wire ∧ c'.scheduled = c.scheduled := by
  unfold handleSendError at h
  split at h
  · rcases dropUnreachable_cases h with rfl | ⟨_, _, _, _, _, _, rfl⟩
    · exact ⟨rfl, rfl⟩
    · exact ⟨rfl, rfl⟩
  · cases h
    exact ⟨rfl, rfl⟩

/-- What a turn of the loop does: it looks for a socket, and if there is one it passes the message
to it.  After an exception a dead entry may go, which may lead to another turn. -/
theorem sendTurn_cases {env : Env} {r : SendRequest} {n : ℕ} {conn : ConnectionID} {turn : Turn}
    (h : sendTurn env r n conn c = .ok (c', turn)) :
    ∃ c₁ target, c.sendTarget env r conn = .ok (c₁, target) ∧
      (target = none ∧ c' = c₁ ∧ turn = .noSocket ∨
      ∃ id conn₁, target = some (id, conn₁) ∧
        let c₂ := { c₁ with wire := c₁.wire ++ [(id, buildSendParts r.send conn₁.route)] }
        (c' = c₂ ∧ (turn = .sent id conn₁.route ∨ turn = .full)) ∨
        ∃ unreachable what retry, c₂.sendOn id (env.send n) = .error unreachable what ∧
          c₂.handleSendError unreachable conn₁ = .ok (c', retry) ∧
          turn = if retry then .again id conn₁ else .failed what) := by
  obtain ⟨⟨c₁, target⟩, htarget, h⟩ := Except.bind_eq_ok.1 h
  refine ⟨c₁, target, htarget, ?_⟩
  dsimp only at h
  split at h
  · cases h
    exact Or.inl ⟨rfl, rfl, rfl⟩
  · rename_i id conn₁
    refine Or.inr ⟨id, conn₁, rfl, ?_⟩
    split at h
    · cases h
      exact Or.inl ⟨rfl, Or.inl rfl⟩
    · cases h
      exact Or.inl ⟨rfl, Or.inr rfl⟩
    · rename_i unreachable what hsend
      obtain ⟨⟨c₃, retry⟩, hhandle, h⟩ := Except.bind_eq_ok.1 h
      cases h
      exact Or.inr ⟨unreachable, what, retry, hsend, hhandle, rfl⟩

/-- **The rule for the retry loop.**  `P` is kept by the turns that lead to another one, and the
last turn leads from it to `Q`. -/
theorem sendLoop_rule {env : Env} {r : SendRequest} {P : ℕ → ConnectionID → Conn → Prop}
    {Q : Conn → Turn → Prop}
    (hagain : ∀ n conn c c' id conn', P n conn c →
      sendTurn env r n conn c = .ok (c', .again id conn') → P (n + 1) conn' c')
    (hlast : ∀ n conn c c' turn, P n conn c → sendTurn env r n conn c = .ok (c', turn) →
      (∀ id conn', turn ≠ .again id conn') → Q c' turn)
    {fuel n : ℕ} {conn : ConnectionID} {turn : Turn} (hc : P n conn c)
    (h : sendLoop env r fuel n conn c = .ok (c', turn)) : Q c' turn := by
  induction fuel generalizing n conn c with
  | zero => cases h
  | succ fuel ih =>
    obtain ⟨⟨c₁, turn₁⟩, hturn, h⟩ := Except.bind_eq_ok.1 h
    cases turn₁ with
    | again id conn' => exact ih (hagain _ _ _ _ _ _ hc hturn) h
    | noSocket | sent | full | failed =>
      cases h
      exact hlast _ _ _ _ _ hc hturn nofun

/-- `proxy_send` is the loop, followed by the end of the exception handler, what becomes of the
request, and the callbacks. -/
theorem proxySend_cases {env : Env} {r : SendRequest} (h : c.proxySend env r = .ok c') :
    ∃ c₁ turn c₂ nosend c₃, sendLoop env r (c.peers.length + 2) 0 r.conn c = .ok (c₁, turn) ∧
      c₁.reportFailure env r.sendFail turn = .ok (c₂, nosend) ∧
      c₂.recordRequest env turn.isSent r.request = .ok c₃ ∧
      if turn.isSent then c' = c₃ else c₃.reportUnsent env nosend r.sendFullQ = .ok c' := by
  obtain ⟨⟨c₁, turn⟩, hloop, h⟩ := Except.bind_eq_ok.1 h
  obtain ⟨⟨c₂, nosend⟩, hfailure, h⟩ := Except.bind_eq_ok.1 h
  obtain ⟨c₃, hrecord, h⟩ := Except.bind_eq_ok.1 h
  refine ⟨c₁, turn, c₂, nosend, c₃, hloop, hfailure, hrecord, ?_⟩
  split at h
  · rename_i hsent
    cases h
    rw [if_pos hsent]
  · rename_i hsent
    rw [if_neg hsent]
    exact h

/-! ## Closing connections -/

/-- What closing a connection does to the sockets, the index of the service nodes and the flag. -/
def eraseSocket (s : AList (fun _ : ℤ => Socket) × AList (fun _ : ℤ => ConnectionID) × Bool)
    (id : ℤ) : AList (fun _ : ℤ => Socket) × AList (fun _ : ℤ => ConnectionID) × Bool :=
  if id ∈ s.1 then (s.1.erase id, s.2.1.erase id, true) else s

/-- What closing several connections does to the tables. -/
def closeAll (c : Conn) (ids : List ℤ) : Conn :=
  let s := ids.foldl eraseSocket (c.connections, c.outgoingSnConns, c.connectionsUpdated)
  { c with connections := s.1, outgoingSnConns := s.2.1, connectionsUpdated := s.2.2 }

theorem closeAll_cons (c : Conn) (id : ℤ) (ids : List ℤ) :
    c.closeAll (id :: ids) = (c.closeAll [id]).closeAll ids := rfl

theorem closeAll_of_mem {id : ℤ} (h : id ∈ c.connections) : c.closeAll [id] =
    { c with
      connections := c.connections.erase id
      connectionsUpdated := true
      outgoingSnConns := c.outgoingSnConns.erase id } := by
  rw [closeAll, List.foldl_cons, List.foldl_nil, eraseSocket, if_pos h]

theorem closeAll_of_notMem {id : ℤ} (h : id ∉ c.connections) : c.closeAll [id] = c := by
  rw [closeAll, List.foldl_cons, List.foldl_nil, eraseSocket, if_neg h]

theorem lookup_closeAll (c : Conn) (ids : List ℤ) (id : ℤ) :
    (c.closeAll ids).connections.lookup id =
      if id ∈ ids then none else c.connections.lookup id := by
  induction ids generalizing c with
  | nil => rfl
  | cons i ids ih =>
    rw [closeAll_cons, ih]
    by_cases hid : id = i
    · subst hid
      rw [if_pos List.mem_cons_self, ite_eq_left_iff]
      intro _
      by_cases hmem : id ∈ c.connections
      · rw [closeAll_of_mem hmem]
        exact AList.lookup_erase id c.connections
      · rw [closeAll_of_notMem hmem]
        exact AList.lookup_eq_none.2 hmem
    · have hmem : id ∈ i :: ids ↔ id ∈ ids := by simp [hid]
      simp only [hmem]
      by_cases hi : i ∈ c.connections
      · rw [closeAll_of_mem hi]
        simp only [AList.lookup_erase_ne hid]
      · rw [closeAll_of_notMem hi]

/-- The index loses the entries of the sockets that were there. -/
theorem lookup_outgoingSnConns_closeAll (c : Conn) (ids : List ℤ) (id : ℤ) :
    (c.closeAll ids).outgoingSnConns.lookup id =
      if id ∈ ids ∧ id ∈ c.connections then none else c.outgoingSnConns.lookup id := by
  induction ids generalizing c with
  | nil => rw [if_neg (fun h => List.not_mem_nil h.1)]; rfl
  | cons i ids ih =>
    rw [closeAll_cons, ih]
    by_cases hi : i ∈ c.connections
    · rw [closeAll_of_mem hi]
      by_cases hid : id = i
      · subst hid
        have hmem : id ∈ id :: ids ∧ id ∈ c.connections := ⟨List.mem_cons_self, hi⟩
        rw [if_pos hmem, ite_eq_left_iff]
        exact fun _ => AList.lookup_erase id c.outgoingSnConns
      · simp only [List.mem_cons, AList.mem_erase, hid, false_or, ne_eq, not_false_iff, true_and,
          AList.lookup_erase_ne hid]
    · rw [closeAll_of_notMem hi]
      have hmem : id ∈ i :: ids ∧ id ∈ c.connections ↔ id ∈ ids ∧ id ∈ c.connections := by
        refine ⟨fun h => ⟨(List.mem_cons.1 h.1).resolve_left ?_, h.2⟩,
          fun h => ⟨List.mem_cons_of_mem i h.1, h.2⟩⟩
        rintro rfl
        exact hi h.2
      simp only [hmem]

theorem mem_of_mem_closeAll {ids : List ℤ} {id : ℤ} (h : id ∈ (c.closeAll ids).connections) :
    id ∈ c.connections := by
  rw [← AList.lookup_isSome, lookup_closeAll] at h
  split at h
  · cases h
  · exact AList.lookup_isSome.1 h

theorem mem_index_of_mem_closeAll {ids : List ℤ} {id : ℤ}
    (h : id ∈ (c.closeAll ids).outgoingSnConns) : id ∈ c.outgoingSnConns := by
  rw [← AList.lookup_isSome, lookup_outgoingSnConns_closeAll] at h
  split at h
  · cases h
  · exact AList.lookup_isSome.1 h

/-- The flag stays set, and it is set if one of the sockets was there. -/
theorem updated_closeAll (c : Conn) (ids : List ℤ) :
    (c.closeAll ids).connectionsUpdated =
      (c.connectionsUpdated || ids.any fun id => decide (id ∈ c.connections)) := by
  induction ids generalizing c with
  | nil => exact (Bool.or_false _).symm
  | cons i ids ih =>
    rw [closeAll_cons, ih, List.any_cons]
    by_cases hi : i ∈ c.connections
    · rw [closeAll_of_mem hi]
      simp [hi]
    · rw [closeAll_of_notMem hi]
      simp [hi]

theorem proxyCloseConnection_ok {linger id : ℤ} (h : c.proxyCloseConnection linger id = .ok c') :
    c' = c.closeAll [id] := by
  unfold proxyCloseConnection at h
  split at h
  · rename_i hnone
    cases h
    exact (closeAll_of_notMem (AList.lookup_eq_none.1 hnone)).symm
  · rename_i hsome
    obtain ⟨_, _, h⟩ := Except.bind_eq_ok.1 h
    cases h
    exact (closeAll_of_mem (AList.lookup_isSome.1 (Option.isSome_of_mem hsome))).symm

/-- The numbers of the connections of ours among some records. -/
def outgoingIds (es : List (ConnectionID × PeerInfo)) : List ℤ :=
  (es.filter fun e => e.2.outgoing).map fun e => e.2.connId

theorem foldlM_close_ok {linger : ℤ} {es : List (ConnectionID × PeerInfo)}
    (h : es.foldlM (fun c e => c.proxyCloseConnection linger e.2.connId) c = .ok c') :
    c' = c.closeAll (es.map fun e => e.2.connId) := by
  induction es generalizing c with
  | nil => cases h; rfl
  | cons e es ih =>
    obtain ⟨c₁, h₁, h⟩ := Except.bind_eq_ok.1 h
    rw [ih h, proxyCloseConnection_ok h₁, ← closeAll_cons, List.map_cons]

/-- Idle records are those of connections of ours, which are all closed. -/
theorem proxyExpireIdlePeers_ok {closeLinger now : ℤ}
    (h : c.proxyExpireIdlePeers closeLinger now = .ok c') :
    c' = { c.closeAll (outgoingIds (c.peers.filter fun e => e.2.idle now)) with
      peers := c.peers.filter fun e => !e.2.idle now } := by
  obtain ⟨c₁, h₁, h⟩ := Except.bind_eq_ok.1 h
  cases h
  have hown : (c.peers.filter fun e => e.2.idle now).filter (fun e => e.2.outgoing) =
      c.peers.filter fun e => e.2.idle now := by
    refine List.filter_eq_self.2 fun e he => ?_
    have hidle := (List.mem_filter.1 he).2
    rw [PeerInfo.idle, Bool.and_eq_true] at hidle
    exact hidle.1
  rw [outgoingIds, hown, foldlM_close_ok h₁]
  rfl

/-- An attempt that is given up loses its record and its socket, and its failure is reported. -/
theorem timeOutConnect_ok {env : Env} {pc : PendingConnect}
    (h : c.timeOutConnect env pc = .ok c') :
    env.job c.scheduled.length = .scheduled ∧ c' = { c.closeAll [pc.connId] with
      scheduled := c.scheduled ++
        [⟨.connectFailure pc.onFailure (.ofId pc.connId) "connection attempt timed out", false⟩]
      pendingConnects := c.pendingConnects.erase pc
      peers := c.peers.filter fun e => !e.1.eq (.ofId pc.connId) } := by
  obtain ⟨c₁, hjob, h⟩ := Except.bind_eq_ok.1 h
  obtain ⟨hreturns, rfl⟩ := job_ok.1 hjob
  obtain ⟨c₂, hclose, h⟩ := Except.bind_eq_ok.1 h
  cases h
  rw [proxyCloseConnection_ok hclose]
  exact ⟨hreturns, rfl⟩

theorem timeOutRequest_ok {env : Env} {e : Sigma fun _ : String => PendingRequest}
    (h : c.timeOutRequest env e = .ok c') :
    env.job c.scheduled.length = .scheduled ∧ c' = { c with
      scheduled := c.scheduled ++ [⟨.reply e.1 e.2.callback false ["TIMEOUT"], false⟩]
      pendingRequests := c.pendingRequests.erase e.1 } := by
  obtain ⟨c₁, hjob, h⟩ := Except.bind_eq_ok.1 h
  obtain ⟨hreturns, rfl⟩ := job_ok.1 hjob
  cases h
  exact ⟨hreturns, rfl⟩

/-- The cleanup closes what is idle, then gives up the attempts and at last the requests that have
run out of time. -/
theorem proxyConnCleanup_cases {closeLinger : ℤ} {env : Env}
    (h : c.proxyConnCleanup closeLinger env = .ok c') :
    ∃ c₁ c₂, c.proxyExpireIdlePeers closeLinger env.now = .ok c₁ ∧
      (c₁.pendingConnects.filter fun pc => decide (pc.deadline < env.now)).foldlM
        (timeOutConnect env) c₁ = .ok c₂ ∧
      (c₂.pendingRequests.entries.filter fun e => decide (e.2.deadline < env.now)).foldlM
        (timeOutRequest env) c₂ = .ok c' := by
  obtain ⟨c₁, h₁, h⟩ := Except.bind_eq_ok.1 h
  obtain ⟨c₂, h₂, h⟩ := Except.bind_eq_ok.1 h
  exact ⟨c₁, c₂, h₁, h₂, h⟩

/-- The records of a service node go, and the connections of ours among them are closed. -/
theorem removeSn_ok {closeLinger : ℤ} {pk : String} (h : c.removeSn closeLinger pk = .ok c') :
    pk.length = 32 ∧ c' = { c.closeAll (outgoingIds (c.equalRange ⟨snId, pk, ""⟩)) with
      activeServiceNodes := c.activeServiceNodes.filter (· ≠ pk)
      peers := c.peers.filter fun e => !e.1.eq ⟨snId, pk, ""⟩ } := by
  obtain ⟨cid, hcid, h⟩ := Except.bind_eq_ok.1 h
  obtain ⟨hlen, rfl⟩ := ConnectionID.ofPubkey_ok.1 hcid
  refine ⟨hlen, ?_⟩
  rw [foldlM_close_ok h]
  rfl

/-- The first connection of ours that is filed under the id is closed, and its record goes. -/
theorem proxyDisconnect_cases {conn : ConnectionID} {linger : ℤ}
    (h : c.proxyDisconnect conn linger = .ok c') :
    (∃ k peer, c.peers.find? (fun e => e.1.eq conn && e.2.outgoing) = some (k, peer) ∧
      c' = { c.closeAll [peer.connId] with
        peers := c.peers.eraseP fun e => e.1.eq conn && e.2.outgoing }) ∨ c' = c := by
  unfold proxyDisconnect at h
  dsimp only at h
  split at h
  · rename_i k peer hfind
    obtain ⟨c₁, hclose, h⟩ := Except.bind_eq_ok.1 h
    cases h
    rw [proxyCloseConnection_ok hclose]
    exact Or.inl ⟨k, peer, hfind, rfl⟩
  · cases h
    exact Or.inr rfl

theorem proxyDisconnectMessage_ok {conn : ConnectionID} {linger : ℤ}
    (h : c.proxyDisconnectMessage conn linger = .ok c') :
    c.proxyDisconnect conn linger = .ok c' := by
  unfold proxyDisconnectMessage at h
  split at h
  · cases h
  · exact h

/-! ## Messages that arrive -/

/-- The first part of a message, in the two ways of asking for it. -/
theorem head?_of_getD {parts : List String} {s : String} (h : parts.getD 0 "" = s) (hs : s ≠ "") :
    parts.head? = some s := by
  cases parts with
  | nil => exact absurd h.symm hs
  | cons first rest => exact congrArg some h

theorem handleReply_cases (c : Conn) (router : Bool) (parts : List String) :
    c.handleReply router parts = c ∨
    ∃ tag data, c.handleReply router parts = c.answerRequest tag true data := by
  unfold handleReply
  dsimp only
  split
  · exact Or.inl rfl
  · exact Or.inr ⟨_, _, rfl⟩

theorem handleErrorResponse_cases (c : Conn) (router : Bool) (cmd : String)
    (parts : List String) :
    c.handleErrorResponse router cmd parts = c ∨
    ∃ tag, c.handleErrorResponse router cmd parts = c.answerRequest tag false [cmd] := by
  unfold handleErrorResponse
  dsimp only
  split
  · exact Or.inr ⟨_, rfl⟩
  · exact Or.inl rfl

/-- A `HELLO` ends the attempt that waits for it, with the success callback. -/
theorem handleHello_cases (c : Conn) (connId : ℤ) :
    c.handleHello connId = c ∨
    ∃ pc conn p, c.pendingConnects.find? (fun pc => pc.connId == connId) = some pc ∧
      c.peers.find? (fun e => e.1.eq (.ofId pc.connId)) = some (conn, p) ∧
      c.handleHello connId = { c.proxyScheduleReplyJob (.connectSuccess pc.onConnect conn) with
        pendingConnects := c.pendingConnects.eraseP fun pc => pc.connId == connId } := by
  unfold handleHello
  split
  · exact Or.inl rfl
  · rename_i pc hpc
    split
    · exact Or.inl rfl
    · rename_i conn p hfind
      exact Or.inr ⟨pc, conn, p, hpc, hfind, rfl⟩

/-- The builtins: a reply or an error for a request, a `HELLO`, a `BYE`, or nothing the tables of
connections and requests show. -/
theorem proxyHandleBuiltin_cases {connId : ℤ} {router handled : Bool} {parts : List String}
    (h : c.proxyHandleBuiltin connId router parts = .ok (c', handled)) :
    handled = true ∧ (c' = c ∨ (∃ wire, c' = { c with wire := wire }) ∨
      (parts.getD router.toNat "" = "REPLY" ∧ router.toNat < parts.length ∧
        c' = c.handleReply router parts) ∨
      (router = false ∧ parts.getD 0 "" = "HELLO" ∧ c' = c.handleHello connId) ∨
      (router = false ∧ parts.getD 0 "" = "BYE" ∧ c' = c.closeAll [connId]) ∨
      (isErrorResponse (parts.getD router.toNat "") = true ∧
        c' = c.handleErrorResponse router (parts.getD router.toNat "") parts)) ∨
    handled = false ∧ c' = c := by
  unfold proxyHandleBuiltin at h
  dsimp only at h
  split at h
  · cases h
    exact Or.inl ⟨rfl, Or.inl rfl⟩
  rename_i hlen
  split at h
  · rename_i hcmd
    cases h
    exact Or.inl ⟨rfl, Or.inr (Or.inr (Or.inl ⟨hcmd, by omega, rfl⟩))⟩
  split at h
  · cases h
    split
    · exact Or.inl ⟨rfl, Or.inr (Or.inl ⟨_, rfl⟩)⟩
    · exact Or.inl ⟨rfl, Or.inl rfl⟩
  split at h
  · rename_i hcmd
    cases h
    cases router with
    | true => exact Or.inl ⟨rfl, Or.inl rfl⟩
    | false => exact Or.inl ⟨rfl, Or.inr (Or.inr (Or.inr (Or.inl ⟨rfl, hcmd, rfl⟩)))⟩
  split at h
  · rename_i hcmd
    cases router with
    | true =>
      cases h
      exact Or.inl ⟨rfl, Or.inl rfl⟩
    | false =>
      obtain ⟨c₁, hclose, h⟩ := Except.bind_eq_ok.1 h
      cases h
      have hclosed := proxyCloseConnection_ok hclose
      exact Or.inl ⟨rfl, Or.inr (Or.inr (Or.inr (Or.inr (Or.inl ⟨rfl, hcmd, hclosed⟩))))⟩
  split at h
  · rename_i herr
    cases h
    exact Or.inl ⟨rfl, Or.inr (Or.inr (Or.inr (Or.inr (Or.inr ⟨herr, rfl⟩))))⟩
  · cases h
    exact Or.inr ⟨rfl, rfl⟩

/-- A `BYE` on an outgoing connection closes it. -/
theorem proxyHandleBuiltin_bye {connId : ℤ} {handled : Bool} {rest : List String}
    (h : c.proxyHandleBuiltin connId false ("BYE" :: rest) = .ok (c', handled)) :
    c' = c.closeAll [connId] ∧ handled = true := by
  unfold proxyHandleBuiltin at h
  dsimp only at h
  rw [if_neg (by simp), if_neg (by simp), if_neg (by simp), if_neg (by simp), if_pos (by simp),
    if_neg Bool.false_ne_true] at h
  obtain ⟨c₁, hclose, h⟩ := Except.bind_eq_ok.1 h
  cases h
  exact ⟨proxyCloseConnection_ok hclose, rfl⟩

/-- A change to one `peers` entry that leaves its key, its number and its route alone. -/
def SameRef (c c' : Conn) : Prop :=
  ∃ (p : ConnectionID × PeerInfo → Bool) (f : PeerInfo → PeerInfo),
    (∀ q, (f q).connId = q.connId ∧ (f q).route = q.route) ∧
    c' = { c with peers := Multimap.modifyFirst p (fun e => (e.1, f e.2)) c.peers }

/-- The sender is looked up: nothing changes but its record, which is added if it is a service
node on a listening socket that has none. -/
theorem findPeer_cases {cfg : Config κ} {pos : ℕ} {connId : ℤ} {router : Bool} {m : Incoming}
    {found : Option (PeerInfo × String)}
    (h : findPeer cfg c pos connId router m = .ok (c', found)) :
    c' = c ∨ c.SameRef c' ∨
    (router = true ∧ ∃ (k : ConnectionID) (p : PeerInfo), k.sn = true ∧ p.connId = connId ∧
      p.route = m.parts.getD 0 "" ∧ c' = c.emplacePeer pos k p) := by
  unfold findPeer at h
  dsimp only at h
  split at h
  · rename_i hrouter
    split at h
    · obtain ⟨cid, hcid, h⟩ := Except.bind_eq_ok.1 h
      obtain ⟨_, rfl⟩ := ConnectionID.ofPubkey_ok.1 hcid
      split at h
      · cases h
        exact Or.inr (Or.inl ⟨_, fun p => { p with authLevel := _, serviceNode := true },
          fun _ => ⟨rfl, rfl⟩, rfl⟩)
      · cases h
        refine Or.inr (Or.inr ⟨hrouter, _, _, rfl, ?_, ?_, rfl⟩)
        · unfold incomingPeer
          dsimp only
          split
          · rfl
          · rfl
        · unfold incomingPeer
          dsimp only
          split
          · rfl
          · rfl
    · cases h
      exact Or.inl rfl
  · split at h
    · cases h
      exact Or.inl rfl
    · cases h
      refine Or.inr (Or.inl ⟨_, fun p => if p.pubkey = "" then p
        else { p with serviceNode := decide (p.pubkey ∈ c.activeServiceNodes) }, fun q => ?_, rfl⟩)
      dsimp only
      split
      · exact ⟨rfl, rfl⟩
      · exact ⟨rfl, rfl⟩

/-- What becomes of a command: at most a rejection is sent after its sender is looked up. -/
theorem arrival_cases {cfg : Config κ} {pos : ℕ} {connId : ℤ} {router : Bool} {m : Incoming}
    {arr : Option (Arrival κ)} (h : arrival cfg c pos connId router m = .ok (c', arr)) :
    ∃ c₁ found wire, findPeer cfg c pos connId router m = .ok (c₁, found) ∧
      c' = { c₁ with wire := wire } := by
  obtain ⟨⟨c₁, found⟩, h₁, h⟩ := Except.bind_eq_ok.1 h
  dsimp only at h
  split at h
  · cases h
    exact ⟨c', none, c'.wire, h₁, rfl⟩
  · split at h
    · cases h
      exact ⟨c₁, _, _, h₁, rfl⟩
    · cases h
      exact ⟨c', _, c'.wire, h₁, rfl⟩
    · cases h
      exact ⟨c', _, c'.wire, h₁, rfl⟩

/-- A message is handled as a builtin, or else its sender is looked up and its activity timer
perhaps refreshed. -/
theorem receive_cases {cfg : Config κ} {env : Env} {immediate : Bool} {connId : ℤ} {router : Bool}
    {m : Incoming} {arr : Option (Arrival κ)}
    (h : receive cfg c env immediate connId router m = .ok (c', arr)) :
    (c.proxyHandleBuiltin connId router m.parts = .ok (c', true) ∧ arr = none) ∨
    c.proxyHandleBuiltin connId router m.parts = .ok (c, false) ∧
    ∃ c₁, arrival cfg c env.pos connId router m = .ok (c₁, arr) ∧
      (c' = c₁ ∨ c' = c₁.pumpActivity env.now connId) := by
  obtain ⟨⟨c₀, handled⟩, hb, hrest⟩ := Except.bind_eq_ok.1 h
  dsimp only at hrest
  rcases proxyHandleBuiltin_cases hb with ⟨rfl, _⟩ | ⟨rfl, rfl⟩
  · cases hrest
    exact Or.inl ⟨hb, rfl⟩
  · refine Or.inr ⟨hb, ?_⟩
    rw [if_neg Bool.false_ne_true] at hrest
    obtain ⟨⟨c₁, arr'⟩, h₁, h⟩ := Except.bind_eq_ok.1 hrest
    dsimp only at h
    split at h
    · cases h
      exact ⟨c₁, h₁, Or.inr rfl⟩
    · cases h
      exact ⟨c', h₁, Or.inl rfl⟩

/-- A command that arrives is what its sender may invoke. -/
theorem arrival_of_receive {cfg : Config κ} {env : Env} {immediate : Bool} {connId : ℤ}
    {router : Bool} {m : Incoming} {a : Arrival κ}
    (h : receive cfg c env immediate connId router m = .ok (c', some a)) :
    ∃ c₁, arrival cfg c env.pos connId router m = .ok (c₁, some a) := by
  rcases receive_cases h with ⟨_, ⟨⟩⟩ | ⟨_, c₁, h₁, _⟩
  exact ⟨c₁, h₁⟩

/-- A command that is accepted comes from a peer that is known and may invoke it. -/
theorem arrival_some {cfg : Config κ} {pos : ℕ} {connId : ℤ} {router : Bool} {m : Incoming}
    {a : Arrival κ} (h : arrival cfg c pos connId router m = .ok (c', some a)) :
    ∃ peer route, findPeer cfg c pos connId router m = .ok (c', some (peer, route)) ∧
      cfg.rejection peer (some (a.cat, a.callback)) a.dataParts = none ∧
      a.access = ⟨peer.authLevel, peer.serviceNode, cfg.localServiceNode⟩ ∧
      a.conn = ⟨if peer.serviceNode then snId else connId, peer.pubkey, route⟩ := by
  obtain ⟨⟨c₁, found⟩, h₁, h⟩ := Except.bind_eq_ok.1 h
  dsimp only at h
  cases found with
  | none => cases h
  | some found =>
    obtain ⟨peer, route⟩ := found
    dsimp only at h
    split at h
    · cases h
    · rename_i hpass hcall
      cases h
      rw [hcall] at hpass
      exact ⟨peer, route, h₁, hpass, rfl, rfl⟩
    · cases h

end Conn

end OxenMQ
