import OxenMQ.Connections.Spec
import OxenMQ.Connections.System

/-!
# The changes the connection tables go through

Every event takes the tables through some of a score of elementary changes (`Conn.Change`), and
`Conn.step_changes` says so once and for all.  An invariant of the tables only has to be kept by
each kind of change (`Conn.run_changes`), and nobody has to look at the handlers again.  The changes
make no assumption about the tables, so they also cover what happens after a `BYE`.

* A change carries what its handler knows when it makes it, such as the length of a service node's
  pubkey or that there was no record of the same kind, and the event where an invariant needs it.
* A change may open a socket, and is marked with its number then.  An event is a sequence of changes
  that opens at most one (`Conn.Changes`).  For a message to a service node this takes an argument:
  `proxy_send` may look for a connection several times, but it tries again only after an incoming
  connection has failed, and a connection that it has opened is an outgoing one.
-/

set_option autoImplicit false

namespace OxenMQ

variable {κ : Type}

/-- Is this the callback of a connection attempt? -/
def Closure.isConnect : Closure → Bool
  | .connectSuccess _ _ => true
  | .connectFailure _ _ _ => true
  | _ => false

/-- Is this the callback of a request? -/
def Closure.isReply : Closure → Bool
  | .reply _ _ _ _ => true
  | _ => false

/-- Does this event change the list of service nodes? -/
def ConnEvent.updatesSns : ConnEvent → Bool
  | .setActiveSns _ => true
  | .updateActiveSns _ _ => true
  | _ => false

/-- When this event happens, if it reads the clock. -/
def ConnEvent.time : ConnEvent → Option ℤ
  | .connectRemote env _ => some env.now
  | .connectSn env _ => some env.now
  | .send env _ => some env.now
  | .message env _ _ _ _ => some env.now
  | .cleanup env => some env.now
  | _ => none

/-- The service node to which this event may open a connection. -/
def ConnEvent.snTarget : ConnEvent → Option String
  | .connectSn _ r => some r.pubkey
  | .send _ r => some r.conn.pk
  | _ => none

/-- For how long this event wants a connection to a service node to be kept, if it does. -/
def ConnEvent.keepAlive : ConnEvent → Option ℤ
  | .connectSn _ r => some r.keepAlive
  | .send _ r => some r.keepAlive
  | _ => none

/-- Can this event make a request, or end one? -/
def ConnEvent.onRequests : ConnEvent → Bool
  | .send _ _ => true
  | .message _ _ _ _ _ => true
  | .cleanup _ => true
  | _ => false

namespace Conn

variable {c c' c'' : Conn} {o : Option ℤ}

/-- `e'` is the record `e` of `peers`, brought up to date by the event `ev`. -/
structure Touched (cfg : Config κ) (c : Conn) (ev : ConnEvent) (e e' : ConnectionID × PeerInfo) :
    Prop where
  key : e'.1 = e.1
  connId : e'.2.connId = e.2.connId
  route : e'.2.route = e.2.route
  pubkey : e'.2.pubkey = e.2.pubkey
  /-- Nobody becomes a service node without a pubkey. -/
  serviceNode : e'.2.serviceNode = true →
    e.2.serviceNode = true ∨ e.1.sn = true ∨ e.2.pubkey ≠ ""
  lastActivity : e'.2.lastActivity = e.2.lastActivity ∨ ev.time = some e'.2.lastActivity
  /-- The level is what it was, or what a service node has shown with a message. -/
  authLevel : e'.2.authLevel = e.2.authLevel ∨ ∃ env immediate m,
    ev = .message env immediate e.2.connId true m ∧
    e.1.pk = (incomingPeer cfg c e.2.connId m).pubkey ∧
    e.2.route = (incomingPeer cfg c e.2.connId m).route ∧
    e'.2.authLevel = (incomingPeer cfg c e.2.connId m).authLevel
  /-- The timeout of a connection only gets longer, on the wish of the event. -/
  idleExpiry : e'.2.idleExpiry = e.2.idleExpiry ∨
    ∃ keepAlive, ev.keepAlive = some keepAlive ∧ e'.2.idleExpiry = max e.2.idleExpiry keepAlive

/-- One of the changes that the tables go through when `ev` happens.  The socket that is opened is
the one numbered `o`. -/
inductive Change (cfg : Config κ) (ev : ConnEvent) : (o : Option ℤ) → Conn → Conn → Prop
  | write (c : Conn) (wire : List (ℤ × List String)) : Change cfg ev none c { c with wire := wire }
  /-- A job that is not about a connection attempt or a request. -/
  | report (c : Conn) {body : Closure} (hconnect : body.isConnect = false)
      (hreply : body.isReply = false) :
      Change cfg ev none c { c with scheduled := c.scheduled ++ [⟨body, false⟩] }
  | record (c : Conn) (requests : AList fun _ : String => PendingRequest)
      (hev : ev.onRequests = true) : Change cfg ev none c { c with pendingRequests := requests }
  /-- The end of a request, with the job for its callback. -/
  | settle (c : Conn) (requests : AList fun _ : String => PendingRequest) {job : Scheduled}
      {skip : Bool} (hev : ev.onRequests = true) (hconnect : job.body.isConnect = false)
      (hskip : c.proxySkipOnePoll = true → skip = true) :
      Change cfg ev none c { c with
        pendingRequests := requests
        scheduled := c.scheduled ++ [job]
        proxySkipOnePoll := skip }
  | touch {c : Conn} {peers : List (ConnectionID × PeerInfo)}
      (h : List.Forall₂ (Touched cfg c ev) c.peers peers) :
      Change cfg ev none c { c with peers := peers }
  /-- Records go, and the connections of ours among them are closed. -/
  | drop {c : Conn} {gone kept : List (ConnectionID × PeerInfo)}
      (hperm : c.peers.Perm (gone ++ kept)) :
      Change cfg ev none c { c.closeAll (outgoingIds gone) with peers := kept }
  /-- The record goes of a connection to us that is dead. -/
  | dropDead {c : Conn} {e : ConnectionID × PeerInfo} {rest : List (ConnectionID × PeerInfo)}
      (hperm : c.peers.Perm (e :: rest))
      (hdead : e.1.sn = true ∧ e.2.outgoing = false ∨ e.1.sn = false ∧ e.1.route ≠ "") :
      Change cfg ev none c { c with peers := rest }
  /-- A connection is closed, and its record stays. -/
  | bye (c : Conn) {env : Env} {immediate : Bool} {id : ℤ} {m : Incoming}
      (hev : ev = .message env immediate id false m) (hm : m.parts.getD 0 "" = "BYE") :
      Change cfg ev none c (c.closeAll [id])
  /-- `connections[id]` for a service node whose socket is gone. -/
  | index {c : Conn} {e : ConnectionID × PeerInfo} (he : e ∈ c.peers) (hsn : e.1.sn = true)
      (hnot : e.2.connId ∉ c.connections) (hev : ev.snTarget = some e.1.pk) :
      Change cfg ev none c { c with connections := c.connections.insert e.2.connId .null }
  /-- A connection to a service node, of which there is no other record of this kind. -/
  | openSn {c : Conn} (env : Env) {pk : String} {keepAlive : ℤ} (hev : ev.snTarget = some pk)
      (htime : ev.time = some env.now) (hkeep : ev.keepAlive = some keepAlive)
      (hpk : pk.length = 32)
      (hnone : ∀ e ∈ c.peers, e.1.eq ⟨snId, pk, ""⟩ = true → e.2.outgoing = false) :
      Change cfg ev (some c.nextConnId) c (c.openSn env ⟨snId, pk, ""⟩ pk keepAlive)
  | allocate (c : Conn) (hev : ev = .allocate) :
      Change cfg ev none c { c with
        nextConnId := c.nextConnId + 1
        allocated := c.allocated ++ [c.nextConnId] }
  | connectFail (c : Conn) {env : Env} {r : ConnectRemote} (reason : String)
      (hev : ev = .connectRemote env r) (hid : r.connId ∈ c.allocated) :
      Change cfg ev none c { c with
        allocated := c.allocated.erase r.connId
        scheduled := c.scheduled ++ [⟨.connectFailure r.onFailure (.ofId r.connId) reason, true⟩]
        proxySkipOnePoll := true }
  | connectRemote (c : Conn) {env : Env} {r : ConnectRemote} (hev : ev = .connectRemote env r)
      (hid : r.connId ∈ c.allocated) :
      Change cfg ev (some r.connId) c (emplacePeer
        { c.emplaceConnection r.connId (.dealer false) with
          allocated := c.allocated.erase r.connId
          wire := c.wire ++ [(r.connId, ["HI"])]
          pendingConnects := c.pendingConnects ++
            [⟨r.connId, timeAfter env.now r.timeout, r.onConnect, r.onFailure⟩] }
        env.pos ⟨r.connId, r.pubkey, ""⟩
        { pubkey := r.pubkey, authLevel := r.authLevel, connId := r.connId,
          idleExpiry := forever, lastActivity := env.now })
  | bind (c : Conn) {address : String} {curve : Bool} {allow : Callback}
      (hev : ev = .bind address curve allow true) :
      Change cfg ev (some c.nextConnId) c (c.proxyBind address curve allow true)
  /-- A record for a service node on a listening socket, the first with this route. -/
  | addPeer {c : Conn} (pos : ℕ) {p : PeerInfo} {env : Env} {immediate : Bool} {m : Incoming}
      (hev : ev = .message env immediate p.connId true m) (hp : p = incomingPeer cfg c p.connId m)
      (hs : c.connections.lookup p.connId = some .router) (hroute : p.route ≠ "")
      (hpk : p.pubkey.length = 32)
      (hnew : ∀ e ∈ c.peers, e.1.eq ⟨snId, p.pubkey, ""⟩ = true → e.2.connId = p.connId →
        e.2.route ≠ p.route) :
      Change cfg ev none c (c.emplacePeer pos ⟨snId, p.pubkey, ""⟩ p)
  | hello {c : Conn} {env : Env} {immediate : Bool} {id : ℤ} {m : Incoming} {pc : PendingConnect}
      {e : ConnectionID × PeerInfo} (hev : ev = .message env immediate id false m)
      (hm : m.parts.getD 0 "" = "HELLO")
      (hpc : c.pendingConnects.find? (fun pc => pc.connId == id) = some pc)
      (hfind : c.peers.find? (fun e => e.1.eq (.ofId pc.connId)) = some e) :
      Change cfg ev none c { c with
        scheduled := c.scheduled ++ [⟨.connectSuccess pc.onConnect e.1, true⟩]
        proxySkipOnePoll := true
        pendingConnects := c.pendingConnects.eraseP fun pc => pc.connId == id }
  /-- A connection attempt is given up. -/
  | timeOut {c : Conn} {env : Env} {pc : PendingConnect} (hev : ev = .cleanup env)
      (hpc : pc ∈ c.pendingConnects) :
      Change cfg ev none c { c.closeAll [pc.connId] with
        scheduled := c.scheduled ++
          [⟨.connectFailure pc.onFailure (.ofId pc.connId) "connection attempt timed out", false⟩]
        pendingConnects := c.pendingConnects.erase pc
        peers := c.peers.filter fun e => !e.1.eq (.ofId pc.connId) }
  | active (c : Conn) (pubkeys : List String) (hev : ev.updatesSns = true) :
      Change cfg ev none c { c with activeServiceNodes := pubkeys }
  | flags (c : Conn) {updated skip : Bool} (hev : ev = .setFlags updated skip) :
      Change cfg ev none c { c with connectionsUpdated := updated, proxySkipOnePoll := skip }

/-- A sequence of changes that opens no socket but the one numbered `o`. -/
inductive Changes (cfg : Config κ) (ev : ConnEvent) : (o : Option ℤ) → Conn → Conn → Prop
  | refl (c : Conn) : Changes cfg ev none c c
  | tail {o : Option ℤ} {c c' c'' : Conn} (h : Changes cfg ev o c c')
      (hlast : Change cfg ev none c' c'') : Changes cfg ev o c c''
  | opened {id : ℤ} {c c' c'' : Conn} (h : Changes cfg ev none c c')
      (hlast : Change cfg ev (some id) c' c'') : Changes cfg ev (some id) c c''

variable {cfg : Config κ} {ev : ConnEvent}

namespace Changes

theorem single (h : Change cfg ev o c c') : Changes cfg ev o c c' := by
  cases o with
  | none => exact .tail (.refl c) h
  | some id => exact .opened (.refl c) h

/-- Nothing is opened before. -/
theorem trans (h : Changes cfg ev none c c') (h' : Changes cfg ev o c' c'') :
    Changes cfg ev o c c'' := by
  induction h' with
  | refl => exact h
  | tail _ hlast ih => exact (ih h).tail hlast
  | opened _ hlast ih => exact (ih h).opened hlast

/-- Nothing is opened afterwards. -/
theorem after (h : Changes cfg ev o c c') (h' : Changes cfg ev none c' c'') :
    Changes cfg ev o c c'' := by
  generalize hnone : (none : Option ℤ) = x at h'
  induction h' with
  | refl => exact h
  | tail _ hlast ih => exact (ih h hnone).tail hlast
  | opened => cases hnone

/-- What every change keeps, a sequence of them keeps. -/
theorem induction {P : Conn → Prop} (h : Changes cfg ev o c c')
    (hchange : ∀ o c c', P c → Change cfg ev o c c' → P c') (hc : P c) : P c' := by
  induction h with
  | refl => exact hc
  | tail _ hlast ih => exact hchange _ _ _ (ih hc) hlast
  | opened _ hlast ih => exact hchange _ _ _ (ih hc) hlast

end Changes

/-! ## Records -/

theorem Touched.refl (e : ConnectionID × PeerInfo) : Touched cfg c ev e e :=
  ⟨rfl, rfl, rfl, rfl, Or.inl, Or.inl rfl, Or.inl rfl, Or.inl rfl⟩

theorem Touched.outgoing {e e' : ConnectionID × PeerInfo} (h : Touched cfg c ev e e') :
    e'.2.outgoing = e.2.outgoing := by
  rw [PeerInfo.outgoing, h.route]
  rfl

theorem exists_touched {es es' : List (ConnectionID × PeerInfo)}
    (h : List.Forall₂ (Touched cfg c ev) es es') {e : ConnectionID × PeerInfo} (he : e ∈ es) :
    ∃ e' ∈ es', Touched cfg c ev e e' := by
  induction h with
  | nil => cases he
  | cons ht _ ih =>
    rcases List.mem_cons.1 he with rfl | he
    · exact ⟨_, List.mem_cons_self, ht⟩
    · obtain ⟨e', he', ht'⟩ := ih he
      exact ⟨e', List.mem_cons_of_mem _ he', ht'⟩

theorem exists_touched_of_mem {es es' : List (ConnectionID × PeerInfo)}
    (h : List.Forall₂ (Touched cfg c ev) es es') {e' : ConnectionID × PeerInfo} (he' : e' ∈ es') :
    ∃ e ∈ es, Touched cfg c ev e e' := by
  induction h with
  | nil => cases he'
  | cons ht _ ih =>
    rcases List.mem_cons.1 he' with rfl | he'
    · exact ⟨_, List.mem_cons_self, ht⟩
    · obtain ⟨e, he, ht'⟩ := ih he'
      exact ⟨e, List.mem_cons_of_mem _ he, ht'⟩

/-! ## Closing connections -/

theorem proxyDisconnect_changes {conn : ConnectionID} {linger : ℤ}
    (h : c.proxyDisconnect conn linger = .ok c') : Changes cfg ev none c c' := by
  rcases proxyDisconnect_cases h with ⟨k, peer, hfind, rfl⟩ | rfl
  · have hhit := List.find?_some hfind
    rw [Bool.and_eq_true] at hhit
    have hout : peer.outgoing = true := hhit.2
    have hids : outgoingIds [(k, peer)] = [peer.connId] := by simp [outgoingIds, hout]
    rw [← hids]
    exact .single (.drop (Multimap.perm_cons_eraseP hfind))
  · exact .refl c'

theorem removeSn_changes (hev : ev.updatesSns = true) {closeLinger : ℤ} {pk : String}
    (h : c.removeSn closeLinger pk = .ok c') : Changes cfg ev none c c' := by
  obtain ⟨_, rfl⟩ := removeSn_ok h
  have hperm := List.filter_append_perm (fun e => e.1.eq ⟨snId, pk, ""⟩) c.peers
  exact (Changes.single (.drop hperm.symm)).tail (.active _ _ hev)

theorem proxyUpdateActiveSnsClean_changes (hev : ev.updatesSns = true) {closeLinger : ℤ}
    {added removed : List String}
    (h : c.proxyUpdateActiveSnsClean closeLinger added removed = .ok c') :
    Changes cfg ev none c c' := by
  obtain ⟨c₁, h₁, h⟩ := Except.bind_eq_ok.1 h
  cases h
  have hremoved : Changes cfg ev none c c₁ :=
    Except.foldlM_induction (P := fun s => Changes cfg ev none c s)
      (fun _ _ _ hs h => hs.trans (removeSn_changes hev h)) (.refl c) h₁
  exact hremoved.tail (.active c₁ _ hev)

theorem proxySetActiveSns_changes (hev : ev.updatesSns = true) {closeLinger : ℤ}
    {pubkeys : List String} (h : c.proxySetActiveSns closeLinger pubkeys = .ok c') :
    Changes cfg ev none c c' := by
  unfold proxySetActiveSns at h
  dsimp only at h
  split at h
  · cases h
    exact .refl c
  · exact proxyUpdateActiveSnsClean_changes hev h

/-- The attempts that have run out of time are given up one by one.  They are attempts that are
still pending when it is their turn. -/
theorem foldlM_timeOutConnect_changes {env : Env} (hev : ev = .cleanup env)
    {late : List PendingConnect} (hlate : late.Subperm c.pendingConnects)
    (h : late.foldlM (timeOutConnect env) c = .ok c') : Changes cfg ev none c c' := by
  induction late generalizing c with
  | nil =>
    cases h
    exact .refl _
  | cons pc late ih =>
    obtain ⟨c₁, h₁, h⟩ := Except.bind_eq_ok.1 h
    obtain ⟨_, rfl⟩ := timeOutConnect_ok h₁
    have hrest := hlate.erase pc
    rw [List.erase_cons_head] at hrest
    exact .trans (.single (.timeOut hev (hlate.subset List.mem_cons_self))) (ih hrest h)

theorem foldlM_timeOutRequest_changes (hev : ev.onRequests = true) {env : Env}
    {late : List (Sigma fun _ : String => PendingRequest)}
    (h : late.foldlM (timeOutRequest env) c = .ok c') : Changes cfg ev none c c' := by
  refine Except.foldlM_induction (P := fun s => Changes cfg ev none c s) ?_ (.refl c) h
  intro s e s' hs he
  obtain ⟨_, rfl⟩ := timeOutRequest_ok he
  exact hs.tail (.settle s _ hev rfl id)

theorem proxyConnCleanup_changes {env : Env} (hev : ev = .cleanup env) {closeLinger : ℤ}
    (h : c.proxyConnCleanup closeLinger env = .ok c') : Changes cfg ev none c c' := by
  obtain ⟨c₁, c₂, hidle, hconnects, hrequests⟩ := proxyConnCleanup_cases h
  have hidle : Changes cfg ev none c c₁ := by
    rw [proxyExpireIdlePeers_ok hidle]
    exact .single (.drop (List.filter_append_perm _ c.peers).symm)
  have hconnects : Changes cfg ev none c₁ c₂ :=
    foldlM_timeOutConnect_changes hev List.filter_sublist.subperm hconnects
  have hrequests : Changes cfg ev none c₂ c' :=
    foldlM_timeOutRequest_changes (by rw [hev]; rfl) hrequests
  exact (hidle.trans hconnects).trans hrequests

/-! ## Opening connections, and sending -/

theorem touch_touched {now keepAlive : ℤ} (htime : ev.time = some now)
    (hkeep : ev.keepAlive = some keepAlive) (e : ConnectionID × PeerInfo) :
    Touched cfg c ev e (e.1, e.2.touch now keepAlive) := by
  unfold PeerInfo.touch
  split
  · exact ⟨rfl, rfl, rfl, rfl, Or.inl, Or.inr htime, Or.inl rfl, Or.inr ⟨keepAlive, hkeep, rfl⟩⟩
  · exact .refl e

/-- To reuse a connection brings its record up to date, and makes an empty socket if there is none.
-/
theorem reuseSn_changes {now keepAlive : ℤ} {usable : ConnectionID × PeerInfo → Bool}
    {e : ConnectionID × PeerInfo} (htime : ev.time = some now)
    (hkeep : ev.keepAlive = some keepAlive) (hev : ev.snTarget = some e.1.pk) (he : e ∈ c.peers)
    (hsn : e.1.sn = true) : Changes cfg ev none c (c.reuseSn now keepAlive usable e.2) := by
  have htouch : List.Forall₂ (Touched cfg c ev) c.peers (Multimap.modifyFirst usable
      (fun e => (e.1, e.2.touch now keepAlive)) c.peers) :=
    Multimap.forall₂_modifyFirst .refl fun e _ _ => touch_touched htime hkeep e
  have hfirst := Changes.single (Change.touch htouch)
  unfold reuseSn indexConnection
  dsimp only
  split
  · exact hfirst
  · rename_i hnot
    obtain ⟨e', he', ht⟩ := exists_touched htouch he
    have hindex : Change cfg ev none { c with peers := _ } _ :=
      .index he' (ht.key ▸ hsn) (ht.connId ▸ hnot) (ht.key ▸ hev)
    rw [ht.connId] at hindex
    exact hfirst.tail hindex

/-- A connection is opened only if there is no record of one, and then the message goes to the
remote without a route. -/
theorem proxyConnectSn_changes {env : Env} {remote hint : String}
    {isOptional incomingOnly outgoingOnly : Bool} {keepAlive : ℤ} {r : Option (ℤ × String)}
    (hev : ev.snTarget = some remote) (htime : ev.time = some env.now)
    (hkeep : ev.keepAlive = some keepAlive)
    (h : c.proxyConnectSn env remote hint isOptional incomingOnly outgoingOnly keepAlive =
      .ok (c', r)) :
    ∃ o, Changes cfg ev o c c' ∧ (o ≠ none → ∀ s ∈ r, s.2 = "") := by
  have hlen : remote.length = 32 := by
    obtain ⟨cid, hcid, _⟩ := Except.bind_eq_ok.1 h
    exact (ConnectionID.ofPubkey_ok.1 hcid).1
  rcases proxyConnectSn_ok h with ⟨e, hfind, rfl, _⟩ | ⟨_, rfl, _⟩ | ⟨hfind, _, hin, rfl, rfl⟩
  · have hhit := List.find?_some hfind
    rw [Bool.and_eq_true] at hhit
    obtain ⟨hsn, hpk⟩ := (ConnectionID.eq_sn_iff rfl).1 hhit.1
    have he := List.mem_of_find?_eq_some hfind
    exact ⟨none, reuseSn_changes htime hkeep (hpk ▸ hev) he hsn, absurd rfl⟩
  · exact ⟨none, .refl c', absurd rfl⟩
  · refine ⟨_, .single (.openSn env hev htime hkeep hlen fun e he hkey => ?_), fun _ s hs => ?_⟩
    · -- with no restriction to incoming connections an outgoing one would have been used
      have hnot := List.find?_eq_none.1 hfind e he
      rw [hkey, Bool.true_and, usablePeer, hin] at hnot
      rw [Bool.eq_false_iff]
      intro hout
      exact hnot (by simp [hout])
    · cases hs
      rfl

theorem sendTarget_changes {env : Env} {r : SendRequest} {conn : ConnectionID}
    {target : Option (ℤ × ConnectionID)} (hev : ev.snTarget = some conn.pk)
    (htime : ev.time = some env.now) (hkeep : ev.keepAlive = some r.keepAlive)
    (h : c.sendTarget env r conn = .ok (c', target)) :
    ∃ o, Changes cfg ev o c c' ∧ (o ≠ none → ∀ s ∈ target, s.2.route = "") := by
  unfold sendTarget at h
  split at h
  · obtain ⟨⟨c₁, s⟩, hs, h⟩ := Except.bind_eq_ok.1 h
    cases h
    obtain ⟨o, hchanges, hroute⟩ := proxyConnectSn_changes hev htime hkeep hs
    refine ⟨o, hchanges, fun ho t ht => ?_⟩
    obtain ⟨s', hs', rfl⟩ := Option.map_eq_some_iff.1 ht
    exact hroute ho s' hs'
  · split at h
    · cases h
      exact ⟨none, .refl c, absurd rfl⟩
    · split at h
      · cases h
        exact ⟨none, .refl c, absurd rfl⟩
      · cases h
        exact ⟨none, .refl c, absurd rfl⟩

/-- Only the record of a connection to us goes, and only then there is another turn. -/
theorem handleSendError_changes {unreachable retry : Bool} {conn : ConnectionID}
    (h : c.handleSendError unreachable conn = .ok (c', retry)) :
    Changes cfg ev none c c' ∧ (retry = true → conn.route ≠ "") := by
  unfold handleSendError at h
  split at h
  · rename_i hcond
    have hroute : conn.route ≠ "" := bne_iff_ne.1 (Bool.and_eq_true_iff.1 hcond).2
    refine ⟨?_, fun _ => hroute⟩
    rcases dropUnreachable_cases h with rfl | ⟨e, _, hkey, hsnRoute, rest, hperm, rfl⟩
    · exact .refl c'
    · refine .single (.dropDead hperm ?_)
      by_cases hsn : conn.sn = true
      · refine Or.inl ⟨((ConnectionID.eq_sn_iff hsn).1 hkey).1, ?_⟩
        rw [PeerInfo.outgoing, hsnRoute hsn]
        exact beq_false_of_ne hroute
      · have hfalse := Bool.eq_false_iff.2 hsn
        obtain ⟨hid, hroute'⟩ := (ConnectionID.eq_not_sn_iff hfalse).1 hkey
        refine Or.inr ⟨?_, hroute' ▸ hroute⟩
        rw [ConnectionID.sn, hid]
        exact hfalse
  · cases h
    exact ⟨.refl c, fun h => by cases h⟩

/-- A turn that leads to another one has opened no connection: what failed is an incoming one. -/
theorem sendTurn_changes {env : Env} {r : SendRequest} {n : ℕ} {conn : ConnectionID} {turn : Turn}
    (hev : ev.snTarget = some conn.pk) (htime : ev.time = some env.now)
    (hkeep : ev.keepAlive = some r.keepAlive) (h : sendTurn env r n conn c = .ok (c', turn)) :
    ∃ o, Changes cfg ev o c c' ∧
      ∀ id conn', turn = .again id conn' → o = none ∧ conn'.pk = conn.pk := by
  obtain ⟨c₁, target, htarget, hcases⟩ := sendTurn_cases h
  obtain ⟨o, hchanges, hroute⟩ : ∃ o, Changes cfg ev o c c₁ ∧ _ :=
    sendTarget_changes hev htime hkeep htarget
  rcases hcases with ⟨_, rfl, rfl⟩ | ⟨id, conn₁, rfl,
    ⟨rfl, hturn⟩ | ⟨_, what, retry, _, herror, rfl⟩⟩
  · exact ⟨o, hchanges, nofun⟩
  · refine ⟨o, hchanges.tail (.write c₁ _), fun id' conn' hagain => ?_⟩
    rcases hturn with rfl | rfl <;> cases hagain
  · obtain ⟨hdrop, hretry⟩ : Changes cfg ev none _ c' ∧ _ := handleSendError_changes herror
    refine ⟨o, (hchanges.tail (.write c₁ _)).after hdrop, fun id' conn' hagain => ?_⟩
    cases retry with
    | false => cases hagain
    | true =>
      cases hagain
      refine ⟨?_, (sendTarget_dest htarget).2⟩
      by_contra ho
      exact hretry rfl (hroute ho _ rfl)

theorem sendLoop_changes {env : Env} {r : SendRequest} {fuel n : ℕ} {conn : ConnectionID}
    {turn : Turn} (hev : ev.snTarget = some conn.pk) (htime : ev.time = some env.now)
    (hkeep : ev.keepAlive = some r.keepAlive)
    (h : sendLoop env r fuel n conn c = .ok (c', turn)) : ∃ o, Changes cfg ev o c c' := by
  refine sendLoop_rule (P := fun _ conn s => ev.snTarget = some conn.pk ∧ Changes cfg ev none c s)
    (Q := fun s _ => ∃ o, Changes cfg ev o c s) ?_ ?_ ⟨hev, .refl c⟩ h
  · rintro n conn s s' id conn' ⟨hev, hs⟩ hturn
    obtain ⟨o, hchanges, hagain⟩ := sendTurn_changes hev htime hkeep hturn
    obtain ⟨rfl, hpk⟩ := hagain id conn' rfl
    exact ⟨hpk ▸ hev, hs.trans hchanges⟩
  · rintro n conn s s' turn ⟨hev, hs⟩ hturn _
    obtain ⟨o, hchanges, _⟩ := sendTurn_changes hev htime hkeep hturn
    exact ⟨o, hs.trans hchanges⟩

theorem reportFailure_changes {env : Env} {callback nosend : Option Callback} {turn : Turn}
    (h : c.reportFailure env callback turn = .ok (c', nosend)) : Changes cfg ev none c c' := by
  unfold reportFailure at h
  split at h
  · split at h
    · obtain ⟨c₁, hjob, h⟩ := Except.bind_eq_ok.1 h
      obtain ⟨_, rfl⟩ := job_ok.1 hjob
      cases h
      exact .single (.report c rfl rfl)
    · cases h
      exact .refl c
  · cases h
    exact .refl c

theorem recordRequest_changes (hev : ev.onRequests = true) {env : Env} {sent : Bool}
    {q : Option Request} (h : c.recordRequest env sent q = .ok c') : Changes cfg ev none c c' := by
  unfold recordRequest at h
  split at h
  · cases h
    exact .refl c
  · split at h
    · split at h
      · cases h
        exact .refl c
      · cases h
        exact .single (.record c _ hev)
    · obtain ⟨_, rfl⟩ := job_ok.1 h
      exact .single (.settle c _ hev rfl id)

theorem reportUnsent_changes {env : Env} {nosend noqueue : Option Callback}
    (h : c.reportUnsent env nosend noqueue = .ok c') : Changes cfg ev none c c' := by
  unfold reportUnsent at h
  split at h
  · obtain ⟨_, rfl⟩ := job_ok.1 h
    exact .single (.report c rfl rfl)
  · obtain ⟨_, rfl⟩ := job_ok.1 h
    exact .single (.report c rfl rfl)
  · cases h
    exact .refl c

theorem proxySend_changes {env : Env} {r : SendRequest} (hev : ev = .send env r)
    (h : c.proxySend env r = .ok c') : ∃ o, Changes cfg ev o c c' := by
  obtain ⟨c₁, turn, c₂, nosend, c₃, hloop, hfailure, hrecord, hend⟩ := proxySend_cases h
  subst hev
  obtain ⟨o, hchanges⟩ : ∃ o, Changes cfg (.send env r) o c c₁ :=
    sendLoop_changes rfl rfl rfl hloop
  have h₃ : Changes cfg (.send env r) o c c₃ :=
    (hchanges.after (reportFailure_changes hfailure)).after (recordRequest_changes rfl hrecord)
  refine ⟨o, ?_⟩
  split at hend
  · rw [hend]
    exact h₃
  · exact h₃.after (reportUnsent_changes hend)

/-! ## Messages from the network -/

theorem answerRequest_changes (hev : ev.onRequests = true) (tag : String) (success : Bool)
    (data : List String) : Changes cfg ev none c (c.answerRequest tag success data) := by
  unfold answerRequest
  split
  · exact .single (.settle c _ hev rfl fun _ => rfl)
  · exact .refl c

theorem incomingPeer_connId (cfg : Config κ) (c : Conn) (connId : ℤ) (m : Incoming) :
    (incomingPeer cfg c connId m).connId = connId := by
  unfold incomingPeer
  dsimp only
  split <;> rfl

theorem incomingPeer_route (cfg : Config κ) (c : Conn) (connId : ℤ) (m : Incoming) :
    (incomingPeer cfg c connId m).route = m.parts.getD 0 "" := by
  unfold incomingPeer
  dsimp only
  split <;> rfl

/-- A message on a listening socket comes with a route. -/
theorem canReceive_router {s : Option Socket} {parts : List String}
    (h : canReceive s true parts = true) : s = some .router ∧ parts.getD 0 "" ≠ "" := by
  unfold canReceive at h
  split at h
  · refine ⟨rfl, ?_⟩
    cases parts with
    | nil => simp at h
    | cons route rest => simpa using h
  · simp at h
  · cases h

/-- `proxy_to_worker` brings the record of a service node on a listening socket up to date. -/
theorem forall₂_touched_known {env : Env} {immediate : Bool} {connId : ℤ} {m : Incoming}
    (hev : ev = .message env immediate connId true m) (es : List (ConnectionID × PeerInfo))
    {p : PeerInfo} (hp : p = incomingPeer cfg c connId m) :
    List.Forall₂ (Touched cfg c ev) es (Multimap.modifyFirst
      (fun e => e.1.eq ⟨snId, p.pubkey, ""⟩ && e.2.connId == p.connId && e.2.route == p.route)
      (fun e => (e.1, { e.2 with authLevel := p.authLevel, serviceNode := true })) es) := by
  have hid : p.connId = connId := hp ▸ incomingPeer_connId cfg c connId m
  refine Multimap.forall₂_modifyFirst .refl fun e _ hknown => ?_
  simp only [Bool.and_eq_true, beq_iff_eq] at hknown
  obtain ⟨⟨hkey, hconn⟩, hroute⟩ := hknown
  obtain ⟨hsn, hpk⟩ := (ConnectionID.eq_sn_iff rfl).1 hkey
  have hown : e.2.connId = connId := hconn.trans hid
  refine ⟨rfl, rfl, rfl, rfl, fun _ => Or.inr (Or.inl hsn), Or.inl rfl,
    Or.inr ⟨env, immediate, m, ?_⟩, Or.inl rfl⟩
  rw [hown, ← hp]
  exact ⟨hev, hpk, hroute, rfl⟩

/-- It looks up the status of a remote again that we have connected to. -/
theorem forall₂_touched_refresh (es : List (ConnectionID × PeerInfo)) (k : ConnectionID)
    (active : List String) :
    List.Forall₂ (Touched cfg c ev) es (Multimap.modifyFirst (fun e => e.1.eq k)
      (fun e => (e.1, if e.2.pubkey = "" then e.2
        else { e.2 with serviceNode := decide (e.2.pubkey ∈ active) })) es) := by
  refine Multimap.forall₂_modifyFirst .refl fun e _ _ => ?_
  split
  · exact .refl e
  · rename_i hpk
    exact ⟨rfl, rfl, rfl, rfl, fun _ => Or.inr (Or.inr hpk), Or.inl rfl, Or.inl rfl, Or.inl rfl⟩

/-- It may refresh the activity timer of the connection. -/
theorem pumpActivity_changes {now : ℤ} (htime : ev.time = some now) (connId : ℤ) :
    Changes cfg ev none c (c.pumpActivity now connId) :=
  .single (.touch (Multimap.forall₂_modifyFirst .refl fun _ _ _ =>
    ⟨rfl, rfl, rfl, rfl, Or.inl, Or.inr htime, Or.inl rfl, Or.inl rfl⟩))

theorem findPeer_changes {pos : ℕ} {env : Env} {immediate : Bool} {connId : ℤ} {router : Bool}
    {m : Incoming} {found : Option (PeerInfo × String)}
    (hev : ev = .message env immediate connId router m)
    (hreceive : canReceive (c.connections.lookup connId) router m.parts = true)
    (h : findPeer cfg c pos connId router m = .ok (c', found)) : Changes cfg ev none c c' := by
  unfold findPeer at h
  dsimp only at h
  split at h
  · rename_i hrouter
    subst hrouter
    split at h
    · obtain ⟨cid, hcid, h⟩ := Except.bind_eq_ok.1 h
      obtain ⟨hlen, rfl⟩ := ConnectionID.ofPubkey_ok.1 hcid
      split at h
      · cases h
        exact .single (.touch (forall₂_touched_known hev _ rfl))
      · rename_i hfind
        cases h
        obtain ⟨hsocket, hroute⟩ := canReceive_router hreceive
        have hid := incomingPeer_connId cfg c connId m
        refine .single (.addPeer pos (hid ▸ hev) ?_ ?_ ?_ hlen fun e he hkey hconn hsame => ?_)
        · rw [hid]
        · rwa [hid]
        · rwa [incomingPeer_route]
        · have hnot := List.find?_eq_none.1 hfind e he
          rw [hkey, hconn, hsame, beq_self_eq_true, beq_self_eq_true] at hnot
          exact hnot rfl
    · cases h
      exact .refl c
  · split at h
    · cases h
      exact .refl c
    · cases h
      exact .single (.touch (forall₂_touched_refresh ..))

theorem proxyHandleBuiltin_changes {env : Env} {immediate : Bool} {connId : ℤ}
    {router handled : Bool} {m : Incoming} (hev : ev = .message env immediate connId router m)
    (h : c.proxyHandleBuiltin connId router m.parts = .ok (c', handled)) :
    Changes cfg ev none c c' := by
  have hrequests : ev.onRequests = true := by
    rw [hev]
    rfl
  rcases proxyHandleBuiltin_cases h with ⟨_, hcases⟩ | ⟨_, rfl⟩
  · rcases hcases with rfl | ⟨wire, rfl⟩ | ⟨_, _, rfl⟩ | ⟨rfl, hm, rfl⟩ | ⟨rfl, hm, rfl⟩ | ⟨_, rfl⟩
    · exact .refl c'
    · exact .single (.write c wire)
    · rcases handleReply_cases c router m.parts with hsame | ⟨_, _, hanswer⟩
      · rw [hsame]
        exact .refl c
      · rw [hanswer]
        exact answerRequest_changes hrequests ..
    · rcases handleHello_cases c connId with hsame | ⟨pc, conn, p, hpc, hfind, hdone⟩
      · rw [hsame]
        exact .refl c
      · rw [hdone]
        exact .single (.hello hev hm hpc hfind)
    · exact .single (.bye c hev hm)
    · rcases handleErrorResponse_cases c router _ m.parts with hsame | ⟨_, hanswer⟩
      · rw [hsame]
        exact .refl c
      · rw [hanswer]
        exact answerRequest_changes hrequests ..
  · exact .refl c'

theorem receive_changes {env : Env} {immediate : Bool} {connId : ℤ}
    {router : Bool} {m : Incoming} {arr : Option (Arrival κ)}
    (hev : ev = .message env immediate connId router m)
    (hreceive : canReceive (c.connections.lookup connId) router m.parts = true)
    (h : receive cfg c env immediate connId router m = .ok (c', arr)) :
    Changes cfg ev none c c' := by
  rcases receive_cases h with ⟨hb, _⟩ | ⟨_, c₁, harr, hc'⟩
  · exact proxyHandleBuiltin_changes hev hb
  · obtain ⟨c₂, found, wire, hfind, rfl⟩ := arrival_cases harr
    have h₂ : Changes cfg ev none c { c₂ with wire := wire } :=
      (findPeer_changes hev hreceive hfind).tail (.write c₂ wire)
    rcases hc' with rfl | rfl
    · exact h₂
    · have htime : ev.time = some env.now := by
        rw [hev]
        rfl
      exact h₂.trans (pumpActivity_changes htime connId)

/-- **Every event is some of the changes, and opens at most one socket.** -/
theorem step_changes {e : ConnEvent} (h : step cfg c e = some c') :
    ∃ o, Changes cfg e o c c' := by
  cases e with
  | allocate =>
    cases h
    exact ⟨_, .single (.allocate c rfl)⟩
  | connectRemote env r =>
    rw [step] at h
    split at h
    · rename_i hid
      rcases proxyConnectRemote_cases (Except.toOption_eq_some.1 h) with ⟨what, _, rfl⟩ | ⟨_, rfl⟩
      · exact ⟨_, .single (.connectFail c _ rfl hid)⟩
      · exact ⟨_, .single (.connectRemote c rfl hid)⟩
    · cases h
  | connectSn env r =>
    obtain ⟨s, hs⟩ := proxyConnectSnMessage_cases (Except.toOption_eq_some.1 h)
    obtain ⟨o, hchanges, _⟩ : ∃ o, Changes cfg (.connectSn env r) o c c' ∧ _ :=
      proxyConnectSn_changes rfl rfl rfl hs
    exact ⟨o, hchanges⟩
  | send env r => exact proxySend_changes rfl (Except.toOption_eq_some.1 h)
  | disconnect conn linger =>
    exact ⟨_, proxyDisconnect_changes (proxyDisconnectMessage_ok (Except.toOption_eq_some.1 h))⟩
  | setActiveSns pubkeys =>
    rw [step] at h
    split at h
    · exact ⟨_, proxySetActiveSns_changes rfl (Except.toOption_eq_some.1 h)⟩
    · cases h
  | updateActiveSns added removed =>
    rw [step] at h
    split at h
    · exact ⟨_, proxyUpdateActiveSnsClean_changes rfl (Except.toOption_eq_some.1 h)⟩
    · cases h
  | bind address curve allow good =>
    cases h
    cases good with
    | true => exact ⟨_, .single (.bind c rfl)⟩
    | false => exact ⟨_, .refl c⟩
  | message env immediate connId router m =>
    rw [step] at h
    split at h
    · rename_i hreceive
      obtain ⟨⟨c₁, arr⟩, hok, rfl⟩ := Option.map_eq_some_iff.1 h
      exact ⟨_, receive_changes rfl hreceive (Except.toOption_eq_some.1 hok)⟩
    · cases h
  | cleanup env => exact ⟨_, proxyConnCleanup_changes rfl (Except.toOption_eq_some.1 h)⟩
  | setFlags updated skip =>
    cases h
    exact ⟨_, .single (.flags c rfl)⟩

/-! ## What an event leaves alone -/

/-- The list of service nodes only changes with an update, a message for a service node does not
touch the numbers that are still to be used, and the in-process listener is there to stay. -/
theorem Change.frame (h : Change cfg ev o c c') :
    (ev.updatesSns = false → c'.activeServiceNodes = c.activeServiceNodes) ∧
    (ev.snTarget ≠ none → c'.allocated = c.allocated) ∧
    c'.inprocListenerConnid = c.inprocListenerConnid := by
  cases h with
  | write | report | record | settle | touch | drop | dropDead | bye | index | openSn | bind
  | addPeer | hello | timeOut | flags => exact ⟨fun _ => rfl, fun _ => rfl, rfl⟩
  | allocate | connectFail | connectRemote =>
    subst ev
    exact ⟨fun _ => rfl, fun hne => absurd rfl hne, rfl⟩
  | active _ pubkeys hev =>
    exact ⟨fun hev' => absurd (hev.symm.trans hev') (by decide), fun _ => rfl, rfl⟩

/-- A record that an event adds: of a connection to a service node, of one to another remote, or of
a service node that has connected to us. -/
inductive Added (cfg : Config κ) (ev : ConnEvent) (c : Conn) : ConnectionID × PeerInfo → Prop
  | sn {env : Env} {pk : String} {keepAlive : ℤ} (id : ℤ) (hev : ev.snTarget = some pk)
      (htime : ev.time = some env.now) (hkeep : ev.keepAlive = some keepAlive) :
      Added cfg ev c (⟨snId, pk, ""⟩,
        { serviceNode := true, pubkey := pk, connId := id, idleExpiry := keepAlive,
          lastActivity := env.now })
  | remote {env : Env} {r : ConnectRemote} (hev : ev = .connectRemote env r) :
      Added cfg ev c (⟨r.connId, r.pubkey, ""⟩,
        { pubkey := r.pubkey, authLevel := r.authLevel, connId := r.connId,
          idleExpiry := forever, lastActivity := env.now })
  | incoming {env : Env} {immediate : Bool} {m : Incoming} {p : PeerInfo}
      (hev : ev = .message env immediate p.connId true m) (hp : p = incomingPeer cfg c p.connId m)
      (hroute : p.route ≠ "") : Added cfg ev c (⟨snId, p.pubkey, ""⟩, p)

/-- **Where the records come from.** -/
theorem Change.mem_peers (h : Change cfg ev o c c') {e' : ConnectionID × PeerInfo}
    (he' : e' ∈ c'.peers) : (∃ e ∈ c.peers, Touched cfg c ev e e') ∨ Added cfg ev c e' := by
  have hold : e' ∈ c.peers → (∃ e ∈ c.peers, Touched cfg c ev e e') ∨ Added cfg ev c e' :=
    fun he => Or.inl ⟨e', he, .refl e'⟩
  cases h with
  | write | report | record | settle | bye | index | allocate | connectFail | bind | hello | active
  | flags => exact hold he'
  | touch ht => exact Or.inl (exists_touched_of_mem ht he')
  | drop hperm => exact hold (hperm.symm.subset (List.mem_append_right _ he'))
  | dropDead hperm => exact hold (hperm.symm.subset (List.mem_cons_of_mem _ he'))
  | timeOut => exact hold (List.mem_filter.1 he').1
  | openSn env hev htime hkeep =>
    rcases Multimap.mem_emplace.1 he' with rfl | he
    · exact Or.inr (.sn _ hev htime hkeep)
    · exact hold he
  | connectRemote _ hev =>
    rcases Multimap.mem_emplace.1 he' with rfl | he
    · exact Or.inr (.remote hev)
    · exact hold he
  | addPeer pos hev hp hs hroute =>
    rcases Multimap.mem_emplace.1 he' with rfl | he
    · exact Or.inr (.incoming hev hp hroute)
    · exact hold he

/-- **The invariant rule.**  What every kind of change keeps holds after every run. -/
theorem run_changes {P : Conn → Prop} {es : List ConnEvent}
    (hchange : ∀ ev ∈ es, ∀ (o : Option ℤ) (c c' : Conn), P c → Change cfg ev o c c' → P c')
    (hc : P c) (h : Transition.run (step cfg) c es = some c') : P c' := by
  induction es generalizing c with
  | nil => cases h; exact hc
  | cons e es ih =>
    obtain ⟨c₁, he, h⟩ := Transition.run_cons_eq_some.1 h
    obtain ⟨o, hchanges⟩ := step_changes he
    have hc₁ : P c₁ := hchanges.induction (hchange e List.mem_cons_self) hc
    exact ih (fun ev hev => hchange ev (List.mem_cons_of_mem e hev)) hc₁ h

end Conn

end OxenMQ
