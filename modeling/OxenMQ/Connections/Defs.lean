import Mathlib.Data.List.AList
import OxenMQ.Basic
import OxenMQ.Lib.Multimap

/-!
# The connection tables of the proxy thread

This file is the embedding of `connections.cpp`, of `proxy_send` and of the service node lists of
`auth.cpp`: the state `Conn` the proxy thread keeps about its connections, and the handlers that
change it on a control message or on the cleanup timer.  What happens to a message that *arrives*
on a connection is in `OxenMQ.Connections.Incoming`.

The tables are those of the source.  `connections` holds the sockets by number, both the listening
(`router`) and the outgoing (`dealer`) ones.  `peers` is the unordered multimap from connection ids
to what is known about the remote; `outgoingSnConns` finds the key under which an outgoing service
node connection is filed there.  A socket itself is opaque, so all that is left of it is its type,
with `Socket.null` for the default-constructed one `operator[]` makes, and a mark on an outgoing
socket that says whether `proxy_connect_sn` opened it (the handlers never read the mark).

What the outside decides is an argument, collected in an `Env`: what the clock says, what the
service node lookup returns, whether `zmq` accepts an address, how each attempt to send ends,
whether a call of `job()` returns, and where the multimap puts a new entry.  Log messages and socket
options other than the type and the linger time are left out.  Work handed to the worker pool is
appended to `scheduled`, and every message passed to a socket to `wire`; both are only ever written.

A handler that can throw, or not return at all, has its result in `Except Abort`.  This includes all
that close a connection, because closing one sets an option of its socket first, and all that call
`job()`.
-/

set_option autoImplicit false

namespace OxenMQ

/-! ## The tables -/

/-- A `zmq::socket_t`. -/
inductive Socket where
  /-- Default-constructed: no socket behind it. -/
  | null
  /-- A listening socket. -/
  | router
  /-- An outgoing socket; `sn` marks the ones opened by `proxy_connect_sn`. -/
  | dealer (sn : Bool)
  deriving DecidableEq, Repr

/-- Has the socket been opened? -/
def Socket.isOpen : Socket → Bool
  | .null => false
  | _ => true

/-- What is known about the remote end of a connection. -/
structure PeerInfo where
  pubkey : String := ""
  serviceNode : Bool := false
  authLevel : AuthLevel := .none
  connId : ℤ
  /-- The routing prefix, for an incoming connection. -/
  route : String := ""
  /-- A point in time, in nanoseconds. -/
  lastActivity : ℤ := 0
  /-- A number of milliseconds. -/
  idleExpiry : ℤ := 0
  deriving DecidableEq, Repr

/-- Outgoing connections are the ones without a route. -/
def PeerInfo.outgoing (p : PeerInfo) : Bool := p.route == ""

/-- The update `proxy_connect_sn` makes to an existing outgoing connection it reuses. -/
def PeerInfo.touch (now keepAlive : ℤ) (p : PeerInfo) : PeerInfo :=
  if p.outgoing then
    { p with idleExpiry := max p.idleExpiry keepAlive, lastActivity := now }
  else p

/-- Has an outgoing connection been idle for too long?  The comparison is one of nanoseconds. -/
def PeerInfo.idle (now : ℤ) (p : PeerInfo) : Bool :=
  p.outgoing && decide (nanoseconds p.idleExpiry < now - p.lastActivity)

/-- A remote that has not answered our `HI` yet. -/
structure PendingConnect where
  connId : ℤ
  /-- The point in time after which the attempt is given up. -/
  deadline : ℤ
  onConnect : Callback
  onFailure : Callback
  deriving DecidableEq, Repr

/-- A request that has been sent and not been answered. -/
structure PendingRequest where
  /-- The point in time after which nobody waits for the reply any more. -/
  deadline : ℤ
  callback : Callback
  deriving DecidableEq, Repr

/-- The body of a job the proxy hands to the worker pool: a callback with its arguments. -/
inductive Closure where
  /-- A request's callback; `tag` names the request and is not an argument of the callback. -/
  | reply (tag : String) (callback : Callback) (success : Bool) (data : List String)
  | connectSuccess (callback : Callback) (conn : ConnectionID)
  | connectFailure (callback : Callback) (conn : ConnectionID) (reason : String)
  /-- `none` stands for the null pointer of a full queue. -/
  | queueFailure (callback : Callback) (error : Option String)
  | queueFull (callback : Callback)
  deriving DecidableEq, Repr

/-- A scheduled job, and the way it was scheduled. -/
structure Scheduled where
  body : Closure
  /-- By `proxy_schedule_reply_job`, rather than by `job()`, which goes through the control
  socket. -/
  viaReply : Bool
  deriving DecidableEq, Repr

/-- An address we listen on. -/
structure BindData where
  address : String
  curve : Bool
  connId : ℤ
  allow : Callback
  deriving DecidableEq, Repr

/-- What the proxy thread knows about its connections. -/
structure Conn where
  peers : List (ConnectionID × PeerInfo) := []
  connections : AList (fun _ : ℤ => Socket) := ∅
  outgoingSnConns : AList (fun _ : ℤ => ConnectionID) := ∅
  nextConnId : ℤ := 1
  /-- Numbers drawn by `connect_remote` and `connect_inproc` whose `CONNECT_REMOTE` message has
  not been processed yet. -/
  allocated : List ℤ := []
  pendingConnects : List PendingConnect := []
  pendingRequests : AList (fun _ : String => PendingRequest) := ∅
  activeServiceNodes : List String := []
  bind : List BindData := []
  inprocListenerConnid : ℤ := 0
  connectionsUpdated : Bool := true
  proxySkipOnePoll : Bool := false
  scheduled : List Scheduled := []
  wire : List (ℤ × List String) := []

/-! ## What the outside decides -/

/-- How an attempt to pass a message to a socket ends. -/
inductive SendOutcome where
  | sent
  /-- The socket's queue is full. -/
  | full
  /-- An exception; `unreachable` when its number is `EHOSTUNREACH`. -/
  | error (unreachable : Bool) (what : String)
  deriving DecidableEq, Repr

/-- How a call of `job()` in the proxy thread ends. -/
inductive JobOutcome where
  | scheduled
  /-- `get_control_socket` throws, because the control socket of this thread cannot be made. -/
  | error (what : String)
  /-- The control socket is full, and only this thread reads from the other end. -/
  | blocked
  deriving DecidableEq, Repr

structure Env where
  /-- What `steady_clock` says, in nanoseconds. -/
  now : ℤ := 0
  /-- What `sn_lookup` returns, or the exception it throws. -/
  snLookup : Except String String := .ok ""
  /-- The error `zmq` raises when asked to connect, if any. -/
  connectError : Option String := none
  /-- How the attempts to send end, the first one being attempt `0`. -/
  send : ℕ → SendOutcome := fun _ => .sent
  /-- How the calls of `job()` end.  They go by the number of jobs scheduled before. -/
  job : ℕ → JobOutcome := fun _ => .scheduled
  /-- Where `peers` puts a new entry. -/
  pos : ℕ := 0

namespace Conn

/-! ## Access to the tables -/

/-- `peers.equal_range`. -/
def equalRange (c : Conn) (k : ConnectionID) : List (ConnectionID × PeerInfo) :=
  c.peers.filter fun e => e.1.eq k

/-- `peers.erase` of a key. -/
def erasePeers (c : Conn) (k : ConnectionID) : Conn :=
  { c with peers := c.peers.filter fun e => !e.1.eq k }

def emplacePeer (c : Conn) (pos : ℕ) (k : ConnectionID) (p : PeerInfo) : Conn :=
  { c with peers := Multimap.emplace pos (k, p) c.peers }

/-- `connections.emplace_hint`: an existing socket stays. -/
def emplaceConnection (c : Conn) (id : ℤ) (s : Socket) : Conn :=
  { c with
    connections := if id ∈ c.connections then c.connections else c.connections.insert id s
    connectionsUpdated := true }

/-- `connections[id]`, which makes a default-constructed socket when there is none. -/
def indexConnection (c : Conn) (id : ℤ) : Conn :=
  if id ∈ c.connections then c
  else { c with connections := c.connections.insert id .null }

/-- Schedule a job by sending it to our own control socket. -/
def job (c : Conn) (env : Env) (body : Closure) : Except Abort Conn :=
  match env.job c.scheduled.length with
  | .scheduled => return { c with scheduled := c.scheduled ++ [⟨body, false⟩] }
  | .error what => throw (.exception what)
  | .blocked => throw .blocked

def proxyScheduleReplyJob (c : Conn) (body : Closure) : Conn :=
  { c with scheduled := c.scheduled ++ [⟨body, true⟩], proxySkipOnePoll := true }

/-! ## Opening and closing connections -/

/-- The number of milliseconds that `proxy_close_connection` passes on, after a cast to `int`. -/
def lingerValue (linger : ℤ) : ℤ := if 0 < linger then linger.bmod (2 ^ 32) else 0

/-- `set` of the linger time.  There is nothing behind a default-constructed socket, and `zmq`
refuses numbers below `-1`. -/
def setLinger (s : Socket) (linger : ℤ) : Except Abort Unit :=
  if s = .null then throw (.exception "Socket operation on non-socket")
  else if lingerValue linger < -1 then throw (.exception "Invalid argument")
  else return ()

/-- Closes a connection.  The `peers` entries that refer to it are the caller's business. -/
def proxyCloseConnection (linger : ℤ) (c : Conn) (id : ℤ) : Except Abort Conn :=
  match c.connections.lookup id with
  | none => return c
  | some s => do
    setLinger s linger
    return { c with
      connections := c.connections.erase id
      connectionsUpdated := true
      outgoingSnConns := c.outgoingSnConns.erase id }

/-- Does `proxy_connect_sn` take this peer, given that it was asked for incoming or for outgoing
connections only? -/
def usablePeer (incomingOnly outgoingOnly : Bool) (p : PeerInfo) : Bool :=
  !(incomingOnly && p.outgoing) && !(outgoingOnly && !p.outgoing)

/-- The end of `proxy_connect_sn` when there is a connection: the entry `usable` finds first is the
one of `peer`. -/
def reuseSn (c : Conn) (now keepAlive : ℤ) (usable : ConnectionID × PeerInfo → Bool)
    (peer : PeerInfo) : Conn :=
  let touch := fun e : ConnectionID × PeerInfo => (e.1, e.2.touch now keepAlive)
  { c with peers := Multimap.modifyFirst usable touch c.peers }.indexConnection peer.connId

/-- The end of `proxy_connect_sn` when there is none, and a socket has been connected. -/
def openSn (c : Conn) (env : Env) (remoteCid : ConnectionID) (remote : String) (keepAlive : ℤ) :
    Conn :=
  let id := c.nextConnId
  let p : PeerInfo :=
    { serviceNode := true, pubkey := remote, connId := id, idleExpiry := keepAlive,
      lastActivity := env.now }
  let c := c.emplacePeer env.pos remoteCid p
  let c := { c with
    nextConnId := id + 1
    outgoingSnConns := c.outgoingSnConns.insert id remoteCid }
  c.emplaceConnection id (.dealer true)

/-- The address to connect to: the hint, or else what the lookup says. -/
def snAddress (env : Env) (hint : String) : Except Abort String :=
  if hint = "" then
    match env.snLookup with
    | .ok addr => return addr
    | .error what => throw (.exception what)
  else return hint

/-- Finds a connection to a service node or opens one.  Returns the number of the socket and the
route to use on it, or `none` when there is no connection and none is to be opened. -/
def proxyConnectSn (c : Conn) (env : Env) (remote hint : String)
    (isOptional incomingOnly outgoingOnly : Bool) (keepAlive : ℤ) :
    Except Abort (Conn × Option (ℤ × String)) := do
  let remoteCid ← ConnectionID.ofPubkey remote
  let usable := fun e : ConnectionID × PeerInfo =>
    e.1.eq remoteCid && usablePeer incomingOnly outgoingOnly e.2
  match c.peers.find? usable with
  | some (_, peer) =>
    return (c.reuseSn env.now keepAlive usable peer, some (peer.connId, peer.route))
  | none =>
    if isOptional || incomingOnly then return (c, none)
    let addr ← snAddress env hint
    if addr = "" then return (c, none)
    match env.connectError with
    | some _ => return (c, none)
    | none => return (c.openSn env remoteCid remote keepAlive, some (c.nextConnId, ""))

/-- What `proxy_connect_sn` decodes from a `CONNECT_SN` message. -/
structure ConnectSn where
  pubkey : String
  hint : String := ""
  isOptional : Bool := false
  incomingOnly : Bool := false
  outgoingOnly : Bool := false
  keepAlive : ℤ
  deriving DecidableEq, Repr

/-- `proxy_connect_sn` on a decoded message, whose result nobody looks at. -/
def proxyConnectSnMessage (c : Conn) (env : Env) (r : ConnectSn) : Except Abort Conn := do
  let (c, _) ← c.proxyConnectSn env r.pubkey r.hint r.isOptional r.incomingOnly r.outgoingOnly
    r.keepAlive
  return c

/-- What `proxy_connect_remote` decodes from its message. -/
structure ConnectRemote where
  authLevel : AuthLevel := .none
  connId : ℤ
  onConnect : Callback
  onFailure : Callback
  pubkey : String := ""
  remote : String
  timeout : ℤ := 10000
  deriving DecidableEq, Repr

/-- Ten years: the idle expiry of a connection that is kept until it is closed. -/
def forever : ℤ := 24 * 3600 * 1000 * 10 * 365

def proxyConnectRemote (c : Conn) (env : Env) (r : ConnectRemote) : Except Abort Conn :=
  if r.connId = -1 ∨ r.remote = "" then
    throw (.exception "Internal error: CONNECT_REMOTE proxy command missing required 'conn_id' and/or 'remote' value")
  else
    match env.connectError with
    | some what =>
      return c.proxyScheduleReplyJob
        (.connectFailure r.onFailure (.ofId r.connId) ("connect() failed: " ++ what))
    | none =>
      let c := c.emplaceConnection r.connId (.dealer false)
      let pc : PendingConnect := ⟨r.connId, timeAfter env.now r.timeout, r.onConnect, r.onFailure⟩
      let c := { c with
        wire := c.wire ++ [(r.connId, ["HI"])]
        pendingConnects := c.pendingConnects ++ [pc] }
      let p : PeerInfo :=
        { pubkey := r.pubkey, authLevel := r.authLevel, connId := r.connId,
          idleExpiry := forever, lastActivity := env.now }
      return c.emplacePeer env.pos ⟨r.connId, r.pubkey, ""⟩ p

/-- Closes the first outgoing connection filed under `conn`. -/
def proxyDisconnect (c : Conn) (conn : ConnectionID) (linger : ℤ) : Except Abort Conn :=
  let hit := fun e : ConnectionID × PeerInfo => e.1.eq conn && e.2.outgoing
  match c.peers.find? hit with
  | some (_, peer) => do
    let c ← c.proxyCloseConnection linger peer.connId
    return { c with peers := c.peers.eraseP hit }
  | none => return c

/-- `proxy_disconnect` on the connection id and the linger time decoded from a message. -/
def proxyDisconnectMessage (c : Conn) (conn : ConnectionID) (linger : ℤ) : Except Abort Conn :=
  if conn.sn ∧ conn.pk.length ≠ 32 then
    throw (.exception "Error: invalid disconnect of SN without a valid pubkey")
  else c.proxyDisconnect conn linger

/-- `proxy_bind`, with the outcome `good` of binding the address. -/
def proxyBind (c : Conn) (address : String) (curve : Bool) (allow : Callback) (good : Bool) :
    Conn :=
  if good then
    let id := c.nextConnId
    let b : BindData := ⟨address, curve, id, allow⟩
    { c with nextConnId := id + 1, bind := c.bind ++ [b] }.emplaceConnection id .router
  else c

/-! ## The cleanup timer -/

def proxyExpireIdlePeers (closeLinger : ℤ) (c : Conn) (now : ℤ) : Except Abort Conn := do
  let idle := c.peers.filter fun e => e.2.idle now
  let c ← idle.foldlM (fun c e => c.proxyCloseConnection closeLinger e.2.connId) c
  return { c with peers := c.peers.filter fun e => !e.2.idle now }

/-- One pending connection that has run out of time. -/
def timeOutConnect (env : Env) (c : Conn) (pc : PendingConnect) : Except Abort Conn := do
  let cid := ConnectionID.ofId pc.connId
  let c ← c.job env (.connectFailure pc.onFailure cid "connection attempt timed out")
  let c := { c with pendingConnects := c.pendingConnects.erase pc }
  let c ← c.proxyCloseConnection 0 pc.connId
  return c.erasePeers cid

/-- One pending request that has run out of time. -/
def timeOutRequest (env : Env) (c : Conn) (e : Sigma fun _ : String => PendingRequest) :
    Except Abort Conn := do
  let c ← c.job env (.reply e.1 e.2.callback false ["TIMEOUT"])
  return { c with pendingRequests := c.pendingRequests.erase e.1 }

def proxyConnCleanup (closeLinger : ℤ) (c : Conn) (env : Env) : Except Abort Conn := do
  let c ← c.proxyExpireIdlePeers closeLinger env.now
  let late := c.pendingConnects.filter fun pc => decide (pc.deadline < env.now)
  let c ← late.foldlM (timeOutConnect env) c
  let late := c.pendingRequests.entries.filter fun e => decide (e.2.deadline < env.now)
  late.foldlM (timeOutRequest env) c

/-! ## Service node lists -/

/-- One removed service node: its peers are dropped and our connections to it closed. -/
def removeSn (closeLinger : ℤ) (c : Conn) (pk : String) : Except Abort Conn := do
  let cid ← ConnectionID.ofPubkey pk
  let range := c.equalRange cid
  let c := { c with activeServiceNodes := c.activeServiceNodes.filter (· ≠ pk) }.erasePeers cid
  (range.filter fun e => e.2.outgoing).foldlM
    (fun c e => c.proxyCloseConnection closeLinger e.2.connId) c

/-- Drops the removed service nodes, then adds the new ones. -/
def proxyUpdateActiveSnsClean (closeLinger : ℤ) (c : Conn) (added removed : List String) :
    Except Abort Conn := do
  let c ← removed.foldlM (removeSn closeLinger) c
  let insert := fun (l : List String) pk => if pk ∈ l then l else l ++ [pk]
  return { c with activeServiceNodes := added.foldl insert c.activeServiceNodes }

/-- The scan of `proxy_set_active_sns` for the removed service nodes, which stops as soon as the
sizes agree. -/
def removedScan (active pubkeys added : List String) : List String → List String → List String
  | [], removed => removed
  | pk :: rest, removed =>
    let removed := if pk ∈ pubkeys then removed else removed ++ [pk]
    if active.length + added.length - removed.length = pubkeys.length then removed
    else removedScan active pubkeys added rest removed

def proxySetActiveSns (closeLinger : ℤ) (c : Conn) (pubkeys : List String) : Except Abort Conn :=
  let pubkeys := pubkeys.filter fun pk => pk.length = 32
  let added := pubkeys.filter fun pk => pk ∉ c.activeServiceNodes
  if added = [] ∧ c.activeServiceNodes.length = pubkeys.length then return c
  else
    let removed := removedScan c.activeServiceNodes pubkeys added c.activeServiceNodes []
    c.proxyUpdateActiveSnsClean closeLinger added removed

def proxyUpdateActiveSns (closeLinger : ℤ) (c : Conn) (added removed : List String) :
    Except Abort Conn :=
  let removed := removed.filter fun pk =>
    pk.length = 32 ∧ pk ∈ c.activeServiceNodes ∧ pk ∉ added
  let added := added.filter fun pk => pk.length = 32 ∧ pk ∉ c.activeServiceNodes
  c.proxyUpdateActiveSnsClean closeLinger added removed

/-! ## Sending -/

/-- The request part of a `SEND` message. -/
structure Request where
  tag : String
  callback : Callback
  timeout : ℤ := 15000
  deriving DecidableEq, Repr

/-- What `proxy_send` decodes from its message. -/
structure SendRequest where
  conn : ConnectionID
  hint : String := ""
  keepAlive : ℤ := 30000
  isOptional : Bool := false
  incoming : Bool := false
  outgoing : Bool := false
  request : Option Request := none
  /-- The message parts. -/
  send : List String
  sendFail : Option Callback := none
  sendFullQ : Option Callback := none
  deriving DecidableEq, Repr

/-- `build_send_parts`. -/
def buildSendParts (send : List String) (route : String) : List String :=
  if route = "" then send else route :: send

/-- How an attempt to send on the socket numbered `id` ends.  There is nothing behind a
default-constructed socket, and `zmq` refuses it. -/
def sendOn (c : Conn) (id : ℤ) (outcome : SendOutcome) : SendOutcome :=
  if c.connections.lookup id = some .null then
    .error false "Socket operation on non-socket"
  else outcome

/-- Which socket `proxy_send` tries next, with the destination completed by the route to use on
it.  `none` ends the attempts. -/
def sendTarget (c : Conn) (env : Env) (r : SendRequest) (conn : ConnectionID) :
    Except Abort (Conn × Option (ℤ × ConnectionID)) :=
  if conn.sn then do
    let (c, found) ←
      c.proxyConnectSn env conn.pk r.hint r.isOptional r.incoming r.outgoing r.keepAlive
    return (c, found.map fun s => (s.1, { conn with route := s.2 }))
  else if conn.route ≠ "" then
    return (c, if conn.id ∈ c.connections then some (conn.id, conn) else none)
  else
    match c.equalRange conn with
    | [] => return (c, none)
    | (_, peer) :: _ =>
      return (c, if peer.connId ∈ c.connections then some (peer.connId, conn) else none)

/-- What `proxy_send` does to `peers` when the destination turns out to be unreachable, and
whether to try again.  The scan for a service node's dead entry does not advance past an entry
with another route. -/
def dropUnreachable (c : Conn) (conn : ConnectionID) : Except Abort (Conn × Bool) :=
  match c.equalRange conn with
  | [] => return (c, false)
  | (_, peer) :: _ =>
    let c' := { c with peers := c.peers.eraseP fun e => e.1.eq conn }
    if conn.sn then
      if peer.route = conn.route then return (c', true) else throw .endless
    else return (c', false)

/-- The first half of the exception handler around the send.  Only an incoming connection is given
up. -/
def handleSendError (c : Conn) (unreachable : Bool) (conn : ConnectionID) :
    Except Abort (Conn × Bool) :=
  if unreachable && conn.route != "" then c.dropUnreachable conn else return (c, false)

/-- How a turn of the retry loop of `proxy_send` ends. -/
inductive Turn where
  /-- There is no connection to send the message on. -/
  | noSocket
  /-- The message has been passed to the socket `id`, to go to `route`. -/
  | sent (id : ℤ) (route : String)
  /-- `send` returns false: the queue of the socket is full. -/
  | full
  /-- `send` throws an exception, and the message is given up. -/
  | failed (what : String)
  /-- The connection on the socket `id` is dead, and there is another turn for `conn`. -/
  | again (id : ℤ) (conn : ConnectionID)
  deriving DecidableEq, Repr

/-- The variable `sent`. -/
def Turn.isSent : Turn → Bool
  | .sent _ _ => true
  | _ => false

/-- One turn of the retry loop. -/
def sendTurn (env : Env) (r : SendRequest) (attempt : ℕ) (conn : ConnectionID) (c : Conn) :
    Except Abort (Conn × Turn) := do
  let (c, target) ← c.sendTarget env r conn
  match target with
  | none => return (c, .noSocket)
  | some (id, conn) =>
    let c := { c with wire := c.wire ++ [(id, buildSendParts r.send conn.route)] }
    match c.sendOn id (env.send attempt) with
    | .sent => return (c, .sent id conn.route)
    | .full => return (c, .full)
    | .error unreachable what =>
      let (c, retry) ← c.handleSendError unreachable conn
      return (c, if retry then .again id conn else .failed what)

/-- The retry loop of `proxy_send`.  Returns how its last turn ends. -/
def sendLoop (env : Env) (r : SendRequest) :
    (fuel attempt : ℕ) → ConnectionID → Conn → Except Abort (Conn × Turn)
  | 0, _, _, _ => throw .endless
  | fuel + 1, attempt, conn, c => do
    let (c, turn) ← sendTurn env r attempt conn c
    match turn with
    | .again _ conn => sendLoop env r fuel (attempt + 1) conn c
    | _ => return (c, turn)

/-- The second half of the exception handler: the failure callback, if there is one, is used up. -/
def reportFailure (c : Conn) (env : Env) (callbackNosend : Option Callback) :
    Turn → Except Abort (Conn × Option Callback)
  | .failed what =>
    match callbackNosend with
    | some callback => do
      let c ← c.job env (.queueFailure callback (some what))
      return (c, none)
    | none => return (c, none)
  | _ => return (c, callbackNosend)

/-- What becomes of the request part of a `SEND` message once the message has been sent or not. -/
def recordRequest (c : Conn) (env : Env) (sent : Bool) : Option Request → Except Abort Conn
  | none => return c
  | some q =>
    if sent then
      -- `insert` keeps an entry that is there already
      if q.tag ∈ c.pendingRequests then return c
      else
        let entry : PendingRequest := ⟨timeAfter env.now q.timeout, q.callback⟩
        return { c with pendingRequests := c.pendingRequests.insert q.tag entry }
    else c.job env (.reply q.tag q.callback false ["TIMEOUT"])

/-- The callbacks of a message that was not sent. -/
def reportUnsent (c : Conn) (env : Env) (callbackNosend callbackNoqueue : Option Callback) :
    Except Abort Conn :=
  match callbackNosend, callbackNoqueue with
  | some callback, _ => c.job env (.queueFailure callback none)
  | none, some callback => c.job env (.queueFull callback)
  | none, none => return c

def proxySend (c : Conn) (env : Env) (r : SendRequest) : Except Abort Conn := do
  -- every attempt but the last removes a peer, so this is enough fuel
  let (c, turn) ← sendLoop env r (c.peers.length + 2) 0 r.conn c
  let (c, callbackNosend) ← c.reportFailure env r.sendFail turn
  let c ← c.recordRequest env turn.isSent r.request
  if turn.isSent then return c else c.reportUnsent env callbackNosend r.sendFullQ

end Conn

end OxenMQ
