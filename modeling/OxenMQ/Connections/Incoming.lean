import OxenMQ.Connections.Defs

/-!
# Messages that arrive on a connection

`proxy_handle_builtin` and the first half of `proxy_to_worker`: which messages the proxy answers
itself, whose message the others are, which command they name, and whether the sender may invoke
it.  What comes out is an `Arrival`, everything a worker will be told about the message; handing
it to a worker, or queueing it, is `OxenMQ.Workers.Defs`.

The registered categories and commands are fixed before the proxy thread starts, so they are
parameters (`Config`), with a category represented by a name of an arbitrary type `κ`, the pointer
`category*` of the source.  The only foreign code involved is the hex decoder.
-/

set_option autoImplicit false

namespace OxenMQ

/-! ## What is fixed before the proxy starts -/

/-- A registered command: the callback, and whether it is a request command. -/
structure Command where
  callback : Callback
  isRequest : Bool
  deriving DecidableEq, Repr

structure Config (κ : Type) where
  pubkey : String
  localServiceNode : Bool
  /-- `categories.find`. -/
  categories : String → Option κ
  access : κ → Access
  /-- The `commands` map of a category. -/
  commands : κ → String → Option Command
  commandAliases : String → Option String
  /-- `oxenc::from_hex`. -/
  fromHex : String → String
  /-- `CLOSE_LINGER`, in milliseconds. -/
  closeLinger : ℤ := 5000

/-- A multipart message with the properties `zmq` attaches to it. -/
structure Incoming where
  parts : List String
  /-- The `User-Id` property. -/
  userId : Option String := none
  /-- The `X-AuthLevel` property. -/
  xAuthLevel : Option String := none
  /-- The `Peer-Address` property. -/
  peerAddress : Option String := none
  deriving DecidableEq, Repr

/-- `get_peer_address`. -/
def Incoming.getPeerAddress (m : Incoming) : String := m.peerAddress.getD "(unknown)"

/-- What a worker is told about a message that invokes a command. -/
structure Arrival (κ : Type) where
  cat : κ
  command : String
  dataParts : List String
  callback : Command
  conn : ConnectionID
  access : Access
  remote : String
  deriving DecidableEq

variable {κ : Type}

namespace Config

def maxCategoryLength : ℕ := 50

def maxCommandLength : ℕ := 200

/-- The part of a command name before the first dot, and the part after it. -/
def splitCommand (command : String) : String × String :=
  let (cat, rest) := command.toList.span (· ≠ '.')
  (String.ofList cat, String.ofList (rest.drop 1))

/-- `get_command`, which also rewrites the name when it is an alias. -/
def getCommand (cfg : Config κ) (command : String) : String × Option (κ × Command) :=
  if command.length > maxCategoryLength + 1 + maxCommandLength then (command, none)
  else
    let command := (cfg.commandAliases command).getD command
    if '.' ∉ command.toList ∨ command.toList.head? = some '.' then (command, none)
    else
      let (catname, cmd) := splitCommand command
      match cfg.categories catname with
      | none => (command, none)
      | some cat => (command, (cfg.commands cat cmd).map fun callback => (cat, callback))

/-- `extract_metadata`: the pubkey and the authentication level of the sender, as they were
attached to its connection when it was authenticated. -/
def extractMetadata (cfg : Config κ) (m : Incoming) : String × AuthLevel :=
  (match m.userId with
    | some hex => if hex.length = 64 then cfg.fromHex hex else ""
    | none => "",
   match m.xAuthLevel with
    | some level => authFromString level
    | none => .none)

/-- `proxy_check_auth`: the code of the rejection, if the peer may not invoke the command. -/
def rejection (cfg : Config κ) (peer : PeerInfo) (catCall : Option (κ × Command))
    (data : List String) : Option String :=
  match catCall with
  | none => some "UNKNOWNCOMMAND"
  | some (cat, callback) =>
    if peer.authLevel.toNat < (cfg.access cat).auth.toNat then some "FORBIDDEN"
    else if (cfg.access cat).localSn && !cfg.localServiceNode then some "NOT_A_SERVICE_NODE"
    else if (cfg.access cat).remoteSn && !peer.serviceNode then some "FORBIDDEN_SN"
    else if callback.isRequest && data.isEmpty then some "NO_REPLY_TAG"
    else none

end Config

/-- `is_error_response`. -/
def isErrorResponse (cmd : String) : Bool :=
  cmd == "FORBIDDEN" || cmd == "FORBIDDEN_SN" || cmd == "NOT_A_SERVICE_NODE" ||
    cmd == "UNKNOWNCOMMAND" || cmd == "NO_REPLY_TAG"

namespace Conn

/-! ## Builtins

`router` says whether the message came in on a listening socket, in which case its first part is
the route of the sender.  The source uses it both as a flag and as an offset. -/

/-- Hand the callback of a request over to the pool with its arguments, if the request is still
pending.  This is what a `REPLY` and a tagged error have in common. -/
def answerRequest (c : Conn) (tag : String) (success : Bool) (data : List String) : Conn :=
  match c.pendingRequests.lookup tag with
  | some r =>
    let c := c.proxyScheduleReplyJob (.reply tag r.callback success data)
    { c with pendingRequests := c.pendingRequests.erase tag }
  | none => c

/-- A `REPLY`: pass the parts after the tag to the callback of the request. -/
def handleReply (c : Conn) (router : Bool) (parts : List String) : Conn :=
  let tagPos := 1 + router.toNat
  if parts.length ≤ tagPos then c
  else c.answerRequest (parts.getD tagPos "") true (parts.drop (tagPos + 1))

/-- A `HELLO`: the remote has answered our `HI`. -/
def handleHello (c : Conn) (connId : ℤ) : Conn :=
  match c.pendingConnects.find? fun pc => pc.connId == connId with
  | none => c
  | some pc =>
    match c.peers.find? fun e => e.1.eq (.ofId pc.connId) with
    | none => c
    | some (conn, _) =>
      let c := c.proxyScheduleReplyJob (.connectSuccess pc.onConnect conn)
      { c with pendingConnects := c.pendingConnects.eraseP fun pc => pc.connId == connId }

/-- One of the error codes.  Only the tagged form concerns a request. -/
def handleErrorResponse (c : Conn) (router : Bool) (cmd : String) (parts : List String) : Conn :=
  let incoming := router.toNat
  if parts.length = 3 + incoming ∧ parts.getD (1 + incoming) "" = "REPLY" then
    c.answerRequest (parts.getD (2 + incoming) "") false [cmd]
  else c

/-- Returns whether the message was one of the builtins, even if it is rejected. -/
def proxyHandleBuiltin (c : Conn) (connId : ℤ) (router : Bool) (parts : List String) :
    Except Abort (Conn × Bool) :=
  let incoming := router.toNat
  if parts.length < 1 + incoming then return (c, true)
  else
    let route := parts.getD 0 ""
    let cmd := parts.getD incoming ""
    if cmd = "REPLY" then return (c.handleReply router parts, true)
    else if cmd = "HI" then
      return (if router then { c with wire := c.wire ++ [(connId, [route, "HELLO"])] } else c, true)
    else if cmd = "HELLO" then return (if router then c else c.handleHello connId, true)
    else if cmd = "BYE" then
      if router then return (c, true)
      else do
        let c ← c.proxyCloseConnection 0 connId
        return (c, true)
    else if isErrorResponse cmd then return (c.handleErrorResponse router cmd parts, true)
    else return (c, false)

/-! ## Commands -/

/-- The temporary peer of a message on a listening socket. -/
def incomingPeer (cfg : Config κ) (c : Conn) (connId : ℤ) (m : Incoming) : PeerInfo :=
  let route := m.parts.getD 0 ""
  if connId = c.inprocListenerConnid then
    { connId := connId, route := route, authLevel := .admin, pubkey := cfg.pubkey,
      serviceNode := cfg.pubkey ∈ c.activeServiceNodes }
  else
    let (pubkey, authLevel) := cfg.extractMetadata m
    { connId := connId, route := route, authLevel := authLevel, pubkey := pubkey,
      serviceNode := decide (pubkey.length = 32) && decide (pubkey ∈ c.activeServiceNodes) }

/-- Whose message is it?  Returns the peer, the route `tmp_peer` is left with, and the tables with
the peer's record added or brought up to date.  The route of a new record is moved out of
`tmp_peer`.  `none` when there is no record of an outgoing connection. -/
def findPeer (cfg : Config κ) (c : Conn) (pos : ℕ) (connId : ℤ) (router : Bool) (m : Incoming) :
    Except Abort (Conn × Option (PeerInfo × String)) :=
  if router then
    let tmp := incomingPeer cfg c connId m
    if tmp.serviceNode then do
      let cid ← ConnectionID.ofPubkey tmp.pubkey
      let known := fun e : ConnectionID × PeerInfo =>
        e.1.eq cid && e.2.connId == tmp.connId && e.2.route == tmp.route
      let update := fun p : PeerInfo => { p with authLevel := tmp.authLevel, serviceNode := true }
      match c.peers.find? known with
      | some (_, peer) =>
        let peers := Multimap.modifyFirst known (fun e => (e.1, update e.2)) c.peers
        return ({ c with peers := peers }, some (update peer, tmp.route))
      | none => return (c.emplacePeer pos cid tmp, some (tmp, ""))
    else return (c, some (tmp, tmp.route))
  else
    let k := (c.outgoingSnConns.lookup connId).getD (.ofId connId)
    let found := fun e : ConnectionID × PeerInfo => e.1.eq k
    -- the remote's status is looked up again, in case we connected to what is now a service node
    let update := fun p : PeerInfo =>
      if p.pubkey = "" then p
      else { p with serviceNode := decide (p.pubkey ∈ c.activeServiceNodes) }
    match c.peers.find? found with
    | none => return (c, none)
    | some (_, peer) =>
      let peers := Multimap.modifyFirst found (fun e => (e.1, update e.2)) c.peers
      return ({ c with peers := peers }, some (update peer, ""))

/-- The frames of a rejection. -/
def rejectionParts (peer : PeerInfo) (router : Bool) (code cmd : String)
    (catCall : Option (κ × Command)) (data : List String) : List String :=
  let body :=
    match catCall, data with
    | some (_, callback), tag :: _ =>
      if callback.isRequest then [code, "REPLY", tag] else [code, cmd]
    | _, _ => [code, cmd]
  if router then peer.route :: body else body

/-- Refreshes the activity timer of the outgoing connection a command came in on. -/
def pumpActivity (c : Conn) (now : ℤ) (connId : ℤ) : Conn :=
  let k := (c.outgoingSnConns.lookup connId).getD (.ofId connId)
  let found := fun e : ConnectionID × PeerInfo => e.1.eq k
  let pump := fun e : ConnectionID × PeerInfo => (e.1, { e.2 with lastActivity := now })
  { c with peers := Multimap.modifyFirst found pump c.peers }

/-- The part of `proxy_to_worker` before the choice of a worker.  Returns what a worker is to be
told, if the sender is known and may invoke the command. -/
def arrival (cfg : Config κ) (c : Conn) (pos : ℕ) (connId : ℤ) (router : Bool) (m : Incoming) :
    Except Abort (Conn × Option (Arrival κ)) := do
  let (c, found) ← findPeer cfg c pos connId router m
  match found with
  | none => return (c, none)
  | some (peer, route) =>
    let cmd := m.parts.getD router.toNat ""
    let dataParts := m.parts.drop (router.toNat + 1)
    let (command, catCall) := cfg.getCommand cmd
    match cfg.rejection peer catCall dataParts, catCall with
    | some code, _ =>
      let frames := rejectionParts peer router code cmd catCall dataParts
      return ({ c with wire := c.wire ++ [(connId, frames)] }, none)
    | none, some (cat, callback) =>
      let access : Access := ⟨peer.authLevel, peer.serviceNode, cfg.localServiceNode⟩
      let conn : ConnectionID := ⟨if peer.serviceNode then snId else connId, peer.pubkey, route⟩
      return (c, some ⟨cat, command, dataParts, callback, conn, access, m.getPeerAddress⟩)
    | none, none => return (c, none)

/-- A message that arrives on the connection `connId`.  `immediate` says whether a command is
dispatched at once, which is what refreshes the activity timer. -/
def receive (cfg : Config κ) (c : Conn) (env : Env) (immediate : Bool) (connId : ℤ)
    (router : Bool) (m : Incoming) : Except Abort (Conn × Option (Arrival κ)) := do
  let (c, handled) ← c.proxyHandleBuiltin connId router m.parts
  if handled then return (c, none)
  let (c, arr) ← arrival cfg c env.pos connId router m
  if arr.isSome && immediate && !router then return (c.pumpActivity env.now connId, arr)
  else return (c, arr)

end Conn

end OxenMQ
