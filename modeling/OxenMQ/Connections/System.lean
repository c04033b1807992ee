import OxenMQ.Connections.Incoming
import OxenMQ.Lib.Transition

/-!
# The connection tables as a transition system

`ConnEvent` lists everything that can happen to the connection tables, and `Conn.step` says what it
does to them: the control messages the rest of the program sends to the proxy, the messages that
arrive from the network, the cleanup timer, and what the proxy loop does to the flags that the
handlers set for it.  An event that `Conn.step` maps to `none` does not happen: there is no such
connection to receive a message on, or the handler throws or never returns, which is the end of the
run.

Numbers for connections come from one counter.  `connect_remote` and `connect_inproc` draw theirs
in the calling thread (`ConnEvent.allocate`) and pass it along in a `CONNECT_REMOTE` message, which
may be processed at any later time; `proxy_connect_sn` and `proxy_bind` draw theirs on the spot.

The state the proxy loop starts from, `Conn.start`, has the built-in in-process listener and
nothing else.  Listening addresses and service nodes given before `start()` are `bind` and
`setActiveSns` events that come first.
-/

set_option autoImplicit false

namespace OxenMQ

variable {κ : Type}

/-- Something that happens to the connection tables. -/
inductive ConnEvent where
  /-- `connect_remote` or `connect_inproc` draws a connection number. -/
  | allocate
  | connectRemote (env : Env) (r : Conn.ConnectRemote)
  | connectSn (env : Env) (r : Conn.ConnectSn)
  | send (env : Env) (r : Conn.SendRequest)
  | disconnect (conn : ConnectionID) (linger : ℤ)
  | setActiveSns (pubkeys : List String)
  | updateActiveSns (added removed : List String)
  | bind (address : String) (curve : Bool) (allow : Callback) (good : Bool)
  /-- A message arrives on the socket numbered `connId`, which is a listening one if `router`. -/
  | message (env : Env) (immediate : Bool) (connId : ℤ) (router : Bool) (m : Incoming)
  /-- The cleanup timer fires. -/
  | cleanup (env : Env)
  /-- The loop sets or resets its flags. -/
  | setFlags (updated skip : Bool)

/-- Is this a `BYE` from a remote we connected to? -/
def ConnEvent.isBye : ConnEvent → Bool
  | .message _ _ _ router m => !router && m.parts.head? == some "BYE"
  | _ => false

namespace Conn

/-- Can this message come in on this socket?  A listening socket puts the route of the sender in
front of the message, and a route is never empty. -/
def canReceive (s : Option Socket) (router : Bool) (parts : List String) : Bool :=
  match s with
  | some .router => router && parts.head?.any fun route => route != ""
  | some (.dealer _) => !router && !parts.isEmpty
  | _ => false

/-- What an event does to the tables. -/
def step (cfg : Config κ) (c : Conn) : ConnEvent → Option Conn
  | .allocate =>
    some { c with nextConnId := c.nextConnId + 1, allocated := c.allocated ++ [c.nextConnId] }
  | .connectRemote env r =>
    if r.connId ∈ c.allocated then
      ({ c with allocated := c.allocated.erase r.connId }.proxyConnectRemote env r).toOption
    else none
  | .connectSn env r => (c.proxyConnectSnMessage env r).toOption
  | .send env r => (c.proxySend env r).toOption
  | .disconnect conn linger => (c.proxyDisconnectMessage conn linger).toOption
  | .setActiveSns pubkeys =>
    if pubkeys.Nodup then (c.proxySetActiveSns cfg.closeLinger pubkeys).toOption else none
  | .updateActiveSns added removed =>
    if added.Nodup ∧ removed.Nodup then
      (c.proxyUpdateActiveSns cfg.closeLinger added removed).toOption
    else none
  | .bind address curve allow good => some (c.proxyBind address curve allow good)
  | .message env immediate connId router m =>
    if canReceive (c.connections.lookup connId) router m.parts then
      ((c.receive cfg env immediate connId router m).toOption).map Prod.fst
    else none
  | .cleanup env => (c.proxyConnCleanup cfg.closeLinger env).toOption
  | .setFlags updated skip =>
    some { c with connectionsUpdated := updated, proxySkipOnePoll := skip }

/-- The tables the proxy loop starts with. -/
def start : Conn where
  connections := AList.singleton 1 .router
  nextConnId := 2
  inprocListenerConnid := 1

/-- A program without commands. -/
def bareConfig : Config Unit where
  pubkey := ""
  localServiceNode := false
  categories := fun _ => none
  access := fun _ => {}
  commands := fun _ _ => none
  commandAliases := fun _ => none
  fromHex := fun _ => ""

end Conn

end OxenMQ
