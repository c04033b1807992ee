import OxenMQ.Control.Connect
import OxenMQ.Control.Send
import OxenMQ.Workers.Defs

/-!
# The public interface

`Call` lists the calls of the public interface that reach the proxy thread, with their arguments,
and `Call.emit` says what happens in the calling thread: the call throws, or it does nothing, or it
sends a `ControlMessage`.  The numbers that a call draws from a counter are arguments here.

Only a few arguments are looked at in the calling thread.  In particular `connect_sn` makes a
`ConnectionID` of the pubkey, which checks its length, but only to return it, when the message is
already on its way.

Function objects, batches and sets of pubkeys are sent as pointers, and stand for themselves.  The
messages that are dictionaries or lists are taken apart by the proxy thread; for the ones that are
not in `OxenMQ.Control.Send` or `OxenMQ.Control.Connect` this is done here.
-/

set_option autoImplicit false

namespace OxenMQ

namespace Control

open SortedDict Consumer

variable {κ : Type}

/-- A `pubkey_set`. -/
abbrev PubkeySet := { pubkeys : List String // pubkeys.Nodup }

/-- A `bind_data`.  `onBind` is called in the proxy thread, so that it matters whether it
throws. -/
structure BindRequest where
  address : String
  curve : Bool
  allow : Callback
  onBind : Option (Bool → Except String Unit)

/-- A control message, by its command. -/
inductive ControlMessage (κ : Type) where
  | send (data : Dict)
  | batch (spec : BatchSpec)
  | inject (task : InjectedTask κ)
  | setSns (pubkeys : PubkeySet)
  | updateSns (added removed : PubkeySet)
  | connectSn (data : Dict)
  | connectRemote (data : Dict)
  | disconnect (data : Dict)
  | timer (data : List Value)
  | timerDel (id : ℤ)
  | bind (b : BindRequest)
  | quit

/-- A call.  A thread is given by its id, with `-1` for the proxy thread. -/
inductive Call where
  | send (dest : ConnectionID) (cmd : String) (opts : List SendOption)
  | request (dest : ConnectionID) (cmd : String) (callback : Callback) (replyTag : String)
      (opts : List SendOption)
  | connect (call : ConnectCall)
  | disconnect (conn : ConnectionID) (linger : ℤ)
  | addTimer (id : ℤ) (job : Callback) (interval : ℤ) (squelch : Bool) (thread : Option ℤ)
  | cancelTimer (id : ℤ)
  | job (f : Callback) (thread : Option ℤ)
  | batch (spec : BatchSpec)
  | injectTask (category command remote : String) (callback : Option Callback)
  | listen (curve : Bool) (address : String) (allow : Option Callback)
      (onBind : Option (Bool → Except String Unit))
  | setActiveSns (pubkeys : PubkeySet)
  | updateActiveSns (added removed : PubkeySet)
  | quit

/-! ## In the calling thread -/

/-- The message of `disconnect`. -/
def disconnect (conn : ConnectionID) (linger : ℤ) : Dict :=
  ((empty.insert "conn_id" (.int conn.id)).insert "linger_ms" (.int linger)).insert
    "pubkey" (.str conn.pk)

/-- The message of `add_timer`. -/
def addTimer (id : ℤ) (job : Callback) (interval : ℤ) (squelch : Bool) (thread : Option ℤ) :
    List Value :=
  [.int id, .ptr job, .int interval, .ofBool squelch, .int (thread.getD 0)]

/-- The `AllowFunc` that stands in for a missing one. -/
def allowNone : Callback := 0

/-- Does the address begin with `inproc://`? -/
def isInproc (address : String) : Bool := address.toList.take 9 == "inproc://".toList

/-- `inject_task`. -/
def injectTask (cfg : Config κ) (category command remote : String) :
    Option Callback → Except Abort (Option (ControlMessage κ))
  | none => return none
  | some callback =>
    match cfg.categories category with
    | none => throw (.exception ("Invalid category `" ++ category ++ "': category does not exist"))
    | some cat => return some (.inject ⟨cat, command, remote, callback⟩)

/-- `listen_curve` and `listen_plain`. -/
def listen (curve : Bool) (address : String) (allow : Option Callback)
    (onBind : Option (Bool → Except String Unit)) : Except Abort (Option (ControlMessage κ)) :=
  if isInproc address then
    throw (.exception (if curve then "inproc:// cannot be used with listen_curve"
      else "inproc:// cannot be used with listen_plain"))
  else return some (.bind ⟨address, curve, allow.getD allowNone, onBind⟩)

/-- What a call does up to the point where it sends its message. -/
def Call.emit (cfg : Config κ) (ephemeralRoutingId : Bool) :
    Call → Except Abort (Option (ControlMessage κ))
  | .send dest cmd opts => return some (.send (Control.send dest cmd opts))
  | .request dest cmd callback replyTag opts =>
    return some (.send (Control.request dest cmd callback replyTag opts))
  | .connect (.sn pubkey options) =>
    return some (.connectSn (connectSn ephemeralRoutingId pubkey options))
  | .connect (.remote address id onConnect onFailure options) =>
    return some (.connectRemote (connectRemote address id onConnect onFailure options))
  | .connect (.inproc id onConnect onFailure options) =>
    return some (.connectRemote (connectInproc id onConnect onFailure options))
  | .disconnect conn linger => return some (.disconnect (Control.disconnect conn linger))
  | .addTimer id f interval squelch thread =>
    return some (.timer (Control.addTimer id f interval squelch thread))
  | .cancelTimer id => return some (.timerDel id)
  | .job f thread =>
    if thread = some (-1) then
      throw (.exception "job() cannot be used to queue an in-proxy job")
    else return some (.batch { jobs := [(f, thread.getD 0)], isJob := true })
  | .batch spec =>
    if spec.jobs = [] then throw (.exception "Cannot batch a a job batch with 0 jobs")
    else return some (.batch spec)
  | .injectTask category command remote callback =>
    Control.injectTask cfg category command remote callback
  | .listen curve address allow onBind => Control.listen curve address allow onBind
  | .setActiveSns pubkeys => return some (.setSns pubkeys)
  | .updateActiveSns added removed => return some (.updateSns added removed)
  | .quit => return some .quit

/-- The number that a call has drawn for the connection it is to open. -/
def Call.connId : Call → Option ℤ
  | .connect (.remote _ id _ _ _) => some id
  | .connect (.inproc id _ _ _) => some id
  | _ => none

/-! ## In the proxy thread -/

/-- The part of `proxy_disconnect` that takes its message apart. -/
def decodeDisconnect : Consumer (ConnectionID × ℤ) := do
  let id ← readOr "conn_id" consumeInteger (-1)
  let linger ← readOr "linger_ms" consumeInteger 1000
  let pk ← readOr "pubkey" consumeString ""
  return ({ id, pk }, linger)

/-- A value is consumed from a list. -/
def consumeNext {α : Type} (consume : Value → Except Abort α) :
    List Value → Except Abort (α × List Value)
  | [] => badValue
  | v :: rest => do
    let a ← consume v
    return (a, rest)

/-- The arguments of `proxy_timer`. -/
structure TimerParams where
  id : ℤ
  job : Callback
  interval : ℤ
  squelch : Bool
  thread : ℤ
  deriving DecidableEq, Repr

/-- The part of `proxy_timer` that takes its message apart. -/
def decodeTimer (timerData : List Value) : Except Abort TimerParams := do
  let (id, timerData) ← consumeNext consumeInteger timerData
  let (job, timerData) ← consumeNext consumeFunction timerData
  let (interval, timerData) ← consumeNext consumeUnsigned timerData
  let (squelch, timerData) ← consumeNext consumeBool timerData
  let (thread, timerData) ← consumeNext consumeInteger timerData
  if timerData ≠ [] then
    throw (.exception "Internal error: proxied timer request contains unexpected data")
  return { id, job, interval, squelch, thread }

theorem decode_disconnect (conn : ConnectionID) (linger : ℤ) :
    decodeDisconnect.get (disconnect conn linger) =
      .ok ({ id := conn.id, pk := conn.pk }, linger) := by
  have hid : (disconnect conn linger).get? "conn_id" = some (.int conn.id) := by
    simp [disconnect]
  have hlinger : (disconnect conn linger).get? "linger_ms" = some (.int linger) := by
    simp [disconnect]
  have hpk : (disconnect conn linger).get? "pubkey" = some (.str conn.pk) := by
    simp [disconnect]
  refine Reads.get (?_ : Reads _ _ "" "pubkey" _)
  refine (reads_readOr_some consumeInteger (by decide) hid rfl _).bind ?_
  refine (reads_readOr_some consumeInteger (by decide) hlinger rfl _).bind ?_
  refine (reads_readOr_some consumeString (by decide) hpk rfl _).bind ?_
  exact reads_pure le_rfl _

/-- A negative interval is the only thing that `proxy_timer` refuses. -/
theorem decode_addTimer (id : ℤ) (job : Callback) (interval : ℤ) (squelch : Bool)
    (thread : Option ℤ) :
    decodeTimer (addTimer id job interval squelch thread) =
      if interval < 0 then badValue
      else .ok { id, job, interval, squelch, thread := thread.getD 0 } := by
  have hsquelch := consumeBool_ofBool squelch
  by_cases hneg : interval < 0
  · simp [decodeTimer, addTimer, consumeNext, consumeInteger, consumeFunction, consumeUnsigned,
      hneg, Except.ok_bind]
    rfl
  · simp [decodeTimer, addTimer, consumeNext, consumeInteger, consumeFunction, consumeUnsigned,
      hneg, Except.ok_bind, hsquelch]
    rfl

/-! ## From the message back to the call -/

variable {cfg : Config κ} {ephemeral rid : Bool} {data : Dict}

/-- Which call a control message comes from. -/
def ControlMessage.From : ControlMessage κ → Call → Prop
  | .connectRemote _, call => ∃ c, call = .connect c
  | .batch spec, call => call = .batch spec ∨ ∃ f thread, call = .job f thread ∧
      thread ≠ some (-1) ∧ spec = { jobs := [(f, thread.getD 0)], isJob := true }
  | .timer _, call => ∃ id f interval squelch thread, call = .addTimer id f interval squelch thread
  | .timerDel id, call => call = .cancelTimer id
  | .quit, call => call = .quit
  | _, _ => True

theorem from_of_emit {call : Call} {message : ControlMessage κ}
    (h : call.emit cfg ephemeral = .ok (some message)) : message.From call := by
  cases call with
  | connect c => cases c <;> cases h <;> first | exact trivial | exact ⟨_, rfl⟩
  | job f thread =>
    rw [Call.emit] at h
    split at h
    · cases h
    · cases h
      exact Or.inr ⟨f, thread, rfl, ‹_›, rfl⟩
  | batch spec =>
    rw [Call.emit] at h
    split at h
    · cases h
    · cases h
      exact Or.inl rfl
  | injectTask category command remote callback =>
    rw [Call.emit] at h
    unfold injectTask at h
    split at h
    · cases h
    · split at h
      · cases h
      · cases h
        exact trivial
  | listen curve address allow onBind =>
    rw [Call.emit] at h
    unfold listen at h
    split at h
    · cases h
    · cases h
      exact trivial
  | addTimer id f interval squelch thread => cases h; exact ⟨_, _, _, _, _, rfl⟩
  | cancelTimer id => cases h; rfl
  | quit => cases h; rfl
  | _ => cases h; exact trivial

/-- The level that a call asks for, and the number of the connection it opens.  Of several
`auth_level` options the last one counts. -/
def Call.asks : Call → Option (ℤ × AuthLevel)
  | .connect (.remote _ id _ _ options) =>
    some (id, ConnectOption.lastOr options ConnectOption.authLevel? .none)
  | .connect (.inproc id _ _ options) =>
    some (id, ConnectOption.lastOr options ConnectOption.authLevel? .admin)
  | _ => none

/-- What `proxy_connect_remote` decodes is what the call has asked for. -/
theorem asks_of_decode {call : Call} {r : RemoteParams}
    (hemit : call.emit cfg ephemeral = .ok (some (.connectRemote data)))
    (h : (decodeConnectRemote rid).get data = .ok r) :
    call.asks = some (r.connId, r.authLevel) := by
  obtain ⟨call, rfl⟩ := from_of_emit hemit
  cases call with
  | sn pubkey options => cases hemit
  | remote address id onConnect onFailure options =>
    cases hemit
    rw [connectRemote_eq,
      @decode_remoteMessage SortedDict.empty none none rid id onConnect onFailure
      (if address.curve then some address.pubkey else none) address.zmqAddress options
      rfl rfl rfl rfl] at h
    split at h
    · cases h
    · cases h
      rfl
  | inproc id onConnect onFailure options =>
    cases hemit
    rw [connectInproc_eq, @decode_remoteMessage inprocDefaults (some .admin)
      (some inprocConnectTimeout) rid id onConnect onFailure none "inproc://sn-self" options
      rfl rfl rfl rfl] at h
    split at h
    · cases h
    · cases h
      rfl

/-- The number of the connection that `proxy_connect_remote` decodes is the one that the call has
drawn. -/
theorem connId_of_decode {call : ConnectCall} {r : RemoteParams}
    (hemit : (Call.connect call).emit cfg ephemeral = .ok (some (.connectRemote data)))
    (h : (decodeConnectRemote rid).get data = .ok r) :
    (Call.connect call).connId = some r.connId := by
  have hasks := asks_of_decode hemit h
  cases call with
  | sn pubkey options => cases hasks
  | remote | inproc => exact congrArg (Option.map Prod.fst) hasks

end Control

end OxenMQ
