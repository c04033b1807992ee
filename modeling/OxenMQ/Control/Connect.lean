import OxenMQ.Connections.Defs
import OxenMQ.Control.Wire

/-!
# The `CONNECT_SN` and `CONNECT_REMOTE` control messages

Three calls write two kinds of message: `connect_remote` and `connect_inproc` share one decoder.
The options of the three calls are the same, and an option that does not apply to a call is left
out with a warning.  `ConnectCall.asked` says what a call asks for.

The calls agree with the decoders except for one value.  `connect_sn` writes its default keep-alive
in microseconds, while the decoder, like an explicit option, counts in milliseconds.
-/

set_option autoImplicit false

namespace OxenMQ

namespace Control

open SortedDict

inductive Proto where
  | tcp
  | tcpCurve
  | ipc
  | ipcCurve
  deriving DecidableEq, Repr

/-- The `address` of a remote. -/
structure Address where
  protocol : Proto := .tcp
  host : String := ""
  port : ℕ := 0
  socket : String := ""
  pubkey : String := ""
  deriving DecidableEq, Repr

namespace Address

def curve (a : Address) : Bool := a.protocol == .tcpCurve || a.protocol == .ipcCurve

def tcp (a : Address) : Bool := a.protocol == .tcp || a.protocol == .tcpCurve

def zmqAddress (a : Address) : String :=
  if a.tcp then "tcp://" ++ a.host ++ ":" ++ toString a.port else "ipc://" ++ a.socket

end Address

/-- An argument of `connect_remote`, `connect_sn` or `connect_inproc` behind the fixed ones. -/
inductive ConnectOption where
  | authLevel (auth : AuthLevel)
  | ephemeralRoutingId (useEphemeralRoutingId : Bool)
  | timeout (time : ℤ)
  | keepAlive (time : ℤ)
  | hint (address : String)
  /-- A bare duration, which is deprecated. -/
  | milliseconds (time : ℤ)
  /-- A bare string, which is deprecated. -/
  | string (hint : String)
  deriving DecidableEq, Repr

/-! ## Writing -/

/-- `apply_connect_option`.  The warnings are left out. -/
def applyConnectOption (remote : Bool) (opts : Dict) : ConnectOption → Dict
  | .authLevel auth => if remote then opts.insert "auth_level" (.int auth.toNat) else opts
  | .ephemeralRoutingId use => opts.insert "ephemeral_rid" (.ofBool use)
  | .timeout time => if remote then opts.insert "timeout" (.int time) else opts
  | .keepAlive time =>
    if time < 0 then opts
    else if !remote then opts.insert "keep_alive" (.int time)
    else opts
  | .hint address =>
    if address = "" then opts
    else if !remote then opts.insert "hint" (.str address)
    else opts
  | .milliseconds time =>
    if remote then opts.insert "timeout" (.int time) else opts.insert "keep_alive" (.int time)
  | .string address => if !remote then opts.insert "hint" (.str address) else opts

/-- `DEFAULT_CONNECT_SN_KEEP_ALIVE`, in milliseconds. -/
def defaultConnectSnKeepAlive : ℤ := 5 * 60 * 1000

/-- `REMOTE_CONNECT_TIMEOUT`, in milliseconds. -/
def remoteConnectTimeout : ℤ := 10 * 1000

/-- `INPROC_CONNECT_TIMEOUT`, in milliseconds. -/
def inprocConnectTimeout : ℤ := 50

/-- The control message of `connect_remote`, with the number that it has taken. -/
def connectRemote (remote : Address) (id : ℤ) (onConnect onFailure : Callback)
    (options : List ConnectOption) : Dict :=
  let opts := options.foldl (applyConnectOption true) empty
  let opts := opts.insert "conn_id" (.int id)
  let opts := opts.insert "connect" (.ptr onConnect)
  let opts := opts.insert "failure" (.ptr onFailure)
  let opts := if remote.curve then opts.insert "pubkey" (.str remote.pubkey) else opts
  opts.insert "remote" (.str remote.zmqAddress)

/-- The control message of `connect_sn`.  The default keep-alive is a number of microseconds. -/
def connectSn (ephemeralRoutingId : Bool) (pubkey : String) (options : List ConnectOption) : Dict :=
  let opts := (empty.insert "keep_alive" (.int (defaultConnectSnKeepAlive * 1000))).insert
    "ephemeral_rid" (.ofBool ephemeralRoutingId)
  let opts := options.foldl (applyConnectOption false) opts
  opts.insert "pubkey" (.str pubkey)

/-- The control message of `connect_inproc`, with the number that it has taken. -/
def connectInproc (id : ℤ) (onConnect onFailure : Callback) (options : List ConnectOption) : Dict :=
  let opts := (empty.insert "timeout" (.int inprocConnectTimeout)).insert
    "auth_level" (.int AuthLevel.admin.toNat)
  let opts := options.foldl (applyConnectOption true) opts
  let opts := opts.insert "conn_id" (.int id)
  let opts := opts.insert "connect" (.ptr onConnect)
  let opts := opts.insert "failure" (.ptr onFailure)
  opts.insert "remote" (.str "inproc://sn-self")

/-! ## Reading -/

open Consumer

/-- What `proxy_connect_sn` decodes. -/
structure SnParams extends Conn.ConnectSn where
  ephemeralRid : Bool
  deriving DecidableEq, Repr

/-- What `proxy_connect_remote` decodes. -/
structure RemoteParams extends Conn.ConnectRemote where
  ephemeralRid : Bool
  deriving DecidableEq, Repr

/-- The cast of an integer to `AuthLevel`, for the values of the enumerators. -/
def AuthLevel.ofInt (n : ℤ) : AuthLevel :=
  if n = 1 then .none else if n = 2 then .basic else if n = 3 then .admin else .denied

/-- A default-constructed function object. -/
def emptyFunction : Callback := 0

/-- The part of `proxy_connect_sn` that takes its message apart.  The keep-alive starts
uninitialised, with `garbage`. -/
def decodeConnectSn (ephemeralRoutingId : Bool) (garbage : ℤ) : Consumer SnParams := do
  let ephemeralRid ← readOr "ephemeral_rid" consumeBool ephemeralRoutingId
  let hint ← readOr "hint" consumeString ""
  let incomingOnly ← readOr "incoming" consumeBool false
  let keepAlive ← readOr "keep_alive" consumeUnsigned garbage
  let isOptional ← readOr "optional" consumeBool false
  let outgoingOnly ← readOr "outgoing_only" consumeBool false
  let pubkey ← readRequired "pubkey" consumeString
    "Internal error: Invalid proxy_connect_sn command; pubkey missing"
  return { pubkey, hint, isOptional, incomingOnly, outgoingOnly, keepAlive, ephemeralRid }

/-- The part of `proxy_connect_remote` that takes its message apart. -/
def decodeConnectRemote (ephemeralRoutingId : Bool) : Consumer RemoteParams := do
  let authLevel ← readOr "auth_level" (fun v => AuthLevel.ofInt <$> consumeInteger v) .none
  let connId ← readOr "conn_id" consumeInteger (-1)
  let onConnect ← readOr "connect" consumeFunction emptyFunction
  let ephemeralRid ← readOr "ephemeral_rid" consumeBool ephemeralRoutingId
  let onFailure ← readOr "failure" consumeFunction emptyFunction
  let pubkey ← readOr "pubkey" consumeString ""
  let remote ← readOr "remote" consumeString ""
  let timeout ← readOr "timeout" consumeUnsigned remoteConnectTimeout
  return { authLevel, connId, onConnect, onFailure, pubkey, remote, timeout, ephemeralRid }

/-! ## What a call asks for -/

namespace ConnectOption

@[simp] def authLevel? : ConnectOption → Option AuthLevel
  | .authLevel auth => some auth
  | _ => none

@[simp] def ephemeralRoutingId? : ConnectOption → Option Bool
  | .ephemeralRoutingId use => some use
  | _ => none

/-- A timeout, which a bare duration is to the calls that have one. -/
@[simp] def timeout? : ConnectOption → Option ℤ
  | .timeout time => some time
  | .milliseconds time => some time
  | _ => none

/-- A keep-alive, which a bare duration is to `connect_sn`. -/
@[simp] def keepAlive? : ConnectOption → Option ℤ
  | .keepAlive time => if time < 0 then none else some time
  | .milliseconds time => some time
  | _ => none

@[simp] def hint? : ConnectOption → Option String
  | .hint address => if address = "" then none else some address
  | .string address => some address
  | _ => none

/-- The last applicable option of a kind, or else a default. -/
def lastOr {α : Type} (opts : List ConnectOption) (kind : ConnectOption → Option α) (dflt : α) :
    α :=
  (opts.filterMap kind).getLast?.getD dflt

/-- What an option writes. -/
@[simp] def entries (remote : Bool) : ConnectOption → List (String × Value)
  | .authLevel auth => if remote then [("auth_level", .int auth.toNat)] else []
  | .ephemeralRoutingId use => [("ephemeral_rid", .ofBool use)]
  | .timeout time => if remote then [("timeout", .int time)] else []
  | .keepAlive time => if time < 0 then [] else if remote then [] else [("keep_alive", .int time)]
  | .hint address => if address = "" then [] else if remote then [] else [("hint", .str address)]
  | .milliseconds time => if remote then [("timeout", .int time)] else [("keep_alive", .int time)]
  | .string address => if remote then [] else [("hint", .str address)]

/-- The duration of an option is not negative. -/
def NonNeg : ConnectOption → Prop
  | .timeout time => 0 ≤ time
  | .keepAlive time => 0 ≤ time
  | .milliseconds time => 0 ≤ time
  | _ => True

end ConnectOption

/-- A call that connects, with the number that it takes for the connection. -/
inductive ConnectCall where
  | sn (pubkey : String) (options : List ConnectOption)
  | remote (address : Address) (id : ℤ) (onConnect onFailure : Callback)
      (options : List ConnectOption)
  | inproc (id : ℤ) (onConnect onFailure : Callback) (options : List ConnectOption)
  deriving DecidableEq, Repr

namespace ConnectCall

open ConnectOption

@[simp] def options : ConnectCall → List ConnectOption
  | .sn _ options => options
  | .remote _ _ _ _ options => options
  | .inproc _ _ _ options => options

/-- What the proxy decodes from the message of a call. -/
def decoded (ephemeralRoutingId : Bool) (garbage : ℤ) :
    ConnectCall → Except Abort (SnParams ⊕ RemoteParams)
  | .sn pubkey options =>
    Sum.inl <$> (decodeConnectSn ephemeralRoutingId garbage).get
      (connectSn ephemeralRoutingId pubkey options)
  | .remote address id onConnect onFailure options =>
    Sum.inr <$> (decodeConnectRemote ephemeralRoutingId).get
      (connectRemote address id onConnect onFailure options)
  | .inproc id onConnect onFailure options =>
    Sum.inr <$> (decodeConnectRemote ephemeralRoutingId).get
      (connectInproc id onConnect onFailure options)

/-- What a call of `connect_sn` asks for when `keepAlive` is its default. -/
def askedSn (ephemeralRoutingId : Bool) (keepAlive : ℤ) (pubkey : String)
    (options : List ConnectOption) : SnParams where
  pubkey := pubkey
  hint := lastOr options hint? ""
  keepAlive := lastOr options keepAlive? keepAlive
  ephemeralRid := lastOr options ephemeralRoutingId? ephemeralRoutingId

/-- What a call asks for. -/
def asked (ephemeralRoutingId : Bool) : ConnectCall → SnParams ⊕ RemoteParams
  | .sn pubkey options => .inl (askedSn ephemeralRoutingId defaultConnectSnKeepAlive pubkey options)
  | .remote address id onConnect onFailure options => .inr
    { authLevel := lastOr options authLevel? .none
      connId := id
      onConnect
      onFailure
      pubkey := if address.curve then address.pubkey else ""
      remote := address.zmqAddress
      timeout := lastOr options timeout? remoteConnectTimeout
      ephemeralRid := lastOr options ephemeralRoutingId? ephemeralRoutingId }
  | .inproc id onConnect onFailure options => .inr
    { authLevel := lastOr options authLevel? .admin
      connId := id
      onConnect
      onFailure
      remote := "inproc://sn-self"
      timeout := lastOr options timeout? inprocConnectTimeout
      ephemeralRid := lastOr options ephemeralRoutingId? ephemeralRoutingId }

end ConnectCall

/-! ## What the dictionaries hold -/

theorem applyConnectOption_eq (remote : Bool) (d : Dict) (o : ConnectOption) :
    applyConnectOption remote d o = d.insertAll (o.entries remote) := by
  cases o with
  | keepAlive t => by_cases ht : t < 0 <;> cases remote <;> simp [applyConnectOption, insertAll, ht]
  | hint h => by_cases hh : h = "" <;> cases remote <;> simp [applyConnectOption, insertAll, hh]
  | _ => cases remote <;> simp [applyConnectOption, insertAll]

section Options

variable {α : Type} {k k₀ : String} {remote : Bool} {d base : Dict} {options : List ConnectOption}
  {kind : ConnectOption → Option α} {enc : α → Value} {consume : Value → Except Abort α}

theorem foldl_applyConnectOption :
    options.foldl (applyConnectOption remote) base
      = base.insertAll (options.flatMap (ConnectOption.entries remote)) := by
  induction options generalizing base with
  | nil => rfl
  | cons o options ih =>
    rw [List.foldl_cons, applyConnectOption_eq, ih]
    simp [insertAll]

/-- The last option counts, or else what was there before the options. -/
theorem get?_connectOptions (h : ∀ o, valuesOf k (o.entries remote) = ((kind o).map enc).toList) :
    (options.foldl (applyConnectOption remote) base).get? k
      = ((options.filterMap kind).getLast?.map enc).or (base.get? k) := by
  rw [foldl_applyConnectOption, get?_insertAll, valuesOf_flatMap h, List.getLast?_map]

/-- A parameter that an option can set, with the default in the dictionary or in the decoder. -/
theorem reads_connectOption {initial : α} {written : Option α} (hlt : k₀ < k)
    (hget : d.get? k = ((options.filterMap kind).getLast?.map enc).or (written.map enc))
    (hinit : written = none → consume (enc initial) = .ok initial) :
    (readOr k consume initial).Reads d k₀ k
      (consume (enc (ConnectOption.lastOr options kind (written.getD initial)))) := by
  have hread := @reads_readOr α d k k₀ consume hlt initial
  rw [hget] at hread
  rw [ConnectOption.lastOr]
  cases hl : (options.filterMap kind).getLast? with
  | some a => rwa [hl] at hread
  | none =>
    rw [hl] at hread
    cases written with
    | some a => exact hread
    | none =>
      rw [Option.getD_none, Option.getD_none, hinit rfl]
      exact hread

end Options

/-- What the options write for `connect_sn`. -/
theorem valuesOf_entries_sn :
    (∀ o : ConnectOption, valuesOf "ephemeral_rid" (o.entries false)
      = (o.ephemeralRoutingId?.map Value.ofBool).toList) ∧
    (∀ o : ConnectOption, valuesOf "hint" (o.entries false) = (o.hint?.map Value.str).toList) ∧
    (∀ o : ConnectOption,
      valuesOf "keep_alive" (o.entries false) = (o.keepAlive?.map Value.int).toList) ∧
    ∀ o : ConnectOption, ∀ k ∈ ["incoming", "optional", "outgoing_only"],
      valuesOf k (o.entries false) = [] := by
  simp only [← forall_and]
  intro o
  cases o with
  | keepAlive t => by_cases ht : t < 0 <;> simp [valuesOf, ht]
  | hint h => by_cases hh : h = "" <;> simp [valuesOf, hh]
  | _ => simp [valuesOf]

/-- What the options write for `connect_remote` and `connect_inproc`. -/
theorem valuesOf_entries_remote :
    (∀ o : ConnectOption, valuesOf "auth_level" (o.entries true)
      = (o.authLevel?.map fun a => Value.int a.toNat).toList) ∧
    (∀ o : ConnectOption, valuesOf "ephemeral_rid" (o.entries true)
      = (o.ephemeralRoutingId?.map Value.ofBool).toList) ∧
    (∀ o : ConnectOption,
      valuesOf "timeout" (o.entries true) = (o.timeout?.map Value.int).toList) ∧
    ∀ o : ConnectOption, valuesOf "pubkey" (o.entries true) = [] := by
  simp only [← forall_and]
  intro o
  cases o with
  | keepAlive t => by_cases ht : t < 0 <;> simp [valuesOf, ht]
  | hint h => by_cases hh : h = "" <;> simp [valuesOf, hh]
  | _ => simp [valuesOf]

/-! ## What the decoders get -/

open ConnectOption ConnectCall

section Sn

variable {α : Type} {k k₀ : String} {ephemeralRoutingId : Bool} {pubkey : String}
  {options : List ConnectOption} {kind : ConnectOption → Option α} {enc : α → Value}
  {consume : Value → Except Abort α} {initial : α}

/-- The dictionary that `connect_sn` starts with. -/
def snDefaults (ephemeralRoutingId : Bool) : Dict :=
  (empty.insert "keep_alive" (.int (defaultConnectSnKeepAlive * 1000))).insert
    "ephemeral_rid" (.ofBool ephemeralRoutingId)

theorem reads_sn {written : Option α} (hlt : k₀ < k) (hk : "pubkey" ≠ k)
    (h : ∀ o, valuesOf k (o.entries false) = ((kind o).map enc).toList)
    (hbase : (snDefaults ephemeralRoutingId).get? k = written.map enc)
    (hinit : written = none → consume (enc initial) = .ok initial) :
    (readOr k consume initial).Reads (connectSn ephemeralRoutingId pubkey options) k₀ k
      (consume (enc (lastOr options kind (written.getD initial)))) := by
  refine reads_connectOption hlt ?_ hinit
  rw [connectSn, get?_insert, if_neg hk, get?_connectOptions h, ← hbase, snDefaults]

/-- A key that nobody writes. -/
theorem reads_sn_none (hlt : k₀ < k) (hk : k ∈ ["incoming", "optional", "outgoing_only"]) :
    (readOr k consume initial).Reads (connectSn ephemeralRoutingId pubkey options) k₀ k
      (.ok initial) := by
  have hvalues : ∀ o : ConnectOption, valuesOf k (o.entries false)
      = (((fun _ => none) o : Option Value).map id).toList :=
    fun o => valuesOf_entries_sn.2.2.2 o k hk
  have hget : (connectSn ephemeralRoutingId pubkey options).get? k = none := by
    simp only [List.mem_cons, List.not_mem_nil, or_false] at hk
    rw [connectSn, get?_insert, get?_connectOptions hvalues, List.filterMap_none]
    rcases hk with rfl | rfl | rfl <;> rfl
  exact reads_readOr_none hlt hget initial

theorem get?_connectSn_pubkey :
    (connectSn ephemeralRoutingId pubkey options).get? "pubkey" = some (.str pubkey) := by
  rw [connectSn, get?_insert, if_pos rfl]

end Sn

theorem decode_connectSn (ephemeralRoutingId : Bool) (garbage : ℤ) (pubkey : String)
    (options : List ConnectOption) :
    (decodeConnectSn ephemeralRoutingId garbage).get (connectSn ephemeralRoutingId pubkey options)
      = if lastOr options keepAlive? (defaultConnectSnKeepAlive * 1000) < 0 then badValue
        else .ok (askedSn ephemeralRoutingId (defaultConnectSnKeepAlive * 1000) pubkey options) := by
  obtain ⟨hrid, hhint, hkeep, -⟩ := valuesOf_entries_sn
  have hridRead := @reads_sn Bool "ephemeral_rid" "" ephemeralRoutingId pubkey options _ _
    consumeBool ephemeralRoutingId (some ephemeralRoutingId) (by decide) (by decide) hrid rfl nofun
  have hhintRead := @reads_sn String "hint" "ephemeral_rid" ephemeralRoutingId pubkey options _ _
    consumeString "" none (by decide) (by decide) hhint rfl fun _ => rfl
  have hkeepRead := @reads_sn ℤ "keep_alive" "incoming" ephemeralRoutingId pubkey options _ _
    consumeUnsigned garbage (some (defaultConnectSnKeepAlive * 1000)) (by decide) (by decide) hkeep
    rfl nofun
  rw [consumeBool_ofBool] at hridRead
  rw [Option.getD_some, consumeUnsigned] at hkeepRead
  have hreads : (decodeConnectSn ephemeralRoutingId garbage).Reads
      (connectSn ephemeralRoutingId pubkey options) "" "pubkey"
      (if lastOr options keepAlive? (defaultConnectSnKeepAlive * 1000) < 0 then badValue
        else .ok (askedSn ephemeralRoutingId
          (defaultConnectSnKeepAlive * 1000) pubkey options)) := by
    refine hridRead.bind (hhintRead.bind ((reads_sn_none (by decide) (by decide)).bind ?_))
    split_ifs at hkeepRead ⊢
    · exact hkeepRead.bind_error
    · refine hkeepRead.bind ((reads_sn_none (by decide) (by decide)).bind ?_)
      refine (reads_sn_none (by decide) (by decide)).bind ?_
      refine (reads_readRequired consumeString (by decide) get?_connectSn_pubkey rfl _).bind ?_
      exact reads_pure le_rfl _
  exact hreads.get

/-! The messages of `connect_remote` and `connect_inproc` have one form. -/

section Remote

variable {α : Type} {k k₀ : String} {base : Dict} {id : ℤ} {onConnect onFailure : Callback}
  {pubkey : Option String} {remote : String} {options : List ConnectOption}
  {kind : ConnectOption → Option α} {enc : α → Value} {consume : Value → Except Abort α}
  {initial : α}

/-- A `CONNECT_REMOTE` message that starts with the dictionary `base`. -/
def remoteMessage (base : Dict) (id : ℤ) (onConnect onFailure : Callback) (pubkey : Option String)
    (remote : String) (options : List ConnectOption) : Dict :=
  let opts := options.foldl (applyConnectOption true) base
  let opts := ((opts.insert "conn_id" (.int id)).insert "connect" (.ptr onConnect)).insert
    "failure" (.ptr onFailure)
  let opts := pubkey.elim opts fun pk => opts.insert "pubkey" (.str pk)
  opts.insert "remote" (.str remote)

theorem connectRemote_eq (address : Address) :
    connectRemote address id onConnect onFailure options
      = remoteMessage empty id onConnect onFailure
        (if address.curve then some address.pubkey else none) address.zmqAddress options := by
  rw [connectRemote, remoteMessage]
  split <;> rfl

/-- The dictionary that `connect_inproc` starts with. -/
def inprocDefaults : Dict :=
  (empty.insert "timeout" (.int inprocConnectTimeout)).insert
    "auth_level" (.int AuthLevel.admin.toNat)

theorem connectInproc_eq :
    connectInproc id onConnect onFailure options
      = remoteMessage inprocDefaults id onConnect onFailure none "inproc://sn-self" options := rfl

/-- The keys that do not come from an option. -/
def remoteKeys : List String := ["conn_id", "connect", "failure", "pubkey", "remote"]

theorem get?_remoteMessage (hk : k ∉ remoteKeys) :
    (remoteMessage base id onConnect onFailure pubkey remote options).get? k
      = (options.foldl (applyConnectOption true) base).get? k := by
  simp only [remoteKeys, List.mem_cons, List.not_mem_nil, or_false, not_or] at hk
  obtain ⟨h₁, h₂, h₃, h₄, h₅⟩ := hk
  rw [remoteMessage]
  cases pubkey <;>
    simp [Ne.symm h₁, Ne.symm h₂, Ne.symm h₃, Ne.symm h₄, Ne.symm h₅]

theorem reads_remote {written : Option α} (hlt : k₀ < k) (hk : k ∉ remoteKeys)
    (h : ∀ o, valuesOf k (o.entries true) = ((kind o).map enc).toList)
    (hbase : base.get? k = written.map enc)
    (hinit : written = none → consume (enc initial) = .ok initial) :
    (readOr k consume initial).Reads
      (remoteMessage base id onConnect onFailure pubkey remote options)
      k₀ k (consume (enc (lastOr options kind (written.getD initial)))) := by
  refine reads_connectOption hlt ?_ hinit
  rw [get?_remoteMessage hk, get?_connectOptions h, hbase]

/-- The keys that the call itself writes. -/
theorem get?_remoteMessage_fixed (hbase : base.get? "pubkey" = none) :
    let d := remoteMessage base id onConnect onFailure pubkey remote options
    d.get? "conn_id" = some (.int id) ∧ d.get? "connect" = some (.ptr onConnect) ∧
    d.get? "failure" = some (.ptr onFailure) ∧ d.get? "pubkey" = pubkey.map Value.str ∧
    d.get? "remote" = some (.str remote) := by
  have hvalues : ∀ o : ConnectOption, valuesOf "pubkey" (o.entries true)
      = (((fun _ => none) o : Option Value).map fun v => v).toList := valuesOf_entries_remote.2.2.2
  have hpubkey := @get?_connectOptions _ _ true base options _ _ hvalues
  rw [hbase, List.filterMap_none] at hpubkey
  simp only [remoteMessage]
  cases pubkey <;> simp [hpubkey]

end Remote

/-- What `proxy_connect_remote` decodes from a message with the given defaults. -/
theorem decode_remoteMessage {base : Dict} {auth : Option AuthLevel} {time : Option ℤ}
    (ephemeralRoutingId : Bool) (id : ℤ) (onConnect onFailure : Callback) (pubkey : Option String)
    (remote : String) (options : List ConnectOption)
    (hauth : base.get? "auth_level" = auth.map fun a => .int a.toNat)
    (htime : base.get? "timeout" = time.map .int) (hrid : base.get? "ephemeral_rid" = none)
    (hpubkey : base.get? "pubkey" = none) :
    (decodeConnectRemote ephemeralRoutingId).get
        (remoteMessage base id onConnect onFailure pubkey remote options)
      = if lastOr options timeout? (time.getD remoteConnectTimeout) < 0 then badValue
        else .ok
          { authLevel := lastOr options authLevel? (auth.getD .none)
            connId := id
            onConnect
            onFailure
            pubkey := pubkey.getD ""
            remote
            timeout := lastOr options timeout? (time.getD remoteConnectTimeout)
            ephemeralRid := lastOr options ephemeralRoutingId? ephemeralRoutingId } := by
  obtain ⟨hauthValues, hridValues, htimeValues, -⟩ := valuesOf_entries_remote
  obtain ⟨hgetId, hgetConnect, hgetFailure, hgetPubkey, hgetRemote⟩ :=
    @get?_remoteMessage_fixed base id onConnect onFailure pubkey remote options hpubkey
  have hauthRead := @reads_remote AuthLevel "auth_level" "" base id onConnect onFailure pubkey
    remote options _ _ (fun v => AuthLevel.ofInt <$> consumeInteger v) .none auth (by decide)
    (by decide) hauthValues hauth fun _ => rfl
  have hridRead := @reads_remote Bool "ephemeral_rid" "connect" base id onConnect onFailure pubkey
    remote options _ _ consumeBool ephemeralRoutingId none (by decide) (by decide) hridValues hrid
    fun _ => consumeBool_ofBool _
  have htimeRead := @reads_remote ℤ "timeout" "remote" base id onConnect onFailure pubkey
    remote options _ _ consumeUnsigned remoteConnectTimeout time (by decide) (by decide) htimeValues
    htime fun _ => rfl
  have hofInt : ∀ a : AuthLevel, (AuthLevel.ofInt <$> consumeInteger (.int a.toNat))
      = .ok a := by
    intro a
    cases a <;> rfl
  rw [hofInt] at hauthRead
  rw [consumeBool_ofBool] at hridRead
  rw [consumeUnsigned] at htimeRead
  have hpubkeyRead : (readOr "pubkey" consumeString "").Reads
      (remoteMessage base id onConnect onFailure pubkey remote options) "failure" "pubkey"
      (.ok (pubkey.getD "")) := by
    cases pubkey with
    | none => exact reads_readOr_none (by decide) hgetPubkey ""
    | some pk => exact reads_readOr_some consumeString (by decide) hgetPubkey rfl ""
  refine Reads.get (?_ : Reads _ _ "" "timeout" _)
  refine hauthRead.bind ((reads_readOr_some consumeInteger (by decide) hgetId rfl _).bind ?_)
  refine (reads_readOr_some consumeFunction (by decide) hgetConnect rfl _).bind ?_
  refine hridRead.bind ((reads_readOr_some consumeFunction (by decide) hgetFailure rfl _).bind ?_)
  refine hpubkeyRead.bind ((reads_readOr_some consumeString (by decide) hgetRemote rfl _).bind ?_)
  split_ifs at htimeRead ⊢
  · exact htimeRead.bind_error
  · exact htimeRead.bind (reads_pure le_rfl _)

/-! ## The calls and the decoders -/

section Calls

variable {α : Type} {options : List ConnectOption}

theorem lastOr_nonneg {kind : ConnectOption → Option ℤ} {dflt : ℤ} (hdflt : 0 ≤ dflt)
    (h : ∀ o ∈ options, ∀ t, kind o = some t → 0 ≤ t) : 0 ≤ lastOr options kind dflt := by
  rw [lastOr]
  cases hl : (options.filterMap kind).getLast? with
  | none => exact hdflt
  | some t =>
    obtain ⟨o, ho, ht⟩ := List.mem_filterMap.1 (List.mem_of_getLast? hl)
    exact h o ho t ht

theorem lastOr_eq_lastOr_iff {kind : ConnectOption → Option α} {a b : α} (hab : a ≠ b) :
    lastOr options kind a = lastOr options kind b ↔ ∃ o ∈ options, (kind o).isSome := by
  rw [lastOr, lastOr]
  cases hl : (options.filterMap kind).getLast? with
  | none =>
    have hnone : ∀ o ∈ options, kind o = none :=
      List.filterMap_eq_nil_iff.1 (List.getLast?_eq_none_iff.1 hl)
    refine ⟨fun h => absurd h hab, fun ⟨o, ho, hsome⟩ => ?_⟩
    rw [hnone o ho] at hsome
    exact absurd hsome Bool.false_ne_true
  | some c =>
    obtain ⟨o, ho, hc⟩ := List.mem_filterMap.1 (List.mem_of_getLast? hl)
    exact ⟨fun _ => ⟨o, ho, by rw [hc]; rfl⟩, fun _ => rfl⟩

theorem timeout?_nonneg {o : ConnectOption} (h : o.NonNeg) {t : ℤ} (ht : o.timeout? = some t) :
    0 ≤ t := by
  cases o with
  | timeout time | milliseconds time => obtain rfl := Option.some.inj ht; exact h
  | _ => simp at ht

theorem keepAlive?_nonneg {o : ConnectOption} (h : o.NonNeg) {t : ℤ} (ht : o.keepAlive? = some t) :
    0 ≤ t := by
  cases o with
  | keepAlive time =>
    obtain ⟨-, htime⟩ := Option.ite_none_left_eq_some.1 ht
    obtain rfl := Option.some.inj htime
    exact h
  | milliseconds time => obtain rfl := Option.some.inj ht; exact h
  | _ => simp at ht

end Calls

namespace ConnectCall

variable {ephemeralRoutingId : Bool} {garbage : ℤ}

theorem decoded_remote {address : Address} {id : ℤ} {onConnect onFailure : Callback}
    {options : List ConnectOption} (h : 0 ≤ lastOr options timeout? remoteConnectTimeout) :
    (remote address id onConnect onFailure options).decoded ephemeralRoutingId garbage
      = .ok ((remote address id onConnect onFailure options).asked ephemeralRoutingId) := by
  have hdecode := @decode_remoteMessage empty none none ephemeralRoutingId id onConnect onFailure
    (if address.curve then some address.pubkey else none) address.zmqAddress options rfl rfl rfl rfl
  rw [← connectRemote_eq, Option.getD_none, if_neg (not_lt.2 h)] at hdecode
  rw [decoded, hdecode]
  simp only [asked]
  split <;> rfl

theorem decoded_inproc {id : ℤ} {onConnect onFailure : Callback} {options : List ConnectOption}
    (h : 0 ≤ lastOr options timeout? inprocConnectTimeout) :
    (inproc id onConnect onFailure options).decoded ephemeralRoutingId garbage
      = .ok ((inproc id onConnect onFailure options).asked ephemeralRoutingId) := by
  have hdecode := @decode_remoteMessage inprocDefaults (some .admin) (some inprocConnectTimeout)
    ephemeralRoutingId id onConnect onFailure none "inproc://sn-self" options rfl rfl rfl rfl
  rw [← connectInproc_eq, Option.getD_some, if_neg (not_lt.2 h)] at hdecode
  rw [decoded, hdecode]
  rfl

/-- If the call is `connect_sn`, it is given a keep-alive. -/
def KeepAliveGiven : ConnectCall → Prop
  | .sn _ options => ∃ o ∈ options, o.keepAlive?.isSome
  | _ => True

/-- The proxy decodes what a call asks for, unless it is a `connect_sn` without a keep-alive. -/
theorem decoded_eq_asked_iff (ephemeralRoutingId : Bool) (garbage : ℤ) (call : ConnectCall)
    (h : ∀ o ∈ call.options, o.NonNeg) :
    call.decoded ephemeralRoutingId garbage = .ok (call.asked ephemeralRoutingId)
      ↔ call.KeepAliveGiven := by
  cases call with
  | sn pubkey options =>
    have hne : defaultConnectSnKeepAlive * 1000 ≠ defaultConnectSnKeepAlive := by decide
    have hnonneg : 0 ≤ lastOr options keepAlive? (defaultConnectSnKeepAlive * 1000) :=
      lastOr_nonneg (by decide) fun o ho t => keepAlive?_nonneg (h o ho)
    rw [decoded, decode_connectSn, if_neg (not_lt.2 hnonneg), KeepAliveGiven,
      ← lastOr_eq_lastOr_iff hne]
    constructor
    · intro heq
      have hsn := Sum.inl.inj (Except.ok.inj heq)
      exact congrArg (fun p : SnParams => p.keepAlive) hsn
    · intro heq
      simp only [asked, askedSn, heq]
      rfl
  | remote address id onConnect onFailure options =>
    exact iff_of_true (decoded_remote (lastOr_nonneg (by decide)
      fun o ho t => timeout?_nonneg (h o ho))) trivial
  | inproc id onConnect onFailure options =>
    exact iff_of_true (decoded_inproc (lastOr_nonneg (by decide)
      fun o ho t => timeout?_nonneg (h o ho))) trivial

/-- The pubkey of some service node. -/
def somePubkey : String := "0123456789abcdef0123456789abcdef"

/-- A `connect_sn` that asks for two seconds gets them. -/
theorem decoded_eq_asked_twoSeconds :
    (∀ o ∈ (sn somePubkey [.keepAlive 2000]).options, o.NonNeg) ∧
    (sn somePubkey [.keepAlive 2000]).decoded false 0
      = .ok ((sn somePubkey [.keepAlive 2000]).asked false) :=
  have h : ∀ o ∈ (sn somePubkey [.keepAlive 2000]).options, o.NonNeg := by
    simp [NonNeg]
  ⟨h, (decoded_eq_asked_iff false 0 _ h).2 ⟨.keepAlive 2000, by simp, by decide⟩⟩

/-- A `connect_sn` without options asks to be kept for five minutes, and is kept for 300000
seconds. -/
theorem decoded_sn_default :
    (sn somePubkey []).asked false
      = .inl { pubkey := somePubkey, keepAlive := 300000, ephemeralRid := false } ∧
    (sn somePubkey []).decoded false 0
      = .ok (.inl { pubkey := somePubkey, keepAlive := 300000000, ephemeralRid := false }) :=
  ⟨rfl, rfl⟩

end ConnectCall

end Control

end OxenMQ
