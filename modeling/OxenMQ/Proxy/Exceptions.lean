import OxenMQ.Connections.Closing
import OxenMQ.Connections.Numbers
import OxenMQ.Connections.Unsent
import OxenMQ.Proxy.Spec

/-!
# Exceptions in the proxy thread

Nobody catches what a handler of a control message throws, so an exception ends the proxy thread.
The control messages come from the library itself, and a call of the public interface ought to throw
in the calling thread instead, before its message is sent.

`call_safe_iff` says which calls do not end the proxy thread (`Proxy.SafeCall`).  The others have an
argument that only the proxy thread checks (the pubkey of a service node, a negative duration, a
linger time that does not fit an `int`), a callback or a service node lookup that throws in the
proxy thread, make the proxy close a connection that has only been made by `connections[id]`, or
need a socket when `zmq` has no more of them: a socket to listen on, or the control socket through
which the proxy thread gives itself a job.
-/

set_option autoImplicit false

namespace OxenMQ

open Control

namespace Conn

variable {c c' : Conn} {env : Env}

/-- The message can be dealt with: a service node's pubkey has the right length, its address can be
looked up where it has to be, and the jobs for the callbacks of the message can be handed over. -/
structure Sends (c : Conn) (env : Env) (r : SendRequest) : Prop where
  pubkey : r.conn.sn = true → r.conn.pk.length = 32
  lookup : r.conn.sn = true → ¬ c.LookupFails env r 0 (c.equalRange r.conn)
  jobs : ∀ c' turn, sendLoop env r (c.peers.length + 2) 0 r.conn c = .ok (c', turn) →
    ¬ env.Refuses c.scheduled.length (turn.jobs r)

theorem throws_proxySend {r : SendRequest} : Throws (c.proxySend env r) ↔ ¬ c.Sends env r := by
  rw [proxySend_eq, throws_bind, throws_sendLoop]
  constructor
  · rintro (⟨hsn, hlen | hlookup⟩ | ⟨⟨c₁, turn⟩, hloop, hthrows⟩) h
    · exact hlen (h.pubkey hsn)
    · exact h.lookup hsn hlookup
    · rw [throws_bind_pure, throws_jobAll, sendLoop_scheduled hloop] at hthrows
      exact h.jobs c₁ turn hloop hthrows
  · intro h
    by_contra hnot
    rw [not_or] at hnot
    refine h ⟨fun hsn => ?_, fun hsn hlookup => ?_, fun c₁ turn hloop hrefuses => ?_⟩
    · by_contra hlen
      exact hnot.1 ⟨hsn, Or.inl hlen⟩
    · exact hnot.1 ⟨hsn, Or.inr hlookup⟩
    · refine hnot.2 ⟨_, hloop, throws_bind_pure.2 (throws_jobAll.2 ?_)⟩
      rwa [sendLoop_scheduled hloop]

/-- The service node has a record, or its address is given or can be looked up. -/
def Reaches (c : Conn) (env : Env) (pubkey hint : String) : Prop :=
  c.equalRange ⟨snId, pubkey, ""⟩ ≠ [] ∨ hint ≠ "" ∨ ∃ addr, env.snLookup = .ok addr

theorem throws_proxyConnectSnMessage {pubkey hint : String} {keepAlive : ℤ} :
    Throws (c.proxyConnectSnMessage env { pubkey, hint, keepAlive }) ↔
      ¬ (pubkey.length = 32 ∧ c.Reaches env pubkey hint) := by
  have hfind : (c.peers.find? fun e => e.1.eq ⟨snId, pubkey, ""⟩ && usablePeer false false e.2) =
      none ↔ c.equalRange ⟨snId, pubkey, ""⟩ = [] := by
    simp [usablePeer, equalRange, List.find?_eq_none, List.filter_eq_nil_iff]
  have hlookup : (∃ what, env.snLookup = .error what) ↔ ¬ ∃ addr, env.snLookup = .ok addr := by
    cases env.snLookup <;> simp
  unfold proxyConnectSnMessage Reaches
  rw [throws_bind_pure, throws_proxyConnectSn, hfind, hlookup]
  tauto

theorem throws_proxyConnectRemote {r : ConnectRemote} :
    Throws (c.proxyConnectRemote env r) ↔ r.connId = -1 ∨ r.remote = "" := by
  unfold proxyConnectRemote
  split
  · exact iff_of_true ⟨_, rfl⟩ ‹_›
  · refine iff_of_false (fun hthrows => ?_) ‹_›
    split at hthrows <;> exact not_throws_ok _ hthrows

/-- What `disconnect` needs in order not to throw: a service node's id has a pubkey of 32 bytes, and
the connection that is to be closed, if any, can be. -/
structure Disconnects (linger : ℤ) (c : Conn) (conn : ConnectionID) : Prop where
  pubkey : conn.sn = true → conn.pk.length = 32
  closes : ∀ e, (c.peers.find? fun e => e.1.eq conn && e.2.outgoing) = some e →
    c.Closes linger e.2.connId

theorem throws_proxyDisconnectMessage {conn : ConnectionID} {linger : ℤ} :
    Throws (c.proxyDisconnectMessage conn linger) ↔ ¬ c.Disconnects linger conn := by
  unfold proxyDisconnectMessage
  split
  · rename_i hpk
    exact iff_of_true ⟨_, rfl⟩ fun h => hpk.2 (h.pubkey hpk.1)
  · rename_i hpk
    have hpk' : conn.sn = true → conn.pk.length = 32 := fun hsn => not_not.1 fun h => hpk ⟨hsn, h⟩
    unfold proxyDisconnect
    dsimp only
    split
    · rename_i k peer hfind
      rw [throws_bind_pure, throws_proxyCloseConnection]
      refine not_congr ⟨fun hcloses => ⟨hpk', fun e he => ?_⟩, fun h => h.closes _ hfind⟩
      rw [hfind] at he
      cases he
      exact hcloses
    · rename_i hfind
      refine iff_of_false (not_throws_ok _) (not_not_intro ⟨hpk', fun e he => ?_⟩)
      rw [hfind] at he
      cases he

end Conn

/-! ## The calls -/

namespace Control

theorem Address.zmqAddress_ne (a : Address) : a.zmqAddress ≠ "" := by
  unfold Address.zmqAddress
  intro h
  split at h <;> simp at h

end Control

namespace Proxy

variable {κ : Type} [DecidableEq κ] [Fintype κ]

open ConnectOption in
/-- The calls that do not end the proxy thread, when it handles their messages in the state `p`. -/
def SafeCall (cfg : ProxyConfig κ) (p : Proxy κ) (env : ControlEnv) : Call → Prop
  | .send dest cmd opts => p.conn.Sends env.toEnv (SendOption.asked dest cmd none opts)
  | .request dest cmd callback replyTag opts =>
    p.conn.Sends env.toEnv (SendOption.asked dest cmd (some (replyTag, callback)) opts)
  | .connect (.sn pubkey options) =>
    0 ≤ lastOr options keepAlive? (defaultConnectSnKeepAlive * 1000) ∧
      pubkey.length = 32 ∧ p.conn.Reaches env.toEnv pubkey (lastOr options hint? "")
  | .connect (.remote _ _ _ _ options) => 0 ≤ lastOr options timeout? remoteConnectTimeout
  | .connect (.inproc _ _ _ options) => 0 ≤ lastOr options timeout? inprocConnectTimeout
  | .disconnect conn linger => p.conn.Disconnects linger { conn with route := "" }
  | .addTimer _ _ interval _ _ => 0 ≤ interval
  | .listen _ address _ onBind =>
    isInproc address = true ∨
      env.listenerError = none ∧ ∀ f ∈ onBind, (f env.good).isOk = true
  | .setActiveSns pubkeys =>
    ∀ pk ∈ p.conn.activeServiceNodes, pk ∉ pubkeys.1 → p.conn.Droppable cfg.commands.closeLinger pk
  | .updateActiveSns added removed =>
    ∀ pk ∈ removed.1, pk ∈ p.conn.activeServiceNodes → pk ∉ added.1 →
      p.conn.Droppable cfg.commands.closeLinger pk
  | .cancelTimer _ | .job _ _ | .batch _ | .injectTask _ _ _ _ | .quit => True

variable {cfg : ProxyConfig κ} {p : Proxy κ} {env : ControlEnv}

omit [Fintype κ] in
theorem throws_send (dest : ConnectionID) (cmd : String) (req : Option (String × Callback))
    (opts : List SendOption) :
    Throws (p.proxyControlMessage cfg env (.send (Control.message dest cmd req opts))) ↔
      ¬ p.conn.Sends env.toEnv (SendOption.asked dest cmd req opts) := by
  rw [proxyControlMessage, decodeSend_message, Except.ok_bind, throws_bind_pure,
    Conn.throws_proxySend]

omit [Fintype κ] in
theorem throws_connectSn (pubkey : String) (options : List ConnectOption) :
    Throws (p.proxyControlMessage cfg env
        (.connectSn (connectSn cfg.ephemeralRoutingId pubkey options))) ↔
      ¬ p.SafeCall cfg env (.connect (.sn pubkey options)) := by
  rw [proxyControlMessage, decode_connectSn, SafeCall]
  split
  · rename_i hneg
    exact iff_of_true (throws_bind.2 (Or.inl ⟨_, rfl⟩)) fun h => absurd hneg (not_lt.2 h.1)
  · rename_i hneg
    rw [Except.ok_bind, throws_bind_pure, and_iff_right (not_lt.1 hneg)]
    exact Conn.throws_proxyConnectSnMessage

omit [Fintype κ] in
/-- The message of `connect_remote` or `connect_inproc`. -/
theorem throws_connectRemote {base : Dict} {auth : Option AuthLevel} {time : Option ℤ} {id : ℤ}
    {onConnect onFailure : Callback} {pubkey : Option String} {remote : String}
    {options : List ConnectOption}
    (hauth : base.get? "auth_level" = auth.map fun a => .int a.toNat)
    (htime : base.get? "timeout" = time.map .int) (hrid : base.get? "ephemeral_rid" = none)
    (hpubkey : base.get? "pubkey" = none) (hid : id ≠ -1) (hremote : remote ≠ "") :
    Throws (p.proxyControlMessage cfg env (.connectRemote
        (remoteMessage base id onConnect onFailure pubkey remote options))) ↔
      ConnectOption.lastOr options ConnectOption.timeout? (time.getD remoteConnectTimeout) < 0 := by
  rw [proxyControlMessage, decode_remoteMessage _ _ _ _ _ _ _ hauth htime hrid hpubkey]
  split
  · rename_i hneg
    exact iff_of_true (throws_bind.2 (Or.inl ⟨_, rfl⟩)) hneg
  · rename_i hneg
    rw [Except.ok_bind]
    dsimp only
    rw [throws_bind_pure, Conn.throws_proxyConnectRemote]
    exact iff_of_false (fun h => h.elim hid hremote) hneg

omit [Fintype κ] in
theorem throws_bindMessage (b : BindRequest) :
    Throws (p.proxyControlMessage cfg env (.bind b)) ↔
      ¬ (env.listenerError = none ∧ ∀ f ∈ b.onBind, (f env.good).isOk = true) := by
  rw [proxyControlMessage, proxyBind, makeListener]
  cases env.listenerError with
  | some what => exact iff_of_true ⟨what, rfl⟩ (by simp)
  | none =>
    have hok : (none : Option String).elim (pure () : Except Abort Unit)
        (fun what => throw (.exception what)) = .ok () := rfl
    rw [hok, Except.ok_bind, throws_bind_pure, and_iff_right rfl]
    cases b.onBind with
    | none => exact iff_of_false (not_throws_ok _) (by simp)
    | some f =>
      rw [reportBind]
      cases hf : f env.good with
      | ok u => exact iff_of_false (not_throws_ok _) (by simp [hf, Except.isOk, Except.toBool])
      | error what => exact iff_of_true ⟨what, rfl⟩ (by simp [hf, Except.isOk, Except.toBool])

/-- **A call does not end the proxy thread if and only if it is safe**: it throws in the calling
thread before its message is sent, it sends no message, or the message is handled without an
exception. -/
theorem call_safe_iff {timers : Timers} {es : List Event}
    (hrun : Transition.run (step cfg) (start cfg timers) es = some p) (call : Call)
    (hid : ∀ id ∈ call.connId, id ∈ p.conn.allocated) :
    (∀ message, call.emit cfg.commands cfg.ephemeralRoutingId = .ok (some message) →
      ¬ Throws (p.proxyControlMessage cfg env message)) ↔ p.SafeCall cfg env call := by
  have hconn := run_connHistory hrun
  have hcounted := Conn.run_counted hconn
  have hok := (Conn.run_active hconn).1
  have hemit : ∀ {m₀ : ControlMessage κ},
      call.emit cfg.commands cfg.ephemeralRoutingId = .ok (some m₀) →
      ((∀ message, call.emit cfg.commands cfg.ephemeralRoutingId = .ok (some message) →
        ¬ Throws (p.proxyControlMessage cfg env message)) ↔
        ¬ Throws (p.proxyControlMessage cfg env m₀)) := by
    intro m₀ h₀
    refine ⟨fun h => h m₀ h₀, fun h message hmessage => ?_⟩
    rw [h₀] at hmessage
    cases hmessage
    exact h
  have hne : ∀ id ∈ call.connId, id ≠ -1 := fun id h heq => by
    have := hcounted.allocated_pos id (hid id h)
    omega
  cases call with
  | send dest cmd opts =>
    have h₀ : (Call.send dest cmd opts).emit cfg.commands cfg.ephemeralRoutingId =
        .ok (some (.send (message dest cmd none opts))) := rfl
    rw [hemit h₀, throws_send, not_not]
    rfl
  | request dest cmd callback replyTag opts =>
    have h₀ : (Call.request dest cmd callback replyTag opts).emit cfg.commands
        cfg.ephemeralRoutingId =
          .ok (some (.send (message dest cmd (some (replyTag, callback)) opts))) := rfl
    rw [hemit h₀, throws_send, not_not]
    rfl
  | connect call =>
    cases call with
    | sn pubkey options =>
      rw [hemit rfl, throws_connectSn, not_not]
    | remote address id onConnect onFailure options =>
      rw [hemit rfl, connectRemote_eq,
        @throws_connectRemote κ _ cfg p env SortedDict.empty none none
        _ _ _ _ _ _ rfl rfl rfl rfl (hne id rfl) address.zmqAddress_ne, not_lt]
      rfl
    | inproc id onConnect onFailure options =>
      rw [hemit rfl, connectInproc_eq, @throws_connectRemote κ _ cfg p env inprocDefaults
        (some .admin) (some inprocConnectTimeout) _ _ _ _ _ _ rfl rfl rfl rfl (hne id rfl)
        (by decide), not_lt]
      rfl
  | disconnect conn linger =>
    rw [hemit rfl, proxyControlMessage, decode_disconnect, Except.ok_bind]
    dsimp only
    rw [throws_bind_pure, Conn.throws_proxyDisconnectMessage, not_not]
    rfl
  | addTimer id f interval squelch thread =>
    rw [hemit rfl, proxyControlMessage, throws_bind_pure, decode_addTimer]
    split
    · rename_i hneg
      exact iff_of_false (not_not_intro ⟨_, rfl⟩) (not_le.2 hneg)
    · rename_i hneg
      exact iff_of_true (not_throws_ok _) (not_lt.1 hneg)
  | cancelTimer id => exact iff_of_true (fun _ h => by cases h; exact not_throws_ok _) trivial
  | job f thread =>
    refine iff_of_true (fun _ h => ?_) trivial
    rw [Call.emit] at h
    split at h
    · cases h
    · cases h
      exact not_throws_ok _
  | batch spec =>
    refine iff_of_true (fun _ h => ?_) trivial
    rw [Call.emit] at h
    split at h
    · cases h
    · cases h
      exact not_throws_ok _
  | injectTask category command remote callback =>
    refine iff_of_true (fun _ h => ?_) trivial
    rw [Call.emit] at h
    unfold injectTask at h
    split at h
    · cases h
    · split at h
      · cases h
      · cases h
        exact not_throws_ok _
  | listen curve address allow onBind =>
    by_cases hinproc : isInproc address = true
    · refine iff_of_true (fun _ h => ?_) (Or.inl hinproc)
      rw [Call.emit, Control.listen, if_pos hinproc] at h
      cases h
    · have h₀ : (Call.listen curve address allow onBind).emit cfg.commands cfg.ephemeralRoutingId =
          .ok (some (.bind ⟨address, curve, allow.getD allowNone, onBind⟩)) := by
        rw [Call.emit, Control.listen, if_neg hinproc]
        rfl
      rw [hemit h₀, throws_bindMessage, not_not]
      exact (or_iff_right hinproc).symm
  | setActiveSns pubkeys =>
    rw [hemit rfl, proxyControlMessage, throws_bind_pure,
      Conn.throws_proxySetActiveSns hok pubkeys.2]
    simp only [not_exists, not_and, not_not]
    rfl
  | updateActiveSns added removed =>
    rw [hemit rfl, proxyControlMessage, throws_bind_pure,
      Conn.throws_proxyUpdateActiveSns hok]
    simp only [not_exists, not_and, not_not]
    rfl
  | quit => exact iff_of_true (fun _ h => by cases h; exact not_throws_ok _) trivial

/-- Connecting to a service node in the first iteration of the loop. -/
theorem call_safe_connectSn :
    ∃ p, Transition.run (step smallProxy) (start smallProxy) [.begin] = some p ∧
      ∀ message, (Call.connect (.sn ConnectCall.somePubkey [])).emit smallProxy.commands
        smallProxy.ephemeralRoutingId = .ok (some message) →
        ¬ Throws (p.proxyControlMessage smallProxy {} message) := by
  have hrun : Transition.run (step smallProxy) (start smallProxy) [.begin] = some _ := rfl
  exact ⟨_, hrun, (call_safe_iff hrun (.connect (.sn ConnectCall.somePubkey [])) nofun).2
    ⟨by decide, by decide, Or.inr (Or.inr ⟨_, rfl⟩)⟩⟩

/-- A pubkey that is too short is only noticed by the proxy thread. -/
theorem shortPubkey_throws :
    ∃ p message, Transition.run (step smallProxy) (start smallProxy) [.begin] = some p ∧
      p.phase = .control ∧
      (Call.connect (.sn "short" [])).emit smallProxy.commands smallProxy.ephemeralRoutingId =
        .ok (some message) ∧
      p.proxyControlMessage smallProxy {} message =
        .error (.exception "Invalid pubkey: expected 32 bytes") :=
  ⟨_, _, rfl, rfl, rfl, rfl⟩

end Proxy

end OxenMQ
