import OxenMQ.Connections.Gating

/-!
# Where an authentication level comes from

`proxy_check_auth` compares the level that a category asks for with the level of the sender, and the
level of the sender is what `proxy_to_worker` finds in its record, or makes a new record of:

* on a listening socket it is what the authentication of the connection has attached to the message,
  and `admin` on the in-process listener;
* on a connection of our own it is what the record under the key of the connection says.

The record of a connection that `connect_remote` or `connect_inproc` has opened is under its number,
and keeps the level that the call has asked for (`Conn.run_levels`).  A connection to a service node
has the level `none`, but it is found under the pubkey of the service node, and there may be a
record of the same service node on a listening socket under this key.  Then the message is taken to
have the level that the service node has there (`Conn.findPeer_level`).
-/

set_option autoImplicit false

namespace OxenMQ

variable {κ : Type}

/-- What a record of `peers` says about the level of a remote: the key, the connection, the route,
and the level. -/
structure LevelEntry where
  key : ConnectionID
  connId : ℤ
  route : String
  level : AuthLevel
  deriving DecidableEq, Repr

namespace Conn

def levelEntry (e : ConnectionID × PeerInfo) : LevelEntry :=
  ⟨e.1, e.2.connId, e.2.route, e.2.authLevel⟩

/-- The levels of all records. -/
def levels (c : Conn) : List LevelEntry := c.peers.map levelEntry

/-- The level that comes with a message on the listening socket `connId`. -/
def shownLevel (cfg : Config κ) (inproc connId : ℤ) (m : Incoming) : AuthLevel :=
  if connId = inproc then .admin else (cfg.extractMetadata m).2

/-- The event makes a record that says so. -/
def Grants (cfg : Config κ) (inproc : ℤ) (ev : ConnEvent) (x : LevelEntry) : Prop :=
  match ev with
  | .connectRemote _ r => x = ⟨⟨r.connId, r.pubkey, ""⟩, r.connId, "", r.authLevel⟩
  | .connectSn _ _ => x.route = "" ∧ x.key.sn = true ∧ x.level = .none
  | .send _ _ => x.route = "" ∧ x.key.sn = true ∧ x.level = .none
  | .message _ _ connId router m =>
    router = true ∧ x.connId = connId ∧ x.route = m.parts.getD 0 "" ∧
      x.key.pk = provedKey cfg inproc connId m ∧ x.level = shownLevel cfg inproc connId m
  | _ => False

/-- One of the events has made a record that says so. -/
def Granted (cfg : Config κ) (es : List ConnEvent) (x : LevelEntry) : Prop :=
  Transition.Happened (step cfg) start es fun c ev _ => Grants cfg c.inprocListenerConnid ev x

/-- What the records say they said before, or it is one of the new ones. -/
def LevelsFrom (new : LevelEntry → Prop) (c c' : Conn) : Prop :=
  ∀ x ∈ c'.levels, x ∈ c.levels ∨ new x

variable {cfg : Config κ} {c c' : Conn} {new : LevelEntry → Prop}

namespace LevelsFrom

theorem refl (c : Conn) : LevelsFrom new c c := fun _ => Or.inl

theorem trans {d : Conn} (h : LevelsFrom new c c') (h' : LevelsFrom new c' d) :
    LevelsFrom new c d := fun x hx => (h' x hx).elim (h x) Or.inr

end LevelsFrom

/-! ## What an event does -/

theorem incomingPeer_authLevel (cfg : Config κ) (c : Conn) (connId : ℤ) (m : Incoming) :
    (incomingPeer cfg c connId m).authLevel = shownLevel cfg c.inprocListenerConnid connId m := by
  unfold incomingPeer shownLevel
  dsimp only
  split <;> rfl

theorem grants_of_snTarget {inproc id : ℤ} {ev : ConnEvent} {pk : String}
    (h : ev.snTarget = some pk) : Grants cfg inproc ev ⟨⟨snId, pk, ""⟩, id, "", .none⟩ := by
  cases ev with
  | connectSn env r => exact ⟨rfl, rfl, rfl⟩
  | send env r => exact ⟨rfl, rfl, rfl⟩
  | _ => cases h

/-- A message on a listening socket shows the level of its sender. -/
theorem grants_of_message {ev : ConnEvent} {env : Env} {immediate : Bool} {connId : ℤ}
    {m : Incoming} {x : LevelEntry} (hev : ev = .message env immediate connId true m)
    (hid : x.connId = connId) (hroute : x.route = (incomingPeer cfg c connId m).route)
    (hpk : x.key.pk = (incomingPeer cfg c connId m).pubkey)
    (hlevel : x.level = (incomingPeer cfg c connId m).authLevel) :
    Grants cfg c.inprocListenerConnid ev x := by
  subst hev
  rw [incomingPeer_route] at hroute
  rw [incomingPeer_pubkey] at hpk
  rw [incomingPeer_authLevel] at hlevel
  exact ⟨rfl, hid, hroute, hpk, hlevel⟩

theorem Change.levels {ev : ConnEvent} {o : Option ℤ} (h : Change cfg ev o c c') :
    LevelsFrom (Grants cfg c.inprocListenerConnid ev) c c' := by
  intro x hx
  obtain ⟨e', he', rfl⟩ := List.mem_map.1 hx
  rcases h.mem_peers he' with ⟨e, he, ht⟩ | hadded
  · rcases ht.authLevel with hsame | ⟨env, immediate, m, hev, hpk, hroute, hlevel⟩
    · refine Or.inl (List.mem_map.2 ⟨e, he, ?_⟩)
      rw [levelEntry, levelEntry, ht.key, ht.connId, ht.route, hsame]
    · exact Or.inr (grants_of_message hev ht.connId (ht.route.trans hroute)
        ((congrArg ConnectionID.pk ht.key).trans hpk) hlevel)
  · cases hadded with
    | sn id hev => exact Or.inr (grants_of_snTarget hev)
    | remote hev =>
      subst hev
      exact Or.inr rfl
    | incoming hev hp =>
      exact Or.inr (grants_of_message hev rfl (congrArg PeerInfo.route hp)
        (congrArg PeerInfo.pubkey hp) (congrArg PeerInfo.authLevel hp))

/-- **What an event does to the levels.** -/
theorem step_levels {ev : ConnEvent} (h : step cfg c ev = some c') :
    LevelsFrom (Grants cfg c.inprocListenerConnid ev) c c' := by
  obtain ⟨o, hchanges⟩ := step_changes h
  refine (hchanges.induction (P := fun s => s.inprocListenerConnid = c.inprocListenerConnid ∧
    LevelsFrom (Grants cfg c.inprocListenerConnid ev) c s) ?_ ⟨rfl, .refl c⟩).2
  rintro o s s' ⟨hinproc, hs⟩ hchange
  exact ⟨hchange.frame.2.2.trans hinproc, hs.trans (hinproc ▸ hchange.levels)⟩

/-- **Every record says what it was made or last brought up to date with**, after every run. -/
theorem run_levels {es : List ConnEvent} (h : Transition.run (step cfg) start es = some c) :
    ∀ x ∈ c.levels, Granted cfg es x := by
  refine Transition.run_induction_history
    (P := fun es c => ∀ x ∈ c.levels, Granted cfg es x) ?_ ?_ h
  · intro x hx
    cases hx
  · intro es c ev c' hrun ih hs x hx
    refine (Transition.happened_snoc hrun hs).2 ?_
    exact (step_levels hs x hx).imp_left (ih x)

/-! ## The level of a sender -/

/-- A call has asked for this level when it opened the connection. -/
def LevelAsked (cfg : Config κ) (es : List ConnEvent) (id : ℤ) (level : AuthLevel) : Prop :=
  Transition.Happened (step cfg) start es fun _ ev _ =>
    ∃ env r, ev = .connectRemote env r ∧ r.connId = id ∧ r.authLevel = level

/-- The owner of `pk` has come with this level on a listening socket. -/
def LevelShownBy (cfg : Config κ) (es : List ConnEvent) (pk : String) (level : AuthLevel) : Prop :=
  Transition.Happened (step cfg) start es fun c ev _ =>
    ∃ env immediate id m, ev = .message env immediate id true m ∧
      provedKey cfg c.inprocListenerConnid id m = pk ∧
      shownLevel cfg c.inprocListenerConnid id m = level

/-- `level` is the level of the sender of `m`: what was attached to the message on a listening
socket; otherwise what the call asked for that opened the connection or, if that is one to a service
node, none or the level that the service node has come with. -/
def SenderLevel (cfg : Config κ) (es : List ConnEvent) (c : Conn) (connId : ℤ) (router : Bool)
    (m : Incoming) (level : AuthLevel) : Prop :=
  if router then level = shownLevel cfg c.inprocListenerConnid connId m
  else
    match c.outgoingSnConns.lookup connId with
    | none => LevelAsked cfg es connId level
    | some k => level = .none ∨ LevelShownBy cfg es k.pk level

/-- A record under a number is that of a connection that a call has opened. -/
theorem Granted.asked {es : List ConnEvent} {x : LevelEntry} (h : Granted cfg es x)
    (hsn : x.key.sn = false) (hroute : x.route = "") : LevelAsked cfg es x.connId x.level := by
  obtain ⟨pre, ev, post, s, s', hes, hs, hs', hgrants⟩ := h
  refine ⟨pre, ev, post, s, s', hes, hs, hs', ?_⟩
  cases ev with
  | connectRemote env r =>
    obtain rfl := hgrants
    exact ⟨env, r, rfl, rfl, rfl⟩
  | connectSn env r =>
    rw [hgrants.2.1] at hsn
    cases hsn
  | send env r =>
    rw [hgrants.2.1] at hsn
    cases hsn
  | message env immediate connId router m =>
    obtain ⟨rfl, _, hx, _⟩ := hgrants
    rw [step] at hs'
    split at hs'
    · exact absurd (hx.symm.trans hroute) (canReceive_router ‹_›).2
    · cases hs'
  | _ => exact hgrants.elim

/-- A record under a pubkey is that of a connection to the service node, or of a service node that
has come to us. -/
theorem Granted.shown {es : List ConnEvent} {x : LevelEntry} (h : Granted cfg es x)
    (hsn : x.key.sn = true) : x.level = .none ∨ LevelShownBy cfg es x.key.pk x.level := by
  obtain ⟨pre, ev, post, s, s', hes, hs, hs', hgrants⟩ := h
  cases ev with
  | connectRemote env r =>
    obtain rfl := hgrants
    rw [step] at hs'
    split at hs'
    · rename_i hid
      have hpos := (run_counted hs).allocated_pos _ hid
      have hsn' : (ConnectionID.mk r.connId r.pubkey "").sn = false :=
        ConnectionID.sn_ofId_of_pos hpos
      cases hsn'.symm.trans hsn
    · cases hs'
  | connectSn env r => exact Or.inl hgrants.2.2
  | send env r => exact Or.inl hgrants.2.2
  | message env immediate connId router m =>
    obtain ⟨rfl, _, _, hpk, hlevel⟩ := hgrants
    exact Or.inr ⟨pre, _, post, s, s', hes, hs, hs', env, immediate, connId, m, rfl, hpk.symm,
      hlevel.symm⟩
  | _ => exact hgrants.elim

/-- There is no record of a service node without a pubkey, so none is found under a number. -/
theorem Filed.sn_of_eq {auth : ℤ → String → String → Prop} (h : c.Filed auth) {connId : ℤ}
    {e : ConnectionID × PeerInfo} (he : e ∈ c.peers) (hkey : e.1.eq (.ofId connId) = true) :
    e.1.sn = false := by
  by_contra hne
  have hsn : e.1.sn = true := by simpa using hne
  have hsn' : (ConnectionID.ofId connId).sn = true := by
    rw [← hsn, ConnectionID.sn, ConnectionID.sn, ConnectionID.id_eq_of_eq hkey]
  have hpk : e.1.pk = "" := ((ConnectionID.eq_sn_iff hsn').1 hkey).2
  exact length_ne_empty (h.length e he hsn) hpk

/-- The peer that a message is taken to be from has the level of its sender. -/
theorem findPeer_level {es : List ConnEvent} (hrun : Transition.run (step cfg) start es = some c)
    {pos : ℕ} {connId : ℤ} {router : Bool} {m : Incoming} {peer : PeerInfo} {route : String}
    (h : findPeer cfg c pos connId router m = .ok (c', some (peer, route))) :
    SenderLevel cfg es c connId router m peer.authLevel := by
  have hlevel := incomingPeer_authLevel cfg c connId m
  have hfiled := run_filed hrun
  unfold findPeer at h
  dsimp only at h
  cases router with
  | true =>
    rw [if_pos rfl] at h
    split at h
    · obtain ⟨cid, _, h⟩ := Except.bind_eq_ok.1 h
      split at h
      · cases h
        exact hlevel
      · cases h
        exact hlevel
    · cases h
      exact hlevel
  | false =>
    rw [if_neg Bool.false_ne_true] at h
    split at h
    · cases h
    · rename_i k found hfind
      cases h
      have hmem := List.mem_of_find?_eq_some hfind
      have hkey := List.find?_some hfind
      have hgranted := run_levels hrun _ (List.mem_map_of_mem (f := levelEntry) hmem)
      have hsame : ∀ active : List String, (if found.pubkey = "" then found
          else { found with serviceNode := decide (found.pubkey ∈ active) }).authLevel =
          found.authLevel := fun active => by split <;> rfl
      rw [SenderLevel, if_neg Bool.false_ne_true, hsame]
      cases hlookup : c.outgoingSnConns.lookup connId with
      | some j =>
        rw [hlookup, Option.getD_some] at hkey
        obtain ⟨hsn, _, _⟩ := hfiled.index connId j hlookup
        obtain ⟨hsn', hpk⟩ := (ConnectionID.eq_sn_iff hsn).1 hkey
        have hshown := hgranted.shown hsn'
        rw [show (levelEntry (k, found)).key.pk = j.pk from hpk] at hshown
        exact hshown
      | none =>
        rw [hlookup, Option.getD_none] at hkey
        obtain ⟨hid, hroute⟩ := hfiled.own_of_eq hmem hkey
        have hasked := hgranted.asked (hfiled.sn_of_eq hmem hkey) hroute
        rwa [show (levelEntry (k, found)).connId = connId from hid] at hasked

/-- What is passed on to a worker is what the message says. -/
theorem arrival_command {pos : ℕ} {connId : ℤ} {router : Bool} {m : Incoming} {a : Arrival κ}
    (h : arrival cfg c pos connId router m = .ok (c', some a)) :
    cfg.getCommand (m.parts.getD router.toNat "") = (a.command, some (a.cat, a.callback)) ∧
      a.dataParts = m.parts.drop (router.toNat + 1) := by
  obtain ⟨⟨c₁, found⟩, _, h⟩ := Except.bind_eq_ok.1 h
  dsimp only at h
  split at h
  · cases h
  · split at h
    · cases h
    · rename_i hcall
      cases h
      exact ⟨Prod.ext rfl hcall, rfl⟩
    · cases h

/-- The message `m` on the connection `connId` may invoke the command of `a`: it names the command,
and its sender has what the category asks for at this moment. -/
structure Authorised (cfg : Config κ) (es : List ConnEvent) (c : Conn) (connId : ℤ) (router : Bool)
    (m : Incoming) (a : Arrival κ) : Prop where
  /-- The message names the command, by its name or an alias, and the rest is the data. -/
  command : cfg.getCommand (m.parts.getD router.toNat "") = (a.command, some (a.cat, a.callback))
  data : a.dataParts = m.parts.drop (router.toNat + 1)
  /-- The sender has the level that the category asks for. -/
  level : SenderLevel cfg es c connId router m a.access.auth
  enough : (cfg.access a.cat).auth.toNat ≤ a.access.auth.toNat
  localSn : (cfg.access a.cat).localSn = true → cfg.localServiceNode = true
  /-- If the category is for service nodes, the sender is one, by the list as it is now. -/
  remoteSn : (cfg.access a.cat).remoteSn = true →
    ∃ pk, Sender cfg es c connId router m pk ∧ pk ∈ activeAfter es
  tag : a.callback.isRequest = true → a.dataParts ≠ []

theorem authorised_of_receive {es : List ConnEvent}
    (hrun : Transition.run (step cfg) start es = some c) {env : Env} {immediate : Bool} {connId : ℤ}
    {router : Bool} {m : Incoming} {a : Arrival κ}
    (h : receive cfg c env immediate connId router m = .ok (c', some a)) :
    Authorised cfg es c connId router m a := by
  obtain ⟨c₁, harrival⟩ := arrival_of_receive h
  obtain ⟨peer, route, hfind, hpass, haccess, _⟩ := arrival_some harrival
  obtain ⟨hcommand, hdata⟩ := arrival_command harrival
  obtain ⟨hlevel, hlocal, hremote, htag⟩ := Config.rejection_eq_none.1 hpass
  obtain ⟨hok, hactive⟩ := run_active hrun
  obtain ⟨hsender, hflag⟩ := findPeer_serviceNode (run_filed hrun) hok hfind
  refine ⟨hcommand, hdata, ?_, ?_, hlocal, fun hrequired => ?_, htag⟩
  · rw [haccess]
    exact findPeer_level hrun hfind
  · rw [haccess]
    exact hlevel
  · exact ⟨peer.pubkey, hsender, (hactive _).1 (hflag.1 (hremote hrequired))⟩

end Conn

end OxenMQ
