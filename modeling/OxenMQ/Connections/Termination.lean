import OxenMQ.Connections.Spec
import OxenMQ.Connections.System

/-!
# Does sending end?

`proxy_send` tries one connection of a service node after the other.  When an incoming one turns out
to be dead its record is removed and the next one is tried, so there is one record less with every
try.  The record to remove is looked for by its route, among all the records of the service node,
and that loop has no step: it ends only if the first record is the one.

`Conn.Stuck` says exactly when it is not.  The caller wants an incoming connection, so the records
of outgoing ones are passed over, and there is such a record in front of an incoming one that is
dead (`Conn.proxySend_endless_iff`).  In all other cases sending ends, and each further try comes
after the removal of the very record that was tried (`Conn.sendTurn_again`).
-/

set_option autoImplicit false

namespace OxenMQ

namespace Conn

variable {c c' : Conn} {env : Env} {r : SendRequest} {conn : ConnectionID} {n : ℕ}

/-! ## The records of a service node -/

/-- The record that is tried: the first one of the service node that may be used. -/
def tried (r : SendRequest) (range : List (ConnectionID × PeerInfo)) :
    Option (ConnectionID × PeerInfo) :=
  range.find? fun e => usablePeer r.incoming r.outgoing e.2

theorem tried_cons (f : ConnectionID × PeerInfo) (rest : List (ConnectionID × PeerInfo)) :
    tried r (f :: rest) =
      if usablePeer r.incoming r.outgoing f.2 then some f else tried r rest := by
  rw [tried, List.find?_cons]
  split
  · rename_i h
    rw [h, if_pos rfl]
  · rename_i h
    rw [h, if_neg Bool.false_ne_true, tried]

theorem usable_of_tried {range : List (ConnectionID × PeerInfo)} {e : ConnectionID × PeerInfo}
    (h : tried r range = some e) : usablePeer r.incoming r.outgoing e.2 = true := by
  have husable := List.find?_some h
  exact husable

/-- The connection of `p` is an incoming one, and attempt `n` finds it dead. -/
def Dead (c : Conn) (env : Env) (n : ℕ) (p : PeerInfo) : Prop :=
  p.outgoing = false ∧ (∃ s, c.connections.lookup p.connId = some s ∧ s.isOpen = true) ∧
    ∃ what, env.send n = .error true what

theorem eq_ofPubkey (hsn : conn.sn = true) (k : ConnectionID) :
    k.eq ⟨snId, conn.pk, ""⟩ = k.eq conn := by
  rw [Bool.eq_iff_iff, ConnectionID.eq_sn_iff rfl, ConnectionID.eq_sn_iff hsn]

theorem find?_usable (hsn : conn.sn = true) :
    c.peers.find? (fun e => e.1.eq ⟨snId, conn.pk, ""⟩ && usablePeer r.incoming r.outgoing e.2) =
      tried r (c.equalRange conn) := by
  simp only [tried, equalRange, List.find?_filter, eq_ofPubkey hsn, Bool.decide_and,
    Bool.decide_eq_true]

/-- The route is not part of a service node's key. -/
theorem eq_route (hsn : conn.sn = true) (route : String) (k : ConnectionID) :
    k.eq { conn with route := route } = k.eq conn := by
  have hsn' : ({ conn with route := route } : ConnectionID).sn = true := hsn
  rw [← eq_ofPubkey hsn, ← eq_ofPubkey hsn']

/-! ## Which record is tried -/

/-- The record of an incoming connection is left as it is. -/
theorem modifyFirst_touch {p : ConnectionID × PeerInfo → Bool} {now keepAlive : ℤ}
    {es : List (ConnectionID × PeerInfo)} {e : ConnectionID × PeerInfo}
    (hfind : es.find? p = some e) (hin : e.2.outgoing = false) :
    Multimap.modifyFirst p (fun e => (e.1, e.2.touch now keepAlive)) es = es := by
  induction es with
  | nil => cases hfind
  | cons a es ih =>
    rw [Multimap.modifyFirst]
    cases ha : p a with
    | true =>
      rw [List.find?_cons_of_pos ha] at hfind
      cases hfind
      rw [if_pos rfl, PeerInfo.touch, if_neg (by simp [hin])]
    | false =>
      rw [List.find?_cons_of_neg (by simp [ha])] at hfind
      rw [if_neg Bool.false_ne_true, ih hfind]

theorem sendTarget_tried {e : ConnectionID × PeerInfo} (hsn : conn.sn = true)
    (hlen : conn.pk.length = 32) (htried : tried r (c.equalRange conn) = some e)
    (hin : e.2.outgoing = false) :
    c.sendTarget env r conn =
      .ok (c.indexConnection e.2.connId, some (e.2.connId, { conn with route := e.2.route })) := by
  have hfind := (find?_usable hsn).trans htried
  have hconnect :
      c.proxyConnectSn env conn.pk r.hint r.isOptional r.incoming r.outgoing r.keepAlive =
      .ok (c.indexConnection e.2.connId, some (e.2.connId, e.2.route)) := by
    rw [proxyConnectSn, ConnectionID.ofPubkey_ok.2 ⟨hlen, rfl⟩, Except.ok_bind]
    dsimp only
    rw [hfind]
    simp only [reuseSn, modifyFirst_touch hfind hin]
    rfl
  rw [sendTarget, if_pos hsn, hconnect]
  rfl

/-- An incoming connection is only used if its record has been found. -/
theorem sendTarget_sn_ok (hsn : conn.sn = true) {id : ℤ} {conn' : ConnectionID}
    (h : c.sendTarget env r conn = .ok (c', some (id, conn'))) (hroute : conn'.route ≠ "") :
    conn.pk.length = 32 ∧ ∃ e, tried r (c.equalRange conn) = some e ∧ e.2.outgoing = false ∧
      e.2.connId = id := by
  rw [sendTarget, if_pos hsn] at h
  obtain ⟨⟨c₁, s⟩, hconnect, h⟩ := Except.bind_eq_ok.1 h
  have hlen : conn.pk.length = 32 := by
    obtain ⟨cid, hcid, _⟩ := Except.bind_eq_ok.1 hconnect
    exact (ConnectionID.ofPubkey_ok.1 hcid).1
  refine ⟨hlen, ?_⟩
  rcases proxyConnectSn_ok hconnect with ⟨e, hfind, rfl, rfl⟩ | ⟨_, _, rfl⟩ | ⟨_, _, _, _, rfl⟩
  · cases h
    exact ⟨e, (find?_usable hsn).symm.trans hfind, by simpa [PeerInfo.outgoing] using hroute, rfl⟩
  · cases h
  · cases h
    exact absurd rfl hroute

theorem sendTarget_error {e : Abort} (h : c.sendTarget env r conn = .error e) :
    ∃ what, e = .exception what := by
  unfold sendTarget at h
  split at h
  · rcases Except.bind_eq_error.1 h with h | ⟨_, _, h⟩
    · exact proxyConnectSn_error h
    · cases h
  · split at h
    · cases h
    · split at h <;> cases h

/-! ## How a turn ends -/

/-- The turn is the last one. -/
def Last (turn : Except Abort (Conn × Turn)) : Prop :=
  (∃ c turn', turn = .ok (c, turn') ∧ ∀ id conn, turn' ≠ .again id conn) ∨
    ∃ what, turn = .error (.exception what)

/-- A socket that refuses a message as undeliverable is open. -/
theorem isOpen_of_sendOn {id : ℤ} {what : String}
    (h : (c.indexConnection id).sendOn id (env.send n) = .error true what) :
    (∃ s, c.connections.lookup id = some s ∧ s.isOpen = true) ∧ env.send n = .error true what := by
  unfold sendOn at h
  split at h
  · cases h
  · rename_i hnull
    refine ⟨?_, h⟩
    unfold indexConnection at hnull
    split at hnull
    · rename_i hmem
      obtain ⟨s, hs⟩ := Option.isSome_iff_exists.1 (AList.lookup_isSome.2 hmem)
      refine ⟨s, hs, ?_⟩
      cases s with
      | null => exact absurd hs hnull
      | router => rfl
      | dealer => rfl
    · exact absurd (AList.lookup_insert _) hnull

/-- Only an incoming connection of a service node leads to another try. -/
theorem handleSendError_last {unreachable : Bool}
    (h : conn.sn = true → unreachable = true → conn.route = "") :
    ∃ c', c.handleSendError unreachable conn = .ok (c', false) := by
  unfold handleSendError
  split
  · rename_i hroute
    rw [Bool.and_eq_true, bne_iff_ne] at hroute
    have hsn : ¬ conn.sn = true := fun hsn => hroute.2 (h hsn hroute.1)
    unfold dropUnreachable
    split
    · exact ⟨c, rfl⟩
    · exact ⟨_, if_neg hsn⟩
  · exact ⟨c, rfl⟩

/-- **Dead connections apart, there is no other turn.** -/
theorem sendTurn_last (h : ¬ (conn.sn = true ∧ conn.pk.length = 32 ∧
      ∃ e, tried r (c.equalRange conn) = some e ∧ Dead c env n e.2)) :
    Last (sendTurn env r n conn c) := by
  unfold sendTurn
  cases htarget : c.sendTarget env r conn with
  | error e =>
    obtain ⟨what, rfl⟩ := sendTarget_error htarget
    exact Or.inr ⟨what, rfl⟩
  | ok p =>
    obtain ⟨c₁, target⟩ := p
    cases target with
    | none => exact Or.inl ⟨_, _, rfl, by simp⟩
    | some s =>
      obtain ⟨id, conn₁⟩ := s
      rw [Except.ok_bind]
      dsimp only
      split
      · exact Or.inl ⟨_, _, rfl, by simp⟩
      · exact Or.inl ⟨_, _, rfl, by simp⟩
      · rename_i unreachable what hsend
        have hown : conn₁.sn = true → unreachable = true → conn₁.route = "" := by
          rintro hsn₁ rfl
          by_contra hroute
          have hsn : conn.sn = true := by
            rw [ConnectionID.sn, ← (sendTarget_dest htarget).1]
            exact hsn₁
          obtain ⟨hlen, e, htried, hin, rfl⟩ := sendTarget_sn_ok hsn htarget hroute
          rw [sendTarget_tried hsn hlen htried hin] at htarget
          cases htarget
          obtain ⟨hopen, hsend⟩ := isOpen_of_sendOn hsend
          exact h ⟨hsn, hlen, e, htried, hin, hopen, what, hsend⟩
        obtain ⟨c₂, hgives⟩ := @handleSendError_last
          { c₁ with wire := c₁.wire ++ [(id, buildSendParts r.send conn₁.route)] } _ _ hown
        rw [hgives]
        exact Or.inl ⟨_, _, rfl, by simp⟩

theorem dropUnreachable_sn {f : ConnectionID × PeerInfo} {rest : List (ConnectionID × PeerInfo)}
    (hsn : conn.sn = true) (hrange : c.equalRange conn = f :: rest) (route : String) :
    c.dropUnreachable { conn with route := route } =
      if f.2.route = route then
        .ok ({ c with peers := c.peers.eraseP fun e => e.1.eq conn }, true)
      else .error .endless := by
  have hrange' : c.equalRange { conn with route := route } = f :: rest := by
    simp only [equalRange, eq_route hsn]
    exact hrange
  rw [dropUnreachable, hrange']
  simp only [eq_route hsn]
  exact if_pos hsn

/-- After a dead connection the record at the front is looked at. -/
theorem sendTurn_dead {e f : ConnectionID × PeerInfo} {rest : List (ConnectionID × PeerInfo)}
    (hsn : conn.sn = true) (hlen : conn.pk.length = 32) (hrange : c.equalRange conn = f :: rest)
    (htried : tried r (f :: rest) = some e) (hdead : Dead c env n e.2) :
    sendTurn env r n conn c =
      if f.2.route = e.2.route then
        .ok ({ c with
          peers := c.peers.eraseP fun e => e.1.eq conn
          wire := c.wire ++ [(e.2.connId, buildSendParts r.send e.2.route)] },
          .again e.2.connId { conn with route := e.2.route })
      else .error .endless := by
  obtain ⟨hin, ⟨s, hs, hopen⟩, what, hsend⟩ := hdead
  rw [← hrange] at htried
  have hindex : c.indexConnection e.2.connId = c :=
    if_pos (AList.lookup_isSome.1 (Option.isSome_of_eq_some hs))
  have hout : sendOn { c with wire := c.wire ++ [(e.2.connId, buildSendParts r.send e.2.route)] }
      e.2.connId (env.send n) = .error true what := by
    rw [sendOn, if_neg, hsend]
    rw [hs]
    rintro ⟨⟩
    cases hopen
  have hroute : (e.2.route != "") = true := by
    rw [bne, ← PeerInfo.outgoing, hin]
    rfl
  rw [sendTurn, sendTarget_tried hsn hlen htried hin, Except.ok_bind]
  dsimp only
  rw [hindex, hout]
  dsimp only
  rw [handleSendError, hroute, Bool.and_self, if_pos rfl, dropUnreachable_sn hsn (by exact hrange)]
  split
  · rfl
  · rfl

/-- Whether a record may be used is a matter of its route, so the first one with the route that was
tried is the one. -/
theorem eq_of_tried {e f : ConnectionID × PeerInfo} {rest : List (ConnectionID × PeerInfo)}
    (htried : tried r (f :: rest) = some e) (hroute : f.2.route = e.2.route) : f = e := by
  have husable : usablePeer r.incoming r.outgoing f.2 = true := by
    rw [usablePeer, PeerInfo.outgoing, hroute]
    exact usable_of_tried htried
  rw [tried_cons, if_pos husable] at htried
  exact Option.some.inj htried

/-- **Each further try comes after the removal of the record that was tried.** -/
theorem sendTurn_again {id : ℤ} {conn' : ConnectionID}
    (h : sendTurn env r n conn c = .ok (c', .again id conn')) :
    conn.sn = true ∧ ∃ e, tried r (c.equalRange conn) = some e ∧ Dead c env n e.2 ∧
      e.2.connId = id ∧ conn' = { conn with route := e.2.route } ∧
      c.equalRange conn = e :: c'.equalRange conn' ∧ c.peers.Perm (e :: c'.peers) ∧
      c'.connections = c.connections := by
  by_cases hcond : conn.sn = true ∧ conn.pk.length = 32 ∧
      ∃ e, tried r (c.equalRange conn) = some e ∧ Dead c env n e.2
  · obtain ⟨hsn, hlen, e, htried, hdead⟩ := hcond
    cases hrange : c.equalRange conn with
    | nil =>
      rw [hrange] at htried
      cases htried
    | cons f rest =>
      rw [hrange] at htried
      rw [sendTurn_dead hsn hlen hrange htried hdead] at h
      split at h
      · rename_i hroute
        obtain rfl := eq_of_tried htried hroute
        cases h
        have hfront : c.peers.find? (fun e => e.1.eq conn) = some f := by
          rw [← List.head?_filter]
          exact congrArg List.head? hrange
        refine ⟨hsn, f, htried, hdead, rfl, rfl, ?_, Multimap.perm_cons_eraseP hfront, rfl⟩
        simp only [equalRange, eq_route hsn, Multimap.filter_eraseP]
        exact congrArg (fun l => f :: l.tail) hrange.symm
      · cases h
  · rcases sendTurn_last hcond with ⟨_, turn, hturn, hlast⟩ | ⟨_, hlast⟩
    · rw [hturn] at h
      cases h
      exact absurd rfl (hlast id conn')
    · rw [hlast] at h
      cases h

/-! ## The loop -/

/-- The connections of these records are dead when they are tried one after the other. -/
def AllDead (c : Conn) (env : Env) (n : ℕ) (es : List (ConnectionID × PeerInfo)) : Prop :=
  ∀ i p, es[i]? = some p → Dead c env (n + i) p.2

theorem allDead_cons {e : ConnectionID × PeerInfo} {es : List (ConnectionID × PeerInfo)} :
    c.AllDead env n (e :: es) ↔ Dead c env n e.2 ∧ c.AllDead env (n + 1) es := by
  constructor
  · refine fun h => ⟨h 0 e rfl, fun i p hp => ?_⟩
    rw [Nat.add_right_comm]
    exact h (i + 1) p hp
  · rintro ⟨he, hes⟩ i p hp
    cases i with
    | zero =>
      cases hp
      exact he
    | succ i =>
      rw [← Nat.add_assoc, Nat.add_right_comm]
      exact hes i p hp

/-- The scan for a dead record stops at the record of an outgoing connection: some records in front
are of connections that are dead, then there is one of an outgoing connection, and the next one that
is tried is dead as well. -/
def StuckOn (c : Conn) (env : Env) (n : ℕ) (range : List (ConnectionID × PeerInfo)) : Prop :=
  ∃ (dead : List (ConnectionID × PeerInfo)) (out : ConnectionID × PeerInfo)
    (rest : List (ConnectionID × PeerInfo)) (e : ConnectionID × PeerInfo),
    range = dead ++ out :: rest ∧ c.AllDead env n dead ∧
    out.2.outgoing = true ∧ rest.find? (fun e => !e.2.outgoing) = some e ∧
    Dead c env (n + dead.length) e.2

/-- When `proxy_send` does not return: an incoming connection of a service node has to be used, and
the scan for the dead record of one stops at a record of a connection of ours. -/
def Stuck (c : Conn) (env : Env) (r : SendRequest) : Prop :=
  r.conn.sn = true ∧ r.conn.pk.length = 32 ∧ r.incoming = true ∧ r.outgoing = false ∧
    c.StuckOn env 0 (c.equalRange r.conn)

theorem stuckOn_cons_dead {f : ConnectionID × PeerInfo} {rest : List (ConnectionID × PeerInfo)}
    (hdead : Dead c env n f.2) : c.StuckOn env n (f :: rest) ↔ c.StuckOn env (n + 1) rest := by
  constructor
  · rintro ⟨dead, out, rest', e, hrange, hall, hout, hfind, he⟩
    cases dead with
    | nil =>
      cases hrange
      rw [hdead.1] at hout
      cases hout
    | cons f' dead =>
      cases hrange
      refine ⟨dead, out, rest', e, rfl, (allDead_cons.1 hall).2, hout, hfind, ?_⟩
      rw [Nat.add_right_comm]
      exact he
  · rintro ⟨dead, out, rest', e, rfl, hall, hout, hfind, he⟩
    refine ⟨f :: dead, out, rest', e, rfl, allDead_cons.2 ⟨hdead, hall⟩, hout, hfind, ?_⟩
    rw [List.length_cons, ← Nat.add_assoc, Nat.add_right_comm]
    exact he

/-- If only incoming connections are asked for, `tried` finds the first of them. -/
theorem tried_incoming (hin : r.incoming = true) (hout : r.outgoing = false)
    (range : List (ConnectionID × PeerInfo)) :
    tried r range = range.find? fun e => !e.2.outgoing := by
  simp [tried, usablePeer, hin, hout]

/-- Being stuck means that a dead connection is tried. -/
theorem StuckOn.tried {range : List (ConnectionID × PeerInfo)} (hin : r.incoming = true)
    (hout : r.outgoing = false) (h : c.StuckOn env n range) :
    ∃ e, tried r range = some e ∧ Dead c env n e.2 := by
  obtain ⟨dead, out, rest, e, rfl, hall, hout', hfind, he⟩ := h
  rw [tried_incoming hin hout]
  cases dead with
  | nil =>
    refine ⟨e, ?_, he⟩
    rw [List.nil_append, List.find?_cons_of_neg (by simp [hout']), hfind]
  | cons f dead =>
    have hf := hall 0 f rfl
    refine ⟨f, ?_, hf⟩
    rw [List.cons_append, List.find?_cons_of_pos (by simp [hf.1])]

/-- A record that is passed over in favour of a dead one blocks the scan. -/
theorem stuckOn_cons_unusable {e f : ConnectionID × PeerInfo}
    {rest : List (ConnectionID × PeerInfo)} (htried : Conn.tried r (f :: rest) = some e)
    (hdead : Dead c env n e.2) (hroute : f.2.route ≠ e.2.route) :
    r.incoming = true ∧ r.outgoing = false ∧ c.StuckOn env n (f :: rest) := by
  have husable := usable_of_tried htried
  have hf : usablePeer r.incoming r.outgoing f.2 = false := by
    by_contra hf
    rw [tried_cons, if_pos (by simpa using hf)] at htried
    cases htried
    exact hroute rfl
  have hflags : r.incoming = true ∧ r.outgoing = false ∧ f.2.outgoing = true := by
    simp only [usablePeer, hdead.1] at husable hf
    revert husable hf
    cases r.incoming <;> cases r.outgoing <;> cases f.2.outgoing <;> decide
  obtain ⟨hin, hout, hfout⟩ := hflags
  rw [tried_cons, hf, if_neg Bool.false_ne_true, tried_incoming hin hout] at htried
  exact ⟨hin, hout, [], f, rest, e, rfl, nofun, hfout, htried, hdead⟩

theorem stuckOn_congr (h : c'.connections = c.connections)
    (range : List (ConnectionID × PeerInfo)) : c'.StuckOn env n range ↔ c.StuckOn env n range := by
  unfold StuckOn AllDead Dead
  rw [h]

theorem sendLoop_last {fuel : ℕ} (h : Last (sendTurn env r n conn c)) :
    sendLoop env r (fuel + 1) n conn c ≠ .error .endless := by
  rw [sendLoop]
  rcases h with ⟨_, turn, h, hlast⟩ | ⟨_, h⟩
  · rw [h, Except.ok_bind]
    cases turn with
    | again id conn' => exact absurd rfl (hlast id conn')
    | noSocket | sent | full | failed => exact nofun
  · rw [h]
    exact nofun

/-- With one more turn than there are records, the loop does not return iff the scan blocks. -/
theorem sendLoop_endless_iff {fuel : ℕ} (hsn : conn.sn = true) (hlen : conn.pk.length = 32)
    (hfuel : (c.equalRange conn).length < fuel) :
    sendLoop env r fuel n conn c = .error .endless ↔
      r.incoming = true ∧ r.outgoing = false ∧ c.StuckOn env n (c.equalRange conn) := by
  induction fuel generalizing n conn c with
  | zero => omega
  | succ fuel ih =>
    by_cases hdead : ∃ e, tried r (c.equalRange conn) = some e ∧ Dead c env n e.2
    · obtain ⟨e, htried, hdead⟩ := hdead
      cases hrange : c.equalRange conn with
      | nil =>
        rw [hrange] at htried
        cases htried
      | cons f rest =>
        rw [hrange] at htried
        have hturn := sendTurn_dead hsn hlen hrange htried hdead
        rw [sendLoop]
        by_cases hroute : f.2.route = e.2.route
        · -- the record at the front goes, and the loop continues with the others
          obtain rfl := eq_of_tried htried hroute
          rw [if_pos rfl] at hturn
          obtain ⟨_, e, _, _, _, _, hrange', _, hconns⟩ := sendTurn_again hturn
          rw [hrange] at hrange' hfuel
          obtain ⟨rfl, rfl⟩ := List.cons.inj hrange'
          rw [hturn, Except.ok_bind, stuckOn_cons_dead hdead, ← stuckOn_congr hconns]
          exact ih hsn hlen (Nat.lt_of_succ_lt_succ hfuel)
        · rw [if_neg hroute] at hturn
          rw [hturn]
          exact iff_of_true rfl (stuckOn_cons_unusable htried hdead hroute)
    · refine iff_of_false (sendLoop_last (sendTurn_last fun h => hdead h.2.2)) ?_
      rintro ⟨hin, hout, hstuck⟩
      exact hdead (hstuck.tried hin hout)

/-- More turns than the loop takes make no difference. -/
theorem sendLoop_mono {fuel : ℕ} (h : sendLoop env r fuel n conn c ≠ .error .endless) (k : ℕ) :
    sendLoop env r (fuel + k) n conn c = sendLoop env r fuel n conn c := by
  induction fuel generalizing n conn c with
  | zero => exact absurd rfl h
  | succ fuel ih =>
    rw [Nat.succ_add, sendLoop, sendLoop]
    rw [sendLoop] at h
    cases hturn : sendTurn env r n conn c with
    | error e => rfl
    | ok p =>
      obtain ⟨c₁, turn⟩ := p
      rw [hturn, Except.ok_bind] at h
      rw [Except.ok_bind, Except.ok_bind]
      cases turn with
      | again id conn' => exact ih h
      | noSocket | sent | full | failed => rfl

/-- **How many turns the loop may take does not matter, only whether the scan blocks.** -/
theorem sendLoop_stuck_iff {fuel : ℕ} (hfuel : c.peers.length + 2 ≤ fuel) :
    sendLoop env r fuel 0 r.conn c = .error .endless ↔ c.Stuck env r := by
  have hrange : (c.equalRange r.conn).length ≤ c.peers.length := List.length_filter_le _ _
  by_cases hsn : r.conn.sn = true ∧ r.conn.pk.length = 32
  · rw [sendLoop_endless_iff hsn.1 hsn.2 (by omega), Stuck]
    exact ⟨fun h => ⟨hsn.1, hsn.2, h⟩, fun h => h.2.2⟩
  · obtain ⟨fuel, rfl⟩ : ∃ k, fuel = k + 1 := ⟨fuel - 1, by omega⟩
    exact iff_of_false (sendLoop_last (sendTurn_last fun h => hsn ⟨h.1, h.2.1⟩))
      fun h => hsn ⟨h.1, h.2.1⟩

/-! ## Exceptions in the loop -/

/-- The address of the service node is looked up, and the lookup throws.  It is looked up if there
is no record that may be used, or if the connections of all such records are dead. -/
def LookupFails (c : Conn) (env : Env) (r : SendRequest) (n : ℕ)
    (range : List (ConnectionID × PeerInfo)) : Prop :=
  r.isOptional = false ∧ r.incoming = false ∧ r.hint = "" ∧ (∃ what, env.snLookup = .error what) ∧
    c.AllDead env n (range.filter fun e => usablePeer r.incoming r.outgoing e.2)

theorem lookupFails_cons_dead {f : ConnectionID × PeerInfo} {rest : List (ConnectionID × PeerInfo)}
    (hdead : Dead c env n f.2) (husable : usablePeer r.incoming r.outgoing f.2 = true) :
    c.LookupFails env r n (f :: rest) ↔ c.LookupFails env r (n + 1) rest := by
  have hcons := @List.filter_cons_of_pos _ (fun e => usablePeer r.incoming r.outgoing e.2) f rest
    husable
  rw [LookupFails, hcons, allDead_cons, and_iff_right hdead, LookupFails]

theorem lookupFails_congr (h : c'.connections = c.connections)
    (range : List (ConnectionID × PeerInfo)) :
    c'.LookupFails env r n range ↔ c.LookupFails env r n range := by
  unfold LookupFails AllDead Dead
  rw [h]

/-- The handler around the send may loop, but it does not throw. -/
theorem handleSendError_error {unreachable : Bool} {e : Abort}
    (h : c.handleSendError unreachable conn = .error e) : e = .endless := by
  unfold handleSendError at h
  split at h
  · unfold dropUnreachable at h
    split at h
    · cases h
    · dsimp only at h
      split at h
      · split at h
        · cases h
        · cases h
          rfl
      · cases h
  · cases h

theorem throws_sendTurn :
    Throws (sendTurn env r n conn c) ↔ Throws (c.sendTarget env r conn) := by
  unfold sendTurn
  rw [throws_bind]
  refine or_iff_left ?_
  rintro ⟨⟨c₁, target⟩, _, hthrows⟩
  dsimp only at hthrows
  split at hthrows
  · exact not_throws_ok _ hthrows
  · split at hthrows
    · exact not_throws_ok _ hthrows
    · exact not_throws_ok _ hthrows
    · obtain ⟨what, h⟩ := throws_bind_pure.1 hthrows
      cases handleSendError_error h

theorem throws_sendTarget (hsn : conn.sn = true) : Throws (c.sendTarget env r conn) ↔
    conn.pk.length ≠ 32 ∨ (conn.pk.length = 32 ∧ tried r (c.equalRange conn) = none ∧
      r.isOptional = false ∧ r.incoming = false ∧ r.hint = "" ∧
      ∃ what, env.snLookup = .error what) := by
  rw [sendTarget, if_pos hsn, throws_bind_pure, throws_proxyConnectSn, find?_usable hsn]

theorem sendTarget_ok_of_not_sn (hsn : ¬ conn.sn = true) :
    ∃ p, c.sendTarget env r conn = .ok p := by
  unfold sendTarget
  rw [if_neg hsn]
  split
  · exact ⟨_, rfl⟩
  · split <;> exact ⟨_, rfl⟩

/-- The loop throws in its last turn. -/
theorem throws_sendLoop_last {fuel : ℕ} (h : Last (sendTurn env r n conn c)) :
    Throws (sendLoop env r (fuel + 1) n conn c) ↔ Throws (c.sendTarget env r conn) := by
  rw [← throws_sendTurn (n := n), sendLoop]
  rcases h with ⟨_, turn, h, hlast⟩ | ⟨what, h⟩
  · rw [h, Except.ok_bind]
    refine iff_of_false ?_ (not_throws_ok _)
    cases turn with
    | again id conn' => exact absurd rfl (hlast id conn')
    | noSocket | sent | full | failed => exact not_throws_ok _
  · rw [h]
    exact iff_of_true ⟨what, rfl⟩ ⟨what, rfl⟩

/-- The loop throws if and only if the lookup does. -/
theorem throws_sendLoop_sn {fuel : ℕ} (hsn : conn.sn = true) (hlen : conn.pk.length = 32)
    (hfuel : (c.equalRange conn).length < fuel) :
    Throws (sendLoop env r fuel n conn c) ↔ c.LookupFails env r n (c.equalRange conn) := by
  induction fuel generalizing n conn c with
  | zero => omega
  | succ fuel ih =>
    cases htried : tried r (c.equalRange conn) with
    | none =>
      have hlast : Last (sendTurn env r n conn c) :=
        sendTurn_last fun h => by simp [htried] at h
      have hnil :
          (c.equalRange conn).filter (fun e => usablePeer r.incoming r.outgoing e.2) = [] := by
        rw [← List.head?_eq_none_iff, List.head?_filter]
        exact htried
      rw [throws_sendLoop_last hlast, throws_sendTarget hsn, LookupFails, hnil]
      have hall : c.AllDead env n [] := nofun
      simp [hlen, htried, hall]
    | some e =>
      have hhead : (c.equalRange conn).filter (fun e => usablePeer r.incoming r.outgoing e.2) = e ::
          ((c.equalRange conn).filter fun e => usablePeer r.incoming r.outgoing e.2).tail := by
        refine (List.cons_head?_tail ?_).symm
        rw [List.head?_filter]
        exact htried
      by_cases hdead : Dead c env n e.2
      · cases hrange : c.equalRange conn with
        | nil =>
          rw [hrange] at htried
          cases htried
        | cons f rest =>
          rw [hrange] at htried
          have hturn := sendTurn_dead hsn hlen hrange htried hdead
          rw [sendLoop]
          by_cases hroute : f.2.route = e.2.route
          · obtain rfl := eq_of_tried htried hroute
            rw [if_pos rfl] at hturn
            obtain ⟨_, e, _, _, _, _, hrange', _, hconns⟩ := sendTurn_again hturn
            rw [hrange] at hrange' hfuel
            obtain ⟨rfl, rfl⟩ := List.cons.inj hrange'
            rw [hturn, Except.ok_bind, lookupFails_cons_dead hdead (usable_of_tried htried),
              ← lookupFails_congr hconns]
            exact ih hsn hlen (Nat.lt_of_succ_lt_succ hfuel)
          · rw [if_neg hroute] at hturn
            rw [hturn]
            have hin := (stuckOn_cons_unusable htried hdead hroute).1
            refine iff_of_false (fun ⟨_, h⟩ => by cases h) fun h => ?_
            have hnot := h.2.1
            rw [hin] at hnot
            cases hnot
      · have hlast : Last (sendTurn env r n conn c) :=
          sendTurn_last fun ⟨_, _, e', he', hdead'⟩ => by
            rw [htried] at he'
            cases he'
            exact hdead hdead'
        rw [throws_sendLoop_last hlast, throws_sendTarget hsn, htried, LookupFails, hhead,
          allDead_cons]
        simp [hlen, hdead]

/-- **When the loop throws.** -/
theorem throws_sendLoop (c : Conn) (env : Env) (r : SendRequest) :
    Throws (sendLoop env r (c.peers.length + 2) 0 r.conn c) ↔ r.conn.sn = true ∧
      (r.conn.pk.length ≠ 32 ∨ c.LookupFails env r 0 (c.equalRange r.conn)) := by
  have hrange : (c.equalRange r.conn).length ≤ c.peers.length := List.length_filter_le _ _
  by_cases hsn : r.conn.sn = true
  · by_cases hlen : r.conn.pk.length = 32
    · rw [throws_sendLoop_sn hsn hlen (by omega)]
      simp [hsn, hlen]
    · have hlast : Last (sendTurn env r 0 r.conn c) := sendTurn_last fun h => hlen h.2.1
      rw [throws_sendLoop_last hlast, throws_sendTarget hsn]
      simp [hsn, hlen]
  · have hlast : Last (sendTurn env r 0 r.conn c) := sendTurn_last fun h => hsn h.1
    obtain ⟨p, hp⟩ : ∃ p, c.sendTarget env r r.conn = .ok p := sendTarget_ok_of_not_sn hsn
    rw [throws_sendLoop_last hlast, hp]
    exact iff_of_false (not_throws_ok _) fun h => hsn h.1

theorem sendTurn_error {e : Abort} (h : sendTurn env r n conn c = .error e) :
    e = .endless ∨ ∃ what, e = .exception what := by
  unfold sendTurn at h
  rcases Except.bind_eq_error.1 h with h | ⟨⟨c₁, target⟩, _, h⟩
  · exact Or.inr (sendTarget_error h)
  · dsimp only at h
    split at h
    · cases h
    · split at h
      · cases h
      · cases h
      · rcases Except.bind_eq_error.1 h with h | ⟨_, _, ⟨⟩⟩
        exact Or.inl (handleSendError_error h)

theorem sendLoop_error {fuel : ℕ} {e : Abort} (h : sendLoop env r fuel n conn c = .error e) :
    e = .endless ∨ ∃ what, e = .exception what := by
  induction fuel generalizing n conn c with
  | zero =>
    cases h
    exact Or.inl rfl
  | succ fuel ih =>
    rw [sendLoop] at h
    rcases Except.bind_eq_error.1 h with h | ⟨⟨c₁, turn⟩, _, h⟩
    · exact sendTurn_error h
    · cases turn with
      | again id conn' => exact ih h
      | noSocket | sent | full | failed => cases h

/-- **When the loop returns.** -/
theorem sendLoop_returns_iff (c : Conn) (env : Env) (r : SendRequest) :
    (∃ c' turn, sendLoop env r (c.peers.length + 2) 0 r.conn c = .ok (c', turn)) ↔
      ¬ c.Stuck env r ∧ (r.conn.sn = true →
        r.conn.pk.length = 32 ∧ ¬ c.LookupFails env r 0 (c.equalRange r.conn)) := by
  have hthrows : (r.conn.sn = true → r.conn.pk.length = 32 ∧
      ¬ c.LookupFails env r 0 (c.equalRange r.conn)) ↔
      ¬ Throws (sendLoop env r (c.peers.length + 2) 0 r.conn c) := by
    rw [throws_sendLoop, not_and, not_or, not_not]
  rw [hthrows, ← sendLoop_stuck_iff le_rfl]
  constructor
  · rintro ⟨c', turn, h⟩
    rw [h]
    exact ⟨nofun, not_throws_ok _⟩
  · rintro ⟨hends, hthrows⟩
    cases h : sendLoop env r (c.peers.length + 2) 0 r.conn c with
    | ok p => exact ⟨p.1, p.2, rfl⟩
    | error e =>
      rcases sendLoop_error h with rfl | ⟨what, rfl⟩
      · exact absurd h hends
      · exact absurd ⟨what, h⟩ hthrows

/-! ## Does it return? -/

/-- What comes after the loop does not loop. -/
theorem reportFailure_ne_endless {callback : Option Callback} {turn : Turn} :
    c.reportFailure env callback turn ≠ .error .endless := by
  unfold reportFailure
  split
  · split
    · intro h
      rcases Except.bind_eq_error.1 h with h | ⟨_, _, ⟨⟩⟩
      exact job_ne_endless h
    · exact nofun
  · exact nofun

theorem recordRequest_ne_endless {sent : Bool} {q : Option Request} :
    c.recordRequest env sent q ≠ .error .endless := by
  unfold recordRequest
  split
  · exact nofun
  · split
    · split <;> exact nofun
    · exact job_ne_endless

theorem reportUnsent_ne_endless {nosend noqueue : Option Callback} :
    c.reportUnsent env nosend noqueue ≠ .error .endless := by
  unfold reportUnsent
  split
  · exact job_ne_endless
  · exact job_ne_endless
  · exact nofun

/-- **When `proxy_send` goes on for ever.** -/
theorem proxySend_endless_iff (c : Conn) (env : Env) (r : SendRequest) :
    c.proxySend env r = .error .endless ↔ c.Stuck env r := by
  rw [← sendLoop_stuck_iff le_rfl]
  refine ⟨fun h => ?_, fun h => Except.bind_eq_error.2 (Or.inl h)⟩
  rcases Except.bind_eq_error.1 h with h | ⟨⟨c₁, turn⟩, _, h⟩
  · exact h
  rcases Except.bind_eq_error.1 h with h | ⟨⟨c₂, nosend⟩, _, h⟩
  · exact absurd h reportFailure_ne_endless
  rcases Except.bind_eq_error.1 h with h | ⟨c₃, _, h⟩
  · exact absurd h recordRequest_ne_endless
  split at h
  · cases h
  · exact absurd h reportUnsent_ne_endless

/-- The loop that sends `r` gets to turn number `n` with the tables `c₁` and the destination
`conn`. -/
inductive Tries (env : Env) (r : SendRequest) (c : Conn) : ℕ → ConnectionID → Conn → Prop
  | first : Tries env r c 0 r.conn c
  | again {n : ℕ} {conn conn' : ConnectionID} {c₁ c₂ : Conn} {id : ℤ} (h : Tries env r c n conn c₁)
      (hturn : sendTurn env r n conn c₁ = .ok (c₂, .again id conn')) :
      Tries env r c (n + 1) conn' c₂

/-- What is expected of `proxy_send`: it does not loop for ever, and before it tries again it
removes the record that it has tried, and no other. -/
structure Returns (c : Conn) (env : Env) (r : SendRequest) : Prop where
  /-- Neither of the two loops goes on for ever. -/
  ends : c.proxySend env r ≠ .error .endless
  /-- The bound on the number of turns in `proxySend` has nothing to do with that. -/
  turns : ∀ fuel, c.peers.length + 2 ≤ fuel →
    sendLoop env r fuel 0 r.conn c = sendLoop env r (c.peers.length + 2) 0 r.conn c
  /-- Before each further try the record that was tried is removed, an incoming one on the socket
  and with the route that failed, and no other. -/
  removes : ∀ {n conn c₁ id conn' c₂}, Tries env r c n conn c₁ →
    sendTurn env r n conn c₁ = .ok (c₂, .again id conn') →
    ∃ e, tried r (c₁.equalRange conn) = some e ∧ e.1.eq conn = true ∧ e.2.outgoing = false ∧
      e.2.connId = id ∧ e.2.route = conn'.route ∧ c₁.peers.Perm (e :: c₂.peers)

/-- **Sending ends, unless the scan for a dead record blocks.** -/
theorem returns_iff (c : Conn) (env : Env) (r : SendRequest) :
    c.Returns env r ↔ ¬ c.Stuck env r := by
  constructor
  · intro h hstuck
    exact h.ends ((proxySend_endless_iff c env r).2 hstuck)
  · intro h
    refine ⟨fun hends => h ((proxySend_endless_iff c env r).1 hends), fun fuel hfuel => ?_,
      fun _ hturn => ?_⟩
    · obtain ⟨k, rfl⟩ := Nat.exists_eq_add_of_le hfuel
      exact sendLoop_mono (fun hends => h ((sendLoop_stuck_iff le_rfl).1 hends)) k
    · obtain ⟨_, e, htried, hdead, hid, rfl, hrange, hperm, _⟩ := sendTurn_again hturn
      have he : e ∈ equalRange _ _ := hrange ▸ List.mem_cons_self
      exact ⟨e, htried, (List.mem_filter.1 he).2, hdead.1, hid, rfl, hperm⟩

/-- A service node. -/
def snPubkey : String := "0123456789abcdef0123456789abcdef"

/-- The service node connects to us, and then we send it a message that is to go out on a connection
of our own; the multimap puts the new record in front. -/
def bothWays : List ConnEvent :=
  [.bind "tcp://*:5678" true 0 true, .setActiveSns [snPubkey],
    .message {} true 2 true { parts := ["route", "a.b"], userId := some (snPubkey ++ snPubkey) },
    .send {} { conn := ⟨snId, snPubkey, ""⟩, hint := "tcp://sn:5678", outgoing := true,
               send := ["a.b"] }]

/-- The connection from the service node is to be used, but it is dead: `proxy_send` never returns.
-/
theorem not_returns_bothWays : ∃ c,
    Transition.run (step { bareConfig with fromHex := fun _ => snPubkey }) start bothWays = some c ∧
    ¬ c.Returns { send := fun _ => .error true "Host unreachable" }
      { conn := ⟨snId, snPubkey, ""⟩, incoming := true, send := ["a.b"] } :=
  ⟨_, rfl, fun h => h.ends rfl⟩

end Conn

end OxenMQ
