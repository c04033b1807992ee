import OxenMQ.Connections.ActiveSns
import OxenMQ.Connections.Numbers

/-!
# Who counts as a service node

A command of a category for service nodes only may be invoked by active service nodes only.  Who
sent a message is settled by the socket it came in on:

* on a listening socket the handshake has proved a pubkey, which comes with every message (for the
  in-process listener it is our own);
* on a connection of our own the remote has proved the pubkey we asked for when we opened it
  (`Conn.Opened`).

`peers` keeps both the pubkey and a flag that says whether it belongs to a service node, and
`outgoing_sn_conns` leads from a connection to its record.  The invariant `Filed` says that the
record that is found this way carries the pubkey the connection was opened for.  The stored flag
may well be out of date: `findPeer_serviceNode` is about the flag `proxy_to_worker` goes by.
-/

set_option autoImplicit false

namespace OxenMQ

variable {κ : Type}

namespace Conn

variable {cfg : Config κ} {c c' : Conn}

/-! ## The pubkey a connection is opened for -/

/-- The event `e` opens the connection numbered `id` to the owner of `pk`.  A service node gets one
of the numbers that are drawn meanwhile, from `first` up to `next`. -/
def Opens (first next : ℤ) (e : ConnEvent) (id : ℤ) (pk : String) : Prop :=
  match e with
  | .connectRemote _ r => id = r.connId ∧ pk = r.pubkey
  | .connectSn _ r => first ≤ id ∧ id < next ∧ pk = r.pubkey
  | .send _ r => first ≤ id ∧ id < next ∧ pk = r.conn.pk
  | _ => False

/-- One of the events `es` has opened the connection numbered `id` to the owner of `pk`. -/
def Opened (cfg : Config κ) (es : List ConnEvent) (id : ℤ) (pk : String) : Prop :=
  Transition.Happened (step cfg) start es fun c e c' => Opens c.nextConnId c'.nextConnId e id pk

theorem Opens.mono {first next next' : ℤ} {e : ConnEvent} {id : ℤ} {pk : String}
    (h : Opens first next e id pk) (hle : next ≤ next') : Opens first next' e id pk := by
  cases e with
  | connectRemote env r => exact h
  | connectSn env r => exact ⟨h.1, h.2.1.trans_le hle, h.2.2⟩
  | send env r => exact ⟨h.1, h.2.1.trans_le hle, h.2.2⟩
  | _ => exact h.elim

theorem Opens.of_snTarget {first next : ℤ} {e : ConnEvent} {id : ℤ} {pk : String}
    (he : e.snTarget = some pk) (hfirst : first ≤ id) (hnext : id < next) :
    Opens first next e id pk := by
  cases e with
  | connectSn env r => exact ⟨hfirst, hnext, (Option.some.inj he).symm⟩
  | send env r => exact ⟨hfirst, hnext, (Option.some.inj he).symm⟩
  | _ => cases he

/-- An event opens its connections to one remote only. -/
theorem Opens.unique {first next : ℤ} {e : ConnEvent} {id : ℤ} {pk pk' : String}
    (h : Opens first next e id pk) (h' : Opens first next e id pk') : pk = pk' := by
  cases e with
  | connectRemote env r => exact h.2.trans h'.2.symm
  | connectSn env r => exact h.2.2.trans h'.2.2.symm
  | send env r => exact h.2.2.trans h'.2.2.symm
  | _ => exact h.elim

/-- The pubkey that comes with a message on the listening socket `connId`.  On the in-process
listener it is our own. -/
def provedKey (cfg : Config κ) (inproc connId : ℤ) (m : Incoming) : String :=
  if connId = inproc then cfg.pubkey else (cfg.extractMetadata m).1

/-- The event `e` shows that the owner of `pk` is at the other end of the connection `id`, on the
given `route` if it is a listening socket. -/
def Shows (cfg : Config κ) (first next inproc : ℤ) (e : ConnEvent) (id : ℤ) (route pk : String) :
    Prop :=
  (route = "" ∧ Opens first next e id pk) ∨
  (route ≠ "" ∧ ∃ env immediate m, e = .message env immediate id true m ∧
    route = m.parts.getD 0 "" ∧ pk = provedKey cfg inproc id m)

/-- The owner of `pk` has been shown to be at the other end of the connection `id`. -/
def Authenticated (cfg : Config κ) (es : List ConnEvent) (id : ℤ) (route pk : String) : Prop :=
  Transition.Happened (step cfg) start es fun c e c' =>
    Shows cfg c.nextConnId c'.nextConnId c.inprocListenerConnid e id route pk

theorem Shows.mono {first next next' inproc : ℤ} {e : ConnEvent} {id : ℤ} {route pk : String}
    (h : Shows cfg first next inproc e id route pk) (hle : next ≤ next') :
    Shows cfg first next' inproc e id route pk :=
  h.imp_left fun ⟨hroute, hopens⟩ => ⟨hroute, hopens.mono hle⟩

theorem incomingPeer_pubkey (cfg : Config κ) (c : Conn) (connId : ℤ) (m : Incoming) :
    (incomingPeer cfg c connId m).pubkey = provedKey cfg c.inprocListenerConnid connId m := by
  unfold incomingPeer provedKey
  dsimp only
  split <;> rfl

/-- A connection of our own is to who we opened it to. -/
theorem authenticated_own {es : List ConnEvent} {id : ℤ} {pk : String} :
    Authenticated cfg es id "" pk ↔ Opened cfg es id pk := by
  unfold Authenticated Opened Transition.Happened Shows
  simp

/-! ## The records agree with it -/

/-- The records of `peers` and the entries of `outgoing_sn_conns` carry the pubkey of who is at the
other end of their connection. -/
structure Filed (auth : ℤ → String → String → Prop) (c : Conn) : Prop where
  pubkey : ∀ e ∈ c.peers, e.2.pubkey = e.1.pk
  length : ∀ e ∈ c.peers, e.1.sn = true → e.1.pk.length = 32
  /-- A record under a number is about the connection with this number, which is not in the index
  of connections to service nodes. -/
  own : ∀ e ∈ c.peers, e.1.sn = false →
    e.2.connId = e.1.id ∧ e.2.route = "" ∧ e.1.id ∉ c.outgoingSnConns
  proved : ∀ e ∈ c.peers, auth e.2.connId e.2.route e.1.pk
  /-- Only who has proved a pubkey is ever taken for a service node. -/
  flag : ∀ e ∈ c.peers, e.2.pubkey = "" → e.2.serviceNode = false
  index : ∀ id k, c.outgoingSnConns.lookup id = some k →
    k.sn = true ∧ k.pk.length = 32 ∧ auth id "" k.pk

variable {auth auth' : ℤ → String → String → Prop}

theorem Filed.mono (h : c.Filed auth)
    (hauth : ∀ id route pk, auth id route pk → auth' id route pk) : c.Filed auth' where
  pubkey := h.pubkey
  length := h.length
  own := h.own
  proved e he := hauth _ _ _ (h.proved e he)
  flag := h.flag
  index id k hk := ⟨(h.index id k hk).1, (h.index id k hk).2.1, hauth _ _ _ (h.index id k hk).2.2⟩

/-- Records and entries may go. -/
theorem Filed.shrink (h : c.Filed auth) (hpeers : c'.peers ⊆ c.peers)
    (hindex : ∀ id k, c'.outgoingSnConns.lookup id = some k →
      c.outgoingSnConns.lookup id = some k) : c'.Filed auth where
  pubkey e he := h.pubkey e (hpeers he)
  length e he := h.length e (hpeers he)
  own e he hsn := by
    obtain ⟨hid, hroute, hnot⟩ := h.own e (hpeers he) hsn
    refine ⟨hid, hroute, fun hmem => hnot ?_⟩
    obtain ⟨k, hk⟩ := Option.isSome_iff_exists.1 (AList.lookup_isSome.2 hmem)
    exact AList.lookup_isSome.1 (Option.isSome_iff_exists.2 ⟨k, hindex _ k hk⟩)
  proved e he := h.proved e (hpeers he)
  flag e he := h.flag e (hpeers he)
  index id k hk := h.index id k (hindex id k hk)

theorem length_ne_empty {pk : String} (h : pk.length = 32) : pk ≠ "" := by
  rintro rfl
  cases h

theorem Filed.touch {ev : ConnEvent} (h : c.Filed auth) {peers : List (ConnectionID × PeerInfo)}
    (ht : List.Forall₂ (Touched cfg c ev) c.peers peers) :
    { c with peers := peers }.Filed auth := by
  refine ⟨fun e' he' => ?_, fun e' he' => ?_, fun e' he' => ?_, fun e' he' => ?_, fun e' he' => ?_,
    h.index⟩
  all_goals obtain ⟨e, he, ht⟩ := exists_touched_of_mem ht he'
  · rw [ht.pubkey, ht.key]
    exact h.pubkey e he
  · rw [ht.key]
    exact h.length e he
  · rw [ht.key, ht.connId, ht.route]
    exact h.own e he
  · rw [ht.key, ht.connId, ht.route]
    exact h.proved e he
  · intro hpk
    rw [ht.pubkey] at hpk
    by_contra hflag
    rcases ht.serviceNode (by simpa using hflag) with hsn | hsn | hne
    · rw [h.flag e he hpk] at hsn
      cases hsn
    · exact length_ne_empty (h.length e he hsn) (h.pubkey e he ▸ hpk)
    · exact hne hpk

/-- A record may be added, if it is filed under its own pubkey. -/
theorem Filed.emplacePeer (h : c.Filed auth) (pos : ℕ) {k : ConnectionID} {p : PeerInfo}
    (hpubkey : p.pubkey = k.pk) (hlength : k.sn = true → k.pk.length = 32)
    (hown : k.sn = false → p.connId = k.id ∧ p.route = "" ∧ k.id ∉ c.outgoingSnConns)
    (hauth : auth p.connId p.route k.pk) (hflag : p.pubkey = "" → p.serviceNode = false) :
    (c.emplacePeer pos k p).Filed auth := by
  refine ⟨fun e he => ?_, fun e he => ?_, fun e he => ?_, fun e he => ?_, fun e he => ?_, h.index⟩
  all_goals rcases Multimap.mem_emplace.1 he with rfl | he
  · exact hpubkey
  · exact h.pubkey e he
  · exact hlength
  · exact h.length e he
  · exact hown
  · exact h.own e he
  · exact hauth
  · exact h.proved e he
  · exact hflag
  · exact h.flag e he

theorem lookup_index_of_closeAll {ids : List ℤ} {id : ℤ} {k : ConnectionID}
    (h : (c.closeAll ids).outgoingSnConns.lookup id = some k) :
    c.outgoingSnConns.lookup id = some k := by
  rw [lookup_outgoingSnConns_closeAll] at h
  split at h
  · cases h
  · exact h

theorem Filed.openSn (h : c.Filed auth) (hcounted : c.Counted) (env : Env) {pk : String}
    (keepAlive : ℤ) (hpk : pk.length = 32) (hauth : auth c.nextConnId "" pk) :
    (c.openSn env ⟨snId, pk, ""⟩ pk keepAlive).Filed auth := by
  have hpeer : (c.emplacePeer env.pos ⟨snId, pk, ""⟩
      { serviceNode := true, pubkey := pk, connId := c.nextConnId, idleExpiry := keepAlive,
        lastActivity := env.now }).Filed auth := by
    refine h.emplacePeer env.pos rfl (fun _ => hpk) (fun hs => ?_) hauth fun hne => ?_
    · cases hs
    · exact absurd hne (length_ne_empty hpk)
  refine ⟨hpeer.pubkey, hpeer.length, fun e he hsn => ?_, hpeer.proved, hpeer.flag,
    fun id k hk => ?_⟩
  · obtain ⟨hid, hroute, hnot⟩ := hpeer.own e he hsn
    refine ⟨hid, hroute, fun hmem => ?_⟩
    -- the number is a new one, so no record is under it
    rcases (AList.mem_insert _).1 hmem with hnext | hmem
    · rcases Multimap.mem_emplace.1 he with rfl | he
      · cases hsn
      · exact (hcounted.used_lt _ (.key e he hsn rfl)).ne hnext
    · exact hnot hmem
  · by_cases hid : id = c.nextConnId
    · subst hid
      have hk' : some (ConnectionID.mk snId pk "") = some k := by
        rw [← hk]
        exact (AList.lookup_insert c.outgoingSnConns).symm
      cases hk'
      exact ⟨rfl, hpk, hauth⟩
    · refine h.index id k ?_
      rw [← hk]
      exact (AList.lookup_insert_ne hid).symm

/-- The counter never goes back. -/
theorem Change.nextConnId_le {ev : ConnEvent} {o : Option ℤ} (h : Change cfg ev o c c') :
    c.nextConnId ≤ c'.nextConnId := by
  cases h.counting with
  | none hnext => exact hnext.ge
  | next hnext => omega
  | allocate hnext => omega
  | redeem _ _ hnext => exact hnext.ge

/-- Every change keeps the records in agreement with the connections opened so far. -/
theorem Filed.change {ev : ConnEvent} {o : Option ℤ} {first : ℤ} (h : Change cfg ev o c c')
    (hcounted : c.Counted) (hfirst : first ≤ c.nextConnId)
    (hfiled : c.Filed fun id route pk =>
      auth id route pk ∨ Shows cfg first c.nextConnId c.inprocListenerConnid ev id route pk) :
    c'.Filed fun id route pk =>
      auth id route pk ∨ Shows cfg first c'.nextConnId c.inprocListenerConnid ev id route pk := by
  have hle := h.nextConnId_le
  have hmono : c.Filed fun id route pk =>
      auth id route pk ∨ Shows cfg first c'.nextConnId c.inprocListenerConnid ev id route pk :=
    hfiled.mono fun _ _ _ => Or.imp_right (·.mono hle)
  cases h with
  | write | report | record | settle | index | allocate | connectFail | bind | hello | active
  | flags => exact hmono.shrink (List.Subset.refl _) fun _ _ hk => hk
  | touch h => exact hmono.touch h
  | drop hperm =>
    refine hmono.shrink ?_ fun _ _ => lookup_index_of_closeAll
    exact List.Subset.trans (List.subset_append_right _ _) hperm.symm.subset
  | dropDead hperm =>
    refine hmono.shrink ?_ fun _ _ hk => hk
    exact List.Subset.trans (List.subset_cons_self _ _) hperm.symm.subset
  | bye => exact hmono.shrink (List.Subset.refl _) fun _ _ => lookup_index_of_closeAll
  | timeOut => exact hmono.shrink (List.filter_subset_self _) fun _ _ => lookup_index_of_closeAll
  | openSn env hev htime hkeep hpk =>
    refine hmono.openSn hcounted env _ hpk (Or.inr (Or.inl ⟨rfl, .of_snTarget hev hfirst ?_⟩))
    exact Int.lt_add_one_of_le le_rfl
  | @connectRemote _ env r hev hid =>
    have hsn : (ConnectionID.mk r.connId r.pubkey "").sn = false :=
      ConnectionID.sn_ofId_of_pos (hcounted.allocated_pos _ hid)
    have hnot : r.connId ∉ c.outgoingSnConns :=
      fun hmem => hcounted.used_not_allocated _ (.index hmem) hid
    subst hev
    refine Filed.emplacePeer ?_ env.pos rfl (fun hs => ?_) (fun _ => ⟨rfl, rfl, hnot⟩)
      (Or.inr (Or.inl ⟨rfl, rfl, rfl⟩)) fun _ => rfl
    · exact hmono.shrink (List.Subset.refl _) fun _ _ hk => hk
    · rw [hsn] at hs
      cases hs
  | @addPeer _ pos p env immediate m hev hp hs hroute hpk =>
    refine hmono.emplacePeer pos rfl (fun _ => hpk) (fun hsn => ?_)
      (Or.inr (Or.inr ⟨hroute, env, immediate, m, hev, ?_, ?_⟩)) fun hne => ?_
    · cases hsn
    · rw [hp, incomingPeer_route]
    · rw [← incomingPeer_pubkey, ← hp]
    · exact absurd hne (length_ne_empty hpk)

theorem Filed.changes {ev : ConnEvent} {o : Option ℤ} (h : Changes cfg ev o c c')
    (hcounted : c.Counted) (hfiled : c.Filed auth) :
    c'.Filed fun id route pk => auth id route pk ∨
      Shows cfg c.nextConnId c'.nextConnId c.inprocListenerConnid ev id route pk := by
  refine (h.induction (P := fun s => s.Counted ∧ c.nextConnId ≤ s.nextConnId ∧
    s.inprocListenerConnid = c.inprocListenerConnid ∧ s.Filed fun id route pk =>
      auth id route pk ∨ Shows cfg c.nextConnId s.nextConnId c.inprocListenerConnid ev id route pk)
    ?_ ⟨hcounted, le_rfl, rfl, hfiled.mono fun _ _ _ => Or.inl⟩).2.2.2
  rintro o s s' ⟨hcounted, hle, hinproc, hfiled⟩ hlast
  rw [← hinproc] at hfiled ⊢
  exact ⟨hcounted.change hlast, hle.trans hlast.nextConnId_le, hlast.frame.2.2,
    hfiled.change hlast hcounted hle⟩

/-- **The records carry the pubkeys of who is at the other end**, after every run. -/
theorem run_filed {es : List ConnEvent}
    (h : Transition.run (step cfg) start es = some c) : c.Filed (Authenticated cfg es) := by
  refine Transition.run_induction_history (P := fun es c => c.Filed (Authenticated cfg es)) ?_ ?_ h
  · constructor <;> simp [start]
  · intro es c e c' hrun hfiled he
    obtain ⟨o, hchanges⟩ := step_changes he
    refine (hfiled.changes hchanges (run_counted hrun)).mono fun id route pk hauth => ?_
    exact (Transition.happened_snoc hrun he).2 hauth

/-! ## One pubkey for each connection -/

/-- The number has been drawn, and nobody holds it any more who could still use it. -/
def Spent (c : Conn) (id : ℤ) : Prop := id < c.nextConnId ∧ id ∉ c.allocated

theorem Spent.change {ev : ConnEvent} {o : Option ℤ} {id : ℤ} (h : c.Spent id)
    (hc : Change cfg ev o c c') : c'.Spent id := by
  obtain ⟨hlt, hnot⟩ := h
  cases hc.counting with
  | none hnext halloc => exact ⟨hnext ▸ hlt, halloc ▸ hnot⟩
  | next hnext halloc => exact ⟨by omega, halloc ▸ hnot⟩
  | allocate hnext halloc =>
    refine ⟨by omega, ?_⟩
    rw [halloc, List.mem_append, List.mem_singleton]
    rintro (hid | hid)
    · exact hnot hid
    · omega
  | redeem i hi hnext halloc =>
    exact ⟨hnext ▸ hlt, fun hid => hnot (List.mem_of_mem_erase (halloc ▸ hid))⟩

theorem Spent.step {cfg : Config κ} {e : ConnEvent} {id : ℤ} (h : c.Spent id)
    (he : step cfg c e = some c') : c'.Spent id := by
  obtain ⟨o, hchanges⟩ := step_changes he
  exact hchanges.induction (P := (·.Spent id)) (fun _ _ _ hs hchange => hs.change hchange) h

theorem Changes.allocated_eq {ev : ConnEvent} {o : Option ℤ} (h : Changes cfg ev o c c')
    (hev : ev.snTarget ≠ none) : c'.allocated = c.allocated :=
  h.induction (P := fun s => s.allocated = c.allocated)
    (fun _ _ _ hs hchange => (hchange.frame.2.1 hev).trans hs) rfl

/-- A connection is opened under a number that can still be used, and uses it up. -/
theorem spent_of_opens {cfg : Config κ} {e : ConnEvent} {id : ℤ} {pk : String}
    (hcounted : c.Counted) (he : step cfg c e = some c')
    (h : Opens c.nextConnId c'.nextConnId e id pk) : ¬ c.Spent id ∧ c'.Spent id := by
  have hsn : e.snTarget ≠ none → c.nextConnId ≤ id → id < c'.nextConnId →
      ¬ c.Spent id ∧ c'.Spent id := by
    intro htarget hfirst hnext
    refine ⟨fun hspent => absurd hspent.1 (not_lt.2 hfirst), hnext, ?_⟩
    obtain ⟨o, hchanges⟩ := step_changes he
    rw [hchanges.allocated_eq htarget]
    exact fun hid => absurd (hcounted.allocated_lt id hid) (not_lt.2 hfirst)
  cases e with
  | connectRemote env r =>
    obtain ⟨rfl, rfl⟩ := h
    rw [step] at he
    split at he
    · rename_i hid
      refine ⟨fun hspent => hspent.2 hid, ?_⟩
      have herased : { c with allocated := c.allocated.erase r.connId }.Spent r.connId :=
        ⟨hcounted.allocated_lt _ hid, hcounted.allocated_nodup.not_mem_erase⟩
      rcases proxyConnectRemote_cases (Except.toOption_eq_some.1 he) with ⟨_, _, rfl⟩ | ⟨_, rfl⟩
      · exact herased
      · exact herased
    · cases he
  | connectSn env r => exact hsn (by simp [ConnEvent.snTarget]) h.1 h.2.1
  | send env r => exact hsn (by simp [ConnEvent.snTarget]) h.1 h.2.1
  | _ => exact h.elim

/-- No connection is ever opened for two pubkeys. -/
theorem opened_unique {cfg : Config κ} {es : List ConnEvent}
    (h : Transition.run (step cfg) start es = some c) {id : ℤ} {pk pk' : String}
    (hpk : Opened cfg es id pk) (hpk' : Opened cfg es id pk') : pk = pk' := by
  have hall : (∀ id pk, Opened cfg es id pk → c.Spent id) ∧
      ∀ id pk pk', Opened cfg es id pk → Opened cfg es id pk' → pk = pk' := by
    refine Transition.run_induction_history (P := fun es c =>
      (∀ id pk, Opened cfg es id pk → c.Spent id) ∧
      ∀ id pk pk', Opened cfg es id pk → Opened cfg es id pk' → pk = pk') ?_ ?_ h
    · exact ⟨fun _ _ h => absurd h Transition.not_happened_nil,
        fun _ _ _ h => absurd h Transition.not_happened_nil⟩
    · rintro es c e c' hrun ⟨hspent, hunique⟩ he
      have hnew : ∀ id pk, Opens c.nextConnId c'.nextConnId e id pk →
          ¬ c.Spent id ∧ c'.Spent id := fun _ _ => spent_of_opens (run_counted hrun) he
      constructor
      · intro id pk hopened
        rcases (Transition.happened_snoc hrun he).1 hopened with hold | hopens
        · exact (hspent id pk hold).step he
        · exact (hnew id pk hopens).2
      · intro id pk pk' hopened hopened'
        rcases (Transition.happened_snoc hrun he).1 hopened,
          (Transition.happened_snoc hrun he).1 hopened' with ⟨hold | hopens, hold' | hopens'⟩
        · exact hunique id pk pk' hold hold'
        · exact absurd (hspent id pk hold) (hnew id pk' hopens').1
        · exact absurd (hspent id pk' hold') (hnew id pk hopens).1
        · exact hopens.unique hopens'
  exact hall.2 id pk pk' hpk hpk'

/-! ## Who sent a message -/

/-- `pk` is what the sender of a message has proved to be, the empty string if nothing. -/
def Sender (cfg : Config κ) (es : List ConnEvent) (c : Conn) (connId : ℤ) (router : Bool)
    (m : Incoming) (pk : String) : Prop :=
  if router then pk = provedKey cfg c.inprocListenerConnid connId m else Opened cfg es connId pk

theorem incomingPeer_serviceNode {cfg : Config κ} {connId : ℤ} {m : Incoming} (hok : c.ActiveOk) :
    (incomingPeer cfg c connId m).serviceNode = true ↔
      (incomingPeer cfg c connId m).pubkey ∈ c.activeServiceNodes := by
  unfold incomingPeer
  dsimp only
  split
  · simp
  · rw [Bool.and_eq_true, decide_eq_true_iff, decide_eq_true_iff]
    exact ⟨And.right, fun hpk => ⟨hok.length _ hpk, hpk⟩⟩

/-- A record that is found under a number is that of the connection with this number. -/
theorem Filed.own_of_eq (h : c.Filed auth) {connId : ℤ} {e : ConnectionID × PeerInfo}
    (he : e ∈ c.peers) (hkey : e.1.eq (.ofId connId) = true) :
    e.2.connId = connId ∧ e.2.route = "" := by
  have hid : e.1.id = connId := ConnectionID.id_eq_of_eq hkey
  cases hsn : e.1.sn with
  | true =>
    -- there is no record of a service node without a pubkey
    have hsn' : (ConnectionID.ofId connId).sn = true := by
      rw [← hsn, ← hid]
      rfl
    have hpk : e.1.pk = "" := ((ConnectionID.eq_sn_iff hsn').1 hkey).2
    exact absurd hpk (length_ne_empty (h.length e he hsn))
  | false =>
    obtain ⟨hconn, hroute, _⟩ := h.own e he hsn
    exact ⟨hconn.trans hid, hroute⟩

/-- The record of a connection of ours carries the pubkey it was opened for. -/
theorem Filed.auth_of_eq (h : c.Filed auth) {connId : ℤ} {e : ConnectionID × PeerInfo}
    (he : e ∈ c.peers)
    (hkey : e.1.eq ((c.outgoingSnConns.lookup connId).getD (.ofId connId)) = true) :
    auth connId "" e.2.pubkey := by
  rw [h.pubkey e he]
  cases hk : c.outgoingSnConns.lookup connId with
  | some k =>
    obtain ⟨hsn, _, hauth⟩ := h.index connId k hk
    rw [hk, Option.getD_some] at hkey
    rw [((ConnectionID.eq_sn_iff hsn).1 hkey).2]
    exact hauth
  | none =>
    rw [hk, Option.getD_none] at hkey
    obtain ⟨hconn, hroute⟩ := h.own_of_eq he hkey
    rw [← hconn, ← hroute]
    exact h.proved e he

/-- **The flag that counts is up to date**, whatever the record says. -/
theorem findPeer_serviceNode {cfg : Config κ} {es : List ConnEvent} {pos : ℕ} {connId : ℤ}
    {router : Bool} {m : Incoming} {peer : PeerInfo} {route : String}
    (hfiled : c.Filed (Authenticated cfg es)) (hok : c.ActiveOk)
    (h : findPeer cfg c pos connId router m = .ok (c', some (peer, route))) :
    Sender cfg es c connId router m peer.pubkey ∧
    (peer.serviceNode = true ↔ peer.pubkey ∈ c.activeServiceNodes) := by
  unfold findPeer at h
  dsimp only at h
  cases router with
  | true =>
    have hsender : Sender cfg es c connId true m (incomingPeer cfg c connId m).pubkey :=
      incomingPeer_pubkey cfg c connId m
    rw [if_pos rfl] at h
    split at h
    · rename_i hflag
      obtain ⟨cid, hcid, h⟩ := Except.bind_eq_ok.1 h
      obtain ⟨_, rfl⟩ := ConnectionID.ofPubkey_ok.1 hcid
      split at h
      · rename_i k known hfind
        cases h
        -- the record found is filed under the pubkey of the sender
        have hkey := List.find?_some hfind
        simp only [Bool.and_eq_true] at hkey
        have hpk : known.pubkey = (incomingPeer cfg c connId m).pubkey := by
          rw [hfiled.pubkey _ (List.mem_of_find?_eq_some hfind)]
          exact ((ConnectionID.eq_sn_iff rfl).1 hkey.1.1).2
        dsimp only
        rw [hpk]
        exact ⟨hsender, iff_of_true rfl ((incomingPeer_serviceNode hok).1 hflag)⟩
      · cases h
        exact ⟨hsender, incomingPeer_serviceNode hok⟩
    · cases h
      exact ⟨hsender, incomingPeer_serviceNode hok⟩
  | false =>
    rw [if_neg Bool.false_ne_true] at h
    split at h
    · cases h
    · rename_i k found hfind
      cases h
      have hmem := List.mem_of_find?_eq_some hfind
      have hkey := List.find?_some hfind
      have hopened := authenticated_own.1 (hfiled.auth_of_eq hmem hkey)
      split
      · rename_i hpk
        refine ⟨hopened, iff_of_false ?_ fun hactive => ?_⟩
        · rw [hfiled.flag _ hmem hpk]
          exact Bool.false_ne_true
        · exact length_ne_empty (hok.length _ hactive) hpk
      · exact ⟨hopened, decide_eq_true_iff⟩

theorem Sender.unique {cfg : Config κ} {es : List ConnEvent}
    (h : Transition.run (step cfg) start es = some c) {connId : ℤ} {router : Bool} {m : Incoming}
    {pk pk' : String} (hpk : Sender cfg es c connId router m pk)
    (hpk' : Sender cfg es c connId router m pk') : pk' = pk := by
  cases router with
  | true => exact Eq.trans hpk' (Eq.symm hpk)
  | false => exact opened_unique h hpk' hpk

/-- **Service node gating follows the current list.**  When a command is accepted there is one
pubkey that its sender has proved; the callback is told that the sender is a service node exactly
when this pubkey is in the list that the updates so far add up to, and a command for service nodes
is only accepted then. -/
theorem remoteSn_iff_active {cfg : Config κ} {es : List ConnEvent}
    (h : Transition.run (step cfg) start es = some c) {env : Env} {immediate : Bool} {connId : ℤ}
    {router : Bool} {m : Incoming} {a : Arrival κ}
    (ha : receive cfg c env immediate connId router m = .ok (c', some a)) :
    ∃ pk, (∀ pk', Sender cfg es c connId router m pk' ↔ pk' = pk) ∧
      (a.access.remoteSn = true ↔ pk ∈ activeAfter es) ∧
      ((cfg.access a.cat).remoteSn = true → pk ∈ activeAfter es) := by
  obtain ⟨c₁, harrival⟩ := arrival_of_receive ha
  obtain ⟨peer, route, hfind, hpass, haccess, _⟩ := arrival_some harrival
  obtain ⟨hok, hactive⟩ := run_active h
  obtain ⟨hsender, hflag⟩ := findPeer_serviceNode (run_filed h) hok hfind
  refine ⟨peer.pubkey, fun pk' => ⟨hsender.unique h, fun hpk => hpk ▸ hsender⟩, ?_, ?_⟩
  · rw [haccess, ← hactive]
    exact hflag
  · intro hrequired
    rw [← hactive, ← hflag]
    exact (Config.rejection_eq_none.1 hpass).2.2.1 hrequired

/-- A program with a command for service nodes only. -/
def snConfig : Config Unit :=
  { bareConfig with
    categories := fun name => if name = "sn" then some () else none
    access := fun _ => { remoteSn := true }
    commands := fun _ name => if name = "ping" then some ⟨0, false⟩ else none }

/-- A remote that becomes a service node after we have connected to it, and then calls us. -/
def lateSnRun : List ConnEvent :=
  let pk := "0123456789abcdef0123456789abcdef"
  [.allocate,
   .connectRemote {}
     { connId := 2, onConnect := 0, onFailure := 1, pubkey := pk, remote := "tcp://a" },
   .setActiveSns [pk]]

theorem remoteSn_iff_active_late : ∃ c c' a pk,
    Transition.run (step snConfig) start lateSnRun = some c ∧
    receive snConfig c {} true 2 false { parts := ["sn.ping"] } = .ok (c', some a) ∧
    (∀ pk', Sender snConfig lateSnRun c 2 false { parts := ["sn.ping"] } pk' ↔ pk' = pk) ∧
    (a.access.remoteSn = true ↔ pk ∈ activeAfter lateSnRun) ∧
    ((snConfig.access a.cat).remoteSn = true → pk ∈ activeAfter lateSnRun) := by
  have hsome : ((Transition.run (step snConfig) start lateSnRun).bind fun c =>
      (receive snConfig c {} true 2 false { parts := ["sn.ping"] }).toOption.bind Prod.snd).isSome =
      true := rfl
  obtain ⟨a, h⟩ := Option.isSome_iff_exists.1 hsome
  obtain ⟨c, hrun, h⟩ := Option.bind_eq_some_iff.1 h
  obtain ⟨⟨c', _⟩, hreceive, rfl⟩ := Option.bind_eq_some_iff.1 h
  have hreceive := Except.toOption_eq_some.1 hreceive
  obtain ⟨pk, hpk⟩ := remoteSn_iff_active hrun hreceive
  exact ⟨c, c', a, pk, hrun, hreceive, hpk⟩

end Conn

end OxenMQ
