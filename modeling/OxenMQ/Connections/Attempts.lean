import OxenMQ.Connections.Numbers

/-!
# What becomes of a connection attempt

`connect_remote` promises that one of its two callbacks is called, once.  An attempt is waiting in
`pending_connects` until a `HELLO` comes in on its connection or its time is up, and in the second
case the connection is taken down (`Conn.attempt_resolved`).

In between everything else may happen, to this connection too: a `BYE`, a `disconnect()` or the idle
timer can take its socket or its record away.  The attempt is then still waiting, and fails when its
time is up.

The proof follows one attempt through the changes of `OxenMQ.Connections.Changes`.  Most of them
keep away from its number (`Conn.Keeps`), because the number is in use and everybody else draws a
fresh one.
-/

set_option autoImplicit false

namespace OxenMQ

variable {κ : Type}

/-- Is this a `HELLO` on the connection `id` that we opened? -/
def ConnEvent.isHelloOn (id : ℤ) : ConnEvent → Bool
  | .message _ _ connId router m => !router && connId == id && m.parts.head? == some "HELLO"
  | _ => false

namespace Conn

variable {cfg : Config κ} {c c' : Conn} {ev : ConnEvent} {r : ConnectRemote} {heard : Prop}
  {o : Option ℤ}

/-- The callbacks that have been scheduled for the connection attempt `id`. -/
def outcomes (c : Conn) (id : ℤ) : List Closure :=
  (c.scheduled.map Scheduled.body).filter fun b => b.connectId == some id

/-- The entries of `pending_connects` for the attempt `id`. -/
def attempts (id : ℤ) (waiting : List PendingConnect) : List PendingConnect :=
  waiting.filter fun pc => pc.connId == id

/-- Is this record filed under the number `id`, or about the socket `id`? -/
def About (id : ℤ) (e : ConnectionID × PeerInfo) : Prop :=
  (e.1.sn = false ∧ e.1.id = id) ∨ e.2.connId = id

/-! ## The three ends -/

/-- The attempt `r` is still in `pending_connects`, and no callback has been scheduled for it. -/
structure Pending (c : Conn) (r : ConnectRemote) : Prop where
  waiting : ∃ pc ∈ c.pendingConnects, pc.connId = r.connId
  outcomes : c.outcomes r.connId = []

/-- The attempt `r` is no longer pending, and its one callback is `on_connect`. -/
structure Connected (c : Conn) (r : ConnectRemote) : Prop where
  waiting : ∀ pc ∈ c.pendingConnects, pc.connId ≠ r.connId
  outcomes : c.outcomes r.connId = [.connectSuccess r.onConnect ⟨r.connId, r.pubkey, ""⟩]

/-- The attempt `r` is no longer pending, its one callback is `on_failure`, and neither a socket nor
a record is left under its number. -/
structure Failed (c : Conn) (r : ConnectRemote) : Prop where
  waiting : ∀ pc ∈ c.pendingConnects, pc.connId ≠ r.connId
  outcomes : ∃ reason, c.outcomes r.connId = [.connectFailure r.onFailure (.ofId r.connId) reason]
  socket : r.connId ∉ c.connections
  peers : ∀ e ∈ c.peers, ¬ About r.connId e

/-! ## Following an attempt -/

/-- Where an attempt stands.  `heard` says that a `HELLO` has come in. -/
inductive Phase (r : ConnectRemote) (heard : Prop) (c : Conn) : Prop
  | pending (pc : PendingConnect) (hwaiting : attempts r.connId c.pendingConnects = [pc])
      (hconnect : pc.onConnect = r.onConnect) (hfailure : pc.onFailure = r.onFailure)
      (houtcomes : c.outcomes r.connId = [])
  | connected (hwaiting : attempts r.connId c.pendingConnects = [])
      (houtcomes : c.outcomes r.connId = [.connectSuccess r.onConnect ⟨r.connId, r.pubkey, ""⟩])
      (h : heard)
  | failed (reason : String) (hwaiting : attempts r.connId c.pendingConnects = [])
      (houtcomes : c.outcomes r.connId = [.connectFailure r.onFailure (.ofId r.connId) reason])
      (hsocket : r.connId ∉ c.connections) (hpeers : ∀ e ∈ c.peers, ¬ About r.connId e)

/-- What is known about an attempt at any time. -/
structure Attempt (r : ConnectRemote) (heard : Prop) (c : Conn) : Prop where
  pos : 0 < r.connId
  lt : r.connId < c.nextConnId
  not_allocated : r.connId ∉ c.allocated
  own : ∀ e ∈ c.peers, About r.connId e →
    e.1 = ⟨r.connId, r.pubkey, ""⟩ ∧ e.2.connId = r.connId
  socket : ∀ s, c.connections.lookup r.connId = some s → s = .dealer false
  phase : Phase r heard c

/-- A change that keeps away from the number `id`, or takes a record or a socket away from it. -/
structure Keeps (id : ℤ) (c c' : Conn) : Prop where
  peers : ∀ e' ∈ c'.peers, About id e' → ∃ e ∈ c.peers, e.1 = e'.1 ∧ e.2.connId = e'.2.connId
  socket : ∀ s, c'.connections.lookup id = some s → c.connections.lookup id = some s
  waiting : attempts id c'.pendingConnects = attempts id c.pendingConnects
  outcomes : c'.outcomes id = c.outcomes id

theorem About.congr {id : ℤ} {e e' : ConnectionID × PeerInfo} (hkey : e.1 = e'.1)
    (hid : e.2.connId = e'.2.connId) (h : About id e') : About id e := by
  rw [About, hkey, hid]
  exact h

theorem Keeps.phase (h : Keeps r.connId c c') (hphase : Phase r heard c) : Phase r heard c' := by
  cases hphase with
  | pending pc hw hconnect hfailure ho =>
    exact .pending pc (h.waiting.trans hw) hconnect hfailure (h.outcomes.trans ho)
  | connected hw ho hheard => exact .connected (h.waiting.trans hw) (h.outcomes.trans ho) hheard
  | failed reason hw ho hsocket hpeers =>
    refine .failed reason (h.waiting.trans hw) (h.outcomes.trans ho) (fun hmem => hsocket ?_)
      fun e' he' habout => ?_
    · obtain ⟨s, hs⟩ := Option.isSome_iff_exists.1 (AList.lookup_isSome.2 hmem)
      exact AList.lookup_isSome.1 (Option.isSome_of_mem (h.socket s hs))
    · obtain ⟨e, he, hkey, hid⟩ := h.peers e' he' habout
      exact hpeers e he (habout.congr hkey hid)

/-- What keeps away from an attempt leaves it where it is. -/
theorem Attempt.keeps (h : Attempt r heard c) (hlt : r.connId < c'.nextConnId)
    (halloc : r.connId ∉ c'.allocated) (hkeeps : Keeps r.connId c c') : Attempt r heard c' where
  pos := h.pos
  lt := hlt
  not_allocated := halloc
  own := fun e' he' habout => by
    obtain ⟨e, he, hkey, hid⟩ := hkeeps.peers e' he' habout
    rw [← hkey, ← hid]
    exact h.own e he (habout.congr hkey hid)
  socket := fun s hs => h.socket s (hkeeps.socket s hs)
  phase := hkeeps.phase h.phase

/-! ## What keeps away from an attempt -/

section Keep

variable {id : ℤ}

theorem Keeps.of_subset (hpeers : c'.peers ⊆ c.peers)
    (hsocket : ∀ s, c'.connections.lookup id = some s → c.connections.lookup id = some s)
    (hwaiting : attempts id c'.pendingConnects = attempts id c.pendingConnects)
    (houtcomes : c'.outcomes id = c.outcomes id) : Keeps id c c' :=
  ⟨fun e' he' _ => ⟨e', hpeers he', rfl, rfl⟩, hsocket, hwaiting, houtcomes⟩

theorem outcomes_append {j : Scheduled} (hscheduled : c'.scheduled = c.scheduled ++ [j])
    (h : j.body.connectId ≠ some id) : c'.outcomes id = c.outcomes id := by
  rw [outcomes, hscheduled, outcomes]
  simp [h]

theorem outcomes_append_one {j : Scheduled} (hscheduled : c'.scheduled = c.scheduled ++ [j])
    (h : j.body.connectId = some id) : c'.outcomes id = c.outcomes id ++ [j.body] := by
  rw [outcomes, hscheduled, outcomes]
  simp [h]

/-- A job that is not about a connection attempt. -/
theorem outcomes_report {j : Scheduled} (hscheduled : c'.scheduled = c.scheduled ++ [j])
    (h : j.body.isConnect = false) : c'.outcomes id = c.outcomes id := by
  refine outcomes_append hscheduled ?_
  rw [Closure.connectId_of_not_isConnect h]
  exact nofun

theorem touch_keeps {peers : List (ConnectionID × PeerInfo)}
    (h : List.Forall₂ (Touched cfg c ev) c.peers peers) :
    Keeps id c { c with peers := peers } := by
  refine ⟨fun e' he' _ => ?_, fun s hs => hs, rfl, rfl⟩
  obtain ⟨e, he, ht⟩ := exists_touched_of_mem h he'
  exact ⟨e, he, ht.key.symm, ht.connId.symm⟩

theorem lookup_of_closeAll {ids : List ℤ} {s : Socket}
    (h : (c.closeAll ids).connections.lookup id = some s) : c.connections.lookup id = some s := by
  rw [lookup_closeAll] at h
  split at h
  · cases h
  · exact h

theorem lookup_emplaceConnection {i : ℤ} (h : id ≠ i) (s : Socket) :
    (c.emplaceConnection i s).connections.lookup id = c.connections.lookup id := by
  rw [emplaceConnection]
  dsimp only
  split
  · rfl
  · exact AList.lookup_insert_ne h

/-- A record comes in that is not about the attempt, and perhaps a socket. -/
theorem Keeps.of_emplace {pos : ℕ} {k : ConnectionID} {p : PeerInfo}
    (hpeers : c'.peers = Multimap.emplace pos (k, p) c.peers) (habout : ¬ About id (k, p))
    (hsocket : c'.connections.lookup id = c.connections.lookup id)
    (hwaiting : attempts id c'.pendingConnects = attempts id c.pendingConnects)
    (hscheduled : c'.scheduled = c.scheduled) : Keeps id c c' := by
  refine ⟨fun e' he' ha => ?_, fun s hs => hsocket ▸ hs, hwaiting, ?_⟩
  · rw [hpeers] at he'
    rcases Multimap.mem_emplace.1 he' with rfl | he'
    · exact absurd ha habout
    · exact ⟨e', he', rfl, rfl⟩
  · rw [Conn.outcomes, hscheduled, Conn.outcomes]

theorem openSn_keeps (c : Conn) (env : Env) (pk : String) (keepAlive : ℤ) (h : id ≠ c.nextConnId) :
    Keeps id c (c.openSn env ⟨snId, pk, ""⟩ pk keepAlive) := by
  refine .of_emplace rfl ?_ (lookup_emplaceConnection h _) rfl rfl
  rintro (⟨hsn, _⟩ | hid)
  · cases hsn
  · exact h hid.symm

theorem attempts_append_ne {pc : PendingConnect} (h : id ≠ pc.connId) (l : List PendingConnect) :
    attempts id (l ++ [pc]) = attempts id l := by
  simp [attempts, h.symm]

end Keep

/-! ## What decides an attempt -/

/-- To take the first entry out that `p` finds is to take it out of the entries for its attempt. -/
theorem attempts_eraseP_ne {id i : ℤ} {p : PendingConnect → Bool}
    (hp : ∀ pc, p pc = true → pc.connId = i) (h : id ≠ i) (l : List PendingConnect) :
    attempts id (l.eraseP p) = attempts id l := by
  induction l with
  | nil => rfl
  | cons pc l ih =>
    by_cases hpc : p pc = true
    · simp [attempts, hpc, hp pc hpc, h.symm]
    · have hkeep : (pc :: l).eraseP p = pc :: l.eraseP p := by simp [hpc]
      rw [hkeep, attempts, List.filter_cons, ← attempts, ih, attempts, attempts, List.filter_cons]

/-- The only entry for an attempt goes. -/
theorem attempts_eraseP_self {id : ℤ} {p : PendingConnect → Bool} {pc : PendingConnect}
    {l : List PendingConnect} (hp : ∀ pc, p pc = true → pc.connId = id) (hpc : p pc = true)
    (h : attempts id l = [pc]) : attempts id (l.eraseP p) = [] := by
  induction l with
  | nil => rfl
  | cons pc' l ih =>
    by_cases hid : pc'.connId = id
    · have hcons : attempts id (pc' :: l) = pc' :: attempts id l := by simp [attempts, hid]
      rw [hcons, List.cons.injEq] at h
      obtain ⟨rfl, h⟩ := h
      rw [List.eraseP_cons_of_pos hpc]
      exact h
    · have hnot : p pc' = false := Bool.eq_false_iff.2 fun hp' => hid (hp pc' hp')
      have hcons : ∀ l, attempts id (pc' :: l) = attempts id l := fun l => by simp [attempts, hid]
      rw [List.eraseP_cons_of_neg (by simp [hnot]), hcons]
      exact ih (by rwa [hcons] at h)

/-- There is at most one entry for an attempt, so it is the one that is waiting. -/
theorem Phase.waiting (h : Phase r heard c) {pc : PendingConnect} (hpc : pc ∈ c.pendingConnects)
    (hid : pc.connId = r.connId) : attempts r.connId c.pendingConnects = [pc] ∧
      pc.onConnect = r.onConnect ∧ pc.onFailure = r.onFailure ∧ c.outcomes r.connId = [] := by
  have hmem : pc ∈ attempts r.connId c.pendingConnects :=
    List.mem_filter.2 ⟨hpc, beq_iff_eq.2 hid⟩
  cases h with
  | pending pc₀ hw hconnect hfailure ho =>
    rw [hw, List.mem_singleton] at hmem
    subst hmem
    exact ⟨hw, hconnect, hfailure, ho⟩
  | connected hw | failed _ hw =>
    rw [hw] at hmem
    cases hmem

/-- The `HELLO` that is waited for. -/
theorem Attempt.hello (h : Attempt r heard c) (hheard : heard) {pc : PendingConnect}
    {e : ConnectionID × PeerInfo}
    (hpc : c.pendingConnects.find? (fun pc => pc.connId == r.connId) = some pc)
    (hfind : c.peers.find? (fun e => e.1.eq (.ofId pc.connId)) = some e)
    (hpeers : c'.peers = c.peers) (hconn : c'.connections = c.connections)
    (hnext : c'.nextConnId = c.nextConnId) (halloc : c'.allocated = c.allocated)
    (hscheduled : c'.scheduled = c.scheduled ++ [⟨.connectSuccess pc.onConnect e.1, true⟩])
    (hwaiting : c'.pendingConnects = c.pendingConnects.eraseP fun pc => pc.connId == r.connId) :
    Attempt r heard c' := by
  have hhit := List.find?_some hpc
  have hid : pc.connId = r.connId := beq_iff_eq.1 hhit
  obtain ⟨hw, hconnect, _, ho⟩ := h.phase.waiting (List.mem_of_find?_eq_some hpc) hid
  have hkeyHit := List.find?_some hfind
  have hkeyId : e.1.id = r.connId := (ConnectionID.id_eq_of_eq hkeyHit).trans hid
  have hsn : e.1.sn = false := by
    rw [ConnectionID.sn, hkeyId]
    exact ConnectionID.sn_ofId_of_pos h.pos
  have hkey := (h.own e (List.mem_of_find?_eq_some hfind) (Or.inl ⟨hsn, hkeyId⟩)).1
  refine ⟨h.pos, hnext ▸ h.lt, halloc ▸ h.not_allocated, hpeers ▸ h.own, hconn ▸ h.socket,
    .connected ?_ ?_ hheard⟩
  · rw [hwaiting]
    exact attempts_eraseP_self (fun pc hpc => beq_iff_eq.1 hpc) hhit hw
  · have hjob : (Closure.connectSuccess pc.onConnect e.1).connectId = some r.connId := by
      rw [Closure.connectId, hkeyId]
    rw [outcomes_append_one hscheduled hjob, ho, hconnect, hkey]
    rfl

/-- The time of the attempt is up. -/
theorem Attempt.timeOut (h : Attempt r heard c) {pc : PendingConnect}
    (hpc : pc ∈ c.pendingConnects) (hid : pc.connId = r.connId)
    (hpeers : c'.peers = c.peers.filter fun e => !e.1.eq (.ofId pc.connId))
    (hconn : c'.connections = (c.closeAll [pc.connId]).connections)
    (hnext : c'.nextConnId = c.nextConnId) (halloc : c'.allocated = c.allocated)
    (hscheduled : c'.scheduled = c.scheduled ++
      [⟨.connectFailure pc.onFailure (.ofId pc.connId) "connection attempt timed out", false⟩])
    (hwaiting : c'.pendingConnects = c.pendingConnects.erase pc) : Attempt r heard c' := by
  obtain ⟨hw, _, hfailure, ho⟩ := h.phase.waiting hpc hid
  have hgone : ∀ e ∈ c'.peers, ¬ About r.connId e := by
    intro e he habout
    rw [hpeers] at he
    obtain ⟨hmem, hkept⟩ := List.mem_filter.1 he
    have heq : e.1.eq (.ofId pc.connId) = true := by
      rw [(h.own e hmem habout).1, hid]
      exact (ConnectionID.eq_not_sn_iff (ConnectionID.sn_ofId_of_pos h.pos)).2 ⟨rfl, rfl⟩
    rw [heq] at hkept
    cases hkept
  have hsocket : c'.connections.lookup r.connId = none := by
    rw [hconn, lookup_closeAll, hid, if_pos (List.mem_singleton_self _)]
  refine ⟨h.pos, hnext ▸ h.lt, halloc ▸ h.not_allocated, ?_, ?_,
    .failed "connection attempt timed out" ?_ ?_ (AList.lookup_eq_none.1 hsocket) hgone⟩
  · exact fun e he habout => absurd habout (hgone e he)
  · exact fun s hs => by rw [hsocket] at hs; cases hs
  · rw [hwaiting, List.erase_eq_eraseP]
    exact attempts_eraseP_self (fun pc' h => by rw [← beq_iff_eq.1 h, hid]) (beq_self_eq_true pc) hw
  · rw [hfailure, hid] at hscheduled
    refine (@outcomes_append_one c _ r.connId _ hscheduled rfl).trans ?_
    rw [ho]
    rfl

/-- An attempt is followed through every change. -/
theorem Attempt.change (h : Attempt r heard c) (hheard : ev.isHelloOn r.connId = true → heard)
    (hc : Change cfg ev o c c') : Attempt r heard c' := by
  have hcount : r.connId < c'.nextConnId ∧ r.connId ∉ c'.allocated := by
    cases hc.counting with
    | none hnext halloc _ => rw [hnext, halloc]; exact ⟨h.lt, h.not_allocated⟩
    | next hnext halloc _ =>
      rw [hnext, halloc]
      exact ⟨h.lt.trans (by omega), h.not_allocated⟩
    | allocate hnext halloc _ =>
      rw [hnext, halloc, List.mem_append, List.mem_singleton]
      exact ⟨h.lt.trans (by omega), fun hid => hid.elim h.not_allocated h.lt.ne⟩
    | redeem i hi hnext halloc _ =>
      rw [hnext, halloc]
      exact ⟨h.lt, fun hid => h.not_allocated (List.mem_of_mem_erase hid)⟩
  obtain ⟨hlt, halloc⟩ := hcount
  cases hc with
  | write | record | allocate | active | flags =>
    exact h.keeps hlt halloc (.of_subset (List.Subset.refl _) (fun _ hs => hs) rfl rfl)
  | report _ hconnect | settle _ _ _ hconnect =>
    exact h.keeps hlt halloc (.of_subset (List.Subset.refl _) (fun _ hs => hs) rfl
      (outcomes_report rfl hconnect))
  | touch ht => exact h.keeps hlt halloc (touch_keeps ht)
  | drop hperm =>
    refine h.keeps hlt halloc (.of_subset ?_ (fun _ => lookup_of_closeAll) rfl rfl)
    exact List.Subset.trans (List.subset_append_right _ _) hperm.symm.subset
  | dropDead hperm =>
    refine h.keeps hlt halloc (.of_subset ?_ (fun _ hs => hs) rfl rfl)
    exact List.Subset.trans (List.subset_cons_self _ _) hperm.symm.subset
  | bye =>
    exact h.keeps hlt halloc (.of_subset (List.Subset.refl _) (fun _ => lookup_of_closeAll) rfl rfl)
  | @index _ e he hsn =>
    have hne : r.connId ≠ e.2.connId := by
      intro hid
      rw [(h.own _ he (Or.inr hid.symm)).1] at hsn
      exact absurd (ConnectionID.sn_ofId_of_pos h.pos) (Bool.ne_false_iff.2 hsn)
    refine h.keeps hlt halloc (.of_subset (List.Subset.refl _) (fun s hs => ?_) rfl rfl)
    rwa [AList.lookup_insert_ne hne] at hs
  | openSn env => exact h.keeps hlt halloc (openSn_keeps c env _ _ h.lt.ne)
  | @connectFail _ _ r' reason hev hid =>
    have hne : r.connId ≠ r'.connId := fun heq => h.not_allocated (heq ▸ hid)
    refine h.keeps hlt halloc (.of_subset (List.Subset.refl _) (fun _ hs => hs) rfl
      (outcomes_append rfl ?_))
    simpa [Closure.connectId, ConnectionID.ofId] using hne.symm
  | @connectRemote _ _ r' hev hid =>
    have hne : r.connId ≠ r'.connId := fun heq => h.not_allocated (heq ▸ hid)
    refine h.keeps hlt halloc (.of_emplace rfl ?_ (lookup_emplaceConnection hne _)
      (attempts_append_ne hne _) rfl)
    rintro (⟨_, hid⟩ | hid)
    · exact hne hid.symm
    · exact hne hid.symm
  | bind =>
    refine h.keeps hlt halloc (.of_subset (List.Subset.refl _) (fun s hs => ?_) rfl rfl)
    exact (lookup_emplaceConnection h.lt.ne _).symm.trans hs
  | @addPeer _ pos p env immediate m hev hp hs =>
    have hne : r.connId ≠ p.connId := by
      intro heq
      rw [← heq] at hs
      exact absurd (h.socket _ hs) nofun
    refine h.keeps hlt halloc (.of_emplace rfl ?_ rfl rfl rfl)
    rintro (⟨hsn, _⟩ | hid)
    · cases hsn
    · exact hne hid.symm
  | @hello _ env immediate i m pc e hev hm hpc hfind =>
    have hhit := List.find?_some hpc
    by_cases hi : i = r.connId
    · subst hi
      refine h.hello (hheard ?_) hpc hfind rfl rfl rfl rfl rfl rfl
      simp [hev, ConnEvent.isHelloOn, head?_of_getD hm (by decide)]
    · have hkeyHit := List.find?_some hfind
      refine h.keeps hlt halloc (.of_subset (List.Subset.refl _) (fun _ hs => hs)
        (attempts_eraseP_ne (fun pc hpc => beq_iff_eq.1 hpc) (Ne.symm hi) _)
        (outcomes_append rfl ?_))
      rw [Closure.connectId, ConnectionID.id_eq_of_eq hkeyHit, ConnectionID.ofId,
        beq_iff_eq.1 hhit]
      exact fun heq => hi (Option.some.inj heq)
  | @timeOut _ env pc hev hpc =>
    by_cases hid : pc.connId = r.connId
    · exact h.timeOut hpc hid rfl rfl rfl rfl rfl rfl
    · refine h.keeps hlt halloc (.of_subset (List.filter_subset_self _)
        (fun _ => lookup_of_closeAll) ?_ (outcomes_append rfl ?_))
      · rw [List.erase_eq_eraseP]
        exact attempts_eraseP_ne (fun pc' h => by rw [← beq_iff_eq.1 h]) (Ne.symm hid) _
      · simpa [Closure.connectId, ConnectionID.ofId] using hid

/-! ## The life of an attempt -/

theorem outcomes_of_not_uses {id : ℤ} (h : ¬ c.Uses id) : c.outcomes id = [] := by
  rw [outcomes, List.filter_eq_nil_iff]
  intro b hb
  obtain ⟨j, hj, rfl⟩ := List.mem_map.1 hb
  intro hid
  exact h (.job j hj (by simpa using hid))

theorem attempts_of_not_uses {id : ℤ} (h : ¬ c.Uses id) : attempts id c.pendingConnects = [] := by
  rw [attempts, List.filter_eq_nil_iff]
  exact fun pc hpc hid => h (.pending pc hpc (by simpa using hid))

theorem not_about_of_not_uses {id : ℤ} (h : ¬ c.Uses id) {e : ConnectionID × PeerInfo}
    (he : e ∈ c.peers) : ¬ About id e := by
  rintro (⟨hsn, hid⟩ | hid)
  · exact h (.key e he hsn hid)
  · exact h (.peer e he hid)

/-- An attempt begins to wait, or fails at once. -/
theorem Attempt.begin {env : Env} (hc : c.Counted) (hid : r.connId ∈ c.allocated)
    (hok : { c with allocated := c.allocated.erase r.connId }.proxyConnectRemote env r = .ok c') :
    Attempt r heard c' := by
  have hfresh : ¬ c.Uses r.connId := fun hu => hc.used_not_allocated _ hu hid
  have hsocket : r.connId ∉ c.connections := fun hs => hfresh (.socket hs)
  have hattempts := attempts_of_not_uses hfresh
  have houtcomes := outcomes_of_not_uses hfresh
  have hpos := hc.allocated_pos _ hid
  have hlt := hc.allocated_lt _ hid
  have halloc : r.connId ∉ c.allocated.erase r.connId := hc.allocated_nodup.not_mem_erase
  rcases proxyConnectRemote_cases hok with ⟨what, _, rfl⟩ | ⟨_, rfl⟩
  · refine ⟨hpos, hlt, halloc, fun e he habout => absurd habout (not_about_of_not_uses hfresh he),
      fun s hs => absurd (AList.lookup_isSome.1 (Option.isSome_of_mem hs)) hsocket, ?_⟩
    refine .failed ("connect() failed: " ++ what) hattempts ?_ hsocket
      fun e he => not_about_of_not_uses hfresh he
    refine (@outcomes_append_one c _ r.connId _ rfl rfl).trans ?_
    rw [houtcomes]
    rfl
  · refine ⟨hpos, hlt, halloc, fun e he habout => ?_, fun s hs => ?_, ?_⟩
    · rcases Multimap.mem_emplace.1 he with rfl | he
      · exact ⟨rfl, rfl⟩
      · exact absurd habout (not_about_of_not_uses hfresh he)
    · have hinsert : (c.connections.insert r.connId (.dealer false)).lookup r.connId = some s := by
        have hs : (if r.connId ∈ c.connections then c.connections
            else c.connections.insert r.connId (.dealer false)).lookup r.connId = some s := hs
        rwa [if_neg hsocket] at hs
      rw [AList.lookup_insert] at hinsert
      exact (Option.some.inj hinsert).symm
    · refine .pending ⟨r.connId, timeAfter env.now r.timeout, r.onConnect, r.onFailure⟩ ?_ rfl rfl
        houtcomes
      have happend : attempts r.connId (c.pendingConnects ++
          [⟨r.connId, timeAfter env.now r.timeout, r.onConnect, r.onFailure⟩])
          = attempts r.connId c.pendingConnects ++
            [⟨r.connId, timeAfter env.now r.timeout, r.onConnect, r.onFailure⟩] := by
        simp [attempts]
      rw [hattempts] at happend
      exact happend

theorem not_mem_of_attempts {id : ℤ} (h : attempts id c.pendingConnects = []) :
    ∀ pc ∈ c.pendingConnects, pc.connId ≠ id := by
  intro pc hpc hid
  exact absurd (beq_iff_eq.2 hid) (List.filter_eq_nil_iff.1 h pc hpc)

theorem Attempt.resolved (h : Attempt r heard c) :
    c.Pending r ∨ (c.Connected r ∧ heard) ∨ c.Failed r := by
  cases h.phase with
  | pending pc hw _ _ ho =>
    have hmem : pc ∈ attempts r.connId c.pendingConnects := by
      rw [hw]
      exact List.mem_singleton_self pc
    obtain ⟨hpc, hid⟩ := List.mem_filter.1 hmem
    exact Or.inl ⟨⟨pc, hpc, beq_iff_eq.1 hid⟩, ho⟩
  | connected hw ho hheard => exact Or.inr (Or.inl ⟨⟨not_mem_of_attempts hw, ho⟩, hheard⟩)
  | failed reason hw ho hsocket hpeers =>
    exact Or.inr (Or.inr ⟨not_mem_of_attempts hw, ⟨reason, ho⟩, hsocket, hpeers⟩)

/-- **An attempt is resolved once.**  After the `CONNECT_REMOTE` message has been processed, and at
any later time, the attempt is waiting and no callback has been scheduled; or `on_connect` has been
scheduled once, because of a `HELLO` on this connection; or `on_failure` has been scheduled once,
and the connection and its record are gone. -/
theorem attempt_resolved {cfg : Config κ} {es₁ es₂ : List ConnEvent} {env : Env}
    (h : Transition.run (step cfg) start (es₁ ++ .connectRemote env r :: es₂) = some c) :
    (c.Pending r ∨ (c.Connected r ∧ ∃ ev ∈ es₂, ev.isHelloOn r.connId = true) ∨ c.Failed r) ∧
    ¬ (c.Pending r ∧ c.Connected r) ∧ ¬ (c.Pending r ∧ c.Failed r) ∧
    ¬ (c.Connected r ∧ c.Failed r) := by
  obtain ⟨c₁, h₁, h⟩ := Transition.run_append_eq_some.1 h
  obtain ⟨c₂, hconnect, h₂⟩ := Transition.run_cons_eq_some.1 h
  rw [step] at hconnect
  split at hconnect
  · rename_i hid
    have hbegin : Attempt r (∃ ev ∈ es₂, ev.isHelloOn r.connId = true) c₂ :=
      .begin (run_counted h₁) hid (Except.toOption_eq_some.1 hconnect)
    have htrack := run_changes (P := Attempt r _)
      (fun ev hev _ _ _ htrack hc => htrack.change (fun hhello => ⟨ev, hev, hhello⟩) hc) hbegin h₂
    refine ⟨htrack.resolved, ?_, ?_, ?_⟩
    · rintro ⟨hp, hc⟩
      exact absurd (hp.outcomes.symm.trans hc.outcomes) (by simp)
    · rintro ⟨hp, hf⟩
      obtain ⟨reason, ho⟩ := hf.outcomes
      exact absurd (hp.outcomes.symm.trans ho) (by simp)
    · rintro ⟨hc, hf⟩
      obtain ⟨reason, ho⟩ := hf.outcomes
      exact absurd (hc.outcomes.symm.trans ho) (by simp)
  · cases hconnect

/-- A remote that is greeted, and answers. -/
def someRemote :
    ConnectRemote := { connId := 2, onConnect := 0, onFailure := 1, remote := "tcp://a" }

def helloOn (id : ℤ) : ConnEvent := .message {} true id false { parts := ["HELLO"] }

/-- A second `HELLO` does not count. -/
theorem attempt_resolved_twice : ∃ c,
    Transition.run (step bareConfig) start
      ([.allocate] ++ .connectRemote {} someRemote :: [helloOn 2, helloOn 2]) = some c ∧
    (c.Pending someRemote ∨
      (c.Connected someRemote ∧ ∃ ev ∈ [helloOn 2, helloOn 2], ev.isHelloOn 2 = true) ∨
      c.Failed someRemote) ∧
    ¬ (c.Pending someRemote ∧ c.Connected someRemote) ∧
    ¬ (c.Pending someRemote ∧ c.Failed someRemote) ∧
    ¬ (c.Connected someRemote ∧ c.Failed someRemote) := by
  have hsome : (Transition.run (step bareConfig) start
      ([.allocate] ++ .connectRemote {} someRemote :: [helloOn 2, helloOn 2])).isSome = true := rfl
  obtain ⟨c, hc⟩ := Option.isSome_iff_exists.1 hsome
  exact ⟨c, hc, attempt_resolved hc⟩

end Conn

end OxenMQ
