import OxenMQ.Connections.Closing

/-!
# Updates of the service node list

`OxenMQ.Connections.ActiveSns` says which service nodes are active after `SET_SNS` and `UPDATE_SNS`.
Here is what the two do to the tables of connections, which is the same thing for both: the entries
of the service nodes that leave the list are dropped, our own connections to them are closed, and
nothing else happens (`Conn.Leave`).

Both functions first work out who leaves and then go over these one by one.  So it is enough to know
what becomes of the tables when one leaves (`dropSn_leave`) and that two such steps are one step for
all of them (`Leave.trans`); in which order they come does not matter (`Leave.congr`).

All this is so exactly if the connections that are to be closed can be closed
(`Conn.sns_update_exact_iff`).  After a `BYE` there may be one that cannot, because the record stays
behind without a socket and `connections[id]` makes an empty one for it.
-/

set_option autoImplicit false

namespace OxenMQ

namespace Conn

variable {c c' c₁ c₂ : Conn}

/-! ## Closing connections -/

/-- `c'` is `c` with the connections `ids` closed, as far as they are there: in `connections`, in
`outgoing_sn_conns`, and with the flag for the loop set if there was one.  Nothing else changes. -/
structure Shuts (c : Conn) (ids : Set ℤ) (c' : Conn) : Prop where
  closed : ∀ id ∈ ids, c'.connections.lookup id = none
  kept : ∀ id ∉ ids, c'.connections.lookup id = c.connections.lookup id
  snClosed : ∀ id ∈ ids, id ∈ c.connections → c'.outgoingSnConns.lookup id = none
  snKept : ∀ id, (id ∈ ids → id ∉ c.connections) →
    c'.outgoingSnConns.lookup id = c.outgoingSnConns.lookup id
  updated : c'.connectionsUpdated = true ↔
    c.connectionsUpdated = true ∨ ∃ id ∈ ids, id ∈ c.connections
  frame : c' = { c with
    connections := c'.connections
    outgoingSnConns := c'.outgoingSnConns
    connectionsUpdated := c'.connectionsUpdated }

theorem Shuts.mem {ids : Set ℤ} (h : c.Shuts ids c') {id : ℤ} :
    id ∈ c'.connections ↔ id ∉ ids ∧ id ∈ c.connections := by
  rw [← AList.lookup_isSome, ← AList.lookup_isSome]
  by_cases hid : id ∈ ids
  · simp [h.closed id hid, hid]
  · simp [h.kept id hid, hid]

theorem Shuts.refl (c : Conn) : c.Shuts ∅ c :=
  ⟨nofun, fun _ _ => rfl, nofun, fun _ _ => rfl, by simp, rfl⟩

theorem closeAll_shuts (c : Conn) (ids : List ℤ) : c.Shuts {id | id ∈ ids} (c.closeAll ids) := by
  refine ⟨fun id hid => ?_, fun id hid => ?_, fun id hid hmem => ?_, fun id hid => ?_, ?_, rfl⟩
  · rw [lookup_closeAll]
    exact if_pos hid
  · rw [lookup_closeAll]
    exact if_neg hid
  · rw [lookup_outgoingSnConns_closeAll, if_pos ⟨hid, hmem⟩]
  · rw [lookup_outgoingSnConns_closeAll, if_neg fun h => hid h.1 h.2]
  · rw [updated_closeAll, Bool.or_eq_true, List.any_eq_true]
    simp only [decide_eq_true_iff]
    rfl

theorem Shuts.trans {ids ids' : Set ℤ} (h₁ : c.Shuts ids c₁) (h₂ : c₁.Shuts ids' c₂) :
    c.Shuts (ids ∪ ids') c₂ where
  closed id hid := by
    by_cases hid' : id ∈ ids'
    · exact h₂.closed id hid'
    · rw [h₂.kept id hid', h₁.closed id (hid.resolve_right hid')]
  kept id hid := by
    rw [Set.mem_union, not_or] at hid
    rw [h₂.kept id hid.2, h₁.kept id hid.1]
  snClosed id hid hmem := by
    by_cases hid₁ : id ∈ ids
    · rw [h₂.snKept id fun _ h => (h₁.mem.1 h).1 hid₁, h₁.snClosed id hid₁ hmem]
    · exact h₂.snClosed id (hid.resolve_left hid₁) (h₁.mem.2 ⟨hid₁, hmem⟩)
  snKept id hid := by
    rw [h₂.snKept id fun h h' => hid (.inr h) (h₁.mem.1 h').2, h₁.snKept id fun h => hid (.inl h)]
  updated := by
    rw [h₂.updated, h₁.updated]
    constructor
    · rintro ((h | ⟨id, hid, hmem⟩) | ⟨id, hid, hmem⟩)
      · exact .inl h
      · exact .inr ⟨id, .inl hid, hmem⟩
      · exact .inr ⟨id, .inr hid, (h₁.mem.1 hmem).2⟩
    · rintro (h | ⟨id, hid, hmem⟩)
      · exact .inl (.inl h)
      · by_cases hid₁ : id ∈ ids
        · exact .inl (.inr ⟨id, hid₁, hmem⟩)
        · exact .inr ⟨id, hid.resolve_left hid₁, h₁.mem.2 ⟨hid₁, hmem⟩⟩
  frame := by
    rw [h₂.frame, h₁.frame]

/-- Closing does not look at the rest. -/
theorem Shuts.with {ids : Set ℤ} (h : c.Shuts ids c') (peers : List (ConnectionID × PeerInfo))
    (active : List String) :
    Shuts { c with peers := peers, activeServiceNodes := active } ids
      { c' with peers := peers, activeServiceNodes := active } :=
  ⟨h.closed, h.kept, h.snClosed, h.snKept, h.updated, by rw [h.frame]⟩

/-! ## Service nodes leave -/

variable {gone gone' : List String} {closeLinger : ℤ}

/-- Is the entry stored under one of these service nodes? -/
def storedUnder (gone : List String) (e : ConnectionID × PeerInfo) : Bool :=
  gone.any fun pk => e.1.eq ⟨snId, pk, ""⟩

/-- Our own connections to these service nodes. -/
def outgoingUnder (c : Conn) (gone : List String) : Set ℤ :=
  {id | ∃ e ∈ c.peers, storedUnder gone e = true ∧ e.2.outgoing = true ∧ e.2.connId = id}

/-- These service nodes leave: their entries are dropped, and our connections to them are closed. -/
structure Leave (c : Conn) (gone : List String) (c' : Conn) : Prop where
  peers : c'.peers = c.peers.filter fun e => !storedUnder gone e
  shuts : Shuts { c with peers := c'.peers, activeServiceNodes := c'.activeServiceNodes }
    (c.outgoingUnder gone) c'

theorem Leave.congr (h : c.Leave gone c') (hgone : ∀ pk, pk ∈ gone ↔ pk ∈ gone') :
    c.Leave gone' c' := by
  have hstored : storedUnder gone = storedUnder gone' := funext fun e => by
    rw [Bool.eq_iff_iff, storedUnder, storedUnder, List.any_eq_true, List.any_eq_true]
    simp only [hgone]
  refine ⟨hstored ▸ h.peers, ?_⟩
  rw [outgoingUnder, ← hstored]
  exact h.shuts

theorem Leave.refl (c : Conn) : c.Leave [] c where
  peers := by simp [storedUnder]
  shuts := by
    have hnone : c.outgoingUnder [] = ∅ := by simp [outgoingUnder, storedUnder]
    rw [hnone]
    exact .refl c

/-- Our connections to the second ones are those that are left of them. -/
theorem Leave.outgoingUnder_append (h : c.Leave gone c') (gone' : List String) :
    c.outgoingUnder (gone ++ gone') = c.outgoingUnder gone ∪ c'.outgoingUnder gone' := by
  ext id
  constructor
  · rintro ⟨e, he, hstored, hout⟩
    rw [storedUnder, List.any_append, Bool.or_eq_true] at hstored
    by_cases hgone : storedUnder gone e = true
    · exact .inl ⟨e, he, hgone, hout⟩
    · refine .inr ⟨e, ?_, hstored.resolve_left hgone, hout⟩
      rw [h.peers]
      exact List.mem_filter.2 ⟨he, by simpa using hgone⟩
  · rintro (⟨e, he, hstored, hout⟩ | ⟨e, he, hstored, hout⟩)
    · refine ⟨e, he, ?_, hout⟩
      rw [storedUnder, List.any_append, Bool.or_eq_true]
      exact .inl hstored
    · rw [h.peers] at he
      refine ⟨e, (List.mem_filter.1 he).1, ?_, hout⟩
      rw [storedUnder, List.any_append, Bool.or_eq_true]
      exact .inr hstored

/-- Service nodes that leave one after the other leave. -/
theorem Leave.trans (h₁ : c.Leave gone c₁) (h₂ : c₁.Leave gone' c₂) :
    c.Leave (gone ++ gone') c₂ where
  peers := by
    rw [h₂.peers, h₁.peers, List.filter_filter]
    refine List.filter_congr fun e _ => ?_
    rw [storedUnder, storedUnder, storedUnder, List.any_append, Bool.not_or, Bool.and_comm]
  shuts := by
    rw [h₁.outgoingUnder_append]
    exact (h₁.shuts.with c₂.peers c₂.activeServiceNodes).trans h₂.shuts

theorem dropSn_leave (c : Conn) (pk : String) : c.Leave [pk] (c.dropSn pk) where
  peers := List.filter_congr fun e _ => by
    rw [storedUnder, List.any_cons, List.any_nil, Bool.or_false]
  shuts := by
    have hids : c.outgoingUnder [pk] =
        {id | id ∈ outgoingIds (c.equalRange ⟨snId, pk, ""⟩)} := by
      ext id
      simp [outgoingUnder, outgoingIds, storedUnder, equalRange, and_assoc, and_left_comm]
    rw [hids]
    exact closeAll_shuts { c with peers := _, activeServiceNodes := _ } _

theorem foldl_dropSn_leave (gone : List String) (c : Conn) :
    c.Leave gone (gone.foldl dropSn c) := by
  induction gone generalizing c with
  | nil => exact .refl c
  | cons pk gone ih => exact (dropSn_leave c pk).trans (ih _)

/-- The service nodes are now those in `active`; the records of those that have left are dropped,
our connections to them are closed, and nothing else changes. -/
structure Replaces (c : Conn) (active : Set String) (c' : Conn) : Prop where
  active : ∀ pk, pk ∈ c'.activeServiceNodes ↔ pk ∈ active
  leave : c.Leave (c.activeServiceNodes.filter fun pk => decide (pk ∉ c'.activeServiceNodes)) c'

theorem proxyUpdateActiveSnsClean_replaces (added removed : List String) (hc : c.ActiveOk)
    (hadded : ∀ pk ∈ added, pk.length = 32 ∧ pk ∉ c.activeServiceNodes)
    (hremoved : ∀ pk ∈ removed, pk ∈ c.activeServiceNodes)
    (hdrop : ∀ pk ∈ removed, c.Droppable closeLinger pk) :
    ∃ c', c.proxyUpdateActiveSnsClean closeLinger added removed = .ok c' ∧
      c.Replaces {pk | (pk ∈ c.activeServiceNodes ∧ pk ∉ removed) ∨ pk ∈ added} c' := by
  have hfold := foldlM_removeSn_of_droppable (fun pk hpk => hc.length pk (hremoved pk hpk)) hdrop
  have hleave := foldl_dropSn_leave removed c
  have hclean : ∃ c', c.proxyUpdateActiveSnsClean closeLinger added removed = .ok c' ∧
      c' = { removed.foldl dropSn c with activeServiceNodes := c'.activeServiceNodes } := by
    rw [proxyUpdateActiveSnsClean, hfold]
    exact ⟨_, rfl, rfl⟩
  obtain ⟨c', hc', hframe⟩ := hclean
  obtain ⟨_, hmem⟩ := proxyUpdateActiveSnsClean_active hc' hc fun pk hpk => (hadded pk hpk).1
  refine ⟨c', hc', hmem, ?_⟩
  have hgone : ∀ pk, pk ∈ removed ↔
      pk ∈ c.activeServiceNodes.filter fun pk => decide (pk ∉ c'.activeServiceNodes) := fun pk => by
    have hr := hremoved pk
    have ha := hadded pk
    rw [List.mem_filter, decide_eq_true_iff, hmem]
    tauto
  refine Leave.congr ⟨?_, ?_⟩ hgone
  · rw [hframe]
    exact hleave.peers
  · rw [hframe]
    exact hleave.shuts.with _ c'.activeServiceNodes

theorem Replaces.congr {active active' : Set String} (h : c.Replaces active c')
    (hactive : ∀ pk, pk ∈ active ↔ pk ∈ active') : c.Replaces active' c' :=
  ⟨fun pk => (h.active pk).trans (hactive pk), h.leave⟩

theorem proxySetActiveSns_replaces {pubkeys : List String} (hc : c.ActiveOk)
    (hpubkeys : pubkeys.Nodup)
    (hdrop : ∀ pk ∈ c.activeServiceNodes, pk ∉ pubkeys → c.Droppable closeLinger pk) :
    ∃ c', c.proxySetActiveSns closeLinger pubkeys = .ok c' ∧
      c.Replaces {pk | pk ∈ pubkeys ∧ pk.length = 32} c' := by
  rw [proxySetActiveSns_eq closeLinger hpubkeys hc rfl]
  obtain ⟨c', hc', hreplaces⟩ := @proxyUpdateActiveSnsClean_replaces c closeLinger
    ((pubkeys.filter fun pk => pk.length = 32).filter fun pk => decide (pk ∉ c.activeServiceNodes))
    (c.activeServiceNodes.filter fun pk => decide (pk ∉ pubkeys.filter fun pk => pk.length = 32)) hc
    (fun pk hpk => by
      simp only [List.mem_filter, decide_eq_true_iff] at hpk
      exact ⟨hpk.1.2, hpk.2⟩)
    (fun pk hpk => (List.mem_filter.1 hpk).1)
    (fun pk hpk => by
      obtain ⟨hpk, hnot⟩ := List.mem_filter.1 hpk
      refine hdrop pk hpk fun hmem => of_decide_eq_true hnot (List.mem_filter.2 ⟨hmem, ?_⟩)
      exact decide_eq_true (hc.length pk hpk))
  refine ⟨c', hc', hreplaces.congr fun pk => ?_⟩
  simp only [Set.mem_ofPred_eq, List.mem_filter, decide_eq_true_iff]
  tauto

theorem proxyUpdateActiveSns_replaces {added removed : List String} (hc : c.ActiveOk)
    (hdrop : ∀ pk ∈ removed, pk ∈ c.activeServiceNodes → pk ∉ added → c.Droppable closeLinger pk) :
    ∃ c', c.proxyUpdateActiveSns closeLinger added removed = .ok c' ∧
      c.Replaces
        {pk | (pk ∈ c.activeServiceNodes ∧ pk ∉ removed) ∨ (pk ∈ added ∧ pk.length = 32)} c' := by
  obtain ⟨c', hc', hreplaces⟩ := @proxyUpdateActiveSnsClean_replaces c closeLinger
    (added.filter fun pk => decide (pk.length = 32 ∧ pk ∉ c.activeServiceNodes))
    (removed.filter fun pk => decide (pk.length = 32 ∧ pk ∈ c.activeServiceNodes ∧ pk ∉ added)) hc
    (fun pk hpk => of_decide_eq_true (List.mem_filter.1 hpk).2)
    (fun pk hpk => (of_decide_eq_true (List.mem_filter.1 hpk).2).2.1)
    (fun pk hpk => by
      obtain ⟨hpk, hcond⟩ := List.mem_filter.1 hpk
      exact hdrop pk hpk (of_decide_eq_true hcond).2.1 (of_decide_eq_true hcond).2.2)
  refine ⟨c', hc', hreplaces.congr fun pk => ?_⟩
  have hlen := hc.length pk
  simp only [Set.mem_ofPred_eq, List.mem_filter, decide_eq_true_iff]
  tauto

/-- The tables say the same, whatever the order of their entries. -/
structure Same (c₁ c₂ : Conn) : Prop where
  active : ∀ pk, pk ∈ c₁.activeServiceNodes ↔ pk ∈ c₂.activeServiceNodes
  connections : ∀ id, c₁.connections.lookup id = c₂.connections.lookup id
  outgoingSnConns : ∀ id, c₁.outgoingSnConns.lookup id = c₂.outgoingSnConns.lookup id
  rest : c₁ = { c₂ with
    activeServiceNodes := c₁.activeServiceNodes
    connections := c₁.connections
    outgoingSnConns := c₁.outgoingSnConns }

/-- There is one result. -/
theorem Replaces.same {active : Set String} (h₁ : c.Replaces active c₁)
    (h₂ : c.Replaces active c₂) : c₁.Same c₂ := by
  have hactive : ∀ pk, pk ∈ c₁.activeServiceNodes ↔ pk ∈ c₂.activeServiceNodes := fun pk =>
    (h₁.active pk).trans (h₂.active pk).symm
  have hgone : (c.activeServiceNodes.filter fun pk => decide (pk ∉ c₁.activeServiceNodes)) =
      c.activeServiceNodes.filter fun pk => decide (pk ∉ c₂.activeServiceNodes) :=
    List.filter_congr fun pk _ => by simp [hactive]
  obtain ⟨hpeers₁, hshuts₁⟩ := h₁.leave
  obtain ⟨hpeers₂, hshuts₂⟩ := h₂.leave
  rw [hgone] at hpeers₁ hshuts₁
  have hpeers := hpeers₁.trans hpeers₂.symm
  have hupdated : c₁.connectionsUpdated = c₂.connectionsUpdated :=
    Bool.eq_iff_iff.2 (hshuts₁.updated.trans hshuts₂.updated.symm)
  refine ⟨hactive, fun id => ?_, fun id => ?_, ?_⟩
  · by_cases hid : id ∈ c.outgoingUnder
        (c.activeServiceNodes.filter fun pk => decide (pk ∉ c₂.activeServiceNodes))
    · rw [hshuts₁.closed id hid, hshuts₂.closed id hid]
    · rw [hshuts₁.kept id hid, hshuts₂.kept id hid]
  · by_cases hid : id ∈ c.outgoingUnder
        (c.activeServiceNodes.filter fun pk => decide (pk ∉ c₂.activeServiceNodes)) →
        id ∉ c.connections
    · rw [hshuts₁.snKept id hid, hshuts₂.snKept id hid]
    · rw [Classical.not_imp, not_not] at hid
      rw [hshuts₁.snClosed id hid.1 hid.2, hshuts₂.snClosed id hid.1 hid.2]
  · rw [hshuts₁.frame, hshuts₂.frame, hpeers, hupdated]

/-- **Updates of the service node list are exact if and only if the connections that are to be
closed can be closed**: `SET_SNS` and `UPDATE_SNS` return, with the right list and nothing else
changed, and the one has the same effect as the other with what leaves the list. -/
theorem sns_update_exact_iff (closeLinger : ℤ) (c : Conn) (hc : c.ActiveOk) :
    (∀ pubkeys : List String, pubkeys.Nodup →
      ((∃ c', c.proxySetActiveSns closeLinger pubkeys = .ok c' ∧
        c.Replaces {pk | pk ∈ pubkeys ∧ pk.length = 32} c') ↔
      ∀ pk ∈ c.activeServiceNodes, pk ∉ pubkeys → c.Droppable closeLinger pk)) ∧
    (∀ added removed : List String,
      ((∃ c', c.proxyUpdateActiveSns closeLinger added removed = .ok c' ∧
        c.Replaces
          {pk | (pk ∈ c.activeServiceNodes ∧ pk ∉ removed) ∨ (pk ∈ added ∧ pk.length = 32)} c') ↔
      ∀ pk ∈ removed, pk ∈ c.activeServiceNodes → pk ∉ added → c.Droppable closeLinger pk)) ∧
    ∀ pubkeys removed : List String, pubkeys.Nodup →
      (∀ pk, pk ∈ removed ↔ pk ∈ c.activeServiceNodes ∧ pk ∉ pubkeys) →
      ((∃ c₁ c₂, c.proxySetActiveSns closeLinger pubkeys = .ok c₁ ∧
        c.proxyUpdateActiveSns closeLinger pubkeys removed = .ok c₂ ∧ c₁.Same c₂) ↔
      ∀ pk ∈ c.activeServiceNodes, pk ∉ pubkeys → c.Droppable closeLinger pk) := by
  have hset : ∀ pubkeys : List String, pubkeys.Nodup → ∀ c',
      c.proxySetActiveSns closeLinger pubkeys = .ok c' →
      ∀ pk ∈ c.activeServiceNodes, pk ∉ pubkeys → c.Droppable closeLinger pk := by
    intro pubkeys hpubkeys c' hc' pk hpk hgone
    by_contra hdrop
    have hthrows := (throws_proxySetActiveSns hc hpubkeys).2 ⟨pk, hpk, hgone, hdrop⟩
    rw [hc'] at hthrows
    exact not_throws_ok _ hthrows
  refine ⟨fun pubkeys hpubkeys => ⟨?_, proxySetActiveSns_replaces hc hpubkeys⟩,
    fun added removed => ⟨?_, proxyUpdateActiveSns_replaces hc⟩,
    fun pubkeys removed hpubkeys hremoved => ⟨?_, fun hdrop => ?_⟩⟩
  · rintro ⟨c', hc', _⟩
    exact hset pubkeys hpubkeys c' hc'
  · rintro ⟨c', hc', _⟩ pk hpk hactive hadded
    by_contra hdrop
    have hthrows := (throws_proxyUpdateActiveSns hc).2 ⟨pk, hpk, hactive, hadded, hdrop⟩
    rw [hc'] at hthrows
    exact not_throws_ok _ hthrows
  · rintro ⟨c₁, _, hc₁, _⟩
    exact hset pubkeys hpubkeys c₁ hc₁
  · obtain ⟨c₁, hc₁, h₁⟩ := proxySetActiveSns_replaces hc hpubkeys hdrop
    obtain ⟨c₂, hc₂, h₂⟩ := proxyUpdateActiveSns_replaces hc
      fun pk hpk hactive _ => hdrop pk hactive ((hremoved pk).1 hpk).2
    refine ⟨c₁, c₂, hc₁, hc₂, h₁.same (h₂.congr fun pk => ?_)⟩
    have hlen := hc.length pk
    have hpk := hremoved pk
    simp only [Set.mem_ofPred_eq]
    tauto

/-- We are connected to the only service node. -/
def oneSn : Conn :=
  let pk := "fedcba9876543210fedcba9876543210"
  { activeServiceNodes := [pk]
    peers := [(⟨snId, pk, ""⟩, { serviceNode := true, pubkey := pk, connId := 1 })]
    connections := AList.singleton 1 (.dealer true)
    outgoingSnConns := AList.singleton 1 ⟨snId, pk, ""⟩ }

/-- It leaves when a list comes in that has nothing but a bad pubkey in it. -/
theorem sns_update_exact_oneSn : oneSn.ActiveOk ∧
    ∃ c', oneSn.proxySetActiveSns 5000 ["short"] = .ok c' ∧
      oneSn.Replaces {pk | pk ∈ ["short"] ∧ pk.length = 32} c' ∧ c'.peers = [] ∧
      c'.connections.lookup 1 = none := by
  have hok : oneSn.ActiveOk := ⟨by decide, by decide⟩
  have hopen : ∀ id, oneSn.Closes 5000 id := by
    intro id s hs
    have hid : id = 1 := by
      have hmem : id ∈ oneSn.connections := AList.lookup_isSome.1 (Option.isSome_of_mem hs)
      simpa [oneSn, AList.mem_keys] using hmem
    subst hid
    have hs : some (.dealer true) = some s := hs
    cases hs
    exact ⟨nofun, by decide⟩
  obtain ⟨c', hc', hreplaces⟩ := ((sns_update_exact_iff 5000 oneSn hok).1 ["short"] (by decide)).2
    fun _ _ _ _ _ _ => hopen _
  refine ⟨hok, c', hc', hreplaces, ?_⟩
  have hresult : oneSn.proxySetActiveSns 5000 ["short"] = .ok _ := rfl
  obtain rfl := Except.ok.inj (hresult.symm.trans hc')
  exact ⟨rfl, rfl⟩

/-- A service node that we are connected to says `BYE`, and we connect to it again. -/
def emptySocketRun : List ConnEvent :=
  let pk := "fedcba9876543210fedcba9876543210"
  let connect : ConnEvent := .connectSn {} { pubkey := pk, hint := "tcp://sn", keepAlive := 300000 }
  [.setActiveSns [pk], connect, .message {} false 2 false { parts := ["BYE"] }, connect]

/-- Then it cannot leave the list any more. -/
theorem sns_update_throws_emptySocket : ∃ c,
    Transition.run (step bareConfig) start emptySocketRun = some c ∧
    c.activeServiceNodes = ["fedcba9876543210fedcba9876543210"] ∧
    c.connections.lookup 2 = some .null ∧
    c.proxySetActiveSns 5000 [] = .error (.exception "Socket operation on non-socket") :=
  ⟨_, rfl, rfl, rfl, rfl⟩

end Conn

end OxenMQ
