import OxenMQ.Connections.Changes

/-!
# The flags that say that connections have changed

Whoever keeps a pointer to a socket relies on `connections_updated`: the socket is still there, or
the flag is set (`Conn.Flagged`).  And whoever has told `epoll` about the sockets relies on it too:
there is no socket that is not known, or the flag is set.  `Conn.Gains` says both of a change to the
tables.

* An event opens at most one socket, and sets the flag when it does (`step_gains`).
* An entry may come into the table without the flag, when `connections[id]` makes one with nothing
  behind it, but a socket never leaves it that way.
* No handler clears `connections_updated` or `proxy_skip_one_poll`; this is for the loop to do.

A message from the network does more: it leaves the table of connections as it is, or sets the flag
(`receive_kept_or_updated`).
-/

set_option autoImplicit false

namespace OxenMQ

/-- Is it the loop that sets or resets its flags? -/
def ConnEvent.setsFlags : ConnEvent → Bool
  | .setFlags _ _ => true
  | _ => false

namespace Conn

variable {κ : Type} {c c' c'' : Conn} {o : Option ℤ}

/-- Is this the number of a connection with a socket behind it? -/
def isOpen (c : Conn) (id : ℤ) : Bool := (c.connections.lookup id).any Socket.isOpen

theorem mem_of_isOpen {id : ℤ} (h : c.isOpen id = true) : id ∈ c.connections := by
  obtain ⟨s, hs, _⟩ := (Option.any_eq_true _ _).1 h
  rw [← AList.lookup_isSome, hs, Option.isSome_some]

theorem isOpen_congr (h : c'.connections = c.connections) (id : ℤ) :
    c'.isOpen id = c.isOpen id := by
  rw [isOpen, h, isOpen]

/-- The flag stays set, and it is set if a socket is gone. -/
structure Flagged (c c' : Conn) : Prop where
  mono : c.connectionsUpdated = true → c'.connectionsUpdated = true
  gone : ∀ id, c.isOpen id = true → c'.isOpen id = false → c'.connectionsUpdated = true

namespace Flagged

theorem of_eq (hconn : c'.connections = c.connections)
    (hflag : c'.connectionsUpdated = c.connectionsUpdated) : c.Flagged c' := by
  refine ⟨fun h => hflag.trans h, fun id hopen hclosed => ?_⟩
  rw [isOpen_congr hconn, hopen] at hclosed
  cases hclosed

theorem of_updated (h : c'.connectionsUpdated = true) : c.Flagged c' := ⟨fun _ => h, fun _ _ _ => h⟩

theorem refl (c : Conn) : c.Flagged c := of_eq rfl rfl

theorem trans (h : c.Flagged c') (h' : c'.Flagged c'') : c.Flagged c'' := by
  refine ⟨fun hc => h'.mono (h.mono hc), fun id hopen hclosed => ?_⟩
  cases hid : c'.isOpen id with
  | true => exact h'.gone id hid hclosed
  | false => exact h'.mono (h.gone id hopen hid)

end Flagged

/-! ## Opening and closing -/

/-- No socket is new but the one numbered `o`, none is gone without a mark, and the flags stay set.
-/
structure Gains (o : Option ℤ) (c c' : Conn) : Prop extends Flagged c c' where
  old : ∀ id, c'.isOpen id = true → c.isOpen id = true ∨ o = some id
  opened : o ≠ none → c'.connectionsUpdated = true
  skip : c.proxySkipOnePoll = true → c'.proxySkipOnePoll = true

namespace Gains

theorem of_eq (hconn : c'.connections = c.connections)
    (hupdated : c'.connectionsUpdated = c.connectionsUpdated)
    (hskip : c.proxySkipOnePoll = true → c'.proxySkipOnePoll = true) : Gains none c c' where
  toFlagged := .of_eq hconn hupdated
  old id hid := Or.inl (isOpen_congr hconn id ▸ hid)
  opened := absurd rfl
  skip := hskip

theorem refl (c : Conn) : Gains none c c := of_eq rfl rfl id

/-- Nothing is opened before. -/
theorem trans (h : Gains none c c') (h' : Gains o c' c'') : Gains o c c'' where
  toFlagged := h.toFlagged.trans h'.toFlagged
  old id hid := (h'.old id hid).imp_left fun hid => (h.old id hid).resolve_right nofun
  opened := h'.opened
  skip hc := h'.skip (h.skip hc)

/-- Nothing is opened afterwards. -/
theorem after (h : Gains o c c') (h' : Gains none c' c'') : Gains o c c'' where
  toFlagged := h.toFlagged.trans h'.toFlagged
  old id hid := h.old id ((h'.old id hid).resolve_right nofun)
  opened hne := h'.mono (h.opened hne)
  skip hc := h'.skip (h.skip hc)

/-- Something else has changed before. -/
theorem before {d : Conn} (h : Gains o d c') (hconn : d.connections = c.connections)
    (hupdated : d.connectionsUpdated = c.connectionsUpdated)
    (hskip : c.proxySkipOnePoll = true → d.proxySkipOnePoll = true) : Gains o c c' :=
  (of_eq hconn hupdated hskip).trans h

end Gains

theorem closeAll_gains (c : Conn) (ids : List ℤ) : Gains none c (c.closeAll ids) where
  mono h := by rw [updated_closeAll, h, Bool.true_or]
  gone id hopen hclosed := by
    have hid : id ∈ ids := by
      by_contra hid
      rw [isOpen, lookup_closeAll, if_neg hid, ← isOpen, hopen] at hclosed
      cases hclosed
    have hany : (ids.any fun id => decide (id ∈ c.connections)) = true :=
      List.any_eq_true.2 ⟨id, hid, decide_eq_true (mem_of_isOpen hopen)⟩
    rw [updated_closeAll, hany, Bool.or_true]
  old id hid := by
    rw [isOpen, lookup_closeAll] at hid
    split at hid
    · cases hid
    · exact Or.inl hid
  opened := absurd rfl
  skip h := h

theorem emplaceConnection_gains (c : Conn) (id : ℤ) (s : Socket) :
    Gains (some id) c (c.emplaceConnection id s) where
  toFlagged := .of_updated rfl
  old i hi := by
    unfold emplaceConnection isOpen at hi
    dsimp only at hi
    split at hi
    · exact Or.inl hi
    · by_cases heq : i = id
      · exact Or.inr (congrArg some heq.symm)
      · rw [AList.lookup_insert_ne heq] at hi
        exact Or.inl hi
  opened _ := rfl
  skip h := h

/-- An entry with nothing behind it comes in. -/
theorem insert_null_gains {id : ℤ} (hnot : id ∉ c.connections) :
    Gains none c { c with connections := c.connections.insert id .null } where
  mono h := h
  gone i hopen hclosed := by
    have hne : i ≠ id := by
      rintro rfl
      exact hnot (mem_of_isOpen hopen)
    rw [isOpen, AList.lookup_insert_ne hne, ← isOpen, hopen] at hclosed
    cases hclosed
  old i hi := by
    refine Or.inl ?_
    by_cases heq : i = id
    · rw [isOpen, heq, AList.lookup_insert] at hi
      cases hi
    · rwa [isOpen, AList.lookup_insert_ne heq] at hi
  opened := absurd rfl
  skip h := h

theorem Change.gains {cfg : Config κ} {ev : ConnEvent} (h : Change cfg ev o c c')
    (hev : ev.setsFlags = false) : Gains o c c' := by
  cases h with
  | write | report | record | touch | dropDead | allocate | addPeer | active =>
    exact .of_eq rfl rfl id
  | settle _ _ _ _ hskip => exact .of_eq rfl rfl hskip
  | connectFail | hello => exact .of_eq rfl rfl fun _ => rfl
  | drop | timeOut => exact (closeAll_gains c _).after (.of_eq rfl rfl id)
  | bye => exact closeAll_gains c _
  | index _ _ hnot => exact insert_null_gains hnot
  | openSn | bind => exact (emplaceConnection_gains _ c.nextConnId _).before rfl rfl id
  | connectRemote => exact (emplaceConnection_gains c _ _).after (.of_eq rfl rfl id)
  | flags _ hflags =>
    subst hflags
    cases hev

/-- **An event opens at most one socket**, and leaves a mark when it opens or closes one. -/
theorem step_gains {cfg : Config κ} {e : ConnEvent} (h : step cfg c e = some c')
    (hev : e.setsFlags = false) : ∃ o, Gains o c c' := by
  obtain ⟨o, hchanges⟩ := step_changes h
  refine ⟨o, ?_⟩
  clear h
  induction hchanges with
  | refl => exact .refl _
  | tail _ hlast ih => exact ih.after (hlast.gains hev)
  | opened _ hlast ih => exact ih.trans (hlast.gains hev)

theorem run_flagged {cfg : Config κ} {es : List ConnEvent} (hes : ∀ e ∈ es, e.setsFlags = false)
    (h : Transition.run (step cfg) c es = some c') : c.Flagged c' := by
  induction es generalizing c with
  | nil =>
    cases h
    exact .refl _
  | cons e es ih =>
    obtain ⟨c₁, he, h⟩ := Transition.run_cons_eq_some.1 h
    obtain ⟨o, hgains⟩ := step_gains he (hes e List.mem_cons_self)
    exact hgains.toFlagged.trans (ih (fun e' he' => hes e' (List.mem_cons_of_mem e he')) h)

/-! ## Messages from the network -/

theorem answerRequest_kept (c : Conn) (tag : String) (success : Bool) (data : List String) :
    (c.answerRequest tag success data).connections = c.connections ∧
    (c.answerRequest tag success data).connectionsUpdated = c.connectionsUpdated := by
  unfold answerRequest
  split <;> exact ⟨rfl, rfl⟩

/-- A message from the network leaves the table of connections as it is, or sets the flag. -/
theorem receive_kept_or_updated {cfg : Config κ} {env : Env} {immediate : Bool} {connId : ℤ}
    {router : Bool} {m : Incoming} {arr : Option (Arrival κ)}
    (h : receive cfg c env immediate connId router m = .ok (c', arr)) :
    (c'.connections = c.connections ∧ c'.connectionsUpdated = c.connectionsUpdated) ∨
    c'.connectionsUpdated = true := by
  rcases receive_cases h with ⟨hb, _⟩ | ⟨_, c₁, harr, hc'⟩
  · rcases proxyHandleBuiltin_cases hb with ⟨_, hcases⟩ | ⟨hf, _⟩
    · rcases hcases with rfl | ⟨wire, rfl⟩ | ⟨_, _, rfl⟩ | ⟨_, _, rfl⟩ | ⟨_, _, rfl⟩ | ⟨_, rfl⟩
      · exact Or.inl ⟨rfl, rfl⟩
      · exact Or.inl ⟨rfl, rfl⟩
      · rcases handleReply_cases c router _ with hsame | ⟨_, _, hanswer⟩
        · rw [hsame]
          exact Or.inl ⟨rfl, rfl⟩
        · rw [hanswer]
          exact Or.inl (answerRequest_kept ..)
      · rcases handleHello_cases c connId with hsame | ⟨_, _, _, _, _, hdone⟩
        · rw [hsame]
          exact Or.inl ⟨rfl, rfl⟩
        · rw [hdone]
          exact Or.inl ⟨rfl, rfl⟩
      · by_cases hid : connId ∈ c.connections
        · rw [closeAll_of_mem hid]
          exact Or.inr rfl
        · rw [closeAll_of_notMem hid]
          exact Or.inl ⟨rfl, rfl⟩
      · rcases handleErrorResponse_cases c router _ _ with hsame | ⟨_, hanswer⟩
        · rw [hsame]
          exact Or.inl ⟨rfl, rfl⟩
        · rw [hanswer]
          exact Or.inl (answerRequest_kept ..)
    · cases hf
  · obtain ⟨c₂, found, wire, hfind, rfl⟩ := arrival_cases harr
    refine Or.inl ?_
    have hc₂ : c₂.connections = c.connections ∧ c₂.connectionsUpdated = c.connectionsUpdated := by
      rcases findPeer_cases hfind with rfl | ⟨_, _, _, rfl⟩ | ⟨_, _, _, _, _, _, rfl⟩ <;>
        exact ⟨rfl, rfl⟩
    rcases hc' with rfl | rfl <;> exact hc₂

end Conn

end OxenMQ
