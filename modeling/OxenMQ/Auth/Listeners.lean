import OxenMQ.Connections.Attempts
import OxenMQ.Control.Calls

/-!
# Listening sockets and their domains

Every listening socket is given a domain when it is set up, and libzmq names the domain when it asks
whether somebody may connect.  The domain is the place of the listener in the vector `bind`, where
what is needed for the answer is kept.

Before `start()`, `listen_curve` and `listen_plain` put their entry in the vector, and `start()`
opens one socket after the other, in the order of the vector, and gives up if one cannot be opened.
Later the socket is opened first, for the place at the end of the vector, and the entry is put there
if that works; if it does not the next socket is opened for the same place.  `Listening` goes
through all of this.  Its `listeners` are what the sockets have been set up with and which call that
was for, and nothing reads them: that the vector says the same is what is proved (`Placed`).

That the address can be bound, and that `on_bind` returns, is one outcome here.  If `start()` has
failed it does so ever after, because the sockets for the workers are already there.
-/

set_option autoImplicit false

namespace OxenMQ

open Control

/-- The number of values of a `size_t`. -/
def sizeLimit : ℕ := 2 ^ 64

/-- What `oxenc` does with a `size_t`, `none` for an exception: what has been written is read back.
`BtInteger.reference` is an implementation. -/
structure BtInteger where
  serialize : ℕ → String
  deserialize : String → Option ℕ
  deserialize_serialize : ∀ n < sizeLimit, deserialize (serialize n) = some n

theorem BtInteger.serialize_inj (bt : BtInteger) {m n : ℕ} (hm : m < sizeLimit) (hn : n < sizeLimit)
    (h : bt.serialize m = bt.serialize n) : m = n := by
  have hread := bt.deserialize_serialize m hm
  rw [h, bt.deserialize_serialize n hn] at hread
  exact (Option.some.inj hread).symm

/-- Reads an integer: digits between `i` and `e`. -/
def btDecode : List Char → Option ℕ
  | 'i' :: rest =>
    let digits := rest.takeWhile Char.isDigit
    if digits ≠ [] ∧ rest.dropWhile Char.isDigit = ['e'] then some (Nat.ofDigitChars 10 digits 0)
    else none
  | _ => none

theorem btDecode_toDigits (n : ℕ) : btDecode ('i' :: Nat.toDigits 10 n ++ ['e']) = some n := by
  have hdigits : ∀ c ∈ Nat.toDigits 10 n, c.isDigit = true :=
    fun _ hc => Nat.isDigit_of_mem_toDigits (by decide) (by decide) hc
  have htake : (Nat.toDigits 10 n ++ ['e']).takeWhile Char.isDigit = Nat.toDigits 10 n := by
    rw [List.takeWhile_append_of_pos hdigits]
    exact List.append_nil _
  have hdrop : (Nat.toDigits 10 n ++ ['e']).dropWhile Char.isDigit = ['e'] := by
    rw [List.dropWhile_append_of_pos hdigits]
    rfl
  rw [List.cons_append, btDecode, htake, hdrop, if_pos ⟨Nat.toDigits_ne_nil, rfl⟩,
    Nat.ofDigitChars_toDigits (by decide) (by decide)]

def BtInteger.reference : BtInteger where
  serialize n := String.ofList ('i' :: Nat.toDigits 10 n ++ ['e'])
  -- A number that does not fit is an error.
  deserialize s := (btDecode s.toList).filter fun n => decide (n < sizeLimit)
  deserialize_serialize n hn := by
    rw [String.toList_ofList, btDecode_toDigits, Option.filter_some, if_pos (decide_eq_true hn)]

/-- A listening socket: the call it was opened for, and its `zap_domain`. -/
structure Listener where
  address : String
  curve : Bool
  allow : Callback
  domain : String
  deriving DecidableEq

/-- How far `start()` has come. -/
inductive Stage where
  | notStarted
  | running
  | failed
  deriving DecidableEq

structure Listening where
  stage : Stage := .notStarted
  conn : Conn := {}
  /-- The sockets that `proxy_bind` has opened, by their numbers. -/
  listeners : AList (fun _ : ℤ => Listener) := ∅

/-- What can happen to the listeners. -/
inductive ListenEvent where
  /-- `listen_curve` or `listen_plain` while there is no proxy thread. -/
  | listen (b : BindRequest)
  /-- `start()`, and which of the addresses can be bound. -/
  | start (good : ℕ → Bool)
  /-- Something happens in the proxy thread.  A `BIND` message is one of these things. -/
  | proxy (e : ConnEvent)

namespace Listening

variable {κ : Type}

/-- The entry of a call in the vector, as long as there is no socket. -/
def entryOf (b : BindRequest) : BindData := ⟨b.address, b.curve, 0, b.allow⟩

/-- A socket that has been bound is kept under the next number, for the place `i` of the vector. -/
def keep (bt : BtInteger) (l : Listening) (i : ℕ) (address : String) (curve : Bool)
    (allow : Callback) : AList fun _ : ℤ => Listener :=
  if l.conn.nextConnId ∈ l.conn.connections then l.listeners
  else l.listeners.insert l.conn.nextConnId ⟨address, curve, allow, bt.serialize i⟩

/-- `proxy_bind` for an entry that is in the vector already. -/
def proxyBindAt (bt : BtInteger) (l : Listening) (i : ℕ) (b : BindData) : Listening :=
  let id := l.conn.nextConnId
  { l with
    conn := { l.conn with
      nextConnId := id + 1
      bind := l.conn.bind.set i { b with connId := id } }.emplaceConnection id .router
    listeners := l.keep bt i b.address b.curve b.allow }

/-- The loop of `proxy_loop_init` over the entries from `i` on, of which there are `n`. -/
def bindAll (bt : BtInteger) (good : ℕ → Bool) : (n i : ℕ) → Listening → Listening
  | 0, _, l => { l with stage := .running }
  | n + 1, i, l =>
    match l.conn.bind[i]? with
    | none => { l with stage := .running }
    | some b => if good i then bindAll bt good n (i + 1) (l.proxyBindAt bt i b)
      else { l with stage := .failed }

/-- The part of `proxy_loop_init` that makes sockets. -/
def proxyLoopInit (bt : BtInteger) (good : ℕ → Bool) (l : Listening) : Listening :=
  let id := l.conn.nextConnId
  let c := { l.conn with inprocListenerConnid := id, nextConnId := id + 1 }
  { l with conn := c.emplaceConnection id .router }.bindAll bt good l.conn.bind.length 0

/-- The listeners after something has happened in the proxy thread.  `proxy_bind` is called for the
place at the end of the vector. -/
def listenersAfter (bt : BtInteger) (l : Listening) : ConnEvent → AList fun _ : ℤ => Listener
  | .bind address curve allow true => l.keep bt l.conn.bind.length address curve allow
  | _ => l.listeners

/-- What an event does. -/
def act (bt : BtInteger) (cfg : Config κ) (l : Listening) : ListenEvent → Option Listening
  | .listen b =>
    if l.stage = .running then none
    else some { l with conn := { l.conn with bind := l.conn.bind ++ [entryOf b] } }
  | .start good =>
    match l.stage with
    | .notStarted => some (l.proxyLoopInit bt good)
    | .failed => some l
    | .running => none
  | .proxy e =>
    if l.stage = .running then
      (Conn.step cfg l.conn e).map fun c =>
        { l with conn := c, listeners := l.listenersAfter bt e }
    else none

/-- The places in a vector are numbered by a `size_t`, so it does not get longer than that. -/
def step (bt : BtInteger) (cfg : Config κ) (l : Listening) (e : ListenEvent) : Option Listening :=
  (l.act bt cfg e).filter fun l => decide (l.conn.bind.length ≤ sizeLimit)

end Listening

/-! ## What the proxy thread leaves alone -/

namespace Conn

variable {κ : Type} {cfg : Config κ} {c c' c'' : Conn} {ev : ConnEvent}

/-- No listening socket is opened. -/
structure SameListeners (c c' : Conn) : Prop where
  bind : c'.bind = c.bind
  inproc : c'.inprocListenerConnid = c.inprocListenerConnid
  router : ∀ id, c'.connections.lookup id = some .router → c.connections.lookup id = some .router

theorem SameListeners.refl (c : Conn) : SameListeners c c := ⟨rfl, rfl, fun _ h => h⟩

theorem SameListeners.trans (h : SameListeners c c') (h' : SameListeners c' c'') :
    SameListeners c c'' :=
  ⟨h'.bind.trans h.bind, h'.inproc.trans h.inproc, fun id hid => h.router id (h'.router id hid)⟩

theorem router_closeAll {ids : List ℤ} {id : ℤ}
    (h : (c.closeAll ids).connections.lookup id = some .router) :
    c.connections.lookup id = some .router := by
  rw [lookup_closeAll] at h
  split at h
  · cases h
  · exact h

theorem router_emplaceConnection {id i : ℤ} {s : Socket} (hs : s ≠ .router)
    (h : (c.emplaceConnection i s).connections.lookup id = some .router) :
    c.connections.lookup id = some .router := by
  rw [emplaceConnection] at h
  dsimp only at h
  split at h
  · exact h
  · rcases eq_or_ne id i with rfl | hne
    · rw [AList.lookup_insert] at h
      exact absurd (Option.some.inj h) hs
    · rwa [AList.lookup_insert_ne hne] at h

/-- Only `BIND` opens listening sockets. -/
theorem Change.sameListeners {o : Option ℤ} (h : Change cfg ev o c c')
    (hev : ∀ address curve allow, ev ≠ .bind address curve allow true) : SameListeners c c' := by
  have hinproc := h.frame.2.2
  cases h with
  | write | report | record | settle | touch | dropDead | allocate | connectFail | addPeer | hello
  | active | flags => exact ⟨rfl, rfl, fun _ h => h⟩
  | drop | bye | timeOut => exact ⟨rfl, rfl, fun _ h => router_closeAll h⟩
  | @index _ e _ _ hnot =>
    refine ⟨rfl, rfl, fun id hid => ?_⟩
    rcases eq_or_ne id e.2.connId with rfl | hne
    · cases (AList.lookup_insert _).symm.trans hid
    · exact (AList.lookup_insert_ne hne).symm.trans hid
  | openSn env =>
    exact ⟨rfl, rfl, fun _ hid => router_emplaceConnection (s := .dealer true) nofun hid⟩
  | connectRemote =>
    exact ⟨rfl, rfl, fun _ hid => router_emplaceConnection (s := .dealer false) nofun hid⟩
  | bind _ hbind => exact absurd hbind (hev _ _ _)

theorem step_sameListeners (h : step cfg c ev = some c')
    (hev : ∀ address curve allow, ev ≠ .bind address curve allow true) : SameListeners c c' := by
  obtain ⟨o, hchanges⟩ := step_changes h
  exact hchanges.induction (fun _ _ _ hc h => hc.trans (h.sameListeners hev)) (.refl c)

end Conn

/-! ## Every listener has its place -/

namespace Listening

variable {κ : Type} {bt : BtInteger} {cfg : Config κ} {l l' : Listening}

/-- The entry of each listener is where its domain says, and every listening socket that the program
has asked for is one of the listeners. -/
structure Placed (bt : BtInteger) (l : Listening) : Prop where
  entry : ∀ id s, l.listeners.lookup id = some s →
    ∃ d, s.domain = bt.serialize d ∧ l.conn.bind[d]? = some ⟨s.address, s.curve, id, s.allow⟩
  listener : ∀ id, l.conn.connections.lookup id = some .router →
    id = l.conn.inprocListenerConnid ∨ id ∈ l.listeners
  early : l.stage = .notStarted → l.listeners = ∅ ∧ l.conn.connections = ∅

/-- The place of a listener is a `size_t`. -/
theorem lt_sizeLimit {d : ℕ} {b : BindData} (hsize : l.conn.bind.length ≤ sizeLimit)
    (h : l.conn.bind[d]? = some b) : d < sizeLimit :=
  (List.getElem?_eq_some_iff.1 h).1.trans_le hsize

theorem lookup_keep {i : ℕ} {address : String} {curve : Bool} {allow : Callback} {id : ℤ}
    {s : Listener} (h : (l.keep bt i address curve allow).lookup id = some s) :
    l.listeners.lookup id = some s ∨
      id = l.conn.nextConnId ∧ s = ⟨address, curve, allow, bt.serialize i⟩ := by
  rw [keep] at h
  split at h
  · exact Or.inl h
  · rcases eq_or_ne id l.conn.nextConnId with rfl | hne
    · exact Or.inr ⟨rfl, (Option.some.inj ((AList.lookup_insert _).symm.trans h)).symm⟩
    · exact Or.inl ((AList.lookup_insert_ne hne).symm.trans h)

/-- The new socket is one of the listeners, if there is a new socket. -/
theorem listener_keep {i : ℕ} {address : String} {curve : Bool} {allow : Callback} {c : Conn}
    {id : ℤ} (hc : c.connections = l.conn.connections)
    (hlistener : l.conn.connections.lookup id = some .router →
      id = l.conn.inprocListenerConnid ∨ id ∈ l.listeners)
    (h : (c.emplaceConnection l.conn.nextConnId .router).connections.lookup id = some .router) :
    id = l.conn.inprocListenerConnid ∨ id ∈ l.keep bt i address curve allow := by
  rw [Conn.emplaceConnection] at h
  dsimp only at h
  rw [hc] at h
  rw [keep]
  split at h
  · rw [if_pos ‹_›]
    exact hlistener h
  · rw [if_neg ‹_›]
    rcases eq_or_ne id l.conn.nextConnId with rfl | hne
    · exact Or.inr ((AList.mem_insert _).2 (Or.inl rfl))
    · rw [AList.lookup_insert_ne hne] at h
      exact (hlistener h).imp_right fun hmem => (AList.mem_insert _).2 (Or.inr hmem)

/-- The sockets in front of the place `i` have been opened. -/
structure Opened (bt : BtInteger) (l : Listening) (i : ℕ) : Prop where
  entry : ∀ id s, l.listeners.lookup id = some s →
    ∃ d < i, s.domain = bt.serialize d ∧ l.conn.bind[d]? = some ⟨s.address, s.curve, id, s.allow⟩
  listener : ∀ id, l.conn.connections.lookup id = some .router →
    id = l.conn.inprocListenerConnid ∨ id ∈ l.listeners

theorem Opened.placed {i : ℕ} {stage : Stage} (h : l.Opened bt i) (hstage : stage ≠ .notStarted) :
    { l with stage }.Placed bt where
  entry id s hs := (h.entry id s hs).imp fun _ hd => hd.2
  listener := h.listener
  early heq := absurd heq hstage

theorem Opened.proxyBindAt {i : ℕ} {b : BindData} (h : l.Opened bt i)
    (hb : l.conn.bind[i]? = some b) : (l.proxyBindAt bt i b).Opened bt (i + 1) where
  entry id s hs := by
    have hi : i < l.conn.bind.length := (List.getElem?_eq_some_iff.1 hb).1
    rcases lookup_keep hs with hs | ⟨rfl, rfl⟩
    · obtain ⟨d, hd, hdomain, hentry⟩ := h.entry id s hs
      refine ⟨d, hd.trans (Nat.lt_succ_self i), hdomain, ?_⟩
      exact (List.getElem?_set_ne hd.ne').trans hentry
    · exact ⟨i, Nat.lt_succ_self i, rfl, List.getElem?_set_self hi⟩
  listener id hid := listener_keep rfl (h.listener id) hid

/-- **The loop.**  Whether it comes to its end or not, each socket has been opened for its place. -/
theorem Opened.bindAll {good : ℕ → Bool} {n i : ℕ} (h : l.Opened bt i) :
    (bindAll bt good n i l).Placed bt := by
  induction n generalizing i l with
  | zero => exact h.placed nofun
  | succ n ih =>
    rw [Listening.bindAll]
    split
    · exact h.placed nofun
    · rename_i b hb
      split
      · exact ih (h.proxyBindAt hb)
      · exact h.placed nofun

theorem Placed.proxyLoopInit {good : ℕ → Bool} (h : l.Placed bt) (hstage : l.stage = .notStarted) :
    (l.proxyLoopInit bt good).Placed bt := by
  obtain ⟨hlisteners, hconnections⟩ := h.early hstage
  refine Opened.bindAll ⟨fun id s hs => ?_, fun id hid => Or.inl ?_⟩
  · dsimp only at hs
    rw [hlisteners, AList.lookup_empty] at hs
    cases hs
  · -- There is only the listener for connections within the process.
    by_contra hne
    have hne' : id ≠ l.conn.nextConnId := hne
    have hlookup : l.conn.connections.lookup id = some .router :=
      (Conn.lookup_emplaceConnection (c := l.conn) hne' .router).symm.trans hid
    rw [hconnections, AList.lookup_empty] at hlookup
    cases hlookup

/-- A `BIND` message, with success. -/
theorem Placed.proxyBind (h : l.Placed bt) (hstage : l.stage = .running) (address : String)
    (curve : Bool) (allow : Callback) :
    { l with
      conn := l.conn.proxyBind address curve allow true
      listeners := l.keep bt l.conn.bind.length address curve allow }.Placed bt where
  entry id s hs := by
    rcases lookup_keep hs with hs | ⟨rfl, rfl⟩
    · obtain ⟨d, hdomain, hentry⟩ := h.entry id s hs
      exact ⟨d, hdomain,
        (List.getElem?_append_left (List.getElem?_eq_some_iff.1 hentry).1).trans hentry⟩
    · exact ⟨l.conn.bind.length, rfl, List.getElem?_concat_length⟩
  listener id hid := listener_keep rfl (h.listener id) hid
  early heq := absurd (hstage.symm.trans heq) nofun

/-- What `act` does, by the events that matter to the listeners. -/
inductive Move (bt : BtInteger) (l : Listening) : ListenEvent → Listening → Prop
  | listen (b : BindRequest) :
    Move bt l (.listen b) { l with conn := { l.conn with bind := l.conn.bind ++ [entryOf b] } }
  | start (good : ℕ → Bool) (hstage : l.stage = .notStarted) :
    Move bt l (.start good) (l.proxyLoopInit bt good)
  | startAgain (good : ℕ → Bool) : Move bt l (.start good) l
  | bind (address : String) (curve : Bool) (allow : Callback) (hstage : l.stage = .running) :
    Move bt l (.proxy (.bind address curve allow true))
      { l with
        conn := l.conn.proxyBind address curve allow true
        listeners := l.keep bt l.conn.bind.length address curve allow }
  | other {e : ConnEvent} {c : Conn} (hstage : l.stage = .running)
      (he : ∀ address curve allow, e ≠ .bind address curve allow true)
      (hsame : l.conn.SameListeners c) : Move bt l (.proxy e) { l with conn := c }

theorem step_move {e : ListenEvent} (hs : step bt cfg l e = some l') : Move bt l e l' := by
  obtain ⟨hs, _⟩ := Option.filter_eq_some_iff.1 hs
  cases e with
  | listen b =>
    rw [act] at hs
    split at hs
    · cases hs
    · cases hs
      exact .listen b
  | start good =>
    rw [act] at hs
    split at hs
    · cases hs
      exact .start good ‹_›
    · cases hs
      exact .startAgain good
    · cases hs
  | proxy e =>
    rw [act] at hs
    split at hs
    · rename_i hstage
      obtain ⟨c, hc, rfl⟩ := Option.map_eq_some_iff.1 hs
      by_cases hbind : ∃ address curve allow, e = .bind address curve allow true
      · obtain ⟨address, curve, allow, rfl⟩ := hbind
        cases hc
        exact .bind address curve allow hstage
      · have he : ∀ address curve allow, e ≠ .bind address curve allow true :=
          fun address curve allow heq => hbind ⟨address, curve, allow, heq⟩
        have hlisteners : l.listenersAfter bt e = l.listeners := by
          rw [listenersAfter.eq_def]
          split
          · exact absurd rfl (he _ _ _)
          · rfl
        rw [hlisteners]
        exact .other hstage he (Conn.step_sameListeners hc he)
    · cases hs

theorem Placed.step {e : ListenEvent} (h : l.Placed bt) (hs : step bt cfg l e = some l') :
    l'.Placed bt := by
  cases step_move hs with
  | listen b =>
    refine ⟨fun id s hs => ?_, h.listener, h.early⟩
    obtain ⟨d, hdomain, hentry⟩ := h.entry id s hs
    exact ⟨d, hdomain,
      (List.getElem?_append_left (List.getElem?_eq_some_iff.1 hentry).1).trans hentry⟩
  | start good hstage => exact h.proxyLoopInit hstage
  | startAgain good => exact h
  | bind address curve allow hstage => exact h.proxyBind hstage address curve allow
  | other hstage he hsame =>
    refine ⟨fun id s hs => ?_, fun id hid => ?_, fun heq => absurd (hstage.symm.trans heq) nofun⟩
    · dsimp only
      rw [hsame.bind]
      exact h.entry id s hs
    · dsimp only
      rw [hsame.inproc]
      exact h.listener id (hsame.router id hid)

theorem run_placed {es : List ListenEvent} (hrun : Transition.run (step bt cfg) {} es = some l) :
    l.Placed bt := by
  refine Transition.run_induction (P := Placed bt) ⟨fun id s hs => ?_, fun id hid => ?_, ?_⟩
    (fun _ _ _ _ _ h hs => h.step hs) hrun
  · cases (AList.lookup_empty id).symm.trans hs
  · cases (AList.lookup_empty id).symm.trans hid
  · exact fun _ => ⟨rfl, rfl⟩

theorem run_size {es : List ListenEvent} (hrun : Transition.run (step bt cfg) {} es = some l) :
    l.conn.bind.length ≤ sizeLimit :=
  Transition.run_induction (P := fun l : Listening => l.conn.bind.length ≤ sizeLimit)
    (Nat.zero_le _)
    (fun _ _ _ _ _ _ hs => of_decide_eq_true (Option.filter_eq_some_iff.1 hs).2) hrun

/-! ## The vector and the calls -/

/-- The arguments of `listen_curve` or `listen_plain`. -/
structure Call where
  address : String
  curve : Bool
  allow : Callback
  deriving DecidableEq

/-- What an entry of the vector has from the call it is for. -/
def callOf (b : BindData) : Call := ⟨b.address, b.curve, b.allow⟩

end Listening

/-- The call that an event puts in the vector. -/
def ListenEvent.call? : ListenEvent → Option Listening.Call
  | .listen b => some ⟨b.address, b.curve, b.allow⟩
  | .proxy (.bind address curve allow true) => some ⟨address, curve, allow⟩
  | _ => none

namespace Listening

variable {κ : Type} {bt : BtInteger} {cfg : Config κ} {l l' : Listening}

theorem calls_proxyBindAt {i : ℕ} {b : BindData} (hb : l.conn.bind[i]? = some b) :
    (l.proxyBindAt bt i b).conn.bind.map callOf = l.conn.bind.map callOf := by
  have hi : i < l.conn.bind.length := (List.getElem?_eq_some_iff.1 hb).1
  change (l.conn.bind.set i { b with connId := l.conn.nextConnId }).map callOf = _
  refine List.ext_getElem? fun j => ?_
  rw [List.getElem?_map, List.getElem?_map]
  rcases eq_or_ne i j with rfl | hne
  · rw [List.getElem?_set_self hi, hb]
    rfl
  · rw [List.getElem?_set_ne hne]

theorem calls_bindAll (good : ℕ → Bool) (n i : ℕ) :
    (bindAll bt good n i l).conn.bind.map callOf = l.conn.bind.map callOf := by
  induction n generalizing i l with
  | zero => rfl
  | succ n ih =>
    rw [bindAll]
    split
    · rfl
    · rename_i b hb
      split
      · exact (ih (i + 1)).trans (calls_proxyBindAt hb)
      · rfl

/-- Only the calls are in the vector, in their order. -/
theorem run_calls {es : List ListenEvent} (hrun : Transition.run (step bt cfg) {} es = some l) :
    l.conn.bind.map callOf = es.filterMap ListenEvent.call? := by
  refine Transition.run_induction_history
    (P := fun es l => l.conn.bind.map callOf = es.filterMap ListenEvent.call?) rfl
    (fun es l e l' _ ih hs => ?_) hrun
  rw [List.filterMap_append, ← ih]
  cases step_move hs with
  | listen b => exact List.map_append
  | start good => exact (calls_bindAll good _ 0).trans (List.append_nil _).symm
  | startAgain good => exact (List.append_nil _).symm
  | bind address curve allow => exact List.map_append
  | other _ he hsame =>
    rename_i e c _
    have hcall : ListenEvent.call? (.proxy e) = none := by
      rw [ListenEvent.call?.eq_def]
      split
      · rename_i heq
        cases heq
      · rename_i heq
        cases heq
        exact absurd rfl (he _ _ _)
      · rfl
    rw [List.filterMap_cons_none hcall, List.filterMap_nil, List.append_nil, hsame.bind]

end Listening

end OxenMQ
