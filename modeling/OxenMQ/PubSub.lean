import OxenMQ.Connections.Defs
import OxenMQ.Lib.Transition

/-!
# Subscriptions

`Subscription` of `pubsub.h`.  A table has the connections that have subscribed, each with the time
at which its subscription runs out, and what it has said about what it is interested in (`Unit` for
`Subscription<void>`).

Each method holds the mutex while it looks at the table, so it is one step, but `publish` has two of
them.  It calls the function under a shared lock and makes a list of the subscriptions that have run
out; then it takes the exclusive lock and removes them.  In between other threads can do anything.
So a state has the lists of the threads that are in the middle of `publish`, and the second step
must not go by the list alone: it looks at the table again, and at the clock.

What the table is compared with is the history: `latest` says when a connection has last subscribed,
unless it has unsubscribed since.  The table has exactly that, except that it may have forgotten
subscriptions that have run out (`Current`).

When a subscription runs out is a point in time, in nanoseconds, and the duration is given in
milliseconds.  A duration that means "for ever" is too long for that.  The point in time wraps
around into the past, and the subscription has run out when it is made.
`subscriptions_reliable_iff` says that this is all that can go wrong.

The clock is that of the last step, and does not go backwards.  The order in which the table is
enumerated is not modelled: nothing depends on it.
-/

set_option autoImplicit false

namespace OxenMQ

variable {β : Type}

/-- A `SubData`, with the connection it is filed under. -/
structure SubData (β : Type) where
  conn : ConnectionID
  expiry : ℤ
  userData : β
  deriving DecidableEq

/-- `Subscription::subs`, by what `operator==` of the connections compares. -/
abbrev Subs (β : Type) := AList fun _ : String ⊕ (ℤ × String) => SubData β

namespace Subs

/-- Returns whether this is a new subscription, or one with other data. -/
def subscribe [BEq β] (subDuration : ℤ) (subs : Subs β) (now : ℤ) (conn : ConnectionID) (data : β) :
    Subs β × Bool :=
  let expiry := timeAfter now subDuration
  match subs.lookup conn.key with
  | none => (subs.insert conn.key ⟨conn, expiry, data⟩, true)
  | some sub =>
    let sub := { sub with expiry := expiry }
    if !(sub.userData == data) then
      (subs.insert conn.key { sub with userData := data }, true)
    else (subs.insert conn.key sub, false)

/-- Returns the data, if there was a subscription. -/
def unsubscribe (subs : Subs β) (conn : ConnectionID) : Subs β × Option β :=
  let (node, subs) := subs.extract conn.key
  (subs, node.map SubData.userData)

def removeExpired (subs : Subs β) (now : ℤ) : Subs β where
  entries := subs.entries.filter fun e => !decide (e.2.expiry < now)
  nodupKeys := subs.nodupKeys.sublist List.filter_sublist

/-- The first part of `publish`: what the function is called with, and what is to be removed. -/
def publish (subs : Subs β) (now : ℤ) : List (ConnectionID × β) × List ConnectionID :=
  subs.entries.foldl (fun (calls, toRemove) e =>
    if e.2.expiry < now then (calls, toRemove ++ [e.2.conn])
    else (calls ++ [(e.2.conn, e.2.userData)], toRemove)) ([], [])

/-- The second part of `publish`. -/
def remove (subs : Subs β) (now : ℤ) (toRemove : List ConnectionID) : Subs β :=
  toRemove.foldl (fun subs conn =>
    match subs.lookup conn.key with
    | some sub => if sub.expiry < now then subs.erase conn.key else subs
    | none => subs) subs

end Subs

/-! ## Threads -/

/-- A step of some thread. -/
inductive SubOp (β : Type) where
  | subscribe (conn : ConnectionID) (data : β)
  | unsubscribe (conn : ConnectionID)
  | removeExpired
  | publish (thread : ℕ)
  /-- The second part of `publish`. -/
  | remove (thread : ℕ)

/-- A step, and what time it is when it is taken. -/
structure SubEvent (β : Type) where
  now : ℤ
  op : SubOp β

/-- What a step returns to its caller, or calls the function with. -/
inductive SubResult (β : Type) where
  | subscribed (new : Bool)
  | unsubscribed (data : Option β)
  | published (calls : List (ConnectionID × β))
  | done

structure Subscription (β : Type) where
  subs : Subs β := ∅
  /-- What the threads that are in the middle of `publish` are going to remove. -/
  toRemove : ℕ → Option (List ConnectionID) := fun _ => none
  clock : ℤ

namespace Subscription

/-- What a step does.  `publish` returns after its first part if there is nothing to be removed. -/
def act [BEq β] (subDuration : ℤ) (s : Subscription β) (e : SubEvent β) :
    Option (Subscription β × SubResult β) :=
  if e.now < s.clock then none
  else
    let s := { s with clock := e.now }
    match e.op with
    | .subscribe conn data =>
      let (subs, new) := s.subs.subscribe subDuration e.now conn data
      some ({ s with subs := subs }, .subscribed new)
    | .unsubscribe conn =>
      let (subs, data) := s.subs.unsubscribe conn
      some ({ s with subs := subs }, .unsubscribed data)
    | .removeExpired => some ({ s with subs := s.subs.removeExpired e.now }, .done)
    | .publish thread =>
      if s.toRemove thread ≠ none then none
      else
        let (calls, toRemove) := s.subs.publish e.now
        let pending := if toRemove.isEmpty then none else some toRemove
        some ({ s with toRemove := Function.update s.toRemove thread pending }, .published calls)
    | .remove thread =>
      match s.toRemove thread with
      | none => none
      | some toRemove =>
        some ({ s with
          subs := s.subs.remove e.now toRemove
          toRemove := Function.update s.toRemove thread none }, .done)

def step [BEq β] (subDuration : ℤ) (s : Subscription β) (e : SubEvent β) :
    Option (Subscription β) :=
  (s.act subDuration e).map Prod.fst

end Subscription

/-! ## The history -/

/-- The last subscription of a connection, and its time, if it has not unsubscribed. -/
def SubEvent.next (conn : ConnectionID) (last : Option (ℤ × β)) (e : SubEvent β) : Option (ℤ × β) :=
  match e.op with
  | .subscribe conn' data => if conn'.eq conn then some (e.now, data) else last
  | .unsubscribe conn' => if conn'.eq conn then none else last
  | _ => last

/-- When a connection has last subscribed, and with which data, unless it has unsubscribed since. -/
def SubEvent.latest (es : List (SubEvent β)) (conn : ConnectionID) : Option (ℤ × β) :=
  es.foldl (SubEvent.next conn) none

/-- Equal, or equal as far as the data type is concerned: then what is stored is not replaced. -/
def SameData [BEq β] (stored data : β) : Prop := stored = data ∨ (stored == data) = true

theorem SameData.eq [BEq β] [LawfulBEq β] {stored data : β} (h : SameData stored data) :
    stored = data :=
  h.elim id eq_of_beq

namespace SubEvent

variable {es : List (SubEvent β)} {e : SubEvent β} {conn : ConnectionID}

theorem latest_snoc (es : List (SubEvent β)) (e : SubEvent β) (conn : ConnectionID) :
    latest (es ++ [e]) conn = next conn (latest es conn) e := by
  rw [latest, List.foldl_append]
  rfl

/-- If this is a `subscribe`, can the point in time be represented at which the subscription runs
out?  A subscription that is made with a negative duration has run out anyway. -/
def Fits (subDuration : ℤ) (e : SubEvent β) : Prop :=
  ∀ conn data, e.op = .subscribe conn data → 0 ≤ subDuration →
    fitsInt64 (e.now + subDuration * 1000000)

/-- What has been subscribed last has been subscribed. -/
theorem fits_of_latest {subDuration time : ℤ} {data : β} (hfits : ∀ e ∈ es, e.Fits subDuration)
    (h : latest es conn = some (time, data)) (hduration : 0 ≤ subDuration) :
    fitsInt64 (time + subDuration * 1000000) := by
  induction es using List.reverseRecOn with
  | nil => cases h
  | append_singleton es e ih =>
    have hbefore : ∀ e ∈ es, e.Fits subDuration := fun e' he' =>
      hfits e' (List.mem_append_left _ he')
    rw [latest_snoc, next] at h
    split at h
    · rename_i conn' data' hop
      split at h
      · cases h
        exact hfits e (by simp) conn' _ hop hduration
      · exact ih hbefore h
    · split at h
      · cases h
      · exact ih hbefore h
    · exact ih hbefore h

end SubEvent

namespace Subs

variable {subs subs' subs'' : Subs β} {now : ℤ} {k : String ⊕ (ℤ × String)}

/-- Nothing has been removed but what has run out. -/
def Expires (now : ℤ) (subs subs' : Subs β) : Prop :=
  ∀ k, subs'.lookup k = subs.lookup k ∨
    subs'.lookup k = none ∧ ∃ sub, subs.lookup k = some sub ∧ sub.expiry < now

theorem Expires.refl (now : ℤ) (subs : Subs β) : Expires now subs subs := fun _ => Or.inl rfl

theorem Expires.trans (h : Expires now subs subs') (h' : Expires now subs' subs'') :
    Expires now subs subs'' := by
  intro k
  rcases h' k with heq | ⟨hnone, sub, hsub, hlt⟩
  · rw [heq]
    exact h k
  · rcases h k with heq | ⟨hnone', _⟩
    · exact Or.inr ⟨hnone, sub, heq ▸ hsub, hlt⟩
    · cases hnone'.symm.trans hsub

theorem lookup_removeExpired (subs : Subs β) (now : ℤ) (k : String ⊕ (ℤ × String)) :
    (subs.removeExpired now).lookup k =
      (subs.lookup k).filter fun sub => !decide (sub.expiry < now) :=
  List.dlookup_filter subs.nodupKeys _ k

theorem expires_removeExpired (subs : Subs β) (now : ℤ) :
    Expires now subs (subs.removeExpired now) := by
  intro k
  rw [lookup_removeExpired]
  cases hsub : subs.lookup k with
  | none => exact Or.inl rfl
  | some sub =>
    rw [Option.filter_some]
    by_cases hlt : sub.expiry < now
    · exact Or.inr ⟨by simp [hlt], sub, rfl, hlt⟩
    · exact Or.inl (by simp [hlt])

/-- The second part of `publish` looks again before it removes anything. -/
theorem expires_remove (subs : Subs β) (now : ℤ) (toRemove : List ConnectionID) :
    Expires now subs (subs.remove now toRemove) := by
  refine List.foldlRecOn toRemove _ (motive := Expires now subs) (.refl now subs)
    fun subs₁ h conn _ => h.trans fun k => ?_
  split
  · rename_i sub hsub
    split
    · rename_i hlt
      rcases eq_or_ne k conn.key with rfl | hne
      · exact Or.inr ⟨AList.lookup_erase .., sub, hsub, hlt⟩
      · exact Or.inl (AList.lookup_erase_ne hne)
    · exact Or.inl rfl
  · exact Or.inl rfl

theorem publish_eq (subs : Subs β) (now : ℤ) :
    subs.publish now =
      ((subs.entries.filter fun e => !decide (e.2.expiry < now)).map
          fun e => (e.2.conn, e.2.userData),
        (subs.entries.filter fun e => decide (e.2.expiry < now)).map fun e => e.2.conn) := by
  have hfold : ∀ (l : List (Sigma fun _ : String ⊕ (ℤ × String) => SubData β))
      (calls : List (ConnectionID × β)) (toRemove : List ConnectionID),
      l.foldl (fun (calls, toRemove) e =>
        if e.2.expiry < now then (calls, toRemove ++ [e.2.conn])
        else (calls ++ [(e.2.conn, e.2.userData)], toRemove)) (calls, toRemove) =
      (calls ++ (l.filter fun e => !decide (e.2.expiry < now)).map
          fun e => (e.2.conn, e.2.userData),
        toRemove ++ (l.filter fun e => decide (e.2.expiry < now)).map fun e => e.2.conn) := by
    intro l
    induction l with
    | nil => simp
    | cons e l ih =>
      intro calls toRemove
      by_cases hlt : e.2.expiry < now <;> simp [hlt, ih]
  exact (hfold subs.entries [] []).trans rfl

theorem mem_publish {call : ConnectionID × β} : call ∈ (subs.publish now).1 ↔
    ∃ k sub, subs.lookup k = some sub ∧ now ≤ sub.expiry ∧ (sub.conn, sub.userData) = call := by
  rw [publish_eq]
  constructor
  · intro hcall
    obtain ⟨⟨k, sub⟩, he, rfl⟩ := List.mem_map.1 hcall
    obtain ⟨hmem, hexpiry⟩ := List.mem_filter.1 he
    refine ⟨k, sub, AList.mem_lookup_iff.2 hmem, ?_, rfl⟩
    simpa using hexpiry
  · rintro ⟨k, sub, hsub, hexpiry, rfl⟩
    refine List.mem_map.2 ⟨⟨k, sub⟩, List.mem_filter.2 ⟨AList.mem_lookup_iff.1 hsub, ?_⟩, rfl⟩
    simpa using hexpiry

theorem nodup_publish (hfiled : ∀ k sub, subs.lookup k = some sub → sub.conn.key = k) (now : ℤ) :
    ((subs.publish now).1.map fun call => call.1.key).Nodup := by
  rw [publish_eq, List.map_map]
  have hkeys : (subs.entries.filter fun e => !decide (e.2.expiry < now)).map
      ((fun call => call.1.key) ∘ fun e => (e.2.conn, e.2.userData)) =
        (subs.entries.filter fun e => !decide (e.2.expiry < now)).map Sigma.fst :=
    List.map_congr_left fun e he =>
      hfiled e.1 e.2 (AList.mem_lookup_iff.2 (List.mem_filter.1 he).1)
  rw [hkeys]
  exact subs.nodupKeys.sublist List.filter_sublist

/-- A subscription is stored, or refreshed. -/
theorem subscribe_cases [BEq β] (subDuration : ℤ) (subs : Subs β) (now : ℤ) (conn : ConnectionID)
    (data : β) :
    ∃ sub, (subs.subscribe subDuration now conn data).1 = subs.insert conn.key sub ∧
      (sub.conn = conn ∨ ∃ old, subs.lookup conn.key = some old ∧ sub.conn = old.conn) ∧
      sub.expiry = timeAfter now subDuration ∧ SameData sub.userData data := by
  unfold subscribe
  dsimp only
  split
  · exact ⟨_, rfl, Or.inl rfl, rfl, Or.inl rfl⟩
  · rename_i old hold
    split
    · exact ⟨_, rfl, Or.inr ⟨old, hold, rfl⟩, rfl, Or.inl rfl⟩
    · rename_i hsame
      rw [Bool.not_eq_true', Bool.not_eq_false] at hsame
      exact ⟨_, rfl, Or.inr ⟨old, hold, rfl⟩, rfl, Or.inr hsame⟩

theorem unsubscribe_eq (subs : Subs β) (conn : ConnectionID) :
    subs.unsubscribe conn =
      (subs.erase conn.key, (subs.lookup conn.key).map SubData.userData) := by
  rw [unsubscribe, AList.extract_eq_lookup_erase]

/-- Does `subscribe` say that this is something new? -/
theorem subscribe_snd [BEq β] (subDuration : ℤ) (subs : Subs β) (now : ℤ) (conn : ConnectionID)
    (data : β) :
    (subs.subscribe subDuration now conn data).2 = true ↔
      ∀ sub, subs.lookup conn.key = some sub → (sub.userData == data) = false := by
  unfold subscribe
  dsimp only
  split
  · rename_i hnone
    refine iff_of_true rfl fun sub hsub => ?_
    cases hnone.symm.trans hsub
  · rename_i old hold
    rw [hold]
    split <;> simp_all

end Subs

/-! ## The table and the history -/

namespace Subscription

variable [BEq β] {subDuration : ℤ} {s s' : Subscription β} {es : List (SubEvent β)}
  {e : SubEvent β}

/-- The table has the last subscription of each connection, unless this has run out. -/
structure Current (subDuration : ℤ) (s : Subscription β) (es : List (SubEvent β)) : Prop where
  filed : ∀ k sub, s.subs.lookup k = some sub → sub.conn.key = k
  stored : ∀ conn sub, s.subs.lookup conn.key = some sub →
    ∃ time data, SubEvent.latest es conn = some (time, data) ∧
      sub.expiry = timeAfter time subDuration ∧ SameData sub.userData data
  forgotten : ∀ conn time data, s.subs.lookup conn.key = none →
    SubEvent.latest es conn = some (time, data) → timeAfter time subDuration < s.clock
  past : ∀ conn time data, SubEvent.latest es conn = some (time, data) → time ≤ s.clock

theorem Current.expires (h : s.Current subDuration es) (hle : s.clock ≤ e.now)
    (hclock : s'.clock = e.now) (hexpires : Subs.Expires e.now s.subs s'.subs)
    (hlatest : ∀ conn, SubEvent.latest (es ++ [e]) conn = SubEvent.latest es conn) :
    s'.Current subDuration (es ++ [e]) := by
  have hold : ∀ {k sub}, s'.subs.lookup k = some sub → s.subs.lookup k = some sub := by
    intro k sub hsub
    rcases hexpires k with heq | ⟨hnone, _⟩
    · rwa [← heq]
    · cases hnone.symm.trans hsub
  refine ⟨fun k sub hsub => h.filed k sub (hold hsub), fun conn sub hsub => ?_,
    fun conn time data hnone hlast => ?_, fun conn time data hlast => ?_⟩
  · rw [hlatest]
    exact h.stored conn sub (hold hsub)
  · rw [hlatest] at hlast
    rw [hclock]
    rcases hexpires conn.key with heq | ⟨_, sub, hsub, hlt⟩
    · exact (h.forgotten conn time data (heq ▸ hnone) hlast).trans_le hle
    · obtain ⟨time', data', hlast', hexpiry, _⟩ := h.stored conn sub hsub
      cases hlast.symm.trans hlast'
      rwa [← hexpiry]
  · rw [hlatest] at hlast
    rw [hclock]
    exact (h.past conn time data hlast).trans hle

theorem Current.subscribe (h : s.Current subDuration es) {conn : ConnectionID} {data : β}
    (hop : e.op = .subscribe conn data) (hle : s.clock ≤ e.now) (hclock : s'.clock = e.now)
    (hsubs : s'.subs = (s.subs.subscribe subDuration e.now conn data).1) :
    s'.Current subDuration (es ++ [e]) := by
  obtain ⟨sub, hinsert, hconn, hexpiry, hdata⟩ :=
    s.subs.subscribe_cases subDuration e.now conn data
  have hkey : sub.conn.key = conn.key := by
    rcases hconn with rfl | ⟨old, hold, heq⟩
    · rfl
    · rw [heq]
      exact h.filed _ _ hold
  have hlookup : ∀ k, s'.subs.lookup k = if k = conn.key then some sub else s.subs.lookup k := by
    intro k
    rw [hsubs, hinsert]
    rcases eq_or_ne k conn.key with rfl | hne
    · rw [AList.lookup_insert, if_pos rfl]
    · rw [AList.lookup_insert_ne hne, if_neg hne]
  have hlatest : ∀ conn' : ConnectionID, SubEvent.latest (es ++ [e]) conn' =
      if conn'.key = conn.key then some (e.now, data) else SubEvent.latest es conn' := by
    intro conn'
    rw [SubEvent.latest_snoc, SubEvent.next, hop]
    simp only [ConnectionID.eq_iff, eq_comm (a := conn'.key)]
  refine ⟨fun k sub' hsub' => ?_, fun conn' sub' hsub' => ?_,
    fun conn' time data' hnone hlast => ?_, fun conn' time data' hlast => ?_⟩
  · rw [hlookup] at hsub'
    split at hsub'
    · rename_i heq
      cases hsub'
      rw [hkey, heq]
    · exact h.filed k sub' hsub'
  · rw [hlookup] at hsub'
    rw [hlatest]
    split at hsub'
    · cases hsub'
      rw [if_pos ‹_›]
      exact ⟨e.now, data, rfl, hexpiry, hdata⟩
    · rw [if_neg ‹_›]
      exact h.stored conn' sub' hsub'
  · rw [hlookup] at hnone
    rw [hlatest] at hlast
    split at hnone
    · cases hnone
    · rw [if_neg ‹_›] at hlast
      rw [hclock]
      exact (h.forgotten conn' time data' hnone hlast).trans_le hle
  · rw [hlatest] at hlast
    rw [hclock]
    split at hlast
    · cases hlast
      exact le_rfl
    · exact (h.past conn' time data' hlast).trans hle

theorem Current.unsubscribe (h : s.Current subDuration es) {conn : ConnectionID}
    (hop : e.op = .unsubscribe conn) (hle : s.clock ≤ e.now) (hclock : s'.clock = e.now)
    (hsubs : s'.subs = s.subs.erase conn.key) : s'.Current subDuration (es ++ [e]) := by
  have hlookup : ∀ k, s'.subs.lookup k = if k = conn.key then none else s.subs.lookup k := by
    intro k
    rw [hsubs]
    rcases eq_or_ne k conn.key with rfl | hne
    · rw [AList.lookup_erase, if_pos rfl]
    · rw [AList.lookup_erase_ne hne, if_neg hne]
  have hlatest : ∀ conn' : ConnectionID, SubEvent.latest (es ++ [e]) conn' =
      if conn'.key = conn.key then none else SubEvent.latest es conn' := by
    intro conn'
    rw [SubEvent.latest_snoc, SubEvent.next, hop]
    simp only [ConnectionID.eq_iff, eq_comm (a := conn'.key)]
  refine ⟨fun k sub hsub => ?_, fun conn' sub hsub => ?_, fun conn' time data hnone hlast => ?_,
    fun conn' time data hlast => ?_⟩
  · rw [hlookup] at hsub
    split at hsub
    · cases hsub
    · exact h.filed k sub hsub
  · rw [hlookup] at hsub
    rw [hlatest]
    split at hsub
    · cases hsub
    · rw [if_neg ‹_›]
      exact h.stored conn' sub hsub
  · rw [hlookup] at hnone
    rw [hlatest] at hlast
    split at hlast
    · cases hlast
    · rw [if_neg ‹_›] at hnone
      rw [hclock]
      exact (h.forgotten conn' time data hnone hlast).trans_le hle
  · rw [hlatest] at hlast
    rw [hclock]
    split at hlast
    · cases hlast
    · exact (h.past conn' time data hlast).trans hle

/-- **The step lemma.** -/
theorem Current.step (h : s.Current subDuration es) (hs : step subDuration s e = some s') :
    s'.Current subDuration (es ++ [e]) := by
  obtain ⟨⟨s₁, r⟩, hact, rfl⟩ := Option.map_eq_some_iff.1 hs
  unfold act at hact
  split at hact
  · cases hact
  rename_i hclock
  rw [not_lt] at hclock
  have hlatest : (∀ conn data, e.op ≠ .subscribe conn data) → (∀ conn, e.op ≠ .unsubscribe conn) →
      ∀ conn, SubEvent.latest (es ++ [e]) conn = SubEvent.latest es conn := by
    intro hsub hunsub conn
    rw [SubEvent.latest_snoc, SubEvent.next]
    split
    · exact absurd ‹_› (hsub _ _)
    · exact absurd ‹_› (hunsub _)
    · rfl
  dsimp only at hact
  cases hop : e.op with
  | subscribe conn data =>
    rw [hop] at hact
    cases hact
    exact h.subscribe hop hclock rfl rfl
  | unsubscribe conn =>
    rw [hop] at hact
    cases hact
    exact h.unsubscribe hop hclock rfl (by rw [Subs.unsubscribe_eq])
  | removeExpired =>
    rw [hop] at hact hlatest
    cases hact
    exact h.expires hclock rfl (s.subs.expires_removeExpired e.now) (hlatest nofun nofun)
  | publish thread =>
    rw [hop] at hact hlatest
    dsimp only at hact
    split at hact
    · cases hact
    · cases hact
      exact h.expires hclock rfl (.refl e.now s.subs) (hlatest nofun nofun)
  | remove thread =>
    rw [hop] at hact hlatest
    dsimp only at hact
    split at hact
    · cases hact
    · cases hact
      exact h.expires hclock rfl (s.subs.expires_remove e.now _) (hlatest nofun nofun)

theorem clock_of_step (hs : step subDuration s e = some s') : s'.clock = e.now := by
  obtain ⟨⟨s₁, r⟩, hact, rfl⟩ := Option.map_eq_some_iff.1 hs
  unfold act at hact
  split at hact
  · cases hact
  dsimp only at hact
  split at hact
  · cases hact
    rfl
  · cases hact
    rfl
  · cases hact
    rfl
  · split at hact <;> cases hact
    rfl
  · split at hact <;> cases hact
    rfl

theorem current_start (subDuration time : ℤ) :
    Current subDuration ({ clock := time } : Subscription β) [] := by
  refine ⟨fun k sub hsub => ?_, fun conn sub hsub => ?_, fun _ _ _ _ hlast => (nomatch hlast),
    fun _ _ _ hlast => (nomatch hlast)⟩
  · cases (AList.lookup_empty k).symm.trans hsub
  · cases (AList.lookup_empty conn.key).symm.trans hsub

theorem run_current {time : ℤ}
    (hrun : Transition.run (step subDuration) { clock := time } es = some s) :
    s.Current subDuration es :=
  Transition.run_induction_history (P := fun es s => Current subDuration s es)
    (current_start subDuration time) (fun _ _ _ _ _ h hs => h.step hs) hrun

/-! ## What the methods do -/

/-- What can be relied on in a state that is reached by the steps `es`: nothing is lost before its
time (`kept`), and each method says and does what it should in the next step. -/
structure Reliable (subDuration : ℤ) (s : Subscription β) (es : List (SubEvent β)) : Prop where
  /-- A subscription is there until it has run out. -/
  kept : ∀ conn time data, SubEvent.latest es conn = some (time, data) →
    s.clock ≤ time + subDuration * 1000000 →
    ∃ sub, s.subs.lookup conn.key = some sub ∧ sub.conn.eq conn = true ∧
      sub.expiry = time + subDuration * 1000000 ∧ SameData sub.userData data
  /-- `publish` calls the function once for each subscription that has not run out, and for nothing
  else. -/
  published : ∀ now thread, s.clock ≤ now → s.toRemove thread = none →
    ∃ s' calls, s.act subDuration ⟨now, .publish thread⟩ = some (s', .published calls) ∧
      (calls.map fun call => call.1.key).Nodup ∧
      ∀ conn data, (conn, data) ∈ calls ↔ ∃ sub, s.subs.lookup conn.key = some sub ∧
        now ≤ sub.expiry ∧ sub.conn = conn ∧ sub.userData = data
  subscribed : ∀ now conn data, s.clock ≤ now →
    ∃ s' new, s.act subDuration ⟨now, .subscribe conn data⟩ = some (s', .subscribed new) ∧
      (new = true ↔ s.subs.lookup conn.key = none ∨
        ∃ sub, s.subs.lookup conn.key = some sub ∧ (sub.userData == data) = false)
  unsubscribed : ∀ now conn, s.clock ≤ now →
    ∃ s', s.act subDuration ⟨now, .unsubscribe conn⟩ =
      some (s', .unsubscribed ((s.subs.lookup conn.key).map SubData.userData))

theorem Current.reliable (h : s.Current subDuration es) (hfits : ∀ e ∈ es, e.Fits subDuration) :
    s.Reliable subDuration es := by
  refine ⟨fun conn time data hlast hclock => ?_, fun now thread hnow hthread => ?_,
    fun now conn data hnow => ?_, fun now conn hnow => ?_⟩
  · -- With a negative duration there is no such time.
    have hduration : 0 ≤ subDuration := by
      have hpast := h.past conn time data hlast
      omega
    have hexact : timeAfter time subDuration = time + subDuration * 1000000 :=
      timeAfter_of_fits (SubEvent.fits_of_latest hfits hlast hduration)
    rcases hsub : s.subs.lookup conn.key with _ | sub
    · have hforgotten := h.forgotten conn time data hsub hlast
      rw [hexact] at hforgotten
      exact absurd hforgotten (not_lt.2 hclock)
    · obtain ⟨time', data', hlast', hexpiry, hdata⟩ := h.stored conn sub hsub
      cases hlast.symm.trans hlast'
      exact ⟨sub, rfl, ConnectionID.eq_iff.2 (h.filed _ _ hsub), hexpiry.trans hexact, hdata⟩
  · obtain ⟨s', hact⟩ : ∃ s', s.act subDuration ⟨now, .publish thread⟩ =
        some (s', .published (s.subs.publish now).1) := by
      rw [act, if_neg (not_lt.2 hnow)]
      dsimp only
      rw [if_neg (not_not.2 hthread)]
      exact ⟨_, rfl⟩
    refine ⟨s', _, hact, Subs.nodup_publish h.filed now, fun conn data => ?_⟩
    rw [Subs.mem_publish]
    constructor
    · rintro ⟨k, sub, hsub, hexpiry, hcall⟩
      obtain ⟨rfl, rfl⟩ := Prod.mk.inj hcall
      obtain rfl := h.filed k sub hsub
      exact ⟨sub, hsub, hexpiry, rfl, rfl⟩
    · rintro ⟨sub, hsub, hexpiry, rfl, rfl⟩
      exact ⟨_, sub, hsub, hexpiry, rfl⟩
  · obtain ⟨s', hact⟩ : ∃ s', s.act subDuration ⟨now, .subscribe conn data⟩ =
        some (s', .subscribed (s.subs.subscribe subDuration now conn data).2) := by
      rw [act, if_neg (not_lt.2 hnow)]
      exact ⟨_, rfl⟩
    refine ⟨s', _, hact, (Subs.subscribe_snd ..).trans ?_⟩
    cases s.subs.lookup conn.key with
    | none => simp
    | some sub => simp
  · rw [act, if_neg (not_lt.2 hnow)]
    dsimp only
    rw [Subs.unsubscribe_eq]
    exact ⟨_, rfl⟩

/-- A subscription that has just been made runs out when it should only if that can be
represented. -/
theorem Reliable.fits (hreliable : s'.Reliable subDuration (es ++ [e]))
    (hcurrent : s'.Current subDuration (es ++ [e])) (hclock : s'.clock = e.now) :
    e.Fits subDuration := by
  intro conn data hop hduration
  have hlast : SubEvent.latest (es ++ [e]) conn = some (e.now, data) := by
    rw [SubEvent.latest_snoc, SubEvent.next, hop]
    exact if_pos (ConnectionID.eq_iff.2 rfl)
  obtain ⟨sub, hsub, _, hexact, _⟩ := hreliable.kept conn e.now data hlast (by omega)
  obtain ⟨_, _, hlast', hexpiry, _⟩ := hcurrent.stored conn sub hsub
  cases hlast.symm.trans hlast'
  exact fitsInt64_of_timeAfter (hexpiry.symm.trans hexact)

/-- **Subscriptions are neither lost nor delivered late** in a run exactly if the points in time can
be represented at which they run out. -/
theorem subscriptions_reliable_iff {time : ℤ}
    (hrun : Transition.run (step subDuration) { clock := time } es = some s) :
    (∀ es₁ s₁, es₁ <+: es → Transition.run (step subDuration) { clock := time } es₁ = some s₁ →
      s₁.Reliable subDuration es₁) ↔ ∀ e ∈ es, e.Fits subDuration := by
  constructor
  · intro hreliable e he
    obtain ⟨es₁, es₂, rfl⟩ := List.append_of_mem he
    obtain ⟨s₀, hrun₀, hrest⟩ := Transition.run_append_eq_some.1 hrun
    obtain ⟨s₁, hs, _⟩ := Transition.run_cons_eq_some.1 hrest
    have hrun₁ := Transition.run_snoc hrun₀ hs
    exact (hreliable (es₁ ++ [e]) s₁ ⟨es₂, by simp⟩ hrun₁).fits (run_current hrun₁)
      (clock_of_step hs)
  · intro hfits es₁ s₁ hes₁ hrun₁
    exact (run_current hrun₁).reliable fun e he => hfits e (hes₁.subset he)

/-- A subscription has run out when `publish` looks at it, and is renewed before `publish` comes to
remove it. -/
def renewed : List (SubEvent ℕ) :=
  [⟨0, .subscribe (.ofId 1) 5⟩, ⟨11000000, .publish 0⟩, ⟨12000000, .subscribe (.ofId 1) 5⟩,
    ⟨13000000, .remove 0⟩]

theorem subscriptions_reliable_renewed :
    ∃ s, Transition.run (step 10) ({ clock := 0 } : Subscription ℕ) renewed = some s ∧
      s.subs.lookup (ConnectionID.ofId 1).key = some ⟨.ofId 1, 22000000, 5⟩ ∧
      s.Reliable 10 renewed := by
  have hrun : Transition.run (step 10) ({ clock := 0 } : Subscription ℕ) renewed = some _ := rfl
  refine ⟨_, hrun, by decide +kernel, ?_⟩
  refine (subscriptions_reliable_iff hrun).2 (fun e he => ?_) renewed _ (List.prefix_refl _) hrun
  simp only [renewed, List.mem_cons, List.not_mem_nil, or_false] at he
  rcases he with rfl | rfl | rfl | rfl <;> intro _ _ hop _
  · exact ⟨by decide, by decide⟩
  · cases hop
  · exact ⟨by decide, by decide⟩
  · cases hop

/-- `std::chrono::milliseconds::max()`. -/
def millisecondsMax : ℤ := 2 ^ 63 - 1

/-- Someone subscribes for ever, and at the same time the subscriptions are removed that have run
out. -/
def forever : List (SubEvent ℕ) := [⟨0, .subscribe (.ofId 1) 5⟩, ⟨0, .removeExpired⟩]

theorem subscription_lost_forever :
    ∃ s, Transition.run (step millisecondsMax) ({ clock := 0 } : Subscription ℕ) forever = some s ∧
      s.subs.lookup (ConnectionID.ofId 1).key = none ∧ ¬ s.Reliable millisecondsMax forever := by
  obtain ⟨s, hrun, hlost, hclock⟩ : ∃ s,
      Transition.run (step millisecondsMax) ({ clock := 0 } : Subscription ℕ) forever = some s ∧
        s.subs.lookup (ConnectionID.ofId 1).key = none ∧ s.clock = 0 :=
    ⟨_, rfl, by decide +kernel, rfl⟩
  refine ⟨s, hrun, hlost, fun h => ?_⟩
  obtain ⟨sub, hsub, _⟩ := h.kept (.ofId 1) 0 5 rfl (by rw [hclock]; decide)
  cases hlost.symm.trans hsub

end Subscription

end OxenMQ
