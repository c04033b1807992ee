import OxenMQ.Connections.Replies
import OxenMQ.Connections.Unique
import OxenMQ.Connections.Unsent

/-!
# Connections that are closed for being idle

The cleanup timer closes a connection of ours when its record has not been refreshed for the time
that was asked for when it was opened.  The record ought to be refreshed by every message on the
connection; in fact it is refreshed by few (`Conn.Refreshes`):

* a command that comes in, if it is handed to a worker at once, and if the record found for the
  connection is its own and not that of an incoming connection of the same service node;
* a message to a service node, addressed by pubkey.

Replies and the other builtins, commands that are queued, dropped or rejected, and messages
addressed by the number of the connection leave it as it is.  Besides, the time that was asked for
is compared as a number of nanoseconds, which wraps around for more than 292 years.  If neither
happens then only idle connections are closed (`Conn.idle_expiry_of_refreshes`).

The invariants behind it are that a record is as young as the last message that has refreshed it
(`Conn.run_lastActivity`) and that its timeout fits (`Conn.run_kept`).  They rely on there being one
record for each connection of ours (`Conn.run_unique`) and on a clock that does not go back
(`Clock`), as `steady_clock` promises.
-/

set_option autoImplicit false

namespace OxenMQ

variable {κ : Type}

/-- The clock does not go back. -/
def Clock (es : List ConnEvent) : Prop := (es.filterMap ConnEvent.time).Pairwise (· ≤ ·)

theorem Clock.left {es fs : List ConnEvent} (h : Clock (es ++ fs)) : Clock es := by
  unfold Clock at h
  rw [List.filterMap_append, List.pairwise_append] at h
  exact h.1

theorem Clock.le {es : List ConnEvent} {ev e : ConnEvent} {t t' : ℤ} (h : Clock (es ++ [ev]))
    (he : e ∈ es) (ht : e.time = some t) (ht' : ev.time = some t') : t ≤ t' := by
  unfold Clock at h
  rw [List.filterMap_append, List.pairwise_append] at h
  exact h.2.2 t (List.mem_filterMap.2 ⟨e, he, ht⟩) t' (List.mem_filterMap.2 ⟨ev, by simp, ht'⟩)

namespace Conn

variable {cfg : Config κ} {c c' : Conn} {ev : ConnEvent}

/-! ## Messages on a connection -/

/-- The connection of ours that a message comes in or goes out on, and when. -/
def activity (c : Conn) : ConnEvent → Option (ℤ × ℤ)
  | .message env _ id router _ => if router then none else some (id, env.now)
  | .send env r =>
    match sendLoop env r (c.peers.length + 2) 0 r.conn c with
    | .ok (_, .sent id route) => if route = "" then some (id, env.now) else none
    | _ => none
  | _ => none

/-- The messages that set `last_activity` of the record of their connection: a command that is
dispatched at once, if that record is the one that `peers.find` returns, and a message that is sent
to a service node. -/
def Refreshes (cfg : Config κ) (c : Conn) : ConnEvent → Prop
  | .message env immediate id router m =>
    immediate = true ∧ (∃ c' a, receive cfg c env immediate id router m = .ok (c', some a)) ∧
      firstEnd c.peers ((c.outgoingSnConns.lookup id).getD (.ofId id)) = some (id, "")
  | .send _ r => r.conn.sn = true
  | _ => False

/-- One of the events `es` was a message on the connection `id` at the time `t`. -/
def Active (cfg : Config κ) (es : List ConnEvent) (id t : ℤ) : Prop :=
  Transition.Happened (step cfg) start es fun c e _ => c.activity e = some (id, t)

/-- One of the events `es` was a message that refreshed the record. -/
def Refreshed (cfg : Config κ) (es : List ConnEvent) (id t : ℤ) : Prop :=
  Transition.Happened (step cfg) start es fun c e _ =>
    c.activity e = some (id, t) ∧ Refreshes cfg c e

theorem time_of_activity {id t : ℤ} (h : c.activity ev = some (id, t)) : ev.time = some t := by
  cases ev with
  | message env immediate connId router m =>
    simp only [activity] at h
    split at h
    · cases h
    · cases h
      rfl
  | send env r =>
    simp only [activity] at h
    split at h
    · split at h
      · cases h
        rfl
      · cases h
    · cases h
  | _ => cases h

/-! ## How old a record is, and for how long it is kept -/

/-- A record is as old as before, or has been refreshed by the event. -/
def Ages (t : Option ℤ) (c c' : Conn) : Prop :=
  ∀ e' ∈ c'.peers, e'.2.outgoing = true → t = some e'.2.lastActivity ∨
    ∃ e ∈ c.peers, e.2.outgoing = true ∧ e.2.connId = e'.2.connId ∧
      e.2.lastActivity = e'.2.lastActivity

theorem Ages.refl (t : Option ℤ) (c : Conn) : Ages t c c :=
  fun e he hout => Or.inr ⟨e, he, hout, rfl, rfl⟩

theorem Ages.trans {t : Option ℤ} {c₁ c₂ c₃ : Conn} (h : Ages t c₁ c₂) (h' : Ages t c₂ c₃) :
    Ages t c₁ c₃ := by
  intro e₃ he₃ hout₃
  rcases h' e₃ he₃ hout₃ with ht | ⟨e₂, he₂, hout₂, hid₂, hlast₂⟩
  · exact Or.inl ht
  · rcases h e₂ he₂ hout₂ with ht | ⟨e₁, he₁, hout₁, hid₁, hlast₁⟩
    · exact Or.inl (hlast₂ ▸ ht)
    · exact Or.inr ⟨e₁, he₁, hout₁, hid₁.trans hid₂, hlast₁.trans hlast₂⟩

theorem Change.ages {o : Option ℤ} (h : Change cfg ev o c c') : Ages ev.time c c' := by
  intro e' he' hout
  rcases h.mem_peers he' with ⟨e, he, ht⟩ | hadded
  · rcases ht.lastActivity with hlast | htime
    · exact Or.inr ⟨e, he, ht.outgoing ▸ hout, ht.connId.symm, hlast.symm⟩
    · exact Or.inl htime
  · cases hadded with
    | sn id hev htime => exact Or.inl htime
    | remote hev =>
      subst hev
      exact Or.inl rfl
    | incoming hev hp hroute => exact absurd (beq_iff_eq.1 hout) hroute

theorem step_ages (h : step cfg c ev = some c') : Ages ev.time c c' := by
  obtain ⟨o, hchanges⟩ := step_changes h
  exact hchanges.induction (P := fun s => Ages ev.time c s)
    (fun _ _ _ hs hchange => hs.trans hchange.ages) (.refl _ c)

/-- The calls ask for times that can be counted in nanoseconds. -/
def Bounded (es : List ConnEvent) : Prop :=
  ∀ e ∈ es, ∀ keepAlive, e.keepAlive = some keepAlive → fitsInt64 (keepAlive * 1000000)

/-- So are the times for which the connections are kept. -/
def Kept (c : Conn) : Prop := ∀ e ∈ c.peers, fitsInt64 (e.2.idleExpiry * 1000000)

theorem incomingPeer_idleExpiry (cfg : Config κ) (c : Conn) (connId : ℤ) (m : Incoming) :
    (incomingPeer cfg c connId m).idleExpiry = 0 := by
  unfold incomingPeer
  dsimp only
  split <;> rfl

theorem Kept.change {o : Option ℤ} (hc : c.Kept)
    (hev : ∀ keepAlive, ev.keepAlive = some keepAlive → fitsInt64 (keepAlive * 1000000))
    (h : Change cfg ev o c c') : c'.Kept := by
  intro e' he'
  rcases h.mem_peers he' with ⟨e, he, ht⟩ | hadded
  · rcases ht.idleExpiry with hsame | ⟨keepAlive, hkeep, hmax⟩
    · rw [hsame]
      exact hc e he
    · rw [hmax]
      rcases max_choice e.2.idleExpiry keepAlive with h | h
      · rw [h]
        exact hc e he
      · rw [h]
        exact hev keepAlive hkeep
  · cases hadded with
    | sn id _ _ hkeep => exact hev _ hkeep
    | remote => exact (⟨by decide, by decide⟩ : fitsInt64 (forever * 1000000))
    | incoming _ hp =>
      rw [hp, incomingPeer_idleExpiry]
      exact ⟨by decide, by decide⟩

theorem run_kept {es : List ConnEvent} (hes : Bounded es)
    (h : Transition.run (step cfg) start es = some c) : c.Kept :=
  run_changes (P := Kept) (fun ev hev _ _ _ hc hchange => hc.change (hes ev hev) hchange)
    (fun _ he => absurd he List.not_mem_nil) h

/-! ## Messages that refresh a record -/

/-- A command that is dispatched at once refreshes the first record under the key of its
connection. -/
theorem receive_immediate {env : Env} {id : ℤ} {m : Incoming} {a : Arrival κ}
    (h : receive cfg c env true id false m = .ok (c', some a)) :
    ∃ c₁, arrival cfg c env.pos id false m = .ok (c₁, some a) ∧
    c' = c₁.pumpActivity env.now id := by
  obtain ⟨⟨c₀, handled⟩, hb, hrest⟩ := Except.bind_eq_ok.1 h
  clear h
  dsimp only at hrest
  rcases proxyHandleBuiltin_cases hb with ⟨rfl, _⟩ | ⟨rfl, rfl⟩
  · cases hrest
  · rw [if_neg Bool.false_ne_true] at hrest
    obtain ⟨⟨c₁, arr⟩, h₁, h⟩ := Except.bind_eq_ok.1 hrest
    dsimp only at h
    split at h
    · cases h
      exact ⟨c₁, h₁, rfl⟩
    · rename_i hnot
      cases h
      simp at hnot

/-- There is a record of the connection of ours `id` that was refreshed at `t`. -/
def Fresh (c : Conn) (id t : ℤ) : Prop :=
  ∃ e ∈ c.peers, e.2.outgoing = true ∧ e.2.connId = id ∧ e.2.lastActivity = t

theorem pumpActivity_fresh {now id : ℤ}
    (h : firstEnd c.peers ((c.outgoingSnConns.lookup id).getD (.ofId id)) = some (id, "")) :
    (c.pumpActivity now id).Fresh id now := by
  obtain ⟨e, hfind, hid, hroute⟩ := firstEnd_eq_some.1 h
  refine ⟨(e.1, { e.2 with lastActivity := now }), Multimap.map_mem_modifyFirst hfind, ?_, hid, rfl⟩
  exact beq_iff_eq.2 hroute

/-- `proxy_connect_sn` refreshes the record of the connection of ours that it comes up with. -/
theorem proxyConnectSn_fresh {env : Env} {remote hint : String}
    {isOptional incomingOnly outgoingOnly : Bool} {keepAlive id : ℤ}
    (h : c.proxyConnectSn env remote hint isOptional incomingOnly outgoingOnly keepAlive =
      .ok (c', some (id, ""))) : c'.Fresh id env.now := by
  rcases proxyConnectSn_cases h with ⟨usable, e, hfind, _, rfl, hr⟩ | ⟨_, hr⟩ | ⟨rfl, hr⟩
  · have hid : e.2.connId = id := (congrArg Prod.fst (Option.some.inj hr)).symm
    have hout : e.2.outgoing = true :=
      beq_iff_eq.2 (congrArg Prod.snd (Option.some.inj hr)).symm
    have hmem : (e.1, e.2.touch env.now keepAlive) ∈
        (c.reuseSn env.now keepAlive usable e.2).peers := by
      unfold reuseSn indexConnection
      dsimp only
      split <;> exact Multimap.map_mem_modifyFirst
        (f := fun e : ConnectionID × PeerInfo => (e.1, e.2.touch env.now keepAlive)) hfind
    refine ⟨_, hmem, ?_⟩
    rw [PeerInfo.touch, if_pos hout]
    exact ⟨hout, hid, rfl⟩
  · cases hr
  · have hid : c.nextConnId = id := (congrArg Prod.fst (Option.some.inj hr)).symm
    exact ⟨_, Multimap.mem_emplace.2 (Or.inl rfl), rfl, hid, rfl⟩

/-- A message that gets out to a service node on a connection of ours refreshes its record. -/
theorem sendLoop_fresh {env : Env} {r : SendRequest} {fuel n : ℕ} {conn : ConnectionID} {id : ℤ}
    (hsn : conn.sn = true) (h : sendLoop env r fuel n conn c = .ok (c', .sent id "")) :
    c'.Fresh id env.now := by
  refine sendLoop_rule (P := fun _ conn _ => conn.sn = true)
    (Q := fun s turn => ∀ id, turn = .sent id "" → s.Fresh id env.now) ?_ ?_ hsn h id rfl
  · intro n conn s s' id conn' hsn hturn
    obtain ⟨_, e, _, _, _, rfl, _⟩ := sendTurn_again hturn
    exact hsn
  · rintro n conn s s' turn hsn hturn - id rfl
    obtain ⟨s₁, target, htarget, hcases⟩ := sendTurn_cases hturn
    rcases hcases with ⟨_, _, hnone⟩ | ⟨id', conn', rfl,
      ⟨rfl, hsent | hfull⟩ | ⟨_, _, retry, _, _, h⟩⟩
    · cases hnone
    · obtain ⟨rfl, hroute⟩ := Turn.sent.inj hsent
      rw [sendTarget, if_pos hsn] at htarget
      obtain ⟨⟨s₂, found⟩, hconnect, hfound⟩ := Except.bind_eq_ok.1 htarget
      cases found with
      | none => cases hfound
      | some t =>
        cases hfound
        have hown : t = (t.1, "") := Prod.ext rfl hroute.symm
        rw [hown] at hconnect
        have hfresh := proxyConnectSn_fresh hconnect
        exact hfresh
    · cases hfull
    · cases retry <;> cases h

/-- **A refreshing message leaves a fresh record.** -/
theorem step_fresh {es : List ConnEvent} (hrun : Transition.run (step cfg) start es = some c)
    {id t : ℤ} (h : step cfg c ev = some c') (hact : c.activity ev = some (id, t))
    (hrefresh : Refreshes cfg c ev) : c'.Fresh id t := by
  cases ev with
  | message env immediate connId router m =>
    cases router with
    | true => cases hact
    | false =>
      cases hact
      obtain ⟨rfl, ⟨c₂, a, hreceive⟩, hfirst⟩ := hrefresh
      have hc' : c₂ = c' := by
        rw [step] at h
        split at h
        · rw [hreceive] at h
          exact Option.some.inj h
        · cases h
      obtain ⟨c₁, harrival, rfl⟩ := receive_immediate hreceive
      obtain ⟨peer, route, hfind, _⟩ := arrival_some harrival
      obtain ⟨p, _, _, _, hindex, hsn, hown⟩ := findPeer_tables (run_filed hrun) hfind
      have hends : ∀ k, firstEnd c₁.peers k = firstEnd c.peers k := by
        cases hflag : peer.serviceNode with
        | true => exact firstEnd_sameEnd (hsn hflag)
        | false => exact firstEnd_sameEnd (hown hflag).1
      rw [← hc']
      refine pumpActivity_fresh ?_
      rw [hends, hindex]
      exact hfirst
  | send env r =>
    obtain ⟨c₁, turn, _, hloop, _, rfl⟩ := proxySend_frame (Except.toOption_eq_some.1 h)
    rw [activity, hloop] at hact
    cases turn with
    | sent id' route =>
      dsimp only at hact
      split at hact
      · rename_i hroute
        subst hroute
        cases hact
        have hfresh := sendLoop_fresh hrefresh hloop
        exact hfresh
      · cases hact
    | noSocket | full | failed | again => cases hact
  | _ => cases hact

/-! ## Closing what is idle -/

/-- After the events `es` the clock does not go back, and a record is not older than the last
message that has refreshed it. -/
theorem run_lastActivity {es : List ConnEvent} (hclock : Clock es)
    (h : Transition.run (step cfg) start es = some c) {e : ConnectionID × PeerInfo}
    (he : e ∈ c.peers) (hout : e.2.outgoing = true) {t : ℤ}
    (hrefreshed : Refreshed cfg es e.2.connId t) : t ≤ e.2.lastActivity := by
  refine Transition.run_induction_history (P := fun es c => Clock es → ∀ e ∈ c.peers,
    e.2.outgoing = true → ∀ t, Refreshed cfg es e.2.connId t → t ≤ e.2.lastActivity)
    ?_ ?_ h hclock e he hout t hrefreshed
  · exact fun _ e he => nomatch he
  · intro es c ev c' hrun ih hstep hclock e' he' hout t hrefreshed
    rcases (Transition.happened_snoc hrun hstep).1 hrefreshed with hold | ⟨hact, hrefresh⟩
    · rcases step_ages hstep e' he' hout with htime | ⟨e, he, hout₀, hid, hlast⟩
      · obtain ⟨pre, d, post, s, s', rfl, _, _, hact, _⟩ := hold
        exact hclock.le (List.mem_append_right _ List.mem_cons_self) (time_of_activity hact) htime
      · rw [← hlast]
        exact ih hclock.left e he hout₀ t (hid ▸ hold)
    · -- the record that the message has refreshed is this one
      obtain ⟨e, he, hout₀, hid, rfl⟩ := step_fresh hrun hstep hact hrefresh
      have hunique := run_unique (Transition.run_snoc hrun hstep)
      rw [hunique.distinct.eq he he' (Or.inr ⟨hout₀, hout, Or.inl hid⟩)]

/-- Does a cleanup at the time `now` close the connection `id`, which is to be kept for `d`
milliseconds? -/
def closesIdle (closeLinger : ℤ) (c : Conn) (now id d : ℤ) : Bool :=
  c.isOpen id && (c.proxyExpireIdlePeers closeLinger now).toOption.any (fun c' => !c'.isOpen id) &&
    c.peers.any fun e => e.2.outgoing && e.2.connId == id && e.2.idleExpiry == d

/-- After the events `es` a cleanup at the time `now` closes the connection `id`, which is to be
kept for `d` milliseconds. -/
def Expires (cfg : Config κ) (es : List ConnEvent) (now id d : ℤ) : Prop :=
  ∃ c, Transition.run (step cfg) start es = some c ∧ c.closesIdle cfg.closeLinger now id d = true

/-- What the cleanup closes has an idle record. -/
theorem exists_idle {closeLinger now id : ℤ} (hopen : c.isOpen id = true)
    (h : c.proxyExpireIdlePeers closeLinger now = .ok c') (hclosed : c'.isOpen id = false) :
    ∃ e ∈ c.peers, e.2.idle now = true ∧ e.2.connId = id := by
  have hmem : id ∈ outgoingIds (c.peers.filter fun e => e.2.idle now) := by
    by_contra hnot
    rw [proxyExpireIdlePeers_ok h, isOpen, lookup_closeAll, if_neg hnot, ← isOpen, hopen] at hclosed
    cases hclosed
  obtain ⟨e, he, hid⟩ := List.mem_map.1 hmem
  obtain ⟨hpeer, hidle⟩ := List.mem_filter.1 (List.mem_filter.1 he).1
  exact ⟨e, hpeer, hidle, hid⟩

/-- A connection that is closed has not been refreshed for the time that it is to be kept. -/
theorem lastActivity_of_expires {es : List ConnEvent} {now id d : ℤ} (hbounded : Bounded es)
    (h : Expires cfg es now id d) : ∃ c e, Transition.run (step cfg) start es = some c ∧
      e ∈ c.peers ∧ e.2.outgoing = true ∧ e.2.connId = id ∧
      d * 1000000 < now - e.2.lastActivity := by
  obtain ⟨c, hrun, hcloses⟩ := h
  simp only [closesIdle, Bool.and_eq_true, Option.any_eq_true, Bool.not_eq_true', List.any_eq_true,
    beq_iff_eq] at hcloses
  obtain ⟨⟨hopen, c', hexpire, hclosed⟩, e, he, ⟨hout, hid⟩, hd⟩ := hcloses
  obtain ⟨e', he', hidle, hid'⟩ := exists_idle hopen (Except.toOption_eq_some.1 hexpire) hclosed
  rw [PeerInfo.idle, Bool.and_eq_true, decide_eq_true_iff] at hidle
  obtain rfl := (run_unique hrun).distinct.eq he' he
    (Or.inr ⟨hidle.1, hout, Or.inl (hid'.trans hid.symm)⟩)
  have hfits := run_kept hbounded hrun e' he
  rw [nanoseconds_of_fits hfits, hd] at hidle
  exact ⟨c, e', hrun, he, hout, hid, hidle.2⟩

/-- Every message on the connection `id` refreshes its record. -/
def Refreshing (cfg : Config κ) (es : List ConnEvent) (id : ℤ) : Prop :=
  ∀ pre e post c t, es = pre ++ e :: post → Transition.run (step cfg) start pre = some c →
    c.activity e = some (id, t) → Refreshes cfg c e

/-- **A connection whose messages all refresh its record is not closed while it is busy**, in a run
in which the calls ask for times that can be counted in nanoseconds.  When the cleanup closes it, no
message has come in or gone out on it within the time that it is to be kept. -/
theorem idle_expiry_of_refreshes (cfg : Config κ) {es : List ConnEvent} (hclock : Clock es)
    (hbounded : Bounded es) {id : ℤ} (hrefresh : Refreshing cfg es id) {pre post : List ConnEvent}
    {env : Env} {d t : ℤ} (hes : es = pre ++ .cleanup env :: post)
    (hexpires : Expires cfg pre env.now id d) (hactive : Active cfg pre id t) :
    ¬ (env.now - d * 1000000 < t ∧ t ≤ env.now) := by
  obtain ⟨pre₀, e, post₀, s, s', hpre, hrun₀, hs, hact⟩ := hactive
  have hrefreshes : Refreshes cfg s e := by
    refine hrefresh pre₀ e (post₀ ++ .cleanup env :: post) s t ?_ hrun₀ hact
    rw [hes, hpre, List.append_assoc, List.cons_append]
  have hpreBounded : Bounded pre := fun e he =>
    hbounded e (hes ▸ List.mem_append_left _ he)
  obtain ⟨c, e', hrun, he', hout, hid, hidle⟩ := lastActivity_of_expires hpreBounded hexpires
  subst hid
  have hlast := run_lastActivity (hes ▸ hclock).left hrun he' hout
    ⟨pre₀, e, post₀, s, s', hpre, hrun₀, hs, hact, hrefreshes⟩
  omega

/-- A service node. -/
def idleSn : String := "0123456789abcdef0123456789abcdef"

/-- A connection to it that is to be kept for some milliseconds. -/
def connectFor (keepAlive : ℤ) : ConnEvent :=
  .connectSn {} { pubkey := idleSn, hint := "tcp://a", keepAlive := keepAlive }

/-- A message to it. -/
def tellAt (now : ℤ) : ConnEvent :=
  .send { now := now } { conn := ⟨snId, idleSn, ""⟩, send := ["a.b"], keepAlive := 1000 }

/-- A connection that is to be kept for a second.  A message after 900 milliseconds keeps it from
being closed at the first cleanup. -/
def toldAfter900 : List ConnEvent :=
  [connectFor 1000, tellAt 900000000, .cleanup { now := 1001000000 }]

/-- It is closed a second after the message, and rightly so. -/
theorem idle_expiry_of_refreshes_told :
    Expires bareConfig toldAfter900 2000000000 2 1000 ∧
    Active bareConfig toldAfter900 2 900000000 ∧
    ¬ ((2000000000 : ℤ) - 1000 * 1000000 < 900000000 ∧ (900000000 : ℤ) ≤ 2000000000) := by
  have hexpires : Expires bareConfig toldAfter900 2000000000 2 1000 :=
    (Option.any_eq_true _ _).1 (by decide +kernel)
  have hactive : Active bareConfig toldAfter900 2 900000000 :=
    ⟨[connectFor 1000], _, _, _, _, rfl, rfl, rfl, rfl⟩
  refine ⟨hexpires, hactive, @idle_expiry_of_refreshes _ bareConfig
    (toldAfter900 ++ [.cleanup { now := 2000000000 }]) ?_ ?_ 2 ?_ _ [] { now := 2000000000 } 1000 _
    rfl hexpires hactive⟩
  · simp [Clock, toldAfter900, connectFor, tellAt, ConnEvent.time]
  · intro e he keepAlive hkeep
    simp only [toldAfter900, List.cons_append, List.nil_append, List.mem_cons, List.not_mem_nil,
      or_false] at he
    rcases he with rfl | rfl | rfl | rfl
    · cases hkeep
      exact ⟨by decide, by decide⟩
    · cases hkeep
      exact ⟨by decide, by decide⟩
    · cases hkeep
    · cases hkeep
  · intro pre e post c t hes _ hact
    have he : e ∈ toldAfter900 ++ [.cleanup { now := 2000000000 }] := by
      rw [hes]
      exact List.mem_append_right _ List.mem_cons_self
    simp only [toldAfter900, List.cons_append, List.nil_append, List.mem_cons, List.not_mem_nil,
      or_false] at he
    rcases he with rfl | rfl | rfl | rfl
    · cases hact
    · exact (rfl : (ConnectionID.mk snId idleSn "").sn = true)
    · cases hact
    · cases hact

/-- A reply comes in after 900 milliseconds. -/
def replyAfter900 : List ConnEvent :=
  [connectFor 1000, .message { now := 900000000 } true 2 false { parts := ["REPLY", "tag"] }]

/-- Two connections that are closed although they are busy.  The first has had a reply a tenth of a
second before.  The second is to be kept for 316 years, which is a negative number of nanoseconds,
and is closed at the very time of a message. -/
theorem busy_connection_expires :
    (Clock (replyAfter900 ++ [.cleanup { now := 1001000000 }]) ∧
      Expires bareConfig replyAfter900 1001000000 2 1000 ∧
      Active bareConfig replyAfter900 2 900000000 ∧
      (1001000000 : ℤ) - 1000 * 1000000 < 900000000 ∧ (900000000 : ℤ) ≤ 1001000000) ∧
    (Clock [connectFor 10000000000000, tellAt 5, .cleanup { now := 5 }] ∧
      Expires bareConfig [connectFor 10000000000000, tellAt 5] 5 2 10000000000000 ∧
      Active bareConfig [connectFor 10000000000000, tellAt 5] 2 5 ∧
      (5 : ℤ) - 10000000000000 * 1000000 < 5 ∧ (5 : ℤ) ≤ 5) := by
  refine ⟨⟨?_, (Option.any_eq_true _ _).1 (by decide +kernel), ?_, by decide, by decide⟩,
    ⟨?_, (Option.any_eq_true _ _).1 (by decide +kernel), ?_, by decide, by decide⟩⟩
  · simp [Clock, replyAfter900, connectFor, ConnEvent.time]
  · exact ⟨[connectFor 1000], _, [], _, _, rfl, rfl, rfl, rfl⟩
  · simp [Clock, connectFor, tellAt, ConnEvent.time]
  · exact ⟨[connectFor 10000000000000], _, [], _, _, rfl, rfl, rfl, rfl⟩

end Conn

end OxenMQ
