import OxenMQ.Lib.Tally
import OxenMQ.Startup.Defs

/-!
# The handshake with the tagged threads

What the three kinds of threads do while the object is started or thrown away is tied together by
`Startup.Inv`.  `TaggedThread.Fits` says where a tagged thread can be, given `tagged_go`, what the
proxy thread has heard from it and what it has told it; the rest says how the owner and the proxy
thread go together.

* No wake-up is lost: a tagged thread does not sleep on after `tagged_go` has been set and everyone
  has been notified (`Fits.pc`).
* `STARTING` and `START` are sent once and received once (`Fits.outbox`, `Fits.inbox`).
* The router socket is asked to reach only those that it has heard from (`Inv.reachable`).

The addresses of the tagged threads have to be different for this, so it takes fewer than `2 ^ 32`
of them.
-/

set_option autoImplicit false

namespace OxenMQ

open CondVar (Waiter)
open Tally (valuesOf valuesOf_append valuesOf_singleton)

/-! ## What each party may be doing while the others do something -/

namespace TaggedPc

/-- Has the thread sent `STARTING`? -/
def announced : TaggedPc → Bool
  | starting | calling | ready => true
  | _ => false

/-- Has the thread received `START`? -/
def started : TaggedPc → Bool
  | calling | ready => true
  | _ => false

/-- Can a thread be there when `tagged_go` is this? -/
def Allows (mode : GoMode) (notified : Bool) : TaggedPc → Prop
  | waits w => w.Alert (mode != .wait) notified ∧ (w = .through → mode ≠ .wait)
  | exited => mode = .shutdown
  | _ => mode = .go

end TaggedPc

namespace ProxyPc

/-- Has the proxy thread sent `START` to the thread of this number? -/
def told (i : ℕ) : ProxyPc → Bool
  | releasing k => decide (i < k)
  | looping => true
  | _ => false

/-- Has the proxy thread told the tagged threads to go? -/
def released : ProxyPc → Bool
  | announcing | collecting _ | releasing _ | looping => true
  | _ => false

/-- Has the proxy thread begun to receive messages? -/
def listens : ProxyPc → Bool
  | collecting _ | releasing _ | looping => true
  | _ => false

/-- Has the proxy thread heard from everyone? -/
def collected : ProxyPc → Bool
  | releasing _ | looping => true
  | _ => false

end ProxyPc

namespace OwnerPc

/-- Is the owner in the destructor, or beyond, without a proxy thread? -/
def gone : OwnerPc → Bool
  | shutdown | joining _ | destroyed => true
  | _ => false

/-- Has the thread of this number been joined? -/
def joined (i : ℕ) : OwnerPc → Bool
  | joining k => decide (i < k)
  | destroyed => true
  | _ => false

/-- What the owner does and what the proxy thread does go together. -/
def With (proxy : ProxyPc) : OwnerPc → Prop
  | starting => proxy ≠ .absent
  | waitsReady | running | quitting => proxy = .looping
  | _ => proxy = .absent

end OwnerPc

/-- What a tagged thread can be judged by. -/
structure Situation where
  mode : GoMode
  /-- Has everyone been notified who may be asleep? -/
  notified : Bool
  /-- Has the proxy thread received `STARTING`? -/
  heard : Bool
  /-- Has the proxy thread sent `START`? -/
  told : Bool
  joined : Bool
  /-- The calls of its `start` function. -/
  calls : List Callback

/-- A tagged thread is where it can be. -/
structure TaggedThread.Fits (t : TaggedThread) (v : Situation) : Prop where
  pc : t.pc.Allows v.mode v.notified
  heard : v.told = true → v.heard = true
  announced : v.heard = true → t.pc.announced = true
  outbox : t.outbox = if t.pc.announced = true ∧ v.heard = false then ["STARTING"] else []
  started : t.pc.started = true → v.told = true
  inbox : t.inbox = if v.told = true ∧ t.pc.started = false then [.start] else []
  joinable : t.joinable = !v.joined
  joined : v.joined = true → t.pc = .exited
  calls : v.calls = if t.pc.started = true then t.start.toList else []

namespace TaggedThread.Fits

variable {t : TaggedThread} {v : Situation}

/-! ### The moves of a tagged thread -/

theorem test (h : t.Fits v) {w w' : Waiter} (hpc : t.pc = .waits w)
    (hw : w.test (v.mode != .wait) = some w') : { t with pc := .waits w' }.Fits v := by
  obtain ⟨name, start, joinable, pc, inbox, outbox⟩ := t
  cases hpc
  refine ⟨⟨Waiter.alert_of_test hw, ?_⟩, h.heard, h.announced, h.outbox, h.started, h.inbox,
    h.joinable, fun hj => (by cases h.joined hj), h.calls⟩
  rintro rfl hmode
  rw [hmode] at hw
  cases (Waiter.test_eq_some_iff.1 hw).2

/-- A thread wakes up, for a reason or for none. -/
theorem wakeUp (h : t.Fits v) (notified : Bool) :
    t.wakeUp.Fits { v with notified := v.notified || notified } := by
  obtain ⟨name, start, joinable, pc, inbox, outbox⟩ := t
  cases pc with
  | waits w =>
    refine ⟨⟨Waiter.alert_wake, fun hw => h.pc.2 ?_⟩, h.heard, h.announced, h.outbox, h.started,
      h.inbox, h.joinable, fun hj => (by cases h.joined hj), h.calls⟩
    cases w <;> cases hw
    rfl
  | _ =>
    exact ⟨h.pc, h.heard, h.announced, h.outbox, h.started, h.inbox, h.joinable, h.joined, h.calls⟩

/-- A thread has another look: what it sees is what it has been let through for. -/
theorem look (h : t.Fits v) (hpc : t.pc = .waits .through) :
    { t with pc := if v.mode = GoMode.shutdown then .exited else .connecting }.Fits v := by
  obtain ⟨name, start, joinable, pc, inbox, outbox⟩ := t
  cases hpc
  have hwait : v.mode ≠ .wait := h.pc.2 rfl
  have hjoined : ¬ v.joined = true := fun hj => by cases h.joined hj
  split
  · rename_i hmode
    exact ⟨hmode, h.heard, h.announced, h.outbox, h.started, h.inbox, h.joinable,
      fun hj => absurd hj hjoined, h.calls⟩
  · rename_i hmode
    have hgo : v.mode = .go := by
      cases hv : v.mode <;> simp_all
    exact ⟨hgo, h.heard, h.announced, h.outbox, h.started, h.inbox, h.joinable,
      fun hj => absurd hj hjoined, h.calls⟩

theorem connect (h : t.Fits v) (hpc : t.pc = .connecting) :
    { t with outbox := t.outbox ++ ["STARTING"], pc := .starting }.Fits v := by
  obtain ⟨name, start, joinable, pc, inbox, outbox⟩ := t
  cases hpc
  have hheard : v.heard = false := Bool.eq_false_iff.2 fun hh => by cases h.announced hh
  have houtbox : outbox = [] := h.outbox
  refine ⟨h.pc, h.heard, fun _ => rfl, ?_, fun hs => (by cases hs), h.inbox, h.joinable,
    fun hj => (by cases h.joined hj), h.calls⟩
  show outbox ++ ["STARTING"] = _
  rw [houtbox, if_pos ⟨rfl, hheard⟩]
  rfl

/-- A thread finds nothing but `START`. -/
theorem inbox_eq (h : t.Fits v) {cmd : WorkerCommand} {rest : List WorkerCommand}
    (hinbox : t.inbox = cmd :: rest) :
    v.told = true ∧ cmd = .start ∧ rest = [] := by
  have heq := h.inbox
  rw [hinbox] at heq
  split at heq
  · rename_i htold
    cases heq
    exact ⟨htold.1, rfl, rfl⟩
  · cases heq

theorem receive (h : t.Fits v) (hpc : t.pc = .starting) (htold : v.told = true) {pc : TaggedPc}
    (hstart : pc = .calling ∨ pc = .ready) {calls : List Callback}
    (hstarts : t.start.toList = calls) :
    { t with inbox := [], pc := pc }.Fits { v with calls := v.calls ++ calls } := by
  obtain ⟨name, start, joinable, _, inbox, outbox⟩ := t
  cases hpc
  cases hstarts
  have hheard := h.heard htold
  have houtbox : outbox = [] := h.outbox.trans (if_neg (by simp [hheard]))
  have hcalls : v.calls = [] := h.calls
  have hgo : v.mode = .go := h.pc
  obtain ⟨hallows, hannounced, hstarted⟩ :
      pc.Allows v.mode v.notified ∧ pc.announced = true ∧ pc.started = true := by
    rcases hstart with rfl | rfl <;> exact ⟨hgo, rfl, rfl⟩
  refine ⟨hallows, h.heard, fun _ => hannounced, ?_, fun _ => htold, ?_, h.joinable,
    fun hj => (by cases h.joined hj), ?_⟩
  · rw [if_neg (by simp [hheard])]
    exact houtbox
  · rw [if_neg (by simp [hstarted])]
  · simp [hcalls, hstarted]

theorem called (h : t.Fits v) (hpc : t.pc = .calling) : { t with pc := .ready }.Fits v := by
  obtain ⟨name, start, joinable, pc, inbox, outbox⟩ := t
  cases hpc
  exact ⟨h.pc, h.heard, fun _ => rfl, h.outbox, h.started, h.inbox, h.joinable,
    fun hj => (by cases h.joined hj), h.calls⟩

/-- **Whatever a thread does, it stays where it can be.** -/
theorem act (h : t.Fits v) {e : ThreadEvent} {r : TaggedThread × List Callback}
    (hr : t.act v.mode e = some r) : r.1.Fits { v with calls := v.calls ++ r.2 } := by
  have hnone : ∀ {t' : TaggedThread}, t'.Fits v → t'.Fits { v with calls := v.calls ++ [] } := by
    intro t' ht'
    rwa [List.append_nil]
  unfold TaggedThread.act at hr
  split at hr
  · split at hr
    · rename_i w hpc
      obtain ⟨w', hw', rfl⟩ := Option.map_eq_some_iff.1 hr
      exact hnone (h.test hpc hw')
    · cases hr
  · split at hr
    · cases hr
      have hwake := h.wakeUp false
      rw [Bool.or_false] at hwake
      exact hnone hwake
    · cases hr
  · split at hr
    · rename_i hpc
      cases hr
      exact hnone (h.look hpc)
    · cases hr
  · split at hr
    · rename_i hpc
      cases hr
      exact hnone (h.connect hpc)
    · cases hr
  · split at hr
    · rename_i cmd rest hpc hinbox
      obtain ⟨htold, rfl, rfl⟩ := h.inbox_eq hinbox
      dsimp only at hr
      split at hr
      · rename_i f hf
        cases hr
        exact h.receive hpc htold (Or.inl rfl) (by rw [hf]; rfl)
      · rename_i hf
        cases hr
        exact h.receive hpc htold (Or.inr rfl) (by rw [hf]; rfl)
    · cases hr
  · split at hr
    · rename_i hpc
      cases hr
      exact hnone (h.called hpc)
    · cases hr

/-! ### What the others do to it -/

/-- `tagged_go` is set, and nobody has been notified yet. -/
theorem setMode (h : t.Fits v) (hmode : v.mode = .wait) (mode : GoMode) (hne : mode ≠ .wait) :
    t.Fits { v with mode := mode, notified := false } := by
  refine ⟨?_, h.heard, h.announced, h.outbox, h.started, h.inbox, h.joinable, h.joined, h.calls⟩
  have hpc := h.pc
  rw [hmode] at hpc
  cases hp : t.pc with
  | waits w => exact ⟨Waiter.alert_of_not_notified, fun _ => hne⟩
  | _ =>
    rw [hp] at hpc
    cases hpc

/-- The proxy thread receives the message of the thread, which is its `STARTING`. -/
theorem message_eq (h : t.Fits v) {message : String} {rest : List String}
    (houtbox : t.outbox = message :: rest) :
    message = "STARTING" ∧ rest = [] ∧ t.pc.announced = true ∧ v.heard = false := by
  have heq := h.outbox
  rw [houtbox] at heq
  split at heq
  · rename_i hp
    cases heq
    exact ⟨rfl, rfl, hp⟩
  · cases heq

theorem collect (h : t.Fits v) (hannounced : t.pc.announced = true) :
    { t with outbox := [] }.Fits { v with heard := true } := by
  refine ⟨h.pc, fun _ => rfl, fun _ => hannounced, ?_, h.started, h.inbox, h.joinable, h.joined,
    h.calls⟩
  simp

theorem tell (h : t.Fits v) (hheard : v.heard = true) (htold : v.told = false) :
    { t with inbox := t.inbox ++ [WorkerCommand.start] }.Fits { v with told := true } := by
  have hstarted : t.pc.started = false := Bool.eq_false_iff.2 fun hs => by
    rw [h.started hs] at htold
    cases htold
  have hinbox : t.inbox = [] := h.inbox.trans (if_neg (by simp [htold]))
  refine ⟨h.pc, fun _ => hheard, h.announced, h.outbox, fun _ => rfl, ?_, h.joinable, h.joined,
    h.calls⟩
  show t.inbox ++ [.start] = _
  rw [hinbox, if_pos ⟨rfl, hstarted⟩]
  rfl

theorem join (h : t.Fits v) (hpc : t.pc = .exited) :
    { t with joinable := false }.Fits { v with joined := true } :=
  ⟨h.pc, h.heard, h.announced, h.outbox, h.started, h.inbox, rfl, fun _ => hpc, h.calls⟩

end TaggedThread.Fits

namespace Startup

def situation (s : Startup) (i : ℕ) : Situation where
  mode := s.go
  notified := s.proxy != .announcing && s.owner != .shutdown
  heard := decide (routingId i ∈ s.known)
  told := s.proxy.told i
  joined := s.owner.joined i
  calls := valuesOf s.started i

/-- What `tagged_go` is. -/
def mode (s : Startup) : GoMode :=
  if s.threads.length = 0 then .wait
  else if s.owner.gone then .shutdown
  else if s.proxy.released then .go
  else .wait

/-- The invariant of the startup. -/
structure Inv (s : Startup) : Prop where
  roles : s.owner.With s.proxy
  mode : s.go = s.mode
  threads : ∀ (i : ℕ) (t : TaggedThread), s.threads[i]? = some t → t.Fits (s.situation i)
  silent : s.proxy.listens = false → s.known = []
  collecting : ∀ l, s.proxy = .collecting l →
    l ≠ [] ∧ l.Nodup ∧ ∀ id, id ∈ l ↔ id ∈ s.routingIds ∧ id ∉ s.known
  collected : s.proxy.collected = true → ∀ id ∈ s.routingIds, id ∈ s.known
  announcing : s.proxy = .announcing → s.threads.length ≠ 0
  reachable : s.proxy ≠ .failed .hostUnreachable
  ready : s.asked.toNat + s.ready.toNat = if s.owner = .waitsReady then 1 else 0
  calls : ∀ c ∈ s.started, c.1 < s.threads.length

variable {s s' : Startup}

/-! ## Steps of a tagged thread -/

theorem routingIds_congr (h : s'.threads.length = s.threads.length) :
    s'.routingIds = s.routingIds := by
  rw [routingIds, routingIds, h]

theorem mode_congr (hlen : s'.threads.length = s.threads.length) (howner : s'.owner = s.owner)
    (hproxy : s'.proxy = s.proxy) : s'.mode = s.mode := by
  rw [Startup.mode, Startup.mode, hlen, howner, hproxy]

/-- A tagged thread changes, and possibly the list of the calls. -/
theorem Inv.set (h : s.Inv) {i : ℕ} {t t' : TaggedThread} (ht : s.threads[i]? = some t)
    (calls : List Callback)
    (hfits : t'.Fits { s.situation i with calls := valuesOf s.started i ++ calls }) :
    { s with
      threads := s.threads.set i t'
      started := s.started ++ calls.map fun f => (i, f) }.Inv := by
  have hlt : i < s.threads.length := (List.getElem?_eq_some_iff.1 ht).1
  have hcalls : ∀ j, valuesOf (calls.map fun f => (i, f)) j = if i = j then calls else [] := by
    intro j
    by_cases hj : i = j
    · subst hj
      rw [if_pos rfl, valuesOf, List.filter_eq_self.2 fun c hc => ?_, List.map_map]
      · exact List.map_id _
      · obtain ⟨f, _, rfl⟩ := List.mem_map.1 hc
        exact decide_eq_true rfl
    · rw [if_neg hj, valuesOf, List.filter_eq_nil_iff.2 fun c hc => ?_, List.map_nil]
      obtain ⟨f, _, rfl⟩ := List.mem_map.1 hc
      simpa using hj
  generalize hs' : { s with
      threads := s.threads.set i t'
      started := s.started ++ calls.map fun f => (i, f) } = s'
  have hlen : s'.threads.length = s.threads.length := by
    rw [← hs']
    exact List.length_set
  have hids := routingIds_congr hlen
  have hmode := mode_congr hlen (by rw [← hs']) (by rw [← hs'])
  subst hs'
  refine ⟨h.roles, h.mode.trans hmode.symm, fun j u hu => ?_, h.silent, ?_, ?_, ?_, h.reachable,
    h.ready, fun c hc => ?_⟩
  · have hsituation : Startup.situation { s with
        threads := s.threads.set i t'
        started := s.started ++ calls.map fun f => (i, f) } j =
          { s.situation j with calls := valuesOf s.started j ++ if i = j then calls else [] } := by
      rw [situation, situation, valuesOf_append, hcalls]
    rw [hsituation]
    rw [List.getElem?_set, if_pos hlt] at hu
    split at hu
    · rename_i hij
      subst hij
      cases hu
      rwa [if_pos rfl]
    · rename_i hij
      rw [if_neg hij, List.append_nil]
      exact h.threads j u hu
  · rw [hids]
    exact h.collecting
  · rw [hids]
    exact h.collected
  · rw [hlen]
    exact h.announcing
  · rw [hlen]
    rcases List.mem_append.1 hc with hc | hc
    · exact h.calls c hc
    · obtain ⟨f, _, rfl⟩ := List.mem_map.1 hc
      exact hlt

theorem Inv.act (h : s.Inv) {i : ℕ} {e : ThreadEvent} (hs : s.act i e = some s') : s'.Inv := by
  obtain ⟨t, ht, hact⟩ := Option.bind_eq_some_iff.1 hs
  obtain ⟨r, hr, rfl⟩ := Option.map_eq_some_iff.1 hact
  exact h.set ht r.2 ((h.threads i t ht).act hr)

/-! ## Steps of the proxy thread -/

theorem Inv.owner_of_proxy (h : s.Inv) (habsent : s.proxy ≠ .absent) (hloop : s.proxy ≠ .looping) :
    s.owner = .starting := by
  have hroles := h.roles
  cases ho : s.owner with
  | starting => rfl
  | _ =>
    rw [ho] at hroles
    first | exact absurd hroles habsent | exact absurd hroles hloop

/-- The proxy thread has not set `tagged_go`, or has not set it yet. -/
theorem Inv.mode_wait (h : s.Inv) (howner : s.owner.gone = false)
    (hproxy : s.proxy.released = false) : s.go = .wait := by
  rw [h.mode, Startup.mode, howner, hproxy]
  split <;> rfl

theorem told_of_not_released {p : ProxyPc} (h : p.released = false) (i : ℕ) : p.told i = false := by
  cases p <;> first | rfl | cases h

/-- Before the tagged threads are told to go, nothing that the owner and the proxy thread do matters
to them. -/
theorem Inv.setPcs (h : s.Inv) (owner : OwnerPc) (proxy : ProxyPc)
    (howner : s.owner = .free ∨ s.owner = .starting) (howner' : owner = .free ∨ owner = .starting)
    (hwas : s.proxy.released = false) (hnow : proxy.released = false) (hroles : owner.With proxy)
    (hreachable : proxy ≠ .failed .hostUnreachable) :
    { s with owner := owner, proxy := proxy }.Inv := by
  have hgone : ∀ {o : OwnerPc}, o = .free ∨ o = .starting → o.gone = false ∧
      (∀ i, o.joined i = false) ∧ (o != .shutdown) = true ∧ o ≠ .waitsReady := by
    rintro o (rfl | rfl) <;> exact ⟨rfl, fun _ => rfl, rfl, by simp⟩
  have hquiet : ∀ {p : ProxyPc}, p.released = false → p.listens = false ∧ p.collected = false ∧
      (p != .announcing) = true := by
    intro p hp
    cases p <;> first | exact ⟨rfl, rfl, rfl⟩ | cases hp
  have hmode := h.mode_wait (hgone howner).1 hwas
  refine ⟨hroles, hmode.trans ?_, fun i t ht => ?_, fun _ => h.silent (hquiet hwas).1, ?_, ?_, ?_,
    hreachable, ?_, h.calls⟩
  · rw [Startup.mode, (hgone howner').1, hnow]
    split <;> rfl
  · have hsituation : { s with owner := owner, proxy := proxy }.situation i = s.situation i := by
      rw [situation, situation, told_of_not_released hnow, told_of_not_released hwas,
        (hgone howner).2.1, (hgone howner').2.1, (hgone howner).2.2.1, (hgone howner').2.2.1,
        (hquiet hwas).2.2, (hquiet hnow).2.2]
    rw [hsituation]
    exact h.threads i t ht
  · rintro l rfl
    cases hnow
  · intro hcollected
    rw [(hquiet hnow).2.1] at hcollected
    cases hcollected
  · rintro rfl
    cases hnow
  · have hready := h.ready
    rw [if_neg (hgone howner).2.2.2] at hready
    rw [if_neg (hgone howner').2.2.2]
    exact hready

theorem proxyLoopInit_cases {outcome : InitOutcome} (h : s.proxyLoopInit outcome = some s') :
    s.proxy = .init ∧
      ((∃ e n, e ≠ .hostUnreachable ∧
        s' = { s with known := [], workerSockets := n, proxy := .failed e }) ∨
      (s.threads.length = 0 ∧
        s' = { s with known := [], workerSockets := s.maxWorkers, proxy := .looping }) ∨
      (s.threads.length ≠ 0 ∧ s' = { s with
        known := []
        workerSockets := s.maxWorkers
        go := .go
        proxy := .announcing })) := by
  unfold Startup.proxyLoopInit at h
  split at h
  · refine ⟨‹_›, ?_⟩
    dsimp only at h
    split_ifs at h with hearly hsockets hlate hempty
    · exact Or.inl ⟨.zmq, s.workerSockets, by simp, (Option.some.inj h).symm⟩
    · exact Or.inl ⟨.activeWorkers, s.workerSockets, by simp, (Option.some.inj h).symm⟩
    · exact Or.inl ⟨.zmq, s.maxWorkers, by simp, (Option.some.inj h).symm⟩
    · refine Or.inr (Or.inl ⟨?_, (Option.some.inj h).symm⟩)
      simpa using hempty
    · refine Or.inr (Or.inr ⟨?_, (Option.some.inj h).symm⟩)
      simpa using hempty
  · cases h

/-- The numbers do not matter to the handshake. -/
theorem Inv.setNumbers (h : s.Inv) (settings : Settings) (maxWorkers workerSockets : ℕ) :
    { s with settings := settings, maxWorkers := maxWorkers, workerSockets := workerSockets }.Inv :=
  ⟨h.roles, h.mode, h.threads, h.silent, h.collecting, h.collected, h.announcing, h.reachable,
    h.ready, h.calls⟩

theorem Inv.proxyLoopInit (h : s.Inv) {outcome : InitOutcome}
    (hs : s.proxyLoopInit outcome = some s') : s'.Inv := by
  obtain ⟨hproxy, hcases⟩ := proxyLoopInit_cases hs
  have howner := h.owner_of_proxy (by rw [hproxy]; simp) (by rw [hproxy]; simp)
  have hwait := h.mode_wait (by rw [howner]; rfl) (by rw [hproxy]; rfl)
  have hknown := h.silent (by rw [hproxy]; rfl)
  have hready := h.ready
  rw [howner] at hready
  rcases hcases with ⟨e, n, he, rfl⟩ | ⟨hlen, rfl⟩ | ⟨hlen, rfl⟩
  · have hset := (h.setPcs .starting (.failed e) (Or.inr howner) (Or.inr rfl) (by rw [hproxy]; rfl)
      rfl (by simp [OwnerPc.With]) (by simpa using he)).setNumbers s.settings s.maxWorkers n
    rw [howner, ← hknown]
    exact hset
  · have hnil : s.threads = [] := List.length_eq_zero_iff.1 hlen
    refine ⟨?_, ?_, fun i t ht => ?_, fun _ => rfl, fun l hl => (by cases hl), fun _ id hid => ?_,
      fun hp => (by cases hp), by simp, ?_, h.calls⟩
    · rw [howner]
      simp [OwnerPc.With]
    · rw [Startup.mode, if_pos hlen]
      exact hwait
    · rw [hnil] at ht
      cases ht
    · rw [routingIds, hlen] at hid
      cases hid
    · rw [howner]
      exact hready
  · refine ⟨?_, ?_, fun i t ht => ?_, fun _ => rfl, fun l hl => (by cases hl),
      fun hp => (by cases hp), fun _ => hlen, by simp, ?_, h.calls⟩
    · rw [howner]
      simp [OwnerPc.With]
    · rw [Startup.mode, if_neg hlen, howner]
      rfl
    · have hfits := (h.threads i t ht).setMode hwait .go (by simp)
      rw [situation, hproxy, hknown] at hfits
      exact hfits
    · rw [howner]
      exact hready

theorem getElem?_notifyAll {i : ℕ} {t : TaggedThread} (h : s.notifyAll.threads[i]? = some t) :
    ∃ u, s.threads[i]? = some u ∧ t = u.wakeUp := by
  rw [notifyAll, List.getElem?_map] at h
  obtain ⟨u, hu, rfl⟩ := Option.map_eq_some_iff.1 h
  exact ⟨u, hu, rfl⟩

theorem length_notifyAll (s : Startup) : s.notifyAll.threads.length = s.threads.length :=
  List.length_map _

theorem mem_routingIds {i : ℕ} (h : i < s.threads.length) : routingId i ∈ s.routingIds :=
  List.mem_map.2 ⟨i, List.mem_range.2 h, rfl⟩

theorem routingId_injective {i j : ℕ} (hi : i + 1 < 2 ^ 32) (hj : j + 1 < 2 ^ 32)
    (h : routingId i = routingId j) : i = j :=
  Worker.tagged.inj (Worker.routingId_injective hi hj h)

theorem Inv.announce (h : s.Inv) (hs : s.announce = some s') : s'.Inv := by
  unfold Startup.announce at hs
  split at hs
  · rename_i hproxy
    cases hs
    have howner := h.owner_of_proxy (by rw [hproxy]; simp) (by rw [hproxy]; simp)
    have hknown := h.silent (by rw [hproxy]; rfl)
    have hlen := h.announcing hproxy
    have hmode := h.mode
    have hready := h.ready
    rw [howner] at hready
    refine ⟨?_, ?_, fun i t ht => ?_, fun _ => hknown, ?_, fun hp => (by cases hp),
      fun hp => (by cases hp), by simp, ?_, fun c hc => ?_⟩
    · show s.owner.With _
      rw [howner]
      simp [OwnerPc.With]
    · show s.go = _
      rw [hmode, Startup.mode, Startup.mode, hproxy]
      show (if s.threads.length = 0 then _ else _) = if s.notifyAll.threads.length = 0 then _ else _
      rw [length_notifyAll]
      rfl
    · obtain ⟨u, hu, rfl⟩ := getElem?_notifyAll ht
      have hfits := (h.threads i u hu).wakeUp true
      rw [Bool.or_true, situation, hproxy] at hfits
      have hne : (s.owner != .shutdown) = true := by rw [howner]; rfl
      have hsit :
          ({ s.notifyAll with proxy := .collecting s.routingIds.dedup } : Startup).situation i =
          ⟨s.go, true, decide (routingId i ∈ s.known), false, s.owner.joined i,
            valuesOf s.started i⟩ := by
        rw [situation]
        show Situation.mk _ (_ && (s.owner != .shutdown)) _ _ _ _ = _
        rw [hne]
        rfl
      rw [hsit]
      exact hfits
    · rintro l ⟨⟩
      refine ⟨?_, List.nodup_dedup _, fun id => ?_⟩
      · rw [Ne, List.dedup_eq_nil, routingIds, List.map_eq_nil_iff, List.range_eq_nil]
        exact hlen
      · show _ ↔ id ∈ s.notifyAll.routingIds ∧ id ∉ s.known
        rw [List.mem_dedup, hknown, routingIds_congr (length_notifyAll s)]
        simp
    · show _ = if s.owner = .waitsReady then 1 else 0
      rw [howner]
      exact hready
    · rw [length_notifyAll]
      exact h.calls c hc
  · cases hs

theorem collect_cases {i : ℕ} (h : s.Inv) (hs : s.collect i = some s') :
    ∃ l t, s.proxy = .collecting l ∧ s.threads[i]? = some t ∧ t.outbox = ["STARTING"] ∧
      t.pc.announced = true ∧ routingId i ∉ s.known ∧
      s' = { s with
        threads := s.threads.set i { t with outbox := [] }
        known := routingId i :: s.known
        proxy := if (l.erase (routingId i)).isEmpty then .releasing 0
          else .collecting (l.erase (routingId i)) } := by
  unfold Startup.collect at hs
  split at hs
  · rename_i l t hproxy ht
    split at hs
    · rename_i message rest houtbox
      obtain ⟨rfl, rfl, hannounced, hheard⟩ := (h.threads i t ht).message_eq houtbox
      dsimp only at hs
      rw [if_pos rfl] at hs
      exact ⟨l, t, hproxy, ht, houtbox, hannounced, of_decide_eq_false hheard,
        (Option.some.inj hs).symm⟩
    · cases hs
  · cases hs

theorem Inv.collect (h : s.Inv) (hlen : s.threads.length < 2 ^ 32) {i : ℕ}
    (hs : s.collect i = some s') : s'.Inv := by
  obtain ⟨l, t, hproxy, ht, _, hannounced, hnew, rfl⟩ := collect_cases h hs
  have howner := h.owner_of_proxy (by rw [hproxy]; simp) (by rw [hproxy]; simp)
  obtain ⟨_, hnodup, hmem⟩ := h.collecting l hproxy
  have hi : i < s.threads.length := (List.getElem?_eq_some_iff.1 ht).1
  have hmode := h.mode
  have hready := h.ready
  rw [Startup.mode, howner, hproxy] at hmode
  rw [howner] at hready
  generalize hp : (if (l.erase (routingId i)).isEmpty then ProxyPc.releasing 0
    else .collecting (l.erase (routingId i))) = proxy
  -- The proxy thread keeps waiting, or it is about to send the first `START`.
  have hpc : (proxy = .releasing 0 ∧ l.erase (routingId i) = []) ∨
      proxy = .collecting (l.erase (routingId i)) ∧ l.erase (routingId i) ≠ [] := by
    rw [← hp]
    split
    · rename_i hnil
      exact Or.inl ⟨rfl, List.isEmpty_iff.1 hnil⟩
    · rename_i hne
      exact Or.inr ⟨rfl, fun hnil => hne (List.isEmpty_iff.2 hnil)⟩
  obtain ⟨hreleased, hlistens, htold, hne⟩ : proxy.released = true ∧ proxy.listens = true ∧
      (∀ j, proxy.told j = false) ∧ (proxy != .announcing) = true := by
    rcases hpc with ⟨rfl, _⟩ | ⟨rfl, _⟩
    · exact ⟨rfl, rfl, fun j => decide_eq_false (Nat.not_lt_zero j), rfl⟩
    · exact ⟨rfl, rfl, fun _ => rfl, rfl⟩
  have herase : ∀ id, id ∈ l.erase (routingId i) ↔
    id ∈ s.routingIds ∧ id ∉ routingId i :: s.known := by
    intro id
    rw [hnodup.mem_erase_iff, hmem, List.mem_cons]
    tauto
  refine ⟨?_, ?_, fun j u hu => ?_, fun hl => ?_, fun l' hl' => ?_, fun hc id hid => ?_, ?_, ?_, ?_,
    fun c hc => ?_⟩
  · show s.owner.With proxy
    rw [howner]
    rintro rfl
    cases hreleased
  · show s.go = _
    rw [hmode, Startup.mode, howner, hreleased, List.length_set]
    rfl
  · have hsit : ∀ heard : Bool, heard = decide (routingId j ∈ routingId i :: s.known) →
        Startup.situation { s with
          threads := s.threads.set i { t with outbox := [] }
          known := routingId i :: s.known
          proxy := proxy } j = { s.situation j with heard := heard } := by
      rintro _ rfl
      rw [situation, situation, hproxy, htold, hne]
      rfl
    rw [List.getElem?_set, if_pos hi] at hu
    split at hu
    · rename_i hij
      subst hij
      cases hu
      rw [hsit true (decide_eq_true List.mem_cons_self).symm]
      exact (h.threads i t ht).collect hannounced
    · rename_i hij
      have hj : j < s.threads.length := (List.getElem?_eq_some_iff.1 hu).1
      have hother : routingId j ≠ routingId i := fun heq =>
        hij (routingId_injective (by omega) (by omega) heq).symm
      rw [hsit (decide (routingId j ∈ s.known)) (by simp [hother])]
      exact h.threads j u hu
  · rw [hlistens] at hl
    cases hl
  · rcases hpc with ⟨rfl, _⟩ | ⟨rfl, hnil⟩
    · cases hl'
    · cases hl'
      refine ⟨hnil, hnodup.erase _, fun id => ?_⟩
      rw [routingIds_congr (s := s) List.length_set]
      exact herase id
  · rcases hpc with ⟨rfl, hnil⟩ | ⟨rfl, _⟩
    · by_contra hnot
      rw [routingIds_congr List.length_set] at hid
      have hin := (herase id).2 ⟨hid, hnot⟩
      rw [hnil] at hin
      cases hin
    · cases hc
  · rintro rfl
    cases hlistens
  · rintro rfl
    cases hlistens
  · show _ = if s.owner = .waitsReady then 1 else 0
    rw [howner]
    exact hready
  · rw [List.length_set]
    exact h.calls c hc

theorem Inv.release (h : s.Inv) (hs : s.release = some s') : s'.Inv := by
  unfold Startup.release at hs
  split at hs
  · rename_i k hproxy
    have howner := h.owner_of_proxy (by rw [hproxy]; simp) (by rw [hproxy]; simp)
    have hall := h.collected (by rw [hproxy]; rfl)
    have hmode := h.mode
    have hready := h.ready
    rw [Startup.mode, howner, hproxy] at hmode
    rw [howner] at hready
    split at hs
    · rename_i t ht
      have hk : k < s.threads.length := (List.getElem?_eq_some_iff.1 ht).1
      rw [if_pos (hall _ (mem_routingIds hk))] at hs
      cases hs
      refine ⟨?_, ?_, fun j u hu => ?_, fun hl => (by cases hl), fun l hl => (by cases hl),
        fun _ id hid => ?_, fun hp => (by cases hp), by simp, ?_, fun c hc => ?_⟩
      · show s.owner.With _
        rw [howner]
        simp [OwnerPc.With]
      · show s.go = _
        rw [hmode, Startup.mode, howner, List.length_set]
        rfl
      · have hsit : ∀ told : Bool, told = decide (j < k + 1) → Startup.situation { s with
            threads := s.threads.set k { t with inbox := t.inbox ++ [.start] }
            proxy := .releasing (k + 1) } j = { s.situation j with told := told } := by
          rintro _ rfl
          rw [situation, situation, hproxy]
          rfl
        rw [List.getElem?_set, if_pos hk] at hu
        split at hu
        · rename_i hkj
          subst hkj
          cases hu
          rw [hsit true (by simp)]
          refine (h.threads k t ht).tell (decide_eq_true (hall _ (mem_routingIds hk))) ?_
          show s.proxy.told k = false
          rw [hproxy]
          exact decide_eq_false (Nat.lt_irrefl k)
        · rename_i hkj
          rw [hsit (decide (j < k)) (decide_eq_decide.2 (by omega))]
          have hfits := h.threads j u hu
          rw [situation, hproxy] at hfits
          rw [situation, hproxy]
          exact hfits
      · rw [routingIds_congr List.length_set] at hid
        exact hall id hid
      · show _ = if s.owner = .waitsReady then 1 else 0
        rw [howner]
        exact hready
      · rw [List.length_set]
        exact h.calls c hc
    · rename_i hnone
      cases hs
      have hk : s.threads.length ≤ k := List.getElem?_eq_none_iff.1 hnone
      refine ⟨?_, ?_, fun j u hu => ?_, fun hl => (by cases hl), fun l hl => (by cases hl),
        fun _ => hall, fun hp => (by cases hp), by simp, ?_, h.calls⟩
      · show s.owner.With _
        rw [howner]
        simp [OwnerPc.With]
      · show s.go = _
        rw [hmode, Startup.mode, howner]
        rfl
      · have hj : j < s.threads.length := (List.getElem?_eq_some_iff.1 hu).1
        have hfits := h.threads j u hu
        rw [situation, hproxy] at hfits
        have htold : (ProxyPc.releasing k).told j = true := decide_eq_true (by omega)
        rw [htold] at hfits
        exact hfits
      · show _ = if s.owner = .waitsReady then 1 else 0
        rw [howner]
        exact hready
  · cases hs

/-! ## Steps of the owner -/

/-- With the proxy loop running, it does not matter to the tagged threads what the owner does. -/
theorem Inv.setOwner (h : s.Inv) (hproxy : s.proxy = .looping) (owner : OwnerPc)
    (asked ready : Bool)
    (hroles : owner = .starting ∨ owner = .waitsReady ∨ owner = .running ∨ owner = .quitting)
    (hready : asked.toNat + ready.toNat = if owner = .waitsReady then 1 else 0) :
    { s with owner := owner, asked := asked, ready := ready }.Inv := by
  have hquiet : ∀ {o : OwnerPc}, o.With .looping → o.gone = false ∧ (∀ i, o.joined i = false) ∧
      (o != .shutdown) = true := by
    intro o ho
    cases o <;> first | exact ⟨rfl, fun _ => rfl, rfl⟩ | cases ho
  have hwith : owner.With .looping := by
    rcases hroles with rfl | rfl | rfl | rfl <;> simp [OwnerPc.With]
  have hwas := h.roles
  rw [hproxy] at hwas
  have hmode := h.mode
  rw [Startup.mode, (hquiet hwas).1] at hmode
  refine ⟨?_, ?_, fun i t ht => ?_, h.silent, h.collecting, h.collected, h.announcing, h.reachable,
    hready, h.calls⟩
  · show owner.With s.proxy
    rw [hproxy]
    exact hwith
  · show s.go = _
    rw [hmode, Startup.mode, (hquiet hwith).1]
  · have hfits := h.threads i t ht
    rw [situation, (hquiet hwas).2.1, (hquiet hwas).2.2] at hfits
    rw [situation, (hquiet hwith).2.1, (hquiet hwith).2.2]
    exact hfits

theorem Inv.serve (h : s.Inv) (hs : s.serve = some s') : s'.Inv := by
  unfold Startup.serve at hs
  split at hs
  · rename_i hguard
    cases hs
    have hready := h.ready
    have howner : s.owner = .waitsReady := by
      by_contra hne
      rw [if_neg hne, hguard.2] at hready
      simp at hready
    exact h.setOwner hguard.1 s.owner false true (by simp [howner]) (by rw [howner]; rfl)
  · cases hs

theorem Inv.getReady (h : s.Inv) (hs : s.getReady = some s') : s'.Inv := by
  unfold Startup.getReady at hs
  split at hs
  · rename_i hguard
    cases hs
    have hproxy : s.proxy = .looping := by
      have hroles := h.roles
      rw [hguard.1] at hroles
      exact hroles
    have hready := h.ready
    rw [if_pos hguard.1, hguard.2] at hready
    have hasked : s.asked = false := by
      cases ha : s.asked with
      | false => rfl
      | true =>
        rw [ha] at hready
        cases hready
    have hset := h.setOwner hproxy .running s.asked false (by simp) (by rw [hasked]; rfl)
    exact hset
  · cases hs

theorem Inv.resume (h : s.Inv) (hs : s.resume = some s') : s'.Inv := by
  unfold Startup.resume at hs
  split at hs
  · rename_i howner hproxy
    cases hs
    have hready := h.ready
    rw [howner] at hready
    have hno : s.ready = false := by
      cases hr : s.ready with
      | false => rfl
      | true =>
        rw [hr] at hready
        simp at hready
    exact h.setOwner hproxy .waitsReady true s.ready (by simp) (by rw [hno]; rfl)
  · rename_i e howner hproxy
    cases hs
    exact h.setPcs .free .absent (Or.inr howner) (Or.inl rfl)
      (by rw [hproxy]; rfl) rfl rfl (by simp)
  · cases hs

theorem Inv.absent_of_gone (h : s.Inv) (hgone : s.owner.gone = true) : s.proxy = .absent := by
  have hroles := h.roles
  cases ho : s.owner with
  | shutdown | joining | destroyed =>
    rw [ho] at hroles
    exact hroles
  | _ =>
    rw [ho] at hgone
    cases hgone

theorem Inv.notifyShutdown (h : s.Inv) (hs : s.notifyShutdown = some s') : s'.Inv := by
  unfold Startup.notifyShutdown at hs
  split at hs
  · rename_i howner
    cases hs
    have hproxy := h.absent_of_gone (by rw [howner]; rfl)
    have hne : (s.proxy != .announcing) = true := by rw [hproxy]; rfl
    have hmode := h.mode
    have hready := h.ready
    rw [Startup.mode, howner] at hmode
    rw [howner] at hready
    refine ⟨hproxy, ?_, fun i t ht => ?_, h.silent, fun l hl => ?_, fun hc => ?_, fun hp => ?_,
      h.reachable, hready, fun c hc => ?_⟩
    · show s.go = _
      rw [hmode, Startup.mode, length_notifyAll]
      rfl
    · obtain ⟨u, hu, rfl⟩ := getElem?_notifyAll ht
      have hfits := (h.threads i u hu).wakeUp true
      rw [Bool.or_true, situation, howner] at hfits
      have hsit : ({ s.notifyAll with owner := .joining 0 } : Startup).situation i =
          ⟨s.go, true, decide (routingId i ∈ s.known), s.proxy.told i, false,
            valuesOf s.started i⟩ := by
        show Situation.mk _ ((s.proxy != .announcing) && _) _ _ (decide (i < 0)) _ = _
        rw [hne, decide_eq_false (Nat.not_lt_zero i)]
        rfl
      rw [hsit]
      exact hfits
    · have hl : s.proxy = .collecting l := hl
      rw [hproxy] at hl
      cases hl
    · have hc : s.proxy.collected = true := hc
      rw [hproxy] at hc
      cases hc
    · have hp : s.proxy = .announcing := hp
      rw [hproxy] at hp
      cases hp
    · rw [length_notifyAll]
      exact h.calls c hc
  · cases hs

theorem Inv.join (h : s.Inv) (hs : s.join = some s') : s'.Inv := by
  unfold Startup.join at hs
  split at hs
  · rename_i k howner
    have hproxy := h.absent_of_gone (by rw [howner]; rfl)
    have hmode := h.mode
    have hready := h.ready
    rw [Startup.mode, howner] at hmode
    rw [howner] at hready
    split at hs
    · rename_i t ht
      have hk : k < s.threads.length := (List.getElem?_eq_some_iff.1 ht).1
      split at hs
      · rename_i hexited
        cases hs
        refine ⟨hproxy, ?_, fun j u hu => ?_, h.silent, ?_, ?_, ?_, h.reachable, hready,
          fun c hc => ?_⟩
        · show s.go = _
          rw [hmode, Startup.mode, List.length_set]
          rfl
        · have hsit : ∀ joined : Bool, joined = decide (j < k + 1) → Startup.situation { s with
              threads := s.threads.set k { t with joinable := false }
              owner := .joining (k + 1) } j = { s.situation j with joined := joined } := by
            rintro _ rfl
            rw [situation, situation, howner]
            rfl
          rw [List.getElem?_set, if_pos hk] at hu
          split at hu
          · rename_i hkj
            subst hkj
            cases hu
            rw [hsit true (by simp)]
            exact (h.threads k t ht).join hexited
          · rename_i hkj
            rw [hsit (decide (j < k)) (decide_eq_decide.2 (by omega))]
            have hfits := h.threads j u hu
            rw [situation, howner] at hfits
            rw [situation, howner]
            exact hfits
        · rw [routingIds_congr (s := s) List.length_set]
          exact h.collecting
        · rw [routingIds_congr (s := s) List.length_set]
          exact h.collected
        · rw [List.length_set]
          exact h.announcing
        · rw [List.length_set]
          exact h.calls c hc
      · cases hs
    · rename_i hnone
      cases hs
      have hk : s.threads.length ≤ k := List.getElem?_eq_none_iff.1 hnone
      refine ⟨hproxy, ?_, fun j u hu => ?_, h.silent, h.collecting, h.collected, h.announcing,
        h.reachable, hready, h.calls⟩
      · show s.go = _
        rw [hmode, Startup.mode]
        rfl
      · have hj : j < s.threads.length := (List.getElem?_eq_some_iff.1 hu).1
        have hfits := h.threads j u hu
        have hjoined : (OwnerPc.joining k).joined j = true := decide_eq_true (by omega)
        rw [situation, howner, hjoined] at hfits
        exact hfits
  · cases hs

/-- A call that the owner can make when there is no proxy thread. -/
theorem Inv.free_of_absent (h : s.Inv) (howner : s.owner = .free ∨ s.owner = .running)
    (habsent : s.proxy = .absent) : s.owner = .free := by
  refine howner.resolve_right fun hrunning => ?_
  have hroles := h.roles
  rw [hrunning, habsent] at hroles
  cases hroles

theorem Inv.destroy (h : s.Inv) (howner : s.owner = .free ∨ s.owner = .running) :
    s.destroy.Inv := by
  have hready := h.ready
  have hroles := h.roles
  unfold Startup.destroy
  split
  · rename_i hjoinable
    have hrunning : s.owner = .running := by
      refine howner.resolve_left fun hfree => ?_
      rw [hfree] at hroles
      have habsent : s.proxy = .absent := hroles
      simp [proxyJoinable, habsent] at hjoinable
    rw [hrunning] at hroles hready
    have hset := h.setOwner hroles .quitting s.asked s.ready (by simp) hready
    exact hset
  · rename_i hjoinable
    have habsent : s.proxy = .absent := by simpa [proxyJoinable] using hjoinable
    have hfree := h.free_of_absent howner habsent
    rw [hfree] at hready
    have hwait := h.mode_wait (by rw [hfree]; rfl) (by rw [habsent]; rfl)
    split
    · rename_i hempty
      have hlen : s.threads.length = 0 := by simpa using hempty
      refine ⟨habsent, ?_, fun i t ht => ?_, h.silent, h.collecting, h.collected, h.announcing,
        h.reachable, hready, h.calls⟩
      · rw [Startup.mode, if_pos hlen]
        exact hwait
      · rw [List.length_eq_zero_iff.1 hlen] at ht
        cases ht
    · rename_i hempty
      have hlen : s.threads.length ≠ 0 := by simpa using hempty
      refine ⟨habsent, ?_, fun i t ht => ?_, h.silent, h.collecting, h.collected, h.announcing,
        h.reachable, hready, h.calls⟩
      · rw [Startup.mode, if_neg hlen]
        rfl
      · have hfits := (h.threads i t ht).setMode hwait .shutdown (by simp)
        rw [situation, hfree, habsent] at hfits
        rw [situation, habsent]
        exact hfits

/-- A call of the owner that does not throw has an effect, and one that throws has none. -/
theorem call_cases {f : Startup → Except String Startup} (h : s.call f = some s') :
    (s.owner = .free ∨ s.owner = .running) ∧ (s' = s ∨ f s = .ok s') := by
  unfold Startup.call at h
  split at h
  · refine ⟨‹_›, ?_⟩
    cases hf : f s with
    | error e =>
      rw [hf] at h
      exact Or.inl (Option.some.inj h).symm
    | ok s₁ =>
      rw [hf] at h
      cases h
      exact Or.inr rfl
  · cases h

theorem setThreads_eq {count : ThreadCount} {threads : ℤ}
    (h : s.setThreads count threads = .ok s') :
    s.proxy = .absent ∧ ∃ settings, s' = { s with settings := settings } := by
  cases count with
  | batch =>
    rw [setThreads, setBatchThreads] at h
    split_ifs at h with hjoinable
    cases h
    exact ⟨by simpa [proxyJoinable] using hjoinable, _, rfl⟩
  | reply =>
    rw [setThreads, setReplyThreads] at h
    split_ifs at h with hjoinable
    cases h
    exact ⟨by simpa [proxyJoinable] using hjoinable, _, rfl⟩
  | general =>
    rw [setThreads, setGeneralThreads] at h
    split_ifs at h with hjoinable
    cases h
    exact ⟨by simpa [proxyJoinable] using hjoinable, _, rfl⟩

theorem addTaggedThread_eq {name : String} {start : Option Callback}
    (h : (s.addTaggedThread name start).map Prod.fst = .ok s') :
    s.proxy = .absent ∧
    s' = { s with threads := s.threads ++ [{ name := name, start := start }] } := by
  unfold Startup.addTaggedThread at h
  split at h
  · cases h
  · rename_i hjoinable
    split at h
    · cases h
    · exact ⟨by simpa [proxyJoinable] using hjoinable, (Except.ok.inj h).symm⟩

theorem Inv.addTaggedThread (h : s.Inv) (howner : s.owner = .free ∨ s.owner = .running)
    {name : String}
    {start : Option Callback} (hs : (s.addTaggedThread name start).map Prod.fst = .ok s') :
    s'.Inv := by
  obtain ⟨habsent, rfl⟩ := addTaggedThread_eq hs
  have hfree := h.free_of_absent howner habsent
  have hwait := h.mode_wait (by rw [hfree]; rfl) (by rw [habsent]; rfl)
  have hknown := h.silent (by rw [habsent]; rfl)
  refine ⟨h.roles, ?_, fun j t ht => ?_, h.silent, fun l hl => ?_, fun hc => ?_, fun _ => ?_,
    h.reachable, h.ready, fun c hc => ?_⟩
  · show s.go = _
    rw [hwait, Startup.mode, hfree, habsent]
    simp [OwnerPc.gone, ProxyPc.released]
  · rcases Nat.lt_or_ge j s.threads.length with hj | hj
    · rw [List.getElem?_append_left hj] at ht
      exact h.threads j t ht
    · obtain ⟨hnil, rfl⟩ : j - s.threads.length = 0 ∧ t = { name := name, start := start } := by
        rw [List.getElem?_append_right hj, List.getElem?_singleton] at ht
        split at ht
        · rename_i hzero
          exact ⟨hzero, (Option.some.inj ht).symm⟩
        · cases ht
      have hcalls : valuesOf s.started j = [] := by
        rw [valuesOf, List.filter_eq_nil_iff.2 fun c hc => ?_, List.map_nil]
        have hlt := h.calls c hc
        simp
        omega
      have hsit : ({ s with threads := s.threads ++ [{ name := name, start := start }] } :
          Startup).situation j = ⟨.wait, true, false, false, false, []⟩ := by
        show Situation.mk s.go ((s.proxy != .announcing) && (s.owner != .shutdown))
          (decide (routingId j ∈ s.known)) (s.proxy.told j) (s.owner.joined j) _ = _
        rw [hcalls, hwait, habsent, hfree, hknown]
        rfl
      rw [hsit]
      exact ⟨⟨Waiter.alert_of_not_holds, fun hw => by cases hw⟩, id, fun hh => (by cases hh), rfl,
        fun hs => (by cases hs), rfl, rfl, fun hj => (by cases hj), rfl⟩
  · have hl : s.proxy = .collecting l := hl
    rw [habsent] at hl
    cases hl
  · have hc : s.proxy.collected = true := hc
    rw [habsent] at hc
    cases hc
  · simp
  · have hlt := h.calls c hc
    rw [List.length_append]
    exact Nat.lt_add_right _ hlt

variable {κ : Type} [Fintype κ] {cfg : Categories κ}

theorem start_eq (h : Startup.start cfg s = .ok s') : s.proxy = .absent ∧
    s' = { s with
      settings := resolve s.settings
      maxWorkers := ((resolve s.settings).generalWorkers + (resolve s.settings).batchJobsReserved +
        (resolve s.settings).replyJobsReserved + ∑ c, (cfg.reservedThreads c : ℤ)).toNat
      owner := .starting
      proxy := .init } := by
  unfold Startup.start at h
  split_ifs at h with hjoinable
  cases h
  exact ⟨by simpa [proxyJoinable] using hjoinable, rfl⟩

theorem Inv.start (h : s.Inv) (howner : s.owner = .free ∨ s.owner = .running)
    (hs : Startup.start cfg s = .ok s') : s'.Inv := by
  obtain ⟨habsent, rfl⟩ := start_eq hs
  have hfree := h.free_of_absent howner habsent
  exact (h.setPcs .starting .init (Or.inl hfree) (Or.inr rfl) (by rw [habsent]; rfl) rfl
    (by simp [OwnerPc.With]) (by simp)).setNumbers _ _ s.workerSockets

/-- **Every step keeps the parties together.** -/
theorem Inv.step (h : s.Inv) (hlen : s.threads.length < 2 ^ 32) {e : StartupEvent}
    (hs : Startup.step cfg s e = some s') : s'.Inv := by
  cases e with
  | setThreads count threads =>
    rw [Startup.step] at hs
    obtain ⟨_, rfl | hok⟩ := call_cases hs
    · exact h
    · obtain ⟨_, settings, rfl⟩ := setThreads_eq hok
      exact h.setNumbers settings s.maxWorkers s.workerSockets
  | addTaggedThread name start =>
    rw [Startup.step] at hs
    obtain ⟨howner, rfl | hok⟩ := call_cases hs
    · exact h
    · exact h.addTaggedThread howner hok
  | start =>
    rw [Startup.step] at hs
    obtain ⟨howner, rfl | hok⟩ := call_cases hs
    · exact h
    · exact h.start howner hok
  | destroy =>
    rw [Startup.step] at hs
    obtain ⟨howner, rfl | hok⟩ := call_cases hs
    · exact h
    · cases hok
      exact h.destroy howner
  | resume => exact h.resume hs
  | getReady => exact h.getReady hs
  | notifyShutdown => exact h.notifyShutdown hs
  | join => exact h.join hs
  | proxyLoopInit outcome => exact h.proxyLoopInit hs
  | announce => exact h.announce hs
  | collect i => exact h.collect hlen hs
  | release => exact h.release hs
  | serve => exact h.serve hs
  | thread i e => exact h.act hs

/-- Nothing but `add_tagged_thread` changes the number of tagged threads. -/
theorem length_eq_of_step {e : StartupEvent} (hadd : ∀ name start, e ≠ .addTaggedThread name start)
    (h : Startup.step cfg s e = some s') : s'.threads.length = s.threads.length := by
  cases e with
  | addTaggedThread name start => exact absurd rfl (hadd name start)
  | setThreads count threads =>
    rw [Startup.step] at h
    obtain ⟨_, rfl | hok⟩ := call_cases h
    · rfl
    · obtain ⟨_, _, rfl⟩ := setThreads_eq hok
      rfl
  | start =>
    rw [Startup.step] at h
    obtain ⟨_, rfl | hok⟩ := call_cases h
    · rfl
    · obtain ⟨_, rfl⟩ := start_eq hok
      rfl
  | destroy =>
    rw [Startup.step] at h
    obtain ⟨_, rfl | hok⟩ := call_cases h
    · rfl
    · cases hok
      unfold Startup.destroy
      split_ifs <;> rfl
  | thread i e =>
    obtain ⟨t, _, hact⟩ := Option.bind_eq_some_iff.1 h
    obtain ⟨r, _, rfl⟩ := Option.map_eq_some_iff.1 hact
    exact List.length_set
  | _ =>
    simp only [Startup.step, Startup.resume, Startup.getReady, Startup.notifyShutdown, Startup.join,
      Startup.proxyLoopInit, Startup.announce, Startup.collect, Startup.release, Startup.serve] at h
    repeat' split at h
    all_goals cases h
    all_goals simp [notifyAll]

/-- Nobody removes a tagged thread. -/
theorem length_le_of_step {e : StartupEvent} (h : Startup.step cfg s e = some s') :
    s.threads.length ≤ s'.threads.length := by
  by_cases hadd : ∀ name start, e ≠ .addTaggedThread name start
  · exact (length_eq_of_step hadd h).ge
  · obtain ⟨name, start, rfl⟩ : ∃ name start, e = .addTaggedThread name start := by
      simpa using hadd
    rw [Startup.step] at h
    obtain ⟨_, rfl | hok⟩ := call_cases h
    · exact le_rfl
    · obtain ⟨_, rfl⟩ := addTaggedThread_eq hok
      simp

/-- An object that has just been made. -/
def fresh (settings : Settings) : Startup := { settings := settings }

theorem inv_fresh (settings : Settings) : (fresh settings).Inv := by
  refine ⟨rfl, rfl, fun i t ht => ?_, fun _ => rfl, fun l hl => (by cases hl),
    fun hc => (by cases hc),
    fun hp => (by cases hp), by simp [fresh], rfl, fun c hc => (by cases hc)⟩
  cases ht

theorem inv_of_run {settings : Settings} {es : List StartupEvent}
    (hrun : Transition.run (Startup.step cfg) (fresh settings) es = some s)
    (hlen : s.threads.length < 2 ^ 32) : s.Inv := by
  refine Transition.run_induction (P := fun s => s.threads.length < 2 ^ 32 → s.Inv)
    (fun _ => inv_fresh settings) ?_ hrun hlen
  intro _ s₁ e s₂ _ ih hs hlen₂
  have hlen₁ := (length_le_of_step hs).trans_lt hlen₂
  exact (ih hlen₁).step hlen₁ hs

end Startup

end OxenMQ
