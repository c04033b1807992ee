import OxenMQ.Lib.RoundRobin
import OxenMQ.Loop

/-!
# Fair draining of connections

The incoming message loop of `proxy_loop` by itself, without what is done with the messages.  It
goes over a buffer of pointers with a null pointer in the spare slot: a turn tries to receive from
the connection at `pos`, and if there is a message it copies the pointer to `end`.  For a moment
`end` may then be equal to `pos`, which is also the condition that ends the loop, but the condition
is looked at only after `pos` has moved on.

`drain_fair` says that this is a queue in which the connections take turns (`RoundRobin.serve`),
with all that follows from it.  The loop as part of an iteration is `Pass.turn`, where a message may
open or close connections; as long as none does, it is the loop here (`Pass.drain_of_run`).
-/

set_option autoImplicit false

namespace OxenMQ

namespace Draining

variable {ι : Type} {queue : CircularBuffer (Option ι)} {ids : List ι}

/-- What becomes of a turn. -/
inductive Turn (ι : Type) where
  /-- The loop has ended before it. -/
  | ended
  /-- A null pointer is dereferenced. -/
  | null
  | tried (id : ι) (queue : CircularBuffer (Option ι))

/-- One turn, in which a message is received or not. -/
def turn (queue : CircularBuffer (Option ι)) (received : Bool) : Turn ι :=
  match queue.front? with
  | none => .ended
  | some none => .null
  | some (some id) => .tried id (if received then queue.requeue.advance else queue.advance)

/-- The loop, for at most as many turns as there are outcomes: the connections that are tried, with
the outcomes, and the buffer. -/
def drain (queue : CircularBuffer (Option ι)) :
    List Bool → Option (List (ι × Bool) × CircularBuffer (Option ι))
  | [] => some ([], queue)
  | received :: found =>
    match turn queue received with
    | .ended => some ([], queue)
    | .null => none
    | .tried id queue => (drain queue found).map fun r => ((id, received) :: r.1, r.2)

/-- The buffer is a queue. -/
theorem drain_eq_serve (h : queue.Represents (ids.map some)) (found : List Bool) :
    ∃ queue', drain queue found = some ((RoundRobin.serve ids found).1, queue') ∧
      queue'.Represents ((RoundRobin.serve ids found).2.map some) := by
  induction found generalizing queue ids with
  | nil =>
    rw [RoundRobin.serve_nil_right]
    exact ⟨queue, rfl, h⟩
  | cons received found ih =>
    cases ids with
    | nil =>
      refine ⟨queue, ?_, h⟩
      rw [drain, turn, CircularBuffer.Represents.front?_nil h]
      rfl
    | cons id ids =>
      have hnext :
          CircularBuffer.Represents (if received then queue.requeue.advance else queue.advance)
          ((if received then ids ++ [id] else ids).map some) := by
        cases received with
        | false => exact h.advance
        | true =>
          rw [if_pos rfl, if_pos rfl, List.map_append]
          exact h.rotate
      obtain ⟨queue', hdrain, hqueue'⟩ := ih hnext
      refine ⟨queue', ?_, hqueue'⟩
      rw [drain, turn, CircularBuffer.Represents.front?_cons h]
      exact congrArg (Option.map _) hdrain

end Draining

namespace Pass

variable {κ : Type} {cfg : Config κ} {p p' : Pass}

theorem pointer_eq_some {ptr : Option ℤ} (h : p.pointer = some ptr) :
    p.stopped = false ∧ p.queue.front? = some ptr := by
  rw [pointer] at h
  split at h
  · cases h
  · rename_i hstopped
    exact ⟨Bool.eq_false_of_not_eq_true hstopped, h⟩

/-- A turn that leaves the loop running does with the queue what the loop by itself does. -/
theorem turn_running {received : Option Delivery} (h : p.turn cfg received = some p') :
    p.stopped = false ∧ (p'.stopped = false →
      ∃ id, Draining.turn p.queue received.isSome = .tried id p'.queue) := by
  rw [turn] at h
  split at h
  · rename_i id hpointer
    obtain ⟨hstopped, hfront⟩ := pointer_eq_some hpointer
    refine ⟨hstopped, fun hrunning => ⟨id, ?_⟩⟩
    rw [Draining.turn, hfront]
    split at h
    · cases received with
      | none =>
        cases h
        rfl
      | some d =>
        dsimp only at h
        split at h
        · cases h
          rfl
        · split at h
          · split at h
            · cases h
              cases hrunning
            · cases h
              rfl
          · cases h
    · cases h
  · cases h

/-- As long as no message opens or closes a connection, the loop goes over the queue by itself. -/
theorem drain_of_run {recv : List (Option Delivery)}
    (h : Transition.run (turn cfg) p recv = some p') (hrunning : p'.stopped = false) :
    ∃ trace, Draining.drain p.queue (recv.map Option.isSome) = some (trace, p'.queue) := by
  induction recv generalizing p with
  | nil =>
    cases h
    exact ⟨[], rfl⟩
  | cons received recv ih =>
    obtain ⟨p₁, hturn, hrun⟩ := Transition.run_cons_eq_some.1 h
    have hrunning₁ : p₁.stopped = false := by
      cases recv with
      | nil =>
        cases hrun
        exact hrunning
      | cons received' recv =>
        obtain ⟨p₂, hturn₂, _⟩ := Transition.run_cons_eq_some.1 hrun
        exact (turn_running hturn₂).1
    obtain ⟨id, htried⟩ := (turn_running hturn).2 hrunning₁
    obtain ⟨trace, htrace⟩ := ih hrun
    refine ⟨(id, received.isSome) :: trace, ?_⟩
    rw [List.map_cons, Draining.drain, htried]
    exact congrArg (Option.map _) htrace

end Pass

namespace Draining

/-- **The connections take turns.** -/
theorem drain_fair {ids : List ℤ} (hids : ids.Nodup) (found : List Bool) :
    ∃ trace live queue,
      drain (.ofList (ids.map some) none) found = some (trace, queue) ∧
      RoundRobin.serve ids found = (trace, live) ∧ queue.Represents (live.map some) ∧ live.Nodup ∧
      (∀ pre mid post id busy busy',
        trace = pre ++ (id, busy) :: (mid ++ (id, busy') :: post) → id ∉ mid.map Prod.fst →
          (RoundRobin.serve ids (found.take pre.length)).2 = id :: mid.map Prod.fst ∧
          (mid.map Prod.fst).Nodup) ∧
      (∀ bound : ℤ → ℕ, (∀ id ∈ ids, trace.count (id, true) ≤ bound id) →
        (ids.map bound).sum + ids.length ≤ found.length →
          queue.front? = none ∧ ∀ id ∈ ids, trace.count (id, false) = 1) ∧
      ∀ (κ : Type) (cfg : Config κ) (conn : Conn) (recv : List (Option Delivery)) (p : Pass),
        recv.map Option.isSome = found →
        Transition.run (Pass.turn cfg)
          { conn, queue := .ofList (ids.map some) none } recv = some p →
        p.stopped = false → p.queue = queue := by
  obtain ⟨queue, hdrain, hqueue⟩ :=
    drain_eq_serve (CircularBuffer.represents_ofList (ids.map some) none) found
  refine ⟨_, _, queue, hdrain, rfl, hqueue, RoundRobin.nodup_serve hids found,
    fun pre mid post id busy busy' htrace hmid => ?_, fun bound hbound hlen => ?_,
    fun κ cfg conn recv p hrecv hrun hrunning => ?_⟩
  · have hlive := RoundRobin.between hids htrace hmid
    have hnodup := RoundRobin.nodup_serve hids (found.take pre.length)
    rw [hlive] at hnodup
    exact ⟨hlive, hnodup.of_cons⟩
  · have hempty := RoundRobin.serve_ends hids bound hbound hlen
    rw [hempty] at hqueue
    refine ⟨CircularBuffer.Represents.front?_nil hqueue, fun id hid => ?_⟩
    have hcount := RoundRobin.count_serve ids found id
    rwa [hempty, List.count_nil, Nat.add_zero, List.count_eq_one_of_mem hids hid] at hcount
  · obtain ⟨trace, htrace⟩ := Pass.drain_of_run hrun hrunning
    rw [hrecv] at htrace
    exact (Prod.mk.inj (Option.some.inj (htrace.symm.trans hdrain))).2

/-- Two messages on the first connection, none on the second. -/
theorem drain_fair_two : ∃ queue,
    drain (.ofList ([1, 2].map some) none) [true, false, true, false] =
      some ([((1 : ℤ), true), (2, false), (1, true), (1, false)], queue) ∧ queue.front? = none := by
  obtain ⟨trace, live, queue, hdrain, hserve, _, _, _, hends, _⟩ :=
    drain_fair (show [(1 : ℤ), 2].Nodup by decide) [true, false, true, false]
  cases hserve
  exact ⟨queue, hdrain, (hends (fun id => if id = 1 then 2 else 0) (by decide) (by decide)).1⟩

end Draining

end OxenMQ
