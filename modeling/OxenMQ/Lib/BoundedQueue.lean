import Mathlib.Data.List.Basic

/-!
# Queues with a capacity

A `BoundedQueue` is a queue between a sender and a reader, given by what is assumed of it: the
sender has some credit, each message takes one off it, a sender without credit has to wait, and what
the reader takes out does not take credit away.  Nothing is said about when the credit is given
back, only that messages and credit are never more than the capacity.

What a sender adds with one `send` after the other, while nobody takes anything out, is given by
`sendAll`.  It succeeds if the credit is enough (`exists_sendAll_iff`), and then all of it is in the
queue (`items_sendAll`).

`BoundedQueue.batched` is a queue that gives the credit back every so many messages.
-/

set_option autoImplicit false

/-- **What is assumed of a queue** of at most `cap` messages. -/
structure BoundedQueue (α : Type) (cap : ℕ) where
  State : Type
  /-- The messages that have been sent and not been taken out. -/
  items : State → List α
  /-- The number of messages that can be sent before the sender has to wait. -/
  free : State → ℕ
  /-- Sends a message, unless the sender has to wait. -/
  send : State → α → Option State
  /-- Takes the first message out. -/
  recv : State → Option (α × State)
  /-- What there is when nothing has been sent. -/
  empty : State
  send_eq_none : ∀ s a, send s a = none ↔ free s = 0
  items_send : ∀ s a s', send s a = some s' → items s' = items s ++ [a]
  free_send : ∀ s a s', send s a = some s' → free s' + 1 = free s
  items_recv : ∀ s a s', recv s = some (a, s') → items s = a :: items s'
  free_recv : ∀ s a s', recv s = some (a, s') → free s ≤ free s'
  items_empty : items empty = []
  bounded : ∀ s, (items s).length + free s ≤ cap

namespace BoundedQueue

variable {α : Type} {cap : ℕ} {Q : BoundedQueue α cap} {s s' : Q.State} {as : List α}

/-- One `send` after the other. -/
def sendAll (Q : BoundedQueue α cap) (s : Q.State) (as : List α) : Option Q.State :=
  as.foldlM Q.send s

theorem sendAll_cons {a : α} : Q.sendAll s (a :: as) = (Q.send s a).bind fun s => Q.sendAll s as :=
  List.foldlM_cons ..

/-- All that is sent is in the queue. -/
theorem items_sendAll (h : Q.sendAll s as = some s') : Q.items s' = Q.items s ++ as := by
  induction as generalizing s with
  | nil =>
    cases h
    rw [List.append_nil]
  | cons a as ih =>
    rw [sendAll_cons, Option.bind_eq_some_iff] at h
    obtain ⟨s₁, hsend, h⟩ := h
    rw [ih h, Q.items_send s a s₁ hsend, List.append_assoc, List.singleton_append]

/-- All of it goes in exactly if there is credit for all of it. -/
theorem exists_sendAll_iff : (∃ s', Q.sendAll s as = some s') ↔ as.length ≤ Q.free s := by
  induction as generalizing s with
  | nil => exact iff_of_true ⟨s, rfl⟩ (Nat.zero_le _)
  | cons a as ih =>
    rw [sendAll_cons]
    cases hsend : Q.send s a with
    | none =>
      rw [(Q.send_eq_none s a).1 hsend]
      simp
    | some s₁ =>
      rw [Option.bind_some, ih, List.length_cons, ← Q.free_send s a s₁ hsend,
        Nat.add_le_add_iff_right]

/-! ## Credit that is given back in batches -/

/-- A queue that gives the credit back after every `batch` messages. -/
structure Batched (α : Type) (cap batch : ℕ) where
  items : List α
  /-- The number of messages taken out for which the credit has not been given back. -/
  taken : ℕ
  length_le : items.length + taken ≤ cap

namespace Batched

variable {batch : ℕ}

/-- Appends a message, if there is credit. -/
def send (s : Batched α cap batch) (a : α) : Option (Batched α cap batch) :=
  if h : s.items.length + s.taken < cap then
    some ⟨s.items ++ [a], s.taken, by rw [List.length_append, List.length_singleton]; omega⟩
  else none

/-- Takes the first message out, and gives the credit back if it is the last one of a batch. -/
def recv (s : Batched α cap batch) : Option (α × Batched α cap batch) :=
  match s with
  | ⟨[], _, _⟩ => none
  | ⟨a :: items, taken, h⟩ =>
    if taken + 1 < batch then
      some (a, ⟨items, taken + 1, by rw [List.length_cons] at h; omega⟩)
    else some (a, ⟨items, 0, by rw [List.length_cons] at h; omega⟩)

theorem send_eq_some {s s' : Batched α cap batch} {a : α} (h : s.send a = some s') :
    s.items.length + s.taken < cap ∧ s'.items = s.items ++ [a] ∧ s'.taken = s.taken := by
  unfold send at h
  split at h
  · rename_i hlt
    cases h
    exact ⟨hlt, rfl, rfl⟩
  · cases h

theorem recv_eq_some {s s' : Batched α cap batch} {a : α} (h : s.recv = some (a, s')) :
    s.items = a :: s'.items ∧ s'.taken ≤ s.taken + 1 := by
  unfold recv at h
  split at h
  · cases h
  · split at h
    · cases h
      exact ⟨rfl, Nat.le_refl _⟩
    · cases h
      exact ⟨rfl, Nat.zero_le _⟩

end Batched

/-- Such a queue is a `BoundedQueue`. -/
def batched (α : Type) (cap batch : ℕ) : BoundedQueue α cap where
  State := Batched α cap batch
  items s := s.items
  free s := cap - (s.items.length + s.taken)
  send := Batched.send
  recv := Batched.recv
  empty := ⟨[], 0, Nat.zero_le cap⟩
  send_eq_none s a := by
    unfold Batched.send
    split
    · exact iff_of_false nofun (by omega)
    · exact iff_of_true rfl (by omega)
  items_send _ _ _ h := (Batched.send_eq_some h).2.1
  free_send s a s' h := by
    obtain ⟨hlt, hitems, htaken⟩ := Batched.send_eq_some h
    rw [hitems, htaken, List.length_append, List.length_singleton]
    omega
  items_recv _ _ _ h := (Batched.recv_eq_some h).1
  free_recv s a s' h := by
    obtain ⟨hitems, htaken⟩ := Batched.recv_eq_some h
    rw [hitems, List.length_cons]
    omega
  items_empty := rfl
  bounded s := by
    have hle := s.length_le
    omega

end BoundedQueue
