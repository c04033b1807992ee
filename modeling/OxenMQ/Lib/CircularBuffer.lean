import Mathlib.Data.List.Basic
import Mathlib.Data.Nat.ModEq

/-!
# A queue in a circular buffer

A buffer with a fixed number of slots and two positions: the queue starts at `pos` and ends before
`stop`, and goes round at the end of the buffer.  There is one slot more than there are elements
in the beginning, so that equal positions mean an empty queue.  The queue never gets longer than it
was: its first element is dropped, or it goes back to the end.

`CircularBuffer.Represents` says which list is in the buffer, and there is one lemma for each
operation.
-/

set_option autoImplicit false

/-- A circular buffer. -/
structure CircularBuffer (α : Type*) where
  slots : List α
  pos : ℕ
  stop : ℕ

namespace CircularBuffer

variable {α : Type*} {r : CircularBuffer α} {a : α} {l : List α}

/-- The elements of a list in order, and the spare slot. -/
def ofList (l : List α) (spare : α) : CircularBuffer α := ⟨l ++ [spare], 0, l.length⟩

/-- The slot after this one. -/
def next (r : CircularBuffer α) (i : ℕ) : ℕ := (i + 1) % r.slots.length

/-- What is in the first slot of the queue, unless the queue is empty. -/
def front? (r : CircularBuffer α) : Option α := if r.pos = r.stop then none else r.slots[r.pos]?

/-- Copies the first element to the end. -/
def requeue (r : CircularBuffer α) : CircularBuffer α :=
  match r.slots[r.pos]? with
  | some a => { r with slots := r.slots.set r.stop a, stop := r.next r.stop }
  | none => r

/-- Drops the first element. -/
def advance (r : CircularBuffer α) : CircularBuffer α := { r with pos := r.next r.pos }

/-- The queue in the buffer is this list. -/
structure Represents (r : CircularBuffer α) (l : List α) : Prop where
  pos_lt : r.pos < r.slots.length
  length_lt : l.length < r.slots.length
  stop_eq : r.stop = (r.pos + l.length) % r.slots.length
  slots_eq : ∀ k a, l[k]? = some a → r.slots[(r.pos + k) % r.slots.length]? = some a

theorem represents_ofList (l : List α) (spare : α) : (ofList l spare).Represents l := by
  refine ⟨?_, ?_, ?_, fun k a hk => ?_⟩
  · simp [ofList]
  · simp [ofList]
  · simp [ofList]
  · obtain ⟨hlt, -⟩ := List.getElem?_eq_some_iff.1 hk
    simp only [ofList, List.length_append, List.length_singleton, Nat.zero_add]
    rw [Nat.mod_eq_of_lt (by omega), List.getElem?_append_left hlt, hk]

/-- Different distances from the same slot lead to different slots. -/
theorem offset_inj {n p i j : ℕ} (hi : i < n) (hj : j < n) (h : (p + i) % n = (p + j) % n) :
    i = j := by
  exact (Nat.ModEq.add_left_cancel' p h).eq_of_lt_of_lt hi hj

namespace Represents

theorem front?_nil (h : r.Represents []) : r.front? = none := by
  have hstop := h.stop_eq
  rw [List.length_nil, Nat.add_zero, Nat.mod_eq_of_lt h.pos_lt] at hstop
  rw [front?, if_pos hstop.symm]

theorem first_slot (h : r.Represents (a :: l)) : r.slots[r.pos]? = some a := by
  have hslot := h.slots_eq 0 a rfl
  rwa [Nat.add_zero, Nat.mod_eq_of_lt h.pos_lt] at hslot

theorem front?_cons (h : r.Represents (a :: l)) : r.front? = some a := by
  have hlen : l.length + 1 < r.slots.length := h.length_lt
  have hne : r.pos ≠ r.stop := by
    intro heq
    have hstop : (r.pos + 0) % r.slots.length = (r.pos + (l.length + 1)) % r.slots.length := by
      rw [Nat.add_zero, Nat.mod_eq_of_lt h.pos_lt, ← List.length_cons, ← h.stop_eq, heq]
    exact absurd (offset_inj (by omega) hlen hstop) (Nat.succ_ne_zero _).symm
  rw [front?, if_neg hne, h.first_slot]

/-- Going on from the slot after the first one. -/
theorem next_add (r : CircularBuffer α) (k : ℕ) :
    (r.next r.pos + k) % r.slots.length = (r.pos + (k + 1)) % r.slots.length := by
  rw [next, Nat.mod_add_mod, Nat.add_assoc, Nat.add_comm 1 k]

theorem advance (h : r.Represents (a :: l)) : r.advance.Represents l := by
  have hlen : l.length + 1 < r.slots.length := h.length_lt
  refine ⟨Nat.mod_lt _ (by omega), Nat.lt_of_succ_lt hlen, ?_, fun k b hk => ?_⟩
  · exact h.stop_eq.trans (next_add r l.length).symm
  · have hslot := h.slots_eq (k + 1) b hk
    rwa [← next_add] at hslot

/-- The first element goes to the end. -/
theorem rotate (h : r.Represents (a :: l)) : r.requeue.advance.Represents (l ++ [a]) := by
  have hlen : l.length + 1 < r.slots.length := h.length_lt
  have hstop : r.stop = (r.pos + (l.length + 1)) % r.slots.length := h.stop_eq
  have heq : r.requeue.advance =
      ⟨r.slots.set r.stop a, r.next r.pos, r.next r.stop⟩ := by
    rw [CircularBuffer.advance, requeue, h.first_slot]
    simp [next]
  rw [heq]
  refine ⟨?_, ?_, ?_, fun k b hk => ?_⟩
  · rw [List.length_set]
    exact Nat.mod_lt _ (by omega)
  · rwa [List.length_set, List.length_append]
  · simp only [List.length_set, List.length_append, List.length_singleton]
    rw [next_add, next, hstop, Nat.mod_add_mod, Nat.add_assoc]
  · simp only [List.length_set]
    rw [next_add, List.getElem?_set]
    rcases Nat.lt_trichotomy k l.length with hlt | rfl | hgt
    · rw [List.getElem?_append_left hlt] at hk
      have hne : r.stop ≠ (r.pos + (k + 1)) % r.slots.length := by
        rw [hstop]
        intro hsame
        exact absurd (offset_inj hlen (by omega) hsame) (by omega)
      rw [if_neg hne]
      exact h.slots_eq (k + 1) b hk
    · rw [if_pos hstop, if_pos (by rw [hstop]; exact Nat.mod_lt _ (by omega))]
      rwa [List.getElem?_concat_length] at hk
    · rw [List.getElem?_eq_none (by simp; omega)] at hk
      cases hk

end Represents

end CircularBuffer
