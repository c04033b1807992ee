import Mathlib.Order.Basic

/-!
# Message sockets with edge-triggered descriptors

Messages arrive at a socket behind its owner's back.  They go to a mailbox first, and the owner is
shown them only when it uses the socket (`sync`): when it asks whether there is something to read,
when it receives, and when it sends.  The socket has a descriptor for use with `epoll`, which tells
of the mailbox and not of the messages.  It is signalled when a message comes and there was nothing
to read, and `epoll_wait` reports each signal once.

* `EdgeTriggered σ` is what is assumed of such sockets.  The states of a socket are `σ`.
* A socket can have something to read and never be reported again, because the owner has been shown
  the message, or because the signal has been reported before.  A socket for which this is not so is
  `Alert`: it is safe to wait for it.
* `Inbox` is a socket that has a mailbox and a queue, and meets the assumptions.
-/

set_option autoImplicit false

/-- The receiving side of a message socket, as its owner sees it. -/
class EdgeTriggered (σ : Type) where
  /-- The number of messages that have arrived and have not been received. -/
  total : σ → ℕ
  /-- Has the owner been shown a message that it has not received? -/
  pollin : σ → Bool
  /-- Has the descriptor been added to the set that is waited on? -/
  isWatched : σ → Bool
  /-- Is there a signal to report? -/
  edge : σ → Bool
  /-- A new socket. -/
  empty : σ
  arrive : σ → σ
  /-- The owner looks into the mailbox. -/
  sync : σ → σ
  /-- The descriptor is added to a new set. -/
  watch : σ → σ
  /-- The signal has been reported. -/
  report : σ → σ
  /-- Receives a message if there is one.  The owner looks into the mailbox if it has to, and now
  and then, as the argument says, although it does not have to. -/
  recv : Bool → σ → σ × Bool
  total_arrive (s : σ) : total (arrive s) = total s + 1
  total_sync (s : σ) : total (sync s) = total s
  total_watch (s : σ) : total (watch s) = total s
  total_report (s : σ) : total (report s) = total s
  total_recv (look : Bool) (s : σ) : total (recv look s).1 = total s - 1
  watched_arrive (s : σ) : isWatched (arrive s) = isWatched s
  watched_sync (s : σ) : isWatched (sync s) = isWatched s
  watched_watch (s : σ) : isWatched (watch s) = true
  watched_report (s : σ) : isWatched (report s) = isWatched s
  watched_recv (look : Bool) (s : σ) : isWatched (recv look s).1 = isWatched s
  /-- After a look into the mailbox there is something to read if something has arrived. -/
  pollin_sync (s : σ) : pollin (sync s) = decide (0 < total s)
  /-- What is received has arrived, and everything that has arrived can be received. -/
  recv_snd (look : Bool) (s : σ) : (recv look s).2 = decide (0 < total s)
  /-- A message is signalled if there was nothing to read, and a signal stays. -/
  edge_arrive (s : σ) : isWatched s = true → total s = 0 ∨ edge s = true → edge (arrive s) = true

namespace EdgeTriggered

variable {σ : Type} [EdgeTriggered σ] {s : σ}

/-- There is nothing to read, or there is a signal. -/
def Alert (s : σ) : Prop := 0 < total s → edge s = true

/-- It is safe to wait once a look into the mailbox has found nothing. -/
theorem alert_sync (h : pollin (sync s) = false) : Alert (sync s) := by
  intro htotal
  rw [total_sync] at htotal
  rw [pollin_sync, decide_eq_true htotal] at h
  cases h

theorem Alert.arrive (h : Alert s) (hwatched : isWatched s = true) : Alert (arrive s) := by
  refine fun _ => edge_arrive s hwatched ?_
  rcases Nat.eq_zero_or_pos (total s) with htotal | htotal
  · exact Or.inl htotal
  · exact Or.inr (h htotal)

/-! ## A mailbox and a queue -/

/-- The receiving side of a socket. -/
structure Inbox where
  /-- The messages in the mailbox. -/
  unseen : ℕ := 0
  /-- The messages that the owner can read. -/
  seen : ℕ := 0
  watched : Bool := false
  edge : Bool := false

namespace Inbox

def sync (s : Inbox) : Inbox where
  seen := s.seen + s.unseen
  watched := s.watched

/-- Takes a message that the owner has been shown. -/
def pop (s : Inbox) : Inbox := { s with seen := s.seen - 1 }

def recv (look : Bool) (s : Inbox) : Inbox × Bool :=
  let s := if look || s.seen == 0 then s.sync else s
  if s.seen = 0 then (s, false) else (s.pop, true)

/-- The owner has looked into the mailbox if there was nothing else to read. -/
theorem recv_cases (look : Bool) (s : Inbox) :
    (s.recv look = (s.sync, false) ∧ s.unseen + s.seen = 0) ∨
      ∃ t, s.recv look = (pop t, true) ∧ (t = s ∨ t = s.sync) ∧ t.seen ≠ 0 := by
  unfold recv
  dsimp only
  split
  · rename_i hlook
    split
    · rename_i hseen
      exact Or.inl ⟨rfl, (Nat.add_comm ..).trans hseen⟩
    · rename_i hseen
      exact Or.inr ⟨_, rfl, Or.inr rfl, hseen⟩
  · rename_i hlook
    have hseen : s.seen ≠ 0 := by simp_all
    rw [if_neg hseen]
    exact Or.inr ⟨s, rfl, Or.inl rfl, hseen⟩

end Inbox

/-- The signal comes with the first message in an empty mailbox, and a mailbox that is not empty is
signalled when its descriptor is added to a set. -/
instance : EdgeTriggered Inbox where
  total s := s.unseen + s.seen
  pollin s := decide (0 < s.seen)
  isWatched := Inbox.watched
  edge := Inbox.edge
  empty := {}
  arrive s := { s with unseen := s.unseen + 1, edge := s.edge || (s.watched && s.unseen == 0) }
  sync := Inbox.sync
  watch s := { s with watched := true, edge := decide (0 < s.unseen) }
  report s := { s with edge := false }
  recv := Inbox.recv
  total_arrive s := Nat.add_right_comm ..
  total_sync s := (Nat.zero_add _).trans (Nat.add_comm ..)
  total_watch _ := rfl
  total_report _ := rfl
  total_recv look s := by
    rcases s.recv_cases look with ⟨h, htotal⟩ | ⟨t, h, rfl | rfl, hseen⟩ <;> rw [h]
    · simp only [Inbox.sync]
      omega
    · simp only [Inbox.pop]
      omega
    · simp only [Inbox.pop, Inbox.sync] at hseen ⊢
      omega
  watched_arrive _ := rfl
  watched_sync _ := rfl
  watched_watch _ := rfl
  watched_report _ := rfl
  watched_recv look s := by
    rcases s.recv_cases look with ⟨h, _⟩ | ⟨t, h, rfl | rfl, _⟩ <;> rw [h] <;> rfl
  pollin_sync s := by rw [Inbox.sync, Nat.add_comm]
  recv_snd look s := by
    rcases s.recv_cases look with ⟨h, htotal⟩ | ⟨t, h, rfl | rfl, hseen⟩ <;> rw [h]
    · rw [htotal]
      rfl
    · exact (decide_eq_true (by omega)).symm
    · refine (decide_eq_true ?_).symm
      simp only [Inbox.sync] at hseen
      omega
  edge_arrive s hwatched h := by
    rcases h with htotal | hedge
    · have hunseen : s.unseen = 0 := by omega
      simp [hwatched, hunseen]
    · simp [hedge]

end EdgeTriggered
