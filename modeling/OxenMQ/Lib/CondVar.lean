import Mathlib.Init

/-!
# Waiting on a condition variable

A thread that waits on a condition variable with a predicate tests the predicate with the mutex
held, and goes to sleep if it does not hold; it gives the mutex up and goes to sleep in one step.
When it is notified, or for no reason at all, it wakes up and tests again.

Whoever makes the predicate true does so with the mutex held and notifies afterwards, when the
mutex is free again.  Between these two steps a thread may be asleep although the predicate holds,
and after them it may not: no wake-up is lost.  `Waiter.Alert` says so, and it is kept by everything
a waiting thread does.
-/

set_option autoImplicit false

namespace CondVar

/-- Where a thread stands that waits. -/
inductive Waiter where
  /-- It is about to test the predicate. -/
  | testing
  | asleep
  /-- It has found that the predicate holds. -/
  | through
  deriving DecidableEq, Repr

namespace Waiter

/-- The test, with the mutex held. -/
def test (holds : Bool) : Waiter → Option Waiter
  | testing => some (if holds then through else asleep)
  | _ => none

/-- A thread that sleeps wakes up. -/
def wake : Waiter → Waiter
  | asleep => testing
  | w => w

/-- A thread does not sleep when the predicate holds and this has been notified. -/
def Alert (holds notified : Bool) (w : Waiter) : Prop := holds = true → notified = true → w ≠ asleep

variable {holds notified : Bool} {w w' : Waiter}

theorem test_eq_some_iff : w.test holds = some w' ↔
    w = testing ∧ w' = if holds then through else asleep := by
  cases w <;> simp [test, eq_comm]

/-- Nothing can be said before the notification. -/
theorem alert_of_not_notified : Alert holds false w := fun _ h => absurd h Bool.false_ne_true

theorem alert_of_not_holds : Alert false notified w := fun h => absurd h Bool.false_ne_true

theorem alert_wake : Alert holds notified w.wake := by
  cases w <;> simp [Alert, wake]

/-- A thread that tests and goes to sleep has found that the predicate does not hold. -/
theorem alert_of_test (h : w.test holds = some w') : Alert holds notified w' := by
  obtain ⟨_, rfl⟩ := test_eq_some_iff.1 h
  rintro rfl _
  simp

end Waiter

end CondVar
