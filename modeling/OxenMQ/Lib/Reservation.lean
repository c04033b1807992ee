import Mathlib.Algebra.BigOperators.Group.Finset.Basic
import Mathlib.Algebra.Order.BigOperators.Group.Finset
import Mathlib.Data.Fintype.Basic
import Mathlib.Order.Lattice
import Mathlib.Tactic.Linarith

/-!
# Slots that are partly reserved

A pool of slots is shared by users of several kinds.  For each kind `k` a number `r k` of slots is
reserved, and another `G` slots are for everybody.  `a k` is the number of slots in use by kind
`k`.  A user is admitted on purely local grounds: its kind uses less than its reservation, or
fewer than `G` slots are in use altogether.

That this is enough for everybody to get what was reserved is not a matter of the counts `a k`
themselves but of the *surplus*, by how much each kind exceeds its reservation.  The surplus never
exceeds `G` (`surplus_acquire`, `surplus_release`), and as long as it does not, no kind can use up
what is reserved for another (`sum_others_le`), and a kind below its reservation finds a free slot
(`total_lt`).
-/

set_option autoImplicit false

namespace Reservation

variable {K : Type*} [Fintype K]

/-- By how much the kinds exceed what is reserved for them. -/
def surplus (r a : K → ℤ) : ℤ := ∑ k, max 0 (a k - r k)

variable {r a : K → ℤ} {G : ℤ}

theorem surplus_le_total (hr : ∀ k, 0 ≤ r k) (ha : ∀ k, 0 ≤ a k) : surplus r a ≤ ∑ k, a k :=
  Finset.sum_le_sum fun k _ => by
    have := hr k
    have := ha k
    omega

variable [DecidableEq K]

/-- What the other kinds use is what is reserved for them, plus at most the surplus. -/
theorem sum_others_le (h : surplus r a ≤ G) (k : K) :
    ∑ j ∈ Finset.univ.erase k, a j ≤ G + ∑ j, r j - r k := by
  have hle : ∑ j ∈ Finset.univ.erase k, a j ≤
      ∑ j ∈ Finset.univ.erase k, (r j + max 0 (a j - r j)) :=
    Finset.sum_le_sum fun j _ => by omega
  have hsub : ∑ j ∈ Finset.univ.erase k, max 0 (a j - r j) ≤ surplus r a :=
    Finset.sum_le_sum_of_subset_of_nonneg (Finset.erase_subset _ _) fun j _ _ => by omega
  have herase : ∑ j ∈ Finset.univ.erase k, r j = ∑ j, r j - r k :=
    Finset.sum_erase_eq_sub (Finset.mem_univ k)
  rw [Finset.sum_add_distrib, herase] at hle
  omega

/-- A kind that is below its reservation finds a free slot. -/
theorem total_lt (h : surplus r a ≤ G) {k : K} (hk : a k < r k) :
    ∑ j, a j < G + ∑ j, r j := by
  have hothers := sum_others_le h k
  rw [← Finset.add_sum_erase _ a (Finset.mem_univ k)]
  omega

/-- What one more user of kind `k` does to the surplus. -/
theorem surplus_add (r a : K → ℤ) (k : K) (n : ℤ) :
    surplus r (Function.update a k (a k + n)) =
      surplus r a - max 0 (a k - r k) + max 0 (a k + n - r k) := by
  unfold surplus
  rw [← Finset.add_sum_erase _ _ (Finset.mem_univ k),
    ← Finset.add_sum_erase Finset.univ (fun j => max 0 (a j - r j)) (Finset.mem_univ k),
    Function.update_self]
  have hrest : ∑ j ∈ Finset.univ.erase k, max 0 (Function.update a k (a k + n) j - r j) =
      ∑ j ∈ Finset.univ.erase k, max 0 (a j - r j) :=
    Finset.sum_congr rfl fun j hj => by rw [Function.update_of_ne (Finset.ne_of_mem_erase hj)]
  rw [hrest]
  omega

/-- **Admission keeps the surplus within the general slots.** -/
theorem surplus_acquire (hr : ∀ k, 0 ≤ r k) (ha : ∀ k, 0 ≤ a k) (h : surplus r a ≤ G) {k : K}
    (hk : a k < r k ∨ ∑ j, a j < G) : surplus r (Function.update a k (a k + 1)) ≤ G := by
  have htotal := surplus_le_total hr ha
  rw [surplus_add]
  rcases hk with hk | hk <;> omega

theorem surplus_release (h : surplus r a ≤ G) (k : K) :
    surplus r (Function.update a k (a k - 1)) ≤ G := by
  have hsub := surplus_add r a k (-1)
  rw [← sub_eq_add_neg] at hsub
  rw [hsub]
  omega

end Reservation
