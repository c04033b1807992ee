import Mathlib.Algebra.BigOperators.Group.Finset.Piecewise
import Mathlib.Data.Fintype.Basic
import Mathlib.Order.Interval.Finset.Nat

/-!
# Counting the entries of a partial assignment

`g : ℕ → Option α` assigns values to some of the numbers below `n`, and `tally g n a` counts the
numbers that have the value `a`.  The lemmas say how the counts change when one number gets a
value or loses it, and that the counts of all values together are the number of numbers that have
one.  This is what ties a table of counters to the objects they count.

A list of pairs can be counted as a whole or key by key (`sum_count_valuesOf`).
-/

set_option autoImplicit false

namespace Tally

variable {α : Type*} [DecidableEq α]

def tally (g : ℕ → Option α) (n : ℕ) (a : α) : ℕ :=
  ((Finset.range n).filter fun i => g i = some a).card

/-- Numbers without a value do not count, so the bound may be anything above those that have
one. -/
theorem tally_eq_of_le {g : ℕ → Option α} {n m : ℕ} (hnm : n ≤ m) (hg : ∀ i, n ≤ i → g i = none)
    (a : α) : tally g m a = tally g n a := by
  refine congrArg Finset.card (Finset.ext fun i => ?_)
  rw [Finset.mem_filter, Finset.mem_filter, Finset.mem_range, Finset.mem_range]
  constructor
  · rintro ⟨_, hi⟩
    refine ⟨?_, hi⟩
    by_contra hle
    rw [hg i (by omega)] at hi
    cases hi
  · rintro ⟨hlt, hi⟩
    exact ⟨by omega, hi⟩

/-- A number without a value gets one. -/
theorem tally_set {g : ℕ → Option α} {n i : ℕ} (hi : i < n) (hg : g i = none) (b a : α) :
    tally (Function.update g i (some b)) n a = tally g n a + if a = b then 1 else 0 := by
  unfold tally
  split
  · rename_i hab
    subst hab
    have hins : ((Finset.range n).filter fun j => Function.update g i (some a) j = some a) =
        insert i ((Finset.range n).filter fun j => g j = some a) := by
      ext j
      rcases eq_or_ne j i with rfl | hj
      · simp [hi]
      · simp [hj]
    rw [hins, Finset.card_insert_of_notMem (by simp [hg])]
  · rename_i hab
    rw [Nat.add_zero]
    refine congrArg Finset.card (Finset.ext fun j => ?_)
    rcases eq_or_ne j i with rfl | hj
    · simp [hg, Ne.symm hab]
    · simp [hj]

/-- A number loses its value. -/
theorem tally_unset {g : ℕ → Option α} {n i : ℕ} (hi : i < n) {b : α} (hg : g i = some b) (a : α) :
    tally (Function.update g i none) n a + (if a = b then 1 else 0) = tally g n a := by
  have hset := tally_set (g := Function.update g i none) hi (Function.update_self ..) b a
  rw [Function.update_idem, ← hg, Function.update_eq_self] at hset
  exact hset.symm

/-- The counts of all values together. -/
theorem sum_tally [Fintype α] (g : ℕ → Option α) (n : ℕ) :
    ∑ a, tally g n a = ((Finset.range n).filter fun i => (g i).isSome).card := by
  have hbi : ((Finset.range n).filter fun i => (g i).isSome) =
      Finset.univ.biUnion fun a => (Finset.range n).filter fun i => g i = some a := by
    ext i
    simp [Option.isSome_iff_exists]
  rw [hbi, Finset.card_biUnion]
  · rfl
  · intro a _ b _ hab
    refine Finset.disjoint_filter.2 fun i _ ha hb => hab ?_
    exact Option.some.inj (ha.symm.trans hb)

/-! ## Lists of pairs -/

section Pairs

variable {K : Type*} [DecidableEq K]

/-- The values that belong to a key, in their order. -/
def valuesOf (l : List (K × α)) (k : K) : List α :=
  (l.filter fun p => decide (p.1 = k)).map Prod.snd

omit [DecidableEq α] in
@[simp] theorem valuesOf_append (l l' : List (K × α)) (k : K) :
    valuesOf (l ++ l') k = valuesOf l k ++ valuesOf l' k := by
  rw [valuesOf, List.filter_append, List.map_append, valuesOf, valuesOf]

omit [DecidableEq α] in
@[simp] theorem valuesOf_nil (k : K) : valuesOf ([] : List (K × α)) k = [] := rfl

omit [DecidableEq α] in
theorem valuesOf_singleton (k k' : K) (a : α) :
    valuesOf [(k, a)] k' = if k = k' then [a] else [] := by
  by_cases hk : k = k' <;> simp [valuesOf, hk]

omit [DecidableEq α] in
theorem mem_valuesOf {l : List (K × α)} {k : K} {a : α} : a ∈ valuesOf l k ↔ (k, a) ∈ l := by
  simp [valuesOf]

/-- Each entry of the list is counted under its key. -/
theorem sum_count_valuesOf {l : List (K × α)} {R : Finset K} (hR : ∀ p ∈ l, p.1 ∈ R) (a : α) :
    ∑ k ∈ R, (valuesOf l k).count a = (l.map Prod.snd).count a := by
  induction l with
  | nil => simp
  | cons p l ih =>
    have hcons : ∀ k, (valuesOf (p :: l) k).count a =
        (if p.1 = k then [p.2].count a else 0) + (valuesOf l k).count a := by
      intro k
      rw [← List.singleton_append, valuesOf_append, List.count_append, valuesOf_singleton]
      split <;> simp
    rw [Finset.sum_congr rfl fun k _ => hcons k, Finset.sum_add_distrib,
      ih fun q hq => hR q (List.mem_cons_of_mem p hq), Finset.sum_ite_eq R p.1,
      if_pos (hR p List.mem_cons_self), List.map_cons, ← List.count_append, List.singleton_append]

end Pairs

end Tally
