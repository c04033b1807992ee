import Mathlib.Algebra.BigOperators.Group.Finset.Basic
import Mathlib.Algebra.GroupWithZero.Nat
import Mathlib.Algebra.Order.BigOperators.Group.Finset
import Mathlib.Data.Multiset.Count

/-!
# Taking turns

A queue of clients.  The one at the front is served; if it had something to do it goes back to the
end, and otherwise it leaves.  What each turn finds is given as a list, and `RoundRobin.serve` is
who was served, with what was found, and who is still in the queue.

Nobody is in the queue twice (`nodup_serve`).  Between two turns of a client there is exactly one
turn of each of the others (`between`), and if every client has something to do only so many times
then the queue gets empty (`serve_ends`).
-/

set_option autoImplicit false

namespace RoundRobin

variable {α : Type*} {l : List α} {a : α}

/-- The turns that are taken, and who is left. -/
def serve : List α → List Bool → List (α × Bool) × List α
  | [], _ => ([], [])
  | a :: l, [] => ([], a :: l)
  | a :: l, busy :: found =>
    let r := serve (if busy then l ++ [a] else l) found
    ((a, busy) :: r.1, r.2)

@[simp]
theorem serve_nil_left (found : List Bool) : serve ([] : List α) found = ([], []) := by
  rw [serve]

@[simp]
theorem serve_nil_right (l : List α) : serve l [] = ([], l) := by
  cases l <;> rw [serve]

/-- A client leaves when it has nothing to do. -/
theorem count_serve [DecidableEq α] (l : List α) (found : List Bool) (b : α) :
    (serve l found).1.count (b, false) + (serve l found).2.count b = l.count b := by
  fun_induction serve l found with
  | case1 => rfl
  | case2 => simp
  | case3 a l busy found r ih =>
    cases busy with
    | false =>
      have hhead : ((a, false) == (b, false)) = (a == b) := by
        rw [Bool.eq_iff_iff]
        simp
      rw [List.count_cons, List.count_cons, hhead, Nat.add_right_comm]
      exact congrArg (· + _) ih
    | true =>
      rw [List.count_cons_of_ne (by simp)]
      exact ih.trans ((List.perm_append_singleton a l).count_eq b)

theorem mem_serve (l : List α) (found : List Bool) : ∀ e ∈ (serve l found).1, e.1 ∈ l := by
  fun_induction serve l found with
  | case1 => nofun
  | case2 => nofun
  | case3 a l busy found r ih =>
    intro e he
    rcases List.mem_cons.1 he with rfl | he
    · exact List.mem_cons_self
    · have hmem := ih e he
      cases busy with
      | false => exact List.mem_cons_of_mem a hmem
      | true => exact (List.perm_append_singleton a l).mem_iff.1 hmem

theorem length_serve (l : List α) (found : List Bool) :
    (serve l found).1.length = found.length ∨ (serve l found).2 = [] := by
  fun_induction serve l found with
  | case1 => exact .inr rfl
  | case2 => exact .inl rfl
  | case3 a l busy found r ih => exact ih.imp (congrArg (· + 1)) id

theorem nodup_serve (h : l.Nodup) (found : List Bool) : (serve l found).2.Nodup := by
  classical
  refine List.nodup_iff_count_le_one.2 fun a => ?_
  have hcount := count_serve l found a
  have hle := List.nodup_iff_count_le_one.1 h a
  omega

/-- Everybody in front of a client is served before it. -/
theorem served_before {rest : List α} {found : List Bool} {mid post : List (α × Bool)} {busy : Bool}
    (ha : a ∉ l) (h : (serve (l ++ a :: rest) found).1 = mid ++ (a, busy) :: post)
    (hmid : a ∉ mid.map Prod.fst) : mid.map Prod.fst = l := by
  induction l generalizing rest found mid with
  | nil =>
    rcases found with _ | ⟨busy', found⟩
    · simp at h
    rcases mid with _ | ⟨e, mid⟩
    · rfl
    · rw [List.nil_append, serve] at h
      obtain ⟨rfl, _⟩ := List.cons.inj h
      exact absurd List.mem_cons_self hmid
  | cons b l ih =>
    rcases found with _ | ⟨busy', found⟩
    · simp at h
    rw [List.mem_cons, not_or] at ha
    rw [List.cons_append, serve] at h
    rcases mid with _ | ⟨e, mid⟩
    · obtain ⟨heq, _⟩ := List.cons.inj h
      exact absurd (congrArg Prod.fst heq).symm ha.1
    · obtain ⟨rfl, h'⟩ := List.cons.inj h
      rw [List.map_cons, List.mem_cons, not_or] at hmid
      rw [List.map_cons]
      refine congrArg _ ?_
      cases busy' with
      | false => exact ih ha.2 h' hmid.2
      | true =>
        rw [if_pos rfl, List.append_assoc] at h'
        exact ih ha.2 h' hmid.2

/-- **Between two turns of a client everybody else who is there has one turn.** -/
theorem between (hl : l.Nodup) {found : List Bool} {pre mid post : List (α × Bool)}
    {busy busy' : Bool} (h : (serve l found).1 = pre ++ (a, busy) :: (mid ++ (a, busy') :: post))
    (hmid : a ∉ mid.map Prod.fst) :
    (serve l (found.take pre.length)).2 = a :: mid.map Prod.fst := by
  induction pre generalizing l found with
  | cons e pre ih =>
    rcases l with _ | ⟨b, l⟩
    · simp at h
    rcases found with _ | ⟨busy'', found⟩
    · simp at h
    rw [serve] at h
    obtain ⟨rfl, h'⟩ := List.cons.inj h
    rw [List.length_cons, List.take_succ_cons, serve]
    refine ih ?_ h'
    cases busy'' with
    | false => exact hl.of_cons
    | true => exact (List.perm_append_singleton b l).nodup_iff.2 hl
  | nil =>
    rcases l with _ | ⟨b, l⟩
    · simp at h
    rcases found with _ | ⟨busy'', found⟩
    · simp at h
    rw [serve] at h
    obtain ⟨heq, h'⟩ := List.cons.inj h
    obtain ⟨rfl, rfl⟩ := Prod.mk.inj heq
    rw [List.length_nil, List.take_zero, serve_nil_right]
    have hb : b ∉ l := (List.nodup_cons.1 hl).1
    cases busy'' with
    | false =>
      -- it has left
      have hmem : (b, busy') ∈ (serve l found).1 := by
        rw [show (serve l found).1 = _ from h']
        exact List.mem_append_right _ List.mem_cons_self
      exact absurd (mem_serve l found _ hmem) hb
    | true => rw [served_before hb h' hmid]

/-- The turns with nothing to do. -/
theorem countP_idle_add_length (l : List α) (found : List Bool) :
    (serve l found).1.countP (fun e => !e.2) + (serve l found).2.length = l.length := by
  fun_induction serve l found with
  | case1 => rfl
  | case2 => simp
  | case3 a l busy found r ih =>
    cases busy with
    | false =>
      rw [List.countP_cons_of_pos rfl, Nat.add_right_comm]
      exact congrArg (· + 1) ih
    | true =>
      rw [List.countP_cons_of_neg (by simp)]
      exact ih.trans (List.perm_append_singleton a l).length_eq

section Bound

variable [DecidableEq α]

/-- The turns with something to do, client by client. -/
theorem sum_count_busy {t : List (α × Bool)} (hl : l.Nodup) (ht : ∀ e ∈ t, e.1 ∈ l) :
    (l.map fun a => t.count (a, true)).sum = t.countP Prod.snd := by
  have hcount : ∀ a, ((t.filter Prod.snd).map Prod.fst).count a = t.count (a, true) := fun a => by
    rw [List.count, List.countP_map, List.countP_filter, List.count]
    refine List.countP_congr fun e _ => ?_
    obtain ⟨b, busy⟩ := e
    cases busy <;> simp
  have hmem : ∀ a ∈ (((t.filter Prod.snd).map Prod.fst : List α) : Multiset α), a ∈ l.toFinset := by
    intro a ha
    obtain ⟨e, he, rfl⟩ := List.mem_map.1 (Multiset.mem_coe.1 ha)
    exact List.mem_toFinset.2 (ht e (List.mem_filter.1 he).1)
  have hsum := Multiset.sum_count_eq_card hmem
  simp only [Multiset.coe_count, hcount, Multiset.coe_card, List.length_map] at hsum
  rw [← List.sum_toFinset _ hl, hsum, List.countP_eq_length_filter]

/-- **The queue gets empty** if every client has something to do only so many times. -/
theorem serve_ends (hl : l.Nodup) {found : List Bool} (bound : α → ℕ)
    (hbound : ∀ a ∈ l, (serve l found).1.count (a, true) ≤ bound a)
    (hlen : (l.map bound).sum + l.length ≤ found.length) : (serve l found).2 = [] := by
  refine (length_serve l found).elim (fun hturns => ?_) id
  have hbusy : (serve l found).1.countP Prod.snd ≤ (l.map bound).sum := by
    rw [← sum_count_busy hl (mem_serve l found)]
    exact List.sum_le_sum hbound
  have hidle := countP_idle_add_length l found
  have hsplit := List.length_eq_countP_add_countP Prod.snd (l := (serve l found).1)
  simp only [Bool.not_eq_true, Bool.decide_eq_false] at hsplit
  exact List.eq_nil_of_length_eq_zero (by omega)

end Bound

end RoundRobin
