import Mathlib.Data.List.Sigma

/-!
# Lists

What is at a place of a list after one place has been changed or one element has been added at the
end, where a run of elements ends, and what a filter does to a list of keys and values.
-/

set_option autoImplicit false

namespace List

variable {α β : Type}

theorem getElem?_modify_ite (l : List α) (f : α → α) (i j : ℕ) :
    (l.modify i f)[j]? = if j = i then l[j]?.map f else l[j]? := by
  rw [List.getElem?_modify]
  rcases eq_or_ne j i with rfl | h
  · simp
  · simp [h, h.symm]

theorem getElem?_concat_of_ne {l : List α} {j : ℕ} (hj : j ≠ l.length) (a : α) :
    (l ++ [a])[j]? = l[j]? := by
  rcases Nat.lt_or_gt_of_ne hj with hlt | hgt
  · exact List.getElem?_append_left hlt
  · rw [List.getElem?_eq_none (by rw [List.length_append]; exact hgt),
      List.getElem?_eq_none (Nat.le_of_lt hgt)]

theorem modify_concat (l : List α) (a : α) (f : α → α) :
    (l ++ [a]).modify l.length f = l ++ [f a] := by
  induction l with
  | nil => rfl
  | cons b l ih => simp [ih]

theorem count_concat_ite [DecidableEq α] (l : List α) (a b : α) :
    (l ++ [a]).count b = l.count b + if b = a then 1 else 0 := by
  simp only [List.count_append, List.count_singleton, beq_iff_eq, eq_comm (a := b)]

/-- Cutting a list where a run of elements ends. -/
theorem takeWhile_dropWhile_append {p : α → Bool} {l₁ l₂ : List α} (h₁ : ∀ a ∈ l₁, p a = true)
    (h₂ : ∀ a ∈ l₂.head?, p a = false) :
    (l₁ ++ l₂).takeWhile p = l₁ ∧ (l₁ ++ l₂).dropWhile p = l₂ := by
  rw [List.takeWhile_append_of_pos h₁, List.dropWhile_append_of_pos h₁]
  cases l₂ with
  | nil => simp
  | cons a l₂ =>
    have ha : p a = false := h₂ a rfl
    simp [ha]

theorem eq_false_of_mem_head?_dropWhile {p : α → Bool} {l : List α} {a : α}
    (h : a ∈ (l.dropWhile p).head?) : p a = false := by
  have hstop := List.head?_dropWhile_not p l
  rw [Option.mem_def.1 h] at hstop
  exact hstop

theorem dlookup_filter [DecidableEq α] {l : List (Sigma fun _ : α => β)} (hl : l.NodupKeys)
    (p : (Sigma fun _ : α => β) → Bool) (a : α) :
    (l.filter p).dlookup a = (l.dlookup a).filter fun b => p ⟨a, b⟩ := by
  ext b
  rw [← Option.mem_def, ← Option.mem_def, List.mem_dlookup_iff (hl.sublist List.filter_sublist),
    List.mem_filter, Option.mem_filter_iff, List.mem_dlookup_iff hl]

end List
