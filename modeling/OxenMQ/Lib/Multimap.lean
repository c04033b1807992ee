import Mathlib.Data.List.Perm.Basic

/-!
# An unordered multimap as a list

An unordered multimap enumerates its entries in some order of its own.  Entries with equal keys
stay in the same relative order until one of them is erased, but where a new entry goes is the
container's business.  A list of entries models one, with the enumeration order as the list order,
provided that insertion is allowed to put a new entry anywhere: `emplace pos` inserts at position
`pos`, and a statement about every `pos` is a statement about every container.

`modifyFirst p f` is the in-place update of the first entry a scan for `p` stops at; erasing that
entry is `List.eraseP` of the standard library.
-/

set_option autoImplicit false

namespace Multimap

variable {α : Type*}

/-- Insert an entry at position `pos`, or at the end when the list is shorter. -/
def emplace (pos : ℕ) (a : α) (m : List α) : List α := m.insertIdx (min pos m.length) a

theorem emplace_perm (pos : ℕ) (a : α) (m : List α) : (emplace pos a m).Perm (a :: m) :=
  List.perm_insertIdx a m (Nat.min_le_right _ _)

@[simp] theorem mem_emplace {pos : ℕ} {a b : α} {m : List α} :
    b ∈ emplace pos a m ↔ b = a ∨ b ∈ m := by
  rw [(emplace_perm pos a m).mem_iff, List.mem_cons]

/-- Erasing the first entry that satisfies `p` takes out what the scan for `p` finds. -/
theorem perm_cons_eraseP {p : α → Bool} {a : α} {m : List α} (h : m.find? p = some a) :
    m.Perm (a :: m.eraseP p) := by
  induction m with
  | nil => cases h
  | cons b m ih =>
    cases hb : p b with
    | true =>
      rw [List.find?_cons_of_pos hb] at h
      cases h
      rw [List.eraseP_cons_of_pos hb]
    | false =>
      have hb' : ¬ p b = true := by rw [hb]; exact Bool.false_ne_true
      rw [List.find?_cons_of_neg hb'] at h
      rw [List.eraseP_cons_of_neg hb']
      exact ((ih h).cons b).trans (List.Perm.swap a b _)

/-- What is left of a range when its first entry has been erased. -/
theorem filter_eraseP (p : α → Bool) (m : List α) : (m.eraseP p).filter p = (m.filter p).tail := by
  induction m with
  | nil => rfl
  | cons a m ih =>
    cases ha : p a with
    | true => rw [List.eraseP_cons_of_pos ha, List.filter_cons_of_pos ha, List.tail_cons]
    | false =>
      have ha' : ¬ p a = true := by rw [ha]; exact Bool.false_ne_true
      rw [List.eraseP_cons_of_neg ha', List.filter_cons_of_neg ha', List.filter_cons_of_neg ha', ih]

/-- Apply `f` to the first entry that satisfies `p`. -/
def modifyFirst (p : α → Bool) (f : α → α) : List α → List α
  | [] => []
  | a :: m => if p a then f a :: m else a :: modifyFirst p f m

/-- The entry that a scan for `p` stops at is updated. -/
theorem map_mem_modifyFirst {p : α → Bool} {f : α → α} {a : α} {m : List α}
    (h : m.find? p = some a) : f a ∈ modifyFirst p f m := by
  induction m with
  | nil => cases h
  | cons b m ih =>
    rw [modifyFirst]
    cases hb : p b with
    | true =>
      rw [List.find?_cons_of_pos hb] at h
      cases h
      exact List.mem_cons_self
    | false =>
      have hb' : ¬ p b = true := by rw [hb]; exact Bool.false_ne_true
      rw [List.find?_cons_of_neg hb'] at h
      exact List.mem_cons_of_mem b (ih h)

/-- An update of the first entry relates the lists entry by entry. -/
theorem forall₂_modifyFirst {R : α → α → Prop} (hrefl : ∀ a, R a a) {p : α → Bool} {f : α → α}
    {m : List α} (h : ∀ a ∈ m, p a = true → R a (f a)) : List.Forall₂ R m (modifyFirst p f m) := by
  induction m with
  | nil => exact .nil
  | cons a m ih =>
    rw [modifyFirst]
    split
    · rename_i ha
      exact .cons (h a List.mem_cons_self ha) (List.forall₂_same.2 fun b _ => hrefl b)
    · exact .cons (hrefl a) (ih fun b hb => h b (List.mem_cons_of_mem a hb))

/-- The place of the first entry that satisfies `p`. -/
theorem modifyFirst_eq_set {p : α → Bool} {l : List α} {i : ℕ} (h : l.findIdx? p = some i) :
    ∃ a, l[i]? = some a ∧ l.find? p = some a ∧ ∀ f, modifyFirst p f l = l.set i (f a) := by
  induction l generalizing i with
  | nil => cases h
  | cons b l ih =>
    rw [List.findIdx?_cons] at h
    cases hb : p b with
    | true =>
      rw [if_pos hb] at h
      cases h
      refine ⟨b, rfl, List.find?_cons_of_pos hb, fun f => ?_⟩
      rw [modifyFirst, if_pos hb]
      rfl
    | false =>
      rw [hb] at h
      obtain ⟨j, hj, rfl⟩ := Option.map_eq_some_iff.1 h
      obtain ⟨a, ha, hfind, hset⟩ := ih hj
      have hb' : ¬ p b = true := by rw [hb]; exact Bool.false_ne_true
      refine ⟨a, ha, (List.find?_cons_of_neg hb').trans hfind, fun f => ?_⟩
      rw [modifyFirst, if_neg hb', hset]
      rfl

/-- Two changes to the first entry are one. -/
theorem modifyFirst_modifyFirst {p : α → Bool} {f g : α → α} {l : List α} (h : ∀ a, p (f a) = p a) :
    modifyFirst p g (modifyFirst p f l) = modifyFirst p (fun a => g (f a)) l := by
  induction l with
  | nil => rfl
  | cons a l ih =>
    rw [modifyFirst, modifyFirst]
    split
    · rename_i ha
      rw [modifyFirst, h, if_pos ha]
    · rename_i ha
      rw [modifyFirst, if_neg ha, ih]

end Multimap
