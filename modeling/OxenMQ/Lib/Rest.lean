import Mathlib.Algebra.GroupWithZero.Nat
import OxenMQ.Lib.Transition

/-!
# Systems that come to rest

Some of the events of a system are its own: nobody outside has to cause them.  A system that is
left alone takes only such steps.  `AtRest` says that no step of its own changes it any more, and
`Settles` is what has to be shown of a measure for every state to come to rest, whichever of its
own steps the system takes and in whatever order:

* `Settles.run_le` bounds the cost of the steps it can take on its own;
* `Settles.exists_rest` says that it can take them to their end.

Some steps may be free, such as a look around that finds nothing to do; these may be taken forever,
but they leave the system as it is.
-/

set_option autoImplicit false

namespace Transition

variable {σ ε : Type*} {step : σ → ε → Option σ} {own : ε → Prop} {P : σ → Prop} {cost : ε → ℕ}
  {work : σ → ℕ}

/-- No step of its own changes the system. -/
def AtRest (step : σ → ε → Option σ) (own : ε → Prop) (s : σ) : Prop :=
  ∀ e, own e → ∀ s', step s e = some s' → s' = s

/-- Where `P` holds, every step of the system's own pays its cost from the work that is left, and
changes nothing if it leaves all the work. -/
structure Settles (step : σ → ε → Option σ) (own : ε → Prop) (P : σ → Prop) (cost : ε → ℕ)
    (work : σ → ℕ) : Prop where
  keeps : ∀ s e s', P s → own e → step s e = some s' → P s'
  pays : ∀ s e s', P s → own e → step s e = some s' → cost e + work s' ≤ work s
  moves : ∀ s e s', P s → own e → step s e = some s' → s' = s ∨ work s' < work s

namespace Settles

theorem run_keeps (h : Settles step own P cost work) {s t : σ} {es : List ε} (hs : P s)
    (hown : ∀ e ∈ es, own e) (hrun : run step s es = some t) : P t :=
  run_rel (R := fun s t => P s → P t) (fun _ => id) (fun _ _ _ h h' => h' ∘ h)
    (fun e he s s' hs' hP => h.keeps s e s' hP (hown e he) hs') hrun hs

/-- The work that is there at first pays for all that the system does on its own. -/
theorem run_le (h : Settles step own P cost work) {s t : σ} {es : List ε} (hs : P s)
    (hown : ∀ e ∈ es, own e) (hrun : run step s es = some t) :
    (es.map cost).sum + work t ≤ work s := by
  induction es generalizing s with
  | nil => cases hrun; simp
  | cons e es ih =>
    obtain ⟨s', hs', hrun⟩ := run_cons_eq_some.1 hrun
    have he : own e := hown e List.mem_cons_self
    have hpays := h.pays s e s' hs he hs'
    have hrest :=
      ih (h.keeps s e s' hs he hs') (fun d hd => hown d (List.mem_cons_of_mem e hd)) hrun
    rw [List.map_cons, List.sum_cons]
    omega

/-- Left alone, the system can come to rest. -/
theorem exists_rest (h : Settles step own P cost work) {s : σ} (hs : P s) :
    ∃ es t, (∀ e ∈ es, own e) ∧ run step s es = some t ∧ AtRest step own t := by
  -- The induction is on the work that is left, which every step that changes anything lowers.
  induction hn : work s using Nat.strongRecOn generalizing s with
  | ind n ih =>
    by_cases hrest : AtRest step own s
    · exact ⟨[], s, by simp, rfl, hrest⟩
    · obtain ⟨e, he, s', hs', hne⟩ : ∃ e, own e ∧ ∃ s', step s e = some s' ∧ s' ≠ s := by
        simpa [AtRest] using hrest
      have hlt := (h.moves s e s' hs he hs').resolve_left hne
      obtain ⟨es, t, hown, hrun, ht⟩ := ih (work s') (hn ▸ hlt) (h.keeps s e s' hs he hs') rfl
      refine ⟨e :: es, t, ?_, run_cons_eq_some.2 ⟨s', hs', hrun⟩, ht⟩
      exact List.forall_mem_cons.2 ⟨he, hown⟩

end Settles

/-! ## Work that is spread over a list -/

/-- One element of the list changes. -/
theorem sum_map_set {α : Type*} (g : α → ℕ) {l : List α} {t : ℕ} {x : α} (h : l[t]? = some x)
    (y : α) : ((l.set t y).map g).sum + g x = (l.map g).sum + g y := by
  induction l generalizing t with
  | nil => cases h
  | cons a l ih =>
    cases t with
    | zero =>
      cases h
      simp only [List.set_cons_zero, List.map_cons, List.sum_cons]
      omega
    | succ t =>
      have := ih h
      simp only [List.set_cons_succ, List.map_cons, List.sum_cons]
      omega

end Transition
