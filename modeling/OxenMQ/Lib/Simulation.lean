import OxenMQ.Lib.Transition

/-!
# One system inside another

A system may contain another one: each of its steps does something to the inner system, which is
some events of that system in a row, and often none.  `Simulates R step step' events` says so for a
relation `R` between the states of the two, with `events s e` the events of the inner system that
happen when the outer one does `e` in the state `s`.

`Simulates.run` carries this over to whole runs: what happens to the inner system along a run of the
outer one is a run of the inner one (`eventsOf`), so that everything there is to say about its runs
applies.
-/

set_option autoImplicit false

namespace Transition

variable {σ τ ε δ : Type*} {R : σ → τ → Prop} {step : σ → ε → Option σ} {step' : τ → δ → Option τ}
  {events : σ → ε → List δ}

/-- Every step of the outer system is some events of the inner one. -/
def Simulates (R : σ → τ → Prop) (step : σ → ε → Option σ) (step' : τ → δ → Option τ)
    (events : σ → ε → List δ) : Prop :=
  ∀ s t e s', R s t → step s e = some s' → ∃ t', run step' t (events s e) = some t' ∧ R s' t'

/-- What happens to the inner system along a run of the outer one. -/
def eventsOf (step : σ → ε → Option σ) (events : σ → ε → List δ) (s : σ) (es : List ε) : List δ :=
  (steps step s es).flatMap fun x => events x.1 x.2

theorem eventsOf_snoc {s m t : σ} {es : List ε} {e : ε} (h : run step s es = some m)
    (he : step m e = some t) :
    eventsOf step events s (es ++ [e]) = eventsOf step events s es ++ events m e := by
  rw [eventsOf, steps_snoc h he, List.flatMap_append, List.flatMap_singleton, eventsOf]

/-- **A run of the outer system is a run of the inner one.** -/
theorem Simulates.run (h : Simulates R step step' events) {s s' : σ} {t : τ} {es : List ε}
    (hR : R s t) (hrun : Transition.run step s es = some s') :
    ∃ t', Transition.run step' t (eventsOf step events s es) = some t' ∧ R s' t' := by
  refine run_induction_history (P := fun es s' => ∃ t',
    Transition.run step' t (eventsOf step events s es) = some t' ∧ R s' t') ⟨t, rfl, hR⟩ ?_ hrun
  rintro es m e m' hm ⟨t₁, ht₁, hR₁⟩ he
  obtain ⟨t₂, ht₂, hR₂⟩ := h m t₁ e m' hR₁ he
  exact ⟨t₂, by rw [eventsOf_snoc hm he]; exact run_append_eq_some.2 ⟨t₁, ht₁, ht₂⟩, hR₂⟩

end Transition
