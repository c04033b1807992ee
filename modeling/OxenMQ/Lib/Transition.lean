import Mathlib.Data.List.Induction

/-!
# Runs of a partial step function

A system is given by a step function `step : σ → ε → Option σ`: in the state `s` the event `e`
leads to the state `s'` when `step s e = some s'`, and cannot happen when `step s e = none`.  This
file has the ways the rest of the development talks about such a system over time:

* `run step s es` is the state a whole list of events leads to, if every one of them can happen
  in its turn;
* `states step s es` and `steps step s es` are what the run passes through on the way: the states
  themselves, and the pairs of a state and the event that happened in it;
* `Happened step s es Q` says that one of the events had the property `Q`;
* `run_induction` is the invariant rule (`run_induction_history` when what is claimed of a state
  depends on the events before it), and `states_of_steps` its conditional form, for a
  property that is only preserved by the steps meeting a side condition.  `exists_first_bad` cuts
  a run at the first step that does not meet it;
* `run_rel` is the rule for what relates the state after a step to the one before.
-/

set_option autoImplicit false

namespace Transition

variable {σ ε : Type*} {step : σ → ε → Option σ}

/-- The state the events `es` lead to from `s`, if every one of them can happen in its turn. -/
def run (step : σ → ε → Option σ) : σ → List ε → Option σ
  | s, [] => some s
  | s, e :: es => (step s e).bind fun s' => run step s' es

/-- The states a run passes through, the first and the last included. -/
def states (step : σ → ε → Option σ) : σ → List ε → List σ
  | s, [] => [s]
  | s, e :: es => s :: (step s e).elim [] fun s' => states step s' es

/-- The steps a run takes: each event that happens, with the state it happens in. -/
def steps (step : σ → ε → Option σ) : σ → List ε → List (σ × ε)
  | _, [] => []
  | s, e :: es => (step s e).elim [] fun s' => (s, e) :: steps step s' es

@[simp] theorem run_nil (s : σ) : run step s [] = some s := rfl

theorem run_cons_eq_some {s t : σ} {e : ε} {es : List ε} :
    run step s (e :: es) = some t ↔ ∃ s', step s e = some s' ∧ run step s' es = some t := by
  rw [run, Option.bind_eq_some_iff]

theorem run_append_eq_some {s t : σ} {es fs : List ε} :
    run step s (es ++ fs) = some t ↔ ∃ m, run step s es = some m ∧ run step m fs = some t := by
  induction es generalizing s with
  | nil => simp
  | cons e es ih =>
    rw [List.cons_append, run_cons_eq_some]
    constructor
    · rintro ⟨s', hs', ht⟩
      obtain ⟨m, hm, hmt⟩ := ih.1 ht
      exact ⟨m, run_cons_eq_some.2 ⟨s', hs', hm⟩, hmt⟩
    · rintro ⟨m, hm, hmt⟩
      obtain ⟨s', hs', hm'⟩ := run_cons_eq_some.1 hm
      exact ⟨s', hs', ih.2 ⟨m, hm', hmt⟩⟩

theorem run_snoc {s m t : σ} {es : List ε} {e : ε} (h : run step s es = some m)
    (he : step m e = some t) : run step s (es ++ [e]) = some t :=
  run_append_eq_some.2 ⟨m, h, run_cons_eq_some.2 ⟨t, he, rfl⟩⟩

theorem exists_run_of_step {s s' : σ} {e : ε} (h : step s e = some s') :
    ∃ es, run step s es = some s' :=
  ⟨[e], run_cons_eq_some.2 ⟨s', h, rfl⟩⟩

/-- **The invariant rule with history**: what is claimed of a state may depend on the events that
led to it.  The induction is on the run from its end, so that the step case may use that the state
it starts from is itself the end of a run. -/
theorem run_induction_history {P : List ε → σ → Prop} {s₀ : σ} (h0 : P [] s₀)
    (hstep : ∀ (es : List ε) (s : σ) (e : ε) (s' : σ),
      run step s₀ es = some s → P es s → step s e = some s' → P (es ++ [e]) s')
    {es : List ε} {s : σ} (h : run step s₀ es = some s) : P es s := by
  induction es using List.reverseRecOn generalizing s with
  | nil => cases h; exact h0
  | append_singleton es e ih =>
    obtain ⟨m, hm, he⟩ := run_append_eq_some.1 h
    obtain ⟨s', hs', hs⟩ := run_cons_eq_some.1 he
    cases hs
    exact hstep es m e s hm (ih hm) hs'

/-- **The invariant rule.** -/
theorem run_induction {P : σ → Prop} {s₀ : σ} (h0 : P s₀)
    (hstep : ∀ (es : List ε) (s : σ) (e : ε) (s' : σ),
      run step s₀ es = some s → P s → step s e = some s' → P s')
    {es : List ε} {s : σ} (h : run step s₀ es = some s) : P s :=
  run_induction_history (P := fun _ s => P s) h0 hstep h

/-- What a preorder says of every step it says of the run. -/
theorem run_rel {R : σ → σ → Prop} (hrefl : ∀ s, R s s) (htrans : ∀ s t u, R s t → R t u → R s u)
    {es : List ε} (hstep : ∀ e ∈ es, ∀ s s', step s e = some s' → R s s') {s t : σ}
    (hrun : run step s es = some t) : R s t := by
  induction es generalizing s with
  | nil => cases hrun; exact hrefl _
  | cons e es ih =>
    obtain ⟨s', hs', hrun⟩ := run_cons_eq_some.1 hrun
    exact htrans s s' t (hstep e List.mem_cons_self s s' hs')
      (ih (fun d hd => hstep d (List.mem_cons_of_mem e hd)) hrun)

/-- Among the events `es` was one with the property `Q`, which may look at the states before and
after it. -/
def Happened (step : σ → ε → Option σ) (s₀ : σ) (es : List ε) (Q : σ → ε → σ → Prop) : Prop :=
  ∃ pre e post s s', es = pre ++ e :: post ∧ run step s₀ pre = some s ∧ step s e = some s' ∧
    Q s e s'

theorem not_happened_nil {s₀ : σ} {Q : σ → ε → σ → Prop} : ¬ Happened step s₀ [] Q := by
  rintro ⟨pre, e, post, _, _, h, _⟩
  simp at h

theorem happened_snoc {s₀ s s' : σ} {es : List ε} {e : ε} {Q : σ → ε → σ → Prop}
    (h : run step s₀ es = some s) (he : step s e = some s') :
    Happened step s₀ (es ++ [e]) Q ↔ Happened step s₀ es Q ∨ Q s e s' := by
  constructor
  · rintro ⟨pre, d, post, m, m', heq, hm, hm', hQ⟩
    rcases List.eq_nil_or_concat post with rfl | ⟨post, last, rfl⟩
    · obtain ⟨rfl, hlast⟩ := List.append_inj' heq rfl
      cases hlast
      rw [h] at hm
      cases hm
      rw [he] at hm'
      cases hm'
      exact Or.inr hQ
    · rw [List.concat_eq_append, ← List.cons_append, ← List.append_assoc] at heq
      obtain ⟨rfl, _⟩ := List.append_inj' heq rfl
      exact Or.inl ⟨pre, d, post, m, m', rfl, hm, hm', hQ⟩
  · rintro (⟨pre, d, post, m, m', rfl, hm, hm', hQ⟩ | hQ)
    · exact ⟨pre, d, post ++ [e], m, m', by simp, hm, hm', hQ⟩
    · exact ⟨es, e, [], s, s', rfl, h, he, hQ⟩

/-! ## What a run passes through -/

theorem mem_states_iff {s t : σ} {es : List ε} :
    t ∈ states step s es ↔ ∃ n, run step s (es.take n) = some t := by
  induction es generalizing s with
  | nil =>
    rw [states, List.mem_singleton]
    exact ⟨fun h => ⟨0, by rw [h]; rfl⟩, fun ⟨n, h⟩ => by simpa [eq_comm] using h⟩
  | cons e es ih =>
    rw [states, List.mem_cons]
    constructor
    · rintro (rfl | h)
      · exact ⟨0, rfl⟩
      · cases hs : step s e with
        | none => rw [hs] at h; cases h
        | some s' =>
          rw [hs] at h
          obtain ⟨n, hn⟩ := ih.1 h
          exact ⟨n + 1, run_cons_eq_some.2 ⟨s', hs, hn⟩⟩
    · rintro ⟨_ | n, h⟩
      · cases h; exact Or.inl rfl
      · obtain ⟨s', hs', hn⟩ := run_cons_eq_some.1 h
        rw [hs']
        exact Or.inr (ih.2 ⟨n, hn⟩)

/-- The steps of a run in two parts. -/
theorem steps_append {s m : σ} {es : List ε} (fs : List ε) (h : run step s es = some m) :
    steps step s (es ++ fs) = steps step s es ++ steps step m fs := by
  induction es generalizing s with
  | nil =>
    cases h
    rfl
  | cons e es ih =>
    obtain ⟨s', hs', h⟩ := run_cons_eq_some.1 h
    rw [List.cons_append, steps, steps, hs']
    exact congrArg _ (ih h)

theorem steps_snoc {s t m : σ} {es : List ε} {e : ε} (h : run step s es = some m)
    (hstep : step m e = some t) : steps step s (es ++ [e]) = steps step s es ++ [(m, e)] := by
  rw [steps_append [e] h]
  simp only [steps, hstep, Option.elim_some]

/-- A step of a run happens after the events before it. -/
theorem exists_of_mem_steps {s : σ} {es : List ε} {p : σ × ε} (h : p ∈ steps step s es) :
    ∃ pre post t, es = pre ++ p.2 :: post ∧ run step s pre = some p.1 ∧ step p.1 p.2 = some t := by
  induction es generalizing s with
  | nil => cases h
  | cons e es ih =>
    rw [steps] at h
    cases hs : step s e with
    | none => rw [hs] at h; cases h
    | some s' =>
      rw [hs] at h
      rcases List.mem_cons.1 h with rfl | h
      · exact ⟨[], es, s', rfl, rfl, hs⟩
      · obtain ⟨pre, post, t, rfl, hpre, ht⟩ := ih h
        exact ⟨e :: pre, post, t, rfl, run_cons_eq_some.2 ⟨s', hs, hpre⟩, ht⟩

/-- **The conditional invariant rule.**  A property kept by every step that meets `C` holds in
every state of a run all of whose steps meet `C`. -/
theorem states_of_steps {P : σ → Prop} {C : σ → ε → Prop}
    (hstep : ∀ (s : σ) (e : ε) (s' : σ), P s → C s e → step s e = some s' → P s')
    {s : σ} (h0 : P s) {es : List ε} (hC : ∀ p ∈ steps step s es, C p.1 p.2) :
    ∀ t ∈ states step s es, P t := by
  induction es generalizing s with
  | nil => intro t ht; rw [states, List.mem_singleton] at ht; rwa [ht]
  | cons e es ih =>
    intro t ht
    rw [states, List.mem_cons] at ht
    rcases ht with rfl | ht
    · exact h0
    · cases hs : step s e with
      | none => rw [hs] at ht; cases ht
      | some s' =>
        rw [steps, hs] at hC
        rw [hs] at ht
        have h1 : P s' := hstep s e s' h0 (hC (s, e) (List.mem_cons_self ..)) hs
        exact ih h1 (fun p hp => hC p (List.mem_cons_of_mem _ hp)) t ht

/-- A run with a step that does not meet `C` has a first one: every step before it meets `C`. -/
theorem exists_first_bad {C : σ → ε → Prop} {s : σ} {es : List ε}
    (h : ¬ ∀ p ∈ steps step s es, C p.1 p.2) :
    ∃ pre e post m t, es = pre ++ e :: post ∧ run step s pre = some m ∧ step m e = some t ∧
      ¬ C m e ∧ ∀ p ∈ steps step s pre, C p.1 p.2 := by
  induction es generalizing s with
  | nil => exact absurd (fun p hp => by cases hp) h
  | cons e es ih =>
    cases hs : step s e with
    | none =>
      refine absurd (fun p hp => ?_) h
      rw [steps, hs] at hp
      cases hp
    | some s' =>
      rw [steps, hs] at h
      by_cases he : C s e
      · have h' : ¬ ∀ p ∈ steps step s' es, C p.1 p.2 := by
          refine fun hall => h fun p hp => ?_
          rcases List.mem_cons.1 hp with rfl | hp
          · exact he
          · exact hall p hp
        obtain ⟨pre, d, post, m, t, rfl, hm, ht, hd, hpre⟩ := ih h'
        refine ⟨e :: pre, d, post, m, t, rfl, run_cons_eq_some.2 ⟨s', hs, hm⟩, ht, hd, ?_⟩
        intro p hp
        rw [steps, hs] at hp
        rcases List.mem_cons.1 hp with rfl | hp
        · exact he
        · exact hpre p hp
      · exact ⟨[], e, es, s, s', rfl, rfl, hs, he, fun p hp => by cases hp⟩

/-- The end of a run, and the end of every beginning of it, is one of its states. -/
theorem mem_states_of_run {s t : σ} {es : List ε} (fs : List ε) (h : run step s es = some t) :
    t ∈ states step s (es ++ fs) :=
  mem_states_iff.2 ⟨es.length, by rw [List.take_left']; exacts [h, rfl]⟩

end Transition
