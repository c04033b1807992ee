import Mathlib.Data.List.Basic
import Mathlib.Data.List.Induction
import Mathlib.Data.List.Count

/-!
# The life of a group of jobs

A group of jobs is submitted, each job is given to a worker, run and finished; when all of them are
finished, a final function is called with their results, if there is one, and at the end the group
is deleted.  `Life` is where a group stands, and `Step` says which event may happen then.

A history is a list of events, and `Accepts` says that it is the history of one group from its
beginning.  What one would like to know about a group are facts about its history alone: nothing
happens twice, everything happens in its place, and in the right order.  They all follow from
`Reflects`, which says that the stage of each job can be read off the history.

Workers, results and places are arbitrary types.  A `Rules` says which workers are allowed in a
place, and in which places the final function is called without a worker.
-/

set_option autoImplicit false

namespace ForkJoin

/-- The places where the jobs have to run, and the final function if there is one. -/
structure Spec (π : Type*) where
  jobs : List π
  final : Option π

/-- The place of a job by its number, and of the final function. -/
def Spec.place {π : Type*} (spec : Spec π) : Option ℕ → Option π
  | some i => spec.jobs[i]?
  | none => spec.final

structure Rules (ω π : Type*) where
  allows : π → ω → Prop
  /-- The final function is called on the spot. -/
  direct : π → Prop

inductive Stage (ω ρ : Type*) where
  | waiting
  | given (w : ω)
  | done (w : ω) (r : ρ)
  | finished (r : ρ)

inductive Final (ω : Type*) where
  | waiting
  | given (w : ω)
  | called (w : ω)
  | returned (w : Option ω)

structure Life (ω ρ π : Type*) where
  spec : Spec π
  jobs : List (Stage ω ρ)
  final : Final ω
  deleted : Bool

inductive Event (ω ρ π : Type*) where
  | submit (spec : Spec π)
  | give (i : ℕ) (w : ω)
  | run (i : ℕ) (r : ρ)
  | finish (i : ℕ)
  | giveFinal (w : ω)
  /-- The final function is called with these results, by a worker or on the spot. -/
  | call (w : Option ω) (results : List ρ)
  | finishFinal
  | delete

variable {ω ρ π : Type*}

namespace Stage

def result : Stage ω ρ → Option ρ
  | waiting | given _ => none
  | done _ r | finished r => some r

def isFinished : Stage ω ρ → Bool
  | finished _ => true
  | _ => false

/-- How far a job has come. -/
def level : Stage ω ρ → ℕ
  | waiting => 0
  | given _ => 1
  | done _ _ => 2
  | finished _ => 3

end Stage

/-- Has the final function returned? -/
def Final.isReturned : Final ω → Bool
  | returned _ => true
  | _ => false

namespace Life

def fresh (spec : Spec π) : Life ω ρ π := ⟨spec, spec.jobs.map fun _ => .waiting, .waiting, false⟩

/-- The results so far. -/
def results (life : Life ω ρ π) : List (Option ρ) := life.jobs.map Stage.result

def allFinished (life : Life ω ρ π) : Prop := ∀ j ∈ life.jobs, j.isFinished = true

/-- Has everything been done? -/
def IsOver (life : Life ω ρ π) : Prop :=
  match life.spec.final with
  | none => life.allFinished
  | some _ => life.final.isReturned = true

/-- How far the job with this number has come. -/
def level (life : Life ω ρ π) (i : ℕ) : ℕ := (life.jobs[i]?.map Stage.level).getD 0

end Life

/-- What may happen to a group, and what becomes of it. -/
inductive Step (R : Rules ω π) : Option (Life ω ρ π) → Event ω ρ π → Life ω ρ π → Prop where
  | submit (spec : Spec π) : Step R none (.submit spec) (.fresh spec)
  | give {life : Life ω ρ π} {i : ℕ} {w : ω} {p : π} (hi : life.jobs[i]? = some .waiting)
      (hp : life.spec.jobs[i]? = some p) (hw : R.allows p w) :
      Step R (some life) (.give i w) { life with jobs := life.jobs.set i (.given w) }
  | run {life : Life ω ρ π} {i : ℕ} {w : ω} (r : ρ) (hi : life.jobs[i]? = some (.given w)) :
      Step R (some life) (.run i r) { life with jobs := life.jobs.set i (.done w r) }
  | finish {life : Life ω ρ π} {i : ℕ} {w : ω} {r : ρ} (hi : life.jobs[i]? = some (.done w r)) :
      Step R (some life) (.finish i) { life with jobs := life.jobs.set i (.finished r) }
  | giveFinal {life : Life ω ρ π} {w : ω} {p : π} (hall : life.allFinished)
      (hf : life.final = .waiting) (hp : life.spec.final = some p) (hw : R.allows p w) :
      Step R (some life) (.giveFinal w) { life with final := .given w }
  | call {life : Life ω ρ π} {w : ω} {results : List ρ} (hf : life.final = .given w)
      (hr : life.results = results.map some) :
      Step R (some life) (.call (some w) results) { life with final := .called w }
  | callDirect {life : Life ω ρ π} {p : π} {results : List ρ} (hall : life.allFinished)
      (hf : life.final = .waiting) (hp : life.spec.final = some p) (hd : R.direct p)
      (hr : life.results = results.map some) :
      Step R (some life) (.call none results) { life with final := .returned none }
  | finishFinal {life : Life ω ρ π} {w : ω} (hf : life.final = .called w) :
      Step R (some life) .finishFinal { life with final := .returned (some w) }
  | delete {life : Life ω ρ π} (hover : life.IsOver) (hd : life.deleted = false) :
      Step R (some life) .delete { life with deleted := true }

/-- The history of a group, and where the group stands after it; `none` if it is yet to come. -/
inductive Accepts (R : Rules ω π) : List (Event ω ρ π) → Option (Life ω ρ π) → Prop where
  | nil : Accepts R [] none
  | snoc {evs : List (Event ω ρ π)} {st : Option (Life ω ρ π)} {e : Event ω ρ π}
      {life : Life ω ρ π} (h : Accepts R evs st) (hstep : Step R st e life) :
      Accepts R (evs ++ [e]) (some life)

/-! ## Nothing happens twice -/

/-- What can happen once.  A job is given, run and finished, in this order. -/
inductive Key where
  | job (i : ℕ) (n : ℕ)
  | giveFinal
  | call
  | finishFinal
  | delete
  deriving DecidableEq

def Event.key : Event ω ρ π → Option Key
  | submit _ => none
  | give i _ => some (.job i 0)
  | run i _ => some (.job i 1)
  | finish i => some (.job i 2)
  | giveFinal _ => some .giveFinal
  | call _ _ => some .call
  | finishFinal => some .finishFinal
  | delete => some .delete

/-- Has this happened? -/
def Life.past (life : Life ω ρ π) : Key → Bool
  | .job i n => n < life.level i
  | .giveFinal => match life.final with
    | .given _ | .called _ | .returned (some _) => true
    | _ => false
  | .call => match life.final with
    | .called _ | .returned _ => true
    | _ => false
  | .finishFinal => match life.final with
    | .returned (some _) => true
    | _ => false
  | .delete => life.deleted

namespace Life

variable {life : Life ω ρ π}

theorem level_eq {i : ℕ} {j : Stage ω ρ} (h : life.jobs[i]? = some j) : life.level i = j.level := by
  rw [level, h]
  rfl

theorem level_set {i : ℕ} {j : Stage ω ρ} (h : life.jobs[i]? = some j) (j' : Stage ω ρ) (k : ℕ) :
    { life with jobs := life.jobs.set i j' }.level k =
    if k = i then j'.level else life.level k := by
  have hi : i < life.jobs.length := (List.getElem?_eq_some_iff.1 h).1
  rcases eq_or_ne k i with rfl | hne
  · simp [level, hi]
  · simp [level, hne, List.getElem?_set_ne hne.symm]

theorem level_of_allFinished (h : life.allFinished) {i : ℕ} (hi : i < life.jobs.length) :
    life.level i = 3 := by
  have hj := h _ (List.getElem_mem hi)
  rw [level_eq (List.getElem?_eq_getElem hi)]
  revert hj
  cases life.jobs[i] <;> simp [Stage.isFinished, Stage.level]

end Life

/-- An event happens for the first time, and nothing else happens. -/
theorem Step.past {R : Rules ω π} {life life' : Life ω ρ π} {e : Event ω ρ π}
    (h : Step R (some life) e life') (k : Key) :
    (e.key = some k → life.past k = false) ∧
    life'.past k = (life.past k || decide (e.key = some k)) := by
  have hset : ∀ {i n : ℕ} {j j' : Stage ω ρ}, life.jobs[i]? = some j → j.level = n →
      j'.level = n + 1 → (some (Key.job i n) = some k → life.past k = false) ∧
      { life with jobs := life.jobs.set i j' }.past k =
        (life.past k || decide (some (Key.job i n) = some k)) := by
    intro i n j j' hi hj hj'
    have hlevel := (Life.level_eq hi).trans hj
    cases k with
    | job i' n' =>
      simp only [Life.past, Life.level_set hi, Option.some.injEq, Key.job.injEq]
      rcases eq_or_ne i' i with rfl | hne
      · simp only [if_true, hj', hlevel]
        constructor
        · rintro ⟨_, rfl⟩
          simp
        · by_cases hn : n' < n
          · simp [hn, Nat.lt_succ_of_lt hn]
          · have hlast : n' < n + 1 ↔ n = n' := by omega
            simp [hn, hlast]
      · simp [hne, hne.symm]
    | _ => exact ⟨nofun, (Bool.or_false _).symm⟩
  cases h with
  | give hi hp hw => exact hset hi rfl rfl
  | run r hi => exact hset hi rfl rfl
  | finish hi => exact hset hi rfl rfl
  | giveFinal hall hf hp hw =>
    cases k with
    | job i n => exact ⟨nofun, (Bool.or_false _).symm⟩
    | _ => simp [Event.key, Life.past, hf]
  | call hf hr =>
    cases k with
    | job i n => exact ⟨nofun, (Bool.or_false _).symm⟩
    | _ => simp [Event.key, Life.past, hf]
  | callDirect hall hf hp hd hr =>
    cases k with
    | job i n => exact ⟨nofun, (Bool.or_false _).symm⟩
    | _ => simp [Event.key, Life.past, hf]
  | finishFinal hf =>
    cases k with
    | job i n => exact ⟨nofun, (Bool.or_false _).symm⟩
    | _ => simp [Event.key, Life.past, hf]
  | delete hover hd =>
    cases k with
    | job i n => exact ⟨nofun, (Bool.or_false _).symm⟩
    | _ => simp [Event.key, Life.past, hd]

/-- The stage of every job can be read off the history. -/
structure Reflects (evs : List (Event ω ρ π)) (life : Life ω ρ π) : Prop where
  submitted : .submit life.spec ∈ evs
  spec : ∀ spec, .submit spec ∈ evs → spec = life.spec
  length : life.jobs.length = life.spec.jobs.length
  count : ∀ k, evs.countP (fun e => decide (e.key = some k)) = if life.past k then 1 else 0
  result : ∀ i r, life.jobs[i]?.bind Stage.result = some r → .run i r ∈ evs
  allFinished : life.final ≠ .waiting → life.allFinished
  given : ∀ w, life.final = .given w → .giveFinal w ∈ evs
  direct : ∀ results, .call none results ∈ evs → life.final = .returned none
  returned : life.final.isReturned = true → .finishFinal ∈ evs ∨ ∃ results, .call none results ∈ evs

namespace Reflects

variable {R : Rules ω π} {evs : List (Event ω ρ π)} {life life' : Life ω ρ π} {e : Event ω ρ π}

theorem fresh (spec : Spec π) : Reflects [.submit spec] (.fresh spec : Life ω ρ π) := by
  have hjobs : ∀ i : ℕ, ∀ j, (Life.fresh spec : Life ω ρ π).jobs[i]? = some j → j = .waiting := by
    intro i j hj
    obtain ⟨_, _, rfl⟩ := List.mem_map.1 (List.mem_of_getElem? hj)
    rfl
  refine ⟨List.mem_singleton_self _, ?_, List.length_map _, fun k => ?_, fun i r hr => ?_,
    fun hne => absurd rfl hne, nofun, fun results hmem => ?_, nofun⟩
  · intro spec' h
    exact Event.submit.inj (List.mem_singleton.1 h)
  · cases k with
    | job i n =>
      have hlevel : (Life.fresh spec : Life ω ρ π).level i = 0 := by
        rw [Life.level]
        rcases hj : (Life.fresh spec : Life ω ρ π).jobs[i]? with _ | j
        · rfl
        · rw [hjobs i j hj]
          rfl
      simp [Event.key, Life.past, hlevel]
    | _ => rfl
  · obtain ⟨j, hj, hr'⟩ := Option.bind_eq_some_iff.1 hr
    rw [hjobs i j hj] at hr'
    cases hr'
  · cases List.mem_singleton.1 hmem

/-- A job that has a new result has just been run. -/
theorem result_step (h : Reflects evs life) (hstep : Step R (some life) e life') (i : ℕ) (r : ρ)
    (hr : life'.jobs[i]?.bind Stage.result = some r) : .run i r ∈ evs ++ [e] := by
  have hset : ∀ {i' : ℕ} {j j' : Stage ω ρ}, life.jobs[i']? = some j →
      (life.jobs.set i' j')[i]?.bind Stage.result = some r →
      life.jobs[i]?.bind Stage.result = some r ∨ i = i' ∧ j'.result = some r := by
    intro i' j j' hj hr
    rcases eq_or_ne i i' with rfl | hne
    · rw [List.getElem?_set_self (List.getElem?_eq_some_iff.1 hj).1] at hr
      exact Or.inr ⟨rfl, hr⟩
    · rw [List.getElem?_set_ne hne.symm] at hr
      exact Or.inl hr
  cases hstep with
  | give hi hp hw =>
    rcases hset hi hr with hr' | ⟨_, hr'⟩
    · exact List.mem_append_left _ (h.result i r hr')
    · cases hr'
  | run r' hi =>
    rcases hset hi hr with hr' | ⟨rfl, hr'⟩
    · exact List.mem_append_left _ (h.result i r hr')
    · cases hr'
      exact List.mem_append_right _ List.mem_cons_self
  | finish hi =>
    rcases hset hi hr with hr' | ⟨rfl, hr'⟩
    · exact List.mem_append_left _ (h.result i r hr')
    · refine List.mem_append_left _ (h.result i r ?_)
      rw [hi]
      exact hr'
  | _ => exact List.mem_append_left _ (h.result i r hr)

/-- Where the final function stands can be read off the history as well. -/
theorem final_step (h : Reflects evs life) (hstep : Step R (some life) e life') :
    (life'.final ≠ .waiting → life'.allFinished) ∧
    (∀ w, life'.final = .given w → .giveFinal w ∈ evs ++ [e]) ∧
    (∀ results, .call none results ∈ evs ++ [e] → life'.final = .returned none) ∧
    (life'.final.isReturned = true →
      .finishFinal ∈ evs ++ [e] ∨ ∃ results, .call none results ∈ evs ++ [e]) := by
  have hdirect : (∀ results, e ≠ .call none results) → ∀ results,
      .call none results ∈ evs ++ [e] → life.final = .returned none := by
    intro hne results hmem
    rcases List.mem_append.1 hmem with hmem | hmem
    · exact h.direct results hmem
    · exact absurd (List.mem_singleton.1 hmem).symm (hne results)
  have hreturned : life.final.isReturned = true →
      .finishFinal ∈ evs ++ [e] ∨ ∃ results, .call none results ∈ evs ++ [e] := fun hret =>
    (h.returned hret).imp (List.mem_append_left _)
      fun ⟨results, hmem⟩ => ⟨results, List.mem_append_left _ hmem⟩
  -- As long as a job is not finished, nothing has happened to the final function.
  have hjob : ∀ {i : ℕ} {j}, life.jobs[i]? = some j → j.isFinished = false →
      life.final = .waiting := by
    intro i j hi hj
    by_contra hne
    have hfin := h.allFinished hne j (List.mem_of_getElem? hi)
    rw [hj] at hfin
    cases hfin
  have hwaiting : life.final = .waiting → ∀ w, life.final = .given w →
      .giveFinal w ∈ evs ++ [e] := by
    intro hf w hw
    rw [hf] at hw
    cases hw
  cases hstep with
  | give hi hp hw =>
    exact ⟨fun hne => absurd (hjob hi rfl) hne, hwaiting (hjob hi rfl), hdirect nofun, hreturned⟩
  | run r hi =>
    exact ⟨fun hne => absurd (hjob hi rfl) hne, hwaiting (hjob hi rfl), hdirect nofun, hreturned⟩
  | finish hi =>
    exact ⟨fun hne => absurd (hjob hi rfl) hne, hwaiting (hjob hi rfl), hdirect nofun, hreturned⟩
  | giveFinal hall hf hp hw =>
    refine ⟨fun _ => hall, fun w' hw' => ?_, fun results hmem => ?_, nofun⟩
    · cases hw'
      exact List.mem_append_right _ List.mem_cons_self
    · have hret := hdirect nofun results hmem
      rw [hf] at hret
      cases hret
  | call hf hr =>
    refine ⟨fun _ => h.allFinished (by rw [hf]; nofun), nofun, fun results hmem => ?_, nofun⟩
    have hret := hdirect nofun results hmem
    rw [hf] at hret
    cases hret
  | callDirect hall hf hp hd hr =>
    exact ⟨fun _ => hall, nofun, fun _ _ => rfl,
      fun _ => Or.inr ⟨_, List.mem_append_right _ List.mem_cons_self⟩⟩
  | finishFinal hf =>
    refine ⟨fun _ => h.allFinished (by rw [hf]; nofun), nofun, fun results hmem => ?_,
      fun _ => Or.inl (List.mem_append_right _ List.mem_cons_self)⟩
    have hret := hdirect nofun results hmem
    rw [hf] at hret
    cases hret
  | delete hover hd =>
    exact ⟨h.allFinished, fun w hw => List.mem_append_left _ (h.given w hw), hdirect nofun,
      hreturned⟩

theorem step (h : Reflects evs life) (hstep : Step R (some life) e life') :
    Reflects (evs ++ [e]) life' := by
  have hspec : life'.spec = life.spec := by cases hstep <;> rfl
  have hlength : life'.jobs.length = life.jobs.length := by
    cases hstep <;> first | rfl | exact List.length_set ..
  obtain ⟨hall, hgiven, hdirect, hreturned⟩ := h.final_step hstep
  refine ⟨?_, fun spec hmem => ?_, ?_, fun k => ?_, h.result_step hstep, hall, hgiven, hdirect,
    hreturned⟩
  · rw [hspec]
    exact List.mem_append_left _ h.submitted
  · rw [hspec]
    rcases List.mem_append.1 hmem with hmem | hmem
    · exact h.spec spec hmem
    · rw [← List.mem_singleton.1 hmem] at hstep
      cases hstep
  · rw [hspec, hlength, h.length]
  · obtain ⟨hfirst, hpast⟩ := hstep.past k
    rw [List.countP_append, h.count k, hpast, List.countP_singleton]
    by_cases hk : e.key = some k
    · simp [hk, hfirst hk]
    · simp [hk]

theorem of_accepts (h : Accepts R evs (some life)) : Reflects evs life := by
  generalize hst : some life = st at h
  induction h generalizing life with
  | nil => cases hst
  | @snoc evs st e life' hevs hstep ih =>
    obtain rfl := Option.some.inj hst
    cases st with
    | none =>
      cases hevs
      cases hstep
      exact fresh _
    | some life₀ => exact (ih rfl).step hstep

end Reflects

/-! ## Where a job is -/

/-- Where to look for a job or for the final function: it waits in its place, a worker has it and
may have run it already, or nobody has it, before or after. -/
inductive Spot (ω π : Type*) where
  | waiting (p : π)
  | held (w : ω) (late : Bool)
  | gone
  deriving DecidableEq

def Stage.spot (p : π) : Stage ω ρ → Spot ω π
  | waiting => .waiting p
  | given w => .held w false
  | done w _ => .held w true
  | finished _ => .gone

/-- A job is given away, or the final function. -/
def Event.giveTo (w : ω) : Option ℕ → Event ω ρ π
  | some i => .give i w
  | none => .giveFinal w

/-- The worker that has a job, and whether it has run it or not. -/
def Stage.holder : Stage ω ρ → Option ω
  | given w | done w _ => some w
  | _ => none

def Final.holder : Final ω → Option ω
  | given w | called w => some w
  | _ => none

namespace Life

/-- The worker that has a job, by its number, or the final function. -/
def holder (life : Life ω ρ π) : Option ℕ → Option ω
  | some i => life.jobs[i]?.bind Stage.holder
  | none => life.final.holder

instance (life : Life ω ρ π) : Decidable life.allFinished :=
  inferInstanceAs (Decidable (∀ j ∈ life.jobs, j.isFinished = true))

/-- The number of jobs that are not finished. -/
def unfinished (life : Life ω ρ π) : ℕ := life.jobs.countP fun j => !j.isFinished

theorem unfinished_eq_zero_iff {life : Life ω ρ π} : life.unfinished = 0 ↔ life.allFinished := by
  simp [unfinished, allFinished, List.countP_eq_zero]

variable (R : Rules ω π) [DecidablePred R.direct]

/-- Where a job is, by its number, and where the final function is. -/
def spot (life : Life ω ρ π) : Option ℕ → Spot ω π
  | some i =>
    match life.jobs[i]?, life.spec.jobs[i]? with
    | some j, some p => j.spot p
    | _, _ => .gone
  | none =>
    match life.spec.final, life.final with
    | some p, .waiting => if life.allFinished ∧ ¬ R.direct p then .waiting p else .gone
    | some _, .given w => .held w false
    | some _, .called w => .held w true
    | _, _ => .gone

variable {R} {life : Life ω ρ π} {i : ℕ} {p : π} {w : ω} {late : Bool}

theorem spot_some (hj : life.spot R (some i) ≠ .gone) :
    ∃ j p, life.jobs[i]? = some j ∧ life.spec.jobs[i]? = some p ∧
      life.spot R (some i) = j.spot p := by
  rcases hjob : life.jobs[i]? with _ | j
  · exact absurd (by simp only [spot, hjob]) hj
  rcases hplace : life.spec.jobs[i]? with _ | p
  · exact absurd (by simp only [spot, hjob, hplace]) hj
  exact ⟨j, p, rfl, rfl, by simp only [spot, hjob, hplace]⟩

theorem eq_of_spot_some_waiting (h : life.spot R (some i) = .waiting p) :
    life.jobs[i]? = some .waiting ∧ life.spec.jobs[i]? = some p := by
  have hne : life.spot R (some i) ≠ .gone := by rw [h]; nofun
  obtain ⟨j, q, hj, hq, heq⟩ := spot_some hne
  rw [h] at heq
  cases j <;> cases heq
  exact ⟨hj, hq⟩

theorem eq_of_spot_some_held (h : life.spot R (some i) = .held w late) :
    ∃ j p, life.jobs[i]? = some j ∧ life.spec.jobs[i]? = some p ∧
      (if late then ∃ r, j = .done w r else j = .given w) := by
  have hne : life.spot R (some i) ≠ .gone := by rw [h]; nofun
  obtain ⟨j, q, hj, hq, heq⟩ := spot_some hne
  refine ⟨j, q, hj, hq, ?_⟩
  rw [h] at heq
  cases j <;> cases heq
  · rfl
  · exact ⟨_, rfl⟩

theorem eq_of_spot_none_waiting (h : life.spot R none = .waiting p) :
    life.allFinished ∧ life.final = .waiting ∧ life.spec.final = some p ∧ ¬ R.direct p := by
  unfold spot at h
  rcases hp : life.spec.final with _ | q <;> rcases hf : life.final with _ | _ | _ | _ <;>
    simp only [hp, hf, reduceCtorEq] at h
  split at h
  · rename_i hall
    cases h
    exact ⟨hall.1, rfl, rfl, hall.2⟩
  · cases h

theorem eq_of_spot_none_held (h : life.spot R none = .held w late) :
    life.final = (if late then .called w else .given w) ∧ life.spec.final.isSome := by
  unfold spot at h
  rcases hp : life.spec.final with _ | q <;> rcases hf : life.final with _ | _ | _ | _ <;>
    simp only [hp, hf, reduceCtorEq] at h
  · split at h <;> cases h
  · cases h
    exact ⟨rfl, rfl⟩
  · cases h
    exact ⟨rfl, rfl⟩

/-- What waits, waits in its place. -/
theorem place_of_spot_waiting {q : Option ℕ} (h : life.spot R q = .waiting p) :
    life.spec.place q = some p := by
  cases q with
  | some i => exact (eq_of_spot_some_waiting h).2
  | none => exact (eq_of_spot_none_waiting h).2.2.1

theorem holder_of_spot {q : Option ℕ} (h : life.spot R q = .held w late) :
    life.holder q = some w := by
  cases q with
  | some i =>
    obtain ⟨j, _, hj, _, hlate⟩ := eq_of_spot_some_held h
    rw [holder, hj]
    cases late with
    | false =>
      obtain rfl : j = .given w := hlate
      rfl
    | true =>
      obtain ⟨r, rfl⟩ : ∃ r, j = .done w r := hlate
      rfl
  | none =>
    rw [holder, (eq_of_spot_none_held h).1]
    cases late <;> rfl

/-- As long as somebody has a job or the final function, the group is not done. -/
theorem not_over_of_spot {evs : List (Event ω ρ π)} (hevs : Reflects evs life) {q : Option ℕ}
    (h : life.spot R q ≠ .gone) : ¬ life.IsOver := by
  intro hover
  have hall : life.allFinished := by
    unfold IsOver at hover
    split at hover
    · exact hover
    · refine hevs.allFinished fun hf => ?_
      rw [hf] at hover
      cases hover
  cases q with
  | some i =>
    obtain ⟨j, p, hj, _, heq⟩ := spot_some h
    have hfin := hall j (List.mem_of_getElem? hj)
    rw [heq] at h
    cases j <;> cases hfin
    exact h rfl
  | none =>
    unfold IsOver at hover
    unfold spot at h
    rcases hp : life.spec.final with _ | p
    · simp [hp] at h
    · rw [hp] at hover
      rcases hf : life.final with _ | _ | _ | _ <;> rw [hf] at hover <;> try cases hover
      simp [hp, hf] at h

/-- As long as the group is not done, somebody has a job or the final function, or it waits for
somebody; unless the final function is to be called on the spot. -/
theorem exists_spot_of_not_over (hlength : life.jobs.length = life.spec.jobs.length)
    (hdirect : life.allFinished → life.final = .waiting → ∀ p, life.spec.final = some p →
      ¬ R.direct p) (h : ¬ life.IsOver) : ∃ q, life.spot R q ≠ .gone := by
  by_cases hall : life.allFinished
  · unfold IsOver at h
    rcases hp : life.spec.final with _ | p <;> rw [hp] at h
    · exact absurd hall h
    · refine ⟨none, ?_⟩
      unfold spot
      rw [hp]
      rcases hf : life.final with _ | w | w | w
      · simp [hall, hdirect hall hf p hp]
      · simp
      · simp
      · rw [hf] at h
        exact absurd rfl h
  · obtain ⟨j, hj, hfin⟩ : ∃ j ∈ life.jobs, j.isFinished = false := by
      simpa [allFinished] using hall
    obtain ⟨i, hi, rfl⟩ := List.mem_iff_getElem.1 hj
    have hi' : i < life.spec.jobs.length := hlength ▸ hi
    have hspot : life.spot R (some i) = life.jobs[i].spot life.spec.jobs[i] := by
      simp only [spot, List.getElem?_eq_getElem hi, List.getElem?_eq_getElem hi']
    refine ⟨some i, ?_⟩
    rw [hspot]
    revert hfin
    cases life.jobs[i] <;> simp [Stage.spot, Stage.isFinished]

/-- Where the final function is when all jobs are finished, and before. -/
theorem spot_none_of_waiting (hf : life.final = .waiting) :
    life.spot R none = if life.allFinished then
      (match life.spec.final with
      | some p => if R.direct p then .gone else .waiting p
      | none => .gone) else .gone := by
  unfold spot
  rw [hf]
  rcases life.spec.final with _ | p
  · simp
  · by_cases hall : life.allFinished <;> by_cases hd : R.direct p <;> simp [hall, hd]

theorem spot_set_some {j : Stage ω ρ} (hj : life.jobs[i]? = some j)
    (hp : life.spec.jobs[i]? = some p) (j' : Stage ω ρ) (k : ℕ) :
    { life with jobs := life.jobs.set i j' }.spot R (some k) =
      Function.update (life.spot R) (some i) (j'.spot p) (some k) := by
  rcases eq_or_ne k i with rfl | hne
  · rw [Function.update_self]
    simp only [spot, List.getElem?_set_self (List.getElem?_eq_some_iff.1 hj).1, hp]
  · rw [Function.update_of_ne (by simpa using hne)]
    simp only [spot, List.getElem?_set_ne hne.symm]

theorem not_allFinished_of_getElem? {j : Stage ω ρ} (hj : life.jobs[i]? = some j)
    (hfin : j.isFinished = false) : ¬ life.allFinished := by
  intro hall
  have hj' := hall j (List.mem_of_getElem? hj)
  rw [hfin] at hj'
  cases hj'

/-- A job that moves without being finished moves alone. -/
theorem spot_set {evs : List (Event ω ρ π)} (hevs : Reflects evs life) {j : Stage ω ρ}
    (hj : life.jobs[i]? = some j) (hp : life.spec.jobs[i]? = some p) {j' : Stage ω ρ}
    (hfin : j.isFinished = false) (hfin' : j'.isFinished = false) :
    { life with jobs := life.jobs.set i j' }.spot R =
      Function.update (life.spot R) (some i) (j'.spot p) := by
  funext q
  cases q with
  | some k => exact spot_set_some hj hp j' k
  | none =>
    have hall := not_allFinished_of_getElem? hj hfin
    have hf : life.final = .waiting := by
      by_contra hne
      exact hall (hevs.allFinished hne)
    have hall' : ¬ { life with jobs := life.jobs.set i j' }.allFinished :=
      not_allFinished_of_getElem? (i := i)
        (List.getElem?_set_self (List.getElem?_eq_some_iff.1 hj).1) hfin'
    have hspot' := spot_none_of_waiting (R := R)
      (show { life with jobs := life.jobs.set i j' }.final = .waiting from hf)
    rw [Function.update_of_ne (Option.some_ne_none i).symm, spot_none_of_waiting hf, if_neg hall,
      hspot', if_neg hall']

end Life

/-! ### The moves, in terms of where things are -/

namespace Step

variable {R : Rules ω π} {life life' : Life ω ρ π} {e : Event ω ρ π}

theorem spec_eq (h : Step R (some life) e life') : life'.spec = life.spec := by
  cases h <;> rfl

theorem deleted_eq (h : Step R (some life) e life') (hne : e ≠ .delete) :
    life'.deleted = life.deleted := by
  cases h <;> first | rfl | exact absurd rfl hne

theorem map_set {α : Type*} {l : List (Stage ω ρ)} {i : ℕ} {j j' : Stage ω ρ}
    (g : Stage ω ρ → α) (hj : l[i]? = some j) (hg : g j' = g j) : (l.set i j').map g = l.map g := by
  rw [List.map_set, hg]
  refine List.ext_getElem? fun k => ?_
  rcases eq_or_ne i k with rfl | hne
  · rw [List.getElem?_set_self (by simpa using (List.getElem?_eq_some_iff.1 hj).1),
      List.getElem?_map, hj]
    rfl
  · rw [List.getElem?_set_ne hne]

/-- Only running a job yields a result. -/
theorem results_eq (h : Step R (some life) e life') (hne : ∀ i r, e ≠ .run i r) :
    life'.results = life.results := by
  cases h with
  | give hi hp hw => exact map_set _ hi rfl
  | run r hi => exact absurd rfl (hne _ r)
  | finish hi => exact map_set _ hi rfl
  | _ => rfl

theorem results_run {i : ℕ} {r : ρ} (h : Step R (some life) (.run i r) life') :
    i < life.results.length ∧ life'.results = life.results.set i (some r) := by
  cases h with
  | run r hi =>
    exact ⟨by simpa [Life.results] using (List.getElem?_eq_some_iff.1 hi).1, List.map_set ..⟩

theorem unfinished_eq (h : Step R (some life) e life') (hne : ∀ i, e ≠ .finish i) :
    life'.unfinished = life.unfinished := by
  have hset : ∀ {i : ℕ} {j j' : Stage ω ρ}, life.jobs[i]? = some j →
      j'.isFinished = j.isFinished →
      (life.jobs.set i j').countP (fun j => !j.isFinished) =
        life.jobs.countP fun j => !j.isFinished := by
    intro i j j' hj hfin
    have hmap := map_set (fun j : Stage ω ρ => !j.isFinished) hj (congrArg not hfin)
    have hcount := congrArg (List.countP id) hmap
    rwa [List.countP_map, List.countP_map] at hcount
  cases h with
  | give hi hp hw => exact hset hi rfl
  | run r hi => exact hset hi rfl
  | finish hi => exact absurd rfl (hne _)
  | _ => rfl

theorem unfinished_finish {i : ℕ} (h : Step R (some life) (.finish i) life') :
    life.unfinished = life'.unfinished + 1 := by
  cases h with
  | @finish _ _ w r hi =>
    obtain ⟨hlt, hget⟩ := List.getElem?_eq_some_iff.1 hi
    have hpos : 0 < life.jobs.countP fun j => !j.isFinished :=
      List.countP_pos_iff.2 ⟨_, List.getElem_mem hlt, by rw [hget]; rfl⟩
    rw [Life.unfinished, Life.unfinished, List.countP_set hlt, hget]
    show _ = _ - 1 + 0 + 1
    omega

end Step

namespace Life

variable {R : Rules ω π} [DecidablePred R.direct] {evs : List (Event ω ρ π)} {life : Life ω ρ π}
  {i : ℕ} {p : π} {w : ω}

theorem unfinished_fresh (spec : Spec π) :
    (fresh spec : Life ω ρ π).unfinished = spec.jobs.length := by
  rw [unfinished, fresh, List.countP_map]
  exact List.countP_eq_length.2 fun _ _ => rfl

/-- In the beginning every job waits in its place. -/
theorem spot_fresh {spec : Spec π} (hne : spec.jobs ≠ []) (q : Option ℕ) :
    (fresh spec : Life ω ρ π).spot R q =
      match q.bind fun i => spec.jobs[i]? with
      | some p => .waiting p
      | none => .gone := by
  cases q with
  | some i =>
    simp only [spot, fresh, List.getElem?_map, Option.bind_some]
    cases spec.jobs[i]? <;> rfl
  | none =>
    have hall : ¬ (fresh spec : Life ω ρ π).allFinished := by
      rw [← unfinished_eq_zero_iff, unfinished_fresh]
      exact fun hzero => hne (List.length_eq_zero_iff.1 hzero)
    exact (spot_none_of_waiting rfl).trans (if_neg hall)

/-- What waits can be given to a worker that is allowed in the place. -/
theorem exists_give (hevs : Reflects evs life) {q : Option ℕ} (hspot : life.spot R q = .waiting p)
    (hw : R.allows p w) :
    ∃ life', Step R (some life) (.giveTo w q) life' ∧
      life'.spot R = Function.update (life.spot R) q (.held w false) := by
  cases q with
  | some i =>
    obtain ⟨hi, hp⟩ := eq_of_spot_some_waiting hspot
    exact ⟨_, .give hi hp hw, spot_set hevs hi hp rfl rfl⟩
  | none =>
    obtain ⟨hall, hf, hp, _⟩ := eq_of_spot_none_waiting hspot
    refine ⟨_, .giveFinal hall hf hp hw, funext fun q => ?_⟩
    cases q with
    | some k => rfl
    | none => simp [spot, hp]

/-- The worker that has a job can run it. -/
theorem exists_run (hevs : Reflects evs life) (hspot : life.spot R (some i) = .held w false)
    (r : ρ) :
    ∃ life', Step R (some life) (.run i r) life' ∧
      life'.spot R = Function.update (life.spot R) (some i) (.held w true) := by
  obtain ⟨j, p, hi, hp, rfl⟩ := eq_of_spot_some_held hspot
  exact ⟨_, .run r hi, spot_set hevs hi hp rfl rfl⟩

/-- The worker that has the final function can call it with the results. -/
theorem exists_call (hspot : life.spot R none = .held w false) {results : List ρ}
    (hr : life.results = results.map some) :
    ∃ life', Step R (some life) (.call (some w) results) life' ∧
      life'.spot R = Function.update (life.spot R) none (.held w true) := by
  obtain ⟨hf, hp⟩ := eq_of_spot_none_held hspot
  obtain ⟨p, hp⟩ := Option.isSome_iff_exists.1 hp
  refine ⟨_, .call hf hr, funext fun q => ?_⟩
  cases q with
  | some k => rfl
  | none => simp [spot, hp]

/-- A job that has been run can be finished.  After the last one it is the turn of the final
function. -/
theorem exists_finish (hevs : Reflects evs life) (hspot : life.spot R (some i) = .held w true) :
    ∃ life', Step R (some life) (.finish i) life' ∧ life'.final = .waiting ∧
      life'.spot R = Function.update (Function.update (life.spot R) (some i) .gone) none
        (life'.spot R none) := by
  obtain ⟨j, p, hi, hp, r, rfl⟩ := eq_of_spot_some_held hspot
  have hf : life.final = .waiting := by
    by_contra hne
    exact not_allFinished_of_getElem? hi rfl (hevs.allFinished hne)
  refine ⟨_, .finish hi, hf, funext fun q => ?_⟩
  cases q with
  | some k =>
    rw [Function.update_of_ne (Option.some_ne_none k)]
    exact spot_set_some hi hp (.finished r) k
  | none => rw [Function.update_self]

/-- The final function can return. -/
theorem exists_finishFinal (hspot : life.spot R none = .held w true) :
    ∃ life', Step R (some life) .finishFinal life' ∧ life'.IsOver ∧
      life'.spot R = Function.update (life.spot R) none .gone := by
  obtain ⟨hf, hp⟩ := eq_of_spot_none_held hspot
  obtain ⟨p, hp⟩ := Option.isSome_iff_exists.1 hp
  refine ⟨_, .finishFinal hf, ?_, funext fun q => ?_⟩
  · simp [IsOver, hp, Final.isReturned]
  · cases q with
    | some k => rfl
    | none => simp [spot, hp]

/-- When all jobs are finished, every job has a result. -/
theorem results_of_allFinished (h : life.allFinished) (d : ρ) :
    life.results = (life.results.map fun r => r.getD d).map some := by
  rw [List.map_map]
  refine (List.map_id _).symm.trans (List.map_congr_left fun r hr => ?_)
  obtain ⟨j, hj, rfl⟩ := List.mem_map.1 hr
  have hfin := h j hj
  cases j <;> cases hfin
  rfl

end Life

/-- Whoever has something has had it before, or has just been given it. -/
theorem Step.holder {R : Rules ω π} {st : Option (Life ω ρ π)} {life' : Life ω ρ π}
    {e : Event ω ρ π} {w : ω} {q : Option ℕ} (h : Step R st e life')
    (hq : life'.holder q = some w) :
    (∃ life, st = some life ∧ life.holder q = some w) ∨ e = .giveTo w q := by
  have hset : ∀ {life : Life ω ρ π} {i : ℕ} {j j' : Stage ω ρ}, life.jobs[i]? = some j →
      { life with jobs := life.jobs.set i j' }.holder q = some w →
      life.holder q = some w ∨ q = some i ∧ j'.holder = some w := by
    intro life i j j' hj hq
    cases q with
    | none => exact Or.inl hq
    | some k =>
      rcases eq_or_ne k i with rfl | hne
      · have hlt : k < life.jobs.length := (List.getElem?_eq_some_iff.1 hj).1
        rw [Life.holder, List.getElem?_set_self hlt] at hq
        exact Or.inr ⟨rfl, hq⟩
      · rw [Life.holder, List.getElem?_set_ne hne.symm] at hq
        exact Or.inl hq
  have hfinal : ∀ {life : Life ω ρ π} {f : Final ω},
      { life with final := f }.holder q = some w →
      life.holder q = some w ∨ q = none ∧ f.holder = some w := by
    intro life f hq
    cases q with
    | none => exact Or.inr ⟨rfl, hq⟩
    | some k => exact Or.inl hq
  cases h with
  | submit spec =>
    cases q with
    | none => cases hq
    | some i =>
      obtain ⟨j, hj, hw⟩ := Option.bind_eq_some_iff.1 hq
      obtain ⟨_, _, rfl⟩ := List.mem_map.1 (List.mem_of_getElem? hj)
      cases hw
  | give hi hp hw =>
    rcases hset hi hq with hq' | ⟨rfl, hw'⟩
    · exact Or.inl ⟨_, rfl, hq'⟩
    · cases hw'
      exact Or.inr rfl
  | run r hi =>
    rcases hset hi hq with hq' | ⟨rfl, hw'⟩
    · exact Or.inl ⟨_, rfl, hq'⟩
    · cases hw'
      refine Or.inl ⟨_, rfl, ?_⟩
      rw [Life.holder, hi]
      rfl
  | finish hi =>
    rcases hset hi hq with hq' | ⟨_, hw'⟩
    · exact Or.inl ⟨_, rfl, hq'⟩
    · cases hw'
  | giveFinal hall hf hp hw =>
    rcases hfinal hq with hq' | ⟨rfl, hw'⟩
    · exact Or.inl ⟨_, rfl, hq'⟩
    · cases hw'
      exact Or.inr rfl
  | call hf hr =>
    rcases hfinal hq with hq' | ⟨rfl, hw'⟩
    · exact Or.inl ⟨_, rfl, hq'⟩
    · cases hw'
      refine Or.inl ⟨_, rfl, ?_⟩
      rw [Life.holder, hf]
      rfl
  | callDirect hall hf hp hd hr =>
    rcases hfinal hq with hq' | ⟨_, hw'⟩
    · exact Or.inl ⟨_, rfl, hq'⟩
    · cases hw'
  | finishFinal hf =>
    rcases hfinal hq with hq' | ⟨_, hw'⟩
    · exact Or.inl ⟨_, rfl, hq'⟩
    · cases hw'
  | delete hover hd =>
    refine Or.inl ⟨_, rfl, ?_⟩
    cases q <;> exact hq

/-! ## What a history tells -/

/-- The history says that everything has been done. -/
def OverIn (spec : Spec π) (evs : List (Event ω ρ π)) : Prop :=
  match spec.final with
  | none => ∀ i < spec.jobs.length, .finish i ∈ evs
  | some _ => .finishFinal ∈ evs ∨ ∃ results, .call none results ∈ evs

namespace Accepts

variable {R : Rules ω π} {evs pre post : List (Event ω ρ π)} {life : Life ω ρ π}
  {st : Option (Life ω ρ π)} {e : Event ω ρ π} {i : ℕ} {w : ω}

/-- Each event of a history was a step from where the history before it had led. -/
theorem split (h : Accepts R (pre ++ e :: post) st) :
    ∃ st₁ life₂, Accepts R pre st₁ ∧ Step R st₁ e life₂ := by
  induction post using List.reverseRecOn generalizing st with
  | nil =>
    generalize hevs : pre ++ [e] = evs at h
    cases h with
    | nil => simp at hevs
    | snoc h hstep =>
      obtain ⟨rfl, heq⟩ := List.append_inj' hevs rfl
      cases heq
      exact ⟨_, _, h, hstep⟩
  | append_singleton post d ih =>
    generalize hevs : pre ++ e :: (post ++ [d]) = evs at h
    cases h with
    | nil => simp at hevs
    | snoc h hstep =>
      rw [← List.cons_append, ← List.append_assoc] at hevs
      obtain ⟨rfl, _⟩ := List.append_inj' hevs rfl
      exact ih h

theorem eq_nil (h : Accepts R evs none) : evs = [] := by
  cases h
  rfl

/-- **Nothing happens twice.** -/
theorem countP_le_one (h : Accepts R evs st) (k : Key) :
    evs.countP (fun e => decide (e.key = some k)) ≤ 1 := by
  cases st with
  | none =>
    rw [h.eq_nil]
    exact Nat.zero_le 1
  | some life =>
    rw [(Reflects.of_accepts h).count k]
    split
    · exact Nat.le_refl 1
    · exact Nat.zero_le 1

/-- The group is the same from the beginning to the end of its history. -/
theorem spec_eq (h : Accepts R (pre ++ post) (some life)) {life₁ : Life ω ρ π}
    (h₁ : Accepts R pre (some life₁)) : life₁.spec = life.spec :=
  (Reflects.of_accepts h).spec _ (List.mem_append_left _ (Reflects.of_accepts h₁).submitted)

theorem exists_of_past (h : Accepts R evs (some life)) {k : Key} (hk : life.past k = true) :
    ∃ e ∈ evs, e.key = some k := by
  have hcount := (Reflects.of_accepts h).count k
  rw [if_pos hk] at hcount
  have hpos : 0 < evs.countP fun e => decide (e.key = some k) := by omega
  obtain ⟨e, he, hkey⟩ := List.countP_pos_iff.1 hpos
  exact ⟨e, he, of_decide_eq_true hkey⟩

theorem past_of_mem (h : Accepts R evs (some life)) {k : Key} (he : e ∈ evs)
    (hk : e.key = some k) : life.past k = true := by
  have hcount := (Reflects.of_accepts h).count k
  have hpos : 0 < evs.countP fun e => decide (e.key = some k) :=
    List.countP_pos_iff.2 ⟨e, he, decide_eq_true hk⟩
  by_contra hpast
  rw [if_neg hpast] at hcount
  omega

/-- When all jobs are finished, the history says so of each. -/
theorem finish_mem (h : Accepts R evs (some life)) (hall : life.allFinished) {i : ℕ}
    (hi : i < life.spec.jobs.length) : .finish i ∈ evs := by
  have hlevel := Life.level_of_allFinished hall ((Reflects.of_accepts h).length.symm ▸ hi)
  obtain ⟨e, he, hk⟩ := h.exists_of_past (k := .job i 2) (by simp [Life.past, hlevel])
  cases e <;> cases hk
  exact he

/-- A job is somewhere until the history says that it is finished. -/
theorem spot_gone_iff [DecidablePred R.direct] (h : Accepts R evs (some life))
    (hi : i < life.spec.jobs.length) : life.spot R (some i) = .gone ↔ .finish i ∈ evs := by
  have hlt : i < life.jobs.length := (Reflects.of_accepts h).length.symm ▸ hi
  have hj := List.getElem?_eq_getElem hlt
  have hspot : life.spot R (some i) = .gone ↔ life.past (.job i 2) = true := by
    rw [Life.past, Life.level_eq hj, Life.spot, hj, List.getElem?_eq_getElem hi]
    cases life.jobs[i] <;> simp [Stage.spot, Stage.level]
  rw [hspot]
  refine ⟨fun hpast => ?_, fun hmem => h.past_of_mem hmem rfl⟩
  obtain ⟨e, he, hk⟩ := h.exists_of_past hpast
  cases e <;> cases hk
  exact he

/-- **A job runs in its place.** -/
theorem place_of_give (h : Accepts R (pre ++ .give i w :: post) (some life)) :
    ∃ p, life.spec.jobs[i]? = some p ∧ R.allows p w := by
  obtain ⟨st₁, life₂, h₁, hstep⟩ := h.split
  cases hstep with
  | give hi hp hw => exact ⟨_, h.spec_eq h₁ ▸ hp, hw⟩

/-- **The final function is given away after all jobs are finished, and runs in its place.** -/
theorem of_giveFinal (h : Accepts R (pre ++ .giveFinal w :: post) (some life)) :
    (∀ i < life.spec.jobs.length, .finish i ∈ pre) ∧
    ∃ p, life.spec.final = some p ∧ R.allows p w := by
  obtain ⟨st₁, life₂, h₁, hstep⟩ := h.split
  cases hstep with
  | giveFinal hall hf hp hw =>
    have hspec := h.spec_eq h₁
    exact ⟨fun i hi => h₁.finish_mem hall (hspec ▸ hi), _, hspec ▸ hp, hw⟩

/-- What has been given to a worker is in its place there. -/
theorem place_of_giveTo (h : Accepts R evs (some life)) {q : Option ℕ}
    (hmem : .giveTo w q ∈ evs) : ∃ p, life.spec.place q = some p ∧ R.allows p w := by
  obtain ⟨pre, post, rfl⟩ := List.append_of_mem hmem
  cases q with
  | some i => exact h.place_of_give
  | none => exact h.of_giveFinal.2

/-- Who has something has been given it. -/
theorem giveTo_mem (h : Accepts R evs (some life)) {q : Option ℕ} (hq : life.holder q = some w) :
    .giveTo w q ∈ evs := by
  generalize hst : some life = st at h
  induction h generalizing life with
  | nil => cases hst
  | @snoc evs st e life' h hstep ih =>
    cases hst
    rcases hstep.holder hq with ⟨life₀, rfl, hq₀⟩ | rfl
    · exact List.mem_append_left _ (ih hq₀ rfl)
    · exact List.mem_append_right _ List.mem_cons_self

/-- **The final function is called after all jobs are finished, with the result of each.** -/
theorem of_call {caller : Option ω} {results : List ρ}
    (h : Accepts R (pre ++ .call caller results :: post) (some life)) :
    (∀ i < life.spec.jobs.length, .finish i ∈ pre) ∧
    results.length = life.spec.jobs.length ∧
    (∀ i r, results[i]? = some r → .run i r ∈ pre) ∧
    (match caller with
    | some w => .giveFinal w ∈ pre
    | none => ∃ p, life.spec.final = some p ∧ R.direct p) := by
  obtain ⟨st₁, life₂, h₁, hstep⟩ := h.split
  have hresults : ∀ {life₁ : Life ω ρ π}, Accepts R pre (some life₁) → life₁.allFinished →
      life₁.results = results.map some →
      (∀ i < life.spec.jobs.length, .finish i ∈ pre) ∧
      results.length = life.spec.jobs.length ∧ ∀ i r, results[i]? = some r → .run i r ∈ pre := by
    intro life₁ h₁ hall hr
    have hspec := h.spec_eq h₁
    have href := Reflects.of_accepts h₁
    refine ⟨fun i hi => h₁.finish_mem hall (hspec ▸ hi), ?_, fun i r hir => href.result i r ?_⟩
    · have hlen := congrArg List.length hr
      rw [Life.results, List.length_map, List.length_map] at hlen
      rw [← hlen, href.length, hspec]
    · have hget := congrArg (fun l => l[i]?) hr
      simp only [Life.results, List.getElem?_map, hir, Option.map_some] at hget
      obtain ⟨j, hj, hjr⟩ := Option.map_eq_some_iff.1 hget
      rw [hj]
      exact hjr
  cases hstep with
  | call hf hr =>
    have href := Reflects.of_accepts h₁
    obtain ⟨hfinish, hlen, hrun⟩ := hresults h₁ (href.allFinished (by rw [hf]; nofun)) hr
    exact ⟨hfinish, hlen, hrun, href.given _ hf⟩
  | callDirect hall hf hp hd hr =>
    obtain ⟨hfinish, hlen, hrun⟩ := hresults h₁ hall hr
    exact ⟨hfinish, hlen, hrun, _, h.spec_eq h₁ ▸ hp, hd⟩

/-- Everything has been done when the history says so. -/
theorem over_iff (h : Accepts R evs (some life)) : life.IsOver ↔ OverIn life.spec evs := by
  have href := Reflects.of_accepts h
  unfold Life.IsOver OverIn
  rcases life.spec.final with _ | p
  · refine ⟨fun hall i hi => h.finish_mem hall hi, fun hmem j hj => ?_⟩
    obtain ⟨i, hi, rfl⟩ := List.getElem_of_mem hj
    have hpast := h.past_of_mem (k := .job i 2) (hmem i (href.length ▸ hi)) rfl
    have hlevel := Life.level_eq (List.getElem?_eq_getElem hi)
    simp only [Life.past, hlevel, decide_eq_true_eq] at hpast
    revert hpast
    cases life.jobs[i] <;> simp [Stage.level, Stage.isFinished]
  · refine ⟨href.returned, ?_⟩
    rintro (hmem | ⟨results, hmem⟩)
    · have hpast := h.past_of_mem (k := .finishFinal) hmem rfl
      rcases hf : life.final with _ | _ | _ | _ <;> simp only [Life.past, hf] at hpast
      · cases hpast
      · cases hpast
      · cases hpast
      · rfl
    · rw [href.direct results hmem]
      rfl

/-- When everything has been done, the final function has been called. -/
theorem exists_call (h : Accepts R evs (some life)) (hover : life.IsOver)
    (hfinal : life.spec.final.isSome = true) : ∃ caller results, .call caller results ∈ evs := by
  obtain ⟨p, hp⟩ := Option.isSome_iff_exists.1 hfinal
  have hreturned : life.final.isReturned = true := by
    rw [Life.IsOver, hp] at hover
    exact hover
  obtain ⟨e, he, hk⟩ := h.exists_of_past (k := .call) (by
    rcases hf : life.final with _ | _ | _ | _ <;> rw [hf] at hreturned <;> cases hreturned
    rw [Life.past, hf])
  cases e <;> cases hk
  exact ⟨_, _, he⟩

/-- **A group is deleted when everything has been done.** -/
theorem of_delete (h : Accepts R (pre ++ .delete :: post) (some life)) : OverIn life.spec pre := by
  obtain ⟨st₁, life₂, h₁, hstep⟩ := h.split
  cases hstep with
  | delete hover hd =>
    rw [← h.spec_eq h₁]
    exact h₁.over_iff.1 hover

theorem delete_mem_iff (h : Accepts R evs (some life)) : .delete ∈ evs ↔ life.deleted = true := by
  refine ⟨fun hmem => h.past_of_mem (k := .delete) hmem rfl, fun hdel => ?_⟩
  obtain ⟨e, he, hk⟩ := h.exists_of_past (k := .delete) hdel
  cases e <;> cases hk
  exact he

end Accepts

end ForkJoin
