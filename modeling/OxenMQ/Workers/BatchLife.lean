import OxenMQ.Lib.ForkJoin
import OxenMQ.Workers.Preservation

/-!
# The life of one batch

Seen from one batch, the system is a `ForkJoin` machine.  `BatchView` is all that the system has to
do with one batch: what has happened to it, which of its jobs are in which queue, which of them a
worker has, and the object on the heap.  `BatchView.Fits` says that this is the view of a batch
whose life stands at a certain point.

There is one lemma for each thing that can happen to a batch.  As with the conversation with one
worker, each of them changes the view in one definite way, and the life moves on with it.
-/

set_option autoImplicit false

namespace OxenMQ

open ForkJoin

/-- The places a batch asks for. -/
def BatchSpec.places (spec : BatchSpec) : ForkJoin.Spec ℤ where
  jobs := spec.jobs.map Prod.snd
  final := spec.complete.map Prod.snd

/-- A job runs in its tagged thread, or in any untagged one; `-1` is the proxy thread. -/
def placement : Rules Worker ℤ where
  allows p w := w.place = p
  direct p := p = -1

instance : DecidablePred placement.direct := fun p => inferInstanceAs (Decidable (p = -1))

/-! ## Job numbers -/

/-- The job that has this number; the negative one is the completion function. -/
def jobPart (n : ℤ) : Option ℕ := if n < 0 then none else some n.toNat

def jobNumber : Option ℕ → ℤ
  | none => -1
  | some i => i

theorem jobPart_jobNumber (q : Option ℕ) : jobPart (jobNumber q) = q := by
  cases q with
  | none => rfl
  | some i => rw [jobPart, jobNumber, if_neg (by omega), Int.toNat_natCast]

theorem jobNumber_jobPart {n : ℤ} (h : -1 ≤ n) : jobNumber (jobPart n) = n := by
  unfold jobPart
  split
  · rw [jobNumber]
    omega
  · rw [jobNumber]
    omega

theorem jobNumber_injective : Function.Injective jobNumber :=
  Function.LeftInverse.injective jobPart_jobNumber

theorem neg_one_le_jobNumber (q : Option ℕ) : -1 ≤ jobNumber q := by
  cases q with
  | none => exact le_refl _
  | some i => exact (by omega : (-1 : ℤ) ≤ (i : ℤ))

/-- Where things are, by the numbers of the jobs. -/
def spotAt (spot : Option ℕ → Spot Worker ℤ) (n : ℤ) : Spot Worker ℤ :=
  if n < -1 then .gone else spot (jobPart n)

@[simp] theorem spotAt_jobNumber (spot : Option ℕ → Spot Worker ℤ) (q : Option ℕ) :
    spotAt spot (jobNumber q) = spot q := by
  rw [spotAt, if_neg (by have := neg_one_le_jobNumber q; omega), jobPart_jobNumber]

theorem spotAt_update (spot : Option ℕ → Spot Worker ℤ) (q : Option ℕ) (x : Spot Worker ℤ) (n : ℤ) :
    spotAt (Function.update spot q x) n = if n = jobNumber q then x else spotAt spot n := by
  split
  · rename_i hn
    rw [hn, spotAt_jobNumber, Function.update_self]
  · rename_i hn
    unfold spotAt
    split
    · rfl
    · rename_i hle
      refine Function.update_of_ne (fun heq => hn ?_) ..
      rw [← heq, jobNumber_jobPart (by omega)]

/-- Where something is, it is by the number of a job or of the completion function. -/
theorem eq_jobNumber_of_spotAt {spot : Option ℕ → Spot Worker ℤ} {n : ℤ}
    (h : spotAt spot n ≠ .gone) : n = jobNumber (jobPart n) := by
  unfold spotAt at h
  split at h
  · exact absurd rfl h
  · rename_i hle
    exact (jobNumber_jobPart (by omega)).symm

/-! ## The view of a batch -/

/-- A job of a batch has returned, or its completion function. -/
def finishEvent : Option ℕ → Event Worker JobResult ℤ
  | some i => .finish i
  | none => .finishFinal

/-- All that matters about a batch to its life. -/
@[ext] structure BatchView where
  events : List (Event Worker JobResult ℤ)
  /-- How often the job with this number is in the queue of this thread. -/
  queued : ℤ → ℤ → ℕ
  /-- The job a worker has, and whether it is through with it; for the completion function,
  whether it has begun. -/
  held : Worker → Option (ℤ × Bool)
  allocated : Bool
  cell : Option Batch

namespace BatchView

/-- The object on the heap says how far the life of the batch has come. -/
structure Stored (life : Life Worker JobResult ℤ) (b : Batch) : Prop where
  complete : b.complete.isSome = life.spec.final.isSome
  thread : ∀ p, life.spec.final = some p → b.completeInThread = p
  job : b.isJob = true → life.spec.jobs.length = 1 ∧ life.spec.final = none
  outstanding : b.isJob = false → b.jobsOutstanding = life.unfinished
  results : b.isJob = false → life.past .call = false →
    b.results = life.results.map fun r => r.getD .unset

/-- Where things are in a life, or before it. -/
def spots : Option (Life Worker JobResult ℤ) → Option ℕ → Spot Worker ℤ
  | some life => life.spot placement
  | none => fun _ => .gone

/-- The view of a batch at a point of its life. -/
structure Fits (threads : ℕ) (v : BatchView) (o : Option (Life Worker JobResult ℤ)) : Prop where
  accepts : Accepts placement v.events o
  queued : ∀ thread n, v.queued thread n = if spotAt (spots o) n = .waiting thread then 1 else 0
  held : ∀ w n late, v.held w = some (n, late) ↔ spotAt (spots o) n = .held w late
  allocated : v.allocated = o.isSome
  /-- The completion function asks for one of the tagged threads, or for none of them. -/
  final : ∀ life, o = some life → ∀ p, life.spec.final = some p → -1 ≤ p ∧ p ≤ threads
  /-- A batch is deleted as soon as there is nothing more to do. -/
  isOver : ∀ life, o = some life → (life.IsOver ↔ life.deleted = true)
  stored : ∀ life, o = some life → life.deleted = false → ∃ b, v.cell = some b ∧ Stored life b

/-- What becomes of a batch when one of its jobs returns from a worker. -/
def returned (v : BatchView) (w : Worker) (n : ℤ) : BatchView :=
  let v := { v with
    events := v.events ++ [finishEvent (jobPart n)]
    held := Function.update v.held w none }
  if n = -1 then { v with events := v.events ++ [.delete], cell := none }
  else
    match v.cell with
    | none => v
    | some b =>
      let (b, state) := b.jobFinished
      match state with
      | .running => { v with cell := some b }
      | .done => { v with events := v.events ++ [.delete], cell := none }
      | .complete thread =>
        if thread = -1 then
          { v with events := v.events ++ [.call none b.results] ++ [.delete], cell := none }
        else
          { v with
            queued := fun t m => v.queued t m + if m = -1 ∧ t = thread then 1 else 0
            cell := some b }

section Moves

variable {threads : ℕ} {v : BatchView} {life life' : Life Worker JobResult ℤ}
  {o : Option (Life Worker JobResult ℤ)} {e : Event Worker JobResult ℤ} {w : Worker} {n : ℤ}
  {κ : Type}

/-- One job moves from one queue to another, out of the queues, or into them. -/
theorem queued_update {spot : Option ℕ → Spot Worker ℤ} {queued queued' : ℤ → ℤ → ℕ}
    (h : ∀ t n, queued t n = if spotAt spot n = .waiting t then 1 else 0) {q : Option ℕ}
    {x : Spot Worker ℤ} (hother : ∀ t n, n ≠ jobNumber q → queued' t n = queued t n)
    (hself : ∀ t, queued' t (jobNumber q) = if x = .waiting t then 1 else 0) (t n : ℤ) :
    queued' t n = if spotAt (Function.update spot q x) n = .waiting t then 1 else 0 := by
  rw [spotAt_update]
  rcases eq_or_ne n (jobNumber q) with rfl | hne
  · rw [if_pos rfl, hself]
  · rw [if_neg hne, hother t n hne, h]

/-- One worker gets a job or gives it back, or is through with it. -/
theorem held_update {spot : Option ℕ → Spot Worker ℤ} {held : Worker → Option (ℤ × Bool)}
    (h : ∀ w n late, held w = some (n, late) ↔ spotAt spot n = .held w late) {q : Option ℕ}
    {x : Spot Worker ℤ} {w : Worker} {a : Option (ℤ × Bool)}
    (hspot : ∀ u late, spot q = .held u late → u = w)
    (hold : ∀ n late, held w = some (n, late) → n = jobNumber q)
    (hnew : ∀ n late, a = some (n, late) → n = jobNumber q)
    (hx : ∀ u late, x = .held u late ↔ u = w ∧ a = some (jobNumber q, late)) (u : Worker) (n : ℤ)
    (late : Bool) :
    Function.update held w a u = some (n, late) ↔
      spotAt (Function.update spot q x) n = .held u late := by
  rw [spotAt_update]
  rcases eq_or_ne n (jobNumber q) with rfl | hn
  · rw [if_pos rfl, hx]
    rcases eq_or_ne u w with rfl | hu
    · rw [Function.update_self]
      exact (and_iff_right rfl).symm
    · rw [Function.update_of_ne hu, h, spotAt_jobNumber]
      exact iff_of_false (fun hs => hu (hspot u late hs)) fun hs => hu hs.1
  · rw [if_neg hn]
    rcases eq_or_ne u w with rfl | hu
    · rw [Function.update_self, ← h]
      exact iff_of_false (fun hs => hn (hnew n late hs)) fun hs => hn (hold n late hs)
    · rw [Function.update_of_ne hu, h]

namespace Stored

variable {b : Batch}

theorem step (h : Stored life b) (hstep : Step placement (some life) e life')
    (hrun : ∀ i r, e ≠ .run i r) (hfinish : ∀ i, e ≠ .finish i) : Stored life' b := by
  have hspec := hstep.spec_eq
  refine ⟨?_, ?_, ?_, fun hb => ?_, fun hb hcall => ?_⟩
  · rw [hspec]
    exact h.complete
  · rw [hspec]
    exact h.thread
  · rw [hspec]
    exact h.job
  · rw [hstep.unfinished_eq hfinish]
    exact h.outstanding hb
  · rw [(hstep.past .call).2, Bool.or_eq_false_iff] at hcall
    rw [hstep.results_eq hrun]
    exact h.results hb hcall.1

/-- A worker stores the result of a job. -/
theorem run {i : ℕ} {r : JobResult} (h : Stored life b)
    (hstep : Step placement (some life) (.run i r) life') : Stored life' (b.runJob i r) := by
  have hspec := hstep.spec_eq
  have hjob : (b.runJob i r).isJob = b.isJob := by
    unfold Batch.runJob
    split <;> rfl
  have hcomplete : (b.runJob i r).complete = b.complete ∧
      (b.runJob i r).completeInThread = b.completeInThread ∧
      (b.runJob i r).jobsOutstanding = b.jobsOutstanding := by
    unfold Batch.runJob
    split <;> exact ⟨rfl, rfl, rfl⟩
  refine ⟨?_, ?_, ?_, fun hb => ?_, fun hb hcall => ?_⟩
  · rw [hspec, hcomplete.1]
    exact h.complete
  · rw [hspec, hcomplete.2.1]
    exact h.thread
  · rw [hspec, hjob]
    exact h.job
  · rw [hjob] at hb
    rw [hstep.unfinished_eq nofun, hcomplete.2.2]
    exact h.outstanding hb
  · rw [hjob] at hb
    rw [(hstep.past .call).2, Bool.or_eq_false_iff] at hcall
    rw [hstep.results_run.2, List.map_set, ← h.results hb hcall.1, Batch.runJob,
      if_neg (by rw [hb]; nofun)]
    rfl

/-- The completion function gets the results, and they are gone from the batch. -/
theorem call {caller : Option Worker} {results : List JobResult} (h : Stored life b)
    (hstep : Step placement (some life) (.call caller results) life') :
    Stored life' { b with results := [] } := by
  have h' := h.step hstep nofun nofun
  refine ⟨h'.complete, h'.thread, h'.job, h'.outstanding, fun _ hcall => ?_⟩
  rw [(hstep.past .call).2, Bool.or_eq_false_iff] at hcall
  simp [Event.key] at hcall

/-- A job has returned. -/
theorem finish {i : ℕ} (h : Stored life b) (hjob : b.isJob = false)
    (hstep : Step placement (some life) (.finish i) life') :
    Stored life' { b with jobsOutstanding := b.jobsOutstanding - 1 } := by
  have hspec := hstep.spec_eq
  refine ⟨?_, ?_, ?_, fun _ => ?_, fun _ hcall => ?_⟩
  · rw [hspec]
    exact h.complete
  · rw [hspec]
    exact h.thread
  · rw [hspec]
    exact h.job
  · have hcount := hstep.unfinished_finish
    have hout := h.outstanding hjob
    show b.jobsOutstanding - 1 = _
    omega
  · rw [(hstep.past .call).2, Bool.or_eq_false_iff] at hcall
    rw [hstep.results_eq nofun]
    exact h.results hjob hcall.1

/-- What `job_finished` says: whether there is more to run, and if not, whether there is a
completion function. -/
theorem jobFinished_eq {i : ℕ} (h : Stored life b)
    (hlength : life.jobs.length = life.spec.jobs.length)
    (hstep : Step placement (some life) (.finish i) life') :
    ∃ b', b.jobFinished = (b', if life'.allFinished then
      (match life'.spec.final with
      | some p => .complete p
      | none => .done) else .running) ∧
      (¬ (life'.allFinished ∧ life'.spec.final = none) → b'.isJob = false ∧ Stored life' b') := by
  have hcount := hstep.unfinished_finish
  by_cases hjob : b.isJob = true
  · obtain ⟨hone, hnone⟩ := h.job hjob
    have hle : life.unfinished ≤ life.jobs.length := List.countP_le_length
    have hall : life'.allFinished := Life.unfinished_eq_zero_iff.1 (by omega)
    have hnone' : life'.spec.final = none := by rw [hstep.spec_eq, hnone]
    refine ⟨b, ?_, fun hne => absurd ⟨hall, hnone'⟩ hne⟩
    rw [Batch.jobFinished, if_pos hjob, if_pos hall, hnone']
  · rw [Bool.not_eq_true] at hjob
    have hb := h.finish hjob hstep
    refine ⟨{ b with jobsOutstanding := b.jobsOutstanding - 1 }, ?_, fun _ => ⟨hjob, hb⟩⟩
    rw [Batch.jobFinished, if_neg (by rw [hjob]; nofun)]
    have hout : b.jobsOutstanding - 1 = life'.unfinished := hb.outstanding hjob
    by_cases hall : life'.allFinished
    · have hzero : b.jobsOutstanding - 1 = 0 := by
        rw [hout, Life.unfinished_eq_zero_iff.2 hall]
        rfl
      have hcomplete : b.complete.isSome = life'.spec.final.isSome := hb.complete
      rcases hp : life'.spec.final with _ | p
      · rw [hp] at hcomplete
        simp [hzero, hall, hcomplete]
      · rw [hp] at hcomplete
        have hthread : b.completeInThread = p := hb.thread p hp
        simp [hzero, hall, hcomplete, hthread]
    · have hne : b.jobsOutstanding - 1 ≠ 0 := by
        rw [hout]
        exact_mod_cast fun hzero => hall (Life.unfinished_eq_zero_iff.1 hzero)
      simp [hne, hall]

end Stored

namespace Fits

/-- As long as a job is somewhere, the batch is on the heap. -/
theorem alive (h : Fits threads v (some life)) {q : Option ℕ}
    (hspot : life.spot placement q ≠ .gone) :
    life.deleted = false ∧ ∃ b, v.cell = some b ∧ Stored life b := by
  have hover := Life.not_over_of_spot (Reflects.of_accepts h.accepts) hspot
  have hdeleted : life.deleted = false := by
    rw [h.isOver life rfl] at hover
    exact Bool.eq_false_iff.2 hover
  exact ⟨hdeleted, h.stored life rfl hdeleted⟩

theorem exists_life (h : Fits threads v o) {x : Spot Worker ℤ} (hn : spotAt (spots o) n = x)
    (hx : x ≠ .gone) :
    ∃ life q, o = some life ∧ n = jobNumber q ∧ life.spot placement q = x := by
  have hnumber := eq_jobNumber_of_spotAt (hn.trans_ne hx)
  cases o with
  | none =>
    refine absurd (hn.symm.trans ?_) hx
    rw [hnumber, spotAt_jobNumber]
    rfl
  | some life =>
    refine ⟨life, jobPart n, rfl, hnumber, ?_⟩
    rwa [hnumber, spotAt_jobNumber] at hn

/-- Only jobs of the batch and its completion function are ever queued. -/
theorem neg_one_le_of_queued (h : Fits threads v o) {t : ℤ} (hn : v.queued t n ≠ 0) : -1 ≤ n := by
  have hwaits : spotAt (spots o) n = .waiting t := by
    by_contra hne
    rw [h.queued, if_neg hne] at hn
    exact hn rfl
  obtain ⟨_, q, _, rfl, _⟩ := h.exists_life hwaits nofun
  exact neg_one_le_jobNumber q

/-- A step after which there is still something to do. -/
theorem of_step (h : Fits threads v (some life)) (hstep : Step placement (some life) e life')
    (hdeleted : life'.deleted = false) (hover : ¬ life'.IsOver) {queued : ℤ → ℤ → ℕ}
    {held : Worker → Option (ℤ × Bool)} {b : Batch}
    (hqueued : ∀ t n, queued t n =
      if spotAt (life'.spot placement) n = .waiting t then 1 else 0)
    (hheld : ∀ w n late, held w = some (n, late) ↔
      spotAt (life'.spot placement) n = .held w late) (hb : Stored life' b) :
    Fits threads ⟨v.events ++ [e], queued, held, v.allocated, some b⟩ (some life') := by
  refine ⟨h.accepts.snoc hstep, hqueued, hheld, h.allocated, ?_, ?_, ?_⟩
  · rintro _ ⟨⟩
    rw [hstep.spec_eq]
    exact h.final life rfl
  · rintro _ ⟨⟩
    exact iff_of_false hover (by rw [hdeleted]; nofun)
  · rintro _ ⟨⟩ _
    exact ⟨b, rfl, hb⟩

/-- The same, when the job that moves is still somewhere. -/
theorem of_move (h : Fits threads v (some life)) (hstep : Step placement (some life) e life')
    (hne : e ≠ .delete) {q : Option ℕ} {x : Spot Worker ℤ} (hx : x ≠ .gone)
    (hlife : life.spot placement q ≠ .gone)
    (hspot : life'.spot placement = Function.update (life.spot placement) q x)
    {queued : ℤ → ℤ → ℕ} {held : Worker → Option (ℤ × Bool)} {b : Batch}
    (hqueued : ∀ t n, queued t n =
      if spotAt (Function.update (life.spot placement) q x) n = .waiting t then 1 else 0)
    (hheld : ∀ w n late, held w = some (n, late) ↔
      spotAt (Function.update (life.spot placement) q x) n = .held w late) (hb : Stored life' b) :
    Fits threads ⟨v.events ++ [e], queued, held, v.allocated, some b⟩ (some life') := by
  refine h.of_step hstep ((hstep.deleted_eq hne).trans (h.alive hlife).1) ?_ (hspot ▸ hqueued)
    (hspot ▸ hheld) hb
  refine Life.not_over_of_spot (R := placement) (q := q)
    ((Reflects.of_accepts h.accepts).step hstep) ?_
  rw [hspot, Function.update_self]
  exact hx

/-- **A job that waits for a worker is given to it.** -/
theorem give (h : Fits threads v o) (hw : v.held w = none) {queued : ℤ → ℤ → ℕ}
    (htakes : ∀ t m, v.queued t m = queued t m + if m = n ∧ t = w.place then 1 else 0) :
    ∃ o', Fits threads { v with
      events := v.events ++ [.giveTo w (jobPart n)]
      queued := queued
      held := Function.update v.held w (some (n, false)) } o' := by
  have hwaits : spotAt (spots o) n = .waiting w.place := by
    by_contra hne
    have htake := htakes w.place n
    rw [if_pos ⟨rfl, rfl⟩, h.queued, if_neg hne] at htake
    omega
  obtain ⟨life, q, rfl, rfl, hspot⟩ := h.exists_life hwaits nofun
  obtain ⟨life', hstep, hspot'⟩ :=
    Life.exists_give (Reflects.of_accepts h.accepts) hspot (w := w) rfl
  obtain ⟨_, b, hcell, hb⟩ := h.alive (hspot.trans_ne nofun)
  rw [jobPart_jobNumber, hcell]
  refine ⟨some life', h.of_move hstep (by cases q <;> nofun) (x := .held w false) nofun
    (hspot.trans_ne nofun) hspot' (queued_update h.queued (fun t m hm => ?_) fun t => ?_)
    (held_update h.held (fun u late hu => ?_) (fun m late hm => ?_) (fun m late hm => ?_)
      fun u late => ?_) (hb.step hstep (by cases q <;> nofun) (by cases q <;> nofun))⟩
  · have htake := htakes t m
    rw [if_neg fun hs => hm hs.1] at htake
    exact htake.symm
  · have htake := htakes t (jobNumber q)
    rw [h.queued, hwaits] at htake
    simp only [Spot.waiting.injEq, true_and, eq_comm] at htake
    rw [if_neg nofun]
    omega
  · rw [show spots (some life) q = _ from hspot] at hu
    cases hu
  · rw [hw] at hm
    cases hm
  · cases hm
    rfl
  · simp only [Spot.held.injEq, Option.some.injEq, Prod.mk.injEq, true_and]
    exact and_congr_left' eq_comm

/-- What a worker has is not in a queue, and does not get there when it moves on. -/
theorem queued_held {spot : Option ℕ → Spot Worker ℤ}
    (h : ∀ t n, v.queued t n = if spotAt spot n = .waiting t then 1 else 0) {q : Option ℕ}
    {late : Bool} (hq : spot q = .held w late) {x : Spot Worker ℤ} (hx : ∀ t, x ≠ .waiting t)
    (t n : ℤ) :
    v.queued t n = if spotAt (Function.update spot q x) n = .waiting t then 1 else 0 := by
  refine queued_update h (fun _ _ _ => rfl) (fun t => ?_) t n
  rw [h, spotAt_jobNumber, hq, if_neg nofun, if_neg (hx t)]

/-- A worker gets on with what it has. -/
theorem held_late {spot : Option ℕ → Spot Worker ℤ}
    (h : ∀ w n late, v.held w = some (n, late) ↔ spotAt spot n = .held w late) {q : Option ℕ}
    (hq : spot q = .held w false) (u : Worker) (n : ℤ) (late : Bool) :
    Function.update v.held w (some (jobNumber q, true)) u = some (n, late) ↔
      spotAt (Function.update spot q (.held w true)) n = .held u late := by
  have hw : v.held w = some (jobNumber q, false) := (h w _ _).2 ((spotAt_jobNumber ..).trans hq)
  refine held_update h (fun u late hu => ?_) (fun m late hm => ?_) (fun m late hm => ?_)
    (fun u late => ?_) u n late
  · rw [hq] at hu
    cases hu
    rfl
  · rw [hw] at hm
    cases hm
    rfl
  · cases hm
    rfl
  · simp only [Spot.held.injEq, Option.some.injEq, Prod.mk.injEq, true_and]
    exact and_congr_left' eq_comm

/-- **A worker has run its job, and stores the result.** -/
theorem run (h : Fits threads v o) (hw : v.held w = some (n, false)) (hn : 0 ≤ n)
    (r : JobResult) :
    ∃ o', Fits threads { v with
      events := v.events ++ [.run n.toNat r]
      held := Function.update v.held w (some (n, true))
      cell := v.cell.map fun b => b.runJob n.toNat r } o' := by
  obtain ⟨life, q, rfl, rfl, hspot⟩ := h.exists_life ((h.held w n false).1 hw) nofun
  obtain ⟨_, b, hcell, hb⟩ := h.alive (hspot.trans_ne nofun)
  cases q with
  | none => exact absurd hn (by decide)
  | some i =>
    obtain ⟨life', hstep, hspot'⟩ :=
      Life.exists_run (Reflects.of_accepts h.accepts) hspot r
    rw [hcell]
    exact ⟨some life', h.of_move hstep nofun (x := .held w true) nofun
      (hspot.trans_ne nofun) hspot' (queued_held (q := some i) h.queued hspot nofun)
      (held_late (q := some i) h.held hspot) (hb.run hstep)⟩

/-- **A worker calls the completion function.** -/
theorem call (h : Fits threads v o) (hw : v.held w = some (-1, false)) :
    ∃ o' b, v.cell = some b ∧ Fits threads { v with
      events := v.events ++ [.call (some w) b.results]
      held := Function.update v.held w (some (-1, true))
      cell := some { b with results := [] } } o' := by
  obtain ⟨life, q, rfl, hq, hspot⟩ := h.exists_life ((h.held w (-1) false).1 hw) (by simp)
  obtain rfl : q = none := jobNumber_injective hq.symm
  obtain ⟨_, b, hcell, hb⟩ := h.alive (hspot.trans_ne (by simp))
  obtain ⟨hfinal, hsome⟩ := Life.eq_of_spot_none_held hspot
  have hall : life.allFinished :=
    (Reflects.of_accepts h.accepts).allFinished (by rw [hfinal]; rintro ⟨⟩)
  have hjob : b.isJob = false := by
    rw [← Bool.not_eq_true]
    intro hj
    rw [(hb.job hj).2] at hsome
    cases hsome
  have hresults : life.results = b.results.map some := by
    rw [hb.results hjob (by simp [Life.past, hfinal])]
    exact Life.results_of_allFinished hall _
  obtain ⟨life', hstep, hspot'⟩ := Life.exists_call hspot hresults
  exact ⟨some life', b, hcell, h.of_move hstep (by simp) (x := .held w true) (by simp)
    (hspot.trans_ne (by simp)) hspot' (queued_held (q := none) h.queued hspot (by simp))
    (held_late (q := none) h.held hspot) (hb.call hstep)⟩

/-- Nothing more is to be done, and the batch is deleted. -/
theorem of_over (haccepts : Accepts placement v.events (some life)) (hover : life.IsOver)
    (hdeleted : life.deleted = false) (hallocated : v.allocated = true)
    (hfinal : ∀ p, life.spec.final = some p → -1 ≤ p ∧ p ≤ threads)
    (hqueued : ∀ t n, v.queued t n = if spotAt (life.spot placement) n = .waiting t then 1 else 0)
    (hheld : ∀ w n late, v.held w = some (n, late) ↔
      spotAt (life.spot placement) n = .held w late) :
    Fits threads { v with events := v.events ++ [.delete], cell := none }
      (some { life with deleted := true }) := by
  refine ⟨haccepts.snoc (.delete hover hdeleted), hqueued, hheld, hallocated, ?_, ?_, ?_⟩
  · rintro _ ⟨⟩
    exact hfinal
  · rintro _ ⟨⟩
    exact iff_of_true hover rfl
  · rintro _ ⟨⟩ hfalse
    cases hfalse

/-- A worker gives back what it has. -/
theorem held_gone {spot : Option ℕ → Spot Worker ℤ}
    (h : ∀ w n late, v.held w = some (n, late) ↔ spotAt spot n = .held w late) {q : Option ℕ}
    {late : Bool} (hq : spot q = .held w late) (u : Worker) (n : ℤ) (late' : Bool) :
    Function.update v.held w none u = some (n, late') ↔
      spotAt (Function.update spot q .gone) n = .held u late' := by
  have hw : v.held w = some (jobNumber q, late) := (h w _ _).2 ((spotAt_jobNumber ..).trans hq)
  refine held_update h (fun u late hu => ?_) (fun m late hm => ?_) (fun _ _ hm => by cases hm)
    (fun u late => ?_) u n late'
  · rw [hq] at hu
    cases hu
    rfl
  · rw [hw] at hm
    cases hm
    rfl
  · exact iff_of_false nofun fun hs => by cases hs.2

/-- The completion function has returned. -/
theorem returned_final (h : Fits threads v (some life))
    (hspot : life.spot placement none = .held w true) :
    ∃ o', Fits threads (v.returned w (-1)) o' := by
  obtain ⟨hdeleted, _⟩ := h.alive (hspot.trans_ne nofun)
  obtain ⟨life', hstep, hover, hspot'⟩ := Life.exists_finishFinal hspot
  have hqueued := queued_held (q := none) h.queued hspot (x := .gone) nofun
  have hheld := held_gone (q := none) h.held hspot
  have hdeleted' := (hstep.deleted_eq nofun).trans hdeleted
  have hfinal : ∀ p, life'.spec.final = some p → -1 ≤ p ∧ p ≤ threads := by
    rw [hstep.spec_eq]
    exact h.final life rfl
  rw [returned, if_pos rfl]
  exact ⟨_, of_over (v := ⟨_, v.queued, Function.update v.held w none, v.allocated, none⟩)
    (h.accepts.snoc hstep) hover hdeleted' h.allocated hfinal (hspot' ▸ hqueued)
    (hspot' ▸ hheld)⟩

/-- A job has returned.  If it was the last one, it is the turn of the completion function; if
there is none, or if the proxy has called it, the batch is deleted. -/
theorem returned_job (h : Fits threads v (some life)) {i : ℕ}
    (hspot : life.spot placement (some i) = .held w true) :
    ∃ o', Fits threads (v.returned w i) o' := by
  have hevs := Reflects.of_accepts h.accepts
  obtain ⟨hdeleted, b, hcell, hb⟩ := h.alive (hspot.trans_ne (by simp))
  obtain ⟨life', hstep, hwaiting, hspot'⟩ := Life.exists_finish hevs hspot
  obtain ⟨b', hfinished, hb'⟩ := hb.jobFinished_eq hevs.length hstep
  have hqueued := queued_held (q := some i) h.queued hspot (x := .gone) (by simp)
  have hheld := held_gone (q := some i) h.held hspot
  have hdeleted' := (hstep.deleted_eq (by simp)).trans hdeleted
  have hfinal : ∀ p, life'.spec.final = some p → -1 ≤ p ∧ p ≤ threads := by
    rw [hstep.spec_eq]
    exact h.final life rfl
  have hnone := Life.spot_none_of_waiting (R := placement) hwaiting
  -- Before the job returned, the completion function was not to be found anywhere.
  have hgone : Function.update (spots (some life)) (some i) .gone none = .gone := by
    obtain ⟨j, p, hj, _, r, rfl⟩ := Life.eq_of_spot_some_held hspot
    have hunfinished := Life.not_allFinished_of_getElem? hj rfl
    have hf : life.final = .waiting := by
      by_contra hne
      exact hunfinished (hevs.allFinished hne)
    rw [Function.update_of_ne (Option.some_ne_none i).symm]
    exact (Life.spot_none_of_waiting hf).trans (if_neg hunfinished)
  have hsame : life'.spot placement none = .gone →
      life'.spot placement = Function.update (spots (some life)) (some i) .gone := fun hx => by
    rw [hspot', hx]
    exact Function.update_eq_self_iff.2 hgone.symm
  have hevent : finishEvent (jobPart (i : ℤ)) = .finish i :=
    congrArg finishEvent (jobPart_jobNumber (some i))
  have hne : (i : ℤ) ≠ -1 := by omega
  simp only [returned, hevent, if_neg hne, hcell, hfinished]
  by_cases hall : life'.allFinished
  · rw [if_pos hall] at hnone
    rcases hp : life'.spec.final with _ | p
    · -- There is no completion function.
      rw [hp] at hnone
      have hover : life'.IsOver := by
        rw [Life.IsOver, hp]
        exact hall
      simp only [if_pos hall]
      exact ⟨_, of_over (v := ⟨_, v.queued, Function.update v.held w none, v.allocated, none⟩)
        (h.accepts.snoc hstep) hover hdeleted' h.allocated hfinal (hsame hnone ▸ hqueued)
        (hsame hnone ▸ hheld)⟩
    · obtain ⟨hjob, hstored⟩ := hb' fun hs => by rw [hp] at hs; cases hs.2
      rw [hp] at hnone
      simp only [if_pos hall]
      split
      · -- The proxy calls it.
        rename_i hdirect
        subst hdirect
        have hresults : life'.results = b'.results.map some := by
          rw [hstored.results hjob (by simp [Life.past, hwaiting])]
          exact Life.results_of_allFinished hall _
        have hcall := Step.callDirect hall hwaiting hp (R := placement) rfl hresults
        have hspot'' : { life' with final := .returned none }.spot placement =
            Function.update (spots (some life)) (some i) .gone := by
          rw [← hsame hnone]
          funext q
          cases q with
          | some k => rfl
          | none =>
            rw [show life'.spot placement none = .gone from hnone]
            simp only [Life.spot, hp]
        have hover : { life' with final := .returned none }.IsOver := by
          simp [Life.IsOver, hp, Final.isReturned]
        exact ⟨_, of_over (v := ⟨_, v.queued, Function.update v.held w none, v.allocated, none⟩)
          ((h.accepts.snoc hstep).snoc hcall) hover hdeleted' h.allocated hfinal
          (hspot'' ▸ hqueued) (hspot'' ▸ hheld)⟩
      · -- It goes into its queue.
        rename_i hdirect
        have hspot'' : life'.spot placement =
            Function.update (Function.update (spots (some life)) (some i) .gone) none
              (.waiting p) := by
          rw [hspot', hnone]
          simp only [show ¬ placement.direct p from hdirect, if_false]
          rfl
        have hover : ¬ life'.IsOver := by
          rw [Life.IsOver, hp, hwaiting]
          rintro ⟨⟩
        refine ⟨_, h.of_step hstep hdeleted' hover (hspot'' ▸ queued_update hqueued ?_ ?_)
          (hspot'' ▸ fun u n late => ?_) hstored⟩
        · intro t n hn
          rw [if_neg fun hs => hn hs.1, Nat.add_zero]
        · intro t
          rw [hqueued, spotAt_jobNumber, hgone, if_neg (by simp), Nat.zero_add]
          simp [jobNumber, eq_comm]
        · rw [hheld, spotAt_update _ none]
          split
          · rename_i hn
            rw [hn, spotAt_jobNumber, hgone]
            exact iff_of_false (by simp) (by simp)
          · rfl
  · -- There are more jobs.
    rw [if_neg hall] at hnone
    obtain ⟨_, hstored⟩ := hb' fun hs => hall hs.1
    simp only [if_neg hall]
    have hover : ¬ life'.IsOver := by
      rw [Life.IsOver]
      split
      · exact hall
      · rw [hwaiting]
        rintro ⟨⟩
    exact ⟨_, h.of_step hstep hdeleted' hover (hsame hnone ▸ hqueued) (hsame hnone ▸ hheld) hstored⟩

/-- **A job returns from a worker.** -/
theorem returned (h : Fits threads v o) (hw : v.held w = some (n, true)) :
    ∃ o', Fits threads (v.returned w n) o' := by
  obtain ⟨life, q, rfl, rfl, hspot⟩ := h.exists_life ((h.held w n true).1 hw) nofun
  cases q with
  | none => exact h.returned_final hspot
  | some i => exact h.returned_job hspot

/-- The completion function that is called next asks for the proxy thread, for any thread, or for
one of the tagged threads. -/
theorem thread_le (h : Fits threads v o) {late : Bool} (hw : v.held w = some (n, late))
    {b b' : Batch} (hcell : v.cell = some b) {p : ℤ} (hp : b.jobFinished = (b', .complete p)) :
    -1 ≤ p ∧ p ≤ threads := by
  obtain ⟨life, q, rfl, rfl, hspot⟩ := h.exists_life ((h.held w n late).1 hw) nofun
  obtain ⟨_, b₁, hcell₁, hb⟩ := h.alive (hspot.trans_ne nofun)
  rw [hcell] at hcell₁
  obtain rfl := Option.some.inj hcell₁
  have hthread : b.complete.isSome = true ∧ b.completeInThread = p := by
    rw [Batch.jobFinished] at hp
    split at hp
    · cases hp
    dsimp only at hp
    split at hp
    · cases hp
    split at hp
    · rename_i hsome
      cases hp
      exact ⟨hsome, rfl⟩
    · cases hp
  rw [hb.complete] at hthread
  obtain ⟨p', hp'⟩ := Option.isSome_iff_exists.1 hthread.1
  rw [← hthread.2, hb.thread p' hp']
  exact h.final life rfl p' hp'

theorem spotAt_fresh {spec : ForkJoin.Spec ℤ} (hne : spec.jobs ≠ []) (n : ℤ) :
    spotAt ((Life.fresh spec : Life Worker JobResult ℤ).spot placement) n =
      if 0 ≤ n then
        match spec.jobs[n.toNat]? with
        | some p => .waiting p
        | none => .gone
      else .gone := by
  have hspot := Life.spot_fresh (R := placement) (ω := Worker) (ρ := JobResult) hne
  by_cases hn : 0 ≤ n
  · have hpart : jobPart n = some n.toNat := if_neg (by omega)
    rw [if_pos hn, spotAt, if_neg (by omega), hspot, hpart, Option.bind_some]
    cases spec.jobs[n.toNat]? <;> rfl
  · have hpart : jobPart n = none := if_pos (by omega)
    rw [if_neg hn, spotAt, hspot, hpart]
    split <;> rfl

/-- **A batch is submitted**, and its jobs are queued. -/
theorem submit (h : Fits threads v none) {spec : BatchSpec} (hne : spec.jobs ≠ [])
    (hfinal : ∀ c, spec.complete = some c → -1 ≤ c.2 ∧ c.2 ≤ threads)
    (hjob : spec.isJob = true → spec.jobs.length = 1 ∧ spec.complete = none)
    {queued : ℤ → ℤ → ℕ} (hqueued : ∀ t n, queued t n =
      v.queued t n + if 0 ≤ n ∧ spec.places.jobs[n.toNat]? = some t then 1 else 0) :
    Fits threads ⟨v.events ++ [.submit spec.places], queued, v.held, true, some (.ofSpec spec)⟩
      (some (.fresh spec.places)) := by
  have hplaces : spec.places.jobs ≠ [] := by simpa [BatchSpec.places] using hne
  have hspot := spotAt_fresh hplaces
  have hover : ¬ (Life.fresh spec.places : Life Worker JobResult ℤ).IsOver := by
    rw [Life.IsOver]
    split
    · rw [← Life.unfinished_eq_zero_iff, Life.unfinished_fresh]
      exact fun hzero => hplaces (List.length_eq_zero_iff.1 hzero)
    · rintro ⟨⟩
  refine ⟨h.accepts.snoc (.submit _), fun t n => ?_, fun w n late => ?_, rfl, ?_, ?_, ?_⟩
  · have hzero : v.queued t n = 0 := by
      rw [h.queued, spots, spotAt]
      split <;> rfl
    refine (hqueued t n).trans ?_
    rw [hzero, Nat.zero_add, spots, hspot]
    by_cases hn : 0 ≤ n
    · rcases spec.places.jobs[n.toNat]? with _ | p
      · simp
      · simp [hn]
    · simp [hn]
  · refine (h.held w n late).trans ?_
    rw [spots, spots, hspot, spotAt]
    split <;> split <;> try split
    all_goals exact iff_of_false (by simp) (by simp)
  · rintro _ ⟨⟩ p hp
    obtain ⟨c, hc, rfl⟩ := Option.map_eq_some_iff.1 hp
    exact hfinal c hc
  · rintro _ ⟨⟩
    exact iff_of_false hover Bool.false_ne_true
  · rintro _ ⟨⟩ _
    refine ⟨_, rfl, ?_, ?_, ?_, ?_, ?_⟩
    · simp [Batch.ofSpec, Life.fresh, BatchSpec.places]
    · intro p hp
      obtain ⟨c, hc, rfl⟩ := Option.map_eq_some_iff.1 hp
      simp [Batch.ofSpec, hc]
    · intro hj
      obtain ⟨hone, hnone⟩ := hjob hj
      simp [Life.fresh, BatchSpec.places, hone, hnone]
    · intro _
      rw [Life.unfinished_fresh]
      simp [Batch.ofSpec, BatchSpec.places]
    · intro _ _
      simp [Batch.ofSpec, Life.fresh, BatchSpec.places, Life.results, Function.comp_def,
        Stage.result, List.map_const']

end Fits

end Moves

end BatchView

end OxenMQ
