import Mathlib.Algebra.BigOperators.Ring.Finset
import Mathlib.Data.Fintype.BigOperators
import Mathlib.Data.Fintype.Option
import OxenMQ.Lib.Reservation
import OxenMQ.Lib.Tally
import OxenMQ.Workers.Protocol

/-!
# The books of the proxy thread

`Sys.Inv` is the invariant of the worker pool.  It says, for an assignment `f` of a phase to every
worker, that the conversation with each worker is in its phase, and that the proxy's books agree
with the phases: the list of idle workers, the flags of the tagged ones, the counters of active
jobs and the counters of queued commands.  It holds before and after `QUIT` alike; what only holds
before is that the reservations are respected (`Open`).

The parts of the invariant are separate structures over just the data they are about, so that an
operation leaves alone what it does not touch.
-/

set_option autoImplicit false

namespace OxenMQ

variable {κ : Type}

/-! ## The kinds of jobs -/

namespace Kind

/-- There are two kinds besides the categories. -/
def equivOption : Option (Option κ) ≃ Kind κ where
  toFun
    | none => .batch
    | some none => .reply
    | some (some c) => .category c
  invFun
    | .batch => none
    | .reply => some none
    | .category c => some (some c)
  left_inv := by rintro (_ | _ | c) <;> rfl
  right_inv := by rintro (_ | _ | c) <;> rfl

instance [Fintype κ] : Fintype (Kind κ) := Fintype.ofEquiv _ equivOption

theorem sum_eq [Fintype κ] (g : Kind κ → ℤ) :
    ∑ k, g k = g .batch + g .reply + ∑ c, g (.category c) := by
  rw [← equivOption.sum_comp, Fintype.sum_option, Fintype.sum_option, add_assoc]
  rfl

end Kind

theorem PoolConfig.maxWorkers_eq [Fintype κ] (cfg : PoolConfig κ) :
    (cfg.maxWorkers : ℤ) = cfg.generalWorkers + ∑ k, (cfg.reserved k : ℤ) := by
  rw [Kind.sum_eq]
  unfold PoolConfig.maxWorkers PoolConfig.reserved
  push_cast
  omega

/-! ## The list of idle workers -/

/-- The list of idle workers has the untagged workers that are idle, each once. -/
structure IdleOk (size : ℕ) (idleWorkers : List ℕ) (count : ℕ) (f : Worker → Phase) : Prop where
  length : idleWorkers.length = size
  count_le : count ≤ size
  nodup : (idleWorkers.take count).Nodup
  mem_iff : ∀ i, i ∈ idleWorkers.take count ↔ f (.untagged i) = .idle

namespace IdleOk

variable {size n : ℕ} {l : List ℕ} {f f' : Worker → Phase}

theorem congr (h : IdleOk size l n f)
    (hf : ∀ i, f' (.untagged i) = .idle ↔ f (.untagged i) = .idle) : IdleOk size l n f' :=
  ⟨h.length, h.count_le, h.nodup, fun i => (h.mem_iff i).trans (hf i).symm⟩

/-- A worker changes its phase, but does not become idle or cease to be. -/
theorem update (h : IdleOk size l n f) {w : Worker} {p : Phase} (hp : p = .idle ↔ f w = .idle) :
    IdleOk size l n (Function.update f w p) := by
  refine h.congr fun i => ?_
  rcases eq_or_ne (.untagged i) w with rfl | hne
  · rw [Function.update_self]
    exact hp
  · rw [Function.update_of_ne hne]

/-- Tagged workers are never on the list. -/
theorem update_tagged (h : IdleOk size l n f) (t : ℕ) (p : Phase) :
    IdleOk size l n (Function.update f (.tagged t) p) :=
  h.congr fun i => by rw [Function.update_of_ne (by exact Worker.noConfusion)]

theorem take_succ (h : IdleOk size l (n + 1) f) :
    l.take (n + 1) = l.take n ++ [l.getD n 0] := by
  have hn : n < l.length := by
    have := h.count_le
    have := h.length
    omega
  rw [List.take_succ_eq_append_getElem hn, List.getD_eq_getElem?_getD,
    List.getElem?_eq_getElem hn, Option.getD_some]

theorem last_idle (h : IdleOk size l (n + 1) f) : f (.untagged (l.getD n 0)) = .idle := by
  refine (h.mem_iff _).1 ?_
  rw [h.take_succ]
  exact List.mem_append_right _ List.mem_cons_self

/-- The last worker is taken off the list. -/
theorem pop (h : IdleOk size l (n + 1) f) {p : Phase} (hp : p ≠ .idle) :
    IdleOk size l n (Function.update f (.untagged (l.getD n 0)) p) := by
  have hnodup := h.nodup
  rw [h.take_succ, List.nodup_append'] at hnodup
  refine ⟨h.length, Nat.le_of_succ_le h.count_le, hnodup.1, fun i => ?_⟩
  have hmem := h.mem_iff i
  rw [h.take_succ, List.mem_append, List.mem_singleton] at hmem
  rcases eq_or_ne i (l.getD n 0) with rfl | hne
  · rw [Function.update_self]
    exact iff_of_false (fun hi => hnodup.2.2 hi List.mem_cons_self) hp
  · rw [Function.update_of_ne (by simpa using hne), ← hmem]
    exact (or_iff_left hne).symm

/-- A worker is put on the list. -/
theorem push (h : IdleOk size l n f) (hn : n < size) {i : ℕ} (hi : f (.untagged i) ≠ .idle) :
    IdleOk size (l.set n i) (n + 1) (Function.update f (.untagged i) .idle) := by
  have hlt : n < l.length := by
    have := h.length
    omega
  have htake : (l.set n i).take (n + 1) = l.take n ++ [i] := by
    rw [List.take_succ_eq_append_getElem (by rwa [List.length_set]), List.getElem_set_self,
      List.take_set_of_le (Nat.le_refl n)]
  have hnew : i ∉ l.take n := fun hmem => hi ((h.mem_iff i).1 hmem)
  refine ⟨by rw [List.length_set, h.length], hn, ?_, fun j => ?_⟩
  · rw [htake]
    exact List.nodup_append'.2 ⟨h.nodup, List.nodup_singleton i, by simpa using hnew⟩
  · rw [htake, List.mem_append, List.mem_singleton, h.mem_iff j]
    rcases eq_or_ne j i with rfl | hne
    · simp
    · rw [Function.update_of_ne (by simpa using hne)]
      exact or_iff_left hne

/-- There are no more idle workers than entries. -/
theorem clear (h : IdleOk size l n f) (hf : ∀ i, f' (.untagged i) ≠ .idle) :
    IdleOk size l 0 f' :=
  ⟨h.length, Nat.zero_le _, List.nodup_nil, fun i => iff_of_false List.not_mem_nil (hf i)⟩

/-- The list is empty if no untagged worker is idle. -/
theorem count_eq_zero (h : IdleOk size l n f) (hf : ∀ i, f (.untagged i) ≠ .idle) : n = 0 := by
  cases n with
  | zero => rfl
  | succ n => exact absurd h.last_idle (hf _)

end IdleOk

/-! ## The flags of the tagged workers -/

/-- A tagged worker has its flag set while it has a job, and its jobs are jobs of batches. -/
structure TaggedOk (tagged : List (TaggedWorker κ)) (f : Worker → Phase) : Prop where
  busy : ∀ (t : ℕ) tw, tagged[t]? = some tw → tw.busy = (f (.tagged t)).busy
  batch : ∀ (t : ℕ) tw, tagged[t]? = some tw → tw.busy = true → tw.run.isBatchJob = true

namespace TaggedOk

variable {tagged tagged' : List (TaggedWorker κ)} {f : Worker → Phase}

theorem update (h : TaggedOk tagged f) {w : Worker} {p : Phase} (hp : p.busy = (f w).busy) :
    TaggedOk tagged (Function.update f w p) := by
  refine ⟨fun t tw ht => ?_, h.batch⟩
  rcases eq_or_ne (.tagged t) w with rfl | hne
  · rw [Function.update_self, hp]
    exact h.busy t tw ht
  · rw [Function.update_of_ne hne]
    exact h.busy t tw ht

theorem update_untagged (h : TaggedOk tagged f) (i : ℕ) (p : Phase) :
    TaggedOk tagged (Function.update f (.untagged i) p) := by
  refine ⟨fun t tw ht => ?_, h.batch⟩
  rw [Function.update_of_ne (by exact Worker.noConfusion)]
  exact h.busy t tw ht

/-- The flag of a tagged worker is set together with its phase. -/
theorem set (h : TaggedOk tagged f) {t : ℕ} {p : Phase}
    (hself : ∀ tw, tagged'[t]? = some tw →
      tw.busy = p.busy ∧ (p.busy = true → tw.run.isBatchJob = true))
    (hother : ∀ u : ℕ, u ≠ t → tagged'[u]? = tagged[u]?) :
    TaggedOk tagged' (Function.update f (.tagged t) p) := by
  refine ⟨fun u tw hu => ?_, fun u tw hu hbusy => ?_⟩
  · rcases eq_or_ne u t with rfl | hne
    · rw [Function.update_self]
      exact (hself tw hu).1
    · rw [Function.update_of_ne (by simpa using hne)]
      exact h.busy u tw (hother u hne ▸ hu)
  · rcases eq_or_ne u t with rfl | hne
    · exact (hself tw hu).2 ((hself tw hu).1 ▸ hbusy)
    · exact h.batch u tw (hother u hne ▸ hu) hbusy

theorem modify (h : TaggedOk tagged f) (t : ℕ) {g : TaggedWorker κ → TaggedWorker κ}
    (hbusy : ∀ tw, (g tw).busy = tw.busy)
    (hbatch : ∀ tw, (g tw).run.isBatchJob = tw.run.isBatchJob) :
    TaggedOk (tagged.modify t g) f := by
  have hget : ∀ (u : ℕ) tw, (tagged.modify t g)[u]? = some tw → ∃ tw', tagged[u]? = some tw' ∧
      tw'.busy = tw.busy ∧ tw'.run.isBatchJob = tw.run.isBatchJob := by
    intro u tw hu
    rw [List.getElem?_modify_ite] at hu
    split at hu
    · obtain ⟨tw', htw', rfl⟩ := Option.map_eq_some_iff.1 hu
      exact ⟨tw', htw', (hbusy tw').symm, (hbatch tw').symm⟩
    · exact ⟨tw, hu, rfl, rfl⟩
  refine ⟨fun u tw hu => ?_, fun u tw hu hb => ?_⟩
  · obtain ⟨tw', htw', hb', _⟩ := hget u tw hu
    exact hb' ▸ h.busy u tw' htw'
  · obtain ⟨tw', htw', hb', hrun⟩ := hget u tw hu
    exact hrun ▸ h.batch u tw' htw' (hb'.trans hb)

end TaggedOk

/-! ## The counters -/

variable [DecidableEq κ]

/-- The kind of job an untagged worker has, if it has one. -/
def loadedKind (workers : List (RunInfo κ)) (f : Worker → Phase) (i : ℕ) : Option (Kind κ) :=
  if (f (.untagged i)).busy then workers[i]?.bind RunInfo.kind else none

/-- The counters of active jobs. -/
structure ActiveOk (active : Kind κ → ℤ) (workers : List (RunInfo κ)) (f : Worker → Phase) :
    Prop where
  kind : ∀ i, (f (.untagged i)).busy = true → (loadedKind workers f i).isSome = true
  count : ∀ k, active k = Tally.tally (loadedKind workers f) workers.length k

namespace ActiveOk

variable {active : Kind κ → ℤ} {workers workers' : List (RunInfo κ)} {f f' : Worker → Phase}

theorem congr (h : ActiveOk active workers f) (hlen : workers'.length = workers.length)
    (hkind : ∀ i : ℕ, workers'[i]?.bind RunInfo.kind = workers[i]?.bind RunInfo.kind)
    (hbusy : ∀ i, (f' (.untagged i)).busy = (f (.untagged i)).busy) :
    ActiveOk active workers' f' := by
  have hsame : loadedKind workers' f' = loadedKind workers f := by
    funext i
    unfold loadedKind
    rw [hkind, hbusy]
  refine ⟨fun i hi => ?_, fun k => ?_⟩
  · rw [hsame]
    exact h.kind i (hbusy i ▸ hi)
  · rw [hsame, hlen]
    exact h.count k

/-- Nothing changes if a worker goes from one phase to another but is busy in both or in
neither. -/
theorem update (h : ActiveOk active workers f) {w : Worker} {p : Phase}
    (hp : p.busy = (f w).busy) : ActiveOk active workers (Function.update f w p) := by
  refine h.congr rfl (fun _ => rfl) fun i => ?_
  rcases eq_or_ne (.untagged i) w with rfl | hne
  · rw [Function.update_self, hp]
  · rw [Function.update_of_ne hne]

theorem update_tagged (h : ActiveOk active workers f) (t : ℕ) (p : Phase) :
    ActiveOk active workers (Function.update f (.tagged t) p) :=
  h.congr rfl (fun _ => rfl) fun i => by rw [Function.update_of_ne (by exact Worker.noConfusion)]

theorem modify (h : ActiveOk active workers f) (i : ℕ) {g : RunInfo κ → RunInfo κ}
    (hkind : ∀ r, (g r).kind = r.kind) : ActiveOk active (workers.modify i g) f := by
  refine h.congr (List.length_modify ..) (fun j => ?_) fun _ => rfl
  rw [List.getElem?_modify_ite]
  split
  · rw [Option.bind_map]
    exact congrArg _ (funext hkind)
  · rfl

/-- A worker that has no job, or is new, gets one. -/
theorem start (h : ActiveOk active workers f) {i : ℕ} {k : Kind κ} {p : Phase}
    (hfree : (f (.untagged i)).busy = false) (hp : p.busy = true)
    (hlen : workers.length ≤ workers'.length) (hi : workers'[i]?.bind RunInfo.kind = some k)
    (hother : ∀ j, j ≠ i → workers'[j]? = workers[j]?) :
    ActiveOk (Function.update active k (active k + 1)) workers'
      (Function.update f (.untagged i) p) := by
  have hloaded : loadedKind workers' (Function.update f (.untagged i) p) =
      Function.update (loadedKind workers f) i (some k) := by
    funext j
    unfold loadedKind
    rcases eq_or_ne j i with rfl | hne
    · rw [Function.update_self, Function.update_self, if_pos hp, hi]
    · rw [Function.update_of_ne (by simpa using hne), Function.update_of_ne hne, hother j hne]
  have hnone : loadedKind workers f i = none := if_neg (by rw [hfree]; exact Bool.false_ne_true)
  have hlt : i < workers'.length := by
    by_contra hge
    rw [List.getElem?_eq_none (by omega)] at hi
    cases hi
  refine ⟨fun j hj => ?_, fun k' => ?_⟩
  · rw [hloaded]
    rcases eq_or_ne j i with rfl | hne
    · rw [Function.update_self]
      rfl
    · rw [Function.update_of_ne hne]
      rw [Function.update_of_ne (by simpa using hne)] at hj
      exact h.kind j hj
  · have htally := Tally.tally_eq_of_le hlen (g := loadedKind workers f)
      (fun j hj => by unfold loadedKind; rw [List.getElem?_eq_none hj]; exact ite_self none) k'
    rw [hloaded, Tally.tally_set hlt hnone, htally]
    rcases eq_or_ne k' k with rfl | hne
    · rw [Function.update_self, h.count, if_pos rfl]
      rfl
    · rw [Function.update_of_ne hne, h.count, if_neg hne]
      rfl

/-- A worker is done with its job. -/
theorem stop (h : ActiveOk active workers f) {i : ℕ} {k : Kind κ} {p : Phase}
    (hbusy : (f (.untagged i)).busy = true) (hi : workers[i]?.bind RunInfo.kind = some k)
    (hp : p.busy = false) :
    ActiveOk (Function.update active k (active k + -1)) workers
      (Function.update f (.untagged i) p) := by
  have hloaded : loadedKind workers (Function.update f (.untagged i) p) =
      Function.update (loadedKind workers f) i none := by
    funext j
    unfold loadedKind
    rcases eq_or_ne j i with rfl | hne
    · rw [Function.update_self, Function.update_self, if_neg (by rw [hp]; exact Bool.false_ne_true)]
    · rw [Function.update_of_ne (by simpa using hne), Function.update_of_ne hne]
  have hsome : loadedKind workers f i = some k := (if_pos hbusy).trans hi
  have hlt : i < workers.length := by
    by_contra hge
    rw [List.getElem?_eq_none (by omega)] at hi
    cases hi
  refine ⟨fun j hj => ?_, fun k' => ?_⟩
  · rcases eq_or_ne j i with rfl | hne
    · rw [Function.update_self, hp] at hj
      cases hj
    · rw [Function.update_of_ne (by simpa using hne)] at hj
      rw [hloaded, Function.update_of_ne hne]
      exact h.kind j hj
  · have htally := Tally.tally_unset hlt hsome k'
    rw [hloaded]
    rcases eq_or_ne k' k with rfl | hne
    · rw [if_pos rfl] at htally
      rw [Function.update_self, h.count]
      omega
    · rw [if_neg hne, Nat.add_zero] at htally
      rw [Function.update_of_ne hne, h.count, htally]

end ActiveOk

/-- The counters of queued commands. -/
def QueuedOk (queued : κ → ℤ) (pending : List (PendingCommand κ)) : Prop :=
  ∀ c, queued c = pending.countP fun p => decide (p.cat = c)

namespace QueuedOk

variable {queued : κ → ℤ} {pending pre post : List (PendingCommand κ)} {p : PendingCommand κ}

theorem push (h : QueuedOk queued pending) :
    QueuedOk (Function.update queued p.cat (queued p.cat + 1)) (pending ++ [p]) := by
  intro c
  rcases eq_or_ne c p.cat with rfl | hne
  · simp [h p.cat]
  · simp [h c, hne, hne.symm]

theorem remove (h : QueuedOk queued (pre ++ p :: post)) :
    QueuedOk (Function.update queued p.cat (queued p.cat + -1)) (pre ++ post) := by
  intro c
  have hc := h c
  rw [List.countP_append, List.countP_cons] at hc
  rw [List.countP_append]
  rcases eq_or_ne c p.cat with rfl | hne
  · rw [decide_eq_true rfl, if_pos rfl] at hc
    rw [Function.update_self, hc]
    omega
  · rw [decide_eq_false hne.symm, if_neg Bool.false_ne_true] at hc
    rw [Function.update_of_ne hne, hc]
    rfl

end QueuedOk

/-! ## The invariant -/

variable [Fintype κ]

/-- As long as we are not quitting, no worker is told to quit, and the reservations are
respected. -/
structure Open (cfg : PoolConfig κ) (p : Pool κ) (f : Worker → Phase) : Prop where
  told : ∀ w, (f w).told = false
  length_le : p.workers.length ≤ cfg.maxWorkers
  surplus_le : Reservation.surplus (fun k => (cfg.reserved k : ℤ)) p.active ≤ cfg.generalWorkers

omit [DecidableEq κ] in
theorem Open.update {cfg : PoolConfig κ} {p p' : Pool κ} {f : Worker → Phase} (h : Open cfg p f)
    (w : Worker) {q : Phase} (hq : q.told = false) (hlen : p'.workers.length ≤ cfg.maxWorkers)
    (hsurplus : Reservation.surplus (fun k => (cfg.reserved k : ℤ)) p'.active ≤
      cfg.generalWorkers) : Open cfg p' (Function.update f w q) :=
  ⟨(Function.forall_update_iff f fun _ q => q.told = false).2 ⟨hq, fun v _ => h.told v⟩, hlen,
    hsurplus⟩

/-- The part of the invariant that has nothing to do with the list of idle workers. -/
structure Sys.Core (cfg : PoolConfig κ) (s : Sys κ) (f : Worker → Phase) : Prop where
  fits : ∀ w, (f w).Fits (s.view w)
  tagged : TaggedOk s.pool.taggedWorkers f
  active : ActiveOk s.pool.active s.pool.workers f
  queued : QueuedOk s.pool.queued s.pool.pendingCommands
  tagged_length : s.pool.taggedWorkers.length = cfg.taggedThreads
  max : s.pool.maxWorkers = 0 ∨ s.pool.maxWorkers = cfg.maxWorkers
  overwritten : s.overwritten = false
  isOpen : s.pool.maxWorkers ≠ 0 → Open cfg s.pool f

/-- The invariant of the worker pool, for an assignment of phases to workers. -/
structure Sys.Inv (cfg : PoolConfig κ) (s : Sys κ) (f : Worker → Phase) : Prop
    extends Sys.Core cfg s f where
  idle : IdleOk cfg.maxWorkers s.pool.idleWorkers s.pool.idleWorkerCount f
  quitting : s.pool.maxWorkers = 0 → ∀ w, f w ≠ .idle

namespace Sys

section General

variable {cfg : PoolConfig κ} {s s' : Sys κ} {f : Worker → Phase}

theorem Core.sameBooks (h : s.Core cfg f) (hs : SameBooks s s') : s'.Core cfg f := by
  obtain ⟨tagged, _, _, hp, ht⟩ := hs.pool
  have htagged : TaggedOk tagged f := by
    have hsame : ∀ (t : ℕ) tw, tagged[t]? = some tw → ∃ tw', s.pool.taggedWorkers[t]? = some tw' ∧
        tw'.run = tw.run ∧ tw'.busy = tw.busy := by
      intro t tw htw
      have hget := congrArg (fun l => l[t]?) ht
      simp only [List.getElem?_map, htw, Option.map_some] at hget
      obtain ⟨tw', htw', heq⟩ := Option.map_eq_some_iff.1 hget.symm
      exact ⟨tw', htw', Prod.mk.inj heq⟩
    refine ⟨fun t tw htw => ?_, fun t tw htw hb => ?_⟩
    · obtain ⟨tw', htw', _, hbusy⟩ := hsame t tw htw
      exact hbusy.symm.trans (h.tagged.busy t tw' htw')
    · obtain ⟨tw', htw', hrun, hbusy⟩ := hsame t tw htw
      exact hrun ▸ h.tagged.batch t tw' htw' (hbusy.trans hb)
  have hlength := hs.tagged_length.trans h.tagged_length
  rw [hp] at hlength
  refine ⟨fun w => hs.view w ▸ h.fits w, ?_, ?_, ?_, ?_, ?_,
    hs.overwritten.trans h.overwritten, ?_⟩ <;> rw [hp]
  · exact htagged
  · exact h.active
  · exact h.queued
  · exact hlength
  · exact h.max
  · exact fun hne => ⟨(h.isOpen hne).told, (h.isOpen hne).length_le, (h.isOpen hne).surplus_le⟩

theorem Inv.sameBooks (h : s.Inv cfg f) (hs : SameBooks s s') : s'.Inv cfg f := by
  obtain ⟨_, _, _, hp, _⟩ := hs.pool
  refine ⟨h.toCore.sameBooks hs, ?_, ?_⟩ <;> rw [hp]
  · exact h.idle
  · exact h.quitting

theorem Core.absent_iff (h : s.Core cfg f) (i : ℕ) :
    f (.untagged i) = .absent ↔ s.pool.workers.length ≤ i := by
  have hj : s.pool.workers[i]?.map RunInfo.joinable = (f (.untagged i)).joinable :=
    (h.fits (.untagged i)).joinable
  rw [← List.getElem?_eq_none_iff, ← Option.map_eq_none_iff (f := RunInfo.joinable), hj]
  cases f (.untagged i) <;> simp [Phase.joinable]

theorem Inv.idle_subset (h : s.Inv cfg f) :
    s.pool.idle.toFinset ⊆ Finset.range s.pool.workers.length := by
  intro i hi
  rw [List.mem_toFinset] at hi
  rw [Finset.mem_range]
  by_contra hge
  have habsent := (h.absent_iff i).2 (Nat.le_of_not_lt hge)
  rw [(h.idle.mem_iff i).1 hi] at habsent
  cases habsent

theorem Inv.card_idle (h : s.Inv cfg f) : s.pool.idle.toFinset.card = s.pool.idleWorkerCount := by
  have hnodup : s.pool.idle.Nodup := h.idle.nodup
  have hlen := h.idle.length
  have hle := h.idle.count_le
  rw [List.toFinset_card_of_nodup hnodup, Pool.idle, List.length_take]
  omega

/-- Not all workers are idle if one of them is not. -/
theorem Inv.idleWorkerCount_lt (h : s.Inv cfg f) {i : ℕ} (hi : i < s.pool.workers.length)
    (hne : f (.untagged i) ≠ .idle) : s.pool.idleWorkerCount < s.pool.workers.length := by
  have hnotMem : i ∉ s.pool.idle.toFinset := by
    rw [List.mem_toFinset]
    exact fun hmem => hne ((h.idle.mem_iff i).1 hmem)
  have hcard := Finset.card_le_card
    (Finset.insert_subset (Finset.mem_range.2 hi) h.idle_subset)
  rwa [Finset.card_insert_of_notMem hnotMem, h.card_idle, Finset.card_range] at hcard

/-- Before `QUIT`, the active jobs of all kinds are as many as the active workers. -/
theorem Inv.sum_active (h : s.Inv cfg f) (hopen : s.pool.maxWorkers ≠ 0) :
    ∑ k, s.pool.active k = s.pool.activeWorkers := by
  have hbusy : ∀ i, i < s.pool.workers.length → i ∉ s.pool.idle →
    (f (.untagged i)).busy = true := by
    intro i hi hidle
    have habsent : f (.untagged i) ≠ .absent := fun ha => by
      have := (h.absent_iff i).1 ha
      omega
    by_contra hfree
    have hphase := (Phase.eq_idle_iff ((h.isOpen hopen).told (.untagged i))).2
      ⟨habsent, Bool.not_eq_true _ ▸ hfree⟩
    exact hidle ((h.idle.mem_iff i).2 hphase)
  have hset : ((Finset.range s.pool.workers.length).filter fun i =>
      (loadedKind s.pool.workers f i).isSome) =
      Finset.range s.pool.workers.length \ s.pool.idle.toFinset := by
    ext i
    rw [Finset.mem_filter, Finset.mem_sdiff, Finset.mem_range, List.mem_toFinset]
    refine and_congr_right fun hi => ⟨fun hsome hmem => ?_, fun hmem => ?_⟩
    · unfold loadedKind at hsome
      rw [(h.idle.mem_iff i).1 hmem] at hsome
      exact Bool.false_ne_true hsome
    · exact h.active.kind i (hbusy i hi hmem)
  rw [Finset.sum_congr rfl fun k _ => h.active.count k, ← Nat.cast_sum, Tally.sum_tally, hset,
    Finset.card_sdiff_of_subset h.idle_subset, Finset.card_range, h.card_idle]
  have hle := Finset.card_le_card h.idle_subset
  rw [h.card_idle, Finset.card_range] at hle
  rw [Pool.activeWorkers]
  omega

end General

end Sys

end OxenMQ
