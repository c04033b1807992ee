import OxenMQ.Proxy.Timers

/-!
# The two tables of timers

`timer_zmq_id` is kept up to date: it has the timers that have been added and not cancelled, each
with a number of its own.  `timer_jobs` has what a timer does, by these numbers, and
`proxy_timer_del` does not take anything out of it.  So the tables are about the same timers only as
long as no timer has been cancelled, and what a cancelled timer has captured is not released.

`add_timer` takes the number of a timer from a counter that it shares with nobody, so no two of its
calls have the same one.  `cancel_timer` is given any number.
-/

set_option autoImplicit false

namespace OxenMQ

namespace TimerCall

/-- The number of the timer that a call adds. -/
def added : TimerCall → Option ℤ
  | .add _ id _ _ _ _ => some id
  | .cancel _ => none

/-- The timers that are there after a call. -/
def after (live : Finset ℤ) : TimerCall → Finset ℤ
  | .add _ id _ _ _ _ => insert id live
  | .cancel id => live.erase id

/-- The timers that have been added and not cancelled. -/
def live (calls : List TimerCall) : Finset ℤ := calls.foldl after ∅

/-- One of the calls has cancelled this timer when it was there. -/
def Cancelled (calls : List TimerCall) (id : ℤ) : Prop :=
  ∃ pre post, calls = pre ++ .cancel id :: post ∧ id ∈ live pre

variable {calls : List TimerCall} {c : TimerCall} {id : ℤ}

theorem live_snoc (calls : List TimerCall) (c : TimerCall) :
    live (calls ++ [c]) = after (live calls) c := by
  rw [live, List.foldl_append]
  rfl

theorem cancelled_snoc :
    Cancelled (calls ++ [c]) id ↔ Cancelled calls id ∨ c = .cancel id ∧ id ∈ live calls := by
  constructor
  · rintro ⟨pre, post, heq, hid⟩
    rcases List.eq_nil_or_concat post with rfl | ⟨post, c', rfl⟩
    · obtain ⟨hpre, hc⟩ := List.append_inj' heq rfl
      exact Or.inr ⟨List.singleton_inj.1 hc, hpre ▸ hid⟩
    · rw [List.concat_eq_append, ← List.cons_append, ← List.append_assoc] at heq
      exact Or.inl ⟨pre, post, (List.append_inj' heq rfl).1, hid⟩
  · rintro (⟨pre, post, rfl, hid⟩ | ⟨rfl, hid⟩)
    · exact ⟨pre, post ++ [c], by simp, hid⟩
    · exact ⟨calls, [], rfl, hid⟩

theorem added_of_mem_live (h : id ∈ live calls) : id ∈ calls.filterMap added := by
  induction calls using List.reverseRecOn with
  | nil => cases h
  | append_singleton calls c ih =>
    rw [live_snoc] at h
    rw [List.filterMap_append, List.mem_append]
    cases c with
    | add _ id' =>
      rcases Finset.mem_insert.1 h with rfl | h
      · exact Or.inr (List.mem_singleton.2 rfl)
      · exact Or.inl (ih h)
    | cancel id' => exact Or.inl (ih (Finset.mem_of_mem_erase h))

end TimerCall

open TimerCall

namespace Timers

variable {t t' : Timers} {calls : List TimerCall}

/-- The tables after some calls. -/
structure Tracks (t : Timers) (calls : List TimerCall) : Prop where
  ids : ∀ id, id ∈ t.timerZmqId ↔ id ∈ live calls
  injective : ∀ id id' z, t.timerZmqId.lookup id = some z → t.timerZmqId.lookup id' = some z →
    id = id'
  known : ∀ id z, t.timerZmqId.lookup id = some z → z ∈ t.timerJobs
  handedOut : ∀ z ∈ t.timerJobs, z ∈ t.handedOut
  /-- Every timer that is known is there if none has been cancelled, and only then. -/
  released : (∀ z ∈ t.timerJobs, ∃ id, t.timerZmqId.lookup id = some z) ↔
    ∀ id, ¬ Cancelled calls id

namespace Tracks

theorem empty : Tracks {} [] := by
  refine ⟨fun id => ?_, nofun, nofun, nofun, ?_⟩
  · exact iff_of_false (AList.notMem_empty id) (Finset.notMem_empty id)
  · refine iff_of_true (fun z hz => absurd hz (AList.notMem_empty z)) fun id ⟨pre, post, h, _⟩ => ?_
    simp at h

theorem keeps (h : Tracks t calls) (hk : Keeps t t') : Tracks t' calls := by
  have hmem : ∀ z, z ∈ t'.timerJobs ↔ z ∈ t.timerJobs := by
    intro z
    rw [← AList.lookup_isSome, ← AList.lookup_isSome, ← Option.isSome_map (f := TimerJob.unmarked),
      hk.jobs z, Option.isSome_map]
  refine ⟨?_, ?_, ?_, ?_, ?_⟩
  · rw [hk.timerZmqId]
    exact h.ids
  · rw [hk.timerZmqId]
    exact h.injective
  · simpa only [hk.timerZmqId, hmem] using h.known
  · simpa only [hk.handedOut, hmem] using h.handedOut
  · simpa only [hk.timerZmqId, hmem] using h.released

theorem add (h : Tracks t calls) {z₀ id : ℤ} {job : Callback} {interval : ℤ} {squelch : Bool}
    {thread : ℤ} (hfresh : t.Fresh z₀) (hid : id ∉ calls.filterMap added) :
    Tracks (t.proxyTimer z₀ id job interval squelch thread)
      (calls ++ [.add z₀ id job interval squelch thread]) := by
  have hnew : t.timerZmqId.lookup id = none := by
    rw [AList.lookup_eq_none, h.ids]
    exact fun hlive => hid (added_of_mem_live hlive)
  have hlookup : ∀ {id' z}, (t.timerZmqId.insert id z₀).lookup id' = some z ↔
      id' = id ∧ z = z₀ ∨ t.timerZmqId.lookup id' = some z := by
    intro id' z
    rcases eq_or_ne id' id with rfl | hne
    · rw [AList.lookup_insert, hnew]
      simp [eq_comm]
    · rw [AList.lookup_insert_ne hne]
      simp [hne]
  have hold : ∀ {id' z}, t.timerZmqId.lookup id' = some z → z ≠ z₀ := fun hz heq =>
    hfresh (heq ▸ h.handedOut _ (h.known _ _ hz))
  refine ⟨fun id' => ?_, fun id₁ id₂ z h₁ h₂ => ?_, fun id' z hz => ?_, fun z hz => ?_, ?_⟩
  · rw [live_snoc, after, Finset.mem_insert, ← h.ids]
    exact AList.mem_insert _
  · rcases hlookup.1 h₁ with ⟨hid₁, hz₁⟩ | hid₁ <;> rcases hlookup.1 h₂ with ⟨hid₂, hz₂⟩ | hid₂
    · exact hid₁.trans hid₂.symm
    · exact absurd hz₁ (hold hid₂)
    · exact absurd hz₂ (hold hid₁)
    · exact h.injective id₁ id₂ z hid₁ hid₂
  · rcases hlookup.1 hz with ⟨rfl, rfl⟩ | hz
    · exact (AList.mem_insert _).2 (Or.inl rfl)
    · exact (AList.mem_insert _).2 (Or.inr (h.known id' z hz))
  · rcases (AList.mem_insert _).1 hz with rfl | hz
    · exact List.mem_append_right _ List.mem_cons_self
    · exact List.mem_append_left _ (h.handedOut z hz)
  · have hsame : ∀ id', Cancelled (calls ++ [.add z₀ id job interval squelch thread]) id' ↔
        Cancelled calls id' := fun id' => cancelled_snoc.trans (or_iff_left nofun)
    simp only [hsame, ← h.released]
    refine ⟨fun hall z hz => ?_, fun hall z hz => ?_⟩
    · obtain ⟨id', hid'⟩ := hall z ((AList.mem_insert _).2 (Or.inr hz))
      rcases hlookup.1 hid' with ⟨_, rfl⟩ | hid'
      · exact absurd (h.handedOut _ hz) hfresh
      · exact ⟨id', hid'⟩
    · rcases (AList.mem_insert _).1 hz with rfl | hz
      · exact ⟨id, hlookup.2 (Or.inl ⟨rfl, rfl⟩)⟩
      · exact (hall z hz).imp fun _ hid' => hlookup.2 (Or.inr hid')

theorem cancel (h : Tracks t calls) (id : ℤ) :
    Tracks (t.proxyTimerDel id) (calls ++ [.cancel id]) := by
  rw [proxyTimerDel]
  split
  · -- There is no such timer, or not any more.
    rename_i hnone
    have hid : id ∉ live calls := by rwa [← h.ids, ← AList.lookup_eq_none]
    have hsame : ∀ id', Cancelled (calls ++ [.cancel id]) id' ↔ Cancelled calls id' := by
      intro id'
      refine cancelled_snoc.trans (or_iff_left ?_)
      rintro ⟨heq, hid'⟩
      cases heq
      exact hid hid'
    refine ⟨?_, h.injective, h.known, h.handedOut, ?_⟩
    · rw [live_snoc, after, Finset.erase_eq_of_notMem hid]
      exact h.ids
    · simpa only [hsame] using h.released
  · rename_i z hz
    have hid : id ∈ live calls := by
      rw [← h.ids, ← AList.lookup_isSome, hz]
      rfl
    have hlookup : ∀ {id' z'}, (t.timerZmqId.erase id).lookup id' = some z' →
        id' ≠ id ∧ t.timerZmqId.lookup id' = some z' := by
      intro id' z' hid'
      rcases eq_or_ne id' id with rfl | hne
      · rw [AList.lookup_erase] at hid'
        cases hid'
      · exact ⟨hne, (AList.lookup_erase_ne hne).symm.trans hid'⟩
    refine ⟨fun id' => ?_, fun id₁ id₂ z' h₁ h₂ => ?_, fun id' z' hz' => ?_, h.handedOut, ?_⟩
    · rw [live_snoc, after, Finset.mem_erase, ← h.ids]
      exact AList.mem_erase
    · exact h.injective id₁ id₂ z' (hlookup h₁).2 (hlookup h₂).2
    · exact h.known id' z' (hlookup hz').2
    · refine iff_of_false (fun hall => ?_) fun hnone =>
        hnone id (cancelled_snoc.2 (Or.inr ⟨rfl, hid⟩))
      obtain ⟨id', hid'⟩ := hall z (h.known id z hz)
      exact (hlookup hid').1 (h.injective id' id z (hlookup hid').2 hz)

theorem call {κ : Type} {cfg : PoolConfig κ} (h : Tracks t calls) {c : TimerCall}
    (hvalid : c.valid cfg t = true) (hids : ((calls ++ [c]).filterMap added).Nodup) :
    Tracks (t.call c) (calls ++ [c]) := by
  cases c with
  | add z id job interval squelch thread =>
    simp only [TimerCall.valid, Bool.and_eq_true, decide_eq_true_eq] at hvalid
    refine h.add hvalid.1.1 fun hmem => ?_
    rw [List.filterMap_append] at hids
    exact (List.nodup_append.1 hids).2.2 id hmem id (List.mem_singleton.2 rfl) rfl
  | cancel id => exact h.cancel id

end Tracks

theorem tracks_of_run {κ : Type} {cfg : PoolConfig κ} (hids : (calls.filterMap added).Nodup)
    (hrun : Transition.run (Timers.step cfg) {} calls = some t) : Tracks t calls := by
  refine Transition.run_induction_history
    (P := fun calls (t : Timers) => (calls.filterMap added).Nodup → Tracks t calls)
    (fun _ => .empty) (fun calls t c t' _ ih hs hids => ?_) hrun hids
  obtain ⟨hvalid, rfl⟩ := Timers.step_eq_some.1 hs
  refine (ih ?_).call hvalid hids
  rw [List.filterMap_append] at hids
  exact hids.of_append_left

end Timers

namespace Proxy

variable {κ : Type} [DecidableEq κ] [Fintype κ] {cfg : ProxyConfig κ} {p : Proxy κ}

/-- The calls of a run, those before its start included. -/
def timerCalls (early : List TimerCall) (es : List Event) : List TimerCall :=
  early ++ es.filterMap Event.timerCall

theorem run_tracks {early : List TimerCall} {timers : Timers} {es : List Event}
    (hids : ((timerCalls early es).filterMap added).Nodup)
    (hearly : Transition.run (Timers.step cfg.pool) {} early = some timers)
    (hrun : Transition.run (step cfg) (start cfg timers) es = some p) :
    p.timers.Tracks (timerCalls early es) := by
  refine Transition.run_induction_history (P := fun es (p : Proxy κ) =>
    ((timerCalls early es).filterMap added).Nodup → p.timers.Tracks (timerCalls early es))
    (fun hids => ?_) (fun es p e p' _ ih hs hids => ?_) hrun hids
  · rw [timerCalls, List.filterMap_nil, List.append_nil] at hids ⊢
    exact Timers.tracks_of_run hids hearly
  · have hkeeps := keeps_of_step hs
    have hcalls : timerCalls early (es ++ [e]) = timerCalls early es ++ e.timerCall.toList := by
      rw [timerCalls, timerCalls, List.filterMap_append, List.append_assoc]
      rfl
    rw [hcalls] at hids ⊢
    have hids' : ((timerCalls early es).filterMap added).Nodup := by
      rw [List.filterMap_append] at hids
      exact hids.of_append_left
    cases hc : e.timerCall with
    | none =>
      rw [hc] at hkeeps
      rw [Option.toList_none, List.append_nil]
      exact (ih hids').keeps hkeeps
    | some c =>
      rw [hc] at hkeeps hids
      rw [hkeeps.2]
      exact (ih hids').call hkeeps.1 hids

/-- **What is left of the timers that have been cancelled.**  In `timer_zmq_id` nothing.  In
`timer_jobs` everything: its keys are the numbers of the timers that are there if no timer has ever
been cancelled, and only then. -/
theorem timers_released_iff {early : List TimerCall} {timers : Timers} {es : List Event}
    (hids : ((timerCalls early es).filterMap added).Nodup)
    (hearly : Transition.run (Timers.step cfg.pool) {} early = some timers)
    (hrun : Transition.run (step cfg) (start cfg timers) es = some p) :
    (∀ id id' z, p.timers.timerZmqId.lookup id = some z → p.timers.timerZmqId.lookup id' = some z →
      id = id') ∧
    (∀ id, id ∈ p.timers.timerZmqId ↔ id ∈ live (timerCalls early es)) ∧
    ((∀ z, z ∈ p.timers.timerJobs ↔
        ∃ id ∈ live (timerCalls early es), p.timers.timerZmqId.lookup id = some z) ↔
      ∀ id, ¬ Cancelled (timerCalls early es) id) := by
  have h := run_tracks hids hearly hrun
  refine ⟨h.injective, h.ids, h.released.symm.trans ?_ |>.symm⟩
  have hlive : ∀ {id z}, p.timers.timerZmqId.lookup id = some z →
      id ∈ live (timerCalls early es) := by
    intro id z hz
    rw [← h.ids, ← AList.lookup_isSome, hz]
    rfl
  refine ⟨fun hall z => ⟨fun hz => ?_, fun ⟨id, _, hid⟩ => h.known id z hid⟩, fun hall z hz => ?_⟩
  · obtain ⟨id, hid⟩ := hall z hz
    exact ⟨id, hlive hid, hid⟩
  · obtain ⟨id, _, hid⟩ := (hall z).1 hz
    exact ⟨id, hid⟩

/-- A timer is added. -/
def oneTimer : List Event :=
  [.begin, .control { zmqTimerId := 2 } (.addTimer 1 7 100 true none)]

theorem timers_released_iff_oneTimer :
    ∃ p, Transition.run (step smallProxy) (start smallProxy) oneTimer = some p ∧
      ∀ z, z ∈ p.timers.timerJobs ↔
        ∃ id ∈ live (timerCalls [] oneTimer), p.timers.timerZmqId.lookup id = some z := by
  have hrun : Transition.run (step smallProxy) (start smallProxy) oneTimer = some _ := rfl
  refine ⟨_, hrun, (timers_released_iff (by decide) rfl hrun).2.2.2 ?_⟩
  rintro id ⟨pre, post, heq, _⟩
  have hmem : .cancel id ∈ timerCalls [] oneTimer := by simp [heq]
  cases List.mem_singleton.1 hmem

/-- The function of a timer that has been cancelled is still there, when there are no jobs anywhere.
-/
theorem oneTimer_not_released :
    ∃ p, Transition.run (step smallProxy) (start smallProxy)
        (oneTimer ++ [.control {} (.cancelTimer 1)]) = some p ∧
      (∀ bj x, ¬ p.sys.IsAt bj x) ∧
      live (timerCalls [] (oneTimer ++ [.control {} (.cancelTimer 1)])) = ∅ ∧
      p.timers.timerJobs.lookup 2 = some ⟨7, true, false, 0⟩ := by
  refine ⟨_, rfl, fun bj => ?_, rfl, rfl⟩
  exact Sys.not_isAt_of_le (Sys.init_inv _) (Sys.batchesFit_init _) (Nat.zero_le _)

end Proxy

end OxenMQ
