import OxenMQ.Lib.Tally
import OxenMQ.Workers.Message
import OxenMQ.Workers.Order
import OxenMQ.Workers.Rest

/-!
# What becomes of a command

A command that has been handed to a worker lies in the worker's `RunInfo` until the worker begins
with it, and the proxy may not hand the worker anything else in the meantime.  So, worker by worker,
the commands a worker has been given are the ones it has called, in the same order, and then the one
it has not begun with (`Handed.order`).

`Handed.calls_add_held` puts the workers together: every command that has been handed out has been
called once or is held by one worker.
-/

set_option autoImplicit false

namespace OxenMQ

open Tally

variable {κ : Type}

/-- The command that is loaded, if it is one. -/
def Load.arrival : Load κ → Option (Arrival κ)
  | .pending (.command a) => some a
  | _ => none

/-- The command that a worker is handed. -/
def LogEntry.given : LogEntry κ → Option (Worker × Arrival κ)
  | .dispatched w l => l.arrival.map fun a => (w, a)
  | _ => none

/-- The command that a worker calls. -/
def LogEntry.called : LogEntry κ → Option (Worker × Arrival κ)
  | .invoked w a _ => some (w, a)
  | _ => none

/-- Has the thread got a job that it has not begun with? -/
def Thread.yetToBegin (t : Thread) : Bool := t.status == .preloaded || t.inbox.contains .run

theorem RunInfo.origin_load (r : RunInfo κ) (l : Load κ) : (r.load l).origin = l.arrival := by
  rcases l with (a | t) | bj <;> rfl

namespace Sys

/-- The commands that a worker has been given. -/
def given (s : Sys κ) (w : Worker) : List (Arrival κ) := valuesOf (s.log.filterMap LogEntry.given) w

/-- The commands that a worker has called. -/
def called (s : Sys κ) (w : Worker) : List (Arrival κ) :=
  valuesOf (s.log.filterMap LogEntry.called) w

/-- The command that a worker has not begun with. -/
def held (s : Sys κ) (w : Worker) : Option (Arrival κ) :=
  if (s.threads w).yetToBegin then (s.pool.runInfo w).bind RunInfo.origin else none

/-- The same in terms of the phase of the worker. -/
def heldIn (s : Sys κ) (f : Worker → Phase) (w : Worker) : Option (Arrival κ) :=
  if (f w).loaded then (s.pool.runInfo w).bind RunInfo.origin else none

/-- Each worker has called what it has been given, but for what it has not begun with. -/
structure Handed (s : Sys κ) (f : Worker → Phase) : Prop where
  run : ∀ w, (f w).loaded = true →
    ∃ (r : RunInfo κ) (l : Load κ), s.pool.runInfo w = some (r.load l)
  order : ∀ w, s.given w = s.called w ++ (s.heldIn f w).toList
  /-- There is a record of every worker that has been given anything. -/
  known : ∀ w, s.pool.runInfo w = none → s.given w = []
  /-- A callback sees the message that has arrived, but for the reply tag of what is no request. -/
  message : ∀ w a m, .invoked w a m ∈ s.log → m = { a.message with replyTag := m.replyTag }

end Sys

/-- A worker has a job that it has not begun with in the phases that say so. -/
theorem Phase.Fits.loaded_eq {κ : Type} {s : Sys κ} {w : Worker} {p : Phase}
    (h : p.Fits (s.view w)) : p.loaded = (s.threads w).yetToBegin := by
  have hstatus : (s.threads w).status = _ ∨ (s.threads w).status = _ ∧ _ := h.status
  have hinbox : (s.threads w).inbox = _ := h.inbox
  rw [Thread.yetToBegin, hinbox]
  rcases hstatus with hs | ⟨hs, hwaiting, _⟩
  · have hne : ¬ (s.view w).status = .starting := by
      show ¬ (s.threads w).status = .starting
      rw [hs]
      cases p <;> exact fun h => by cases h
    rw [if_neg hne, hs]
    cases p <;> rfl
  · have hstart : (s.view w).status = .starting := hs
    rw [if_pos hstart, hs]
    cases p <;> first | rfl | cases hwaiting

namespace Sys

variable {s s' : Sys κ} {f f' : Worker → Phase}

theorem heldIn_of_free {w : Worker} (h : (f w).loaded = false) : s.heldIn f w = none := by
  rw [heldIn, h, if_neg Bool.false_ne_true]

theorem heldIn_of_run {w : Worker} {r : RunInfo κ} {l : Load κ} (h : (f w).loaded = true)
    (hrun : s.pool.runInfo w = some (r.load l)) : s.heldIn f w = l.arrival := by
  rw [heldIn, h, if_pos rfl, hrun, Option.bind_some, RunInfo.origin_load]

theorem given_append {l : List (LogEntry κ)} (hlog : s'.log = s.log ++ l) (w : Worker) :
    s'.given w = s.given w ++ valuesOf (l.filterMap LogEntry.given) w := by
  rw [given, hlog, List.filterMap_append, valuesOf_append, given]

theorem called_append {l : List (LogEntry κ)} (hlog : s'.log = s.log ++ l) (w : Worker) :
    s'.called w = s.called w ++ valuesOf (l.filterMap LogEntry.called) w := by
  rw [called, hlog, List.filterMap_append, valuesOf_append, called]

namespace Handed

/-! ## Steps that leave the commands alone -/

/-- Nothing is handed out, and no worker begins. -/
theorem quiet (h : s.Handed f)
    (hlog : Logs (fun e => e.given = none ∧ e.isInvocation = false) s s')
    (hloaded : ∀ w, (f' w).loaded = (f w).loaded)
    (hrun : ∀ w, (f w).loaded = true → s'.pool.runInfo w = s.pool.runInfo w)
    (hknown : ∀ w, s'.pool.runInfo w = none → s.pool.runInfo w = none) : s'.Handed f' := by
  obtain ⟨l, hlog, hl⟩ := hlog
  have hgiven : ∀ w, s'.given w = s.given w := fun w => by
    have hnone : l.filterMap LogEntry.given = [] :=
      List.filterMap_eq_nil_iff.2 fun e he => (hl e he).1
    rw [given_append hlog, hnone, valuesOf_nil, List.append_nil]
  have hcalled : ∀ w, s'.called w = s.called w := fun w => by
    have hnone : l.filterMap LogEntry.called = [] := by
      refine List.filterMap_eq_nil_iff.2 fun e he => ?_
      have := (hl e he).2
      cases e <;> first | rfl | cases this
    rw [called_append hlog, hnone, valuesOf_nil, List.append_nil]
  refine ⟨fun w hw => ?_, fun w => ?_, fun w hw => ?_, fun w a m hm => ?_⟩
  · rw [hloaded] at hw
    rw [hrun w hw]
    exact h.run w hw
  · have hheld : s'.heldIn f' w = s.heldIn f w := by
      rw [heldIn, heldIn, hloaded]
      split
      · rw [hrun w ‹_›]
      · rfl
    rw [hgiven, hcalled, hheld, h.order]
  · rw [hgiven, h.known w (hknown w hw)]
  · rw [hlog, List.mem_append] at hm
    exact hm.elim (h.message w a m) fun hm => by cases (hl _ hm).2

/-! ## A command is handed out -/

theorem load (h : s.Handed f) {w : Worker} {l : Load κ} {p : Phase} (hfree : (f w).busy = false)
    (hp : p.loaded = true) (hloaded : Loaded s s' w l) : s'.Handed (Function.update f w p) := by
  obtain ⟨r, hr⟩ := hloaded.run
  have hgiven : ∀ v, s'.given v = s.given v ++ if w = v then l.arrival.toList else [] := fun v => by
    rw [given_append hloaded.log]
    rcases hl : l.arrival with _ | a
    · simp [LogEntry.given, hl]
    · simp [LogEntry.given, hl, valuesOf_singleton]
  have hcalled : ∀ v, s'.called v = s.called v := fun v => by
    rw [called_append hloaded.log]
    exact List.append_nil _
  refine ⟨fun v hv => ?_, fun v => ?_, fun v hv => ?_, fun v a m hm => ?_⟩
  · rcases eq_or_ne v w with rfl | hne
    · exact ⟨r, l, hr⟩
    · rw [Function.update_of_ne hne] at hv
      rw [hloaded.other v hne]
      exact h.run v hv
  · rw [hgiven, hcalled, h.order]
    rcases eq_or_ne v w with rfl | hne
    · rw [heldIn_of_free (loaded_of_free hfree), Option.toList_none, List.append_nil, if_pos rfl,
        heldIn_of_run (by rwa [Function.update_self]) hr]
    · rw [if_neg hne.symm, List.append_nil, heldIn, heldIn, Function.update_of_ne hne,
        hloaded.other v hne]
  · rcases eq_or_ne v w with rfl | hne
    · rw [hr] at hv
      cases hv
    · rw [hgiven, if_neg hne.symm, List.append_nil]
      exact h.known v (hloaded.other v hne ▸ hv)
  · rw [hloaded.log, List.mem_append, List.mem_singleton] at hm
    exact hm.elim (h.message v a m) fun hm => by cases hm

theorem dispatches {Q : Set (PendingCommand κ)} (h : s.Handed f) (hdisp : Dispatches Q s f s' f') :
    s'.Handed f' := by
  induction hdisp with
  | refl => exact h
  | queue _ queued hpending ih => exact ⟨ih.run, ih.order, ih.known, ih.message⟩
  | load _ hfree hp hloaded _ _ ih => exact ih.load hfree hp hloaded

/-! ## A worker begins -/

/-- The callback of a command is called, and nothing else is. -/
theorem log_beginJob_load (s : Sys κ) (w : Worker) (r : RunInfo κ) (l : Load κ) :
    ∃ es, (s.beginJob w (r.load l)).log = s.log ++ es ∧ es.filterMap LogEntry.given = [] ∧
      es.filterMap LogEntry.called = (l.arrival.map fun a => (w, a)).toList ∧
      ∀ v a m, .invoked v a m ∈ es → m = { a.message with replyTag := m.replyTag } := by
  rcases l with (a | t) | ⟨bj, reply, tagged⟩
  · refine ⟨[.invoked w a _], rfl, rfl, rfl, fun v b m hm => ?_⟩
    obtain ⟨rfl, rfl, rfl⟩ : v = w ∧ b = a ∧ m = _ := by simpa using hm
    rw [RunInfo.load, RunInfo.prepare_loadCommand]
    split <;> rfl
  · exact ⟨[], (List.append_nil _).symm, rfl, rfl, by simp⟩
  · obtain ⟨ptr, no⟩ := bj
    by_cases hno : no = -1
    · subst hno
      cases hb : s.heap ptr with
      | none =>
        refine ⟨[], ?_, rfl, rfl, by simp⟩
        simp [Sys.beginJob, RunInfo.load, RunInfo.loadBatch, RunInfo.batchJob, hb]
      | some b =>
        refine ⟨[.completed ptr (some w) b.results], ?_, rfl, rfl, by simp⟩
        rw [beginJob_completion s w rfl hb]
    · refine ⟨[], ?_, rfl, rfl, by simp⟩
      rw [beginJob_job s w rfl hno, List.append_nil]

theorem beginJob (h : s.Handed f) {w : Worker} {run : RunInfo κ}
    (hrun : s.pool.runInfo w = some run) (hloaded : (f w).loaded = true)
    (threads : Worker → Thread) :
    ({ s with threads := threads }.beginJob w run).Handed (Function.update f w .running) := by
  obtain ⟨r, l, hload⟩ := h.run w hloaded
  obtain rfl := Option.some.inj (hrun.symm.trans hload)
  obtain ⟨es, hlog, hnone, hcalls, hmessage⟩ :=
    log_beginJob_load { s with threads := threads } w r l
  obtain ⟨g, _, _, _, heq, _⟩ := beginJob_eq { s with threads := threads } w (r.load l)
  have hpool : ({ s with threads := threads }.beginJob w (r.load l)).pool =
      s.pool.modifyRun g w := by rw [heq]
  generalize hs' : { s with threads := threads }.beginJob w (r.load l) = s' at hlog hpool
  replace hlog : s'.log = s.log ++ es := hlog
  have hgiven : ∀ v, s'.given v = s.given v := fun v => by
    rw [given_append hlog, hnone, valuesOf_nil, List.append_nil]
  refine ⟨fun v hv => ?_, fun v => ?_, fun v hv => ?_, fun v a m hm => ?_⟩
  · have hvw : v ≠ w := by
      rintro rfl
      rw [Function.update_self] at hv
      cases hv
    rw [Function.update_of_ne hvw] at hv
    rw [hpool, Pool.runInfo_modifyRun, if_neg hvw]
    exact h.run v hv
  · rw [hgiven, h.order, called_append hlog, hcalls]
    rcases eq_or_ne v w with rfl | hne
    · rw [heldIn_of_run hloaded hload, heldIn_of_free (by rw [Function.update_self]; rfl)]
      rcases l.arrival with _ | a
      · simp
      · simp [valuesOf_singleton]
    · have hother : valuesOf ((l.arrival.map fun a => (w, a)).toList) v = [] := by
        rcases l.arrival with _ | a
        · rfl
        · exact (valuesOf_singleton w v a).trans (if_neg hne.symm)
      rw [hother, List.append_nil, heldIn, heldIn, Function.update_of_ne hne, hpool,
        Pool.runInfo_modifyRun, if_neg hne]
  · rw [hgiven]
    refine h.known v ?_
    rw [hpool, Pool.runInfo_modifyRun] at hv
    split at hv
    · exact Option.map_eq_none_iff.1 hv
    · exact hv
  · rw [hlog, List.mem_append] at hm
    exact hm.elim (h.message v a m) (hmessage v a m)

variable [DecidableEq κ] [Fintype κ] {cfg : PoolConfig κ}

/-- Every step keeps the workers' accounts. -/
theorem step {e : PoolEvent κ} (h : s.Handed f) (hinv : s.Inv cfg f)
    (hs : Sys.step cfg s e = some s') : ∃ f', s'.Inv cfg f' ∧ s'.Handed f' := by
  have hdisp : ∀ {Q : Set (PendingCommand κ)}, (∃ f', s'.Inv cfg f' ∧ Dispatches Q s f s' f') →
      ∃ f', s'.Inv cfg f' ∧ s'.Handed f' := fun ⟨f', hinv', hd⟩ => ⟨f', hinv', h.dispatches hd⟩
  -- What the log of the other steps says is not about commands.
  have hquiet : (∀ w l, LogEntry.isFrom e (.dispatched w l) = false) →
      (∀ w a m, LogEntry.isFrom e (.invoked w a m) = false) →
      Logs (fun x => x.given = none ∧ x.isInvocation = false) s s' := fun hd hi =>
    (step_log hs).mono fun x hx => by
      cases x with
      | dispatched w l => cases (hd w l).symm.trans hx
      | invoked w a m => cases (hi w a m).symm.trans hx
      | _ => exact ⟨rfl, rfl⟩
  have hbooks : SameBooks s s' → (∀ w l, LogEntry.isFrom e (.dispatched w l) = false) →
      (∀ w a m, LogEntry.isFrom e (.invoked w a m) = false) →
      ∃ f', s'.Inv cfg f' ∧ s'.Handed f' := fun hbooks hd hi =>
    ⟨f, hinv.sameBooks hbooks, h.quiet (hquiet hd hi) (fun _ => rfl) (fun w _ => hbooks.runInfo w)
      fun w hw => hbooks.runInfo w ▸ hw⟩
  -- A worker that is not loaded changes to a phase that is not loaded either.
  have hfree : ∀ {w : Worker} {p : Phase}, (f w).loaded = false → p.loaded = false →
      ∀ v, (Function.update f w p v).loaded = (f v).loaded := by
    intro w p hw hp v
    rcases eq_or_ne v w with rfl | hne
    · rw [Function.update_self, hw, hp]
    · rw [Function.update_of_ne hne]
  cases e with
  | command a => exact hdisp (step_command hs ▸ hinv.proxyToWorker a)
  | inject t => exact hdisp (step_inject hs ▸ hinv.proxyInjectTask t)
  | submit spec =>
    obtain ⟨_, rfl⟩ := step_submit_cases hs
    exact hbooks (s.sameBooks_submit spec) (fun _ _ => rfl) fun _ _ _ => rfl
  | replyJob callback =>
    obtain rfl := step_replyJob hs
    exact hbooks (s.sameBooks_proxyScheduleReplyJob callback)
      (fun _ _ => rfl) fun _ _ _ => rfl
  | processQueue => exact hdisp (step_processQueue hs ▸ hinv.proxyProcessQueue)
  | workerMessage w =>
    have hlog := hquiet (fun _ _ => rfl) fun _ _ _ => rfl
    obtain ⟨run, rest, hrun, ⟨houtbox, rfl⟩ | ⟨houtbox, rfl⟩⟩ :=
      proxyWorkerMessage_cases (step_workerMessage hs)
    · obtain ⟨hphase, rfl⟩ := (hinv.fits w).eq_of_outbox_ran houtbox
      have hsame := runInfo_workerRan (s.takeReply w []) w run
      refine ⟨_, hinv.ran hrun hphase, h.quiet hlog (hfree (by rw [hphase]; rfl) ?_)
        (fun v _ => hsame v) fun v hv => (hsame v).symm.trans hv⟩
      split <;> rfl
    · obtain ⟨hphase, rfl⟩ := (hinv.fits w).eq_of_outbox_quitting houtbox
      refine ⟨_, hinv.joined hphase, h.quiet hlog (hfree (by rw [hphase]; rfl) rfl) ?_ ?_⟩
      · intro v hv
        have hvw : v ≠ w := by
          rintro rfl
          rw [hphase] at hv
          cases hv
        exact (s.pool.runInfo_modifyRun _ w v).trans (if_neg hvw)
      · intro v hv
        rw [Pool.runInfo_modifyRun] at hv
        split at hv
        · exact Option.map_eq_none_iff.1 hv
        · exact hv
  | quit =>
    have hlog := hquiet (fun _ _ => rfl) fun _ _ _ => rfl
    obtain ⟨hopen, rfl⟩ := step_quit_cases hs
    refine ⟨_, hinv.proxyControlQuit hopen, h.quiet hlog (fun v => ?_)
      (fun v _ => runInfo_proxyControlQuit s v) fun v hv => runInfo_proxyControlQuit s v ▸ hv⟩
    split
    · rename_i hidle
      rw [hidle]
      rfl
    · rfl
  | stop =>
    obtain ⟨_, _, rfl⟩ := step_stop_cases hs
    exact hbooks ⟨⟨_, _, _, rfl, rfl⟩, rfl, rfl, rfl, rfl⟩ (fun _ _ => rfl) fun _ _ _ => rfl
  | receive w =>
    obtain ⟨p, hinv', _, _, ⟨run, threads, _, hrun, hphase, rfl, _, rfl⟩ | ⟨_, hp, threads, rfl⟩⟩ :=
      hinv.workerReceive (step_receive hs)
    · exact ⟨_, hinv', h.beginJob hrun hphase threads⟩
    · refine ⟨_, hinv', h.quiet (.of_eq rfl) ?_ (fun _ _ => rfl) fun _ hv => hv⟩
      rcases hp with rfl | ⟨hbusy, hbusy'⟩
      · exact fun v => by rw [Function.update_eq_self]
      · exact hfree (loaded_of_free hbusy) (loaded_of_free hbusy')
  | finish w left r =>
    have hlog := hquiet (fun _ _ => rfl) fun _ _ _ => rfl
    obtain ⟨hinv', hpool⟩ := hinv.workerFinish (step_finish hs)
    obtain ⟨_, _, _, hstatus, _⟩ := workerFinish_cases (step_finish hs)
    have hphase := (hinv.fits w).eq_of_running hstatus
    exact ⟨_, hinv', h.quiet hlog (hfree (by rw [hphase]; rfl) rfl) (fun v _ => by rw [hpool])
      fun v hv => hpool ▸ hv⟩

end Handed

variable [DecidableEq κ] [Fintype κ] {cfg : PoolConfig κ}

theorem handed_of_run {es : List (PoolEvent κ)}
    (hrun : Transition.run (Sys.step cfg) (init cfg) es = some s) :
    ∃ f, s.Inv cfg f ∧ s.Handed f := by
  refine Transition.run_induction (P := fun s => ∃ f, s.Inv cfg f ∧ s.Handed f) ?_ ?_ hrun
  · have hfree : ∀ w, (startPhase cfg w).loaded = false := fun w => by
      cases w with
      | untagged i => rfl
      | tagged t => rw [startPhase]; split <;> rfl
    refine ⟨_, init_inv cfg, fun w hw => ?_, fun w => ?_, fun _ _ => rfl,
      fun _ _ _ hm => by cases hm⟩
    · rw [hfree] at hw
      cases hw
    · rw [heldIn_of_free (hfree w)]
      rfl
  · rintro _ s e s' _ ⟨f, hinv, h⟩ hs
    exact h.step hinv hs

/-! ## All workers together -/

/-- The commands that have been called. -/
def calls (s : Sys κ) : List (Arrival κ) := (s.log.filterMap LogEntry.called).map Prod.snd

/-- The workers that hold a command and have not begun with it. -/
def holders (s : Sys κ) (a : Arrival κ) : Finset Worker :=
  s.pool.roster.filter fun w => s.held w = some a

theorem Inv.heldIn_eq (h : s.Inv cfg f) (w : Worker) : s.heldIn f w = s.held w := by
  rw [heldIn, held, (h.fits w).loaded_eq]

omit [Fintype κ] in
/-- What has been handed out, as the log has it. -/
theorem count_command_eq (s : Sys κ) (a : Arrival κ) :
    (s.log.filterMap LogEntry.command).count (.command a) =
      ((s.log.filterMap LogEntry.given).map Prod.snd).count a := by
  induction s.log with
  | nil => rfl
  | cons e log ih =>
    rcases e with _ | ⟨w, (b | t) | bj⟩ | _ | _ | _ | _ | _
    case dispatched.pending.command =>
      simp only [List.filterMap_cons, LogEntry.command, LogEntry.given, Load.arrival,
        Option.map_some,
        List.map_cons, List.count_cons, ih, beq_iff_eq, PendingCommand.command.injEq]
    case dispatched.pending.injected =>
      simp only [List.filterMap_cons, LogEntry.command, LogEntry.given, Load.arrival,
        Option.map_none, List.count_cons, ih, beq_iff_eq, reduceCtorEq, if_false, Nat.add_zero]
    all_goals exact ih

/-- **Every command that has been handed out has been called once, or one worker holds it.** -/
theorem Handed.calls_add_held (h : s.Handed f) (hinv : s.Inv cfg f) (a : Arrival κ) :
    (s.log.filterMap LogEntry.command).count (.command a) =
      s.calls.count a + (s.holders a).card := by
  have hknown : ∀ w, s.given w ≠ [] → w ∈ s.pool.roster := fun w hw => by
    rw [Pool.mem_roster]
    by_contra hnone
    exact hw (h.known w (by simpa using hnone))
  have hgiven : ∀ p ∈ s.log.filterMap LogEntry.given, p.1 ∈ s.pool.roster := fun p hp =>
    hknown p.1 (List.ne_nil_of_mem (mem_valuesOf.2 hp))
  have hcalled : ∀ p ∈ s.log.filterMap LogEntry.called, p.1 ∈ s.pool.roster := fun p hp => by
    refine hknown p.1 (List.ne_nil_of_mem (a := p.2) ?_)
    rw [h.order]
    exact List.mem_append_left _ (mem_valuesOf.2 hp)
  have hheld : (s.holders a).card = ∑ w ∈ s.pool.roster, (s.held w).toList.count a := by
    rw [holders, Finset.card_filter]
    refine Finset.sum_congr rfl fun w _ => ?_
    rcases s.held w with _ | b
    · rfl
    · simp [List.count_cons]
  rw [count_command_eq, ← sum_count_valuesOf hgiven, calls, ← sum_count_valuesOf hcalled, hheld,
    ← Finset.sum_add_distrib]
  refine Finset.sum_congr rfl fun w _ => ?_
  rw [← List.count_append, ← hinv.heldIn_eq]
  exact congrArg (List.count a) (h.order w)

end Sys

end OxenMQ
