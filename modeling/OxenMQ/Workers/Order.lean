import OxenMQ.Workers.Log
import OxenMQ.Workers.Saturation

/-!
# The order in which commands are started

The commands and the tasks of a category form a line: those that have been handed to a worker, in
the order in which that happened, and then those that are in the queue (`Sys.line`).  New ones go to
the end of it (`Sys.Outcome.line`), and nothing else changes it (`Sys.SameLine`).

For the pass over the queue this is because a command that has been passed over is not overtaken by
one of its own category: the slots are getting fewer, so that what has been refused to the one is
refused to the other.  A command that is started as soon as it comes in never looks at the queue.
It overtakes nobody if what is in the queue has no slot (`Sys.PendingFull`), and that is a matter of
when it comes in.
-/

set_option autoImplicit false

namespace OxenMQ

variable {κ : Type}

/-- The command or the task that is handed to a worker. -/
def LogEntry.command : LogEntry κ → Option (PendingCommand κ)
  | .dispatched _ (.pending p) => some p
  | _ => none

/-- What is handed to a worker, and to which one. -/
def LogEntry.load : LogEntry κ → Option (Worker × Load κ)
  | .dispatched w l => some (w, l)
  | _ => none

theorem LogEntry.command_of_load {e : LogEntry κ} (h : e.load = none) : e.command = none := by
  cases e <;> first | rfl | cases h

variable [DecidableEq κ]

/-- The ones that belong to a category. -/
def ofCat (c : κ) (l : List (PendingCommand κ)) : List (PendingCommand κ) :=
  l.filter fun p => decide (p.cat = c)

@[simp] theorem ofCat_append (c : κ) (l l' : List (PendingCommand κ)) :
    ofCat c (l ++ l') = ofCat c l ++ ofCat c l' := List.filter_append ..

theorem ofCat_eq_nil {c : κ} {l : List (PendingCommand κ)} :
    ofCat c l = [] ↔ ∀ p ∈ l, p.cat ≠ c := by
  rw [ofCat, List.filter_eq_nil_iff]
  exact forall₂_congr fun p _ => by rw [decide_eq_true_iff]

theorem ofCat_singleton (p : PendingCommand κ) : ofCat p.cat [p] = [p] := by
  simp [ofCat]

theorem ofCat_singleton_of_ne {c : κ} {p : PendingCommand κ} (h : p.cat ≠ c) : ofCat c [p] = [] :=
  ofCat_eq_nil.2 fun q hq => by rwa [List.mem_singleton.1 hq]

namespace Sys

variable {cfg : PoolConfig κ} {s s' : Sys κ}

/-- The commands and the tasks of a category that have been handed to a worker. -/
def started (s : Sys κ) (c : κ) : List (PendingCommand κ) :=
  ofCat c (s.log.filterMap LogEntry.command)

/-- The ones that are in the queue. -/
def waiting (s : Sys κ) (c : κ) : List (PendingCommand κ) := ofCat c s.pool.pendingCommands

def line (s : Sys κ) (c : κ) : List (PendingCommand κ) := s.started c ++ s.waiting c

/-- Nobody has joined or left the line. -/
structure SameLine (s s' : Sys κ) : Prop where
  line : ∀ c, s'.line c = s.line c
  pending : List.Sublist s'.pool.pendingCommands s.pool.pendingCommands

theorem SameLine.refl (s : Sys κ) : SameLine s s := ⟨fun _ => rfl, .refl _⟩

theorem SameLine.trans {s'' : Sys κ} (h : SameLine s s') (h' : SameLine s' s'') : SameLine s s'' :=
  ⟨fun c => (h'.line c).trans (h.line c), h'.pending.trans h.pending⟩

/-! ## Steps that start no command -/

theorem sameLine_of_log (hpending : s'.pool.pendingCommands = s.pool.pendingCommands)
    {l : List (LogEntry κ)} (hlog : s'.log = s.log ++ l) (hl : ∀ e ∈ l, e.command = none) :
    SameLine s s' := by
  have hnone : l.filterMap LogEntry.command = [] := List.filterMap_eq_nil_iff.2 hl
  refine ⟨fun c => ?_, by rw [hpending]⟩
  rw [line, line, waiting, waiting, hpending, started, started, hlog, List.filterMap_append, hnone,
    List.append_nil]

/-- No worker has been given anything. -/
def Quiet (s s' : Sys κ) : Prop := Logs (fun e => e.load = none) s s'

/-- Most steps hand nothing to anybody. -/
theorem quiet_of_step {e : PoolEvent κ} (h : Sys.step cfg s e = some s')
    (he : ∀ w l, LogEntry.isFrom e (.dispatched w l) = false) : Quiet s s' := by
  refine (step_log h).mono fun x hx => ?_
  cases x with
  | dispatched w l => exact absurd ((he w l).symm.trans hx) Bool.false_ne_true
  | _ => rfl

theorem Quiet.sameLine (h : Quiet s s')
    (hpending : s'.pool.pendingCommands = s.pool.pendingCommands) : SameLine s s' := by
  obtain ⟨es, hlog, hes⟩ := h
  exact sameLine_of_log hpending hlog fun e he => LogEntry.command_of_load (hes e he)

theorem sameLine_of_thread {e : PoolEvent κ}
    (he : (∃ w, e = .receive w) ∨ ∃ w left r, e = .finish w left r)
    (h : Sys.step cfg s e = some s') : SameLine s s' := by
  obtain ⟨g, v, hpool, _⟩ := pool_of_thread he h
  refine (quiet_of_step h ?_).sameLine ?_
  · rcases he with ⟨w, rfl⟩ | ⟨w, left, r, rfl⟩ <;> exact fun _ _ => rfl
  · rw [hpool]
    cases v <;> rfl

theorem sameLine_of_workerMessage {w : Worker} (h : Sys.step cfg s (.workerMessage w) = some s') :
    SameLine s s' := by
  refine (quiet_of_step h fun _ _ => rfl).sameLine ?_
  obtain ⟨run, rest, hrun, ⟨_, rfl⟩ | ⟨_, rfl⟩⟩ := proxyWorkerMessage_cases (step_workerMessage h)
  · exact pendingCommands_workerRan (s.takeReply w rest) w run
  · cases w <;> rfl

theorem sameLine_of_jobs {es : List (PoolEvent κ)}
    (hes : ∀ e ∈ es, (∃ spec, e = .submit spec) ∨ ∃ f, e = .replyJob f)
    (hrun : Transition.run (Sys.step cfg) s es = some s') : SameLine s s' := by
  refine Quiet.sameLine (run_log hrun fun e he x hx => ?_) (sameBooks_of_jobs hes hrun).pending
  rcases hes e he with ⟨spec, rfl⟩ | ⟨f, rfl⟩ <;> cases x <;> first | rfl | cases hx

/-! ## The pass over the queues -/

theorem sameLine_startTagged (s : Sys κ) (t : ℕ) : SameLine s (s.startTagged t) := by
  rcases s.startTagged_cases t with ⟨heq, _⟩ | ⟨tw, bj, rest, ht, hb, hq⟩
  · rw [heq]
    exact .refl s
  · obtain ⟨run, _, hpool, hlog⟩ := s.startTagged_pool ht hb hq
    refine sameLine_of_log (by rw [hpool]) hlog fun e he => ?_
    rw [List.mem_singleton.1 he]
    rfl

/-- A job of a batch that is started leaves the line alone. -/
theorem sameLine_startJob (s : Sys κ) (reply : Bool) (bj : BatchJob) (rest : List BatchJob) :
    SameLine s
      ((s.setJobQueue reply rest).dispatch (jobKind reply) (.batch bj reply false)) := by
  obtain ⟨_, _, _, _, hpending⟩ := s.startJob_spec reply bj rest
  obtain ⟨i, _, _, _, _, hlog⟩ :=
    (s.setJobQueue reply rest).dispatch_pool (jobKind reply) (.batch bj reply false)
  refine sameLine_of_log hpending hlog fun e he => ?_
  rw [List.mem_singleton.1 he]
  rfl

/-- A command that is started joins those of its category that have been. -/
theorem started_of_log {w : Worker} {p : PendingCommand κ}
    (hlog : s'.log = s.log ++ [.dispatched w (.pending p)]) (c : κ) :
    s'.started c = s.started c ++ ofCat c [p] := by
  rw [started, hlog, List.filterMap_append, ofCat_append]
  rfl

/-- A command that is taken out of the queue overtakes nobody, if nobody of its category is in front
of it. -/
theorem sameLine_startPending {pre post : List (PendingCommand κ)} {p : PendingCommand κ}
    (hq : s.pool.pendingCommands = pre ++ p :: post) (hpre : ∀ q ∈ pre, q.cat ≠ p.cat) :
    SameLine s (s.startPending p (pre ++ post)) := by
  refine ⟨fun c => ?_, ?_⟩
  · obtain ⟨i, _, _, _, _, hlog⟩ := s.dispatch_pool (.category p.cat) (.pending p)
    have hstarted : (s.startPending p (pre ++ post)).started c = s.started c ++ ofCat c [p] :=
      started_of_log hlog c
    have hwaiting : (s.startPending p (pre ++ post)).waiting c = ofCat c pre ++ ofCat c post :=
      ofCat_append ..
    have hbefore : s.waiting c = ofCat c pre ++ (ofCat c [p] ++ ofCat c post) := by
      rw [waiting, hq, ofCat_append, ← List.singleton_append, ofCat_append]
    rw [line, line, hstarted, hwaiting, hbefore, List.append_assoc]
    rcases eq_or_ne p.cat c with rfl | hne
    · rw [ofCat_eq_nil.2 hpre, List.nil_append, List.nil_append]
    · rw [ofCat_singleton_of_ne hne, List.nil_append, List.nil_append]
  · rw [hq]
    exact (List.Sublist.refl pre).append (List.sublist_cons_self p post)

/-- **The pass over the queues leaves the line alone.** -/
theorem sameLine_proxyProcessQueue (s : Sys κ) : SameLine s (s.proxyProcessQueue cfg) := by
  unfold proxyProcessQueue
  split
  · exact .refl s
  have htagged : SameLine s ((List.range s.pool.taggedWorkers.length).foldl startTagged s) :=
    List.foldlRecOn _ _ (motive := fun s₁ : Sys κ => SameLine s s₁) (.refl s)
      fun s₁ h t _ => h.trans (s₁.sameLine_startTagged t)
  have hjobs : ∀ reply fuel (s₁ : Sys κ), SameLine s₁ (proxyRunBatchJobs cfg reply fuel s₁) :=
    fun reply fuel s₁ => proxyRunBatchJobs_induction (P := fun s₂ => SameLine s₁ s₂)
      (fun s₂ bj rest h _ _ => h.trans (s₂.sameLine_startJob reply bj rest)) fuel (.refl s₁)
  have hpending : ∀ s₁ : Sys κ, SameLine s₁ (runPending cfg [] s₁.pool.pendingCommands s₁) := by
    intro s₁
    refine (runPending_passed (P := fun s₂ => SameLine s₁ s₂) ?_ [] _ rfl nofun (.refl s₁)).1
    -- whoever has been passed over is of another category
    intro s₂ pre p post h hq hmay hpre
    refine h.trans (sameLine_startPending hq fun q hq heq => ?_)
    exact Bool.false_ne_true ((hpre q hq).symm.trans (heq ▸ hmay))
  exact ((htagged.trans (hjobs ..)).trans (hjobs ..)).trans (hpending _)

/-! ## What comes in -/

/-- What becomes of the command or task `p` that comes in between `s` and `s'`, with the reason. -/
inductive Outcome (cfg : PoolConfig κ) (s s' : Sys κ) (p : PendingCommand κ) : Prop
  /-- It is handed to a worker at once.  Nothing of its category is waiting then, and if it takes a
  general slot nothing is waiting at all. -/
  | dispatched (w : Worker) (hlog : s'.log = s.log ++ [.dispatched w (.pending p)])
      (hpending : s'.pool.pendingCommands = s.pool.pendingCommands)
      (hcat : s.waiting p.cat = [])
      (hgeneral : s.pool.activeWorkers < cfg.generalWorkers → s.pool.pendingCommands = [])
  /-- It is put in the queue. -/
  | queued (hlog : s'.log = s.log)
      (hpending : s'.pool.pendingCommands = s.pool.pendingCommands ++ [p])
      (hroom : 0 ≤ cfg.maxQueue p.cat → ((s.waiting p.cat).length : ℤ) < cfg.maxQueue p.cat)
  /-- It is dropped.  There is no slot for it, and its queue is full. -/
  | dropped (hlog : s'.log = s.log)
      (hpending : s'.pool.pendingCommands = s.pool.pendingCommands)
      (hfull : s.Full cfg (.category p.cat)) (hnonneg : 0 ≤ cfg.maxQueue p.cat)
      (hqueue : cfg.maxQueue p.cat ≤ ((s.waiting p.cat).length : ℤ))

theorem outcome_accept [Fintype κ] {f : Worker → Phase} (h : s.Inv cfg f)
    (hfull : s.PendingFull cfg) (p : PendingCommand κ) : Outcome cfg s (s.accept cfg p) p := by
  have hqueued : s.pool.queued p.cat = ((s.waiting p.cat).length : ℤ) := by
    rw [h.queued, List.countP_eq_length_filter]
    rfl
  unfold accept
  split
  · rename_i hslot
    unfold queueCommand
    split
    · rename_i hqueue
      rw [Pool.queueFull, Bool.and_eq_true, decide_eq_true_iff, decide_eq_true_iff,
        hqueued] at hqueue
      exact .dropped rfl rfl (noSlot_iff.1 hslot) hqueue.1 hqueue.2
    · rename_i hqueue
      rw [Pool.queueFull, Bool.and_eq_true, decide_eq_true_iff, decide_eq_true_iff, hqueued,
        not_and, not_le] at hqueue
      exact .queued rfl rfl hqueue
  · rename_i hslot
    rw [noSlot_iff] at hslot
    obtain ⟨i, _, _, _, _, hlog⟩ := s.dispatch_pool (.category p.cat) (.pending p)
    obtain ⟨_, _, _, _, hpending⟩ := s.dispatch_queues (.category p.cat) (.pending p)
    refine .dispatched (.untagged i) hlog hpending ?_ fun hgeneral => ?_
    · exact ofCat_eq_nil.2 fun q hq heq => hslot (heq ▸ hfull q hq)
    · refine List.eq_nil_iff_forall_not_mem.2 fun q hq => ?_
      have hle := (hfull q hq).2
      omega

/-- Whoever is not dropped joins the line at its end. -/
theorem Outcome.line {p : PendingCommand κ} (h : Outcome cfg s s' p) (c : κ) :
    s'.line c = s.line c ++ ofCat c
      (if s'.log = s.log ∧ s'.pool.pendingCommands = s.pool.pendingCommands then [] else [p]) := by
  cases h with
  | dispatched w hlog hpending hcat hgeneral =>
    have hwaiting : s'.waiting c = s.waiting c := by rw [Sys.waiting, hpending, Sys.waiting]
    rw [if_neg (by simp [hlog]), Sys.line, Sys.line, started_of_log hlog, hwaiting,
      List.append_assoc, List.append_assoc]
    rcases eq_or_ne p.cat c with rfl | hne
    · rw [hcat, List.append_nil, List.nil_append]
    · rw [ofCat_singleton_of_ne hne, List.append_nil, List.nil_append]
  | queued hlog hpending hroom =>
    have hwaiting : s'.waiting c = s.waiting c ++ ofCat c [p] := by
      rw [Sys.waiting, hpending, ofCat_append, Sys.waiting]
    rw [if_neg (by simp [hpending]), Sys.line, Sys.line, hwaiting, Sys.started, hlog, Sys.started,
      List.append_assoc]
  | dropped hlog hpending hfull hnonneg hqueue =>
    rw [if_pos ⟨hlog, hpending⟩, Sys.line, Sys.line, Sys.waiting, hpending, Sys.waiting,
      Sys.started, hlog, Sys.started]
    exact (List.append_nil _).symm

/-- No queue is longer than its category allows. -/
def Bounded (cfg : PoolConfig κ) (s : Sys κ) : Prop :=
  ∀ c, 0 ≤ cfg.maxQueue c → ((s.waiting c).length : ℤ) ≤ cfg.maxQueue c

theorem Bounded.sameLine (h : s.Bounded cfg) (hline : SameLine s s') : s'.Bounded cfg := by
  intro c hc
  have hle := (hline.pending.filter fun p => decide (p.cat = c)).length_le
  exact (Int.ofNat_le.2 hle).trans (h c hc)

theorem Bounded.outcome {p : PendingCommand κ} (h : s.Bounded cfg) (hout : Outcome cfg s s' p) :
    s'.Bounded cfg := by
  intro c hc
  have hbefore := h c hc
  cases hout with
  | dispatched w hlog hpending hcat hgeneral => rwa [waiting, hpending]
  | queued hlog hpending hroom =>
    rw [waiting, hpending, ofCat_append, List.length_append]
    rcases eq_or_ne p.cat c with rfl | hne
    · rw [ofCat_singleton, List.length_singleton]
      have hlt := hroom hc
      rw [waiting] at hlt
      omega
    · rwa [ofCat_singleton_of_ne hne]
  | dropped hlog hpending hfull hnonneg hqueue => rwa [waiting, hpending]

end Sys

end OxenMQ
