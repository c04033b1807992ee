import OxenMQ.Workers.Preservation

/-!
# What could start has started

`proxy_process_queue` goes over the queues once: the tagged threads, the jobs of batches, the reply
jobs and the commands.  All but the tagged threads share the same workers, so that what starts later
takes slots that an earlier queue has been refused.  The pass is enough all the same, because while
it goes on the workers only get busier: what may not start when its turn comes may not start at the
end either.

`Sys.Saturated` says that nothing is left that could start.  The pass leads to it, and neither a
command nor an injected task spoils it: there is a slot for it, or it has to wait for want of one
(`Sys.accept`).
-/

set_option autoImplicit false

namespace OxenMQ

variable {κ : Type}

namespace Sys

section

variable {cfg : PoolConfig κ} {s s' : Sys κ} {k : Kind κ}

/-! ## Slots -/

/-- There is neither a reserved nor a general slot for a job of this kind. -/
def Full (cfg : PoolConfig κ) (s : Sys κ) (k : Kind κ) : Prop :=
  (cfg.reserved k : ℤ) ≤ s.pool.active k ∧ (cfg.generalWorkers : ℤ) ≤ s.pool.activeWorkers

theorem full_iff_not_slot : s.Full cfg k ↔ ¬ s.Slot cfg k := by
  rw [Slot, not_or, not_lt, not_lt]
  rfl

theorem noSlot_iff {c : κ} : s.pool.noSlot cfg c = true ↔ s.Full cfg (.category c) := by
  rw [Pool.noSlot, Bool.and_eq_true, decide_eq_true_iff, decide_eq_true_iff]
  rfl

/-- No command is left in the queue that could start. -/
def PendingFull (cfg : PoolConfig κ) (s : Sys κ) : Prop :=
  ∀ p ∈ s.pool.pendingCommands, s.Full cfg (.category p.cat)

/-- Nothing is left in a queue that could start. -/
structure Saturated (cfg : PoolConfig κ) (s : Sys κ) : Prop where
  tagged : ∀ tw ∈ s.pool.taggedWorkers, tw.Settled
  jobs : ∀ reply, s.jobQueue reply ≠ [] → s.Full cfg (jobKind reply)
  pending : s.PendingFull cfg

/-- Workers have been given jobs, and none has become free. -/
structure Busier (s s' : Sys κ) : Prop where
  active : ∀ k, s.pool.active k ≤ s'.pool.active k
  activeWorkers : s.pool.activeWorkers ≤ s'.pool.activeWorkers
  maxWorkers : s'.pool.maxWorkers = s.pool.maxWorkers

theorem Busier.refl (s : Sys κ) : Busier s s := ⟨fun _ => le_rfl, le_rfl, rfl⟩

theorem Busier.trans {s'' : Sys κ} (h : Busier s s') (h' : Busier s' s'') : Busier s s'' :=
  ⟨fun k => (h.active k).trans (h'.active k), h.activeWorkers.trans h'.activeWorkers,
    h'.maxWorkers.trans h.maxWorkers⟩

theorem Busier.full (h : Busier s s') (hfull : s.Full cfg k) : s'.Full cfg k :=
  ⟨hfull.1.trans (h.active k), hfull.2.trans h.activeWorkers⟩

theorem mayStart_iff : s.mayStart cfg k = true ↔
    s.pool.activeWorkers < s.pool.maxWorkers ∧ s.Slot cfg k := by
  rw [mayStart, Bool.and_eq_true, Bool.or_eq_true, decide_eq_true_iff, decide_eq_true_iff,
    decide_eq_true_iff]
  rfl

/-- What may not start may not start later either. -/
theorem Busier.mayStart (h : Busier s s') (hmay : s'.mayStart cfg k = true) :
    s.mayStart cfg k = true := by
  obtain ⟨hlt, hslot⟩ := mayStart_iff.1 hmay
  rw [h.maxWorkers] at hlt
  refine mayStart_iff.2 ⟨h.activeWorkers.trans_lt hlt, ?_⟩
  by_contra hnot
  exact full_iff_not_slot.1 (h.full (full_iff_not_slot.2 hnot)) hslot

/-! ## Tagged threads -/

/-- After its turn a tagged thread has nothing to start, and the others are as before. -/
theorem startTagged_tagged {t u : ℕ} {tw' : TaggedWorker κ}
    (h : (s.startTagged t).pool.taggedWorkers[u]? = some tw') :
    ∃ tw, s.pool.taggedWorkers[u]? = some tw ∧
      (tw'.Settled ∨ u ≠ t ∧ tw'.busy = tw.busy ∧ tw'.queue = tw.queue) := by
  rcases s.startTagged_cases t with ⟨heq, hsettled⟩ | ⟨tw₀, bj, rest, ht, hb, hq⟩
  · rw [heq] at h
    refine ⟨tw', h, ?_⟩
    rcases eq_or_ne u t with rfl | hne
    · exact Or.inl (hsettled tw' h)
    · exact Or.inr ⟨hne, rfl, rfl⟩
  · have hlt : t < s.pool.taggedWorkers.length := (List.getElem?_eq_some_iff.1 ht).1
    obtain ⟨run, _, hpool, _⟩ := s.startTagged_pool ht hb hq
    rw [hpool] at h
    rcases eq_or_ne u t with rfl | hne
    · rw [List.getElem?_set_self hlt] at h
      cases h
      exact ⟨tw₀, ht, Or.inl (Or.inl rfl)⟩
    · rw [List.getElem?_set_ne hne.symm] at h
      exact ⟨tw', h, Or.inr ⟨hne, rfl, rfl⟩⟩

theorem foldl_startTagged_tagged (ts : List ℕ) {s : Sys κ} {u : ℕ} {tw' : TaggedWorker κ}
    (h : (ts.foldl startTagged s).pool.taggedWorkers[u]? = some tw') :
    ∃ tw, s.pool.taggedWorkers[u]? = some tw ∧
      (tw'.Settled ∨ u ∉ ts ∧ tw'.busy = tw.busy ∧ tw'.queue = tw.queue) := by
  induction ts generalizing s with
  | nil => exact ⟨tw', h, Or.inr ⟨List.not_mem_nil, rfl, rfl⟩⟩
  | cons t ts ih =>
    obtain ⟨tw₁, h₁, hts⟩ := ih h
    obtain ⟨tw, htw, ht⟩ := startTagged_tagged h₁
    refine ⟨tw, htw, ?_⟩
    rcases hts with hsettled | ⟨hnot, hbusy, hqueue⟩
    · exact Or.inl hsettled
    rcases ht with hsettled | ⟨hne, hbusy', hqueue'⟩
    · rw [TaggedWorker.Settled, ← hbusy, ← hqueue] at hsettled
      exact Or.inl hsettled
    · exact Or.inr ⟨List.not_mem_cons_of_ne_of_not_mem hne hnot, hbusy.trans hbusy',
        hqueue.trans hqueue'⟩

end

variable [DecidableEq κ] {cfg : PoolConfig κ} {s s' : Sys κ}

/-! ## The pass over the queues -/

theorem busier_dispatch (s : Sys κ) (k : Kind κ) (l : Load κ) : Busier s (s.dispatch k l) := by
  obtain ⟨_, workers, count, hpool, hactive, _⟩ := s.dispatch_pool k l
  refine ⟨fun j => ?_, ?_, ?_⟩ <;> rw [hpool]
  · have hsame : ({ s.pool with workers := workers, idleWorkerCount := count } : Pool κ).active =
        s.pool.active := funext fun j => by cases j <;> rfl
    rw [Pool.active_addActive, hsame]
    rcases eq_or_ne j k with rfl | hne
    · rw [Function.update_self]
      omega
    · rw [Function.update_of_ne hne]
  · rw [Pool.activeWorkers_addActive]
    show s.pool.activeWorkers ≤ (workers.length : ℤ) - count
    omega
  · rw [Pool.maxWorkers_addActive]

theorem jobQueue_dispatch (s : Sys κ) (k : Kind κ) (l : Load κ) (reply : Bool) :
    (s.dispatch k l).jobQueue reply = s.jobQueue reply := by
  obtain ⟨hbatch, hreply, _⟩ := s.dispatch_queues k l
  rw [jobQueue, jobQueue, hbatch, hreply]

/-- What a job that is taken off a queue changes. -/
theorem startJob_spec (s : Sys κ) (reply : Bool) (bj : BatchJob) (rest : List BatchJob) :
    let s' := (s.setJobQueue reply rest).dispatch (jobKind reply) (.batch bj reply false)
    Busier s s' ∧ s'.jobQueue reply = rest ∧ s'.jobQueue (!reply) = s.jobQueue (!reply) ∧
      s'.pool.taggedWorkers = s.pool.taggedWorkers ∧
      s'.pool.pendingCommands = s.pool.pendingCommands := by
  intro s'
  obtain ⟨_, _, htagged, _, hpending⟩ :=
    (s.setJobQueue reply rest).dispatch_queues (jobKind reply) (.batch bj reply false)
  have hset : Busier s (s.setJobQueue reply rest) := by
    cases reply <;> exact ⟨fun j => by cases j <;> exact le_rfl, le_rfl, rfl⟩
  refine ⟨hset.trans (busier_dispatch ..), ?_, ?_, ?_, ?_⟩
  · rw [jobQueue_dispatch]
    cases reply <;> rfl
  · rw [jobQueue_dispatch]
    cases reply <;> rfl
  · rw [htagged]
    cases reply <;> rfl
  · rw [hpending]
    cases reply <;> rfl

/-- The pass over a queue of jobs ends with an empty queue, or with a job that may not start. -/
theorem proxyRunBatchJobs_blocked (reply : Bool) (fuel : ℕ) {s : Sys κ}
    (hfuel : (s.jobQueue reply).length ≤ fuel) :
    (proxyRunBatchJobs cfg reply fuel s).jobQueue reply = [] ∨
      (proxyRunBatchJobs cfg reply fuel s).mayStart cfg (jobKind reply) = false := by
  induction fuel generalizing s with
  | zero => exact Or.inl (List.eq_nil_of_length_eq_zero (Nat.le_zero.1 hfuel))
  | succ fuel ih =>
    unfold proxyRunBatchJobs
    split
    · rename_i hnil
      exact Or.inl hnil
    · rename_i bj rest hq
      rw [hq, List.length_cons] at hfuel
      split
      · refine ih ?_
        rw [(s.startJob_spec reply bj rest).2.1]
        omega
      · rename_i hmay
        exact Or.inr (Bool.not_eq_true _ ▸ hmay)

variable (cfg) in
/-- What the pass over a queue of jobs leaves alone. -/
theorem proxyRunBatchJobs_spec (reply : Bool) (fuel : ℕ) (s : Sys κ) :
    let s' := proxyRunBatchJobs cfg reply fuel s
    Busier s s' ∧ s'.jobQueue (!reply) = s.jobQueue (!reply) ∧
      s'.pool.taggedWorkers = s.pool.taggedWorkers ∧
      s'.pool.pendingCommands = s.pool.pendingCommands := by
  refine proxyRunBatchJobs_induction (P := fun s' => Busier s s' ∧
    s'.jobQueue (!reply) = s.jobQueue (!reply) ∧ s'.pool.taggedWorkers = s.pool.taggedWorkers ∧
    s'.pool.pendingCommands = s.pool.pendingCommands) ?_ fuel ⟨.refl s, rfl, rfl, rfl⟩
  rintro s₁ bj rest ⟨hbusier, hother, htagged, hpending⟩ _ _
  obtain ⟨hbusier', _, hother', htagged', hpending'⟩ := s₁.startJob_spec reply bj rest
  exact ⟨hbusier.trans hbusier', hother'.trans hother, htagged'.trans htagged,
    hpending'.trans hpending⟩

/-- What a command that is taken out of the queue changes. -/
theorem startPending_spec (s : Sys κ) (p : PendingCommand κ) (rest : List (PendingCommand κ)) :
    let s' := s.startPending p rest
    Busier s s' ∧ (∀ reply, s'.jobQueue reply = s.jobQueue reply) ∧
      s'.pool.taggedWorkers = s.pool.taggedWorkers ∧ s'.pool.pendingCommands = rest := by
  have h := s.busier_dispatch (.category p.cat) (.pending p)
  have hjobs := s.jobQueue_dispatch (.category p.cat) (.pending p)
  have htagged := (s.dispatch_queues (.category p.cat) (.pending p)).2.2.1
  unfold startPending
  generalize s.dispatch (.category p.cat) (.pending p) = s₁ at h hjobs htagged ⊢
  refine ⟨⟨fun j => ?_, h.activeWorkers, h.maxWorkers⟩, fun reply => ?_, htagged, rfl⟩
  · have hj := h.active j
    cases j <;> exact hj
  · have hq := hjobs reply
    cases reply <;> exact hq

variable (cfg) in
/-- What the pass over the commands leaves alone. -/
theorem runPending_spec (kept todo : List (PendingCommand κ)) {s : Sys κ}
    (hq : s.pool.pendingCommands = kept ++ todo) :
    let s' := runPending cfg kept todo s
    Busier s s' ∧ (∀ reply, s'.jobQueue reply = s.jobQueue reply) ∧
      s'.pool.taggedWorkers = s.pool.taggedWorkers := by
  refine runPending_induction (P := fun s' => Busier s s' ∧
    (∀ reply, s'.jobQueue reply = s.jobQueue reply) ∧
    s'.pool.taggedWorkers = s.pool.taggedWorkers) ?_ kept todo hq ⟨.refl s, fun _ => rfl, rfl⟩
  rintro s₁ pre p post ⟨hbusier, hjobs, htagged⟩ _ _
  obtain ⟨hbusier', hjobs', htagged', _⟩ := s₁.startPending_spec p (pre ++ post)
  exact ⟨hbusier.trans hbusier', fun reply => (hjobs' reply).trans (hjobs reply),
    htagged'.trans htagged⟩

/-- **The rule for the pass over the commands.**  The ones that are passed over may not start, and
as the slots are getting fewer they may not start later either. -/
theorem runPending_passed {P : Sys κ → Prop}
    (hstart : ∀ s pre p post, P s → s.pool.pendingCommands = pre ++ p :: post →
      s.mayStart cfg (.category p.cat) = true →
      (∀ q ∈ pre, s.mayStart cfg (.category q.cat) = false) → P (s.startPending p (pre ++ post)))
    (kept todo : List (PendingCommand κ)) {s : Sys κ}
    (hq : s.pool.pendingCommands = kept ++ todo)
    (hkept : ∀ p ∈ kept, s.mayStart cfg (.category p.cat) = false) (h : P s) :
    P (runPending cfg kept todo s) ∧
      ∀ p ∈ (runPending cfg kept todo s).pool.pendingCommands,
        (runPending cfg kept todo s).mayStart cfg (.category p.cat) = false := by
  induction todo generalizing kept s with
  | nil =>
    rw [List.append_nil] at hq
    rw [runPending, hq]
    exact ⟨h, hkept⟩
  | cons p todo ih =>
    unfold runPending
    split
    · split
      · rename_i hmay
        obtain ⟨hbusier, _, _, hpending⟩ := s.startPending_spec p (kept ++ todo)
        refine ih kept hpending (fun p' hp' => ?_) (hstart s kept p todo h hq hmay hkept)
        rw [← Bool.not_eq_true]
        exact fun hmay => Bool.false_ne_true ((hkept p' hp').symm.trans (hbusier.mayStart hmay))
      · rename_i hmay
        refine ih (kept ++ [p]) (by rw [hq, List.append_assoc]; rfl) (fun p' hp' => ?_) h
        rcases List.mem_append.1 hp' with hp' | hp'
        · exact hkept p' hp'
        · rw [List.mem_singleton.1 hp']
          exact Bool.not_eq_true _ ▸ hmay
    · rename_i hfull
      refine ⟨h, fun p' _ => ?_⟩
      rw [← Bool.not_eq_true]
      exact fun hmay => hfull (mayStart_iff.1 hmay).1

/-- What a job or a command that is left behind is waiting for, while the table of workers is
open. -/
theorem Inv.full_of_mayStart [Fintype κ] {f : Worker → Phase} (h : s.Inv cfg f)
    (hopen : s.pool.maxWorkers ≠ 0) {k : Kind κ} (hmay : s.mayStart cfg k = false) :
    s.Full cfg k := by
  rw [full_iff_not_slot]
  intro hslot
  have hlt := h.activeWorkers_lt hopen hslot
  rw [← h.max.resolve_left hopen] at hlt
  exact Bool.false_ne_true (hmay.symm.trans (mayStart_iff.2 ⟨hlt, hslot⟩))

/-- The pass leaves only what may not start. -/
theorem proxyProcessQueue_blocked (hopen : s.pool.maxWorkers ≠ 0) :
    let s' := s.proxyProcessQueue cfg
    (∀ tw ∈ s'.pool.taggedWorkers, tw.Settled) ∧
    (∀ reply, s'.jobQueue reply = [] ∨ s'.mayStart cfg (jobKind reply) = false) ∧
    ∀ p ∈ s'.pool.pendingCommands, s'.mayStart cfg (.category p.cat) = false := by
  intro s'
  let s₁ := (List.range s.pool.taggedWorkers.length).foldl startTagged s
  let s₂ := proxyRunBatchJobs cfg false s₁.pool.batchJobs.length s₁
  let s₃ := proxyRunBatchJobs cfg true s₂.pool.replyJobs.length s₂
  have hs' : s' = runPending cfg [] s₃.pool.pendingCommands s₃ := if_neg hopen
  obtain ⟨_, _, htagged₂, _⟩ := s₁.proxyRunBatchJobs_spec cfg false s₁.pool.batchJobs.length
  obtain ⟨hbusier₃, hbatch₃, htagged₃, _⟩ :=
    s₂.proxyRunBatchJobs_spec cfg true s₂.pool.replyJobs.length
  obtain ⟨hbusier', hjobs', htagged'⟩ := runPending_spec cfg [] s₃.pool.pendingCommands rfl
  rw [← hs'] at hbusier' hjobs' htagged'
  -- what a queue of jobs has been refused stays refused until the end of the pass
  have hkeep : ∀ {s₀ : Sys κ} {reply : Bool}, Busier s₀ s' →
      s'.jobQueue reply = s₀.jobQueue reply →
      s₀.jobQueue reply = [] ∨ s₀.mayStart cfg (jobKind reply) = false →
      s'.jobQueue reply = [] ∨ s'.mayStart cfg (jobKind reply) = false := by
    intro s₀ reply hbusier hq h
    refine h.imp hq.trans fun hmay => ?_
    rw [← Bool.not_eq_true]
    exact fun hmay' => Bool.false_ne_true (hmay.symm.trans (hbusier.mayStart hmay'))
  refine ⟨fun tw htw => ?_, fun reply => ?_, ?_⟩
  · rw [htagged', htagged₃, htagged₂] at htw
    obtain ⟨u, hu⟩ := List.getElem?_of_mem htw
    obtain ⟨_, hsome, hsettled | ⟨hnot, _⟩⟩ := foldl_startTagged_tagged _ hu
    · exact hsettled
    · exact absurd (List.mem_range.2 (List.getElem?_eq_some_iff.1 hsome).1) hnot
  · cases reply with
    | false =>
      exact hkeep (hbusier₃.trans hbusier') ((hjobs' false).trans hbatch₃)
        (proxyRunBatchJobs_blocked false _ le_rfl)
    | true => exact hkeep hbusier' (hjobs' true) (proxyRunBatchJobs_blocked true _ le_rfl)
  · rw [hs']
    exact (runPending_passed (P := fun _ => True) (fun _ _ _ _ _ _ _ _ => trivial) [] _ rfl
      (fun _ hp => absurd hp List.not_mem_nil) trivial).2

/-- **The pass over the queues leaves nothing that could start.** -/
theorem Inv.saturated [Fintype κ] {f : Worker → Phase} (h : s.Inv cfg f)
    (hopen : s.pool.maxWorkers ≠ 0) : (s.proxyProcessQueue cfg).Saturated cfg := by
  obtain ⟨f', hinv, hdisp⟩ := h.proxyProcessQueue
  have hfull := fun k => hinv.full_of_mayStart (k := k) (hdisp.maxWorkers.trans_ne hopen)
  obtain ⟨htagged, hjobs, hpending⟩ := @proxyProcessQueue_blocked κ _ cfg s hopen
  exact ⟨htagged, fun reply hne => hfull _ ((hjobs reply).resolve_left hne),
    fun p hp => hfull _ (hpending p hp)⟩

/-! ## Between two passes -/

/-- Jobs that are queued leave the books alone. -/
theorem sameBooks_of_jobs {es : List (PoolEvent κ)}
    (hes : ∀ e ∈ es, (∃ spec, e = .submit spec) ∨ ∃ f, e = .replyJob f)
    (hrun : Transition.run (Sys.step cfg) s es = some s') : SameBooks s s' := by
  induction es generalizing s with
  | nil =>
    cases hrun
    exact .refl _
  | cons e es ih =>
    obtain ⟨s₁, hs, hrun⟩ := Transition.run_cons_eq_some.1 hrun
    refine .trans ?_ (ih (fun e he => hes e (List.mem_cons_of_mem _ he)) hrun)
    rcases hes e List.mem_cons_self with ⟨spec, rfl⟩ | ⟨f, rfl⟩
    · obtain ⟨_, rfl⟩ := step_submit_cases hs
      exact sameBooks_submit s spec
    · obtain rfl := step_replyJob hs
      exact sameBooks_proxyScheduleReplyJob s f

section SameBooks

omit [DecidableEq κ]

theorem PendingFull.busier (h : s.PendingFull cfg) (hbusier : Busier s s')
    (hpending : ∀ p ∈ s'.pool.pendingCommands,
      p ∈ s.pool.pendingCommands ∨ s'.Full cfg (.category p.cat)) : s'.PendingFull cfg :=
  fun p hp => (hpending p hp).elim (fun hold => hbusier.full (h p hold)) id

theorem SameBooks.busier (h : SameBooks s s') : Busier s s' := by
  obtain ⟨_, _, _, hp, _⟩ := h.pool
  refine ⟨fun k => ?_, ?_, ?_⟩ <;> rw [hp]
  · cases k <;> exact le_rfl
  · exact le_rfl

/-- New jobs do not matter to the commands in the queue. -/
theorem SameBooks.pendingFull (h : SameBooks s s') (hfull : s.PendingFull cfg) :
    s'.PendingFull cfg := by
  refine hfull.busier h.busier fun p hp => Or.inl ?_
  rwa [h.pending] at hp

end SameBooks

/-- What `proxy_to_worker` and `proxy_inject_task` have in common. -/
def accept (cfg : PoolConfig κ) (s : Sys κ) (p : PendingCommand κ) : Sys κ :=
  if s.pool.noSlot cfg p.cat then s.queueCommand cfg p
  else s.dispatch (.category p.cat) (.pending p)

theorem proxyToWorker_eq {a : Arrival κ} (htag : a.callback.isRequest = true → a.dataParts ≠ []) :
    s.proxyToWorker cfg a = s.accept cfg (.command a) := by
  have hnot : ¬ (a.callback.isRequest && a.dataParts.isEmpty) = true := by
    simpa [List.isEmpty_iff] using htag
  rw [proxyToWorker, if_neg hnot]
  rfl

variable (cfg) in
/-- A command or a task takes a slot, or it is put in the queue because there is none. -/
theorem accept_spec (s : Sys κ) (p : PendingCommand κ) :
    Busier s (s.accept cfg p) ∧ (s.accept cfg p).pool.taggedWorkers = s.pool.taggedWorkers ∧
      (∀ reply, (s.accept cfg p).jobQueue reply = s.jobQueue reply) ∧
      ∀ q ∈ (s.accept cfg p).pool.pendingCommands,
        q ∈ s.pool.pendingCommands ∨ (s.accept cfg p).Full cfg (.category q.cat) := by
  unfold accept
  split
  · rename_i hslot
    have hfull := noSlot_iff.1 hslot
    unfold queueCommand
    split
    · exact ⟨.refl s, rfl, fun _ => rfl, fun q => Or.inl⟩
    · refine ⟨⟨fun k => by cases k <;> exact le_rfl, le_rfl, rfl⟩, rfl, fun _ => rfl,
        fun q hq => ?_⟩
      refine (List.mem_append.1 hq).imp_right fun hq => ?_
      rw [List.mem_singleton.1 hq]
      exact hfull
  · obtain ⟨_, _, htagged, _, hpending⟩ := s.dispatch_queues (.category p.cat) (.pending p)
    refine ⟨busier_dispatch .., htagged, jobQueue_dispatch s _ _, fun q hq => Or.inl ?_⟩
    rwa [hpending] at hq

theorem PendingFull.accept (h : s.PendingFull cfg) (p : PendingCommand κ) :
    (s.accept cfg p).PendingFull cfg := by
  obtain ⟨hbusier, _, _, hpending⟩ := accept_spec cfg s p
  exact h.busier hbusier hpending

theorem Saturated.accept (h : s.Saturated cfg) (p : PendingCommand κ) :
    (s.accept cfg p).Saturated cfg := by
  obtain ⟨hbusier, htagged, hjobs, _⟩ := accept_spec cfg s p
  refine ⟨htagged ▸ h.tagged, fun reply hne => hbusier.full (h.jobs reply ?_), h.pending.accept p⟩
  rwa [hjobs] at hne

theorem accept_of_inject {t : InjectedTask κ} (h : Sys.step cfg s (.inject t) = some s') :
    s' = s.accept cfg (.injected t) :=
  (step_inject h).symm

theorem accept_of_command {a : Arrival κ} (htag : a.callback.isRequest = true → a.dataParts ≠ [])
    (h : Sys.step cfg s (.command a) = some s') : s' = s.accept cfg (.command a) := by
  rw [← proxyToWorker_eq htag]
  exact (step_command h).symm

/-- A worker only changes its own record, and not what it says about the job. -/
theorem pool_of_thread {e : PoolEvent κ}
    (he : (∃ w, e = .receive w) ∨ ∃ w left r, e = .finish w left r)
    (h : Sys.step cfg s e = some s') :
    ∃ g w, s'.pool = s.pool.modifyRun g w ∧ ∀ r, g r = r ∨ g r = { r with remote := "" } := by
  have hsame : ∀ w, s'.pool = s.pool →
      ∃ g w, s'.pool = s.pool.modifyRun g w ∧ ∀ r, g r = r ∨ g r = { r with remote := "" } :=
    fun w hpool => ⟨id, w, hpool.trans (s.pool.modifyRun_id w).symm, fun _ => Or.inl rfl⟩
  have hbegin : ∀ w run threads, s' = { s with threads := threads }.beginJob w run →
      ∃ g w, s'.pool = s.pool.modifyRun g w ∧ ∀ r, g r = r ∨ g r = { r with remote := "" } := by
    rintro w run threads rfl
    obtain ⟨g, _, _, _, heq, hg⟩ := { s with threads := threads }.beginJob_eq w run
    exact ⟨g, w, by rw [heq], hg⟩
  rcases he with ⟨w, rfl⟩ | ⟨w, left, r, rfl⟩
  · rcases workerReceive_cases (step_receive h) with ⟨run, _, _, heq⟩ |
      ⟨run, cmd, _, _, _, _, heq⟩ | ⟨_, _, _, _, heq⟩
    · exact hbegin w run s.threads heq
    · cases cmd with
      | run => exact hbegin w run _ heq
      | quit => exact hsame w (by rw [heq])
      | start => exact hsame w (by rw [heq])
    · exact hsame w (by rw [heq])
  · obtain ⟨_, _, _, _, ⟨_, _, _, heq⟩ | ⟨_, heq⟩⟩ := workerFinish_cases (step_finish h) <;>
      exact hsame w (by rw [heq])

section ModifyRun

omit [DecidableEq κ]

variable {g : RunInfo κ → RunInfo κ} {w : Worker} (hpool : s'.pool = s.pool.modifyRun g w)

include hpool

theorem busier_of_modifyRun : Busier s s' := by
  refine ⟨fun k => ?_, ?_, ?_⟩ <;> rw [hpool]
  · cases w <;> cases k <;> exact le_rfl
  · rw [Pool.activeWorkers, Pool.activeWorkers, Pool.workers_length_modifyRun]
    cases w <;> exact le_rfl
  · cases w <;> rfl

theorem PendingFull.modifyRun (h : s.PendingFull cfg) : s'.PendingFull cfg := by
  refine h.busier (busier_of_modifyRun hpool) fun p hp => Or.inl ?_
  rw [hpool] at hp
  cases w <;> exact hp

theorem Saturated.modifyRun (h : s.Saturated cfg) : s'.Saturated cfg := by
  have hbusier := busier_of_modifyRun hpool
  refine ⟨fun tw htw => ?_, fun reply hne => hbusier.full (h.jobs reply ?_),
    h.pending.modifyRun hpool⟩
  · rw [hpool] at htw
    cases w with
    | untagged i => exact h.tagged tw htw
    | tagged t =>
      obtain ⟨u, hu⟩ := List.getElem?_of_mem htw
      rw [Pool.modifyRun, List.getElem?_modify_ite] at hu
      split at hu
      · obtain ⟨tw₀, htw₀, rfl⟩ := Option.map_eq_some_iff.1 hu
        exact h.tagged tw₀ (List.mem_of_getElem? htw₀)
      · exact h.tagged tw (List.mem_of_getElem? hu)
  · rw [jobQueue, hpool] at hne
    cases w <;> exact hne

end ModifyRun

end Sys

end OxenMQ
