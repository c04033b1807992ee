import OxenMQ.Workers.Invariant

/-!
# Every step keeps the books

One lemma for each operation of the proxy and of the workers: if the invariant holds for some
phases, it holds afterwards for the phases with one worker moved on.  A step of the system is one
such operation, or, for the pass over the queues, a series of them.
-/

set_option autoImplicit false

namespace OxenMQ

namespace Sys

variable {κ : Type} [DecidableEq κ] [Fintype κ] {cfg : PoolConfig κ} {s : Sys κ}
  {f : Worker → Phase}

/-! ## Dispatch -/

/-- There is a slot for a job of this kind, reserved or general. -/
def Slot (cfg : PoolConfig κ) (s : Sys κ) (k : Kind κ) : Prop :=
  s.pool.active k < cfg.reserved k ∨ s.pool.activeWorkers < cfg.generalWorkers

theorem Inv.active_nonneg (h : s.Inv cfg f) (k : Kind κ) : 0 ≤ s.pool.active k := by
  rw [h.active.count]
  exact Int.natCast_nonneg _

/-- A slot for the job means that the table of workers is not full. -/
theorem Inv.activeWorkers_lt (h : s.Inv cfg f) (hopen : s.pool.maxWorkers ≠ 0) {k : Kind κ}
    (hslot : s.Slot cfg k) : s.pool.activeWorkers < cfg.maxWorkers := by
  have hmax := cfg.maxWorkers_eq
  rcases hslot with hk | hgeneral
  · have hlt := Reservation.total_lt (h.isOpen hopen).surplus_le hk
    rw [h.sum_active hopen] at hlt
    omega
  · have hpos : 0 ≤ ∑ k, (cfg.reserved k : ℤ) := Finset.sum_nonneg fun k _ => Int.natCast_nonneg _
    omega

theorem Inv.surplus_acquire (h : s.Inv cfg f) (hopen : s.pool.maxWorkers ≠ 0) {k : Kind κ}
    (hslot : s.Slot cfg k) :
    Reservation.surplus (fun k => (cfg.reserved k : ℤ))
      (Function.update s.pool.active k (s.pool.active k + 1)) ≤ cfg.generalWorkers := by
  refine Reservation.surplus_acquire (fun k => Int.natCast_nonneg _) h.active_nonneg
    (h.isOpen hopen).surplus_le ?_
  rw [h.sum_active hopen]
  exact hslot

/-- A new worker is made for the job. -/
theorem Inv.dispatch_new (h : s.Inv cfg f) (l : Load κ)
    (hslot : s.pool.maxWorkers ≠ 0 → s.Slot cfg l.kind) (hidle : s.pool.idleWorkerCount = 0) :
    (s.dispatch l.kind l).Inv cfg
      (Function.update f (.untagged s.pool.workers.length) .spawned) := by
  have habsent : f (.untagged s.pool.workers.length) = .absent :=
    (h.absent_iff _).2 (Nat.le_refl _)
  have hfits := h.fits (.untagged s.pool.workers.length)
  rw [habsent] at hfits
  rw [Sys.dispatch_new s l.kind l hidle]
  refine ⟨⟨?_, ?_, ?_, ?_, ?_, ?_, ?_, ?_⟩, ?_, ?_⟩ <;> dsimp only
  · refine fits_update h.fits ?_ fun v hv => ?_
    · convert hfits.spawn using 1
      simp [view, Pool.runInfo]
    · refine view_congr (Function.update_of_ne hv ..) (Function.update_of_ne hv ..) rfl ?_
      rw [Pool.runInfo_addActive]
      cases v with
      | untagged j => exact List.getElem?_concat_of_ne (by simpa using hv) _
      | tagged t => rfl
  · simpa using h.tagged.update_untagged _ _
  · rw [Pool.workers_addActive, Pool.active_addActive]
    refine h.active.start (by rw [habsent]; rfl) rfl (by simp) ?_ ?_
    · rw [List.getElem?_concat_length]
      exact RunInfo.kind_load {} l
    · exact fun j hj => List.getElem?_concat_of_ne hj _
  · simpa using h.queued
  · simpa using h.tagged_length
  · simpa using h.max
  · rw [h.overwritten, show s.outstanding _ = 0 from hfits.outstanding]
    rfl
  · rw [Pool.maxWorkers_addActive]
    intro hopen
    have hlt := h.activeWorkers_lt hopen (hslot hopen)
    refine (h.isOpen hopen).update _ rfl ?_ ?_
    · unfold Pool.activeWorkers at hlt
      rw [Pool.workers_addActive, List.length_append, List.length_singleton]
      omega
    · rw [Pool.active_addActive]
      exact h.surplus_acquire hopen (hslot hopen)
  · simpa using h.idle.update (p := .spawned) (iff_of_false (by simp) (by rw [habsent]; rintro ⟨⟩))
  · rw [Pool.maxWorkers_addActive]
    exact fun hmax => (Function.forall_update_iff f fun _ p => p ≠ .idle).2
      ⟨(by simp), fun v _ => h.quitting hmax v⟩

/-- The worker that became idle last is told to run the job. -/
theorem Inv.dispatch_idle (h : s.Inv cfg f) (l : Load κ)
    (hslot : s.pool.maxWorkers ≠ 0 → s.Slot cfg l.kind) {m : ℕ}
    (hidle : s.pool.idleWorkerCount = m + 1) :
    f (.untagged (s.pool.idleWorkers.getD m 0)) = .idle ∧
    Loaded s (s.dispatch l.kind l) (.untagged (s.pool.idleWorkers.getD m 0)) l ∧
    (s.dispatch l.kind l).Inv cfg
      (Function.update f (.untagged (s.pool.idleWorkers.getD m 0)) .assigned) := by
  have hlist := h.idle
  rw [hidle] at hlist
  set i := s.pool.idleWorkers.getD m 0 with hi
  have hphase : f (.untagged i) = .idle := hlist.last_idle
  have hfits := h.fits (.untagged i)
  rw [hphase] at hfits
  obtain ⟨r, hr, hjoin⟩ : ∃ r, s.pool.workers[i]? = some r ∧ r.joinable = true :=
    Option.map_eq_some_iff.1 hfits.joinable
  refine ⟨hphase, s.loaded_dispatch_idle l.kind l hidle hi.symm hr hjoin, ?_⟩
  rw [Sys.dispatch_idle s l.kind l hidle hi.symm hr hjoin]
  refine ⟨⟨?_, ?_, ?_, ?_, ?_, ?_, ?_, ?_⟩, ?_, ?_⟩ <;> dsimp only
  · refine fits_update h.fits ?_ fun v hv => ?_
    · convert hfits.assign using 1
      simp [view, Pool.runInfo, hr]
    · refine view_congr (Function.update_of_ne hv ..) (Function.update_of_ne hv ..)
        (Function.update_of_ne hv ..) ?_
      rw [Pool.runInfo_addActive]
      exact (s.pool.runInfo_modifyRun _ (.untagged i) v).trans (if_neg hv)
  · simpa using h.tagged.update_untagged i .assigned
  · rw [Pool.workers_addActive, Pool.active_addActive]
    refine h.active.start (by rw [hphase]; rfl) rfl (by simp) ?_ fun j hj => ?_
    · rw [List.getElem?_modify_ite, if_pos rfl, hr]
      exact RunInfo.kind_load r l
    · rw [List.getElem?_modify_ite, if_neg hj]
  · simpa using h.queued
  · simpa using h.tagged_length
  · simpa using h.max
  · rw [h.overwritten, show s.outstanding _ = 0 from hfits.outstanding]
    rfl
  · rw [Pool.maxWorkers_addActive]
    intro hopen
    refine (h.isOpen hopen).update _ rfl ?_ ?_
    · simpa using (h.isOpen hopen).length_le
    · rw [Pool.active_addActive]
      exact h.surplus_acquire hopen (hslot hopen)
  · rw [Pool.idleWorkers_addActive, Pool.idleWorkerCount_addActive]
    exact hlist.pop (by simp)
  · rw [Pool.maxWorkers_addActive]
    exact fun hmax => absurd hphase (h.quitting hmax _)

/-- **A dispatch gives the job to a worker that has none.** -/
theorem Inv.dispatch (h : s.Inv cfg f) (l : Load κ)
    (hslot : s.pool.maxWorkers ≠ 0 → s.Slot cfg l.kind) :
    ∃ i p, (f (.untagged i)).busy = false ∧ p.loaded = true ∧
      Loaded s (s.dispatch l.kind l) (.untagged i) l ∧
      (s.dispatch l.kind l).Inv cfg (Function.update f (.untagged i) p) := by
  rcases hn : s.pool.idleWorkerCount with _ | m
  · refine ⟨s.pool.workers.length, .spawned, ?_, rfl, s.loaded_dispatch_new _ l hn,
      h.dispatch_new l hslot hn⟩
    rw [(h.absent_iff _).2 (Nat.le_refl _)]
    rfl
  · obtain ⟨hphase, hloaded, hinv⟩ := h.dispatch_idle l hslot hn
    refine ⟨s.pool.idleWorkers.getD m 0, .assigned, ?_, rfl, hloaded, hinv⟩
    rw [hphase]
    rfl

/-- Before `QUIT`, a tagged worker that is not busy is idle. -/
theorem Inv.tagged_idle (h : s.Inv cfg f) (hopen : s.pool.maxWorkers ≠ 0) {t : ℕ}
    {tw : TaggedWorker κ} (ht : s.pool.taggedWorkers[t]? = some tw) (hb : tw.busy = false) :
    f (.tagged t) = .idle ∧ tw.run.joinable = true := by
  have hbusy : (f (.tagged t)).busy = false := (h.tagged.busy t tw ht).symm.trans hb
  have hjoin : (s.pool.taggedWorkers[t]?.map TaggedWorker.run).map RunInfo.joinable =
      (f (.tagged t)).joinable := (h.fits (.tagged t)).joinable
  rw [ht] at hjoin
  have habsent : f (.tagged t) ≠ .absent := fun ha => by
    rw [ha] at hjoin
    cases hjoin
  have hphase := (Phase.eq_idle_iff ((h.isOpen hopen).told _)).2 ⟨habsent, hbusy⟩
  rw [hphase] at hjoin
  exact ⟨hphase, Option.some.inj hjoin⟩

/-- A tagged worker that has no job is told to run the next one in its queue. -/
theorem Inv.startTagged_start (h : s.Inv cfg f) (hopen : s.pool.maxWorkers ≠ 0) {t : ℕ}
    {tw : TaggedWorker κ} {bj : BatchJob} {rest : List BatchJob}
    (ht : s.pool.taggedWorkers[t]? = some tw) (hb : tw.busy = false) (hq : tw.queue = bj :: rest) :
    (f (.tagged t)).busy = false ∧
    Loaded s (s.startTagged t) (.tagged t) (.batch bj false true) ∧
    s.pool.Takes (s.startTagged t).pool (.tagged t) (.batch bj false true) ∧
    (s.startTagged t).Inv cfg (Function.update f (.tagged t) .assigned) := by
  obtain ⟨hphase, hjoin⟩ := h.tagged_idle hopen ht hb
  refine ⟨by rw [hphase]; rfl, s.loaded_startTagged ht hb hq hjoin,
    s.takes_startTagged ht hb hq hjoin, ?_⟩
  have hfits := h.fits (.tagged t)
  rw [hphase] at hfits
  obtain ⟨hlt, htw⟩ := List.getElem?_eq_some_iff.1 ht
  rw [Sys.startTagged_start s ht hb hq hjoin]
  refine ⟨⟨?_, ?_, ?_, ?_, ?_, ?_, ?_, ?_⟩, ?_, ?_⟩ <;> dsimp only
  · refine fits_update h.fits ?_ fun v hv => ?_
    · convert hfits.assign using 1
      simp [view, Pool.runInfo, hlt, htw]
    · refine view_congr (Function.update_of_ne hv ..) (Function.update_of_ne hv ..)
        (Function.update_of_ne hv ..) ?_
      cases v with
      | untagged i => rfl
      | tagged u =>
        have hu : t ≠ u := by simpa using hv.symm
        simp only [Pool.runInfo, List.getElem?_set_ne hu]
  · refine h.tagged.set (t := t) (fun tw' htw' => ?_) fun u hu => List.getElem?_set_ne hu.symm
    rw [List.getElem?_set_self hlt] at htw'
    rw [← Option.some.inj htw']
    exact ⟨rfl, fun _ => rfl⟩
  · exact h.active.update_tagged t .assigned
  · exact h.queued
  · rw [List.length_set]
    exact h.tagged_length
  · exact h.max
  · rw [h.overwritten, show s.outstanding _ = 0 from hfits.outstanding]
    rfl
  · exact fun _ => (h.isOpen hopen).update _ rfl (h.isOpen hopen).length_le
      (h.isOpen hopen).surplus_le
  · exact h.idle.update_tagged t .assigned
  · exact fun hmax => absurd hmax hopen

/-! ## A job has returned -/

/-- The counter is taken back; the worker is idle, but not yet on the list. -/
theorem Core.released_untagged (h : s.Core cfg f) {i : ℕ} {run : RunInfo κ}
    (hrun : s.pool.runInfo (.untagged i) = some run) (hphase : f (.untagged i) = .ran) :
    ({ s.takeReply (.untagged i) [] with
      outstanding := Function.update s.outstanding (.untagged i)
        (s.outstanding (.untagged i) - 1) }.release (.untagged i) run).Core cfg
      (Function.update f (.untagged i) .idle) := by
  have hfits := h.fits (.untagged i)
  rw [hphase] at hfits
  have hbusy : (f (.untagged i)).busy = true := by rw [hphase]; rfl
  have hkind : s.pool.workers[i]?.bind RunInfo.kind = run.kind := by
    rw [show s.pool.workers[i]? = some run from hrun]
    rfl
  obtain ⟨k, hk⟩ := Option.isSome_iff_exists.1 (h.active.kind i hbusy)
  rw [loadedKind, if_pos hbusy, hkind] at hk
  rw [release_untagged _ hk]
  refine ⟨?_, ?_, ?_, ?_, ?_, ?_, h.overwritten, ?_⟩ <;> dsimp only [takeReply]
  · refine fits_update h.fits ?_ fun v hv => ?_
    · convert hfits.returned using 1
      simp [view]
    · exact view_congr (Function.update_of_ne hv ..) (Function.update_of_ne hv ..) rfl
        (Pool.runInfo_addActive ..)
  · simpa using h.tagged.update_untagged i .idle
  · rw [Pool.workers_addActive, Pool.active_addActive]
    exact h.active.stop hbusy (hkind.trans hk) rfl
  · simpa using h.queued
  · simpa using h.tagged_length
  · simpa using h.max
  · rw [Pool.maxWorkers_addActive]
    intro hopen
    refine (h.isOpen hopen).update _ rfl ?_ ?_
    · simpa using (h.isOpen hopen).length_le
    · rw [Pool.active_addActive, ← sub_eq_add_neg]
      exact Reservation.surplus_release (h.isOpen hopen).surplus_le k

/-- The flag is taken back. -/
theorem Core.released_tagged (h : s.Core cfg f) {t : ℕ} {run : RunInfo κ}
    (hrun : s.pool.runInfo (.tagged t) = some run) (hphase : f (.tagged t) = .ran) :
    ({ s.takeReply (.tagged t) [] with
      outstanding := Function.update s.outstanding (.tagged t)
        (s.outstanding (.tagged t) - 1) }.release (.tagged t) run).Core cfg
      (Function.update f (.tagged t) .idle) := by
  have hfits := h.fits (.tagged t)
  rw [hphase] at hfits
  obtain ⟨tw, ht, rfl⟩ : ∃ tw, s.pool.taggedWorkers[t]? = some tw ∧ tw.run = run :=
    Option.map_eq_some_iff.1 hrun
  have hbusy : tw.busy = true := by
    rw [h.tagged.busy t tw ht, hphase]
    rfl
  rw [release_tagged _ (h.tagged.batch t tw ht hbusy)]
  refine ⟨?_, ?_, ?_, ?_, ?_, ?_, h.overwritten, ?_⟩ <;> dsimp only [takeReply]
  · have hruns := s.pool.runInfo_modify_tagged t (g := fun tw => { tw with busy := false })
      fun _ => rfl
    refine fits_update h.fits ?_ fun v hv => ?_
    · convert hfits.returned using 1
      simp only [view, hruns, Function.update_self]
    · exact view_congr (Function.update_of_ne hv ..) (Function.update_of_ne hv ..) rfl (hruns v)
  · refine h.tagged.set (t := t) (fun tw' htw' => ?_) fun u hu => ?_
    · rw [List.getElem?_modify_ite, if_pos rfl] at htw'
      obtain ⟨_, _, rfl⟩ := Option.map_eq_some_iff.1 htw'
      exact ⟨rfl, fun hbusy => by cases hbusy⟩
    · rw [List.getElem?_modify_ite, if_neg hu]
  · exact h.active.update_tagged t .idle
  · exact h.queued
  · rw [List.length_modify]
    exact h.tagged_length
  · exact h.max
  · exact fun hopen => (h.isOpen hopen).update _ rfl (h.isOpen hopen).length_le
      (h.isOpen hopen).surplus_le

/-- An idle worker is told to quit. -/
theorem Core.quit (h : s.Core cfg f) (hquit : s.pool.maxWorkers = 0) {w : Worker}
    (hphase : f w = .idle) :
    (s.routeControl .quit w).Core cfg (Function.update f w .quitSent) := by
  have hfits := h.fits w
  rw [hphase] at hfits
  have hbusy : Phase.quitSent.busy = (f w).busy := by rw [hphase]; rfl
  refine ⟨?_, h.tagged.update hbusy, h.active.update hbusy, h.queued, h.tagged_length, h.max,
    h.overwritten, fun hopen => absurd hquit hopen⟩
  refine fits_update h.fits ?_ fun v hv => ?_
  · convert hfits.quit using 1
    simp [view, routeControl]
  · exact view_congr (Function.update_of_ne hv ..) rfl (Function.update_of_ne hv ..) rfl

/-- A worker that has just become idle goes on the list, or is told to quit. -/
theorem Core.retire {w : Worker} (hcore : s.Core cfg (Function.update f w .idle))
    (hidle : IdleOk cfg.maxWorkers s.pool.idleWorkers s.pool.idleWorkerCount f)
    (hne : f w ≠ .idle) (hquitting : s.pool.maxWorkers = 0 → ∀ v, f v ≠ .idle)
    (hroom : s.pool.maxWorkers ≠ 0 → ∀ i, w = .untagged i →
      s.pool.idleWorkerCount < cfg.maxWorkers) :
    (s.retire w).Inv cfg
      (Function.update f w (if s.pool.maxWorkers = 0 then .quitSent else .idle)) := by
  by_cases hquit : s.pool.maxWorkers = 0
  · rw [Sys.retire.eq_def, if_pos hquit, if_pos hquit]
    have hcore' := hcore.quit hquit (Function.update_self ..)
    rw [Function.update_idem] at hcore'
    exact ⟨hcore', hidle.update (iff_of_false nofun hne), fun _ =>
      (Function.forall_update_iff f fun _ p => p ≠ .idle).2 ⟨nofun, fun v _ => hquitting hquit v⟩⟩
  · rw [Sys.retire.eq_def, if_neg hquit, if_neg hquit]
    cases w with
    | untagged i =>
      exact ⟨⟨hcore.fits, hcore.tagged, hcore.active, hcore.queued, hcore.tagged_length,
        hcore.max, hcore.overwritten, fun hopen => ⟨(hcore.isOpen hopen).told,
          (hcore.isOpen hopen).length_le, (hcore.isOpen hopen).surplus_le⟩⟩,
        hidle.push (hroom hquit i rfl) hne, fun hmax => absurd hmax hquit⟩
    | tagged t => exact ⟨hcore, hidle.update_tagged t .idle, fun hmax => absurd hmax hquit⟩

/-- A worker has said `RAN`: it is idle again, or is told to quit. -/
theorem Inv.ran (h : s.Inv cfg f) {w : Worker} {run : RunInfo κ}
    (hrun : s.pool.runInfo w = some run) (hphase : f w = .ran) :
    ((s.takeReply w []).workerRan w run).Inv cfg
      (Function.update f w (if s.pool.maxWorkers = 0 then .quitSent else .idle)) := by
  have hne : f w ≠ .idle := by rw [hphase]; nofun
  have hcore : ({ s.takeReply w [] with
      outstanding := Function.update s.outstanding w (s.outstanding w - 1) }.release w run).Core cfg
      (Function.update f w .idle) := by
    cases w with
    | untagged i => exact h.released_untagged hrun hphase
    | tagged t => exact h.released_tagged hrun hphase
  obtain ⟨hlist, hcount, hmax⟩ := release_idle { s.takeReply w [] with
      outstanding := Function.update s.outstanding w (s.outstanding w - 1) } w run
  have hretire := hcore.retire (by rw [hlist, hcount]; exact h.idle) hne
    (by rw [hmax]; exact h.quitting) (by
      rw [hmax, hcount]
      rintro hopen i rfl
      have hlt := h.idleWorkerCount_lt (List.getElem?_eq_some_iff.1 hrun).1 hne
      exact Nat.lt_of_lt_of_le hlt (h.isOpen hopen).length_le)
  rw [hmax] at hretire
  exact Inv.sameBooks hretire (sameBooks_workerRan (s.takeReply w []) w run)

/-! ## A worker moves on -/

/-- A worker goes from one phase to the next without getting or giving back a job.  Its record may
change on the way, but not in what the proxy reads back from it. -/
theorem Core.move {s' : Sys κ} (h : s.Core cfg f) {w : Worker} {p : Phase}
    {g : RunInfo κ → RunInfo κ} (hpool : s'.pool = s.pool.modifyRun g w)
    (hoverwritten : s'.overwritten = s.overwritten) (hkind : ∀ r, (g r).kind = r.kind)
    (hbatch : ∀ r, (g r).isBatchJob = r.isBatchJob)
    (hfits : p.Fits (s'.view w)) (hother : ∀ v, v ≠ w → s'.view v = s.view v)
    (hbusy : p.busy = (f w).busy) (htold : s.pool.maxWorkers ≠ 0 → p.told = false) :
    s'.Core cfg (Function.update f w p) := by
  have htagged := h.tagged.update hbusy
  have hactive := h.active.update hbusy
  cases w with
  | untagged i =>
    refine ⟨fits_update h.fits hfits hother, ?_, ?_, ?_, ?_, ?_,
      hoverwritten.trans h.overwritten, ?_⟩ <;> rw [hpool]
    · exact htagged
    · exact hactive.modify i hkind
    · exact h.queued
    · exact h.tagged_length
    · exact h.max
    · exact fun hopen => (h.isOpen hopen).update _ (htold hopen)
        ((List.length_modify ..).trans_le (h.isOpen hopen).length_le) (h.isOpen hopen).surplus_le
  | tagged t =>
    refine ⟨fits_update h.fits hfits hother, ?_, ?_, ?_, ?_, ?_,
      hoverwritten.trans h.overwritten, ?_⟩ <;> rw [hpool]
    · exact htagged.modify t (fun _ => rfl) fun tw => hbatch tw.run
    · exact hactive
    · exact h.queued
    · exact (List.length_modify ..).trans h.tagged_length
    · exact h.max
    · exact fun hopen => (h.isOpen hopen).update _ (htold hopen) (h.isOpen hopen).length_le
        (h.isOpen hopen).surplus_le

theorem Inv.move {s' : Sys κ} (h : s.Inv cfg f) {w : Worker} {p : Phase}
    {g : RunInfo κ → RunInfo κ} (hpool : s'.pool = s.pool.modifyRun g w)
    (hoverwritten : s'.overwritten = s.overwritten) (hkind : ∀ r, (g r).kind = r.kind)
    (hbatch : ∀ r, (g r).isBatchJob = r.isBatchJob)
    (hfits : p.Fits (s'.view w)) (hother : ∀ v, v ≠ w → s'.view v = s.view v)
    (hbusy : p.busy = (f w).busy) (htold : s.pool.maxWorkers ≠ 0 → p.told = false)
    (hidle : p = .idle ↔ f w = .idle) : s'.Inv cfg (Function.update f w p) := by
  refine ⟨h.toCore.move hpool hoverwritten hkind hbatch hfits hother hbusy htold, ?_, ?_⟩ <;>
    rw [hpool]
  · cases w <;> exact h.idle.update hidle
  · intro hquit
    have hquit' : s.pool.maxWorkers = 0 := by cases w <;> exact hquit
    exact (Function.forall_update_iff f fun _ p => p ≠ .idle).2
      ⟨fun hp => h.quitting hquit' w (hidle.1 hp), fun v _ => h.quitting hquit' v⟩

/-- A worker begins with the job it has. -/
theorem Inv.beginJob {s' : Sys κ} (h : s.Inv cfg f) {w : Worker} (run : RunInfo κ)
    {inbox : List WorkerCommand}
    (hs : s' = { s with
      threads := Function.update s.threads w
        { s.threads w with inbox := inbox } }.beginJob w run)
    (hbusy : (f w).busy = true)
    (hfits : Phase.running.Fits { s.view w with status := .running, inbox := inbox }) :
    s'.Inv cfg (Function.update f w .running) ∧
      (∀ v, v ≠ w → s'.pool.runInfo v = s.pool.runInfo v) ∧
      s'.pool.maxWorkers = s.pool.maxWorkers := by
  obtain ⟨g, message, heap, log, heq, hg⟩ := beginJob_eq { s with
    threads := Function.update s.threads w { s.threads w with inbox := inbox } } w run
  have hs' := hs.trans heq
  have hjoin : ∀ r, (g r).joinable = r.joinable := fun r => by
    rcases hg r with hr | hr <;> rw [hr]
  have hrun : ∀ v, v ≠ w → s'.pool.runInfo v = s.pool.runInfo v := fun v hv => by
    rw [hs']
    exact (s.pool.runInfo_modifyRun g w v).trans (if_neg hv)
  refine ⟨h.move (g := g) (by rw [hs']) (by rw [hs']) (fun r => ?_) (fun r => ?_) ?_
    (fun v hv => ?_) hbusy.symm
    (fun _ => rfl) (iff_of_false nofun fun hidle => ?_), hrun, ?_⟩
  · rcases hg r with hr | hr <;> rw [hr]
    rfl
  · rcases hg r with hr | hr <;> rw [hr]
  · convert hfits using 1
    rw [hs']
    simp only [view, Function.update_self, Pool.runInfo_modifyRun, if_true, Option.map_map]
    exact congrArg (fun j => (⟨_, _, _, _, j, _⟩ : WorkerView))
      (congrArg (fun h => Option.map h _) (funext hjoin))
  · refine view_congr ?_ ?_ ?_ (hrun v hv)
    · rw [hs']
      simp only [Function.update_of_ne hv]
    · rw [hs']
    · rw [hs']
  · rw [hidle] at hbusy
    cases hbusy
  · rw [hs']
    cases w <;> rfl

/-- A worker's own thread changes, and nothing else but the heap and the log. -/
theorem Inv.threadMove {s' : Sys κ} (h : s.Inv cfg f) {w : Worker} {p : Phase} {thread : Thread}
    (hpool : s'.pool = s.pool) (hthreads : s'.threads = Function.update s.threads w thread)
    (houtstanding : s'.outstanding = s.outstanding) (hsent : s'.sent = s.sent)
    (hoverwritten : s'.overwritten = s.overwritten)
    (hfits : p.Fits { s.view w with
      status := thread.status, inbox := thread.inbox, outbox := thread.outbox })
    (hbusy : p.busy = (f w).busy) (htold : p.told = (f w).told)
    (hidle : p = .idle ↔ f w = .idle) : s'.Inv cfg (Function.update f w p) := by
  refine h.move (g := id) (by rw [Pool.modifyRun_id, hpool]) hoverwritten (fun _ => rfl) (fun _ =>
    rfl) ?_ (fun v hv => ?_) hbusy (fun hopen => htold.trans ((h.isOpen hopen).told w)) hidle
  · simpa only [view, hpool, hthreads, houtstanding, hsent, Function.update_self] using hfits
  · exact view_congr (by rw [hthreads, Function.update_of_ne hv]) (by rw [houtstanding])
      (by rw [hsent]) (by rw [hpool])

/-- A worker takes the next message, or begins with its first job.  It begins with the job it has
been given, or nothing happens to any job. -/
theorem Inv.workerReceive {s' : Sys κ} (h : s.Inv cfg f) {w : Worker}
    (hs : s.workerReceive w = some s') :
    ∃ p, s'.Inv cfg (Function.update f w p) ∧
      (∀ v, v ≠ w → s'.pool.runInfo v = s.pool.runInfo v) ∧
      s'.pool.maxWorkers = s.pool.maxWorkers ∧
      ((∃ run threads, s.begins w = true ∧ s.pool.runInfo w = some run ∧ (f w).loaded = true ∧
        p = .running ∧ (threads w).message = (s.threads w).message ∧
        s' = { s with threads := threads }.beginJob w run) ∨
      (s.begins w = false ∧ (p = f w ∨ (f w).busy = false ∧ p.busy = false) ∧
        ∃ threads, s' = { s with threads := threads })) := by
  have hfits := h.fits w
  rcases workerReceive_cases hs with ⟨run, hrun, hstatus, rfl⟩ |
    ⟨run, cmd, rest, hrun, hstatus, hinbox, hs'⟩ | ⟨cmd, rest, hstatus, hinbox, hs'⟩
  · have hphase := hfits.eq_of_preloaded hstatus
    rw [hphase] at hfits
    have hself : Function.update s.threads w { s.threads w with inbox := (s.threads w).inbox } =
        s.threads := Function.update_eq_self ..
    obtain ⟨hinv, hother, hmax⟩ := h.beginJob run
      (congrArg (fun threads => { s with threads := threads }.beginJob w run) hself.symm)
      (by rw [hphase]; rfl) hfits.begin_spawned
    exact ⟨.running, hinv, hother, hmax, Or.inl ⟨run, s.threads, by rw [begins, hstatus], hrun,
      by rw [hphase]; rfl, rfl, rfl, rfl⟩⟩
  · obtain ⟨rfl, ⟨rfl, hphase⟩ | ⟨rfl, hphase⟩⟩ := hfits.inbox_of_waiting hstatus hinbox
    · rw [hphase] at hfits
      obtain ⟨hinv, hother, hmax⟩ := h.beginJob run hs' (by rw [hphase]; rfl) hfits.begin_assigned
      exact ⟨.running, hinv, hother, hmax, Or.inl ⟨run, _, by rw [begins, hstatus, hinbox], hrun,
        by rw [hphase]; rfl, rfl, by rw [Function.update_self], hs'⟩⟩
    · rw [hphase] at hfits
      subst hs'
      exact ⟨.quitting, h.threadMove rfl rfl rfl rfl rfl hfits.leave (by rw [hphase]; rfl)
        (by rw [hphase]; rfl) (by rw [hphase]; exact iff_of_false nofun nofun), fun _ _ => rfl, rfl,
        Or.inr ⟨by rw [begins, hstatus, hinbox], Or.inr ⟨by rw [hphase]; rfl, rfl⟩, _, rfl⟩⟩
  · obtain ⟨rfl, rfl⟩ := hfits.inbox_of_starting hstatus hinbox
    subst hs'
    exact ⟨f w, h.threadMove rfl rfl rfl rfl rfl (hfits.started hstatus) rfl rfl Iff.rfl,
      fun _ _ => rfl, rfl, Or.inr ⟨by rw [begins, hstatus], Or.inl rfl, _, rfl⟩⟩

/-- A worker returns from its job. -/
theorem Inv.workerFinish {s' : Sys κ} (h : s.Inv cfg f) {w : Worker} {left : Message}
    {r : JobResult} (hs : s.workerFinish w left r = some s') :
    s'.Inv cfg (Function.update f w .ran) ∧ s'.pool = s.pool := by
  obtain ⟨run, message, _, hstatus, hs'⟩ := workerFinish_cases hs
  have hfits := h.fits w
  have hphase := hfits.eq_of_running hstatus
  rw [hphase] at hfits
  have hbusy : Phase.ran.busy = (f w).busy := by rw [hphase]; rfl
  have htold : Phase.ran.told = (f w).told := by rw [hphase]; rfl
  have hidle : Phase.ran = .idle ↔ f w = .idle := by rw [hphase]; exact iff_of_false nofun nofun
  rcases hs' with ⟨bj, _, _, rfl⟩ | ⟨_, rfl⟩
  · exact ⟨h.threadMove rfl rfl rfl rfl rfl hfits.finish hbusy htold hidle, rfl⟩
  · exact ⟨h.threadMove rfl rfl rfl rfl rfl hfits.finish hbusy htold hidle, rfl⟩

/-- A worker has said `QUITTING`, and is joined. -/
theorem Inv.joined (h : s.Inv cfg f) {w : Worker} (hphase : f w = .quitting) :
    { s.takeReply w [] with
      pool := s.pool.modifyRun (fun r => { r with joinable := false }) w }.Inv cfg
      (Function.update f w .joined) := by
  have hfits := h.fits w
  rw [hphase] at hfits
  have hopen : s.pool.maxWorkers ≠ 0 → Phase.joined.told = false := fun hopen => by
    have htold := (h.isOpen hopen).told w
    rw [hphase] at htold
    exact htold
  refine h.move rfl rfl (fun _ => rfl) (fun _ => rfl) ?_ (fun v hv => ?_)
    (by rw [hphase]; rfl) hopen
    (by rw [hphase]; exact iff_of_false nofun nofun)
  · have hjoin : ∃ r, s.pool.runInfo w = some r ∧ r.joinable = true :=
      Option.map_eq_some_iff.1 hfits.joinable
    obtain ⟨r, hr, _⟩ := hjoin
    convert hfits.join using 1
    simp [view, takeReply, Pool.runInfo_modifyRun, hr]
  · exact view_congr (Function.update_of_ne hv ..) rfl rfl
      ((s.pool.runInfo_modifyRun _ w v).trans (if_neg hv))

/-! ## Telling all idle workers to quit -/

omit [Fintype κ] [DecidableEq κ] in
theorem pool_foldl_quit (ws : List Worker) (s : Sys κ) :
    (ws.foldl (routeControl · .quit) s).pool = s.pool := by
  induction ws generalizing s with
  | nil => rfl
  | cons w ws ih => exact ih _

theorem Core.foldl_quit (ws : List Worker) (h : s.Core cfg f) (hquit : s.pool.maxWorkers = 0)
    (hnodup : ws.Nodup) (hidle : ∀ w ∈ ws, f w = .idle) :
    (ws.foldl (routeControl · .quit) s).Core cfg fun w => if w ∈ ws then .quitSent else f w := by
  induction ws generalizing s f with
  | nil => simpa using h
  | cons w ws ih =>
    obtain ⟨hw, hws⟩ := List.nodup_cons.1 hnodup
    have hcore := h.quit hquit (hidle w List.mem_cons_self)
    have hrest : ∀ v ∈ ws, Function.update f w .quitSent v = .idle := fun v hv => by
      have hne : v ≠ w := fun heq => hw (heq ▸ hv)
      rw [Function.update_of_ne hne]
      exact hidle v (List.mem_cons_of_mem _ hv)
    have hphases : (fun v => if v ∈ w :: ws then Phase.quitSent else f v) =
        fun v => if v ∈ ws then Phase.quitSent else Function.update f w .quitSent v := by
      funext v
      rcases eq_or_ne v w with rfl | hne
      · simp
      · simp [hne]
    rw [hphases]
    exact ih hcore hquit hws hrest

omit [Fintype κ] [DecidableEq κ] in
theorem mem_idleTagged {w : Worker} :
    w ∈ s.idleTagged ↔ ∃ t tw, w = .tagged t ∧ s.pool.taggedWorkers[t]? = some tw ∧
      tw.busy = false := by
  rw [idleTagged, List.mem_map]
  constructor
  · rintro ⟨t, ht, rfl⟩
    obtain ⟨_, hbusy⟩ := List.mem_filter.1 ht
    obtain ⟨tw, htw, hb⟩ := (Option.any_eq_true _ _).1 hbusy
    exact ⟨t, tw, rfl, htw, by simpa using hb⟩
  · rintro ⟨t, tw, rfl, ht, hb⟩
    refine ⟨t, List.mem_filter.2 ⟨List.mem_range.2 (List.getElem?_eq_some_iff.1 ht).1, ?_⟩, rfl⟩
    rw [ht]
    simp [hb]

omit [Fintype κ] [DecidableEq κ] in
theorem nodup_idleTagged (s : Sys κ) : s.idleTagged.Nodup :=
  (List.nodup_range.filter _).map fun _ _ => Worker.tagged.inj

/-- Before `QUIT`, the workers that are idle are on the list or have a flag that says so. -/
theorem Inv.idle_iff (h : s.Inv cfg f) (hopen : s.pool.maxWorkers ≠ 0) (w : Worker) :
    f w = .idle ↔ w ∈ s.pool.idle.map Worker.untagged ∨ w ∈ s.idleTagged := by
  cases w with
  | untagged i =>
    rw [← h.idle.mem_iff, mem_idleTagged, List.mem_map]
    simp [Pool.idle]
  | tagged t =>
    rw [mem_idleTagged]
    constructor
    · intro hphase
      have hjoin : (s.pool.taggedWorkers[t]?.map TaggedWorker.run).map RunInfo.joinable =
          (f (.tagged t)).joinable := (h.fits (.tagged t)).joinable
      rw [hphase] at hjoin
      obtain ⟨_, hrun, _⟩ := Option.map_eq_some_iff.1 hjoin
      obtain ⟨tw, ht, _⟩ := Option.map_eq_some_iff.1 hrun
      refine Or.inr ⟨t, tw, rfl, ht, ?_⟩
      rw [h.tagged.busy t tw ht, hphase]
      rfl
    · rintro (hmem | ⟨u, tw, heq, ht, hb⟩)
      · simp at hmem
      · cases heq
        exact (h.tagged_idle hopen ht hb).1

/-- **After `QUIT`, every worker that was idle has been told to quit.** -/
theorem Inv.proxyControlQuit (h : s.Inv cfg f) (hopen : s.pool.maxWorkers ≠ 0) :
    s.proxyControlQuit.Inv cfg (fun w => if f w = .idle then .quitSent else f w) := by
  have hidle := h.idle_iff hopen
  let s₀ := { s with pool := { s.pool with maxWorkers := 0 } }
  let s₁ := (s.pool.idle.map Worker.untagged).foldl (routeControl · .quit) s₀
  let s₂ := { s₁ with pool := { s₁.pool with idleWorkerCount := 0 } }
  have hpool₁ : s₁.pool = s₀.pool := pool_foldl_quit _ s₀
  have htagged : s₂.idleTagged = s.idleTagged := by simp only [idleTagged, s₂, hpool₁, s₀]
  have hcore₀ : s₀.Core cfg f :=
    ⟨h.fits, h.tagged, h.active, h.queued, h.tagged_length, Or.inl rfl, h.overwritten,
      fun hne => absurd rfl hne⟩
  have hcore₁ := hcore₀.foldl_quit (s.pool.idle.map Worker.untagged) rfl
    (h.idle.nodup.map fun _ _ => Worker.untagged.inj) fun w hw => (hidle w).2 (Or.inl hw)
  have hquit : s₂.pool.maxWorkers = 0 := congrArg Pool.maxWorkers hpool₁
  have hcore₂ : s₂.Core cfg fun w =>
      if w ∈ s.pool.idle.map Worker.untagged then .quitSent else f w :=
    ⟨hcore₁.fits, hcore₁.tagged, hcore₁.active, hcore₁.queued, hcore₁.tagged_length, hcore₁.max,
      hcore₁.overwritten, fun hne => absurd hquit hne⟩
  have hcore₃ := hcore₂.foldl_quit s₂.idleTagged hquit (nodup_idleTagged s₂) fun w hw => by
    rw [htagged] at hw
    obtain ⟨t, _, rfl, _⟩ := mem_idleTagged.1 hw
    rw [if_neg (by simp)]
    exact (hidle _).2 (Or.inr hw)
  have hphases : (fun w => if w ∈ s₂.idleTagged then Phase.quitSent else
      if w ∈ s.pool.idle.map Worker.untagged then Phase.quitSent else f w) =
      fun w => if f w = .idle then .quitSent else f w := by
    funext w
    rw [htagged]
    simp only [hidle w]
    split <;> split <;> simp_all
  rw [hphases] at hcore₃
  have hnone : ∀ w, (if f w = .idle then .quitSent else f w) ≠ Phase.idle := by
    intro w
    split
    · nofun
    · assumption
  have hpool₃ : s.proxyControlQuit.pool = s₂.pool := pool_foldl_quit _ s₂
  refine ⟨hcore₃, ?_, fun _ => hnone⟩
  rw [hpool₃]
  simp only [s₂, hpool₁]
  exact h.idle.clear fun i => hnone _

omit [DecidableEq κ] [Fintype κ] in
theorem sameBatches_foldl_quit (ws : List Worker) (s : Sys κ) :
    SameBatches s (ws.foldl (routeControl · .quit) s) := by
  induction ws generalizing s with
  | nil => exact ⟨rfl, rfl, rfl, rfl, rfl⟩
  | cons w ws ih =>
    have h := ih (s.routeControl .quit w)
    exact ⟨h.heap, h.log, h.nextPtr, h.queue, h.tagged_length⟩

omit [DecidableEq κ] [Fintype κ] in
theorem sameBatches_proxyControlQuit (s : Sys κ) : SameBatches s s.proxyControlQuit := by
  have h₁ := sameBatches_foldl_quit (s.pool.idle.map Worker.untagged)
    { s with pool := { s.pool with maxWorkers := 0 } }
  let s₁ := (s.pool.idle.map Worker.untagged).foldl (routeControl · .quit)
    { s with pool := { s.pool with maxWorkers := 0 } }
  let s₂ := { s₁ with pool := { s₁.pool with idleWorkerCount := 0 } }
  have h₂ := sameBatches_foldl_quit s₂.idleTagged s₂
  exact ⟨h₂.heap.trans h₁.heap, h₂.log.trans h₁.log, h₂.nextPtr.trans h₁.nextPtr,
    h₂.queue.trans h₁.queue, h₂.tagged_length.trans h₁.tagged_length⟩

/-! ## Commands, and the pass over the queues -/

/-- Jobs are given to workers that have none, and commands go into the queue or out of it.  The
commands are among the ones in `Q`. -/
inductive Dispatches (Q : Set (PendingCommand κ)) (s : Sys κ) (f : Worker → Phase) :
    Sys κ → (Worker → Phase) → Prop where
  | refl : Dispatches Q s f s f
  | queue {s₁ : Sys κ} {f₁ : Worker → Phase} (h : Dispatches Q s f s₁ f₁) (queued : κ → ℤ)
      {pending : List (PendingCommand κ)} (hQ : ∀ c ∈ pending, c ∈ Q) :
      Dispatches Q s f
        { s₁ with pool := { s₁.pool with queued := queued, pendingCommands := pending } } f₁
  | load {s₁ s₂ : Sys κ} {f₁ : Worker → Phase} (h : Dispatches Q s f s₁ f₁) {w : Worker}
      {l : Load κ} {p : Phase} (hfree : (f₁ w).busy = false) (hp : p.loaded = true)
      (hloaded : Loaded s₁ s₂ w l) (htakes : s₁.pool.Takes s₂.pool w l)
      (hQ : ∀ c, l = .pending c → c ∈ Q) : Dispatches Q s f s₂ (Function.update f₁ w p)

namespace Dispatches

variable {Q : Set (PendingCommand κ)} {s' : Sys κ} {f' : Worker → Phase}

omit [DecidableEq κ] [Fintype κ]

theorem pending (h : Dispatches Q s f s' f') (hQ : ∀ c ∈ s.pool.pendingCommands, c ∈ Q) :
    ∀ c ∈ s'.pool.pendingCommands, c ∈ Q := by
  induction h with
  | refl => exact hQ
  | queue h queued hpending ih => exact hpending
  | load h hfree hp hloaded htakes hload ih =>
    rw [hloaded.pending]
    exact ih

/-- Workers that have a job keep it, and its record stays as it is. -/
theorem keeps (h : Dispatches Q s f s' f') {w : Worker} (hw : (f w).busy = true) :
    f' w = f w ∧ s'.pool.runInfo w = s.pool.runInfo w := by
  induction h with
  | refl => exact ⟨rfl, rfl⟩
  | queue h queued hpending ih => exact ⟨ih.1, by cases w <;> exact ih.2⟩
  | @load s₁ s₂ f₁ h v l p hfree hp hloaded htakes hload ih =>
    have hne : w ≠ v := by
      rintro rfl
      rw [ih.1, hw] at hfree
      cases hfree
    exact ⟨(Function.update_of_ne hne ..).trans ih.1, (hloaded.other w hne).trans ih.2⟩

theorem maxWorkers (h : Dispatches Q s f s' f') : s'.pool.maxWorkers = s.pool.maxWorkers := by
  induction h with
  | refl => rfl
  | queue h queued hpending ih => exact ih
  | load h hfree hp hloaded htakes hload ih => exact hloaded.maxWorkers.trans ih

end Dispatches

omit [DecidableEq κ] [Fintype κ] in
theorem slot_of_noSlot {c : κ} (h : ¬ s.pool.noSlot cfg c = true) : s.Slot cfg (.category c) := by
  have h' : (cfg.reservedThreads c : ℤ) ≤ s.pool.activeThreads c →
      s.pool.activeWorkers < cfg.generalWorkers := by
    simpa [Pool.noSlot] using h
  exact (lt_or_ge (s.pool.activeThreads c) (cfg.reservedThreads c)).imp_right h'

omit [DecidableEq κ] [Fintype κ] in
theorem slot_of_mayStart {k : Kind κ} (h : s.mayStart cfg k = true) : s.Slot cfg k := by
  have h' := (Bool.and_eq_true_iff.1 h).2
  simpa [Slot] using h'

omit [DecidableEq κ] [Fintype κ] in
theorem SameBooks.slot {s' : Sys κ} {k : Kind κ} (h : SameBooks s s') (hslot : s.Slot cfg k) :
    s'.Slot cfg k := by
  obtain ⟨_, _, _, hp, _⟩ := h.pool
  rw [Slot, hp]
  exact hslot

/-- The queue of waiting commands changes together with its counters. -/
theorem Inv.setPending (h : s.Inv cfg f) {queued : κ → ℤ} {pending : List (PendingCommand κ)}
    (hq : QueuedOk queued pending) :
    { s with pool := { s.pool with queued := queued, pendingCommands := pending } }.Inv cfg f := by
  refine ⟨⟨fun w => ?_, h.tagged, h.active, hq, h.tagged_length, h.max, h.overwritten, fun hopen =>
    ⟨(h.isOpen hopen).told, (h.isOpen hopen).length_le, (h.isOpen hopen).surplus_le⟩⟩,
    h.idle, h.quitting⟩
  cases w <;> exact h.fits _

/-- The commands that are waiting, and one more. -/
def commandsWith (s : Sys κ) (c : PendingCommand κ) : Set (PendingCommand κ) :=
  {d | d ∈ s.pool.pendingCommands ∨ d = c}

theorem Inv.queueCommand (h : s.Inv cfg f) (c : PendingCommand κ) :
    (s.queueCommand cfg c).Inv cfg f ∧
    Dispatches (s.commandsWith c) s f (s.queueCommand cfg c) f := by
  unfold Sys.queueCommand
  split
  · exact ⟨h, .refl⟩
  · refine ⟨h.setPending h.queued.push, .queue .refl _ fun d hd => ?_⟩
    rcases List.mem_append.1 hd with hd | hd
    · exact Or.inl hd
    · exact Or.inr (List.mem_singleton.1 hd)

/-- A command or a task is dispatched at once. -/
theorem Inv.dispatchCommand (h : s.Inv cfg f) (c : PendingCommand κ)
    (hslot : s.Slot cfg (.category c.cat)) :
    ∃ f', (s.dispatch (.category c.cat) (.pending c)).Inv cfg f' ∧
      Dispatches (s.commandsWith c) s f (s.dispatch (.category c.cat) (.pending c)) f' := by
  obtain ⟨i, p, hfree, hp, hloaded, hinv⟩ := h.dispatch (.pending c) fun _ => hslot
  refine ⟨_, hinv, .load .refl hfree hp hloaded (Pool.takes_pending (queue_dispatch ..) _ _) ?_⟩
  rintro _ ⟨⟩
  exact Or.inr rfl

theorem Inv.proxyToWorker (h : s.Inv cfg f) (a : Arrival κ) :
    ∃ f', (s.proxyToWorker cfg a).Inv cfg f' ∧
      Dispatches (s.commandsWith (.command a)) s f (s.proxyToWorker cfg a) f' := by
  unfold Sys.proxyToWorker
  split
  · exact ⟨f, h.queueCommand (.command a)⟩
  rename_i hslot
  split
  · exact ⟨f, h, .refl⟩
  · exact h.dispatchCommand (.command a) (slot_of_noSlot hslot)

theorem Inv.proxyInjectTask (h : s.Inv cfg f) (t : InjectedTask κ) :
    ∃ f', (s.proxyInjectTask cfg t).Inv cfg f' ∧
      Dispatches (s.commandsWith (.injected t)) s f (s.proxyInjectTask cfg t) f' := by
  unfold Sys.proxyInjectTask
  split
  · exact ⟨f, h.queueCommand (.injected t)⟩
  · rename_i hslot
    exact h.dispatchCommand (.injected t) (slot_of_noSlot hslot)

/-- The pass over the queues gives jobs to workers that have none. -/
theorem Inv.proxyProcessQueue (h : s.Inv cfg f) :
    ∃ f', (s.proxyProcessQueue cfg).Inv cfg f' ∧
      Dispatches {c | c ∈ s.pool.pendingCommands} s f (s.proxyProcessQueue cfg) f' := by
  by_cases hopen : s.pool.maxWorkers = 0
  · rw [Sys.proxyProcessQueue, if_pos hopen]
    exact ⟨f, h, .refl⟩
  refine proxyProcessQueue_induction (P := fun s' => ∃ f', s'.Inv cfg f' ∧
    Dispatches {c | c ∈ s.pool.pendingCommands} s f s' f') ?_ ?_ ?_ ⟨f, h, .refl⟩
  · rintro s₁ t ⟨f₁, hinv, hdisp⟩
    rcases s₁.startTagged_cases t with ⟨heq, _⟩ | ⟨tw, bj, rest, ht, hb, hq⟩
    · rw [heq]
      exact ⟨f₁, hinv, hdisp⟩
    · obtain ⟨hfree, hloaded, htakes, hinv'⟩ :=
        hinv.startTagged_start (hdisp.maxWorkers.trans_ne hopen) ht hb hq
      exact ⟨_, hinv', .load hdisp hfree rfl hloaded htakes nofun⟩
  · rintro s₁ reply bj rest ⟨f₁, hinv, hdisp⟩ hq hmay
    have hsame := s₁.sameBooks_setJobQueue reply rest
    obtain ⟨i, q, hfree, hp, hloaded, hinv'⟩ := (hinv.sameBooks hsame).dispatch
      (.batch bj reply false) fun _ => hsame.slot (slot_of_mayStart hmay)
    exact ⟨_, hinv', .load hdisp hfree hp hloaded.of_setJobQueue (takes_dispatch s₁ hq _ i) nofun⟩
  · rintro s₁ pre c post ⟨f₁, hinv, hdisp⟩ hq hmay
    obtain ⟨i, q, hfree, hp, hloaded, hinv'⟩ := hinv.dispatch (.pending c)
      fun _ => slot_of_mayStart hmay
    obtain ⟨_, _, _, hqueued, _⟩ := s₁.dispatch_queues (.category c.cat) (.pending c)
    have hqueue := hinv.queued
    rw [hq] at hqueue
    have hremove := hqueue.remove
    rw [← hqueued] at hremove
    have hpending := hdisp.pending fun _ hd => hd
    rw [hq] at hpending
    refine ⟨_, hinv'.setPending hremove, .queue (.load hdisp hfree hp hloaded
      (Pool.takes_pending (queue_dispatch ..) _ _) ?_) _ fun d hd => hpending d ?_⟩
    · rintro _ ⟨⟩
      exact hpending c (List.mem_append_right _ List.mem_cons_self)
    · exact List.mem_append.2 ((List.mem_append.1 hd).imp_right (List.mem_cons_of_mem c))

/-! ## The system -/

omit [DecidableEq κ] [Fintype κ] in
theorem maxWorkers_proxyControlQuit (s : Sys κ) : s.proxyControlQuit.pool.maxWorkers = 0 := by
  unfold Sys.proxyControlQuit
  dsimp only
  rw [pool_foldl_quit, pool_foldl_quit]

omit [DecidableEq κ] [Fintype κ] in
theorem runInfo_proxyControlQuit (s : Sys κ) (w : Worker) :
    s.proxyControlQuit.pool.runInfo w = s.pool.runInfo w := by
  unfold Sys.proxyControlQuit
  dsimp only
  rw [pool_foldl_quit, pool_foldl_quit]
  cases w <;> rfl

/-- **Every step keeps the books.**  No step but its own changes the record of a worker that has a
job, and only `QUIT` makes us quit. -/
theorem Inv.step {e : PoolEvent κ} {s' : Sys κ} (h : s.Inv cfg f)
    (hs : Sys.step cfg s e = some s') :
    ∃ f', s'.Inv cfg f' ∧
      (∀ w, (f w).busy = true → e ≠ .receive w → s'.pool.runInfo w = s.pool.runInfo w) ∧
      (e ≠ .quit → s'.pool.maxWorkers = s.pool.maxWorkers) := by
  have hkeep : ∀ {Q}, (∃ f', s'.Inv cfg f' ∧ Dispatches Q s f s' f') → ∃ f', s'.Inv cfg f' ∧
      (∀ w, (f w).busy = true → e ≠ .receive w → s'.pool.runInfo w = s.pool.runInfo w) ∧
      (e ≠ .quit → s'.pool.maxWorkers = s.pool.maxWorkers) := fun ⟨f', hinv, hdisp⟩ =>
    ⟨f', hinv, fun w hw _ => (hdisp.keeps hw).2, fun _ => hdisp.maxWorkers⟩
  have hsame : SameBooks s s' → ∃ f', s'.Inv cfg f' ∧
      (∀ w, (f w).busy = true → e ≠ .receive w → s'.pool.runInfo w = s.pool.runInfo w) ∧
      (e ≠ .quit → s'.pool.maxWorkers = s.pool.maxWorkers) := fun hsame =>
    ⟨f, h.sameBooks hsame, fun w _ _ => hsame.runInfo w, fun _ => hsame.maxWorkers⟩
  cases e with
  | command a => exact hkeep (step_command hs ▸ h.proxyToWorker a)
  | inject t => exact hkeep (step_inject hs ▸ h.proxyInjectTask t)
  | submit spec => exact hsame ((step_submit_cases hs).2 ▸ s.sameBooks_submit spec)
  | replyJob callback =>
    exact hsame (step_replyJob hs ▸ s.sameBooks_proxyScheduleReplyJob callback)
  | processQueue => exact hkeep (step_processQueue hs ▸ h.proxyProcessQueue)
  | workerMessage v =>
    obtain ⟨run, rest, hrun, ⟨houtbox, rfl⟩ | ⟨houtbox, rfl⟩⟩ :=
      proxyWorkerMessage_cases (step_workerMessage hs)
    · obtain ⟨hphase, rfl⟩ := (h.fits v).eq_of_outbox_ran houtbox
      exact ⟨_, h.ran hrun hphase, fun w _ _ => runInfo_workerRan _ v run w,
        fun _ => maxWorkers_workerRan _ v run⟩
    · obtain ⟨hphase, rfl⟩ := (h.fits v).eq_of_outbox_quitting houtbox
      refine ⟨_, h.joined hphase, fun w hw _ => ?_, fun _ => by cases v <;> rfl⟩
      have hne : w ≠ v := by
        rintro rfl
        rw [hphase] at hw
        cases hw
      exact (s.pool.runInfo_modifyRun _ v w).trans (if_neg hne)
  | quit =>
    obtain ⟨hopen, rfl⟩ := step_quit_cases hs
    exact ⟨_, h.proxyControlQuit hopen, fun w _ _ => runInfo_proxyControlQuit s w,
      fun hne => absurd rfl hne⟩
  | stop =>
    obtain ⟨_, _, rfl⟩ := step_stop_cases hs
    exact hsame ⟨⟨_, _, _, rfl, rfl⟩, rfl, rfl, rfl, rfl⟩
  | receive v =>
    obtain ⟨p, hinv, hrun, hmax, _⟩ := h.workerReceive (step_receive hs)
    exact ⟨_, hinv, fun w _ hne => hrun w fun heq => hne (heq ▸ rfl), fun _ => hmax⟩
  | finish v left r =>
    obtain ⟨hinv, hpool⟩ := h.workerFinish (step_finish hs)
    exact ⟨_, hinv, fun w _ _ => by rw [hpool], fun _ => by rw [hpool]⟩

/-- A run keeps the books, and does not take back a `QUIT`. -/
theorem Inv.run {s' : Sys κ} (h : s.Inv cfg f) {es : List (PoolEvent κ)}
    (hrun : Transition.run (Sys.step cfg) s es = some s') :
    ∃ f', s'.Inv cfg f' ∧ (s'.pool.maxWorkers ≠ 0 → s.pool.maxWorkers ≠ 0) := by
  refine Transition.run_induction (P := fun s' => ∃ f', s'.Inv cfg f' ∧
    (s'.pool.maxWorkers ≠ 0 → s.pool.maxWorkers ≠ 0)) ⟨f, h, id⟩ ?_ hrun
  rintro _ s₁ e s₂ _ ⟨f₁, h₁, hopen⟩ hs
  obtain ⟨f₂, h₂, _, hmax⟩ := h₁.step hs
  refine ⟨f₂, h₂, fun hopen₂ => hopen ?_⟩
  by_cases hquit : e = .quit
  · subst hquit
    exact (step_quit_cases hs).1
  · rwa [← hmax hquit]

/-- The phases in the beginning: there are only the tagged workers. -/
def startPhase (cfg : PoolConfig κ) : Worker → Phase
  | .untagged _ => .absent
  | .tagged t => if t < cfg.taggedThreads then .idle else .absent

omit [DecidableEq κ] in
theorem init_fits (cfg : PoolConfig κ) (w : Worker) :
    (startPhase cfg w).Fits ((init cfg).view w) := by
  cases w with
  | untagged i => exact ⟨Or.inl rfl, rfl, rfl, rfl, rfl, fun htold => by cases htold⟩
  | tagged t =>
    by_cases ht : t < cfg.taggedThreads
    · have hview : (init cfg).view (.tagged t) =
          ⟨.starting, [.start], [], 0, some true, [.start]⟩ := by
        simp [view, init, ht, Pool.runInfo]
      rw [hview, startPhase, if_pos ht]
      exact ⟨Or.inr ⟨rfl, rfl, by simp⟩, rfl, rfl, rfl, rfl, by simp [Phase.told]⟩
    · have hview : (init cfg).view (.tagged t) = ⟨.absent, [], [], 0, none, []⟩ := by
        simp [view, init, ht, Pool.runInfo]
      rw [hview, startPhase, if_neg ht]
      exact ⟨Or.inl rfl, rfl, rfl, rfl, rfl, fun htold => by cases htold⟩

omit [DecidableEq κ] in
theorem init_maxWorkers (cfg : PoolConfig κ) : (init cfg).pool.maxWorkers ≠ 0 := by
  have hpos := cfg.generalWorkers_pos
  show cfg.maxWorkers ≠ 0
  rw [PoolConfig.maxWorkers]
  omega

theorem init_inv (cfg : PoolConfig κ) : (init cfg).Inv cfg (startPhase cfg) := by
  have htagged : ∀ (t : ℕ) tw, (init cfg).pool.taggedWorkers[t]? = some tw → tw.busy = false := by
    intro t tw ht
    rw [(List.mem_replicate.1 (List.mem_of_getElem? ht)).2]
  have hbusy : ∀ w, (startPhase cfg w).busy = false ∧ (startPhase cfg w).told = false := by
    rintro (i | t)
    · exact ⟨rfl, rfl⟩
    · rw [startPhase]
      split <;> exact ⟨rfl, rfl⟩
  refine ⟨⟨init_fits cfg, ⟨fun t tw ht => ?_, fun t tw ht hb => ?_⟩,
    ⟨fun i hi => Bool.noConfusion hi, fun k => by cases k <;> rfl⟩, fun c => rfl,
    List.length_replicate, Or.inr rfl, rfl, fun _ => ⟨fun w => (hbusy w).2, Nat.zero_le _, ?_⟩⟩,
    ⟨List.length_replicate, Nat.zero_le _, List.nodup_nil, fun i => iff_of_false nofun nofun⟩,
    fun hquit => ?_⟩
  · rw [htagged t tw ht, (hbusy _).1]
  · rw [htagged t tw ht] at hb
    cases hb
  · have hzero : ∀ k, (init cfg).pool.active k = 0 := fun k => by cases k <;> rfl
    have hle := Reservation.surplus_le_total (r := fun k => (cfg.reserved k : ℤ))
      (a := (init cfg).pool.active) (fun k => Int.natCast_nonneg _) fun k => (hzero k).ge
    rw [Finset.sum_eq_zero fun k _ => hzero k] at hle
    exact hle.trans (Int.natCast_nonneg _)
  · exact absurd hquit (init_maxWorkers cfg)

theorem inv_of_run {es : List (PoolEvent κ)}
    (hrun : Transition.run (Sys.step cfg) (init cfg) es = some s) : ∃ f, s.Inv cfg f :=
  ((init_inv cfg).run hrun).imp fun _ h => h.1

/-- We are quitting if we have been told to. -/
theorem maxWorkers_eq_zero_iff {es : List (PoolEvent κ)}
    (hrun : Transition.run (Sys.step cfg) (init cfg) es = some s) :
    s.pool.maxWorkers = 0 ↔ .quit ∈ es := by
  induction es using List.reverseRecOn generalizing s with
  | nil =>
    obtain rfl := Option.some.inj hrun
    exact iff_of_false (init_maxWorkers cfg) List.not_mem_nil
  | append_singleton es e ih =>
    obtain ⟨s₁, hrun₁, hlast⟩ := Transition.run_append_eq_some.1 hrun
    obtain ⟨s₂, hs, hnil⟩ := Transition.run_cons_eq_some.1 hlast
    obtain rfl := Option.some.inj hnil
    obtain ⟨f, h⟩ := inv_of_run hrun₁
    obtain ⟨_, _, _, hmax⟩ := h.step hs
    rw [List.mem_append, List.mem_singleton, ← ih hrun₁]
    by_cases hquit : e = .quit
    · subst hquit
      refine iff_of_true ?_ (Or.inr rfl)
      rw [(step_quit_cases hs).2, maxWorkers_proxyControlQuit]
    · rw [hmax hquit]
      exact (or_iff_left fun heq => hquit heq.symm).symm

end Sys

end OxenMQ
