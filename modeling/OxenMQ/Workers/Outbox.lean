import OxenMQ.Workers.Books

/-!
# Who writes to the proxy

The workers write to the socket on which the proxy hears from them, and nobody else does.  What the
proxy does to its books adds no message to those that are on their way (`Quieter`), a message that
it processes is one less (`replies_proxyWorkerMessage`), and what a worker does has nothing to do
with the messages of another (`replies_of_thread`).
-/

set_option autoImplicit false

namespace OxenMQ

variable {κ : Type}

namespace Sys

/-- The number of messages of a worker that the proxy has not processed. -/
def replies (s : Sys κ) (w : Worker) : ℕ := (s.threads w).outbox.length

/-- No message has come to those that are on their way. -/
def Quieter (s s' : Sys κ) : Prop := ∀ w, s'.replies w ≤ s.replies w

variable {s s' s'' : Sys κ}

theorem Quieter.of_threads (h : s'.threads = s.threads) : Quieter s s' := fun w => by
  rw [replies, h, replies]

theorem Quieter.refl (s : Sys κ) : Quieter s s := fun _ => le_rfl

theorem Quieter.trans (h : Quieter s s') (h' : Quieter s' s'') : Quieter s s'' :=
  fun w => (h' w).trans (h w)

theorem Quieter.foldl {α : Type*} {f : Sys κ → α → Sys κ} (hf : ∀ s a, Quieter s (f s a))
    (l : List α) (s : Sys κ) : Quieter s (l.foldl f s) := by
  induction l generalizing s with
  | nil => exact .refl s
  | cons a l ih => exact (hf s a).trans (ih _)

/-- Something else has changed before, and changes afterwards. -/
theorem Quieter.congr {t t' : Sys κ} (h : Quieter t t') (hs : t.threads = s.threads)
    (hs' : s'.threads = t'.threads) : Quieter s s' :=
  ((of_threads hs).trans h).trans (of_threads hs')

/-- One thread changes. -/
theorem Quieter.of_update {w : Worker} {thread : Thread}
    (h : s'.threads = Function.update s.threads w thread)
    (hlen : thread.outbox.length ≤ s.replies w) : Quieter s s' := by
  intro v
  rw [replies, h]
  by_cases hv : v = w
  · rwa [hv, Function.update_self]
  · rw [Function.update_of_ne hv]
    rfl

theorem quieter_routeControl (s : Sys κ) (cmd : WorkerCommand) (w : Worker) :
    Quieter s (s.routeControl cmd w) :=
  .of_update rfl le_rfl

theorem quieter_proxyRunWorker (s : Sys κ) (w : Worker) : Quieter s (s.proxyRunWorker w) := by
  unfold proxyRunWorker
  split
  · split
    · exact quieter_routeControl s .run w
    · exact .of_update rfl (Nat.zero_le _)
  · exact .refl s

theorem quieter_foldl_quit (ws : List Worker) (s : Sys κ) :
    Quieter s (ws.foldl (routeControl · .quit) s) :=
  .foldl (quieter_routeControl · .quit) ws s

theorem quieter_proxyControlQuit (s : Sys κ) : Quieter s s.proxyControlQuit := by
  unfold proxyControlQuit
  dsimp only
  refine Quieter.trans ?_ (quieter_foldl_quit _ _)
  exact (quieter_foldl_quit _ { s with pool := { s.pool with maxWorkers := 0 } }).congr rfl rfl

variable [DecidableEq κ] {cfg : PoolConfig κ}

theorem quieter_dispatch (s : Sys κ) (k : Kind κ) (l : Load κ) : Quieter s (s.dispatch k l) :=
  (quieter_proxyRunWorker ({ s with pool := s.pool.getIdleWorker.1 }.load
    (.untagged s.pool.getIdleWorker.2) l) _).congr rfl rfl

omit [DecidableEq κ] in
theorem quieter_startTagged (s : Sys κ) (t : ℕ) : Quieter s (s.startTagged t) := by
  unfold startTagged
  split
  · split
    · exact (Quieter.of_threads rfl).trans (quieter_proxyRunWorker _ _)
    · exact .refl s
  · exact .refl s

theorem quieter_proxyProcessQueue (cfg : PoolConfig κ) (s : Sys κ) :
    Quieter s (s.proxyProcessQueue cfg) := by
  refine proxyProcessQueue_induction (P := Quieter s)
    (fun _ t h => h.trans (quieter_startTagged _ t)) (fun t reply bj rest h _ _ => ?_)
    (fun _ pre p post h _ _ => ?_) (.refl s)
  · exact h.trans ((quieter_dispatch (t.setJobQueue reply rest) _ _).congr rfl rfl)
  · exact h.trans ((quieter_dispatch _ (.category p.cat) (.pending p)).congr rfl rfl)

theorem quieter_queueCommand (cfg : PoolConfig κ) (s : Sys κ) (p : PendingCommand κ) :
    Quieter s (s.queueCommand cfg p) := by
  unfold queueCommand
  split
  · exact .refl s
  · exact .of_threads rfl

theorem quieter_proxyToWorker (cfg : PoolConfig κ) (s : Sys κ) (a : Arrival κ) :
    Quieter s (s.proxyToWorker cfg a) := by
  unfold proxyToWorker
  split
  · exact quieter_queueCommand cfg s _
  · split
    · exact .refl s
    · exact quieter_dispatch s _ _

theorem quieter_proxyInjectTask (cfg : PoolConfig κ) (s : Sys κ) (t : InjectedTask κ) :
    Quieter s (s.proxyInjectTask cfg t) := by
  unfold proxyInjectTask
  split
  · exact quieter_queueCommand cfg s _
  · exact quieter_dispatch s _ _

omit [DecidableEq κ] in
theorem quieter_submit (s : Sys κ) (spec : BatchSpec) : Quieter s (s.submit spec) :=
  .of_threads (s.sameBooks_submit spec).threads

omit [DecidableEq κ] in
theorem quieter_foldl_proxyScheduleReplyJob (fs : List Callback) (s : Sys κ) :
    Quieter s (fs.foldl proxyScheduleReplyJob s) :=
  .foldl (fun s f => .of_threads (s.sameBooks_proxyScheduleReplyJob f).threads) fs s

/-! ## The messages themselves -/

omit [DecidableEq κ] in
theorem quieter_retire (s : Sys κ) (w : Worker) : Quieter s (s.retire w) := by
  unfold retire
  split
  · exact quieter_routeControl s .quit w
  · cases w <;> exact .of_threads rfl

theorem quieter_workerRan (s : Sys κ) (w : Worker) (run : RunInfo κ) :
    Quieter s (s.workerRan w run) := by
  refine Quieter.trans ?_ (.of_threads (s.sameBooks_workerRan w run).threads)
  refine Quieter.trans ?_ (quieter_retire _ w)
  unfold release
  split
  · cases w <;> exact .of_threads rfl
  · split <;> exact .of_threads rfl

/-- A message is taken off. -/
theorem replies_proxyWorkerMessage {w : Worker} (h : s.proxyWorkerMessage w = some s') :
    s'.replies w + 1 ≤ s.replies w ∧ Quieter s s' := by
  have htaken : ∀ reply rest, (s.threads w).outbox = reply :: rest →
      (s.takeReply w rest).replies w + 1 = s.replies w ∧ Quieter s (s.takeReply w rest) := by
    intro reply rest houtbox
    have hlen : s.replies w = rest.length + 1 := by rw [replies, houtbox, List.length_cons]
    refine ⟨?_, .of_update rfl (by rw [hlen]; exact Nat.le_succ _)⟩
    simp [replies, takeReply, houtbox]
  obtain ⟨run, rest, _, ⟨houtbox, rfl⟩ | ⟨houtbox, rfl⟩⟩ := proxyWorkerMessage_cases h
  · obtain ⟨hlen, hquieter⟩ := htaken _ _ houtbox
    have hran := (s.takeReply w rest).quieter_workerRan w run
    exact ⟨hlen ▸ Nat.succ_le_succ (hran w), hquieter.trans hran⟩
  · obtain ⟨hlen, hquieter⟩ := htaken _ _ houtbox
    exact ⟨hlen.le, hquieter.trans (.of_threads rfl)⟩

/-- A worker does something, and the messages of the others stay as they are. -/
theorem replies_of_thread {w v : Worker} {e : PoolEvent κ}
    (he : e = .receive w ∨ ∃ left r, e = .finish w left r) (h : Sys.step cfg s e = some s')
    (hv : v ≠ w) : s'.replies v = s.replies v := by
  have hother : ∀ {t : Sys κ} {thread : Thread}, t.threads = Function.update s.threads w thread →
      t.replies v = s.replies v := by
    intro t thread ht
    rw [replies, ht, Function.update_of_ne hv, replies]
  rcases he with rfl | ⟨left, r, rfl⟩
  · rcases workerReceive_cases (step_receive h) with
      ⟨run, _, _, rfl⟩ | ⟨run, cmd, rest, _, _, _, rfl⟩ | ⟨_, _, _, _, rfl⟩
    · obtain ⟨_, _, _, _, heq, _⟩ := s.beginJob_eq w run
      rw [heq]
      exact hother rfl
    · cases cmd with
      | run =>
        dsimp only
        obtain ⟨_, _, _, _, heq, _⟩ := beginJob_eq { s with
          threads := Function.update s.threads w { s.threads w with inbox := rest } } w run
        rw [heq]
        exact hother (Function.update_idem ..)
      | quit => exact hother rfl
      | start => exact hother rfl
    · exact hother rfl
  · obtain ⟨_, _, _, _, ⟨_, _, _, rfl⟩ | ⟨_, rfl⟩⟩ := workerFinish_cases (step_finish h)
    · exact hother rfl
    · exact hother rfl

end Sys

end OxenMQ
