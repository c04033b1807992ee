import OxenMQ.Workers.Spec

/-!
# The conversation with one worker

Seen from one worker, the system is a small machine.  A worker that is idle is told `RUN`, begins,
finishes, says `RAN` and is idle again; or it is told `QUIT`, says `QUITTING` and is joined.
`Phase` has the states of this machine, and `Phase.Fits` says what each of them looks like in the
system: where the thread stands, what is in its inbox and in its outbox, whether it has a job that
has not been accounted for, and whether it has been told to quit.

`Sys.view` is the part of the system one worker can be judged by.  The lemmas here say what each
primitive operation does to the views: it changes the view of the worker it is about, in one
definite way, and no other.
-/

set_option autoImplicit false

namespace OxenMQ

/-- Where the conversation with a worker stands. -/
inductive Phase where
  | absent
  | idle
  /-- `RUN` is under way. -/
  | assigned
  /-- A new thread that has not begun with its first job. -/
  | spawned
  | running
  /-- `RAN` is under way. -/
  | ran
  /-- `QUIT` is under way. -/
  | quitSent
  /-- `QUITTING` is under way. -/
  | quitting
  | joined
  deriving DecidableEq, Repr

/-- All that matters about a worker to the conversation with it. -/
structure WorkerView where
  status : ThreadStatus
  inbox : List WorkerCommand
  outbox : List WorkerReply
  outstanding : ℤ
  /-- `none` if the proxy has no record of the worker. -/
  joinable : Option Bool
  sent : List WorkerCommand
  deriving DecidableEq, Repr

namespace Phase

def status : Phase → ThreadStatus
  | absent => .absent
  | spawned => .preloaded
  | running => .running
  | quitting | joined => .exited
  | idle | assigned | ran | quitSent => .waiting

def inbox : Phase → List WorkerCommand
  | assigned => [.run]
  | quitSent => [.quit]
  | _ => []

def outbox : Phase → List WorkerReply
  | ran => [.ran]
  | quitting => [.quitting]
  | _ => []

/-- Does the worker have a job, or is its `RAN` under way? -/
def busy : Phase → Bool
  | assigned | spawned | running | ran => true
  | _ => false

/-- Has the worker been given a job it has not begun with? -/
def loaded : Phase → Bool
  | assigned | spawned => true
  | _ => false

def joinable : Phase → Option Bool
  | absent => none
  | joined => some false
  | _ => some true

/-- Has the worker been told to quit? -/
def told : Phase → Bool
  | quitSent | quitting | joined => true
  | _ => false

/-- A worker that has not been told to quit and does not have a job is idle. -/
theorem eq_idle_iff {p : Phase} (h : p.told = false) :
    p = idle ↔ p ≠ absent ∧ p.busy = false := by
  cases p <;> simp_all [told, busy]

/-- What a phase looks like.  A tagged worker may be slow to start, and then `START` comes before
everything else in its inbox. -/
structure Fits (v : WorkerView) (p : Phase) : Prop where
  status : v.status = p.status ∨ v.status = .starting ∧ p.status = .waiting ∧ p ≠ ran
  inbox : v.inbox = (if v.status = .starting then [.start] else []) ++ p.inbox
  outbox : v.outbox = p.outbox
  outstanding : v.outstanding = if p.busy then 1 else 0
  joinable : v.joinable = p.joinable
  sent : if p.told then ∃ l, v.sent = l ++ [.quit] ∧ .quit ∉ l else .quit ∉ v.sent

namespace Fits

variable {v : WorkerView} {p : Phase}

/-! ### The moves of the conversation -/

theorem spawn (h : Fits v absent) : Fits { v with
    status := .preloaded
    inbox := []
    outbox := []
    outstanding := v.outstanding + 1
    joinable := some true } spawned := by
  have hout := h.outstanding
  exact ⟨Or.inl rfl, rfl, rfl, by dsimp only; rw [hout]; rfl, rfl, h.sent⟩

/-- An idle worker is told `RUN`. -/
theorem assign (h : Fits v idle) : Fits { v with
    inbox := v.inbox ++ [.run]
    outstanding := v.outstanding + 1
    sent := v.sent ++ [.run] } assigned := by
  have hin := h.inbox
  have hout := h.outstanding
  have hsent : WorkerCommand.quit ∉ v.sent := h.sent
  refine ⟨?_, ?_, h.outbox, ?_, h.joinable, ?_⟩
  · rcases h.status with hs | ⟨hs, _⟩
    · exact Or.inl hs
    · exact Or.inr ⟨hs, rfl, nofun⟩
  · dsimp only
    rw [hin, List.append_assoc]
    rfl
  · dsimp only
    rw [hout]
    rfl
  · show WorkerCommand.quit ∉ v.sent ++ [.run]
    simp [hsent]

/-- An idle worker is told `QUIT`. -/
theorem quit (h : Fits v idle) :
    Fits { v with inbox := v.inbox ++ [.quit], sent := v.sent ++ [.quit] } quitSent := by
  have hin := h.inbox
  refine ⟨?_, ?_, h.outbox, h.outstanding, h.joinable, v.sent, rfl, h.sent⟩
  · rcases h.status with hs | ⟨hs, _⟩
    · exact Or.inl hs
    · exact Or.inr ⟨hs, rfl, nofun⟩
  · dsimp only
    rw [hin, List.append_assoc]
    rfl

/-- `START` is taken out of the inbox. -/
theorem started (h : Fits v p) (hs : v.status = .starting) :
    Fits { v with status := .waiting, inbox := p.inbox } p := by
  have hp : p.status = .waiting := by
    rcases h.status with hs' | ⟨_, hp, _⟩
    · rw [hs] at hs'
      cases p <;> cases hs'
    · exact hp
  exact ⟨Or.inl hp.symm, rfl, h.outbox, h.outstanding, h.joinable, h.sent⟩

theorem begin_assigned (h : Fits v assigned) :
    Fits { v with status := .running, inbox := [] } running :=
  ⟨Or.inl rfl, rfl, h.outbox, h.outstanding, h.joinable, h.sent⟩

theorem begin_spawned (h : Fits v spawned) : Fits { v with status := .running } running := by
  have hin : v.inbox = [] := by
    rcases h.status with hs | ⟨_, hs, _⟩
    · rw [h.inbox, hs]
      rfl
    · cases hs
  exact ⟨Or.inl rfl, hin, h.outbox, h.outstanding, h.joinable, h.sent⟩

theorem finish (h : Fits v running) :
    Fits { v with status := .waiting, outbox := v.outbox ++ [.ran] } ran := by
  have hs : v.status = .running := by
    rcases h.status with hs | ⟨_, hs, _⟩
    · exact hs
    · cases hs
  have hin : v.inbox = [] := by
    rw [h.inbox, hs]
    rfl
  have hout := h.outbox
  exact ⟨Or.inl rfl, hin, by dsimp only; rw [hout]; rfl, h.outstanding, h.joinable, h.sent⟩

/-- `RAN` is taken out of the outbox. -/
theorem returned (h : Fits v ran) :
    Fits { v with outbox := [], outstanding := v.outstanding - 1 } idle := by
  have hs : v.status = .waiting := by
    rcases h.status with hs | ⟨_, _, hne⟩
    · exact hs
    · exact absurd rfl hne
  have hin := h.inbox
  have hout := h.outstanding
  refine ⟨Or.inl hs, ?_, rfl, by dsimp only; rw [hout]; rfl, h.joinable, h.sent⟩
  exact hin

theorem leave (h : Fits v quitSent) :
    Fits { v with status := .exited, inbox := [], outbox := v.outbox ++ [.quitting] } quitting := by
  have hout := h.outbox
  exact ⟨Or.inl rfl, rfl, by dsimp only; rw [hout]; rfl, h.outstanding, h.joinable, h.sent⟩

theorem join (h : Fits v quitting) :
    Fits { v with outbox := [], joinable := some false } joined := by
  have hs : v.status = .exited := by
    rcases h.status with hs | ⟨_, hs, _⟩
    · exact hs
    · cases hs
  have hin : v.inbox = [] := by
    rw [h.inbox, hs]
    rfl
  exact ⟨Or.inl hs, by dsimp only; rw [hin, hs]; rfl, rfl, h.outstanding, rfl, h.sent⟩

/-! ### Telling the phase -/

theorem eq_of_outbox_ran {rest : List WorkerReply} (h : Fits v p) (ho : v.outbox = .ran :: rest) :
    p = ran ∧ rest = [] := by
  have := h.outbox.symm.trans ho
  cases p <;> cases this
  exact ⟨rfl, rfl⟩

theorem eq_of_outbox_quitting {rest : List WorkerReply} (h : Fits v p)
    (ho : v.outbox = .quitting :: rest) : p = quitting ∧ rest = [] := by
  have := h.outbox.symm.trans ho
  cases p <;> cases this
  exact ⟨rfl, rfl⟩

theorem eq_of_preloaded (h : Fits v p) (hs : v.status = .preloaded) : p = spawned := by
  rcases h.status with hs' | ⟨hs', _⟩
  · rw [hs] at hs'
    cases p <;> cases hs'
    rfl
  · rw [hs] at hs'
    cases hs'

theorem eq_of_running (h : Fits v p) (hs : v.status = .running) : p = running := by
  rcases h.status with hs' | ⟨hs', _⟩
  · rw [hs] at hs'
    cases p <;> cases hs'
    rfl
  · rw [hs] at hs'
    cases hs'

/-- A worker that waits for `RUN` and has a message has a `RUN` or a `QUIT`, and nothing more. -/
theorem inbox_of_waiting {cmd : WorkerCommand} {rest : List WorkerCommand} (h : Fits v p)
    (hs : v.status = .waiting) (hi : v.inbox = cmd :: rest) :
    rest = [] ∧ (cmd = .run ∧ p = assigned ∨ cmd = .quit ∧ p = quitSent) := by
  have hin := h.inbox
  rw [hs, hi, if_neg nofun, List.nil_append] at hin
  cases p <;> cases hin
  · exact ⟨rfl, Or.inl ⟨rfl, rfl⟩⟩
  · exact ⟨rfl, Or.inr ⟨rfl, rfl⟩⟩

/-- A worker that waits for `START` finds it first. -/
theorem inbox_of_starting {cmd : WorkerCommand} {rest : List WorkerCommand} (h : Fits v p)
    (hs : v.status = .starting) (hi : v.inbox = cmd :: rest) : cmd = .start ∧ rest = p.inbox := by
  have hin := h.inbox
  rw [hs, hi, if_pos rfl, List.singleton_append] at hin
  exact List.cons.inj hin

theorem quit_mem_inbox_iff (h : Fits v p) : .quit ∈ v.inbox ↔ p = quitSent := by
  rw [h.inbox, List.mem_append]
  split <;> cases p <;> simp [Phase.inbox]

theorem quitting_mem_outbox_iff (h : Fits v p) : .quitting ∈ v.outbox ↔ p = quitting := by
  rw [h.outbox]
  cases p <;> simp [Phase.outbox]

theorem ran_mem_outbox_iff (h : Fits v p) : .ran ∈ v.outbox ↔ p = ran := by
  rw [h.outbox]
  cases p <;> simp [Phase.outbox]

theorem outstanding_ne_zero_iff (h : Fits v p) : v.outstanding ≠ 0 ↔ p.busy = true := by
  rw [h.outstanding]
  split <;> simp_all

end Fits

end Phase

variable {κ : Type}

/-! ## The views of the workers -/

namespace Sys

/-- What the conversation with a worker depends on. -/
def view (s : Sys κ) (w : Worker) : WorkerView where
  status := (s.threads w).status
  inbox := (s.threads w).inbox
  outbox := (s.threads w).outbox
  outstanding := s.outstanding w
  joinable := (s.pool.runInfo w).map RunInfo.joinable
  sent := s.sent w

variable {s s' : Sys κ} {f : Worker → Phase}

/-- Only the view of one worker changes. -/
theorem fits_update {w : Worker} {p : Phase} (h : ∀ v, (f v).Fits (s.view v))
    (hw : p.Fits (s'.view w)) (hother : ∀ v, v ≠ w → s'.view v = s.view v) (v : Worker) :
    (Function.update f w p v).Fits (s'.view v) := by
  rcases eq_or_ne v w with rfl | hne
  · rw [Function.update_self]
    exact hw
  · rw [Function.update_of_ne hne, hother v hne]
    exact h v

theorem view_congr {w : Worker} (hthread : s'.threads w = s.threads w)
    (houtstanding : s'.outstanding w = s.outstanding w) (hsent : s'.sent w = s.sent w)
    (hrun : s'.pool.runInfo w = s.pool.runInfo w) : s'.view w = s.view w := by
  simp only [view, hthread, houtstanding, hsent, hrun]

theorem SameBooks.view (h : SameBooks s s') (w : Worker) : s'.view w = s.view w :=
  view_congr (by rw [h.threads]) (by rw [h.outstanding]) (by rw [h.sent]) (h.runInfo w)

end Sys

end OxenMQ
