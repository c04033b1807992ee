import OxenMQ.Lib.Rest
import OxenMQ.Startup.Pool

/-!
# `start()` and the destructor return

Whoever takes part in the startup waits for somebody else at some point: the tagged threads for
`tagged_go` and for `START`, the proxy thread for the tagged threads, and the owner for the proxy
thread, or in the destructor for the tagged threads.  Nobody waits forever: `Startup.work` bounds
the steps that are left, and when none is left, everyone is where they should be
(`Startup.Settled`).

A thread that wakes up for no reason goes back to sleep if it may not go on; it could do so as often
as it likes, so waking up for no reason is not counted among the steps that the threads take on
their own.
-/

set_option autoImplicit false

namespace OxenMQ

open CondVar (Waiter)
open Tally (valuesOf)

/-- The steps that follow from what the owner has called. -/
def StartupEvent.isOwn : StartupEvent → Bool
  | .setThreads _ _ | .addTaggedThread _ _ | .start | .destroy | .thread _ .wake => false
  | _ => true

/-! ## The steps still to come -/

def TaggedPc.steps : TaggedPc → ℕ
  | waits .testing => 7
  | waits .asleep => 6
  | waits .through => 5
  | connecting => 4
  | starting => 2
  | calling => 1
  | _ => 0

/-- The steps of a tagged thread, and the messages of it that the proxy thread has to receive. -/
def TaggedThread.work (t : TaggedThread) : ℕ := t.pc.steps + t.outbox.length

/-- The steps of the proxy thread when there are `n` tagged threads; it may cause each of them to
test once more. -/
def ProxyPc.steps (n : ℕ) : ProxyPc → ℕ
  | init => 2 * n + 5
  | announcing => 2 * n + 4
  | collecting _ => n + 2
  | releasing i => n - i + 1
  | _ => 0

def OwnerPc.steps (n : ℕ) : OwnerPc → ℕ
  | starting => 3
  | waitsReady => 1
  | shutdown => 2 * n + 2
  | joining i => n - i + 1
  | _ => 0

/-- Whatever a tagged thread does, it has less to do afterwards. -/
theorem TaggedThread.Fits.work_act {t : TaggedThread} {v : Situation} (h : t.Fits v)
    {e : ThreadEvent}
    (he : e ≠ .wake) {r : TaggedThread × List Callback} (hr : t.act v.mode e = some r) :
    r.1.work < t.work := by
  cases e with
  | wake => exact absurd rfl he
  | test =>
    rw [TaggedThread.act] at hr
    split at hr
    · rename_i w hpc
      obtain ⟨w', hw', rfl⟩ := Option.map_eq_some_iff.1 hr
      obtain ⟨rfl, rfl⟩ := Waiter.test_eq_some_iff.1 hw'
      rw [work, work, hpc]
      split <;> simp only [TaggedPc.steps] <;> omega
    · cases hr
  | look =>
    rw [TaggedThread.act] at hr
    split at hr
    · rename_i hpc
      cases hr
      rw [work, work, hpc]
      split <;> simp only [TaggedPc.steps] <;> omega
    · cases hr
  | connect =>
    rw [TaggedThread.act] at hr
    split at hr
    · rename_i hpc
      cases hr
      rw [work, work, hpc]
      simp only [TaggedPc.steps, List.length_append, List.length_singleton]
      omega
    · cases hr
  | receive =>
    rw [TaggedThread.act] at hr
    split at hr
    · rename_i cmd rest hpc hinbox
      obtain ⟨_, rfl, rfl⟩ := h.inbox_eq hinbox
      rw [work, work, hpc]
      dsimp only at hr
      split at hr <;> cases hr <;> simp only [TaggedPc.steps] <;> omega
    · cases hr
  | called =>
    rw [TaggedThread.act] at hr
    split at hr
    · rename_i hpc
      cases hr
      rw [work, work, hpc]
      simp only [TaggedPc.steps]
      omega
    · cases hr

/-- A thread that is woken up has to test once more. -/
theorem TaggedThread.work_wakeUp_le (t : TaggedThread) : t.wakeUp.work ≤ t.work + 1 := by
  rw [wakeUp]
  split
  · rename_i w hpc
    rw [work, work, hpc]
    cases w <;> simp only [Waiter.wake, TaggedPc.steps] <;> omega
  · exact Nat.le_succ _

/-- Where the owner may get without another call. -/
def OwnerPc.outcomes : OwnerPc → List OwnerPc
  | starting => [free, running]
  | waitsReady => [running]
  | shutdown | joining _ => [destroyed]
  | o => [o]

namespace Startup

variable {s s' : Startup}

/-- The steps of all tagged threads. -/
def threadWork (s : Startup) : ℕ := (s.threads.map TaggedThread.work).sum

def work (s : Startup) : ℕ :=
  s.threadWork + s.proxy.steps s.threads.length + s.owner.steps s.threads.length + s.asked.toNat

/-- A notification may cause each of the tagged threads to test once more. -/
theorem threadWork_notifyAll (s : Startup) :
    s.notifyAll.threadWork ≤ s.threadWork + s.threads.length := by
  have hlist : ∀ l : List TaggedThread, ((l.map TaggedThread.wakeUp).map TaggedThread.work).sum ≤
      (l.map TaggedThread.work).sum + l.length := by
    intro l
    induction l with
    | nil => exact le_rfl
    | cons t l ih =>
      have ht := t.work_wakeUp_le
      simp only [List.map_cons, List.sum_cons, List.length_cons]
      omega
  exact hlist s.threads

/-- **Every step brings the startup to its end.** -/
theorem Inv.work_step {κ : Type} [Fintype κ] {cfg : Categories κ} (h : s.Inv) {e : StartupEvent}
    (he : e.isOwn = true) (hs : Startup.step cfg s e = some s') : s'.work < s.work := by
  cases e with
  | setThreads | addTaggedThread | start | destroy => cases he
  | thread i e =>
    obtain ⟨t, ht, hact⟩ := Option.bind_eq_some_iff.1 hs
    obtain ⟨r, hr, rfl⟩ := Option.map_eq_some_iff.1 hact
    have hlt := (h.threads i t ht).work_act (by rintro rfl; cases he) hr
    have hsum := Transition.sum_map_set TaggedThread.work ht r.1
    simp only [work, threadWork, List.length_set]
    omega
  | resume =>
    replace hs : s.resume = some s' := hs
    unfold Startup.resume at hs
    split at hs
    · rename_i howner hproxy
      cases hs
      simp only [work, threadWork, howner, OwnerPc.steps, Bool.toNat_true]
      omega
    · rename_i e howner hproxy
      cases hs
      simp only [work, threadWork, howner, hproxy, OwnerPc.steps, ProxyPc.steps]
      omega
    · cases hs
  | getReady =>
    replace hs : s.getReady = some s' := hs
    unfold Startup.getReady at hs
    split at hs
    · rename_i hguard
      cases hs
      simp only [work, threadWork, hguard.1, OwnerPc.steps]
      omega
    · cases hs
  | notifyShutdown =>
    replace hs : s.notifyShutdown = some s' := hs
    unfold Startup.notifyShutdown at hs
    split at hs
    · rename_i howner
      cases hs
      have hle := threadWork_notifyAll s
      have hlen := length_notifyAll s
      show s.notifyAll.threadWork + s.proxy.steps s.notifyAll.threads.length +
        (OwnerPc.joining 0).steps s.notifyAll.threads.length + s.asked.toNat < s.work
      rw [hlen, work, howner]
      simp only [OwnerPc.steps]
      omega
    · cases hs
  | join =>
    replace hs : s.join = some s' := hs
    unfold Startup.join at hs
    split at hs
    · rename_i i howner
      split at hs
      · rename_i t ht
        split at hs
        · cases hs
          have hi : i < s.threads.length := (List.getElem?_eq_some_iff.1 ht).1
          have hsum := Transition.sum_map_set TaggedThread.work ht { t with joinable := false }
          have hsame : ({ t with joinable := false } : TaggedThread).work = t.work := rfl
          simp only [work, threadWork, howner, OwnerPc.steps, List.length_set]
          omega
        · cases hs
      · cases hs
        simp only [work, threadWork, howner, OwnerPc.steps]
        omega
    · cases hs
  | proxyLoopInit outcome =>
    obtain ⟨hproxy, ⟨e, n, _, rfl⟩ | ⟨_, rfl⟩ | ⟨_, rfl⟩⟩ := proxyLoopInit_cases hs
    all_goals
      simp only [work, threadWork, hproxy, ProxyPc.steps]
      omega
  | announce =>
    replace hs : s.announce = some s' := hs
    unfold Startup.announce at hs
    split at hs
    · rename_i hproxy
      cases hs
      have hle := threadWork_notifyAll s
      have hlen := length_notifyAll s
      show s.notifyAll.threadWork + (ProxyPc.collecting _).steps s.notifyAll.threads.length +
        s.owner.steps s.notifyAll.threads.length + s.asked.toNat < s.work
      rw [hlen, work, hproxy]
      simp only [ProxyPc.steps]
      omega
    · cases hs
  | collect i =>
    obtain ⟨l, t, hproxy, ht, houtbox, _, _, rfl⟩ := collect_cases h hs
    have hsum := Transition.sum_map_set TaggedThread.work ht { t with outbox := [] }
    have hless : ({ t with outbox := [] } : TaggedThread).work + 1 = t.work := by
      rw [TaggedThread.work, TaggedThread.work, houtbox]
      rfl
    simp only [work, threadWork, hproxy, List.length_set]
    split <;> simp only [ProxyPc.steps] <;> omega
  | release =>
    replace hs : s.release = some s' := hs
    unfold Startup.release at hs
    split at hs
    · rename_i i hproxy
      split at hs
      · rename_i t ht
        have hi : i < s.threads.length := (List.getElem?_eq_some_iff.1 ht).1
        split at hs
        · cases hs
          have hsum := Transition.sum_map_set TaggedThread.work ht
            { t with inbox := t.inbox ++ [.start] }
          have hsame : ({ t with inbox := t.inbox ++ [.start] } : TaggedThread).work = t.work := rfl
          simp only [work, threadWork, hproxy, ProxyPc.steps, List.length_set]
          omega
        · cases hs
          simp only [work, threadWork, hproxy, ProxyPc.steps]
          omega
      · cases hs
        simp only [work, threadWork, hproxy, ProxyPc.steps]
        omega
    · cases hs
  | serve =>
    replace hs : s.serve = some s' := hs
    unfold Startup.serve at hs
    split at hs
    · rename_i hguard
      cases hs
      simp only [work, threadWork, hguard.2, Bool.toNat_true, Bool.toNat_false]
      omega
    · cases hs

variable {κ : Type} [Fintype κ] {cfg : Categories κ}

/-- The startup settles, whatever the order of the steps. -/
theorem settles (cfg : Categories κ) : Transition.Settles (Startup.step cfg)
    (StartupEvent.isOwn · = true) (fun s => s.Inv ∧ s.threads.length < 2 ^ 32)
    (fun _ => 1) work where
  keeps s e s' h he hs := by
    refine ⟨h.1.step h.2 hs, ?_⟩
    rw [length_eq_of_step (fun _ _ hadd => by rw [hadd] at he; cases he) hs]
    exact h.2
  pays s e s' h he hs := by
    have := h.1.work_step he hs
    omega
  moves s e s' h he hs := Or.inr (h.1.work_step he hs)

/-! ## Where everyone is in the end -/

/-- Everyone has got to where the owner's last call should leave them: before a start the tagged
threads sleep, while the proxy runs they have called their start functions, and after the destructor
all have exited and been joined. -/
def Settled (s : Startup) : Prop :=
  match s.owner with
  | .free => s.proxy = .absent ∧ ∀ t ∈ s.threads, t.pc = .waits .asleep
  | .running | .quitting => s.proxy = .looping ∧
    ∀ (i : ℕ) (t : TaggedThread), s.threads[i]? = some t → t.pc = .ready ∧
      valuesOf s.started i = t.start.toList
  | .destroyed => s.proxy = .absent ∧ ∀ t ∈ s.threads, t.pc = .exited ∧ t.joinable = false
  | _ => False

/-- Once everyone has been notified, nobody is asleep. -/
theorem Inv.not_asleep (h : s.Inv) {i : ℕ} {t : TaggedThread} (ht : s.threads[i]? = some t)
    (hgo : s.go ≠ .wait) (hproxy : s.proxy ≠ .announcing) (howner : s.owner ≠ .shutdown) :
    t.pc ≠ .waits .asleep := by
  intro hpc
  have hallows := (h.threads i t ht).pc
  rw [hpc] at hallows
  exact hallows.1 (by simpa [situation] using hgo) (by simp [situation, hproxy, howner]) rfl

/-- When nothing can happen any more, a tagged thread is asleep, or it waits for `START`, or it is
done with the startup. -/
theorem Inv.pc_of_rest (h : s.Inv) (hrest : ∀ e, e.isOwn = true → Startup.step cfg s e = none)
    {i : ℕ} {t : TaggedThread} (ht : s.threads[i]? = some t) :
    t.pc = .waits .asleep ∨ (t.pc = .starting ∧ s.proxy.told i = false) ∨ t.pc = .ready ∨
      t.pc = .exited := by
  have hact : ∀ e, e ≠ .wake → t.act s.go e = none := by
    intro e he
    have hnone := hrest (.thread i e) (by cases e <;> first | rfl | exact absurd rfl he)
    have hnone : s.threads[i]?.bind _ = none := hnone
    rw [ht, Option.bind_some, Option.map_eq_none_iff] at hnone
    exact hnone
  cases hpc : t.pc with
  | waits w =>
    cases w with
    | asleep => exact Or.inl rfl
    | testing =>
      have := hact .test (by simp)
      simp [TaggedThread.act, hpc, Waiter.test] at this
    | through =>
      have := hact .look (by simp)
      simp [TaggedThread.act, hpc] at this
  | connecting =>
    have := hact .connect (by simp)
    simp [TaggedThread.act, hpc] at this
  | starting =>
    refine Or.inr (Or.inl ⟨rfl, Bool.eq_false_iff.2 fun htold => ?_⟩)
    have hinbox := (h.threads i t ht).inbox
    rw [if_pos ⟨htold, by rw [hpc]; rfl⟩] at hinbox
    have := hact .receive (by simp)
    rw [TaggedThread.act, hpc, hinbox] at this
    cases hstart : t.start <;> simp [hstart] at this
  | calling =>
    have := hact .called (by simp)
    simp [TaggedThread.act, hpc] at this
  | ready => exact Or.inr (Or.inr (Or.inl rfl))
  | exited => exact Or.inr (Or.inr (Or.inr rfl))

/-- The proxy thread does not wait for a tagged thread forever. -/
theorem Inv.not_collecting_of_rest (h : s.Inv)
    (hrest : ∀ e, e.isOwn = true → Startup.step cfg s e = none) (l : List String) :
    s.proxy ≠ .collecting l := by
  intro hproxy
  have howner := h.owner_of_proxy (by rw [hproxy]; simp) (by rw [hproxy]; simp)
  obtain ⟨hne, _, hmem⟩ := h.collecting l hproxy
  obtain ⟨id, hid⟩ := List.exists_mem_of_ne_nil l hne
  obtain ⟨hin, hnew⟩ := (hmem id).1 hid
  obtain ⟨i, hi, rfl⟩ := List.mem_map.1 hin
  obtain ⟨t, ht⟩ : ∃ t, s.threads[i]? = some t :=
    ⟨_, List.getElem?_eq_getElem (List.mem_range.1 hi)⟩
  have hfits := h.threads i t ht
  have hheard : (s.situation i).heard = false := decide_eq_false hnew
  have hgo : s.go = .go := by
    have hlen : s.threads.length ≠ 0 := by
      have := List.mem_range.1 hi
      omega
    rw [h.mode, Startup.mode, if_neg hlen, howner, hproxy]
    rfl
  have hallows := hfits.pc
  rcases h.pc_of_rest hrest ht with hpc | ⟨hpc, _⟩ | hpc | hpc
  · exact h.not_asleep ht (by simp [hgo]) (by simp [hproxy]) (by simp [howner]) hpc
  · -- Its `STARTING` is still to be received.
    have houtbox := hfits.outbox
    rw [if_pos ⟨by rw [hpc]; rfl, hheard⟩] at houtbox
    have hcollect : s.collect i = none := hrest (.collect i) rfl
    simp [Startup.collect, hproxy, ht, houtbox] at hcollect
  · have hheard' := hfits.heard (hfits.started (by rw [hpc]; rfl))
    rw [hheard] at hheard'
    cases hheard'
  · rw [hpc] at hallows
    have hallows : s.go = .shutdown := hallows
    rw [hgo] at hallows
    cases hallows

/-- With the proxy loop running, every tagged thread gets to its main loop. -/
theorem Inv.ready_of_rest (h : s.Inv) (hrest : ∀ e, e.isOwn = true → Startup.step cfg s e = none)
    (hproxy : s.proxy = .looping) {i : ℕ} {t : TaggedThread} (ht : s.threads[i]? = some t) :
    t.pc = .ready ∧ valuesOf s.started i = t.start.toList := by
  have hfits := h.threads i t ht
  have htold : (s.situation i).told = true := by
    show s.proxy.told i = true
    rw [hproxy]
    rfl
  have hannounced := hfits.announced (hfits.heard htold)
  have hready : t.pc = .ready := by
    rcases h.pc_of_rest hrest ht with hpc | ⟨_, hnot⟩ | hpc | hpc
    · rw [hpc] at hannounced
      cases hannounced
    · rw [hproxy] at hnot
      cases hnot
    · exact hpc
    · rw [hpc] at hannounced
      cases hannounced
  refine ⟨hready, hfits.calls.trans ?_⟩
  rw [hready]
  rfl

/-- The owner does not wait for a tagged thread to exit forever. -/
theorem Inv.not_joining_of_rest (h : s.Inv)
    (hrest : ∀ e, e.isOwn = true → Startup.step cfg s e = none) (i : ℕ) : s.owner ≠ .joining i := by
  intro howner
  have habsent := h.absent_of_gone (by rw [howner]; rfl)
  have hjoin : s.join = none := hrest .join rfl
  unfold Startup.join at hjoin
  rw [howner] at hjoin
  dsimp only at hjoin
  cases ht : s.threads[i]? with
  | none =>
    rw [ht] at hjoin
    cases hjoin
  | some t =>
    have hi : i < s.threads.length := (List.getElem?_eq_some_iff.1 ht).1
    have hgo : s.go = .shutdown := by
      rw [h.mode, Startup.mode, if_neg (by omega), howner]
      rfl
    have hallows := (h.threads i t ht).pc
    rcases h.pc_of_rest hrest ht with hpc | ⟨hpc, _⟩ | hpc | hpc
    · exact h.not_asleep ht (by simp [hgo]) (by simp [habsent]) (by simp [howner]) hpc
    · rw [hpc] at hallows
      have hallows : s.go = .go := hallows
      rw [hgo] at hallows
      cases hallows
    · rw [hpc] at hallows
      have hallows : s.go = .go := hallows
      rw [hgo] at hallows
      cases hallows
    · rw [ht] at hjoin
      simp [hpc] at hjoin

/-- **At rest everyone is where they should be.** -/
theorem Inv.settled_of_rest (h : s.Inv)
    (hrest : ∀ e, e.isOwn = true → Startup.step cfg s e = none) : s.Settled := by
  have hroles := h.roles
  have hready := h.ready
  unfold Settled
  cases howner : s.owner with
  | free =>
    rw [howner] at hroles
    have habsent : s.proxy = .absent := hroles
    refine ⟨habsent, fun t ht => ?_⟩
    obtain ⟨i, hi⟩ := List.mem_iff_getElem?.1 ht
    have hwait := h.mode_wait (by rw [howner]; rfl) (by rw [habsent]; rfl)
    have hallows : t.pc.Allows s.go _ := (h.threads i t hi).pc
    rw [hwait] at hallows
    rcases h.pc_of_rest hrest hi with hpc | ⟨hpc, _⟩ | hpc | hpc
    · exact hpc
    all_goals
      rw [hpc] at hallows
      cases hallows
  | starting =>
    rw [howner] at hroles
    exfalso
    cases hproxy : s.proxy with
    | absent => exact hroles hproxy
    | init =>
      have hnone : s.proxyLoopInit .early = none := hrest (.proxyLoopInit .early) rfl
      simp [Startup.proxyLoopInit, hproxy] at hnone
    | announcing =>
      have hnone : s.announce = none := hrest .announce rfl
      simp [Startup.announce, hproxy] at hnone
    | collecting l => exact h.not_collecting_of_rest hrest l hproxy
    | releasing i =>
      have hnone : s.release = none := hrest .release rfl
      unfold Startup.release at hnone
      rw [hproxy] at hnone
      dsimp only at hnone
      split at hnone
      · split at hnone <;> cases hnone
      · cases hnone
    | looping =>
      have hnone : s.resume = none := hrest .resume rfl
      simp [Startup.resume, howner, hproxy] at hnone
    | failed e =>
      have hnone : s.resume = none := hrest .resume rfl
      simp [Startup.resume, howner, hproxy] at hnone
  | waitsReady =>
    rw [howner] at hroles hready
    have hproxy : s.proxy = .looping := hroles
    exfalso
    have hserve : s.serve = none := hrest .serve rfl
    have hget : s.getReady = none := hrest .getReady rfl
    have hasked : s.asked = false := by simpa [Startup.serve, hproxy] using hserve
    have hnot : s.ready = false := by simpa [Startup.getReady, howner] using hget
    rw [hasked, hnot] at hready
    cases hready
  | running =>
    rw [howner] at hroles
    exact ⟨hroles, fun i t ht => h.ready_of_rest hrest hroles ht⟩
  | shutdown =>
    have hnone : s.notifyShutdown = none := hrest .notifyShutdown rfl
    simp [Startup.notifyShutdown, howner] at hnone
  | joining i => exact absurd howner (h.not_joining_of_rest hrest i)
  | destroyed =>
    rw [howner] at hroles
    refine ⟨hroles, fun t ht => ?_⟩
    obtain ⟨i, hi⟩ := List.mem_iff_getElem?.1 ht
    have hfits := h.threads i t hi
    have hjoined : (s.situation i).joined = true := by
      show s.owner.joined i = true
      rw [howner]
      rfl
    refine ⟨hfits.joined hjoined, ?_⟩
    rw [hfits.joinable, hjoined]
    rfl
  | quitting =>
    rw [howner] at hroles
    exact ⟨hroles, fun i t ht => h.ready_of_rest hrest hroles ht⟩

/-- Without another call, the owner only goes on with the one it is in. -/
theorem outcomes_subset {e : StartupEvent} (he : e.isOwn = true)
    (hs : Startup.step cfg s e = some s') : s'.owner.outcomes ⊆ s.owner.outcomes := by
  cases e with
  | setThreads | addTaggedThread | start | destroy => cases he
  | thread i e =>
    obtain ⟨t, _, hact⟩ := Option.bind_eq_some_iff.1 hs
    obtain ⟨r, _, rfl⟩ := Option.map_eq_some_iff.1 hact
    exact List.Subset.refl _
  | _ =>
    simp only [Startup.step, Startup.resume, Startup.getReady, Startup.notifyShutdown, Startup.join,
      Startup.proxyLoopInit, Startup.announce, Startup.collect, Startup.release, Startup.serve,
      notifyAll] at hs
    repeat' split at hs
    all_goals cases hs
    all_goals simp_all [OwnerPc.outcomes]

theorem Inv.none_of_rest (h : s.Inv)
    (hrest : Transition.AtRest (Startup.step cfg) (StartupEvent.isOwn · = true) s)
    {e : StartupEvent} (he : e.isOwn = true) : Startup.step cfg s e = none := by
  cases hs : Startup.step cfg s e with
  | none => rfl
  | some s' =>
    have hlt := h.work_step he hs
    rw [hrest e he s' hs] at hlt
    exact absurd hlt (Nat.lt_irrefl _)

/-- **`start()` and the destructor return.**  From every state that can be reached, the threads can
take only so many steps on their own, whatever their order, and they can take them to the end.  In
the end a `start()` that was under way has returned or has thrown, and a destructor that was under
way without a proxy thread has returned.  When `start()` has returned, the `start` function of every
tagged thread has been called once and the thread waits for jobs; when the destructor has returned,
every tagged thread has exited and been joined. -/
theorem calls_return {settings : Settings} {es : List StartupEvent}
    (hrun : Transition.run (Startup.step cfg) (fresh settings) es = some s)
    (hlen : s.threads.length < 2 ^ 32) :
    (∀ fs t, (∀ e ∈ fs, e.isOwn = true) → Transition.run (Startup.step cfg) s fs = some t →
      fs.length ≤ s.work ∧
      (Transition.AtRest (Startup.step cfg) (StartupEvent.isOwn · = true) t →
        t.Settled ∧ t.owner ∈ s.owner.outcomes)) ∧
    ∃ fs t, (∀ e ∈ fs, e.isOwn = true) ∧ Transition.run (Startup.step cfg) s fs = some t ∧
      Transition.AtRest (Startup.step cfg) (StartupEvent.isOwn · = true) t := by
  have h : s.Inv ∧ s.threads.length < 2 ^ 32 := ⟨inv_of_run hrun hlen, hlen⟩
  refine ⟨fun fs t hown hfs => ⟨?_, fun hrest => ?_⟩, (settles cfg).exists_rest h⟩
  · have hle := (settles cfg).run_le h hown hfs
    have hcost : (fs.map fun _ => 1).sum = fs.length := by simp
    omega
  · have ht := ((settles cfg).run_keeps h hown hfs).1
    have hsettled := ht.settled_of_rest fun e he => ht.none_of_rest hrest he
    have hsub : t.owner.outcomes ⊆ s.owner.outcomes :=
      Transition.run_rel (R := fun s t => t.owner.outcomes ⊆ s.owner.outcomes)
        (fun _ => List.Subset.refl _) (fun _ _ _ h h' => List.Subset.trans h' h)
        (fun e he _ _ => outcomes_subset (hown e he)) hfs
    refine ⟨hsettled, hsub ?_⟩
    unfold Settled at hsettled
    cases ho : t.owner with
    | free | running | destroyed | quitting => exact List.mem_singleton.2 rfl
    | _ =>
      rw [ho] at hsettled
      exact absurd hsettled id

/-- One tagged thread, a `start()` that fails because of a listener, and the destructor.  The thread
has just been told to shut down. -/
def failedStart : List StartupEvent :=
  [.addTaggedThread "a" (some 7), .thread 0 .test, .start, .proxyLoopInit .late, .resume, .destroy]

theorem calls_return_failedStart :
    ∃ s, Transition.run (Startup.step plainCategories) (fresh oneThread) failedStart = some s ∧
      s.owner = .shutdown ∧
      ∃ fs t, (∀ e ∈ fs, e.isOwn = true) ∧
        Transition.run (Startup.step plainCategories) s fs = some t ∧ t.owner = .destroyed ∧
        ∀ u ∈ t.threads, u.pc = .exited ∧ u.joinable = false := by
  have hrun :
      Transition.run (Startup.step plainCategories) (fresh oneThread) failedStart = some _ :=
    rfl
  obtain ⟨hends, fs, t, hown, hfs, hrest⟩ := calls_return hrun (by decide)
  obtain ⟨hsettled, hmem⟩ := (hends fs t hown hfs).2 hrest
  have howner : t.owner = .destroyed := List.mem_singleton.1 hmem
  rw [Settled, howner] at hsettled
  exact ⟨_, hrun, rfl, fs, t, hown, hfs, howner, hsettled.2⟩

/-! ## A failed start -/

/-- The proxy thread has made the sockets of the workers, and has not got to the tagged threads. -/
def Failed (s : Startup) : Prop := s.workerSockets ≠ 0 ∧ s.proxy.released = false

theorem Failed.step (h : s.Failed) {e : StartupEvent} (hs : Startup.step cfg s e = some s') :
    s'.Failed := by
  cases e with
  | setThreads count threads =>
    rw [Startup.step] at hs
    obtain ⟨_, rfl | hok⟩ := call_cases hs
    · exact h
    · obtain ⟨_, _, rfl⟩ := setThreads_eq hok
      exact h
  | addTaggedThread name start =>
    rw [Startup.step] at hs
    obtain ⟨_, rfl | hok⟩ := call_cases hs
    · exact h
    · obtain ⟨_, rfl⟩ := addTaggedThread_eq hok
      exact h
  | start =>
    rw [Startup.step] at hs
    obtain ⟨_, rfl | hok⟩ := call_cases hs
    · exact h
    · obtain ⟨_, rfl⟩ := start_eq hok
      exact ⟨h.1, rfl⟩
  | destroy =>
    rw [Startup.step] at hs
    obtain ⟨_, rfl | hok⟩ := call_cases hs
    · exact h
    · cases hok
      unfold Startup.destroy
      split_ifs <;> exact h
  | thread i e =>
    obtain ⟨t, _, hact⟩ := Option.bind_eq_some_iff.1 hs
    obtain ⟨r, _, rfl⟩ := Option.map_eq_some_iff.1 hact
    exact h
  | proxyLoopInit outcome =>
    -- The sockets of the first attempt are still there.
    replace hs : s.proxyLoopInit outcome = some s' := hs
    unfold Startup.proxyLoopInit at hs
    split at hs
    · dsimp only at hs
      rw [if_pos h.1] at hs
      split at hs <;> cases hs <;> exact ⟨h.1, rfl⟩
    · cases hs
  | _ =>
    have hreleased := h.2
    simp only [Startup.step, Startup.resume, Startup.getReady, Startup.notifyShutdown, Startup.join,
      Startup.announce, Startup.collect, Startup.release, Startup.serve, notifyAll] at hs
    repeat' split at hs
    all_goals cases hs
    all_goals first
      | exact h
      | exact ⟨h.1, rfl⟩
      | simp_all [ProxyPc.released]

/-- **A failed `start()` cannot be repaired.**  If `start()` has thrown because of a listener, then
whatever the owner does, no later `start()` returns: the sockets of the workers are never taken
away, and the proxy thread refuses to start with them. -/
theorem failed_for_good {settings : Settings} {es : List StartupEvent} {t : Startup}
    (hrun : Transition.run (Startup.step cfg) (fresh settings) es = some s)
    (hfailed : s.workerSockets ≠ 0 ∧ s.proxy.released = false) (fs : List StartupEvent)
    (hfs : Transition.run (Startup.step cfg) s fs = some t) (hlen : t.threads.length < 2 ^ 32) :
    t.proxy ≠ .looping ∧ t.owner ≠ .running ∧ t.owner ≠ .waitsReady := by
  have ht : t.Failed := Transition.run_rel (R := fun s t => s.Failed → t.Failed) (fun _ => id)
    (fun _ _ _ h h' => h' ∘ h) (fun _ _ _ _ hs h => h.step hs) hfs hfailed
  have hinv := inv_of_run (Transition.run_append_eq_some.2 ⟨s, hrun, hfs⟩) hlen
  have hroles := hinv.roles
  have hloop : t.proxy ≠ .looping := fun hproxy => by
    have := ht.2
    rw [hproxy] at this
    cases this
  refine ⟨hloop, fun howner => ?_, fun howner => ?_⟩
  · rw [howner] at hroles
    exact hloop hroles
  · rw [howner] at hroles
    exact hloop hroles

/-- The second `start()` is called with listeners that would do. -/
theorem failed_for_good_retried :
    ∃ s t, Transition.run (Startup.step plainCategories) (fresh oneThread)
        [.start, .proxyLoopInit .late, .resume] = some s ∧ s.owner = .free ∧
      Transition.run (Startup.step plainCategories) s [.start, .proxyLoopInit .fine] = some t ∧
      t.proxy = .failed .activeWorkers ∧ t.proxy ≠ .looping := by
  have hrun : Transition.run (Startup.step plainCategories) (fresh oneThread)
      [.start, .proxyLoopInit .late, .resume] = some _ := rfl
  refine ⟨_, _, hrun, rfl, rfl, rfl, ?_⟩
  exact (failed_for_good hrun (by decide) [.start, .proxyLoopInit .fine] rfl (by decide)).1

end Startup

end OxenMQ
