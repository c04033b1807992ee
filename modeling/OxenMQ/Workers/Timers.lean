import Mathlib.Data.List.AList
import OxenMQ.Workers.Defs

/-!
# Timers

The timers of `jobs.cpp`.  `zmq` keeps the time: it is given an interval, hands out a number for it,
and calls `_queue_timer_job` with the number whenever the interval is over, until it is told to
stop.  Which number it hands out is up to `zmq`; all that is assumed, wherever timers are added, is
that it is not one of those it has handed out before (`Timers.Fresh`).  The numbers that `add_timer`
hands out are others, and `timer_zmq_id` translates.

The function of a timer runs as a job, or directly in the proxy thread.  If the timer is squelched
its job is a batch, whose completion function runs in the proxy thread and marks the timer as not
running any more.  The completion function knows the timer because it has captured its number;
here `captured` says which timer the completion function of a batch is about, by the address of the
batch.
-/

set_option autoImplicit false

namespace OxenMQ

/-- A `timer_data`. -/
structure TimerJob where
  function : Callback
  squelch : Bool
  running : Bool := false
  /-- The tagged thread, `0` for any thread, or `-1` for the proxy thread. -/
  thread : ℤ
  deriving DecidableEq, Repr

structure Timers where
  /-- `timer_jobs`, by the numbers of `zmq`. -/
  timerJobs : AList (fun _ : ℤ => TimerJob) := ∅
  timerZmqId : AList (fun _ : ℤ => ℤ) := ∅
  /-- The intervals of the timers that `zmq` keeps. -/
  armed : AList (fun _ : ℤ => ℤ) := ∅
  /-- The numbers that `zmq` has handed out. -/
  handedOut : List ℤ := []
  captured : AList (fun _ : ℕ => ℤ) := ∅

namespace Timers

/-- The number has not been handed out. -/
def Fresh (t : Timers) (zmqTimerId : ℤ) : Prop := zmqTimerId ∉ t.handedOut

instance (t : Timers) : DecidablePred t.Fresh := fun _ => inferInstanceAs (Decidable (_ ∉ _))

/-- `proxy_timer`.  `zmq` accepts every interval, and hands out the number `zmqTimerId`. -/
def proxyTimer (t : Timers) (zmqTimerId id : ℤ) (job : Callback) (interval : ℤ) (squelch : Bool)
    (thread : ℤ) : Timers :=
  { t with
    handedOut := t.handedOut ++ [zmqTimerId]
    armed := t.armed.insert zmqTimerId interval
    timerJobs := t.timerJobs.insert zmqTimerId { function := job, squelch, thread }
    timerZmqId := t.timerZmqId.insert id zmqTimerId }

def proxyTimerDel (t : Timers) (id : ℤ) : Timers :=
  match t.timerZmqId.lookup id with
  | none => t
  | some zmqTimerId =>
    { t with armed := t.armed.erase zmqTimerId, timerZmqId := t.timerZmqId.erase id }

/-- The completion function of the job of a squelched timer. -/
def completion : Callback := 0

/-- `_queue_timer_job`, up to the allocation of the job at the address `ptr`.  What is queued is a
batch of one job, which goes to the same queue that `proxy_batch` puts it in. -/
def queueTimerJob (t : Timers) (ptr : ℕ) (timerId : ℤ) : Timers × Option BatchSpec :=
  match t.timerJobs.lookup timerId with
  | none => (t, none)
  | some j =>
    if j.squelch && j.running then (t, none)
    else if j.thread = -1 then (t, none)
    else if j.squelch then
      ({ t with
          timerJobs := t.timerJobs.insert timerId { j with running := true }
          captured := t.captured.insert ptr timerId },
        some { jobs := [(j.function, j.thread)], complete := some (completion, -1) })
    else (t, some { jobs := [(j.function, j.thread)], isJob := true })

/-- A completion function that runs in the proxy thread. -/
def complete (t : Timers) (ptr : ℕ) : Timers :=
  match t.captured.lookup ptr with
  | none => t
  | some timerId =>
    match t.timerJobs.lookup timerId with
    | none => t
    | some j => { t with timerJobs := t.timerJobs.insert timerId { j with running := false } }

end Timers

end OxenMQ
