import Sdpf.Semantics.Machine
import Sdpf.Uv.Handle

/-!
# The scheduler of a loop

`IOScheduler` with the threads that call it and the loop that one of them runs. A call
of `post` is a sequence of steps that other threads interleave with: the test of
`init_`, the push under the mutex, and `uv_async_send`, which sets a flag that the loop
clears before it calls `on_async`. `on_async` takes the whole queue and runs it, and what
it runs may call `post` and `dispatch` again.
-/

namespace Sdpf.Scheduler

open Sdpf.Semantics Sdpf.Uv

variable {Thread Task : Type}

/-- What can be put into the queue. -/
inductive Job (Task : Type) where
  | user (task : Task)
  | onStop
deriving DecidableEq, Repr

/-- An element of `queue_task_`: the job, its place in the order of the pushes, and the
number of calls of `init` before it. -/
structure Entry (Task : Type) where
  ticket : Nat
  cycle : Nat
  job : Job Task
deriving DecidableEq, Repr

/-- How far a thread has got in a call of `post` or `dispatch`. -/
inductive Call (Task : Type) where
  | idle
  /-- `dispatch` has found `init_` set. -/
  | asked (job : Job Task)
  /-- `post` has found `init_` set. -/
  | checked (job : Job Task)
  /-- Between the push and `uv_async_send`. -/
  | pushed
deriving DecidableEq, Repr

instance : (call : Call Task) → Decidable (call = .idle)
  | .idle => .isTrue rfl
  | .asked _ | .checked _ | .pushed => .isFalse nofun

/-- Where the loop is in `on_async`. -/
inductive Async (Task : Type) where
  | outside
  /-- Before the swap. -/
  | entered
  /-- With this rest of `temp` to run. -/
  | running (rest : List (Entry Task))
deriving DecidableEq, Repr

instance : (async : Async Task) → Decidable (async = .outside)
  | .outside => .isTrue rfl
  | .entered | .running _ => .isFalse nofun

/-- A job that was run: where it came from if it was posted, the thread that ran it, the
thread that was inside `run`, and the cycle. -/
structure Ran (Thread Task : Type) where
  entry : Option (Entry Task)
  job : Job Task
  runBy : Thread
  inside : Option Thread
  cycle : Nat
deriving DecidableEq, Repr

/-- `IOSchedulerImp`, its loop and its callers. -/
structure IOScheduler (Thread Task : Type) where
  /-- `init_`. -/
  isInit : Bool
  handle : Handle
  /-- `queue_task_`. -/
  queue : List (Entry Task)
  /-- The flag `uv_async_send` sets. -/
  signal : Bool
  /-- `loop_thread_id_`. -/
  loopThread : Option Thread
  /-- The thread inside `run`. -/
  runner : Option Thread
  async : Async Task
  /-- How deep the loop thread is in tasks and in callbacks of other handles. -/
  depth : Nat
  /-- The flag `uv_stop` sets. -/
  uvStop : Bool
  call : Thread → Call Task
  /-- Calls of `init` that succeeded. -/
  cycle : Nat
  /-- Everything that was pushed. -/
  pushed : List (Entry Task)
  ran : List (Ran Thread Task)

inductive Action (Thread Task : Type) where
  /-- `init`, with the results of `uv_loop_init` and `uv_async_init`. -/
  | init (loop async : Int)
  | run (thread : Thread)
  | post (thread : Thread) (f : Option Task)
  | dispatch (thread : Thread) (f : Option Task)
  | stop (thread : Thread)
  /-- `dispatch` goes on from its test of `init_`. -/
  | decide (thread : Thread)
  | push (thread : Thread)
  | send (thread : Thread)
  /-- The loop finds the flag set and calls `on_async`. -/
  | async
  | swap
  /-- `on_async` calls the next task. -/
  | next
  | asyncDone
  /-- The loop calls back for another handle. -/
  | callback
  /-- A task or another callback returns. -/
  | ret
  /-- The close callback of the async handle. -/
  | closed
  /-- `uv_run` returns, and with it `run`. -/
  | finish
deriving DecidableEq, Repr

namespace IOScheduler

/-- A scheduler after its constructor. -/
def fresh : IOScheduler Thread Task where
  isInit := false
  handle := .fresh
  queue := []
  signal := false
  loopThread := none
  runner := none
  async := .outside
  depth := 0
  uvStop := false
  call _ := .idle
  cycle := 0
  pushed := []
  ran := []

/-- `IOSchedulerImp::on_close`. -/
def onClose (s : IOScheduler Thread Task) : IOScheduler Thread Task := { s with uvStop := true }

/-- `IOSchedulerImp::on_stop`. -/
def onStop (s : IOScheduler Thread Task) : IOScheduler Thread Task :=
  if s.isInit then
    let s := { s with isInit := false }
    if s.handle.isClosing then s.onClose else { s with handle := s.handle.close }
  else s

/-- `IOSchedulerImp::init`. -/
def init (s : IOScheduler Thread Task) (loop async : Int) : IOScheduler Thread Task :=
  if s.isInit then s
  else if loop ≠ 0 then s
  else if async ≠ 0 then s
  else { s with
    handle := s.handle.init
    signal := false
    loopThread := none
    isInit := true
    cycle := s.cycle + 1 }

/-- `IOSchedulerImp::run` up to `uv_run`. -/
def run (s : IOScheduler Thread Task) (thread : Thread) : IOScheduler Thread Task :=
  if s.isInit then { s with loopThread := some thread, runner := some thread } else s

/-- Note that a job is called by a thread. -/
def record (s : IOScheduler Thread Task) (entry : Option (Entry Task)) (job : Job Task)
    (thread : Thread) : IOScheduler Thread Task :=
  { s with ran := s.ran ++ [⟨entry, job, thread, s.runner, s.cycle⟩] }

/-- A thread calls a job. A user's task goes on from here; `on_stop` is run whole. -/
def start (s : IOScheduler Thread Task) (entry : Option (Entry Task)) (job : Job Task)
    (thread : Thread) : IOScheduler Thread Task :=
  match job with
  | .user _ => { s.record entry job thread with depth := s.depth + 1 }
  | .onStop => (s.record entry job thread).onStop

/-- A thread that is not in a call may make one; the loop thread, where it runs user code. -/
def MayCall (s : IOScheduler Thread Task) (thread : Thread) : Prop :=
  s.call thread = .idle ∧ (s.runner = some thread → 0 < s.depth)

variable [DecidableEq Thread]

instance (s : IOScheduler Thread Task) (thread : Thread) : Decidable (s.MayCall thread) :=
  inferInstanceAs (Decidable (_ ∧ _))

/-- Move a thread on in its call. -/
def goto (s : IOScheduler Thread Task) (thread : Thread) (call : Call Task) :
    IOScheduler Thread Task :=
  { s with call := Function.update s.call thread call }

/-- The thread that moves. -/
@[simp] theorem goto_call_self (s : IOScheduler Thread Task) (thread : Thread) (call : Call Task) :
    (s.goto thread call).call thread = call := Function.update_self ..

/-- Other threads stay. -/
theorem goto_call_ne (s : IOScheduler Thread Task) {thread other : Thread} (call : Call Task)
    (distinct : other ≠ thread) : (s.goto thread call).call other = s.call other :=
  Function.update_of_ne distinct ..

/-- `post` from its test of `init_` to its return, or to the push. -/
def check (s : IOScheduler Thread Task) (thread : Thread) (job : Job Task) :
    IOScheduler Thread Task :=
  s.goto thread (if s.isInit then .checked job else .idle)

/-- `dispatch` up to its test for the loop thread. `stop` makes the same test before. -/
def ask (s : IOScheduler Thread Task) (thread : Thread) (job : Job Task) :
    IOScheduler Thread Task :=
  s.goto thread (if s.isInit then .asked job else .idle)

/-- `dispatch` from its test for the loop thread on. -/
def decideCall (s : IOScheduler Thread Task) (thread : Thread) :
    Option (IOScheduler Thread Task) :=
  match s.call thread with
  | .asked job =>
      if s.loopThread = some thread then some ((s.goto thread .idle).start none job thread)
      else some (s.check thread job)
  | _ => none

/-- The push of `post`, under the mutex. -/
def push (s : IOScheduler Thread Task) (thread : Thread) : Option (IOScheduler Thread Task) :=
  match s.call thread with
  | .checked job =>
      let entry := ⟨s.pushed.length, s.cycle, job⟩
      some { s.goto thread .pushed with
        queue := s.queue ++ [entry]
        pushed := s.pushed ++ [entry] }
  | _ => none

/-- `uv_async_send`, and the return of `post`. -/
def send (s : IOScheduler Thread Task) (thread : Thread) : Option (IOScheduler Thread Task) :=
  match s.call thread with
  | .pushed => some { s.goto thread .idle with signal := true }
  | _ => none

/-- The loop is between two callbacks. -/
def Waiting (s : IOScheduler Thread Task) : Prop :=
  s.runner ≠ none ∧ s.async = .outside ∧ s.depth = 0

instance (s : IOScheduler Thread Task) : Decidable s.Waiting :=
  inferInstanceAs (Decidable (_ ∧ _ ∧ _))

/-- The swap of `on_async`, under the mutex. -/
def swap (s : IOScheduler Thread Task) : Option (IOScheduler Thread Task) :=
  match s.async with
  | .entered => some { s with async := .running s.queue, queue := [] }
  | _ => none

/-- `on_async` has called all that it has taken. -/
def asyncDone (s : IOScheduler Thread Task) : Option (IOScheduler Thread Task) :=
  match s.async with
  | .running [] => if s.depth = 0 then some { s with async := .outside } else none
  | _ => none

/-- `on_async` calls the first of the tasks it has taken. -/
def next (s : IOScheduler Thread Task) : Option (IOScheduler Thread Task) :=
  match s.runner, s.async with
  | some thread, .running (entry :: rest) =>
      if s.depth = 0 then
        some ({ s with async := .running rest }.start (some entry) entry.job thread)
      else none
  | _, _ => none

/-- A task or another callback returns to what called it. -/
def ret (s : IOScheduler Thread Task) : Option (IOScheduler Thread Task) :=
  match s.runner with
  | some thread =>
      if 0 < s.depth ∧ s.call thread = .idle then some { s with depth := s.depth - 1 } else none
  | none => none

/-- The steps of the callers and of the loop. `run` is entered by one thread at a time, and
`init` called while no thread is inside it. -/
def step (s : IOScheduler Thread Task) : Action Thread Task → Option (IOScheduler Thread Task)
  | .init loop async => if s.runner = none then some (s.init loop async) else none
  | .run thread => if s.runner = none ∧ s.call thread = .idle then some (s.run thread) else none
  | .post thread f =>
      if s.MayCall thread then
        match f with
        | none => some s
        | some task => some (s.check thread (.user task))
      else none
  | .dispatch thread f =>
      if s.MayCall thread then
        match f with
        | none => some s
        | some task => some (s.ask thread (.user task))
      else none
  | .stop thread => if s.MayCall thread then some (s.ask thread .onStop) else none
  | .decide thread => s.decideCall thread
  | .push thread => s.push thread
  | .send thread => s.send thread
  | .async =>
      if s.Waiting ∧ s.signal = true ∧ s.handle.phase = .opened then
        some { s with signal := false, async := .entered }
      else none
  | .swap => s.swap
  | .next => s.next
  | .asyncDone => s.asyncDone
  | .callback => if s.Waiting then some { s with depth := 1 } else none
  | .ret => s.ret
  | .closed =>
      if s.Waiting ∧ s.handle.phase = .closing then
        some { s with handle := s.handle.deliver }.onClose
      else none
  | .finish =>
      if s.Waiting ∧ s.uvStop = true then
        some { s with uvStop := false, isInit := false, loopThread := none, runner := none }
      else none

/-- The runs of a scheduler. -/
def schedulerMachine : Machine (IOScheduler Thread Task) (Action Thread Task) where
  Initial s := s = fresh
  step := step

end IOScheduler

end Sdpf.Scheduler
