import Sdpf.Data.Search
import Sdpf.Threads.BlockingQueue

/-!
# The thread pool

One owner starts and stops the pool, any thread appends tasks, and each worker loops
over `pop` and the task it got. `append` asks nothing of the pool: it also accepts a
task while the pool is not running, and `start` begins by emptying the queue.
-/

namespace Sdpf.Threads

open Sdpf.Data Sdpf.Semantics

/-- A `std::function`, which may be empty, as the `ticket`-th that was accepted. -/
structure Job (Task : Type) where
  ticket : Nat
  task : Option Task
deriving DecidableEq, Repr

/-- Where the owner is between its calls. -/
inductive Stage (Thread : Type) where
  | idle
  /-- Inside `add_thread`, with these threads left to create. -/
  | starting (left : List Thread)
  /-- Inside `stop`, joining. -/
  | stopping
deriving DecidableEq, Repr

def Stage.isStarting {Thread : Type} : Stage Thread → Bool
  | .starting _ => true
  | _ => false

/-- `ThreadPoolImp`, its owner and its workers. -/
structure ThreadPool (Thread Task : Type) where
  /-- `tasks_`. -/
  monitor : Monitor Thread (Job Task)
  /-- `threads_`. -/
  threads : List Thread
  stage : Stage Thread
  /-- Workers about to call `pop`. -/
  ready : List Thread
  /-- Workers that have got a task. -/
  holding : List (Thread × Job Task)
  /-- Workers that have left `run`. -/
  finished : List Thread
  /-- The tasks that `append` accepted. -/
  accepted : List (Option Task)
  /-- The tickets of the tasks that were called. -/
  executed : List Nat
  /-- How many tasks had been accepted when `stop` last set the exit flag. -/
  stopped : Nat

inductive Event (Thread Task : Type) where
  | start (workers : List Thread) (maxTask : Nat)
  | addThread
  | stop
  | join
  | append (task : Option Task) (wakes : Option Thread)
  | pop (thread : Thread)
  | stir (thread : Thread)
  | resume (thread : Thread)
  /-- A worker calls the task it holds. -/
  | call (thread : Thread)
deriving DecidableEq, Repr

namespace ThreadPool

variable {Thread Task : Type}

/-- A pool after its constructor. -/
def fresh : ThreadPool Thread Task where
  monitor := .init 0
  threads := []
  stage := .idle
  ready := []
  holding := []
  finished := []
  accepted := []
  executed := []
  stopped := 0

/-- `ThreadPoolImp::start` up to `add_thread`. -/
def start (s : ThreadPool Thread Task) (workers : List Thread) (maxTask : Nat) : ThreadPool Thread Task :=
  if workers.length < 1 ∨ ¬ s.threads.isEmpty then s
  else { s with
    monitor := { s.monitor with tasks := .init maxTask }
    stage := .starting workers }

/-- One round of `ThreadPoolImp::add_thread`. -/
def addThread (s : ThreadPool Thread Task) : Option (ThreadPool Thread Task) :=
  match s.stage with
  | .starting (thread :: left) =>
      some { s with
        threads := s.threads ++ [thread]
        ready := thread :: s.ready
        stage := if left.isEmpty then .idle else .starting left }
  | _ => none

/-- `ThreadPoolImp::stop` up to the joins. -/
def stop (s : ThreadPool Thread Task) : ThreadPool Thread Task :=
  if s.threads.isEmpty then s
  else { s with
    monitor := s.monitor.notifyExit
    stage := .stopping
    stopped := s.accepted.length }

/-- A pass of `pop` in a worker's loop, which ends when `pop` returns `false`. -/
def pass (s : ThreadPool Thread Task) (thread : Thread) : ThreadPool Thread Task :=
  match s.monitor.pass thread with
  | (none, monitor) => { s with monitor := monitor }
  | (some none, monitor) => { s with monitor := monitor, finished := thread :: s.finished }
  | (some (some job), monitor) =>
      { s with monitor := monitor, holding := (thread, job) :: s.holding }

section Step

variable [DecidableEq Thread]

/-- `ThreadPoolImp::append`. -/
def append (s : ThreadPool Thread Task) (task : Option Task) (wakes : Option Thread) :
    Option (ThreadPool Thread Task) :=
  (s.monitor.push ⟨s.accepted.length, task⟩ wakes).map fun result =>
    { s with
      monitor := result.2
      accepted := if result.1 then s.accepted ++ [task] else s.accepted }

/-- The call of a task in a worker's loop; an empty one is passed over. -/
def call (s : ThreadPool Thread Task) (thread : Thread) : Option (ThreadPool Thread Task) :=
  (s.holding.find? fun held => held.1 = thread).map fun held =>
    { s with
      ready := thread :: s.ready
      holding := s.holding.eraseP fun held => held.1 = thread
      executed := if held.2.task.isSome then s.executed ++ [held.2.ticket] else s.executed }

def step (s : ThreadPool Thread Task) : Event Thread Task → Option (ThreadPool Thread Task)
  | .start workers maxTask =>
      if s.stage = .idle ∧ workers.Nodup then some (s.start workers maxTask) else none
  | .addThread => s.addThread
  | .stop => if s.stage = .idle then some s.stop else none
  | .join =>
      if s.stage = .stopping ∧ ∀ thread ∈ s.threads, thread ∈ s.finished then
        some { s with threads := [], finished := [], stage := .idle }
      else none
  | .append task wakes => s.append task wakes
  | .pop thread =>
      if thread ∈ s.ready then some (pass { s with ready := s.ready.erase thread } thread)
      else none
  | .stir thread =>
      (s.monitor.cond.stir thread).map fun cond =>
        { s with monitor := { s.monitor with cond := cond } }
  | .resume thread =>
      (s.monitor.cond.resume thread).map fun cond =>
        pass { s with monitor := { s.monitor with cond := cond } } thread
  | .call thread => s.call thread

/-- The life of a pool. -/
def poolMachine : Machine (ThreadPool Thread Task) (Event Thread Task) where
  Initial s := s = fresh
  step := step

/-- Every step, by the function that takes it. -/
inductive Transition (s : ThreadPool Thread Task) : Event Thread Task → ThreadPool Thread Task → Prop where
  | start {workers maxTask} (between : s.stage = .idle) (none : s.threads = [])
      (some_workers : workers ≠ []) :
      Transition s (.start workers maxTask) { s with
        monitor := { s.monitor with tasks := .init maxTask }
        stage := .starting workers }
  | addThread {thread left} (begun : s.stage = .starting (thread :: left)) :
      Transition s .addThread { s with
        threads := s.threads ++ [thread]
        ready := thread :: s.ready
        stage := if left.isEmpty then .idle else .starting left }
  | stop (between : s.stage = .idle) (running : s.threads ≠ []) :
      Transition s .stop { s with
        monitor := s.monitor.notifyExit
        stage := .stopping
        stopped := s.accepted.length }
  | join (begun : s.stage = .stopping) (all : ∀ thread ∈ s.threads, thread ∈ s.finished) :
      Transition s .join { s with threads := [], finished := [], stage := .idle }
  | append {task wakes cond} (room : s.monitor.tasks.full = false)
      (notified : s.monitor.cond.notifyOne wakes = some cond) :
      Transition s (.append task wakes) { s with
        monitor := ⟨{ s.monitor.tasks with
          queue := s.monitor.tasks.queue ++ [⟨s.accepted.length, task⟩] }, cond⟩
        accepted := s.accepted ++ [task] }
  | pop {thread} (here : thread ∈ s.ready) :
      Transition s (.pop thread) (pass { s with ready := s.ready.erase thread } thread)
  | stir {thread cond} (stirs : s.monitor.cond.stir thread = some cond) :
      Transition s (.stir thread) { s with monitor := { s.monitor with cond := cond } }
  | resume {thread cond} (resumes : s.monitor.cond.resume thread = some cond) :
      Transition s (.resume thread)
        (pass { s with monitor := { s.monitor with cond := cond } } thread)
  | call {thread job rest} (held : s.holding.Perm ((thread, job) :: rest)) :
      Transition s (.call thread) { s with
        ready := thread :: s.ready
        holding := rest
        executed := if job.task.isSome then s.executed ++ [job.ticket] else s.executed }
  /-- A call that returned an error, and left everything as it was. -/
  | refused {event} : Transition s event s

/-- A step that is taken is one of these. -/
theorem step_cases {s next : ThreadPool Thread Task} {event : Event Thread Task}
    (taken : s.step event = some next) : Transition s event next := by
  cases event with
  | start workers maxTask =>
      simp only [step, Option.ite_none_right_eq_some, Option.some.injEq] at taken
      obtain ⟨⟨between, _⟩, rfl⟩ := taken
      unfold start
      split_ifs with wrong
      · exact .refused
      · simp only [not_or, not_not, List.isEmpty_iff] at wrong
        exact .start between wrong.2 (List.length_pos_iff.mp (by omega))
  | addThread =>
      simp only [step, addThread] at taken
      split at taken
      · next begun =>
          cases taken
          exact .addThread begun
      · cases taken
  | stop =>
      simp only [step, Option.ite_none_right_eq_some, Option.some.injEq] at taken
      obtain ⟨between, rfl⟩ := taken
      unfold stop
      split_ifs with none
      · exact .refused
      · exact .stop between (by simpa using none)
  | join =>
      simp only [step, Option.ite_none_right_eq_some, Option.some.injEq] at taken
      obtain ⟨⟨begun, all⟩, rfl⟩ := taken
      exact .join begun all
  | append task wakes =>
      obtain ⟨⟨accepted, monitor⟩, pushed, rfl⟩ := Option.map_eq_some_iff.mp taken
      obtain ⟨full, rfl, rfl⟩ | ⟨room, rfl, queued, notified⟩ := Monitor.push_cases pushed
      · exact .refused
      · obtain ⟨tasks, cond⟩ := monitor
        cases queued
        exact .append room notified
  | pop thread =>
      simp only [step, Option.ite_none_right_eq_some, Option.some.injEq] at taken
      obtain ⟨here, rfl⟩ := taken
      exact .pop here
  | stir thread =>
      obtain ⟨cond, stirs, rfl⟩ := Option.map_eq_some_iff.mp taken
      exact .stir stirs
  | resume thread =>
      obtain ⟨cond, resumes, rfl⟩ := Option.map_eq_some_iff.mp taken
      exact .resume resumes
  | call thread =>
      obtain ⟨⟨holder, job⟩, found, rfl⟩ := Option.map_eq_some_iff.mp taken
      have same : holder = thread := by simpa using List.find?_some found
      subst same
      exact .call (perm_cons_eraseP found)

end Step

end ThreadPool

end Sdpf.Threads
