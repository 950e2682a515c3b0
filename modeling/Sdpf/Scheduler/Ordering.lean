import Mathlib.Data.List.Nodup
import Sdpf.Scheduler.Steps

/-!
# Tasks in order

What is pushed is called once, in the order of the pushes and by the thread inside `run`,
and before a stop a queue that is not empty always has somebody to call it: the flag is
set, `on_async` is running, or the thread that pushed is about to send (`tasks_in_order`).
-/

namespace Sdpf.Scheduler

open Sdpf.Semantics Sdpf.Uv

variable {Thread Task : Type}

namespace IOScheduler

variable [DecidableEq Thread]

/-- The tasks `on_async` has taken and not called. -/
def batch (s : IOScheduler Thread Task) : List (Entry Task) :=
  match s.async with
  | .running rest => rest
  | _ => []

/-- The posted jobs that have been called, in order. -/
def posted (s : IOScheduler Thread Task) : List (Entry Task) := s.ran.filterMap Ran.entry

/-- What holds in every run. -/
structure Ordered (s : IOScheduler Thread Task) : Prop where
  /-- What was pushed has been called in order, or has been taken, or is in the queue. -/
  conserved : s.pushed = s.posted ++ (s.batch ++ s.queue)
  numbered : s.pushed.map Entry.ticket = List.range s.pushed.length
  own : s.loopThread = s.runner
  /-- Every job was called by the thread inside `run`. -/
  inside : ∀ ran ∈ s.ran, ran.inside = some ran.runBy

section Order

variable {s : IOScheduler Thread Task}

omit [DecidableEq Thread] in
/-- A job called by the thread inside `run`. -/
theorem Ordered.start {entry : Option (Entry Task)} {job : Job Task} {thread : Thread}
    (conserved : s.pushed = s.posted ++ (entry.toList ++ (s.batch ++ s.queue)))
    (numbered : s.pushed.map Entry.ticket = List.range s.pushed.length)
    (own : s.loopThread = s.runner) (inside : ∀ ran ∈ s.ran, ran.inside = some ran.runBy)
    (runs : s.runner = some thread) : (s.start entry job thread).Ordered := by
  have recorded : (s.record entry job thread).Ordered := by
    refine ⟨?_, numbered, own, fun ran member => ?_⟩
    · have posted : (s.record entry job thread).posted = s.posted ++ entry.toList := by
        simp only [record, IOScheduler.posted, List.filterMap_append]
        cases entry <;> rfl
      rw [posted, List.append_assoc]
      exact conserved
    · rcases List.mem_append.mp member with earlier | new
      · exact inside ran earlier
      · rw [List.mem_singleton.mp new]
        exact runs
  have outcome := s.start_cases entry job thread
  generalize s.start entry job thread = after at outcome
  cases outcome with
  | user => exact ⟨recorded.conserved, recorded.numbered, recorded.own, recorded.inside⟩
  | again => exact recorded
  | closing => exact ⟨recorded.conserved, recorded.numbered, recorded.own, recorded.inside⟩
  | close => exact ⟨recorded.conserved, recorded.numbered, recorded.own, recorded.inside⟩

/-- Every step keeps the order of the jobs. -/
theorem Ordered.step {after : IOScheduler Thread Task} {action : Action Thread Task}
    (ordered : s.Ordered) (taken : s.step action = some after) : after.Ordered := by
  obtain ⟨conserved, numbered, own, inside⟩ := ordered
  cases step_cases taken with
  | quiet => exact ⟨conserved, numbered, own, inside⟩
  | init _ free => exact ⟨conserved, numbered, free.symm, inside⟩
  | run => exact ⟨conserved, numbered, rfl, inside⟩
  | post => exact ⟨conserved, numbered, own, inside⟩
  | dispatch => exact ⟨conserved, numbered, own, inside⟩
  | stop => exact ⟨conserved, numbered, own, inside⟩
  | leave => exact ⟨conserved, numbered, own, inside⟩
  | inline _ here =>
      exact Ordered.start conserved numbered own inside (own.symm.trans here)
  | handOver => exact ⟨conserved, numbered, own, inside⟩
  | push =>
      refine ⟨?_, ?_, own, inside⟩
      · simp only [conserved, List.append_assoc]
        rfl
      · simp only [List.map_append, numbered, List.map_cons, List.map_nil, List.length_append,
          List.length_singleton, List.range_succ]
  | send => exact ⟨conserved, numbered, own, inside⟩
  | async waiting =>
      refine ⟨?_, numbered, own, inside⟩
      rwa [batch, waiting.2.1] at conserved
  | swap entered =>
      refine ⟨?_, numbered, own, inside⟩
      rw [batch, entered] at conserved
      simpa [batch, IOScheduler.posted] using conserved
  | next runs takes =>
      refine Ordered.start ?_ numbered own inside runs
      rw [batch, takes] at conserved
      exact conserved
  | asyncDone done =>
      refine ⟨?_, numbered, own, inside⟩
      rwa [batch, done] at conserved
  | callback => exact ⟨conserved, numbered, own, inside⟩
  | ret => exact ⟨conserved, numbered, own, inside⟩
  | closed => exact ⟨conserved, numbered, own, inside⟩
  | finish => exact ⟨conserved, numbered, rfl, inside⟩

/-- Every run keeps the tasks in order. -/
theorem Ordered.of_runs {start : IOScheduler Thread Task} {actions : List (Action Thread Task)}
    (initial : schedulerMachine.Initial start) (runs : schedulerMachine.Runs start actions s) :
    s.Ordered := by
  refine runs.invariant Ordered (fun ordered taken => ordered.step taken) ?_
  cases initial
  exact ⟨rfl, rfl, rfl, fun _ member => by cases member⟩

end Order

/-- No job is left in the queue without a signal, a loop that is about to take it, or a
thread that is about to signal. -/
def Awake (s : IOScheduler Thread Task) : Prop :=
  s.queue ≠ [] → s.signal = true ∨ s.async = .entered ∨ ∃ thread, s.call thread = .pushed

/-- What holds until `stop` is called. -/
structure Unstopped (s : IOScheduler Thread Task) : Prop where
  calls : ∀ thread, s.call thread ≠ .asked .onStop ∧ s.call thread ≠ .checked .onStop
  jobs : ∀ entry ∈ s.batch ++ s.queue, entry.job ≠ .onStop
  running : s.uvStop = false ∧ s.handle.phase ≠ .closing
  down : s.isInit = false → s.queue = [] ∧ ∀ thread, s.call thread = .idle
  awake : s.Awake

section Stopless

variable {s : IOScheduler Thread Task}

/-- Moving a thread on that is not about to signal. -/
theorem Awake.goto {thread : Thread} (awake : s.Awake) (call : Call Task)
    (other : s.call thread ≠ .pushed) : (s.goto thread call).Awake := by
  intro waits
  refine (awake waits).imp_right (Or.imp_right ?_)
  rintro ⟨signaller, pushed⟩
  refine ⟨signaller, ?_⟩
  rw [goto_call_ne]
  · exact pushed
  · rintro rfl
    exact other pushed

/-- Moving a thread on in a call that does not stop the scheduler. -/
theorem Unstopped.goto {thread : Thread} {call : Call Task} (unstopped : s.Unstopped)
    (other : s.call thread ≠ .pushed) (up : s.isInit = true)
    (harmless : call ≠ .asked .onStop ∧ call ≠ .checked .onStop) :
    (s.goto thread call).Unstopped where
  calls caller := by
    by_cases same : caller = thread
    · rw [same, goto_call_self]
      exact harmless
    · rw [goto_call_ne s call same]
      exact unstopped.calls caller
  jobs := unstopped.jobs
  running := unstopped.running
  down down := by simp [IOScheduler.goto, up] at down
  awake := unstopped.awake.goto call other

omit [DecidableEq Thread] in
/-- A thread that has been found calling has found `init_` set. -/
theorem Unstopped.up {thread : Thread} {call : Call Task} (unstopped : s.Unstopped)
    (calling : s.call thread = call) (busy : call ≠ .idle) : s.isInit = true := by
  by_contra down
  exact busy (calling ▸ (unstopped.down (by simpa using down)).2 thread)

/-- Every step but a call of `stop`. -/
theorem Unstopped.step {after : IOScheduler Thread Task} {action : Action Thread Task}
    (unstopped : s.Unstopped) (other : ∀ thread, action ≠ .stop thread)
    (taken : s.step action = some after) : after.Unstopped := by
  have calls := unstopped.calls
  have jobs := unstopped.jobs
  have running := unstopped.running
  have down := unstopped.down
  have awake := unstopped.awake
  cases step_cases taken with
  | quiet => exact unstopped
  | init isDown free =>
      obtain ⟨empty, idle⟩ := down isDown
      refine ⟨calls, jobs, ⟨running.1, ?_⟩, fun up => by simp at up, fun waits => absurd empty waits⟩
      simp only [Handle.init]
      split_ifs <;> decide
  | run up => exact ⟨calls, jobs, running, fun isDown => by simp [up] at isDown, awake⟩
  | post idle up => exact unstopped.goto (by simp [idle]) up (by simp)
  | dispatch idle up => exact unstopped.goto (by simp [idle]) up (by simp)
  | stop => exact absurd rfl (other _)
  | leave asked => exact unstopped.goto (by simp [asked]) (unstopped.up asked (by simp)) (by simp)
  | @inline thread job asked own =>
      have up : s.isInit = true := unstopped.up asked (by simp)
      have moved : (s.goto thread .idle).Unstopped :=
        unstopped.goto (by simp [asked]) up (by simp)
      cases job with
      | user task => exact ⟨moved.calls, moved.jobs, moved.running, moved.down, moved.awake⟩
      | onStop => exact absurd asked (calls thread).1
  | @handOver thread job asked up =>
      refine unstopped.goto (by simp [asked]) up ⟨by simp, fun stops => ?_⟩
      cases stops
      exact (calls thread).1 asked
  | @push thread job checked =>
      have up : s.isInit = true := unstopped.up checked (by simp)
      have moved : (s.goto thread .pushed).Unstopped :=
        unstopped.goto (by simp [checked]) up (by simp)
      refine ⟨moved.calls, fun entry member => ?_, running, fun isDown => ?_, fun _ => ?_⟩
      · simp only [← List.append_assoc] at member
        rcases List.mem_append.mp member with earlier | new
        · exact jobs entry earlier
        · rw [List.mem_singleton.mp new]
          rintro rfl
          exact (calls thread).2 checked
      · simp [IOScheduler.goto, up] at isDown
      · exact .inr (.inr ⟨thread, goto_call_self s thread .pushed⟩)
  | @send thread sends =>
      have up : s.isInit = true := unstopped.up sends (by simp)
      refine ⟨fun caller => ?_, jobs, running, fun isDown => ?_, fun _ => .inl rfl⟩
      · by_cases same : caller = thread
        · simp [same]
        · have kept := goto_call_ne s .idle same
          exact kept ▸ calls caller
      · simp [IOScheduler.goto, up] at isDown
  | async waiting =>
      refine ⟨calls, ?_, running, down, fun _ => .inr (.inl rfl)⟩
      rw [batch, waiting.2.1] at jobs
      exact jobs
  | swap entered =>
      refine ⟨calls, ?_, running, fun isDown => ⟨rfl, (down isDown).2⟩, fun waits => absurd rfl waits⟩
      rw [batch, entered] at jobs
      simpa [batch] using jobs
  | @next thread entry rest inside takes =>
      rw [batch, takes] at jobs
      have left : ∀ other ∈ rest ++ s.queue, other.job ≠ .onStop := fun other member =>
        jobs other (List.mem_cons_of_mem _ member)
      have waking : ∀ other : IOScheduler Thread Task, other.queue = s.queue →
          other.signal = s.signal → other.call = s.call → other.Awake := by
        intro other queue signal call waits
        rw [queue] at waits
        rw [signal, call]
        rcases awake waits with signalled | entered | signals
        · exact .inl signalled
        · rw [takes] at entered
          cases entered
        · exact .inr (.inr signals)
      obtain ⟨ticket, cycle, job⟩ := entry
      cases job with
      | user task => exact ⟨calls, left, running, down, waking _ rfl rfl rfl⟩
      | onStop => exact absurd rfl (jobs _ List.mem_cons_self)
  | asyncDone done =>
      refine ⟨calls, ?_, running, down, fun waits => ?_⟩
      · rw [batch, done] at jobs
        exact jobs
      · refine (awake waits).imp_right (Or.imp_left fun entered => ?_)
        rw [done] at entered
        cases entered
  | callback => exact ⟨calls, jobs, running, down, awake⟩
  | ret => exact ⟨calls, jobs, running, down, awake⟩
  | closed _ closing => exact absurd closing running.2
  | finish _ stopped => simp [running.1] at stopped

/-- Without a call of `stop` no run is shut down. -/
theorem Unstopped.of_runs {start : IOScheduler Thread Task} {actions : List (Action Thread Task)}
    (initial : schedulerMachine.Initial start) (runs : schedulerMachine.Runs start actions s)
    (unstopped : ∀ thread, .stop thread ∉ actions) : s.Unstopped := by
  have stopless : schedulerMachine.Along (fun _ action => ∀ thread : Thread,
      action ≠ .stop thread) start actions :=
    .of_mem fun action member thread stops => unstopped thread (stops ▸ member)
  refine runs.guarded Unstopped (fun unstopped other taken => unstopped.step other taken) ?_ stopless
  cases initial
  exact ⟨fun _ => ⟨nofun, nofun⟩, fun _ member => (by cases member), ⟨rfl, nofun⟩,
    fun _ => ⟨rfl, fun _ => rfl⟩, fun waits => absurd rfl waits⟩

end Stopless

section Tasks

variable {start s : IOScheduler Thread Task} {actions : List (Action Thread Task)}

/-- The call of `dispatch` by a thread is a call of the job before it returns. -/
def RunsAtOnce (s : IOScheduler Thread Task) (thread : Thread) : Prop :=
  ∀ job after, s.call thread = .asked job → s.step (.decide thread) = some after →
    after.ran = s.ran ++ [⟨none, job, thread, some thread, s.cycle⟩] ∧
      after.queue = s.queue ∧ after.pushed = s.pushed ∧ after.call thread = .idle

/-- `dispatch` on the thread inside `run` calls the job itself. -/
theorem Ordered.runsAtOnce {thread : Thread} (ordered : s.Ordered)
    (inside : s.runner = some thread) : s.RunsAtOnce thread := by
  intro job after asked taken
  have own : s.loopThread = some thread := ordered.own.trans inside
  rw [IOScheduler.step, decideCall, asked] at taken
  simp only [own, if_true, Option.some.injEq] at taken
  subst taken
  have outcome := (s.goto thread .idle).start_cases none job thread
  generalize (s.goto thread .idle).start none job thread = after at outcome
  have recorded : ((s.goto thread .idle).record none job thread).ran =
      s.ran ++ [⟨none, job, thread, some thread, s.cycle⟩] := by
    rw [← inside]
    rfl
  have idle : ((s.goto thread .idle).record none job thread).call thread = .idle :=
    goto_call_self s thread .idle
  cases outcome with
  | user => exact ⟨recorded, rfl, rfl, idle⟩
  | again => exact ⟨recorded, rfl, rfl, idle⟩
  | closing => exact ⟨recorded, rfl, rfl, idle⟩
  | close => exact ⟨recorded, rfl, rfl, idle⟩

/-- Until `stop` is called the jobs are run once each, in order, on the loop thread, and
none is left waiting for a signal. -/
theorem tasks_in_order (initial : schedulerMachine.Initial start)
    (runs : schedulerMachine.Runs start actions s) (unstopped : ∀ thread, .stop thread ∉ actions) :
    s.posted <+: s.pushed ∧ s.pushed.Nodup ∧ (∀ ran ∈ s.ran, ran.inside = some ran.runBy) ∧
      (∀ thread, s.runner = some thread → s.RunsAtOnce thread) ∧ s.Awake := by
  have ordered := Ordered.of_runs initial runs
  have waking := Unstopped.of_runs initial runs unstopped
  refine ⟨⟨_, ordered.conserved.symm⟩, List.Nodup.of_map Entry.ticket ?_, ordered.inside,
    fun thread inside => ordered.runsAtOnce inside, waking.awake⟩
  rw [ordered.numbered]
  exact List.nodup_range

end Tasks

/-- Two threads post under one signal, and the first task dispatches a task and posts another. -/
theorem tasks_in_order_nested :
    ∃ s : IOScheduler Nat Nat, schedulerMachine.Runs fresh
        [.init 0 0, .run 0, .post 1 (some 10), .post 2 (some 20), .push 1, .push 2, .send 2, .async,
          .swap, .send 1, .next, .dispatch 0 (some 11), .decide 0, .post 0 (some 12), .push 0] s ∧
      s.ran.map Ran.job = [.user 10, .user 11] ∧ s.queue.map Entry.job = [.user 12] ∧
      s.posted <+: s.pushed ∧ s.Awake := by
  have executed : (schedulerMachine.run (fresh : IOScheduler Nat Nat)
      [.init 0 0, .run 0, .post 1 (some 10), .post 2 (some 20), .push 1, .push 2, .send 2, .async,
        .swap, .send 1, .next, .dispatch 0 (some 11), .decide 0, .post 0 (some 12), .push 0]).map
        (fun s => (s.ran.map Ran.job, s.queue.map Entry.job)) =
      some ([.user 10, .user 11], [.user 12]) := by
    decide +kernel
  obtain ⟨s, runs, seen⟩ := Machine.Runs.of_map executed
  simp only [Prod.mk.injEq] at seen
  have sound := tasks_in_order rfl runs (by simp)
  exact ⟨s, runs, seen.1, seen.2, sound.1, sound.2.2.2.2⟩

end IOScheduler

end Sdpf.Scheduler
