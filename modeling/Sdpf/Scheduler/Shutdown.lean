import Sdpf.Scheduler.Ordering

/-!
# Stopping a scheduler

`on_stop` closes the async handle, and with it the only way to run what is in the queue.
A task that is in the queue then, or pushed later by a thread that had found `init_` set
before, waits until the next cycle. In every other run all that was pushed has been run
when `run` returns (`shutdown_executes`).
-/

namespace Sdpf.Scheduler

open Sdpf.Semantics Sdpf.Uv

namespace IOScheduler

variable {Thread Task : Type} {s : IOScheduler Thread Task}

/-- What every run keeps to about the loop and its handle. -/
structure Sane (s : IOScheduler Thread Task) : Prop where
  opened : s.isInit = true → s.handle.phase = .opened
  /-- The loop is stopped by the close callback. -/
  stopped : s.uvStop = true → s.isInit = false ∧ s.handle.phase = .closed
  /-- Outside `run` nothing of it is left. -/
  resting : s.runner = none → s.async = .outside ∧ s.uvStop = false ∧ s.handle.phase ≠ .closing
  sound : s.handle.phase ≠ .reused

/-- A job called inside `run`. -/
theorem Sane.start {entry : Option (Entry Task)} {job : Job Task} {thread : Thread}
    (sane : s.Sane) (inside : s.runner = some thread) : (s.start entry job thread).Sane := by
  have running : (s.record entry job thread).runner ≠ none := by
    rw [record, inside]
    exact Option.some_ne_none thread
  have outcome := s.start_cases entry job thread
  generalize s.start entry job thread = after at outcome
  cases outcome with
  | user => exact ⟨sane.opened, sane.stopped, sane.resting, sane.sound⟩
  | again => exact ⟨sane.opened, sane.stopped, sane.resting, sane.sound⟩
  | closing up closing =>
      have phase := sane.opened up
      rw [Handle.isClosing_iff, record, phase] at closing
      rcases closing with other | other <;> cases other
  | close up =>
      refine ⟨fun up => (by cases up), fun stopped => ?_, fun none => absurd none running, ?_⟩
      · have down : s.isInit = false := (sane.stopped stopped).1
        rw [show s.isInit = true from up] at down
        cases down
      · exact Handle.close_sound sane.sound

variable [DecidableEq Thread]

/-- A step keeps the handles of a scheduler sane. -/
theorem Sane.step {after : IOScheduler Thread Task} {action : Action Thread Task}
    (ordered : s.Ordered) (sane : s.Sane) (taken : s.step action = some after) : after.Sane := by
  obtain ⟨opened, stopped, resting, sound⟩ := sane
  cases step_cases taken with
  | quiet => exact ⟨opened, stopped, resting, sound⟩
  | init down free =>
      obtain ⟨outside, still, settled⟩ := resting free
      have phase : s.handle.init.phase = .opened := Handle.init_opened sound settled
      refine ⟨fun _ => phase, fun stops => ?_, fun _ => ⟨outside, still, ?_⟩, ?_⟩
      · rw [still] at stops
        cases stops
      · rw [phase]
        decide
      · rw [phase]
        decide
  | run => exact ⟨opened, stopped, fun free => (by cases free), sound⟩
  | post => exact ⟨opened, stopped, resting, sound⟩
  | dispatch => exact ⟨opened, stopped, resting, sound⟩
  | stop => exact ⟨opened, stopped, resting, sound⟩
  | leave => exact ⟨opened, stopped, resting, sound⟩
  | @inline thread _ _ own =>
      have moved : (s.goto thread .idle).Sane := ⟨opened, stopped, resting, sound⟩
      exact moved.start (ordered.own.symm.trans own)
  | handOver => exact ⟨opened, stopped, resting, sound⟩
  | push => exact ⟨opened, stopped, resting, sound⟩
  | send => exact ⟨opened, stopped, resting, sound⟩
  | async waiting => exact ⟨opened, stopped, fun free => absurd free waiting.1, sound⟩
  | swap entered =>
      refine ⟨opened, stopped, fun free => ?_, sound⟩
      rw [(resting free).1] at entered
      cases entered
  | @next thread entry rest inside takes =>
      have moved : ({ s with async := .running rest } : IOScheduler Thread Task).Sane := by
        refine ⟨opened, stopped, fun free => ?_, sound⟩
        rw [inside] at free
        cases free
      exact moved.start inside
  | asyncDone => exact ⟨opened, stopped, fun free => ⟨rfl, (resting free).2⟩, sound⟩
  | callback => exact ⟨opened, stopped, resting, sound⟩
  | ret => exact ⟨opened, stopped, resting, sound⟩
  | closed waiting closing =>
      have down : s.isInit = false := by
        by_contra up
        rw [opened (by simpa using up)] at closing
        cases closing
      refine ⟨fun up => ?_, fun _ => ⟨down, Handle.deliver_closing closing⟩,
        fun free => absurd free waiting.1, Handle.deliver_sound sound⟩
      rw [down] at up
      cases up
  | finish waiting stops =>
      refine ⟨fun up => (by cases up), fun stops => (by cases stops),
        fun _ => ⟨waiting.2.1, rfl, ?_⟩, sound⟩
      rw [(stopped stops).2]
      decide

/-- The step is a call of `on_stop`. -/
def callsOnStop (s : IOScheduler Thread Task) : Action Thread Task → Bool
  | .next =>
      match s.async with
      | .running (⟨_, _, .onStop⟩ :: _) => true
      | _ => false
  | .decide thread =>
      match s.call thread with
      | .asked .onStop => s.loopThread = some thread
      | _ => false
  | _ => false

/-- Nothing is pushed while `init_` is not set, and when `on_stop` clears it the queue is
empty. -/
def Orderly (s : IOScheduler Thread Task) : Action Thread Task → Prop
  | .push _ => s.isInit = true
  | action => s.callsOnStop action = true → s.isInit = true → s.queue.isEmpty = true

instance (s : IOScheduler Thread Task) : (action : Action Thread Task) → Decidable (s.Orderly action)
  | .push _ => inferInstanceAs (Decidable (s.isInit = true))
  | .init .. | .run _ | .post .. | .dispatch .. | .stop _ | .decide _ | .send _ | .async | .swap
  | .next | .asyncDone | .callback | .ret | .closed | .finish =>
      inferInstanceAs (Decidable (_ → _ → _))

/-- What holds of a scheduler that is stopped in an orderly way. -/
structure Drained (s : IOScheduler Thread Task) : Prop where
  drained : s.isInit = false → s.queue = []
  cycles : ∀ entry ∈ s.batch ++ s.queue, entry.cycle = s.cycle
  current : ∀ ran ∈ s.ran, ∀ entry, ran.entry = some entry → ran.cycle = entry.cycle

omit [DecidableEq Thread] in
/-- A job is called in the cycle it was pushed in, and stops nothing that is left. -/
theorem Drained.start {entry : Option (Entry Task)} {job : Job Task} {thread : Thread}
    (drained : s.Drained) (mine : ∀ own, entry = some own → s.cycle = own.cycle)
    (empty : job = .onStop → s.isInit = true → s.queue = []) :
    (s.start entry job thread).Drained := by
  have current : ∀ ran ∈ (s.record entry job thread).ran, ∀ other, ran.entry = some other →
      ran.cycle = other.cycle := by
    intro ran member other posted
    rcases List.mem_append.mp member with earlier | new
    · exact drained.current ran earlier other posted
    · rw [List.mem_singleton.mp new] at posted ⊢
      exact mine other posted
  have outcome := s.start_cases entry job thread
  generalize s.start entry job thread = after at outcome
  cases outcome with
  | user => exact ⟨drained.drained, drained.cycles, current⟩
  | again => exact ⟨drained.drained, drained.cycles, current⟩
  | closing up => exact ⟨fun _ => empty rfl up, drained.cycles, current⟩
  | close up => exact ⟨fun _ => empty rfl up, drained.cycles, current⟩

/-- An orderly step leaves no task behind. -/
theorem Drained.step {after : IOScheduler Thread Task} {action : Action Thread Task}
    (sane : s.Sane) (drained : s.Drained) (orderly : s.Orderly action)
    (taken : s.step action = some after) : after.Drained := by
  have emptied := drained.drained
  have cycles := drained.cycles
  have current := drained.current
  cases step_cases taken with
  | quiet => exact drained
  | init down free =>
      refine ⟨fun down => (by cases down), fun entry member => ?_, current⟩
      simp only [batch, (sane.resting free).1, emptied down, List.append_nil, List.not_mem_nil]
        at member
  | run => exact ⟨emptied, cycles, current⟩
  | post => exact ⟨emptied, cycles, current⟩
  | dispatch => exact ⟨emptied, cycles, current⟩
  | stop => exact ⟨emptied, cycles, current⟩
  | leave => exact ⟨emptied, cycles, current⟩
  | @inline thread job asked own =>
      have moved : (s.goto thread .idle).Drained := ⟨emptied, cycles, current⟩
      refine moved.start (fun _ posted => (by cases posted)) ?_
      rintro rfl up
      have empty := orderly (by simp [callsOnStop, asked, own]) up
      exact List.isEmpty_iff.mp empty
  | handOver => exact ⟨emptied, cycles, current⟩
  | push =>
      refine ⟨fun down => ?_, fun entry member => ?_, current⟩
      · have up : s.isInit = true := orderly
        rw [show s.isInit = false from down] at up
        cases up
      · simp only [← List.append_assoc] at member
        rcases List.mem_append.mp member with earlier | new
        · exact cycles entry earlier
        · rw [List.mem_singleton.mp new]
          rfl
  | send => exact ⟨emptied, cycles, current⟩
  | async waiting =>
      refine ⟨emptied, ?_, current⟩
      rw [batch, waiting.2.1] at cycles
      exact cycles
  | swap entered =>
      refine ⟨fun _ => rfl, ?_, current⟩
      rw [batch, entered] at cycles
      simpa [batch] using cycles
  | @next thread entry rest inside takes =>
      rw [batch, takes] at cycles
      have moved : ({ s with async := .running rest } : IOScheduler Thread Task).Drained :=
        ⟨emptied, fun other member => cycles other (List.mem_cons_of_mem _ member), current⟩
      refine moved.start ?_ fun stops up => ?_
      · intro own posted
        cases posted
        exact (cycles _ List.mem_cons_self).symm
      · obtain ⟨ticket, cycle, job⟩ := entry
        cases stops
        have empty := orderly (by simp [callsOnStop, takes]) up
        exact List.isEmpty_iff.mp empty
  | asyncDone done =>
      refine ⟨emptied, ?_, current⟩
      rw [batch, done] at cycles
      exact cycles
  | callback => exact ⟨emptied, cycles, current⟩
  | ret => exact ⟨emptied, cycles, current⟩
  | closed => exact ⟨emptied, cycles, current⟩
  | finish _ stops => exact ⟨fun _ => emptied (sane.stopped stops).1, cycles, current⟩

/-- After `run` has returned all that was pushed has been called, and each job was called
in the cycle it was pushed in. -/
def Executed (s : IOScheduler Thread Task) : Prop :=
  (s.runner = none → s.isInit = false → s.queue = [] ∧ s.posted = s.pushed) ∧
    ∀ ran ∈ s.ran, ∀ entry, ran.entry = some entry → ran.cycle = entry.cycle

/-- A scheduler that is stopped in an orderly way has run all that it accepted. -/
theorem shutdown_executes {start : IOScheduler Thread Task} {actions : List (Action Thread Task)}
    (initial : schedulerMachine.Initial start) (runs : schedulerMachine.Runs start actions s)
    (orderly : schedulerMachine.Along Orderly start actions) : s.Executed := by
  have kept : s.Ordered ∧ s.Sane ∧ s.Drained := by
    refine runs.guarded (fun s => s.Ordered ∧ s.Sane ∧ s.Drained) ?_ ?_ orderly
    · rintro state action after ⟨ordered, sane, drained⟩ here taken
      exact ⟨ordered.step taken, Sane.step ordered sane taken, Drained.step sane drained here taken⟩
    · cases initial
      have phase : (fresh : IOScheduler Thread Task).handle.phase = .fresh := rfl
      refine ⟨.of_runs rfl .refl, ⟨fun up => (by cases up), fun stops => (by cases stops),
        fun _ => ⟨rfl, rfl, by simp [phase]⟩, by simp [phase]⟩, ⟨fun _ => rfl, ?_, ?_⟩⟩
      · intro entry member
        cases member
      · intro ran member
        cases member
  obtain ⟨ordered, sane, drained⟩ := kept
  refine ⟨fun free down => ?_, drained.current⟩
  have empty := drained.drained down
  have conserved := ordered.conserved
  rw [batch, (sane.resting free).1, empty, List.append_nil, List.append_nil] at conserved
  exact ⟨empty, conserved.symm⟩

/-- A scheduler that is stopped with a task in front of the stop. -/
theorem shutdown_executes_cycle :
    ∃ s : IOScheduler Nat Nat, schedulerMachine.Runs fresh
        [.init 0 0, .run 0, .post 1 (some 10), .push 1, .stop 2, .decide 2, .push 2, .send 1,
          .async, .swap, .send 2, .next, .ret, .next, .asyncDone, .closed, .finish] s ∧
      s.ran.map Ran.job = [.user 10, .onStop] ∧ s.runner = none ∧ s.isInit = false ∧
      s.Executed := by
  have executed : (schedulerMachine.run (fresh : IOScheduler Nat Nat)
      [.init 0 0, .run 0, .post 1 (some 10), .push 1, .stop 2, .decide 2, .push 2, .send 1,
        .async, .swap, .send 2, .next, .ret, .next, .asyncDone, .closed, .finish]).map
        (fun s => (s.ran.map Ran.job, s.runner, s.isInit)) =
      some ([.user 10, .onStop], none, false) := by
    decide +kernel
  have orderly : schedulerMachine.Along Orderly (fresh : IOScheduler Nat Nat)
      [.init 0 0, .run 0, .post 1 (some 10), .push 1, .stop 2, .decide 2, .push 2, .send 1,
        .async, .swap, .send 2, .next, .ret, .next, .asyncDone, .closed, .finish] := by
    decide +kernel
  obtain ⟨s, runs, seen⟩ := Machine.Runs.of_map executed
  simp only [Prod.mk.injEq] at seen
  exact ⟨s, runs, seen.1, seen.2.1, seen.2.2, shutdown_executes rfl runs orderly⟩

/-- A task posted after `on_async` has taken the stop is accepted, and left in the queue. -/
theorem shutdown_loses :
    ¬ ∀ (start s : IOScheduler Nat Nat) (actions : List (Action Nat Nat)),
      schedulerMachine.Initial start → schedulerMachine.Runs start actions s → s.Executed := by
  intro always
  have executed : (schedulerMachine.run (fresh : IOScheduler Nat Nat)
      [.init 0 0, .run 0, .stop 1, .decide 1, .push 1, .send 1, .async, .swap, .post 2 (some 7),
        .push 2, .send 2, .next, .asyncDone, .closed, .finish]).map
        (fun s => (s.runner, s.isInit, s.queue.map Entry.job)) =
      some (none, false, [.user 7]) := by
    decide +kernel
  obtain ⟨s, runs, seen⟩ := Machine.Runs.of_map executed
  simp only [Prod.mk.injEq] at seen
  have empty := ((always fresh s _ rfl runs).1 seen.1 seen.2.1).1
  rw [empty] at seen
  cases seen.2.2

end IOScheduler

end Sdpf.Scheduler
