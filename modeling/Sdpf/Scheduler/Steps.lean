import Sdpf.Scheduler.IOScheduler

/-!
# Steps of the scheduler

`Transition` names every step by what it does, and `Starts` everything the loop can do when
it takes up a job. The invariants of the scheduler go by their cases.
-/

namespace Sdpf.Scheduler

open Sdpf.Semantics Sdpf.Uv

variable {Thread Task : Type}

namespace IOScheduler

variable [DecidableEq Thread]

/-- Every step, by what it does. -/
inductive Transition (s : IOScheduler Thread Task) :
    Action Thread Task → IOScheduler Thread Task → Prop where
  /-- A call that failed. -/
  | quiet {action} : Transition s action s
  | init {loop async} (down : s.isInit = false) (free : s.runner = none) :
      Transition s (.init loop async) { s with
        handle := s.handle.init
        signal := false
        loopThread := none
        isInit := true
        cycle := s.cycle + 1 }
  | run {thread} (up : s.isInit = true) (free : s.runner = none) (idle : s.call thread = .idle) :
      Transition s (.run thread) { s with loopThread := some thread, runner := some thread }
  | post {thread task} (idle : s.call thread = .idle) (up : s.isInit = true) :
      Transition s (.post thread (some task)) (s.goto thread (.checked (.user task)))
  | dispatch {thread task} (idle : s.call thread = .idle) (up : s.isInit = true) :
      Transition s (.dispatch thread (some task)) (s.goto thread (.asked (.user task)))
  | stop {thread} (idle : s.call thread = .idle) (up : s.isInit = true) :
      Transition s (.stop thread) (s.goto thread (.asked .onStop))
  | leave {thread job} (asked : s.call thread = .asked job) (down : s.isInit = false) :
      Transition s (.decide thread) (s.goto thread .idle)
  | inline {thread job} (asked : s.call thread = .asked job) (own : s.loopThread = some thread) :
      Transition s (.decide thread) ((s.goto thread .idle).start none job thread)
  | handOver {thread job} (asked : s.call thread = .asked job) (up : s.isInit = true) :
      Transition s (.decide thread) (s.goto thread (.checked job))
  | push {thread job} (checked : s.call thread = .checked job) :
      Transition s (.push thread) { s.goto thread .pushed with
        queue := s.queue ++ [⟨s.pushed.length, s.cycle, job⟩]
        pushed := s.pushed ++ [⟨s.pushed.length, s.cycle, job⟩] }
  | send {thread} (sends : s.call thread = .pushed) :
      Transition s (.send thread) { s.goto thread .idle with signal := true }
  | async (waiting : s.Waiting) (opened : s.handle.phase = .opened) :
      Transition s .async { s with signal := false, async := .entered }
  | swap (entered : s.async = .entered) :
      Transition s .swap { s with async := .running s.queue, queue := [] }
  | next {thread entry rest} (inside : s.runner = some thread)
      (takes : s.async = .running (entry :: rest)) :
      Transition s .next
        ({ s with async := .running rest }.start (some entry) entry.job thread)
  | asyncDone (done : s.async = .running []) : Transition s .asyncDone { s with async := .outside }
  | callback (waiting : s.Waiting) : Transition s .callback { s with depth := 1 }
  | ret : Transition s .ret { s with depth := s.depth - 1 }
  | closed (waiting : s.Waiting) (closing : s.handle.phase = .closing) :
      Transition s .closed { s with handle := s.handle.deliver, uvStop := true }
  | finish (waiting : s.Waiting) (stopped : s.uvStop = true) :
      Transition s .finish { s with
        uvStop := false
        isInit := false
        loopThread := none
        runner := none }

/-- An idle thread that becomes idle has not moved. -/
theorem goto_idle {s : IOScheduler Thread Task} {thread : Thread} (idle : s.call thread = .idle) :
    s.goto thread .idle = s := by
  rw [goto, ← idle, Function.update_eq_self]

/-- A step that is taken is one of these. -/
theorem step_cases {s after : IOScheduler Thread Task} {action : Action Thread Task}
    (taken : s.step action = some after) : Transition s action after := by
  cases action with
  | init loop async =>
      simp only [step, Option.ite_none_right_eq_some, Option.some.injEq] at taken
      obtain ⟨free, rfl⟩ := taken
      unfold init
      split_ifs with up
      · exact .quiet
      · exact .quiet
      · exact .quiet
      · exact .init (by simpa using up) free
  | run thread =>
      simp only [step, Option.ite_none_right_eq_some, Option.some.injEq] at taken
      obtain ⟨⟨free, idle⟩, rfl⟩ := taken
      unfold run
      split_ifs with up
      · exact .run up free idle
      · exact .quiet
  | post thread f =>
      simp only [step, Option.ite_none_right_eq_some] at taken
      obtain ⟨may, taken⟩ := taken
      cases f with
      | none =>
          cases taken
          exact .quiet
      | some task =>
          cases taken
          unfold check
          split_ifs with up
          · exact .post may.1 up
          · rw [goto_idle may.1]
            exact .quiet
  | dispatch thread f =>
      simp only [step, Option.ite_none_right_eq_some] at taken
      obtain ⟨may, taken⟩ := taken
      cases f with
      | none =>
          cases taken
          exact .quiet
      | some task =>
          cases taken
          unfold ask
          split_ifs with up
          · exact .dispatch may.1 up
          · rw [goto_idle may.1]
            exact .quiet
  | stop thread =>
      simp only [step, Option.ite_none_right_eq_some, Option.some.injEq] at taken
      obtain ⟨may, rfl⟩ := taken
      unfold ask
      split_ifs with up
      · exact .stop may.1 up
      · rw [goto_idle may.1]
        exact .quiet
  | decide thread =>
      simp only [step, decideCall] at taken
      split at taken
      · next job asked =>
          split_ifs at taken with own
          · cases taken
            exact .inline asked own
          · cases taken
            unfold check
            split_ifs with up
            · exact .handOver asked up
            · exact .leave asked (by simpa using up)
      · cases taken
  | push thread =>
      simp only [step, push] at taken
      split at taken
      · next job checked =>
          cases taken
          exact .push checked
      · cases taken
  | send thread =>
      simp only [step, send] at taken
      split at taken
      · next sends =>
          cases taken
          exact .send sends
      · cases taken
  | async =>
      simp only [step, Option.ite_none_right_eq_some, Option.some.injEq] at taken
      obtain ⟨⟨waiting, _, opened⟩, rfl⟩ := taken
      exact .async waiting opened
  | swap =>
      simp only [step, swap] at taken
      split at taken
      · next entered =>
          cases taken
          exact .swap entered
      · cases taken
  | next =>
      simp only [step, next] at taken
      split at taken
      · next thread entry rest inside takes =>
          simp only [Option.ite_none_right_eq_some, Option.some.injEq] at taken
          obtain ⟨_, rfl⟩ := taken
          exact .next inside takes
      · cases taken
  | asyncDone =>
      simp only [step, asyncDone] at taken
      split at taken
      · next done =>
          simp only [Option.ite_none_right_eq_some, Option.some.injEq] at taken
          obtain ⟨_, rfl⟩ := taken
          exact .asyncDone done
      · cases taken
  | callback =>
      simp only [step, Option.ite_none_right_eq_some, Option.some.injEq] at taken
      obtain ⟨waiting, rfl⟩ := taken
      exact .callback waiting
  | ret =>
      simp only [step, ret] at taken
      split at taken
      · simp only [Option.ite_none_right_eq_some, Option.some.injEq] at taken
        obtain ⟨_, rfl⟩ := taken
        exact .ret
      · cases taken
  | closed =>
      simp only [step, Option.ite_none_right_eq_some, Option.some.injEq] at taken
      obtain ⟨⟨waiting, closing⟩, rfl⟩ := taken
      exact .closed waiting closing
  | finish =>
      simp only [step, Option.ite_none_right_eq_some, Option.some.injEq] at taken
      obtain ⟨⟨waiting, stopped⟩, rfl⟩ := taken
      exact .finish waiting stopped

/-- Everything a thread that calls a job can do to the scheduler at once. -/
inductive Starts (s : IOScheduler Thread Task) : Job Task → IOScheduler Thread Task → Prop where
  | user {task} : Starts s (.user task) { s with depth := s.depth + 1 }
  | again (down : s.isInit = false) : Starts s .onStop s
  | closing (up : s.isInit = true) (closing : s.handle.isClosing = true) :
      Starts s .onStop { s with isInit := false, uvStop := true }
  | close (up : s.isInit = true) (stays : s.handle.isClosing = false) :
      Starts s .onStop { s with isInit := false, handle := s.handle.close }

omit [DecidableEq Thread] in
/-- What the loop does when it takes up a task. -/
theorem start_cases (s : IOScheduler Thread Task) (entry : Option (Entry Task)) (job : Job Task)
    (thread : Thread) : Starts (s.record entry job thread) job (s.start entry job thread) := by
  cases job with
  | user task => exact .user
  | onStop =>
      simp only [start, onStop, onClose]
      split_ifs with up closes
      · exact .closing up closes
      · exact .close up (by simpa using closes)
      · exact .again (by simpa using up)

end IOScheduler

end Sdpf.Scheduler
