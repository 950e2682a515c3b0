import Sdpf.Semantics.CondVar
import Sdpf.Semantics.Machine

/-!
# The blocking queue

`BlockingQueue` with the threads that wait in `pop`. Every function is one critical
section of the mutex, except that `pop` leaves it while it sleeps: a `pass` goes from
taking the mutex, at the call or on waking up, to sleeping or returning.

No item is lost, and no consumer stays asleep over an item that no other consumer has
been woken for (`Usage.Served`).
-/

namespace Sdpf.Threads

open Sdpf.Semantics

variable {Thread α : Type}

/-- The members of `BlockingQueue` that its mutex guards. -/
structure BlockingQueue (α : Type) where
  queue : List α
  /-- No limit, if zero. -/
  maxCount : Nat
  exit : Bool
deriving DecidableEq, Repr

namespace BlockingQueue

/-- `BlockingQueue::init`. -/
def init (maxCount : Nat) : BlockingQueue α := ⟨[], maxCount, false⟩

/-- `BlockingQueue::full`, the test `push` makes as well. -/
def full (tasks : BlockingQueue α) : Bool :=
  decide (0 < tasks.maxCount) && decide (tasks.maxCount ≤ tasks.queue.length)

/-- `BlockingQueue::push`. -/
def push (tasks : BlockingQueue α) (item : α) : Bool × BlockingQueue α :=
  if tasks.full then (false, tasks)
  else (true, { tasks with queue := tasks.queue ++ [item] })

/-- `BlockingQueue::pop` from its test on: it waits, or returns, with an item or `false`. -/
def pop (tasks : BlockingQueue α) : Option (Option α × BlockingQueue α) :=
  if tasks.queue.isEmpty && !tasks.exit then none
  else if tasks.exit then some (none, tasks)
  else tasks.queue.head?.map fun item => (some item, { tasks with queue := tasks.queue.tail })

/-- `BlockingQueue::front`. -/
def front (tasks : BlockingQueue α) : Option α := tasks.queue.head?

/-- `BlockingQueue::back`. -/
def back (tasks : BlockingQueue α) : Option α := tasks.queue.getLast?

/-- `BlockingQueue::empty`. -/
def empty (tasks : BlockingQueue α) : Bool := tasks.queue.isEmpty

/-- `BlockingQueue::size`. -/
def size (tasks : BlockingQueue α) : Nat := tasks.queue.length

/-- `BlockingQueue::notify_exit`. -/
def notifyExit (tasks : BlockingQueue α) : BlockingQueue α := { tasks with exit := true }

/-- A full queue holds at least its limit. -/
theorem full_iff {tasks : BlockingQueue α} :
    tasks.full = true ↔ 0 < tasks.maxCount ∧ tasks.maxCount ≤ tasks.queue.length := by
  simp [full]

/-- The three outcomes of a pass through the test. -/
inductive Pops : BlockingQueue α → Option (Option α × BlockingQueue α) → Prop where
  | waits {maxCount} : Pops ⟨[], maxCount, false⟩ none
  | exits {queue maxCount} : Pops ⟨queue, maxCount, true⟩ (some (none, ⟨queue, maxCount, true⟩))
  | takes {item queue maxCount} :
      Pops ⟨item :: queue, maxCount, false⟩ (some (some item, ⟨queue, maxCount, false⟩))

/-- What `pop` does under the lock. -/
theorem pop_cases (tasks : BlockingQueue α) : Pops tasks tasks.pop := by
  obtain ⟨queue, maxCount, exit⟩ := tasks
  cases exit with
  | true =>
      simp only [pop, Bool.not_true, Bool.and_false, Bool.false_eq_true, if_false, if_true]
      exact .exits
  | false =>
      cases queue with
      | nil => exact .waits
      | cons item rest => exact .takes

end BlockingQueue

/-- The queue with its condition variable. -/
structure Monitor (Thread α : Type) where
  tasks : BlockingQueue α
  cond : CondVar Thread
deriving DecidableEq, Repr

namespace Monitor

/-- A new queue that nobody waits at. -/
def init (maxCount : Nat) : Monitor Thread α := ⟨.init maxCount, .idle⟩

/-- A pass of `pop`: the thread sleeps, or returns with what it has got. -/
def pass (m : Monitor Thread α) (thread : Thread) : Option (Option α) × Monitor Thread α :=
  match m.tasks.pop with
  | none => (none, { m with cond := m.cond.wait thread })
  | some (answer, tasks) => (some answer, { m with tasks := tasks })

/-- `notify_exit`, with its notification. -/
def notifyExit (m : Monitor Thread α) : Monitor Thread α := ⟨m.tasks.notifyExit, m.cond.notifyAll⟩

/-- `push`, with the sleeper its notification releases. -/
def push [DecidableEq Thread] (m : Monitor Thread α) (item : α) (wakes : Option Thread) :
    Option (Bool × Monitor Thread α) :=
  match m.tasks.push item with
  | (false, _) => some (false, m)
  | (true, tasks) => (m.cond.notifyOne wakes).map fun cond => (true, ⟨tasks, cond⟩)

/-- Everything a pass can do. -/
inductive Passes (m : Monitor Thread α) (thread : Thread) :
    Option (Option α) → Monitor Thread α → Prop where
  | sleeps (empty : m.tasks.queue = []) (stays : m.tasks.exit = false) :
      Passes m thread none { m with cond := m.cond.wait thread }
  | exits (leaves : m.tasks.exit = true) : Passes m thread (some none) m
  | takes {item rest} (first : m.tasks.queue = item :: rest) (stays : m.tasks.exit = false) :
      Passes m thread (some (some item)) { m with tasks := { m.tasks with queue := rest } }

/-- What a thread does that has got the lock. -/
theorem pass_cases (m : Monitor Thread α) (thread : Thread) :
    Passes m thread (m.pass thread).1 (m.pass thread).2 := by
  obtain ⟨tasks, cond⟩ := m
  have outcome := tasks.pop_cases
  generalize popped : tasks.pop = result at outcome
  simp only [pass, popped]
  cases outcome with
  | waits => exact .sleeps rfl rfl
  | exits => exact .exits rfl
  | takes => exact .takes rfl rfl

/-- A push is refused by a full queue, and else notifies. -/
theorem push_cases [DecidableEq Thread] {m next : Monitor Thread α} {item : α}
    {wakes : Option Thread} {accepted : Bool} (pushed : m.push item wakes = some (accepted, next)) :
    (m.tasks.full = true ∧ accepted = false ∧ next = m) ∨
      (m.tasks.full = false ∧ accepted = true ∧
        next.tasks = { m.tasks with queue := m.tasks.queue ++ [item] } ∧
        m.cond.notifyOne wakes = some next.cond) := by
  cases isFull : m.tasks.full with
  | true =>
      simp only [push, BlockingQueue.push, isFull, if_true, Option.some.injEq, Prod.mk.injEq]
        at pushed
      exact .inl ⟨rfl, pushed.1.symm, pushed.2.symm⟩
  | false =>
      simp only [push, BlockingQueue.push, isFull, Bool.false_eq_true, if_false,
        Option.map_eq_some_iff, Prod.mk.injEq] at pushed
      obtain ⟨cond, notified, rfl, rfl⟩ := pushed
      exact .inr ⟨rfl, rfl, rfl, notified⟩

end Monitor

/-- A queue in use, with the items it has accepted and what the calls of `pop` returned. -/
structure Usage (Thread α : Type) where
  monitor : Monitor Thread α
  accepted : List α
  returned : List (Thread × Option α)
deriving DecidableEq, Repr

namespace Usage

/-- The items handed out, in order. -/
def popped (state : Usage Thread α) : List α := state.returned.filterMap Prod.snd

/-- The threads inside `pop`. -/
def consumers (state : Usage Thread α) : List Thread := state.monitor.cond.inside

/-- A pass of `pop` by a thread that holds the mutex. -/
def pass (state : Usage Thread α) (thread : Thread) : Usage Thread α :=
  match state.monitor.pass thread with
  | (none, monitor) => { state with monitor := monitor }
  | (some answer, monitor) =>
      { state with monitor := monitor, returned := state.returned ++ [(thread, answer)] }

end Usage

inductive Action (Thread α : Type) where
  | push (item : α) (wakes : Option Thread)
  /-- A thread calls `pop`. -/
  | pop (thread : Thread)
  /-- A sleeper wakes without a notification. -/
  | stir (thread : Thread)
  /-- A thread that is awake gets the mutex back. -/
  | resume (thread : Thread)
  | front
  | back
  | empty
  | full
  | size
  | notifyExit
deriving DecidableEq, Repr

variable [DecidableEq Thread]

/-- One critical section of the queue. -/
def step (state : Usage Thread α) : Action Thread α → Option (Usage Thread α)
  | .push item wakes =>
      (state.monitor.push item wakes).map fun result =>
        { state with
          monitor := result.2
          accepted := if result.1 then state.accepted ++ [item] else state.accepted }
  | .pop thread => if thread ∈ state.consumers then none else some (state.pass thread)
  | .stir thread =>
      (state.monitor.cond.stir thread).map fun cond =>
        { state with monitor := { state.monitor with cond := cond } }
  | .resume thread =>
      (state.monitor.cond.resume thread).map fun cond =>
        Usage.pass { state with monitor := { state.monitor with cond := cond } } thread
  | .front | .back | .empty | .full | .size => some state
  | .notifyExit => some { state with monitor := state.monitor.notifyExit }

/-- Producers and consumers of one queue, from its `init` on. -/
def queueMachine (maxCount : Nat) : Machine (Usage Thread α) (Action Thread α) where
  Initial state := state = ⟨.init maxCount, [], []⟩
  step := step

/-- Every step, by the function that takes it. -/
inductive Transition (state : Usage Thread α) : Action Thread α → Usage Thread α → Prop where
  | refused {item wakes} (full : state.monitor.tasks.full = true) :
      Transition state (.push item wakes) state
  | accepted {item wakes cond} (room : state.monitor.tasks.full = false)
      (notified : state.monitor.cond.notifyOne wakes = some cond) :
      Transition state (.push item wakes)
        { state with
          monitor := ⟨{ state.monitor.tasks with queue := state.monitor.tasks.queue ++ [item] }, cond⟩
          accepted := state.accepted ++ [item] }
  | pop {thread} (outside : thread ∉ state.consumers) :
      Transition state (.pop thread) (state.pass thread)
  | stir {thread cond} (stirs : state.monitor.cond.stir thread = some cond) :
      Transition state (.stir thread)
        { state with monitor := { state.monitor with cond := cond } }
  | resume {thread cond} (resumes : state.monitor.cond.resume thread = some cond) :
      Transition state (.resume thread)
        (Usage.pass { state with monitor := { state.monitor with cond := cond } } thread)
  | reads {action} (quiet : action = .front ∨ action = .back ∨ action = .empty ∨
      action = .full ∨ action = .size) : Transition state action state
  | notifyExit : Transition state .notifyExit { state with monitor := state.monitor.notifyExit }

/-- A step that is taken is one of these. -/
theorem step_cases {state next : Usage Thread α} {action : Action Thread α}
    (taken : step state action = some next) : Transition state action next := by
  cases action with
  | push item wakes =>
      obtain ⟨⟨accepted, monitor⟩, pushed, rfl⟩ := Option.map_eq_some_iff.mp taken
      obtain ⟨full, rfl, rfl⟩ | ⟨room, rfl, queued, notified⟩ := Monitor.push_cases pushed
      · exact .refused full
      · obtain ⟨tasks, cond⟩ := monitor
        cases queued
        exact .accepted room notified
  | pop thread =>
      by_cases inside : thread ∈ state.consumers
      · rw [step, if_pos inside] at taken
        cases taken
      · rw [step, if_neg inside] at taken
        cases taken
        exact .pop inside
  | stir thread =>
      obtain ⟨cond, stirs, rfl⟩ := Option.map_eq_some_iff.mp taken
      exact .stir stirs
  | resume thread =>
      obtain ⟨cond, resumes, rfl⟩ := Option.map_eq_some_iff.mp taken
      exact .resume resumes
  | notifyExit =>
      cases taken
      exact .notifyExit
  | _ =>
      cases taken
      exact .reads (by simp)

/-- What holds of a queue and its consumers, when the thread that holds the mutex may
take as many as `spare` items that nobody was woken for. -/
structure Sound (maxCount spare : Nat) (state : Usage Thread α) : Prop where
  limit : state.monitor.tasks.maxCount = maxCount
  /-- What was accepted has been handed out in order, or is in the queue. -/
  conserved : state.accepted = state.popped ++ state.monitor.tasks.queue
  bounded : 0 < maxCount → state.monitor.tasks.queue.length ≤ maxCount
  distinct : state.consumers.Nodup
  /-- While anyone sleeps, as many threads are about to look as there are items. -/
  awake : state.monitor.tasks.exit = false → state.monitor.cond.sleeping ≠ [] →
    state.monitor.tasks.queue.length ≤ state.monitor.cond.woken.length + spare
  released : state.monitor.tasks.exit = true → state.monitor.cond.sleeping = []

section Preservation

variable {maxCount : Nat} {state : Usage Thread α}

omit [DecidableEq Thread] in
/-- A pass of a thread that was outside. -/
theorem Sound.pass {thread : Thread} (sound : Sound maxCount 1 state)
    (outside : thread ∉ state.consumers) : Sound maxCount 0 (state.pass thread) := by
  have outcome := state.monitor.pass_cases thread
  generalize answered : state.monitor.pass thread = result at outcome
  obtain ⟨answer, monitor⟩ := result
  simp only [Usage.pass, answered]
  cases outcome with
  | sleeps empty stays =>
      exact { sound with
        distinct := List.nodup_cons.mpr ⟨outside, sound.distinct⟩
        awake := fun _ _ => by simp [empty]
        released := fun exit => by simp [stays] at exit }
  | exits leaves =>
      exact { sound with
        conserved := by simpa [Usage.popped] using sound.conserved
        awake := fun stays => by simp [leaves] at stays }
  | takes first stays =>
      refine ⟨sound.limit, ?_, fun limited => ?_, sound.distinct, fun _ sleeps => ?_, ?_⟩
      · have conserved := sound.conserved
        rw [first] at conserved
        simpa [Usage.popped] using conserved
      · have bounded := sound.bounded limited
        rw [first, List.length_cons] at bounded
        exact Nat.le_of_succ_le bounded
      · have awake := sound.awake stays sleeps
        rw [first, List.length_cons] at awake
        exact Nat.le_of_succ_le_succ awake
      · intro exit
        simp [stays] at exit

/-- A push that found room. -/
theorem Sound.push {item : α} {wakes : Option Thread} {cond : CondVar Thread}
    (sound : Sound maxCount 0 state) (room : state.monitor.tasks.full = false)
    (notified : state.monitor.cond.notifyOne wakes = some cond) :
    Sound maxCount 0 { state with
      monitor := ⟨{ state.monitor.tasks with queue := state.monitor.tasks.queue ++ [item] }, cond⟩
      accepted := state.accepted ++ [item] } := by
  refine ⟨sound.limit, ?_, fun limited => ?_, ?_, fun stays sleeps => ?_, fun exit => ?_⟩
  · simp only [sound.conserved, Usage.popped, List.append_assoc]
  · have below : ¬ state.monitor.tasks.full = true := by rw [room]; decide
    rw [BlockingQueue.full_iff, sound.limit] at below
    rw [List.length_append, List.length_singleton]
    omega
  · exact (CondVar.notifyOne_perm notified).nodup_iff.mpr sound.distinct
  · -- a sleeper that is left means that another one was released
    obtain ⟨-, empty, rfl⟩ | ⟨thread, -, slept, rfl⟩ := CondVar.notifyOne_cases notified
    · exact absurd empty sleeps
    · have awake := sound.awake stays (List.ne_nil_of_mem slept)
      simp only [List.length_append, List.length_cons, List.length_nil]
      omega
  · have nobody := sound.released exit
    obtain ⟨-, empty, rfl⟩ | ⟨thread, -, slept, rfl⟩ := CondVar.notifyOne_cases notified
    · exact empty
    · rw [nobody] at slept
      cases slept

/-- A consumer that wakes without a notification. -/
theorem Sound.stir {thread : Thread} {cond : CondVar Thread} (sound : Sound maxCount 0 state)
    (stirs : state.monitor.cond.stir thread = some cond) :
    Sound maxCount 0 { state with monitor := { state.monitor with cond := cond } } := by
  have distinct := (CondVar.stir_perm stirs).nodup_iff.mpr sound.distinct
  obtain ⟨slept, rfl⟩ := CondVar.stir_cases stirs
  refine { sound with
    distinct := distinct
    awake := fun stays _ => sound.awake stays (List.ne_nil_of_mem slept)
    released := fun exit => ?_ }
  rw [sound.released exit] at slept
  cases slept

/-- A consumer that gets the mutex back may take the item it was woken for. -/
theorem Sound.resume {thread : Thread} {cond : CondVar Thread} (sound : Sound maxCount 0 state)
    (resumes : state.monitor.cond.resume thread = some cond) :
    Sound maxCount 0
      (Usage.pass { state with monitor := { state.monitor with cond := cond } } thread) := by
  have distinct : (thread :: cond.inside).Nodup :=
    (CondVar.resume_perm resumes).nodup_iff.mp sound.distinct
  obtain ⟨outside, distinct⟩ := List.nodup_cons.mp distinct
  refine Sound.pass ?_ outside
  obtain ⟨woken, rfl⟩ | ⟨stirred, rfl⟩ := CondVar.resume_cases resumes
  · refine { sound with distinct := distinct, awake := fun stays sleeps => ?_ }
    have awake := sound.awake stays sleeps
    have one := List.length_erase_of_mem woken
    simp only
    omega
  · exact { sound with
      distinct := distinct
      awake := fun stays sleeps => Nat.le_succ_of_le (sound.awake stays sleeps) }

/-- Every critical section keeps the queue sound. -/
theorem Sound.step {next : Usage Thread α} {action : Action Thread α}
    (sound : Sound maxCount 0 state) (taken : step state action = some next) :
    Sound maxCount 0 next := by
  cases step_cases taken with
  | refused => exact sound
  | accepted room notified => exact sound.push room notified
  | pop outside =>
      exact Sound.pass { sound with
        awake := fun stays sleeps => Nat.le_succ_of_le (sound.awake stays sleeps) } outside
  | stir stirs => exact sound.stir stirs
  | resume resumes => exact sound.resume resumes
  | reads => exact sound
  | notifyExit =>
      exact { sound with
        distinct := (CondVar.notifyAll_perm _).nodup_iff.mpr sound.distinct
        awake := fun stays => by cases stays
        released := fun _ => rfl }

end Preservation

/-- Every reachable state of a queue is sound. -/
theorem Sound.of_reachable {maxCount : Nat} {state : Usage Thread α}
    (reachable : (queueMachine maxCount).Reachable state) : Sound maxCount 0 state := by
  refine reachable.invariant (Sound maxCount 0) ?_ (fun sound taken => sound.step taken)
  rintro _ rfl
  exact ⟨rfl, rfl, fun _ => Nat.zero_le _, List.nodup_nil, fun _ none => absurd rfl none,
    fun exit => by cases exit⟩

omit [DecidableEq Thread] in
/-- Once the exit flag is set, a pass returns `false`. -/
theorem Usage.pass_of_exit {state : Usage Thread α} (exit : state.monitor.tasks.exit = true)
    (thread : Thread) :
    state.pass thread = { state with returned := state.returned ++ [(thread, none)] } := by
  have outcome := state.monitor.pass_cases thread
  generalize answered : state.monitor.pass thread = result at outcome
  obtain ⟨answer, monitor⟩ := result
  simp only [Usage.pass, answered]
  cases outcome with
  | sleeps _ stays => simp [stays] at exit
  | exits => rfl
  | takes _ stays => simp [stays] at exit

/-- What returned from `pop` between two states returned nothing, and the flag is still set. -/
def ExitedSince (state later : Usage Thread α) : Prop :=
  later.monitor.tasks.exit = true ∧
    ∃ answers, later.returned = state.returned ++ answers ∧ ∀ answer ∈ answers, answer.2 = none

/-- The exit flag stays set, and no pass under it takes an item. -/
theorem ExitedSince.step {state later next : Usage Thread α} {action : Action Thread α}
    (exited : ExitedSince state later) (taken : step later action = some next) :
    ExitedSince state next := by
  obtain ⟨exit, answers, returned, nothing⟩ := exited
  have passed : ∀ (other : Usage Thread α) (thread : Thread), other.monitor.tasks.exit = true →
      other.returned = later.returned → ExitedSince state (other.pass thread) := by
    intro other thread set same
    rw [Usage.pass_of_exit set]
    refine ⟨set, answers ++ [(thread, none)], by simp [same, returned], fun answer member => ?_⟩
    rcases List.mem_append.mp member with earlier | last
    · exact nothing answer earlier
    · rw [List.mem_singleton.mp last]
  cases step_cases taken with
  | refused => exact ⟨exit, answers, returned, nothing⟩
  | accepted => exact ⟨exit, answers, returned, nothing⟩
  | @pop thread _ => exact passed later thread exit rfl
  | stir => exact ⟨exit, answers, returned, nothing⟩
  | @resume thread _ _ => exact passed _ thread exit rfl
  | reads => exact ⟨exit, answers, returned, nothing⟩
  | notifyExit => exact ⟨rfl, answers, returned, nothing⟩

/-- Nobody sleeps: every thread inside `pop` can run on to return `false`, and every thread
that calls `pop` returns `false` at once. -/
structure Usage.Released (state : Usage Thread α) : Prop where
  nobody : state.monitor.cond.sleeping = []
  resumes : ∀ thread ∈ state.consumers, ∃ next,
    step state (.resume thread) = some next ∧ state.consumers.Perm (thread :: next.consumers) ∧
      next.returned = state.returned ++ [(thread, none)]
  returns : ∀ thread, thread ∉ state.consumers → ∃ next,
    step state (.pop thread) = some next ∧ next.consumers = state.consumers ∧
      next.returned = state.returned ++ [(thread, none)]

/-- A queue whose exit flag is set holds nobody back. -/
theorem Sound.released_of_exit {maxCount : Nat} {state : Usage Thread α}
    (sound : Sound maxCount 0 state) (exit : state.monitor.tasks.exit = true) :
    state.Released := by
  have nobody := sound.released exit
  refine ⟨nobody, fun thread inside => ?_, fun thread outside => ?_⟩
  · obtain ⟨cond, resumes⟩ := CondVar.resume_of_mem inside nobody
    have left := CondVar.resume_perm resumes
    refine ⟨{ state with
      monitor := { state.monitor with cond := cond }
      returned := state.returned ++ [(thread, none)] }, ?_, left, rfl⟩
    simp only [Threads.step, resumes, Option.map_some]
    rw [Usage.pass_of_exit (by exact exit)]
  · refine ⟨{ state with returned := state.returned ++ [(thread, none)] }, ?_, rfl, rfl⟩
    rw [Threads.step, if_neg outside, Usage.pass_of_exit exit]

/-- A push is refused exactly by a queue that has reached its limit, and then changes
nothing. -/
theorem Sound.refused_iff {maxCount : Nat} {state next : Usage Thread α} {item : α}
    {wakes : Option Thread} (sound : Sound maxCount 0 state)
    (taken : Threads.step state (.push item wakes) = some next) :
    ((state.monitor.tasks.push item).1 = false ↔
        0 < maxCount ∧ state.monitor.tasks.queue.length = maxCount) ∧
      ((state.monitor.tasks.push item).1 = false → next = state) := by
  have full : state.monitor.tasks.full = true ↔
      0 < maxCount ∧ state.monitor.tasks.queue.length = maxCount := by
    have bounded := sound.bounded
    rw [BlockingQueue.full_iff, sound.limit]
    omega
  rw [← full]
  cases step_cases taken with
  | refused isFull => exact ⟨by simp [BlockingQueue.push, isFull], fun _ => rfl⟩
  | accepted room _ =>
      exact ⟨by simp [BlockingQueue.push, room], by simp [BlockingQueue.push, room]⟩
  | reads quiet => simp at quiet

/-- What a queue that was initialised with a limit owes to its callers. -/
structure Usage.Served (maxCount : Nat) (state : Usage Thread α) : Prop where
  /-- What was accepted has been handed out in order, or is in the queue. -/
  conserved : state.accepted = state.popped ++ state.monitor.tasks.queue
  bounded : 0 < maxCount → state.monitor.tasks.queue.length ≤ maxCount
  refused : ∀ item wakes next, step state (.push item wakes) = some next →
    ((state.monitor.tasks.push item).1 = false ↔
      0 < maxCount ∧ state.monitor.tasks.queue.length = maxCount) ∧
    ((state.monitor.tasks.push item).1 = false → next = state)
  distinct : state.consumers.Nodup
  /-- No sleeper is left over items that nobody was woken for. -/
  awake : ¬ (state.monitor.tasks.queue ≠ [] ∧ state.monitor.tasks.exit = false ∧
    state.monitor.cond.sleeping ≠ [] ∧
    state.monitor.cond.woken.length < state.monitor.tasks.queue.length)
  /-- Once the exit flag is set nobody sleeps, and every `pop` returns `false`. -/
  released : state.monitor.tasks.exit = true → ∀ actions later,
    (queueMachine maxCount).Runs state actions later →
      later.Released ∧ ExitedSince state later

/-- No item is lost and no consumer is left asleep. -/
theorem Usage.Served.of_reachable {maxCount : Nat} {state : Usage Thread α}
    (reachable : (queueMachine maxCount).Reachable state) : state.Served maxCount := by
  have sound := Sound.of_reachable reachable
  refine ⟨sound.conserved, sound.bounded, fun item wakes next taken => sound.refused_iff taken,
    sound.distinct, ?_, fun exit actions later runs => ?_⟩
  · rintro ⟨_, stays, sleeps, few⟩
    have awake := sound.awake stays sleeps
    omega
  · have exited : ExitedSince state later :=
      runs.invariant (ExitedSince state) (fun exited taken => exited.step taken)
        ⟨exit, [], by simp, by simp⟩
    have kept : Sound maxCount 0 later :=
      runs.invariant (Sound maxCount 0) (fun sound taken => sound.step taken) sound
    exact ⟨kept.released_of_exit exited.1, exited⟩

end Sdpf.Threads
