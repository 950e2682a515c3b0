import Sdpf.Threads.ThreadPool

/-!
# The join of the workers

When `stop` has set the exit flag, a worker that is not through can take a step, and each
such step brings it closer to its end: `stop` joins all of them (`stop_joins`), and with
that the queue serves every thread that uses it (`blockingQueue_serves`).
-/

namespace Sdpf.Threads

open Sdpf.Data Sdpf.Semantics

namespace ThreadPool

variable {Thread Task : Type}

section Stopping

variable {s : ThreadPool Thread Task}

/-- The workers that are inside the condition variable, or with a task. -/
def busy (s : ThreadPool Thread Task) : List Thread :=
  s.monitor.cond.inside ++ s.holding.map Prod.fst

/-- What every pool keeps to about its workers. -/
structure Staffed (s : ThreadPool Thread Task) : Prop where
  placed : ∀ thread ∈ s.threads, thread ∈ s.ready ∨ thread ∈ s.busy ∨ thread ∈ s.finished
  released : s.monitor.tasks.exit = true → s.monitor.cond.sleeping = []
  stopping : s.stage = .stopping → s.monitor.tasks.exit = true

/-- Where a pass of `pop` leaves the worker. -/
theorem Staffed.pass {thread : Thread}
    (placed : ∀ other ∈ s.threads, other = thread ∨ other ∈ s.ready ∨ other ∈ s.busy ∨
      other ∈ s.finished)
    (released : s.monitor.tasks.exit = true → s.monitor.cond.sleeping = [])
    (stopping : s.stage = .stopping → s.monitor.tasks.exit = true) :
    (s.pass thread).Staffed := by
  have outcome := s.monitor.pass_cases thread
  generalize answered : s.monitor.pass thread = result at outcome
  obtain ⟨answer, monitor⟩ := result
  simp only [ThreadPool.pass, answered]
  cases outcome with
  | sleeps empty stays =>
      refine ⟨fun other member => ?_, fun exit => ?_, stopping⟩
      · rcases placed other member with rfl | ready | busy | finished
        · exact .inr (.inl (List.mem_append_left _ List.mem_cons_self))
        · exact .inl ready
        · exact .inr (.inl (List.mem_cons_of_mem thread busy))
        · exact .inr (.inr finished)
      · rw [stays] at exit
        cases exit
  | exits leaves =>
      refine ⟨fun other member => ?_, released, stopping⟩
      rcases placed other member with rfl | ready | busy | finished
      · exact .inr (.inr List.mem_cons_self)
      · exact .inl ready
      · exact .inr (.inl busy)
      · exact .inr (.inr (List.mem_cons_of_mem _ finished))
  | takes first stays =>
      refine ⟨fun other member => ?_, released, stopping⟩
      rcases placed other member with rfl | ready | busy | finished
      · exact .inr (.inl (List.mem_append_right _ List.mem_cons_self))
      · exact .inl ready
      · rcases List.mem_append.mp busy with inside | holds
        · exact .inr (.inl (List.mem_append_left _ inside))
        · exact .inr (.inl (List.mem_append_right _ (List.mem_cons_of_mem _ holds)))
      · exact .inr (.inr finished)

variable [DecidableEq Thread]

/-- A step keeps the workers staffed. -/
theorem Staffed.step {next : ThreadPool Thread Task} {event : Event Thread Task}
    (staffed : s.Staffed) (taken : s.step event = some next) : next.Staffed := by
  have placed := staffed.placed
  have released := staffed.released
  have moved : ∀ cond : CondVar Thread, cond.inside.Perm s.monitor.cond.inside →
      ∀ thread ∈ s.threads, thread ∈ s.ready ∨
        thread ∈ cond.inside ++ s.holding.map Prod.fst ∨ thread ∈ s.finished := by
    intro cond same thread member
    have busy := (same.append_right (s.holding.map Prod.fst)).mem_iff (a := thread)
    rw [busy]
    exact placed thread member
  cases step_cases taken with
  | start between none _ =>
      refine ⟨placed, fun exit => ?_, fun stopping => ?_⟩
      · cases exit
      · cases stopping
  | @addThread thread left begun =>
      refine ⟨fun other member => ?_, released, fun stopping => ?_⟩
      · rcases List.mem_append.mp member with earlier | new
        · rcases placed other earlier with ready | elsewhere
          · exact .inl (List.mem_cons_of_mem _ ready)
          · exact .inr elsewhere
        · exact .inl (by simp_all)
      · simp only at stopping
        split_ifs at stopping
  | stop between running =>
      exact ⟨moved _ (CondVar.notifyAll_perm _), fun _ => rfl, fun _ => rfl⟩
  | join begun all =>
      refine ⟨fun other member => ?_, released, fun stopping => ?_⟩
      · cases member
      · cases stopping
  | append room notified =>
      refine ⟨moved _ (CondVar.notifyOne_perm notified), fun exit => ?_, staffed.stopping⟩
      have nobody := released exit
      obtain ⟨-, empty, rfl⟩ | ⟨thread, -, slept, -⟩ := CondVar.notifyOne_cases notified
      · exact empty
      · rw [nobody] at slept
        cases slept
  | @pop thread here =>
      refine Staffed.pass (fun other member => ?_) released staffed.stopping
      by_cases same : other = thread
      · exact .inl same
      · refine .inr ((placed other member).imp_left fun ready => ?_)
        exact (List.mem_erase_of_ne same).mpr ready
  | stir stirs =>
      refine ⟨moved _ (CondVar.stir_perm stirs), fun exit => ?_, staffed.stopping⟩
      have slept := (CondVar.stir_cases stirs).1
      rw [released exit] at slept
      cases slept
  | @resume thread cond resumes =>
      have perm := CondVar.resume_perm resumes
      refine Staffed.pass (fun other member => ?_) (fun exit => ?_) staffed.stopping
      · rcases placed other member with ready | busy | finished
        · exact .inr (.inl ready)
        · rcases List.mem_append.mp busy with inside | holds
          · rcases List.mem_cons.mp (perm.mem_iff.mp inside) with same | left
            · exact .inl same
            · exact .inr (.inr (.inl (List.mem_append_left _ left)))
          · exact .inr (.inr (.inl (List.mem_append_right _ holds)))
        · exact .inr (.inr (.inr finished))
      · obtain ⟨-, rfl⟩ | ⟨-, rfl⟩ := CondVar.resume_cases resumes
        · exact released exit
        · exact released exit
  | @call thread job rest held =>
      refine ⟨fun other member => ?_, released, staffed.stopping⟩
      have holders : (s.holding.map Prod.fst).Perm (thread :: rest.map Prod.fst) :=
        held.map Prod.fst
      rcases placed other member with ready | busy | finished
      · exact .inl (List.mem_cons_of_mem _ ready)
      · rcases List.mem_append.mp busy with inside | holds
        · exact .inr (.inl (List.mem_append_left _ inside))
        · rcases List.mem_cons.mp (holders.mem_iff.mp holds) with rfl | left
          · exact .inl List.mem_cons_self
          · exact .inr (.inl (List.mem_append_right _ left))
      · exact .inr (.inr finished)
  | refused => exact staffed

/-- Every reachable pool is staffed. -/
theorem Staffed.of_reachable (reachable : poolMachine.Reachable s) : s.Staffed := by
  refine reachable.invariant Staffed ?_ (fun staffed taken => staffed.step taken)
  rintro _ rfl
  exact ⟨fun _ member => (by cases member), fun _ => rfl, fun stopping => (by cases stopping)⟩

/-- The steps the workers have left once the exit flag is set. -/
def left (s : ThreadPool Thread Task) : Nat :=
  s.ready.length + s.monitor.cond.inside.length + 2 * s.holding.length

omit [DecidableEq Thread] in
/-- When the queue has been shut, a worker that gets the lock ends. -/
theorem pass_of_exit (exit : s.monitor.tasks.exit = true) (thread : Thread) :
    s.pass thread = { s with finished := thread :: s.finished } := by
  have outcome := s.monitor.pass_cases thread
  generalize answered : s.monitor.pass thread = result at outcome
  obtain ⟨answer, monitor⟩ := result
  simp only [ThreadPool.pass, answered]
  cases outcome with
  | sleeps _ stays => simp [stays] at exit
  | exits => rfl
  | takes _ stays => simp [stays] at exit

/-- While `stop` waits for a worker, that worker can take a step towards its end. -/
theorem Staffed.advance {thread : Thread} (staffed : s.Staffed) (begun : s.stage = .stopping)
    (member : thread ∈ s.threads) (works : thread ∉ s.finished) :
    ∃ event next, s.step event = some next ∧ next.left < s.left ∧ next.stage = .stopping := by
  have exit := staffed.stopping begun
  have nobody := staffed.released exit
  rcases staffed.placed thread member with ready | busy | finished
  · have taken : s.step (.pop thread) = some { s with
        ready := s.ready.erase thread
        finished := thread :: s.finished } := by
      rw [ThreadPool.step, if_pos ready, pass_of_exit (by exact exit)]
    have fewer := List.length_erase_of_mem ready
    have some_ready := List.length_pos_of_mem ready
    refine ⟨_, _, taken, ?_, begun⟩
    simp only [left]
    omega
  · rcases List.mem_append.mp busy with inside | holds
    · obtain ⟨cond, resumes⟩ := CondVar.resume_of_mem inside nobody
      have taken : s.step (.resume thread) = some { s with
          monitor := { s.monitor with cond := cond }
          finished := thread :: s.finished } := by
        rw [ThreadPool.step, resumes, Option.map_some, pass_of_exit (by exact exit)]
      have fewer := (CondVar.resume_perm resumes).length_eq
      rw [List.length_cons] at fewer
      refine ⟨_, _, taken, ?_, begun⟩
      simp only [left]
      omega
    · obtain ⟨⟨holder, job⟩, held, rfl⟩ := List.mem_map.mp holds
      obtain ⟨⟨other, task⟩, found⟩ := Option.isSome_iff_exists.mp (List.find?_isSome.mpr
        ⟨(holder, job), held, by simp⟩ :
          (s.holding.find? fun held => held.1 = holder).isSome = true)
      have fewer := (perm_cons_eraseP found).length_eq
      rw [List.length_cons] at fewer
      have taken : s.step (.call holder) = some { s with
          ready := holder :: s.ready
          holding := s.holding.eraseP fun held => held.1 = holder
          executed := if task.task.isSome then s.executed ++ [task.ticket] else s.executed } := by
        rw [ThreadPool.step, call, found, Option.map_some]
      refine ⟨_, _, taken, ?_, begun⟩
      simp only [left, List.length_cons]
      omega
  · exact absurd finished works

/-- The workers of a pool that is being stopped can all end, and then `stop` returns. -/
theorem stop_joins (reachable : poolMachine.Reachable s) (begun : s.stage = .stopping) :
    ∃ events last next, poolMachine.Runs s events last ∧ last.step .join = some next := by
  have staffed := Staffed.of_reachable reachable
  clear reachable
  generalize measure : s.left = steps
  induction steps using Nat.strong_induction_on generalizing s with
  | _ steps ih =>
      by_cases all : ∀ thread ∈ s.threads, thread ∈ s.finished
      · exact ⟨[], s, _, .refl, if_pos ⟨begun, all⟩⟩
      · simp only [not_forall] at all
        obtain ⟨thread, member, works⟩ := all
        obtain ⟨event, next, taken, fewer, stage⟩ := staffed.advance begun member works
        obtain ⟨events, last, joined, runs, joins⟩ :=
          ih next.left (measure ▸ fewer) stage (staffed.step taken) rfl
        exact ⟨event :: events, last, joined, .cons taken runs, joins⟩

/-- A queue serves its callers, and lets the workers of a pool go when it is stopped. -/
theorem blockingQueue_serves {α : Type} {maxCount : Nat} {state : Usage Thread α}
    (reachable : (queueMachine maxCount).Reachable state) :
    state.Served maxCount ∧
      ∀ pool : ThreadPool Thread Task, poolMachine.Reachable pool → pool.stage = .stopping →
        ∃ events last next, poolMachine.Runs pool events last ∧ last.step .join = some next :=
  ⟨.of_reachable reachable, fun _ reachable begun => stop_joins reachable begun⟩

end Stopping

/-- An item stolen by a newcomer from the consumer it woke, which sleeps again. -/
theorem blockingQueue_serves_stolen :
    ∃ state : Usage Nat Nat, (queueMachine 1).Reachable state ∧
      state.returned = [(2, some 7)] ∧ state.monitor.cond.sleeping = [0, 1] ∧
      state.Served 1 := by
  have executed : ((queueMachine 1).run ⟨.init 1, [], []⟩
      [.pop 0, .pop 1, .push 7 (some 0), .push 8 none, .pop 2, .resume 0]).map
        (fun s : Usage Nat Nat => (s.returned, s.monitor.cond.sleeping)) =
      some ([(2, some 7)], [0, 1]) := by
    decide
  obtain ⟨state, runs, seen⟩ := Machine.Runs.of_map executed
  simp only [Prod.mk.injEq] at seen
  have reachable : (queueMachine 1).Reachable state := ⟨_, _, rfl, runs⟩
  exact ⟨state, reachable, seen.1, seen.2,
    (@blockingQueue_serves Nat Unit _ Nat 1 state reachable).1⟩

end ThreadPool

end Sdpf.Threads
