import Sdpf.Threads.ThreadPool

/-!
# What the pool executes

Every accepted task has a ticket, which is in the queue, in the hands of a worker or among
those that were executed. While tasks are accepted only by a running pool, none is lost
except by a stop (`append_executed`).
-/

namespace Sdpf.Threads

open Sdpf.Data Sdpf.Semantics

namespace ThreadPool

variable {Thread Task : Type}

/-- The tickets in the queue. -/
def queued (s : ThreadPool Thread Task) : List Nat := s.monitor.tasks.queue.map Job.ticket

/-- The tickets the workers hold. -/
def held (s : ThreadPool Thread Task) : List Nat := s.holding.map fun held => held.2.ticket

/-- Every ticket that is somewhere. -/
def tickets (s : ThreadPool Thread Task) : List Nat := s.executed ++ (s.held ++ s.queued)

/-- The jobs that are still to be called. -/
def jobs (s : ThreadPool Thread Task) : List (Job Task) :=
  s.holding.map Prod.snd ++ s.monitor.tasks.queue

/-- `start` has emptied the queue, and `stop` has not set the exit flag since. -/
def Running (s : ThreadPool Thread Task) : Prop :=
  s.monitor.tasks.exit = false ∧ (s.threads ≠ [] ∨ s.stage.isStarting = true)

/-- A pool that is not running finds no room for a task. -/
def Accepting (s : ThreadPool Thread Task) : Event Thread Task → Prop
  | .append _ _ => s.Running ∨ s.monitor.tasks.full = true
  | _ => True

instance [DecidableEq Thread] (s : ThreadPool Thread Task) : Decidable s.Running :=
  inferInstanceAs (Decidable (_ ∧ _))

instance [DecidableEq Thread] (s : ThreadPool Thread Task) :
    (event : Event Thread Task) → Decidable (s.Accepting event)
  | .append _ _ => inferInstanceAs (Decidable (_ ∨ _))
  | .start _ _ | .addThread | .stop | .join | .pop _ | .stir _ | .resume _ | .call _ =>
      inferInstanceAs (Decidable True)

/-- What holds of a pool that accepts tasks only while it is running. -/
structure Sound (s : ThreadPool Thread Task) : Prop where
  once : s.tickets.Nodup
  known : ∀ ticket ∈ s.tickets, ticket < s.accepted.length
  carried : ∀ job ∈ s.jobs, s.accepted[job.ticket]? = some job.task
  kept : ∀ ticket task, s.accepted[ticket]? = some (some task) → s.stopped ≤ ticket →
    ticket ∈ s.tickets
  stopping : s.stage = .stopping → s.monitor.tasks.exit = true
  /-- Before a start there is nothing in the queue that was not there at the last stop. -/
  behind : ¬ s.Running → ∀ ticket ∈ s.queued, ticket < s.stopped

section Preservation

variable {s : ThreadPool Thread Task}

/-- A worker's pass of `pop` moves at most the first job into its hands. -/
theorem pass_frame (s : ThreadPool Thread Task) (thread : Thread) :
    (s.pass thread).tickets.Perm s.tickets ∧ (s.pass thread).jobs.Perm s.jobs ∧
      (s.pass thread).queued ⊆ s.queued ∧ (s.pass thread).accepted = s.accepted ∧
      (s.pass thread).stopped = s.stopped ∧ (s.pass thread).stage = s.stage ∧
      (s.pass thread).threads = s.threads ∧
      (s.pass thread).monitor.tasks.exit = s.monitor.tasks.exit := by
  have outcome := s.monitor.pass_cases thread
  generalize answered : s.monitor.pass thread = result at outcome
  obtain ⟨answer, monitor⟩ := result
  simp only [pass, answered]
  cases outcome with
  | sleeps => exact ⟨.refl _, .refl _, List.Subset.refl _, rfl, rfl, rfl, rfl, rfl⟩
  | exits => exact ⟨.refl _, .refl _, List.Subset.refl _, rfl, rfl, rfl, rfl, rfl⟩
  | @takes job rest first stays =>
      have tickets : (s.held ++ s.queued).Perm (job.ticket :: (s.held ++ rest.map Job.ticket)) := by
        rw [queued, first, List.map_cons]
        exact List.perm_middle
      have jobs : s.jobs.Perm (job :: (s.holding.map Prod.snd ++ rest)) := by
        rw [ThreadPool.jobs, first]
        exact List.perm_middle
      refine ⟨(tickets.append_left _).symm, jobs.symm, ?_, rfl, rfl, rfl, rfl, rfl⟩
      rw [queued, queued, first]
      exact List.subset_cons_self _ _

/-- Moving jobs about keeps a pool sound. -/
theorem Sound.moved {other : ThreadPool Thread Task} (sound : s.Sound)
    (tickets : other.tickets.Perm s.tickets) (jobs : other.jobs ⊆ s.jobs)
    (queued : other.queued ⊆ s.queued) (accepted : other.accepted = s.accepted)
    (stopped : other.stopped = s.stopped)
    (stopping : other.stage = .stopping → other.monitor.tasks.exit = true)
    (running : s.Running → other.Running) : other.Sound where
  once := tickets.nodup_iff.mpr sound.once
  known ticket member := by
    rw [accepted]
    exact sound.known ticket (tickets.mem_iff.mp member)
  carried job member := by
    rw [accepted]
    exact sound.carried job (jobs member)
  kept ticket task here since := by
    rw [accepted] at here
    rw [stopped] at since
    exact tickets.mem_iff.mpr (sound.kept ticket task here since)
  stopping := stopping
  behind resting ticket member := by
    rw [stopped]
    exact sound.behind (fun was => resting (running was)) ticket (queued member)

/-- A worker that gets the lock keeps the pool sound. -/
theorem Sound.pass (sound : s.Sound) (thread : Thread) : (s.pass thread).Sound := by
  obtain ⟨tickets, jobs, queued, accepted, stopped, stage, threads, exit⟩ := s.pass_frame thread
  refine sound.moved tickets jobs.subset queued accepted stopped ?_ ?_
  · rw [stage, exit]
    exact sound.stopping
  · unfold Running
    rw [exit, threads, stage]
    exact id

/-- A task that is called is one that a worker held. -/
theorem Sound.call {thread : Thread} {job : Job Task} {rest : List (Thread × Job Task)}
    (sound : s.Sound) (held : s.holding.Perm ((thread, job) :: rest)) :
    Sound { s with
      ready := thread :: s.ready
      holding := rest
      executed := if job.task.isSome then s.executed ++ [job.ticket] else s.executed } := by
  have tickets : s.held.Perm (job.ticket :: rest.map fun held => held.2.ticket) :=
    held.map fun held : Thread × Job Task => held.2.ticket
  have jobs : (s.holding.map Prod.snd).Perm (job :: rest.map Prod.snd) := held.map Prod.snd
  have all : s.tickets.Perm
      (job.ticket :: (s.executed ++ ((rest.map fun held => held.2.ticket) ++ s.queued))) :=
    ((tickets.append_right _).append_left _).trans List.perm_middle
  have mine : s.accepted[job.ticket]? = some job.task :=
    sound.carried job (List.mem_append_left _ (jobs.mem_iff.mpr List.mem_cons_self))
  cases task : job.task with
  | some callable =>
      refine sound.moved ?_ ?_ (List.Subset.refl _) rfl rfl sound.stopping id
      · simp only [ThreadPool.tickets, Option.isSome_some, if_true, List.append_assoc,
          List.singleton_append]
        exact List.perm_middle.trans all.symm
      · intro other member
        rcases List.mem_append.mp member with holding | waiting
        · exact List.mem_append_left _ (jobs.mem_iff.mpr (List.mem_cons_of_mem _ holding))
        · exact List.mem_append_right _ waiting
  | none =>
      -- an empty function is dropped, and nobody waits for it
      simp only [Option.isSome_none, Bool.false_eq_true, if_false]
      refine ⟨(List.nodup_cons.mp (all.nodup_iff.mp sound.once)).2, fun ticket member => ?_,
        fun other member => ?_, fun ticket callable here since => ?_, sound.stopping,
        sound.behind⟩
      · exact sound.known ticket (all.mem_iff.mpr (List.mem_cons_of_mem _ member))
      · rcases List.mem_append.mp member with holding | waiting
        · exact sound.carried other
            (List.mem_append_left _ (jobs.mem_iff.mpr (List.mem_cons_of_mem _ holding)))
        · exact sound.carried other (List.mem_append_right _ waiting)
      · rcases List.mem_cons.mp (all.mem_iff.mp (sound.kept ticket callable here since)) with
          rfl | elsewhere
        · rw [mine, task] at here
          cases here
        · exact elsewhere

/-- A task that found room in the queue of a running pool. -/
theorem Sound.appended {other : ThreadPool Thread Task} {task : Option Task} (sound : s.Sound)
    (running : other.Running)
    (queue : other.monitor.tasks.queue =
      s.monitor.tasks.queue ++ [⟨s.accepted.length, task⟩])
    (accepted : other.accepted = s.accepted ++ [task]) (executed : other.executed = s.executed)
    (holding : other.holding = s.holding) (stopped : other.stopped = s.stopped)
    (stopping : other.stage = .stopping → other.monitor.tasks.exit = true) : other.Sound := by
  have tickets : other.tickets = s.tickets ++ [s.accepted.length] := by
    simp only [ThreadPool.tickets, ThreadPool.held, queued, executed, holding, queue,
      List.map_append, List.map_cons, List.map_nil, List.append_assoc]
  have jobs : other.jobs = s.jobs ++ [⟨s.accepted.length, task⟩] := by
    rw [ThreadPool.jobs, ThreadPool.jobs, holding, queue, List.append_assoc]
  refine ⟨?_, fun ticket member => ?_, fun job member => ?_, fun ticket callable here since => ?_,
    stopping, fun resting => absurd running resting⟩
  · rw [tickets]
    refine List.Nodup.append sound.once (List.nodup_singleton _) ?_
    intro ticket member new
    have below := sound.known ticket member
    rw [List.mem_singleton.mp new] at below
    exact Nat.lt_irrefl _ below
  · rw [tickets] at member
    rw [accepted, List.length_append, List.length_singleton]
    rcases List.mem_append.mp member with earlier | new
    · exact Nat.lt_succ_of_lt (sound.known ticket earlier)
    · rw [List.mem_singleton.mp new]
      exact Nat.lt_succ_self _
  · rw [jobs] at member
    rw [accepted]
    rcases List.mem_append.mp member with earlier | new
    · have carried := sound.carried job earlier
      rw [List.getElem?_append_left (List.getElem?_eq_some_iff.mp carried).1]
      exact carried
    · rw [List.mem_singleton.mp new]
      simp
  · rw [accepted] at here
    rw [tickets]
    rw [stopped] at since
    by_cases earlier : ticket < s.accepted.length
    · rw [List.getElem?_append_left earlier] at here
      exact List.mem_append_left _ (sound.kept ticket callable here since)
    · have inside := (List.getElem?_eq_some_iff.mp here).1
      rw [List.length_append, List.length_singleton] at inside
      rw [show ticket = s.accepted.length by omega]
      exact List.mem_append_right _ (List.mem_singleton.mpr rfl)

/-- A start discards nothing that was accepted since the last stop. -/
theorem Sound.started {workers : List Thread} {maxTask : Nat} (sound : s.Sound)
    (between : s.stage = .idle) (none : s.threads = []) :
    Sound { s with
      monitor := { s.monitor with tasks := .init maxTask }
      stage := .starting workers } := by
  have resting : ¬ s.Running := by
    rintro ⟨_, running | begun⟩
    · exact running none
    · rw [between] at begun
      cases begun
  have fewer : List.Sublist (s.executed ++ (s.held ++ [])) s.tickets :=
    (List.Sublist.refl _).append ((List.Sublist.refl _).append (List.nil_sublist _))
  refine ⟨sound.once.sublist fewer, fun ticket member => ?_, fun job member => ?_,
    fun ticket task here since => ?_, ?_, ?_⟩
  · exact sound.known ticket (fewer.subset member)
  · refine sound.carried job ?_
    rw [ThreadPool.jobs, BlockingQueue.init, List.append_nil] at member
    exact List.mem_append_left _ member
  · rcases List.mem_append.mp (sound.kept ticket task here since) with executed | left
    · exact List.mem_append_left _ executed
    · rcases List.mem_append.mp left with held | queued
      · exact List.mem_append_right _ (List.mem_append_left _ held)
      · exact absurd (sound.behind resting ticket queued) (Nat.not_lt.mpr since)
  · intro stopping
    cases stopping
  · intro _ ticket member
    cases member

/-- Every step of a pool that accepts tasks only while it is running. -/
theorem Sound.step [DecidableEq Thread] {next : ThreadPool Thread Task} {event : Event Thread Task}
    (sound : s.Sound) (accepting : s.Accepting event) (taken : s.step event = some next) :
    next.Sound := by
  cases step_cases taken with
  | start between none some_workers => exact sound.started between none
  | @addThread thread left begun =>
      refine sound.moved (.refl _) (List.Subset.refl _) (List.Subset.refl _) rfl rfl ?_ ?_
      · intro stopping
        split_ifs at stopping
      · rintro ⟨exit, _⟩
        exact ⟨exit, .inl (by simp)⟩
  | stop between running =>
      refine ⟨sound.once, sound.known, sound.carried, ?_, fun _ => rfl, ?_⟩
      · intro ticket task here since
        exact absurd (List.getElem?_eq_some_iff.mp here).1 (Nat.not_lt.mpr since)
      · intro resting ticket member
        exact sound.known ticket (List.mem_append_right _ (List.mem_append_right _ member))
  | join begun all =>
      refine sound.moved (.refl _) (List.Subset.refl _) (List.Subset.refl _) rfl rfl ?_ ?_
      · intro stopping
        cases stopping
      · rintro ⟨exit, _⟩
        rw [sound.stopping begun] at exit
        cases exit
  | append room notified =>
      have running : s.Running := by
        refine accepting.resolve_right fun full => ?_
        rw [room] at full
        cases full
      exact sound.appended running rfl rfl rfl rfl rfl sound.stopping
  | @pop thread here =>
      have moved : Sound { s with ready := s.ready.erase thread } :=
        sound.moved (.refl _) (List.Subset.refl _) (List.Subset.refl _) rfl rfl sound.stopping id
      exact moved.pass thread
  | stir stirs =>
      exact sound.moved (.refl _) (List.Subset.refl _) (List.Subset.refl _) rfl rfl sound.stopping id
  | @resume thread cond resumes =>
      have moved : Sound { s with monitor := { s.monitor with cond := cond } } :=
        sound.moved (.refl _) (List.Subset.refl _) (List.Subset.refl _) rfl rfl sound.stopping id
      exact moved.pass thread
  | call held => exact sound.call held
  | refused => exact sound

end Preservation

/-- Every task is called once, where the workers get to it before the next stop. -/
def Keeps (s : ThreadPool Thread Task) : Prop :=
  s.executed.Nodup ∧
    ∀ ticket task, s.accepted[ticket]? = some (some task) → s.stopped ≤ ticket →
      (ticket ∈ s.executed ∨ ticket ∈ s.held ∨ ticket ∈ s.queued) ∧
        (s.held = [] → s.queued = [] → s.executed.count ticket = 1)

/-- A sound pool has lost no task since the last stop. -/
theorem Sound.keeps {s : ThreadPool Thread Task} (sound : s.Sound) : s.Keeps := by
  have once : s.executed.Nodup := (List.nodup_append.mp sound.once).1
  refine ⟨once, fun ticket task here since => ?_⟩
  have somewhere : ticket ∈ s.executed ∨ ticket ∈ s.held ∨ ticket ∈ s.queued := by
    simpa only [tickets, List.mem_append] using sound.kept ticket task here since
  refine ⟨somewhere, fun nobody empty => ?_⟩
  rw [nobody, empty] at somewhere
  exact List.count_eq_one_of_mem once (by simpa using somewhere)

/-- A pool after its constructor is sound. -/
theorem Sound.fresh : (fresh : ThreadPool Thread Task).Sound := by
  refine ⟨List.nodup_nil, ?_, ?_, ?_, ?_, ?_⟩
  · intro ticket member
    cases member
  · intro job member
    cases member
  · intro ticket task here
    cases here
  · intro stopping
    cases stopping
  · intro _ ticket member
    cases member

section Runs

variable [DecidableEq Thread] {start s : ThreadPool Thread Task} {events : List (Event Thread Task)}

/-- A pool that accepts tasks only while it is running executes what it accepts. -/
theorem append_executed (initial : poolMachine.Initial start)
    (runs : poolMachine.Runs start events s)
    (accepting : poolMachine.Along Accepting start events) : s.Keeps := by
  cases initial
  exact (runs.guarded Sound (fun sound here taken => sound.step here taken) .fresh accepting).keeps

end Runs

/-- A pool that is stopped with a task in its queue, and started again. -/
theorem append_executed_restarted :
    ∃ s : ThreadPool Nat Unit, poolMachine.Runs fresh
        [.start [0] 0, .addThread, .append (some ()) none, .pop 0, .call 0, .append (some ()) none,
          .stop, .pop 0, .join, .start [1] 0, .append (some ()) none, .addThread] s ∧
      s.executed = [0] ∧ s.stopped = 2 ∧ s.queued = [2] ∧ s.Keeps := by
  have executed : (poolMachine.run (fresh : ThreadPool Nat Unit)
      [.start [0] 0, .addThread, .append (some ()) none, .pop 0, .call 0, .append (some ()) none,
        .stop, .pop 0, .join, .start [1] 0, .append (some ()) none, .addThread]).map
        (fun s => (s.executed, s.stopped, s.queued)) = some ([0], 2, [2]) := by
    decide +kernel
  have accepting : poolMachine.Along Accepting (fresh : ThreadPool Nat Unit)
      [.start [0] 0, .addThread, .append (some ()) none, .pop 0, .call 0, .append (some ()) none,
        .stop, .pop 0, .join, .start [1] 0, .append (some ()) none, .addThread] := by
    decide +kernel
  obtain ⟨s, runs, seen⟩ := Machine.Runs.of_map executed
  simp only [Prod.mk.injEq] at seen
  exact ⟨s, runs, seen.1, seen.2.1, seen.2.2, append_executed rfl runs accepting⟩

/-- A task appended before the start is accepted, and the start discards it. -/
theorem append_discarded :
    ¬ ∀ (start s : ThreadPool Nat Unit) (events : List (Event Nat Unit)),
      poolMachine.Initial start → poolMachine.Runs start events s → s.Keeps := by
  intro always
  have executed : (poolMachine.run (fresh : ThreadPool Nat Unit)
      [.append (some ()) none, .start [0] 0, .addThread, .pop 0]).map
        (fun s => (s.accepted, s.stopped, s.tickets)) = some ([some ()], 0, []) := by
    decide +kernel
  obtain ⟨s, runs, seen⟩ := Machine.Runs.of_map executed
  simp only [Prod.mk.injEq] at seen
  obtain ⟨accepted, stopped, nowhere⟩ := seen
  have kept := (always fresh s _ rfl runs).2 0 () (by rw [accepted]; rfl) (by omega)
  have somewhere : 0 ∈ s.tickets := by simpa only [tickets, List.mem_append] using kept.1
  rw [nowhere] at somewhere
  cases somewhere

end ThreadPool

end Sdpf.Threads
