import Sdpf.Server.Stopping.Sound

/-!
# Stopping a server

If no accept comes between the sweep over `channels_` and the stop of the listener, every
channel is asked to stop, and once the loop has done what it was asked and libuv has closed
the handles no channel is left (`stop_closes_channels`).
-/

namespace Sdpf.Server

open Sdpf.Semantics

namespace ListeningServer

variable {s next : ListeningServer}

section OnStop

variable (s : ListeningServer) (c other : Nat)

@[simp] theorem onClose_conn : (s.onClose c).conn = s.conn := by
  unfold onClose
  split <;> rfl

@[simp] theorem onClose_user : (s.onClose c).user = s.user := by
  unfold onClose
  split <;> rfl

@[simp] theorem onClose_tasks : (s.onClose c).tasks = s.tasks := by
  unfold onClose
  split <;> rfl

@[simp] theorem onStop_user : (s.onStop c).user = s.user := by
  simp only [onStop]
  split_ifs <;> simp

@[simp] theorem onStop_tasks : (s.onStop c).tasks = s.tasks := by
  simp only [onStop]
  split_ifs <;> simp

/-- `on_stop` takes down its own connection. -/
theorem onStop_connected :
    ((s.onStop c).conn other).connected = true ↔ other ≠ c ∧ (s.conn other).connected = true := by
  by_cases is : other = c
  · subst is
    simp only [onStop]
    split_ifs with down
    · simp [down]
    all_goals simp
  · simp only [onStop]
    split_ifs <;> simp [is]

@[simp] theorem onStopListener_user : s.onStopListener.user = s.user := by
  unfold onStopListener
  split_ifs <;> rfl

@[simp] theorem onStopListener_tasks : s.onStopListener.tasks = s.tasks := by
  unfold onStopListener
  split_ifs <;> rfl

@[simp] theorem onStopListener_conn : s.onStopListener.conn = s.conn := by
  unfold onStopListener
  split_ifs <;> rfl

end OnStop

/-- Once `close_all` has run, every channel that is still connected has been asked to stop. -/
def Asked (s : ListeningServer) : Prop :=
  s.user ≠ .running → ∀ c, (s.conn c).connected = true → .channel c ∈ s.tasks

/-- Before the start nobody has been asked to stop. -/
theorem Initial.asked (initial : s.Initial) : s.Asked :=
  fun swept => absurd initial.user swept

/-- A step that connects no channel and drops no task leaves every channel asked. -/
theorem Asked.mono (asked : s.Asked) (user : next.user ≠ .running → s.user ≠ .running)
    (connected : ∀ c, (next.conn c).connected = true → (s.conn c).connected = true)
    (tasks : ∀ c, .channel c ∈ s.tasks → .channel c ∈ next.tasks) : next.Asked :=
  fun swept c up => tasks c (asked (user swept) c (connected c up))

/-- The sweep asks every channel, and only an accept after it makes one that is not asked. -/
theorem Asked.step (asked : s.Asked) (sound : s.Sound) {action : StopAction}
    (unswept : s.Unswept action) (taken : s.step action = some next) : next.Asked := by
  cases step_transition taken with
  | sweep =>
      intro _ c up
      have swept : c ∈ s.channels.filter fun c => (s.conn c).connected :=
        List.mem_filter.mpr ⟨(sound.up c up).1, up⟩
      exact List.mem_append_right _ (List.mem_map_of_mem swept)
  | post swept =>
      refine asked.mono (fun _ => by simp [swept]) (fun _ => id) fun c member => ?_
      split
      · exact List.mem_append_left _ member
      · exact member
  | asked => exact asked.mono id (fun _ => id) fun _ => List.mem_append_left _
  | refused => exact asked
  | alloc => exact asked.mono id (fun _ => id) fun _ => id
  | @accept c ok allocated =>
      obtain ⟨handle, -, same⟩ := accept_eq (sound.allocated c allocated).2 ok
      rw [same]
      cases ok with
      | true => exact fun swept => absurd (unswept rfl) swept
      | false =>
          refine asked.mono id (fun other up => ?_) fun _ => id
          by_cases is : other = c
          · simp [is] at up
          · simpa [is] using up
  | @install c =>
      refine asked.mono id (fun other up => ?_) fun _ => id
      by_cases is : other = c <;> simpa [is] using up
  | drop => exact asked.mono id (fun _ => id) fun _ => id
  | @hangup c =>
      exact asked.mono (by simp) (fun other up => ((onStop_connected s c other).mp up).2) (by simp)
  | @stop c rest idle tasks =>
      intro swept other up
      obtain ⟨ne, up⟩ := (onStop_connected _ c other).mp up
      have member := asked (by simpa using swept) other up
      simpa [tasks, ne] using member
  | @stopListener rest idle tasks =>
      intro swept other up
      have member := asked (by simpa using swept) other (by simpa using up)
      simpa [tasks] using member
  | @closed c =>
      refine asked.mono (by simp) (fun other up => ?_) (by simp)
      by_cases is : other = c <;> simpa [is] using up
  | listenerClosed => exact asked.mono id (fun _ => id) fun _ => id

/-- A server that has stopped has no channel left when every connected one was asked to stop. -/
theorem Sound.stopped (sound : s.Sound) (asked : s.Asked) (stopped : s.Stopped) :
    s.channels = [] ∧ ∀ c, (s.conn c).connected = false := by
  have closed := sound.closed stopped.closed
  have idle : s.accepting = .idle := by
    by_contra busy
    exact absurd (closed.symm.trans (sound.busy busy)) (by decide)
  have returned : s.user = .returned := sound.posted (.inl (by simp [closed]))
  have down : ∀ c, (s.conn c).connected = false := by
    intro c
    by_contra up
    have member := asked (by simp [returned]) c (by simpa using up)
    simp [stopped.tasks] at member
  refine ⟨List.eq_nil_iff_forall_not_mem.mpr fun c member => ?_, down⟩
  rcases sound.there c member with up | closing | allocated
  · exact absurd up (by simp [down c])
  · exact stopped.settled c closing
  · exact absurd (idle.symm.trans allocated) (by simp)

/-- A server that no connection has reached yet. -/
def listening : ListeningServer :=
  ⟨.running, true, Uv.Handle.fresh.init, .idle, [], 0, fun _ => ⟨false, .fresh, false⟩, [], false⟩

/-- The server that listens is an initial one. -/
theorem listening_initial : listening.Initial :=
  ⟨rfl, rfl, rfl, rfl, rfl, rfl, fun _ => rfl, rfl, rfl⟩

/-- Every run keeps the server sound. -/
theorem Initial.runs_sound {finish : ListeningServer} {actions : List StopAction}
    (initial : s.Initial) (runs : stoppingMachine.Runs s actions finish) : finish.Sound :=
  runs.invariant Sound (fun sound taken => sound.step taken) initial.sound

/-- Only a channel that has been made can be closing. -/
theorem Sound.stopped_of (sound : s.Sound) (closed : s.closed = true) (tasks : s.tasks = [])
    (settled : ∀ c < s.count, (s.conn c).handle.phase ≠ .closing) : s.Stopped := by
  refine ⟨closed, tasks, fun c => ?_⟩
  by_cases below : c < s.count
  · exact settled c below
  · simp [sound.unmade c (Nat.not_lt.mp below), Uv.Handle.fresh]

/-- As long as no accept succeeds after the sweep, a server that has stopped has no channel
left and none is connected. -/
theorem stop_closes_channels {start finish : ListeningServer} {actions : List StopAction}
    (initial : start.Initial) (runs : stoppingMachine.Runs start actions finish)
    (unswept : stoppingMachine.Along Unswept start actions) (stopped : finish.Stopped) :
    finish.channels = [] ∧ ∀ c, (finish.conn c).connected = false := by
  have known : finish.Sound ∧ finish.Asked := by
    refine Machine.Runs.guarded (fun s => s.Sound ∧ s.Asked) ?_ ⟨initial.sound, initial.asked⟩ runs
      unswept
    intro state action next known unswept taken
    exact ⟨known.1.step taken, known.2.step known.1 unswept taken⟩
  exact known.1.stopped known.2 stopped

/-- A channel is accepted before the sweep, and an accept fails between the sweep and the stop
of the listener. -/
theorem stop_closes_channels_two : ∃ finish : ListeningServer,
    stoppingMachine.Runs listening
        [.alloc, .accept true, .install, .sweep, .alloc, .accept false, .install, .post, .task,
          .task, .closed 0, .closed 1, .listenerClosed] finish ∧
      finish.channels = [] ∧ ∀ c, (finish.conn c).connected = false := by
  obtain ⟨finish, runs, seen⟩ := @Machine.Runs.of_map _ _ stoppingMachine _
    (fun s => (s.closed, s.tasks, s.count, (s.conn 0).handle.phase, (s.conn 1).handle.phase))
    listening
    [.alloc, .accept true, .install, .sweep, .alloc, .accept false, .install, .post, .task,
      .task, .closed 0, .closed 1, .listenerClosed]
    (true, [], 2, .closed, .closed) (by decide +kernel)
  simp only [Prod.mk.injEq] at seen
  obtain ⟨closed, tasks, count, first, second⟩ := seen
  have stopped : finish.Stopped := by
    refine (listening_initial.runs_sound runs).stopped_of closed tasks fun c below => ?_
    obtain rfl | rfl : c = 0 ∨ c = 1 := by omega
    · simp [first]
    · simp [second]
  exact ⟨finish, runs, stop_closes_channels listening_initial runs (by decide +kernel) stopped⟩

/-- A channel is accepted between the sweep and the stop of the listener, and stays. -/
theorem stop_leaves_channel :
    ¬ ∀ (start finish : ListeningServer) (actions : List StopAction), start.Initial →
        stoppingMachine.Runs start actions finish → finish.Stopped →
        finish.channels = [] ∧ ∀ c, (finish.conn c).connected = false := by
  intro closes
  obtain ⟨finish, runs, seen⟩ := @Machine.Runs.of_map _ _ stoppingMachine _
    (fun s => (s.closed, s.tasks, s.count, (s.conn 0).handle.phase, s.channels)) listening
    [.sweep, .alloc, .accept true, .install, .post, .task, .listenerClosed]
    (true, [], 1, .opened, [0]) (by decide +kernel)
  simp only [Prod.mk.injEq] at seen
  obtain ⟨closed, tasks, count, phase, channels⟩ := seen
  have stopped : finish.Stopped := by
    refine (listening_initial.runs_sound runs).stopped_of closed tasks fun c below => ?_
    obtain rfl : c = 0 := by omega
    simp [phase]
  have empty := (closes listening finish _ listening_initial runs stopped).1
  rw [channels] at empty
  cases empty

end ListeningServer

end Sdpf.Server
