import Sdpf.Tcp.Connection

/-!
# The send queue

Between callbacks the front of a queue that is not empty is being written, as long as no
`uv_write` fails at once: `send_buf` logs such a failure and goes on, where `on_write`
stops the connection. Restarts are allowed, but not while the handle is closing.
-/

namespace Sdpf.Tcp

open Sdpf.Semantics

namespace Connection

variable {s next : Connection}

/-- The queue is not empty exactly when one write is outstanding, that of its front. -/
def InFlight (s : Connection) : Prop :=
  (s.buffers ≠ [] ↔ s.outstanding.length = 1) ∧
    ∀ buf ∈ s.outstanding, s.buffers.head? = some buf

/-- No `uv_write` fails at once while the connection is up, and no start takes effect while
the handle is closing. In `conn_cb_` for a failed connect a write may fail. -/
def Healthy (s : Connection) : Action → Prop
  | .start _ => s.connected = true ∨ s.handle.phase ≠ .closing
  | .send wr => s.connected = true → .failed ∉ s.stack → s.buffers = [] → wr = 0
  | .write status wr =>
      s.connected = true → s.sendCb = false → status = 0 → s.buffers.tail ≠ [] → wr = 0
  | .ret wr =>
      s.connected = true → s.stack = [] → s.writing = some 0 → s.buffers.tail ≠ [] → wr = 0
  | _ => True

/-- Where the handle is, and that nothing is left behind on a connection that is down. -/
structure Placed (s : Connection) : Prop where
  live : s.connected = true → s.handle.phase = .opened ∨ s.handle.phase = .closing
  connecting : s.connecting = true → s.handle.phase = .opened ∨ s.handle.phase = .closing
  drained : s.connected = false → s.handle.phase ≠ .closing →
    s.outstanding = [] ∧ s.buffers = [] ∧ s.writing = none

/-- A connection that is up, and not about to be stopped, writes the front of its queue or
waits for `send_cb_` to return. -/
structure Flowing (s : Connection) : Prop extends Placed s where
  opened : s.connected = true → .failed ∉ s.stack → s.handle.phase = .opened
  resting : s.connected = true → .failed ∉ s.stack → s.writing = none →
    s.outstanding = s.buffers.take 1
  running : s.connected = true → .failed ∉ s.stack → s.writing ≠ none →
    s.outstanding = [] ∧ s.buffers ≠ []

/-- A connection that is down need only be placed. -/
theorem Placed.flowing (placed : s.Placed) (down : s.connected = false) : s.Flowing where
  toPlaced := placed
  opened up := by simp [down] at up
  resting up := by simp [down] at up
  running up := by simp [down] at up

/-- So need one that is about to be stopped. -/
theorem Placed.failing (placed : s.Placed) (failed : .failed ∈ s.stack) : s.Flowing where
  toPlaced := placed
  opened _ absent := absurd failed absent
  resting _ absent := absurd failed absent
  running _ absent := absurd failed absent

/-- `on_stop` leaves the queue to be cleared. -/
theorem Placed.onStop (placed : s.Placed) : s.onStop.Flowing := by
  refine Placed.flowing ?_ onStop_down
  unfold Connection.onStop
  split_ifs with down closing
  · exact placed
  · have up : s.connected = true := by simpa using down
    have phase : s.handle.phase = .closing := by
      rcases placed.live up with now | now
      · simp [Uv.Handle.isClosing_iff, now] at closing
      · exact now
    exact
      { live := fun now => by cases now
        connecting := placed.connecting
        drained := fun _ other => absurd phase other }
  · have up : s.connected = true := by simpa using down
    have phase : s.handle.close.phase = .closing := by
      refine Uv.Handle.close_opened ((placed.live up).resolve_right fun now => closing ?_)
      exact Uv.Handle.isClosing_iff.mpr (.inl now)
    exact
      { live := fun now => by cases now
        connecting := fun _ => .inr phase
        drained := fun _ other => absurd phase other }

/-- A callback leaves the queue alone. -/
theorem Flowing.call (flowing : s.Flowing) (set : Bool) (frame : Frame) (what : Callback) :
    (s.call set frame what).Flowing :=
  { flowing with
    opened := fun up absent => flowing.opened up (mt mem_call absent)
    resting := fun up absent => flowing.resting up (mt mem_call absent)
    running := fun up absent => flowing.running up (mt mem_call absent) }

/-- `on_send` takes the buffer to the end of the queue. -/
theorem Flowing.onSend (flowing : s.Flowing) {wr : Int}
    (success : s.connected = true → .failed ∉ s.stack → s.buffers = [] → wr = 0) :
    (s.onSend wr).Flowing := by
  unfold Connection.onSend
  simp only
  split_ifs with down full empty
  · exact { flowing with }
  · exact Flowing.call (s := { s with
      sends := s.sends + 1
      refused := s.refused ++ [(s.sends, s.sendCb)] }) { flowing with } _ _ _
  · have up : s.connected = true := by simpa using down
    exact
      { live := flowing.live
        connecting := flowing.connecting
        drained := fun now => absurd now down
        opened := flowing.opened
        resting := fun _ absent returned => by
          have free : s.outstanding = [] := by
            rw [flowing.resting up absent returned, empty]
            rfl
          simp [Connection.sendBuf, success up absent empty, free, empty]
        running := fun _ absent going => absurd empty (flowing.running up absent going).2 }
  · have front : (s.buffers ++ [s.sends]).take 1 = s.buffers.take 1 :=
      List.take_append_of_le_length (List.length_pos_iff.mpr empty)
    exact
      { live := flowing.live
        connecting := flowing.connecting
        drained := fun now => absurd now down
        opened := flowing.opened
        resting := fun up absent returned => by
          simp only [front]
          exact flowing.resting up absent returned
        running := fun up absent going => ⟨(flowing.running up absent going).1, by simp⟩ }

/-- `on_connect`; where it succeeds, the queue is in order. -/
theorem Placed.onConnect (placed : s.Placed) {status : Int}
    (phase : s.handle.phase = .opened ∨ s.handle.phase = .closing)
    (ready : status = 0 → s.handle.phase = .opened ∧ s.writing = none ∧
      s.outstanding = s.buffers.take 1) : (s.onConnect status).Flowing := by
  have up : { s with connected := true : Connection }.Placed :=
    { live := fun _ => phase
      connecting := placed.connecting
      drained := fun now => by cases now }
  unfold Connection.onConnect
  simp only
  split_ifs with failed
  · exact Placed.failing { up with } List.mem_cons_self
  · exact up.onStop
  · obtain ⟨opened, returned, front⟩ := ready (not_not.mp failed)
    exact
      { live := fun _ => phase
        connecting := placed.connecting
        drained := fun now => by cases now
        opened := fun _ _ => opened
        resting := fun _ _ _ => front
        running := fun _ _ going => absurd returned going }

/-- A read leaves the queue alone. -/
theorem Flowing.onRead (flowing : s.Flowing) (nread : Int) : (s.onRead nread).Flowing := by
  unfold Connection.onRead
  split_ifs
  · exact flowing
  · exact flowing.call _ _ _
  · exact flowing.toPlaced.onStop

/-- The front is popped and the next buffer is passed on. -/
theorem Placed.written (placed : s.Placed) {status wr : Int}
    (down : s.connected = false → s.handle.phase = .closing)
    (up : s.connected = true → s.handle.phase = .opened ∧ s.outstanding = [])
    (returned : s.writing = none)
    (success : s.connected = true → status = 0 → s.buffers.tail ≠ [] → wr = 0) :
    (s.written status wr).Flowing := by
  unfold Connection.written
  simp only
  split_ifs with completed empty
  · exact
      { live := placed.live
        connecting := placed.connecting
        drained := fun now other => absurd (down now) other
        opened := fun now _ => (up now).1
        resting := fun now _ _ => by simp [(up now).2, empty]
        running := fun _ _ going => absurd returned going }
  · exact
      { live := placed.live
        connecting := placed.connecting
        drained := fun now other => absurd (down now) other
        opened := fun now _ => (up now).1
        resting := fun now _ _ => by
          simp [Connection.sendBuf, (up now).2, success now completed empty]
        running := fun _ _ going => absurd returned going }
  · exact placed.onStop

/-- A write of a connection that is down was taken before the handle was closed; otherwise it
is that of the front. -/
theorem Flowing.onWrite (flowing : s.Flowing) (idle : s.Idle) {buf : Nat} {rest : List Nat}
    (outstanding : s.outstanding = buf :: rest) {status wr : Int}
    (success : s.connected = true → s.sendCb = false → status = 0 → s.buffers.tail ≠ [] → wr = 0) :
    ({ s with outstanding := rest }.onWrite status wr).Flowing := by
  have none_failed : .failed ∉ s.stack := by simp [idle.1]
  unfold Connection.onWrite
  by_cases down : s.connected = false
  · rw [if_pos down]
    have closing : s.handle.phase = .closing := by
      by_contra settled
      have free := (flowing.drained down settled).1
      rw [outstanding] at free
      cases free
    exact Placed.flowing
      { live := flowing.live
        connecting := flowing.connecting
        drained := fun _ other => absurd closing other } down
  rw [if_neg down]
  have up : s.connected = true := by simpa using down
  have opened := flowing.opened up none_failed
  have front := flowing.resting up none_failed idle.2
  rw [outstanding] at front
  have nonempty : s.buffers ≠ [] := fun empty => by simp [empty] at front
  have last : rest = [] := by
    have length := congrArg List.length front
    simp only [List.length_cons, List.length_take] at length
    exact List.eq_nil_of_length_eq_zero (by omega)
  have placed : { s with outstanding := rest : Connection }.Placed :=
    { live := flowing.live
      connecting := flowing.connecting
      drained := fun now => absurd now down }
  by_cases reported : s.sendCb = true
  · rw [if_pos reported]
    exact
      { live := flowing.live
        connecting := flowing.connecting
        drained := fun now => absurd now down
        opened := fun _ _ => opened
        resting := fun _ _ returned => by cases returned
        running := fun _ _ _ => ⟨last, nonempty⟩ }
  · rw [if_neg reported]
    exact placed.written (fun now => absurd now down) (fun _ => ⟨opened, last⟩) idle.2
      fun up completed more => success up (by simpa using reported) completed more

/-- A healthy step keeps the queue flowing. -/
theorem Flowing.step {action : Action} (flowing : s.Flowing) (healthy : s.Healthy action)
    (taken : s.step action = some next) : next.Flowing := by
  obtain ⟨usable, transition⟩ := step_transition taken
  -- no callback of a failed connect is running between callbacks
  have none_failed : s.Idle → .failed ∉ s.stack := fun idle => by simp [idle.1]
  cases transition with
  | ignored => exact flowing
  | reused down closing =>
      rcases healthy with up | settled
      · simp [down] at up
      · exact absurd closing settled
  | started down settled =>
      obtain ⟨free, empty, returned⟩ := flowing.drained down settled
      have opened : s.handle.init.phase = .opened := Uv.Handle.init_opened usable settled
      exact
        { live := fun _ => .inl opened
          connecting := fun _ => .inl opened
          drained := fun now => by cases now
          opened := fun _ _ => opened
          resting := fun _ _ _ => by simp [free, empty]
          running := fun _ _ going => absurd returned going }
  | startFailed down settled error =>
      have opened : s.handle.init.phase = .opened := Uv.Handle.init_opened usable settled
      have placed : { s with
          connected := true
          finished := false
          handle := s.handle.init : Connection }.Placed :=
        { live := fun _ => .inl opened
          connecting := fun _ => .inl opened
          drained := fun now => by cases now }
      exact placed.onConnect (.inl opened) fun success => absurd success error
  | accepted fresh idle =>
      have opened : s.handle.init.phase = .opened :=
        Uv.Handle.init_opened usable (by simp [fresh])
      have down : s.connected = false := by
        by_contra up
        rcases flowing.live (by simpa using up) with now | now <;> simp [fresh] at now
      obtain ⟨free, empty, returned⟩ := flowing.drained down (by simp [fresh])
      have placed : { s with handle := s.handle.init : Connection }.Placed :=
        { live := fun _ => .inl opened
          connecting := fun _ => .inl opened
          drained := fun _ _ => ⟨free, empty, returned⟩ }
      exact placed.onConnect (.inl opened) fun _ => ⟨opened, returned, by simp [free, empty]⟩
  | stop => exact flowing.toPlaced.onStop
  | send => exact flowing.onSend healthy
  | callbacks => exact { flowing with }
  | @connect status idle connecting cancelled =>
      have phase := flowing.connecting connecting
      have placed : { s with connecting := false : Connection }.Placed :=
        { live := flowing.live
          connecting := fun now => by cases now
          drained := flowing.drained }
      refine placed.onConnect phase fun success => ?_
      have settled : s.handle.phase ≠ .closing := fun now =>
        cancelled (Uv.Handle.isClosing_iff.mpr (.inl now)) success
      refine ⟨phase.resolve_right settled, idle.2, ?_⟩
      cases up : s.connected with
      | true => exact flowing.resting up (none_failed idle) idle.2
      | false =>
          obtain ⟨free, empty, _⟩ := flowing.drained up settled
          simp [free, empty]
  | read => exact flowing.onRead _
  | write idle outstanding => exact flowing.onWrite idle outstanding healthy
  | closed idle closing settled free =>
      have down : s.connected = false := by
        by_contra up
        have opened := flowing.opened (by simpa using up) (none_failed idle)
        simp [closing] at opened
      refine Placed.flowing (s := Connection.onClose _) ?_ down
      exact
        { live := fun up => by
            rw [show s.connected = true from up] at down
            cases down
          connecting := fun now => by
            rw [show s.connecting = true from now] at settled
            cases settled
          drained := fun _ _ => ⟨free, rfl, idle.2⟩ }
  | @returned wr frame rest stack other =>
      have still : .failed ∉ rest → .failed ∉ s.stack := fun absent member => by
        rw [stack] at member
        exact (List.mem_cons.mp member).elim (fun same => other same.symm) absent
      exact
        { flowing with
          opened := fun up absent => flowing.opened up (still absent)
          resting := fun up absent => flowing.resting up (still absent)
          running := fun up absent => flowing.running up (still absent) }
  | @failed wr rest stack =>
      have popped : { s with stack := rest : Connection }.Placed := { flowing.toPlaced with }
      exact popped.onStop
  | @written wr status stack writing =>
      have running : s.writing ≠ none := by simp [writing]
      have returned : { s with writing := none : Connection }.Placed :=
        { live := flowing.live
          connecting := flowing.connecting
          drained := fun down settled => absurd (flowing.drained down settled).2.2 running }
      refine returned.written (fun down => ?_) (fun up => ?_) rfl fun up completed more => ?_
      · by_contra settled
        exact running (flowing.drained down settled).2.2
      · have none_failed : .failed ∉ s.stack := by simp [stack]
        exact ⟨flowing.opened up none_failed, (flowing.running up none_failed running).1⟩
      · exact healthy up stack (by rw [writing, completed]) more

/-- Before the start the queue is empty. -/
theorem Initial.flowing (initial : s.Initial) : s.Flowing := by
  refine Placed.flowing ⟨fun up => ?_, fun now => ?_, fun _ _ => ?_⟩ initial.connected
  · simp [initial.connected] at up
  · simp [initial.connecting] at now
  · exact ⟨initial.outstanding, initial.buffers, initial.writing⟩

/-- Between callbacks the queue of a connection that is up does not stall, as long as no
`uv_write` fails at once. -/
theorem queue_flows {start : Connection} {actions : List Action} (initial : start.Initial)
    (runs : connectionMachine.Runs start actions s)
    (healthy : connectionMachine.Along Healthy start actions) (idle : s.Idle)
    (up : s.connected = true) : s.InFlight := by
  have flowing : s.Flowing :=
    runs.guarded Flowing (fun flowing healthy taken => flowing.step healthy taken)
      initial.flowing healthy
  have front := flowing.resting up (by simp [idle.1]) idle.2
  unfold InFlight
  rw [front]
  cases s.buffers with
  | nil => simp
  | cons => simp

/-- A connection with two buffers, one of which has been written. -/
theorem queue_flows_two :
    ∃ s, connectionMachine.Runs fresh
        [.start none, .connect 0, .send 0, .send 0, .write 0 0] s ∧ s.buffers = [1] ∧
      s.InFlight := by
  have executed : (connectionMachine.run fresh
      [.start none, .connect 0, .send 0, .send 0, .write 0 0]).map
        (fun s => (decide s.Idle, s.connected, s.buffers)) = some (true, true, [1]) := by
    decide +kernel
  obtain ⟨s, runs, seen⟩ := Machine.Runs.of_map executed
  simp only [Prod.mk.injEq, decide_eq_true_eq] at seen
  have healthy : connectionMachine.Along Healthy fresh
      [.start none, .connect 0, .send 0, .send 0, .write 0 0] :=
    ⟨.inr (by decide), fun _ _ => ⟨trivial, fun _ _ => ⟨fun _ _ _ => rfl, fun _ _ =>
      ⟨fun _ _ _ => rfl, fun _ _ => ⟨fun _ _ _ _ => rfl, fun _ _ => trivial⟩⟩⟩⟩⟩
  exact ⟨s, runs, seen.2.2, queue_flows fresh_initial runs healthy seen.1 seen.2.1⟩

/-- After an `uv_write` that fails at once a buffer waits for nothing. -/
theorem queue_stalls :
    ¬ ∀ (start s : Connection) (actions : List Action), start.Initial →
      connectionMachine.Runs start actions s → s.Idle → s.connected = true → s.InFlight := by
  intro always
  have executed : (connectionMachine.run fresh [.start none, .connect 0, .send (-9)]).map
        (fun s => (decide s.Idle, s.connected, s.buffers, s.outstanding)) =
      some (true, true, [0], []) := by
    decide +kernel
  obtain ⟨s, runs, seen⟩ := Machine.Runs.of_map executed
  simp only [Prod.mk.injEq, decide_eq_true_eq] at seen
  obtain ⟨idle, up, buffers, outstanding⟩ := seen
  have counted := (always fresh s _ fresh_initial runs idle up).1
  simp [buffers, outstanding] at counted

end Connection

end Sdpf.Tcp
