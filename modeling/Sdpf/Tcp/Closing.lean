import Sdpf.Tcp.Order

/-!
# The last callback

`on_stop` calls `on_close` itself when it finds the handle closing. That happens only to a
connection that was stopped while its connect was pending: the cancelled connect makes it
connected again, and `on_stop` is called for the second time. Where `close_cb_` is not set
then, `close_cb_` is the last callback of a connection that is started once.
-/

namespace Sdpf.Tcp

open Sdpf.Semantics

namespace Connection

variable {s next : Connection}

/-- No callback is called behind `close_cb_`, not even `close_cb_`. -/
def ClosesOnce (s : Connection) : Prop :=
  ∀ before after, s.log = before ++ .close :: after → after = []

/-- `on_stop` does not find the handle closing while `close_cb_` is set. -/
def Silent (s : Connection) : Action → Prop
  | .stop => s.connected = true → s.handle.phase = .closing → s.closeCb = false
  | .connect _ => s.handle.phase = .closing → s.connCb = false → s.closeCb = false
  | .ret _ => s.stack.head? = some .failed → s.connected = true → s.handle.phase = .closing →
      s.closeCb = false
  | _ => True

instance (s : Connection) : (action : Action) → Decidable (s.Silent action)
  | .stop => inferInstanceAs (Decidable (_ → _ → _))
  | .connect _ => inferInstanceAs (Decidable (_ → _ → _))
  | .ret _ => inferInstanceAs (Decidable (_ → _ → _ → _))
  | .start _ | .accept _ | .send _ | .callbacks .. | .read _ | .write .. | .closed =>
      inferInstanceAs (Decidable True)

/-- `close_cb_` is called when the handle is closed, and last. -/
structure Ending (s : Connection) : Prop where
  closed : .close ∈ s.log → s.handle.phase = .closed
  last : s.ClosesOnce

/-- `close_cb_` is not called. -/
def Mute (s next : Connection) : Prop := .close ∈ next.log → .close ∈ s.log

/-- A callback other than the close callback ends nothing. -/
theorem mute_call (set : Bool) (frame : Frame) {what : Callback} (other : what ≠ .close) :
    s.Mute (s.call set frame what) := by
  intro member
  cases set with
  | true =>
      rcases List.mem_append.mp member with before | last
      · exact before
      · exact absurd (List.mem_singleton.mp last).symm other
  | false => exact member

/-- `on_stop` reports no end of its own accord. -/
theorem mute_onStop (silent : s.connected = true → s.handle.isClosing = true → s.closeCb = false) :
    s.Mute s.onStop := by
  unfold onStop
  split_ifs with down closing
  · exact id
  · have unset : s.closeCb = false := silent (by simpa using down) closing
    intro member
    simpa [onClose, call, unset] using member
  · exact id

/-- Nor does `on_send`. -/
theorem mute_onSend (wr : Int) : s.Mute (s.onSend wr) := by
  unfold onSend
  simp only
  split_ifs
  · exact id
  · exact mute_call s.sendCb .refused (by simp)
  · exact id
  · exact id

/-- Nor does the callback of the connect. -/
theorem mute_onConnect (status : Int)
    (silent : s.handle.isClosing = true → s.connCb = false → s.closeCb = false) :
    s.Mute (s.onConnect status) := by
  unfold onConnect
  simp only
  split_ifs with failed set
  · exact mute_call true .failed (by simp)
  · exact mute_onStop (s := { s with connected := true }) fun _ closing =>
      silent closing (by simpa using set)
  · exact mute_call s.connCb .connected (by simp)

/-- Nor does a read. -/
theorem mute_onRead (nread : Int)
    (silent : s.connected = true → s.handle.isClosing = true → s.closeCb = false) :
    s.Mute (s.onRead nread) := by
  unfold onRead
  split_ifs
  · exact id
  · exact mute_call s.recvCb .received (by simp)
  · exact mute_onStop silent

/-- Nor does a write that is reported. -/
theorem mute_written (status wr : Int)
    (silent : s.connected = true → s.handle.isClosing = true → s.closeCb = false) :
    s.Mute (s.written status wr) := by
  unfold written
  simp only
  split_ifs
  · exact id
  · exact id
  · exact mute_onStop silent

/-- Nor does what the callback of a write does. -/
theorem mute_onWrite (status wr : Int)
    (silent : s.connected = true → s.handle.isClosing = true → s.closeCb = false) :
    s.Mute (s.onWrite status wr) := by
  unfold onWrite
  split_ifs
  · exact id
  · intro member
    rcases List.mem_append.mp member with before | last
    · exact before
    · obtain ⟨_, _, same⟩ := List.mem_map.mp last
      cases same
  · exact mute_written status wr silent

/-- A connection that is closed and not started again calls nothing. -/
theorem Orderly.closed_step {action : Action} (orderly : s.Orderly) (once : s.StartsOnce action)
    (closed : s.handle.phase = .closed) (taken : s.step action = some next) :
    next.log = s.log ∧ next.handle.phase = .closed := by
  obtain ⟨_, transition⟩ := step_transition taken
  obtain ⟨down, settled, returned, _⟩ := orderly.finished (orderly.closed closed)
  have unstarted : ¬ (s.connected = true ∨ s.handle.phase = .fresh) := by simp [down, closed]
  cases transition with
  | ignored => exact ⟨rfl, closed⟩
  | reused _ closing => simp [closed] at closing
  | started => exact absurd once unstarted
  | startFailed => exact absurd once unstarted
  | accepted fresh => simp [closed] at fresh
  | stop =>
      have still : s.onStop = s := if_pos down
      rw [still]
      exact ⟨rfl, closed⟩
  | send =>
      unfold Connection.onSend
      simp only [down, if_true]
      exact ⟨trivial, closed⟩
  | callbacks => exact ⟨rfl, closed⟩
  | connect _ connecting => simp [settled] at connecting
  | @read nread =>
      have still : s.onRead nread = s := if_pos down
      rw [still]
      exact ⟨rfl, closed⟩
  | @write status wr _ rest =>
      have still : { s with outstanding := rest : Connection }.onWrite status wr =
          { s with outstanding := rest } := if_pos down
      rw [still]
      exact ⟨rfl, closed⟩
  | closed _ closing => simp [closed] at closing
  | returned => exact ⟨rfl, closed⟩
  | @failed _ rest =>
      have still : { s with stack := rest : Connection }.onStop = { s with stack := rest } :=
        if_pos down
      rw [still]
      exact ⟨rfl, closed⟩
  | written _ writing => simp [returned] at writing

/-- The only close is at the end. -/
private theorem last_close {log before after : List Callback} (absent : .close ∉ log)
    (same : log ++ [.close] = before ++ .close :: after) : after = [] := by
  rcases List.eq_nil_or_concat' after with rfl | ⟨shorter, last, rfl⟩
  · rfl
  · rw [← List.cons_append, ← List.append_assoc] at same
    obtain ⟨front, _⟩ := List.append_inj' same rfl
    rw [front] at absent
    exact absurd (List.mem_append_right _ List.mem_cons_self) absent

/-- A silent step ends each session at most once. -/
theorem Ending.step {action : Action} (ending : s.Ending) (orderly : s.Orderly)
    (waiting : s.Waiting) (once : s.StartsOnce action) (silent : s.Silent action)
    (taken : s.step action = some next) : next.Ending := by
  by_cases closed : s.handle.phase = .closed
  · obtain ⟨log, phase⟩ := orderly.closed_step once closed taken
    refine ⟨fun _ => phase, fun before after same => ?_⟩
    rw [log] at same
    exact ending.last before after same
  -- as long as the handle is not closed, `close_cb_` has not been called
  have absent : .close ∉ s.log := fun member => closed (ending.closed member)
  have muted : s.Mute next → next.Ending := fun mute =>
    ⟨fun member => absurd (mute member) absent, fun before after same =>
      absurd (mute (by rw [same]; exact List.mem_append_right _ List.mem_cons_self)) absent⟩
  have closing_of : s.handle.isClosing = true → s.handle.phase = .closing := fun now =>
    (Uv.Handle.isClosing_iff.mp now).resolve_right closed
  have steady : s.Idle → s.connected = true → s.handle.isClosing = true → s.closeCb = false :=
    fun idle up now => by
      have member := waiting up (closing_of now)
      rw [idle.1] at member
      cases member
  obtain ⟨usable, transition⟩ := step_transition taken
  have init_open : s.handle.phase = .fresh → s.handle.init.isClosing ≠ true := fun fresh now => by
    have opened := Uv.Handle.init_opened usable (by simp [fresh])
    simp [Uv.Handle.isClosing_iff, opened] at now
  cases transition with
  | ignored => exact muted id
  | reused => exact muted id
  | started => exact muted id
  | startFailed down =>
      have fresh : s.handle.phase = .fresh := once.resolve_left (by simp [down])
      exact muted (mute_onConnect (s := { s with
        connected := true
        finished := false
        handle := s.handle.init }) _ fun now => absurd now (init_open fresh))
  | accepted fresh =>
      exact muted (mute_onConnect (s := { s with handle := s.handle.init }) _
        fun now => absurd now (init_open fresh))
  | stop => exact muted (mute_onStop fun up now => silent up (closing_of now))
  | send => exact muted (mute_onSend _)
  | callbacks => exact muted id
  | connect =>
      exact muted (mute_onConnect (s := { s with connecting := false }) _
        fun now unset => silent (closing_of now) unset)
  | read idle => exact muted (mute_onRead _ (steady idle))
  | @write _ _ _ rest idle =>
      exact muted (mute_onWrite (s := { s with outstanding := rest }) _ _ (steady idle))
  | closed idle closing settled free =>
      refine ⟨fun _ => Uv.Handle.deliver_closing closing, fun before after same => ?_⟩
      cases set : s.closeCb with
      | true =>
          simp only [onClose, call, set, if_true] at same
          exact last_close absent same
      | false =>
          simp only [onClose, call, set, Bool.false_eq_true, if_false] at same
          rw [same] at absent
          exact absurd (List.mem_append_right _ List.mem_cons_self) absent
  | returned => exact muted id
  | @failed _ rest stack =>
      exact muted (mute_onStop (s := { s with stack := rest }) fun up now =>
        silent (by simp [stack]) up (closing_of now))
  | written _ writing =>
      refine muted (mute_written (s := { s with writing := none }) _ _ fun up now => ?_)
      have returned := (orderly.cancelled up (closing_of now)).1
      simp [writing] at returned

/-- Before the first session none has ended. -/
theorem Initial.ending (initial : s.Initial) : s.Ending where
  closed member := by simp [initial.log] at member
  last before after same := by simp [initial.log] at same

/-- `close_cb_` is the last callback of a connection that is started once, as long as
`on_stop` does not find the handle closing while it is set. -/
theorem closes_once {start : Connection} {actions : List Action} (initial : start.Initial)
    (runs : connectionMachine.Runs start actions s)
    (once : connectionMachine.Along StartsOnce start actions)
    (silent : connectionMachine.Along Silent start actions) : s.ClosesOnce := by
  have holds : (s.Orderly ∧ s.Waiting) ∧ s.Ending := by
    refine runs.guarded (fun s => (s.Orderly ∧ s.Waiting) ∧ s.Ending) ?_
      ⟨⟨initial.orderly, initial.waiting⟩, initial.ending⟩ (once.and silent)
    intro before action after inv meets taken
    exact ⟨inv.1.1.step inv.1.2 meets.1 taken, inv.2.step inv.1.1 inv.1.2 meets.1 meets.2 taken⟩
  exact holds.2.last

/-- A connection that is stopped when its connect has come back. -/
theorem closes_once_stopped :
    ∃ s, connectionMachine.Runs fresh
        [.callbacks true true true true, .start none, .connect 0, .ret 0, .stop, .closed] s ∧
      s.log = [.connect 0, .close] ∧ s.ClosesOnce := by
  have executed : (connectionMachine.run fresh [.callbacks true true true true, .start none,
      .connect 0, .ret 0, .stop, .closed]).map log = some [.connect 0, .close] := by
    decide +kernel
  obtain ⟨s, runs, log⟩ := Machine.Runs.of_map executed
  exact ⟨s, runs, log, closes_once fresh_initial runs (by decide +kernel) (by decide +kernel)⟩

/-- Stopped while its connect is pending, a connection is closed twice. -/
theorem closes_twice :
    ¬ ∀ (start s : Connection) (actions : List Action), start.Initial →
      connectionMachine.Runs start actions s →
      connectionMachine.Along StartsOnce start actions → s.ClosesOnce := by
  intro always
  have executed : (connectionMachine.run fresh [.callbacks true true true true, .start none,
      .stop, .connect (-125), .ret 0, .ret 0, .closed]).map log =
        some [.connect (-125), .close, .close] := by
    decide +kernel
  obtain ⟨s, runs, log⟩ := Machine.Runs.of_map executed
  have last := always fresh s _ fresh_initial runs (by decide +kernel)
  cases last [.connect (-125)] [.close] log

end Connection

end Sdpf.Tcp
