import Sdpf.Tcp.Connection
import Sdpf.Tcp.Server
import Sdpf.Loop.Watcher

/-!
# Handles that are started again

The flags of `TcpConnection`, `TcpServer`, `IOTimer` and `IOSignal` are cleared when
`uv_close` is called, and a start looks at nothing else. It finds the handle closing unless
the close callback has come before it.
-/

namespace Sdpf.Tcp.Connection

variable {s next : Connection}

/-- A start that takes effect finds that all its close callbacks have come. -/
def Settled (s : Connection) : Action → Prop
  | .start _ => s.connected = true ∨ s.handle.requested = s.handle.delivered
  | _ => True

/-- `on_stop` does not initialise the handle. -/
theorem onStop_sound (sound : s.handle.phase ≠ .reused) : s.onStop.handle.phase ≠ .reused := by
  unfold onStop
  split_ifs
  · exact sound
  · exact sound
  · exact Uv.Handle.close_sound sound

/-- Nor does `on_send`. -/
theorem onSend_sound (sound : s.handle.phase ≠ .reused) (wr : Int) :
    (s.onSend wr).handle.phase ≠ .reused := by
  unfold onSend
  simp only
  split_ifs <;> exact sound

/-- Nor does the callback of the connect. -/
theorem onConnect_sound (sound : s.handle.phase ≠ .reused) (status : Int) :
    (s.onConnect status).handle.phase ≠ .reused := by
  unfold onConnect
  simp only
  split_ifs
  · exact sound
  · exact onStop_sound (s := { s with connected := true }) sound
  · exact sound

/-- Nor does a read. -/
theorem onRead_sound (sound : s.handle.phase ≠ .reused) (nread : Int) :
    (s.onRead nread).handle.phase ≠ .reused := by
  unfold onRead
  split_ifs
  · exact sound
  · exact sound
  · exact onStop_sound sound

/-- Nor does a write that is reported. -/
theorem written_sound (sound : s.handle.phase ≠ .reused) (status wr : Int) :
    (s.written status wr).handle.phase ≠ .reused := by
  unfold written
  simp only
  split_ifs
  · exact sound
  · exact sound
  · exact onStop_sound sound

/-- Nor does what the callback of a write does. -/
theorem onWrite_sound (sound : s.handle.phase ≠ .reused) (status wr : Int) :
    (s.onWrite status wr).handle.phase ≠ .reused := by
  unfold onWrite
  split_ifs
  · exact sound
  · exact sound
  · exact written_sound sound status wr

/-- A step is taken on a handle in use, and keeps it so exactly when it is settled. -/
theorem step_sound {action : Action} (taken : s.step action = some next) :
    s.handle.phase ≠ .reused ∧ (next.handle.phase ≠ .reused ↔ s.Settled action) := by
  obtain ⟨sound, transition⟩ := step_transition taken
  refine ⟨sound, ?_⟩
  have init_sound : s.handle.phase ≠ .closing → s.handle.init.phase ≠ .reused := fun clear => by
    rw [Uv.Handle.init_opened sound clear]
    decide
  have settled_of : s.handle.phase ≠ .closing → s.handle.requested = s.handle.delivered :=
    fun clear => (Uv.Handle.init_sound_iff sound).mp (init_sound clear)
  cases transition with
  | ignored up => exact iff_of_true sound (.inl up)
  | reused down closing =>
      have due := (Uv.Handle.closing_iff sound).mp closing
      refine iff_of_false (not_not.mpr (Uv.Handle.init_reused closing)) ?_
      rintro (up | settled)
      · simp [down] at up
      · exact due settled
  | started _ clear => exact iff_of_true (init_sound clear) (.inr (settled_of clear))
  | startFailed _ clear =>
      exact iff_of_true (onConnect_sound (init_sound clear) _) (.inr (settled_of clear))
  | accepted fresh =>
      have clear : s.handle.phase ≠ .closing := by simp [fresh]
      exact iff_of_true
        (onConnect_sound (s := { s with handle := s.handle.init }) (init_sound clear) _) trivial
  | stop => exact iff_of_true (onStop_sound sound) trivial
  | send => exact iff_of_true (onSend_sound sound _) trivial
  | callbacks => exact iff_of_true sound trivial
  | connect =>
      exact iff_of_true
        (onConnect_sound (s := { s with connecting := false }) sound _) trivial
  | read => exact iff_of_true (onRead_sound sound _) trivial
  | @write _ _ _ rest =>
      exact iff_of_true (onWrite_sound (s := { s with outstanding := rest }) sound _ _) trivial
  | closed => exact iff_of_true (Uv.Handle.deliver_sound sound) trivial
  | returned => exact iff_of_true sound trivial
  | @failed _ rest =>
      exact iff_of_true (onStop_sound (s := { s with stack := rest }) sound) trivial
  | written =>
      exact iff_of_true (written_sound (s := { s with writing := none }) sound _ _) trivial

/-- A connection never has its handle initialised while closing exactly when every start that
takes effect finds it settled. -/
theorem kept_iff {start : Connection} {actions : List Action} (initial : start.Initial)
    (runs : connectionMachine.Runs start actions s) :
    s.handle.phase ≠ .reused ↔ connectionMachine.Along Settled start actions := by
  have clear : start.handle.phase ≠ .reused := by simp [initial.handle, Uv.Handle.fresh]
  exact runs.clear_iff (fun s => s.handle.phase = .reused) (fun taken => (step_sound taken).1)
    (fun taken => (step_sound taken).2) clear

end Sdpf.Tcp.Connection

namespace Sdpf.Loop

open Sdpf.Semantics Sdpf.Tcp

/-- The classes that own a handle. -/
inductive Owner where
  | tcpConnection
  | tcpServer
  | ioTimer
  | ioSignal
deriving DecidableEq, Repr

namespace Owner

def State : Owner → Type
  | tcpConnection => Connection
  | tcpServer => Server
  | ioTimer => IOTimer
  | ioSignal => IOSignal

def Act : Owner → Type
  | tcpConnection => Tcp.Action
  | tcpServer => ServerAction
  | ioTimer => Action TimerSetting Unit
  | ioSignal => Action Int Int

def machine : (owner : Owner) → Machine owner.State owner.Act
  | tcpConnection => connectionMachine
  | tcpServer => serverMachine
  | ioTimer => timerMachine
  | ioSignal => signalMachine

/-- The handle has not been initialised while closing, and each stop of a timer or a signal is
answered by its own callback. -/
def Kept : (owner : Owner) → owner.State → Prop
  | tcpConnection, (s : Connection) => s.handle.phase ≠ .reused
  | tcpServer, (s : Server) => s.handle.phase ≠ .reused
  | ioTimer, (s : IOTimer) => s.handle.phase ≠ .reused ∧ s.Answered
  | ioSignal, (s : IOSignal) => s.handle.phase ≠ .reused ∧ s.Answered

/-- A start that takes effect finds that all its close callbacks have come. -/
def Settled : (owner : Owner) → owner.State → owner.Act → Prop
  | tcpConnection => Connection.Settled
  | tcpServer => Server.Settled
  | ioTimer => Watcher.Settled
  | ioSignal => Watcher.Settled

end Owner

/-- The handles of all four classes are kept exactly when every start that takes effect finds
that its close callbacks have come. -/
theorem handles_kept {owner : Owner} {start s : owner.State} {actions : List owner.Act}
    (initial : owner.machine.Initial start) (runs : owner.machine.Runs start actions s) :
    owner.Kept s ↔ owner.machine.Along owner.Settled start actions := by
  cases owner with
  | tcpConnection => exact Connection.kept_iff initial runs
  | tcpServer => exact Server.kept_iff initial runs
  | ioTimer => exact Watcher.kept_iff initial runs
  | ioSignal => exact Watcher.kept_iff initial runs

/-- A timer that is started again behind its close callback. -/
theorem handles_kept_twice :
    ∃ s : IOTimer, timerMachine.Runs .fresh
        [.start true ⟨10, 0⟩ 0, .stop true, .closed, .ret, .start true ⟨10, 0⟩ 0, .stop true,
          .closed] s ∧ s.called = [0, 1] ∧ Owner.ioTimer.Kept s := by
  have executed : (timerMachine.run .fresh [.start true ⟨10, 0⟩ 0, .stop true, .closed, .ret,
      .start true ⟨10, 0⟩ 0, .stop true, .closed]).map Watcher.called = some [0, 1] := by
    decide +kernel
  have settled : timerMachine.Along Watcher.Settled .fresh [.start true ⟨10, 0⟩ 0, .stop true,
      .closed, .ret, .start true ⟨10, 0⟩ 0, .stop true, .closed] := by
    decide +kernel
  obtain ⟨s, runs, called⟩ := Machine.Runs.of_map executed
  exact ⟨s, runs, called, (@handles_kept .ioTimer _ _ _ rfl runs).mpr settled⟩

/-- In each class a start may come before the close callback. -/
theorem handles_reused :
    ¬ ∃ owner : Owner, ∀ (start s : owner.State) (actions : List owner.Act),
      owner.machine.Initial start → owner.machine.Runs start actions s → owner.Kept s := by
  rintro ⟨owner, always⟩
  cases owner with
  | tcpConnection =>
      have executed : (connectionMachine.run .fresh [.start none, .stop, .start none]).map
          (fun s => s.handle.phase) = some .reused := by
        decide +kernel
      obtain ⟨s, runs, reused⟩ := Machine.Runs.of_map executed
      exact always Connection.fresh s _ Connection.fresh_initial runs reused
  | tcpServer =>
      have executed : (serverMachine.run .fresh [.start 0, .stop, .start 0]).map
          (fun s => s.handle.phase) = some .reused := by
        decide +kernel
      obtain ⟨s, runs, reused⟩ := Machine.Runs.of_map executed
      exact always Server.fresh s _ Server.fresh_initial runs reused
  | ioTimer =>
      have executed : (timerMachine.run .fresh
          [.start true ⟨10, 0⟩ 0, .stop true, .start true ⟨10, 0⟩ 0]).map
          (fun s => s.handle.phase) = some .reused := by
        decide +kernel
      obtain ⟨s, runs, reused⟩ := Machine.Runs.of_map executed
      exact (always Watcher.fresh s _ rfl runs).1 reused
  | ioSignal =>
      have executed : (signalMachine.run .fresh
          [.start true 2 0, .stop true, .start true 2 0]).map
          (fun s => s.handle.phase) = some .reused := by
        decide +kernel
      obtain ⟨s, runs, reused⟩ := Machine.Runs.of_map executed
      exact (always Watcher.fresh s _ rfl runs).1 reused

end Sdpf.Loop
