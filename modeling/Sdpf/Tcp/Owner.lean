import Sdpf.Tcp.Connection

/-!
# The owner of a handle

The read, alloc and close callbacks of a handle find their connection in `handle_.data`.
`on_connect` sets it when a connection is established, and nobody else does; `uv_tcp_init`
leaves it alone. The connection of `OwnedConnection` is the one of `Connection`, and a
callback that does not find it loses it.

Libuv completes a connect before the writes queued behind it.
-/

namespace Sdpf.Tcp

open Sdpf.Semantics

/-- A connection and the data of its handle. -/
structure OwnedConnection where
  conn : Connection
  /-- `handle_.data` has been set. -/
  data : Bool
  /-- A callback of the handle has run while it was not set. -/
  lost : Bool

/-- The connection is established. -/
def Action.establishes : Action → Bool
  | .accept status | .connect status => status = 0
  | _ => false

/-- Libuv looks for the connection in the handle. The alloc callback comes with the read. -/
def Action.looks : Action → Bool
  | .read _ | .closed => true
  | _ => false

namespace OwnedConnection

/-- Take a step, if it is enabled. -/
def step (s : OwnedConnection) (action : Action) : Option OwnedConnection :=
  match action with
  | .write status wr =>
      if s.conn.connecting then none
      else (s.conn.step (.write status wr)).map fun conn => { s with conn := conn }
  | action =>
      (s.conn.step action).map fun conn =>
        { conn := conn
          data := s.data || action.establishes
          lost := s.lost || (action.looks && !s.data) }

/-- A connection that has just been constructed. -/
structure Initial (s : OwnedConnection) : Prop where
  conn : s.conn.Initial
  data : s.data = false
  lost : s.lost = false

/-- Unless the connection has been established once, no start, accept or connect fails, and a
connection that is up is not stopped. -/
def Establishing (s : OwnedConnection) : Action → Prop
  | .start outcome => s.data = true ∨ s.conn.connected = true ∨ outcome = none
  | .accept status | .connect status => s.data = true ∨ status = 0
  | .stop => s.data = true ∨ s.conn.connected = false
  | _ => True

instance (s : OwnedConnection) : (action : Action) → Decidable (s.Establishing action)
  | .start outcome =>
      inferInstanceAs (Decidable (s.data = true ∨ s.conn.connected = true ∨ outcome = none))
  | .accept status | .connect status => inferInstanceAs (Decidable (s.data = true ∨ status = 0))
  | .stop => inferInstanceAs (Decidable (s.data = true ∨ s.conn.connected = false))
  | .send _ | .callbacks .. | .read _ | .write .. | .closed | .ret _ =>
      inferInstanceAs (Decidable True)

end OwnedConnection

/-- The machine of all connections and their handles. -/
def ownedMachine : Machine OwnedConnection Action where
  Initial := OwnedConnection.Initial
  step := OwnedConnection.step

namespace Connection

variable {s : Connection}

/-- A connection that has not been established, and not failed to be: it waits for its connect
or has not been started. -/
structure Pending (s : Connection) : Prop where
  connecting : s.connected = true → s.connecting = true
  handle : s.handle.phase ≠ .closing
  reading : s.reading = false
  stack : .failed ∉ s.stack
  writing : s.writing = none

/-- Before the start no callback is due. -/
theorem Pending.of_initial (initial : s.Initial) : s.Pending where
  connecting up := by simp [initial.connected] at up
  handle := by simp [initial.handle, Uv.Handle.fresh]
  reading := initial.reading
  stack := by simp [initial.stack]
  writing := initial.writing

/-- `on_send` makes the callback of a write due, if it writes. -/
theorem Pending.onSend (pending : s.Pending) (wr : Int) : (s.onSend wr).Pending := by
  obtain ⟨connecting, handle, reading, stack, writing⟩ := pending
  unfold Connection.onSend
  simp only
  split_ifs
  · exact ⟨connecting, handle, reading, stack, writing⟩
  · refine ⟨connecting, handle, reading, ?_, writing⟩
    simp only [call]
    split_ifs
    · simpa using stack
    · exact stack
  · exact ⟨connecting, handle, reading, stack, writing⟩
  · exact ⟨connecting, handle, reading, stack, writing⟩

/-- While the connection waits, no step makes libuv look for it. -/
theorem Pending.unread {action : Action} {next : Connection} (pending : s.Pending)
    (taken : s.step action = some next) : action.looks = false := by
  obtain ⟨-, transition⟩ := step_transition taken
  cases transition with
  | read idle reading =>
      rw [pending.reading] at reading
      cases reading
  | closed idle closing => exact absurd closing pending.handle
  | _ => rfl

end Connection

namespace OwnedConnection

variable {s next : OwnedConnection}

/-- No callback has missed its connection, and none will as long as it is pending. -/
structure Owned (s : OwnedConnection) : Prop where
  kept : s.lost = false
  pending : s.data = false → s.conn.Pending

/-- A step that neither establishes a pending connection nor fails nor stops it leaves it
pending. -/
theorem pending_step {action : Action} {conn : Connection} (pending : s.conn.Pending)
    (data : s.data = false) (establishing : s.Establishing action)
    (unfinished : ∀ status wr, action = .write status wr → s.conn.connecting = false)
    (taken : s.conn.step action = some conn) : action.establishes = true ∨ conn.Pending := by
  obtain ⟨sound, transition⟩ := Connection.step_transition taken
  cases transition with
  | ignored up => exact .inr pending
  | reused down closing => exact absurd closing pending.handle
  | started down settled =>
      refine .inr ⟨fun _ => rfl, ?_, pending.reading, pending.stack, pending.writing⟩
      simp [Uv.Handle.init_opened sound settled]
  | startFailed down settled error => simp [Establishing, data, down] at establishing
  | accepted fresh idle =>
      exact .inl (by simpa [Establishing, data, Action.establishes] using establishing)
  | stop =>
      have down : s.conn.connected = false := by simpa [Establishing, data] using establishing
      refine .inr ?_
      unfold Connection.onStop
      rwa [if_pos down]
  | send => exact .inr (pending.onSend _)
  | callbacks =>
      exact .inr ⟨pending.connecting, pending.handle, pending.reading, pending.stack,
        pending.writing⟩
  | connect idle connecting =>
      exact .inl (by simpa [Establishing, data, Action.establishes] using establishing)
  | read idle reading =>
      rw [pending.reading] at reading
      cases reading
  | @write status wr buf rest idle outstanding =>
      have down : s.conn.connected = false := by
        by_contra up
        have waits := pending.connecting (by simpa using up)
        rw [unfinished status wr rfl] at waits
        cases waits
      refine .inr ?_
      unfold Connection.onWrite
      rw [if_pos down]
      exact ⟨pending.connecting, pending.handle, pending.reading, pending.stack, pending.writing⟩
  | closed idle closing => exact absurd closing pending.handle
  | returned stack other =>
      refine .inr ⟨pending.connecting, pending.handle, pending.reading, ?_, pending.writing⟩
      exact fun member => pending.stack (stack ▸ List.mem_cons_of_mem _ member)
  | failed stack => exact absurd (stack ▸ List.mem_cons_self) pending.stack
  | written stack writing =>
      rw [pending.writing] at writing
      cases writing

/-- A step that establishes the connection sets the owner first. -/
theorem Owned.step {action : Action} (owned : s.Owned) (establishing : s.Establishing action)
    (taken : s.step action = some next) : next.Owned := by
  have one : ∃ conn, s.conn.step action = some conn ∧
      (∀ status wr, action = .write status wr → s.conn.connecting = false) ∧
      next = ⟨conn, s.data || action.establishes, s.lost || (action.looks && !s.data)⟩ := by
    unfold OwnedConnection.step at taken
    split at taken
    · next status wr =>
        split_ifs at taken with waits
        obtain ⟨conn, stepped, rfl⟩ := Option.map_eq_some_iff.mp taken
        exact ⟨conn, stepped, fun _ _ _ => by simpa using waits,
          by simp [Action.establishes, Action.looks]⟩
    · next other =>
        obtain ⟨conn, stepped, rfl⟩ := Option.map_eq_some_iff.mp taken
        exact ⟨conn, stepped, fun status wr is => absurd is (other status wr), rfl⟩
  obtain ⟨conn, stepped, unfinished, rfl⟩ := one
  cases data : s.data with
  | true => exact ⟨by simp [owned.kept], by simp⟩
  | false =>
      have pending := owned.pending data
      refine ⟨by simp [owned.kept, pending.unread stepped], fun unset => ?_⟩
      have unestablished : action.establishes = false := by simpa using unset
      rcases pending_step pending data establishing unfinished stepped with now | later
      · exact absurd (unestablished.symm.trans now) (by simp)
      · exact later

/-- Before the start nobody is called. -/
theorem Initial.owned (initial : s.Initial) : s.Owned :=
  ⟨initial.lost, fun _ => .of_initial initial.conn⟩

/-- Every read, alloc and close callback finds its connection, where the connection is
established before anything fails or it is stopped. -/
theorem callbacks_owned {start finish : OwnedConnection} {actions : List Action}
    (initial : start.Initial) (runs : ownedMachine.Runs start actions finish)
    (establishing : ownedMachine.Along Establishing start actions) : finish.lost = false :=
  (runs.guarded Owned (fun owned here taken => owned.step here taken) initial.owned
    establishing).kept

/-- A connection that has just been constructed, without callbacks. -/
def fresh : OwnedConnection := ⟨.fresh, false, false⟩

/-- A new connection is an initial one. -/
theorem fresh_initial : fresh.Initial := ⟨Connection.fresh_initial, rfl, rfl⟩

/-- A connection that is established, read from, stopped and closed. -/
theorem callbacks_owned_established :
    ∃ finish, ownedMachine.Runs fresh [.start none, .connect 0, .read 5, .stop, .closed] finish ∧
      finish.conn.handle.phase = .closed ∧ finish.lost = false := by
  obtain ⟨finish, runs, seen⟩ := @Machine.Runs.of_map _ _ ownedMachine _
    (fun s => s.conn.handle.phase) fresh [.start none, .connect 0, .read 5, .stop, .closed] .closed
    (by decide +kernel)
  exact ⟨finish, runs, seen, callbacks_owned fresh_initial runs (by decide +kernel)⟩

/-- The connect of a new connection fails, and the close callback finds no connection. -/
theorem callbacks_lost :
    ¬ ∀ (start finish : OwnedConnection) (actions : List Action), start.Initial →
      ownedMachine.Runs start actions finish → finish.lost = false := by
  intro owned
  obtain ⟨finish, runs, seen⟩ := @Machine.Runs.of_map _ _ ownedMachine _ OwnedConnection.lost
    fresh [.start none, .connect (-111), .closed] true (by decide +kernel)
  rw [owned fresh finish _ fresh_initial runs] at seen
  cases seen

end OwnedConnection

end Sdpf.Tcp
