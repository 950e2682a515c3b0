import Sdpf.Tcp.Connection
import Sdpf.Data.Shared

/-!
# Connections, channels and what refers to them

`TcpConnection` and `RpcChannel` are owned by counted pointers: those of the user, `conn_`
of a channel and `channels_` of the server. Tasks posted to the loop, the requests and the
handle libuv works on and the callbacks of a connection refer to them by a bare `this`.
Connections and channels are known by the order in which they were made.
-/

namespace Sdpf.Tcp

namespace Connection

/-- Nothing has been done with the connection but setting callbacks. -/
structure Unstarted (s : Connection) : Prop where
  connected : s.connected = false
  handle : s.handle.phase = .fresh
  connecting : s.connecting = false
  reading : s.reading = false
  outstanding : s.outstanding = []
  writing : s.writing = none
  stack : s.stack = []

/-- Libuv works on the handle or on a request of the connection. -/
def InLoop (s : Connection) : Prop :=
  s.handle.phase = .opened ∨ s.handle.phase = .closing ∨ s.connecting = true ∨ s.outstanding ≠ []

/-- A new connection has not been started. -/
theorem Unstarted.of_fresh : fresh.Unstarted := by
  constructor <;> rfl

/-- The fields that tell do not include the callbacks. -/
theorem Unstarted.callbacks {s : Connection} (unstarted : s.Unstarted)
    (connCb recvCb sendCb closeCb : Bool) :
    { s with connCb := connCb, recvCb := recvCb, sendCb := sendCb, closeCb := closeCb }.Unstarted :=
  ⟨unstarted.connected, unstarted.handle, unstarted.connecting, unstarted.reading,
    unstarted.outstanding, unstarted.writing, unstarted.stack⟩

/-- Libuv knows nothing of a connection that has not been started. -/
theorem Unstarted.not_inLoop {s : Connection} (unstarted : s.Unstarted) : ¬ s.InLoop := by
  rintro (opened | closing | connecting | outstanding)
  · rw [unstarted.handle] at opened
    cases opened
  · rw [unstarted.handle] at closing
    cases closing
  · rw [unstarted.connecting] at connecting
    cases connecting
  · exact outstanding unstarted.outstanding

end Connection

/-- A call of libuv, or the return of a callback. -/
def Action.ofLoop : Action → Bool
  | .connect _ | .read _ | .write _ _ | .closed | .ret _ => true
  | _ => false

/-- Libuv has nothing to call a connection for that has not been started. -/
theorem Connection.Unstarted.unreached {s next : Connection} {action : Action}
    (unstarted : s.Unstarted) (taken : s.step action = some next) : action.ofLoop = false := by
  obtain ⟨-, transition⟩ := step_transition taken
  obtain ⟨-, fresh, still, unread, unwritten, idle, empty⟩ := unstarted
  cases transition with
  | connect _ connecting => simp [still] at connecting
  | read _ reading => simp [unread] at reading
  | write _ outstanding => simp [unwritten] at outstanding
  | closed _ closing => simp [fresh] at closing
  | returned stack => simp [empty] at stack
  | failed stack => simp [empty] at stack
  | written _ writing => simp [idle] at writing
  | _ => rfl

end Sdpf.Tcp

namespace Sdpf.Roles

open Sdpf.Data Sdpf.Semantics

/-- A connection or a channel. -/
inductive Ref where
  | connection (n : Nat)
  | channel (c : Nat)
deriving DecidableEq, Repr

/-- What is posted to the loop. -/
inductive Task where
  | start
  | stop
  | send
deriving DecidableEq, Repr

/-- The task that a step of a connection runs. -/
def Task.of : Tcp.Action → Option Task
  | .start _ => some .start
  | .stop => some .stop
  | .send _ => some .send
  | _ => none

/-- A `TcpConnection`. -/
structure TcpObject where
  conn : Tcp.Connection
  /-- `pif_` has been set. -/
  pif : Bool
  /-- The channel whose `on_connect` is `conn_cb_`. -/
  hooked : Option Nat
  /-- The channel whose functions are the other callbacks. -/
  bound : Option Nat
  /-- `data_`, which the server sets to a channel. -/
  data : Option Nat

/-- A `RpcChannel`. -/
structure RpcObject where
  /-- `conn_`. -/
  conn : Nat
  /-- `pif_` has been set. -/
  pif : Bool
  /-- `services_` is not null. -/
  services : Bool
  /-- `conn_cb_` and `close_cb_` are those of the server. -/
  served : Bool

/-- All objects, and what refers to them. -/
structure World where
  connections : Nat → TcpObject
  channels : Nat → RpcObject
  /-- How many have been made. -/
  connectionCount : Nat
  channelCount : Nat
  live : Finset Ref
  /-- How many pointers to an object the user has, or a function that is running. -/
  pointers : Ref → Nat
  /-- `channels_` of the server. -/
  accepted : Finset Nat
  /-- The tasks the loop has yet to run, with their `this`. -/
  posted : List (Nat × Task)
  /-- A destroyed object or a null pointer has been touched. -/
  fault : Bool

/-- What happens to the objects. -/
inductive Operation where
  | makeConnection
  | makeChannel
  | copy (r : Ref)
  | drop (r : Ref)
  /-- `RpcChannel::connection`. -/
  | connection (c : Nat)
  /-- The user keeps the pointer a callback is passed. -/
  | keep (r : Ref)
  | callbacks (n : Nat) (connCb recvCb sendCb closeCb : Bool)
  /-- `TcpConnection::start`; the arguments are in order and the loop takes the task. -/
  | startConnection (n : Nat) (taken : Bool)
  /-- `RpcChannel::start`; `addressed` is the outcome of its own test of the arguments. -/
  | startChannel (c : Nat) (addressed taken : Bool)
  /-- `stop`, of a connection or a channel. -/
  | stop (r : Ref) (taken : Bool)
  /-- `send` of a connection, or what a channel calls it for. -/
  | send (r : Ref) (taken : Bool)
  /-- The loop runs a task. -/
  | run (n : Nat) (action : Tcp.Action)
  /-- Libuv calls a connection, or a callback of it returns. -/
  | event (n : Nat) (action : Tcp.Action)
  /-- `on_accept` of a `TcpServer` of the user; `ret` is what `uv_accept` returned. -/
  | accept (n : Nat) (ret : Int)
  /-- `on_accept` of the `TcpServer` of a `RpcServer`. -/
  | serve (ret : Int)

end Sdpf.Roles
