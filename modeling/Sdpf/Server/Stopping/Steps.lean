import Sdpf.Uv.Handle
import Sdpf.Semantics.Machine

/-!
# A server that accepts and stops

`RpcServer::stop` runs on a thread of the user. It stops every channel it finds connected,
and then asks the loop thread to stop the listener. Until the loop thread gets there the
listener goes on accepting. An accept takes three steps: `on_alloc` puts a channel into
`channels_`, `accept_connect` makes its connection connected, and `on_accept` installs the
callbacks of the channel, or removes it when the accept failed.
-/

namespace Sdpf.Server

open Sdpf.Semantics

/-- How far `RpcServer::stop` has got. -/
inductive StopPc where
  | running
  /-- `close_all` has run. -/
  | swept
  | returned
deriving DecidableEq, Repr

/-- How far the loop thread has got with an accept. -/
inductive Accepting where
  | idle
  | allocated (c : Nat)
  /-- `accept_connect` has returned, for a successful accept or a failed one. -/
  | connected (c : Nat) (ok : Bool)
deriving DecidableEq, Repr

/-- What other threads ask the loop thread to do. -/
inductive StopTask where
  | channel (c : Nat)
  | listener
deriving DecidableEq, Repr

/-- The connection of a channel. -/
structure ChannelConnection where
  connected : Bool
  handle : Uv.Handle
  /-- The close callback leads to `on_channel_close`. -/
  installed : Bool

/-- A server that listens, or did. Channels are numbered as they are made. -/
structure ListeningServer where
  user : StopPc
  started : Bool
  listener : Uv.Handle
  accepting : Accepting
  /-- `channels_`. -/
  channels : List Nat
  count : Nat
  conn : Nat → ChannelConnection
  tasks : List StopTask
  /-- `close_cb_` of the server has been called. -/
  closed : Bool

/-- A step of the user thread or of the loop thread. -/
inductive StopAction where
  /-- `close_all`. -/
  | sweep
  /-- `stop` of the listener. -/
  | post
  /-- `stop` of a channel by any other thread. -/
  | stopChannel (c : Nat)
  | alloc
  | accept (ok : Bool)
  | install
  /-- The loop thread finds an error on a connection, and stops it. -/
  | hangup (c : Nat)
  | task
  | closed (c : Nat)
  | listenerClosed
deriving DecidableEq, Repr

namespace ListeningServer

def put (s : ListeningServer) (c : Nat) (conn : ChannelConnection) : ListeningServer :=
  { s with conn := Function.update s.conn c conn }

/-- `on_close` of a connection. -/
def onClose (s : ListeningServer) (c : Nat) : ListeningServer :=
  if (s.conn c).installed then { s with channels := s.channels.erase c } else s

/-- `on_stop` of a connection. -/
def onStop (s : ListeningServer) (c : Nat) : ListeningServer :=
  let conn := s.conn c
  if conn.connected = false then
    s
  else if conn.handle.isClosing then
    (s.put c { conn with connected := false }).onClose c
  else
    s.put c { conn with connected := false, handle := conn.handle.close }

/-- `on_stop` of the listener. -/
def onStopListener (s : ListeningServer) : ListeningServer :=
  if s.started = false then
    s
  else if s.listener.isClosing then
    { s with started := false, closed := true }
  else
    { s with started := false, listener := s.listener.close }

/-- `close_all`, which asks for the stop of the channels that are connected. -/
def sweep (s : ListeningServer) : ListeningServer :=
  { s with
    user := .swept
    tasks := s.tasks ++
      (s.channels.filter fun c => (s.conn c).connected).map .channel }

/-- `uv_tcp_init`, `uv_accept` and `accept_connect`, which stops a connection that failed. -/
def accept (s : ListeningServer) (c : Nat) (ok : Bool) : ListeningServer :=
  let up := { s.put c { s.conn c with connected := true, handle := (s.conn c).handle.init } with
    accepting := .connected c ok }
  if ok then up else up.onStop c

/-- Take a step, if it is enabled. The loop thread finishes an accept before it does anything
else. -/
def step (s : ListeningServer) : StopAction → Option ListeningServer
  | .sweep => if s.user = .running then some s.sweep else none
  | .post =>
      if s.user = .swept then
        some { s with
          user := .returned
          tasks := if s.started then s.tasks ++ [.listener] else s.tasks }
      else none
  | .stopChannel c =>
      some (if (s.conn c).connected then { s with tasks := s.tasks ++ [.channel c] } else s)
  | .alloc =>
      if s.accepting = .idle ∧ s.listener.phase = .opened then
        some { s with
          accepting := .allocated s.count
          channels := s.count :: s.channels
          count := s.count + 1 }
      else none
  | .accept ok =>
      match s.accepting with
      | .allocated c => some (s.accept c ok)
      | .idle | .connected .. => none
  | .install =>
      match s.accepting with
      | .connected c true =>
          some { s.put c { s.conn c with installed := true } with accepting := .idle }
      | .connected c false => some { s with channels := s.channels.erase c, accepting := .idle }
      | .idle | .allocated _ => none
  | .hangup c =>
      if s.accepting = .idle then some (s.onStop c) else none
  | .task =>
      if s.accepting = .idle then
        match s.tasks with
        | [] => none
        | .channel c :: rest => some ({ s with tasks := rest }.onStop c)
        | .listener :: rest => some { s with tasks := rest }.onStopListener
      else none
  | .closed c =>
      if s.accepting = .idle ∧ (s.conn c).handle.phase = .closing then
        some ((s.put c { s.conn c with handle := (s.conn c).handle.deliver }).onClose c)
      else none
  | .listenerClosed =>
      if s.accepting = .idle ∧ s.listener.phase = .closing then
        some { s with listener := s.listener.deliver, closed := true }
      else none

/-- A server that has started to listen, before its first channel. -/
structure Initial (s : ListeningServer) : Prop where
  user : s.user = .running
  started : s.started = true
  listener : s.listener.phase = .opened
  accepting : s.accepting = .idle
  channels : s.channels = []
  count : s.count = 0
  conn : ∀ c, s.conn c = ⟨false, .fresh, false⟩
  tasks : s.tasks = []
  closed : s.closed = false

/-- The close callback of the server has run, and the loop thread has executed every posted
task and every close callback. -/
structure Stopped (s : ListeningServer) : Prop where
  closed : s.closed = true
  tasks : s.tasks = []
  settled : ∀ c, (s.conn c).handle.phase ≠ .closing

/-- No accept succeeds once `close_all` has run. -/
def Unswept (s : ListeningServer) : StopAction → Prop
  | .accept ok => ok = true → s.user = .running
  | _ => True

instance (s : ListeningServer) : (action : StopAction) → Decidable (s.Unswept action)
  | .accept ok => inferInstanceAs (Decidable (ok = true → s.user = .running))
  | .sweep | .post | .stopChannel _ | .alloc | .install | .hangup _ | .task | .closed _
  | .listenerClosed => inferInstanceAs (Decidable True)

end ListeningServer

/-- The machine of all servers that are stopped. -/
def stoppingMachine : Machine ListeningServer StopAction where
  Initial := ListeningServer.Initial
  step := ListeningServer.step

/-- The channel an accept is about. -/
def Accepting.about : Accepting → Option Nat
  | .idle => none
  | .allocated c | .connected c _ => some c

namespace ListeningServer

variable {s next : ListeningServer}

section Put

variable (s : ListeningServer) (c other : Nat) (conn : ChannelConnection)

/-- One connection is changed. -/
@[simp] theorem put_conn :
    (s.put c conn).conn other = if other = c then conn else s.conn other :=
  Function.update_apply ..

@[simp] theorem put_channels : (s.put c conn).channels = s.channels := rfl

@[simp] theorem put_accepting : (s.put c conn).accepting = s.accepting := rfl

@[simp] theorem put_user : (s.put c conn).user = s.user := rfl

@[simp] theorem put_count : (s.put c conn).count = s.count := rfl

@[simp] theorem put_tasks : (s.put c conn).tasks = s.tasks := rfl

end Put

/-- Every step, by what it does. -/
inductive Transition (s : ListeningServer) : StopAction → ListeningServer → Prop where
  | sweep (running : s.user = .running) : Transition s .sweep s.sweep
  | post (swept : s.user = .swept) :
      Transition s .post
        { s with
          user := .returned
          tasks := if s.started then s.tasks ++ [.listener] else s.tasks }
  | asked {c} (up : (s.conn c).connected = true) :
      Transition s (.stopChannel c) { s with tasks := s.tasks ++ [.channel c] }
  | refused {c} (down : (s.conn c).connected = false) : Transition s (.stopChannel c) s
  | alloc (idle : s.accepting = .idle) (listening : s.listener.phase = .opened) :
      Transition s .alloc
        { s with
          accepting := .allocated s.count
          channels := s.count :: s.channels
          count := s.count + 1 }
  | accept {c ok} (allocated : s.accepting = .allocated c) :
      Transition s (.accept ok) (s.accept c ok)
  | install {c} (accepted : s.accepting = .connected c true) :
      Transition s .install
        { s.put c { s.conn c with installed := true } with accepting := .idle }
  | drop {c} (failed : s.accepting = .connected c false) :
      Transition s .install { s with channels := s.channels.erase c, accepting := .idle }
  | hangup {c} (idle : s.accepting = .idle) : Transition s (.hangup c) (s.onStop c)
  | stop {c rest} (idle : s.accepting = .idle) (tasks : s.tasks = .channel c :: rest) :
      Transition s .task ({ s with tasks := rest }.onStop c)
  | stopListener {rest} (idle : s.accepting = .idle) (tasks : s.tasks = .listener :: rest) :
      Transition s .task { s with tasks := rest }.onStopListener
  | closed {c} (idle : s.accepting = .idle) (closing : (s.conn c).handle.phase = .closing) :
      Transition s (.closed c)
        ((s.put c { s.conn c with handle := (s.conn c).handle.deliver }).onClose c)
  | listenerClosed (idle : s.accepting = .idle) (closing : s.listener.phase = .closing) :
      Transition s .listenerClosed { s with listener := s.listener.deliver, closed := true }

/-- A step that is taken is one of these. -/
theorem step_transition {action : StopAction} (taken : s.step action = some next) :
    Transition s action next := by
  cases action with
  | sweep =>
      simp only [step, Option.ite_none_right_eq_some, Option.some.injEq] at taken
      obtain ⟨running, rfl⟩ := taken
      exact .sweep running
  | post =>
      simp only [step, Option.ite_none_right_eq_some, Option.some.injEq] at taken
      obtain ⟨swept, rfl⟩ := taken
      exact .post swept
  | stopChannel c =>
      simp only [step, Option.some.injEq] at taken
      subst taken
      split_ifs with up
      · exact .asked up
      · exact .refused (by simpa using up)
  | alloc =>
      simp only [step, Option.ite_none_right_eq_some, Option.some.injEq] at taken
      obtain ⟨⟨idle, listening⟩, rfl⟩ := taken
      exact .alloc idle listening
  | accept ok =>
      simp only [step] at taken
      split at taken
      · next c allocated =>
          cases taken
          exact .accept allocated
      all_goals cases taken
  | install =>
      simp only [step] at taken
      split at taken
      · next c accepted =>
          cases taken
          exact .install accepted
      · next c failed =>
          cases taken
          exact .drop failed
      all_goals cases taken
  | hangup c =>
      simp only [step, Option.ite_none_right_eq_some, Option.some.injEq] at taken
      obtain ⟨idle, rfl⟩ := taken
      exact .hangup idle
  | task =>
      simp only [step, Option.ite_none_right_eq_some] at taken
      obtain ⟨idle, taken⟩ := taken
      split at taken
      · cases taken
      · next c rest tasks =>
          cases taken
          exact .stop idle tasks
      · next rest tasks =>
          cases taken
          exact .stopListener idle tasks
  | closed c =>
      simp only [step, Option.ite_none_right_eq_some, Option.some.injEq] at taken
      obtain ⟨⟨idle, closing⟩, rfl⟩ := taken
      exact .closed idle closing
  | listenerClosed =>
      simp only [step, Option.ite_none_right_eq_some, Option.some.injEq] at taken
      obtain ⟨⟨idle, closing⟩, rfl⟩ := taken
      exact .listenerClosed idle closing

end ListeningServer

end Sdpf.Server
