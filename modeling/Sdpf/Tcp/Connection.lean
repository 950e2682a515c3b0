import Sdpf.Uv.Handle
import Sdpf.Semantics.Machine

/-!
# TcpConnection

Everything runs on the loop thread: what other threads ask for is posted there. A step is
one call of libuv into the connection, one call of the user, or the return of a user
callback; from one to the next the functions of `TcpConnectionImp` run without a break.
Inside a callback the user may call the connection again, so the callbacks that have not
returned form a stack. Libuv calls in only when none is left.
Its callbacks are taken to reach the connection they belong to, here; by what the code finds
it is the matter of `OwnedConnection`.

Buffers are numbered by the calls of `on_send`. The connection remembers what it did with
them, and which user callbacks it called.
-/

namespace Sdpf.Tcp

open Sdpf.Semantics

/-- A user callback that has not returned, apart from that of a completed write. -/
inductive Frame where
  | connected
  /-- `conn_cb_` after a failed connect; `on_connect` has yet to call `on_stop`. -/
  | failed
  | received
  /-- `send_cb_` for a buffer that found no room. -/
  | refused
  | closed
deriving DecidableEq, Repr

/-- A call of a user callback. -/
inductive Callback where
  | connect (status : Int)
  | receive (nread : Int)
  | send (status : Int) (buf : Nat)
  | close
deriving DecidableEq, Repr

/-- `_Max_Send_Buf`. -/
def maxSendBuf : Nat := 64

/-- The state of a `TcpConnectionImp`, with what libuv is doing for it. -/
structure Connection where
  connected : Bool
  handle : Uv.Handle
  /-- A connect has been started and its callback has not come. -/
  connecting : Bool
  reading : Bool
  /-- `send_buf_`. -/
  buffers : List Nat
  /-- Writes libuv has accepted whose callbacks have not come. -/
  outstanding : List Nat
  connCb : Bool
  recvCb : Bool
  sendCb : Bool
  closeCb : Bool
  /-- `on_write` waits for `send_cb_` to return; its status. -/
  writing : Option Int
  stack : List Frame
  /-- How often `on_send` was called. -/
  sends : Nat
  accepted : List Nat
  /-- Buffers that are not in `send_buf_` any more. -/
  gone : List Nat
  /-- Buffers passed to `uv_write`. -/
  passed : List Nat
  /-- Buffers that found no room, and whether `send_cb_` was set. -/
  refused : List (Nat × Bool)
  log : List Callback
  /-- `on_close` has been called since the last start. -/
  finished : Bool
  /-- The front of an empty queue was taken. -/
  fault : Bool

/-- What happens to a connection. -/
inductive Action where
  /-- `on_start`, whose connect is under way or has failed at once. -/
  | start (outcome : Option Int)
  /-- `accept_connect`. -/
  | accept (status : Int)
  /-- `on_stop` for the user. -/
  | stop
  /-- `on_send`; `wr` is what `uv_write` returns if it is called. -/
  | send (wr : Int)
  /-- The user sets or unsets callbacks. -/
  | callbacks (connCb recvCb sendCb closeCb : Bool)
  | connect (status : Int)
  | read (nread : Int)
  | write (status wr : Int)
  | closed
  /-- The callback on top of the stack returns. -/
  | ret (wr : Int)
deriving DecidableEq, Repr

namespace Connection

/-- Call a user callback, if it is set. -/
def call (s : Connection) (set : Bool) (frame : Frame) (what : Callback) : Connection :=
  { s with
    log := if set then s.log ++ [what] else s.log
    stack := if set then frame :: s.stack else s.stack }

/-- `on_close`. -/
def onClose (s : Connection) : Connection :=
  { s with buffers := [], gone := s.gone ++ s.buffers, finished := true }.call s.closeCb .closed
    .close

/-- `on_stop`. -/
def onStop (s : Connection) : Connection :=
  if s.connected = false then
    s
  else if s.handle.isClosing then
    { s with connected := false, reading := false }.onClose
  else
    { s with connected := false, reading := false, handle := s.handle.close }

/-- `send_buf`, on a `uv_write` that returns `wr`. -/
def sendBuf (s : Connection) (wr : Int) : Connection :=
  { s with
    passed := s.passed ++ s.buffers.take 1
    outstanding := if wr = 0 then s.outstanding ++ s.buffers.take 1 else s.outstanding
    fault := s.fault || s.buffers.isEmpty }

/-- `on_send`. -/
def onSend (s : Connection) (wr : Int) : Connection :=
  let buf := s.sends
  let s := { s with sends := s.sends + 1 }
  if s.connected = false then
    s
  else if s.buffers.length ≥ maxSendBuf then
    { s with refused := s.refused ++ [(buf, s.sendCb)] }.call s.sendCb .refused
      (.send s.buffers.length buf)
  else
    let queued := { s with buffers := s.buffers ++ [buf], accepted := s.accepted ++ [buf] }
    if s.buffers = [] then queued.sendBuf wr else queued

/-- `on_connect`. -/
def onConnect (s : Connection) (status : Int) : Connection :=
  let s := { s with connected := true }
  if status ≠ 0 then
    if s.connCb then s.call true .failed (.connect status) else s.onStop
  else
    { s with reading := true }.call s.connCb .connected (.connect status)

/-- `on_read`. -/
def onRead (s : Connection) (nread : Int) : Connection :=
  if s.connected = false then
    s
  else if nread > 0 then
    s.call s.recvCb .received (.receive nread)
  else
    s.onStop

/-- The part of `on_write` behind `send_cb_`. -/
def written (s : Connection) (status wr : Int) : Connection :=
  if status = 0 then
    let popped :=
      { s with
        buffers := s.buffers.tail
        gone := s.gone ++ s.buffers.take 1
        fault := s.fault || s.buffers.isEmpty }
    if popped.buffers = [] then popped else popped.sendBuf wr
  else
    s.onStop

/-- `on_write`. -/
def onWrite (s : Connection) (status wr : Int) : Connection :=
  if s.connected = false then
    s
  else if s.sendCb then
    { s with
      writing := some status
      log := s.log ++ (s.buffers.take 1).map (.send status)
      fault := s.fault || s.buffers.isEmpty }
  else
    s.written status wr

/-- `on_start`. A handle that is initialised while closing is not used any further. -/
def onStart (s : Connection) (outcome : Option Int) : Connection :=
  if s.connected then
    s
  else
    let s := { s with connected := true, finished := false, handle := s.handle.init }
    if s.handle.phase = .reused then
      s
    else
      match outcome with
      | none => { s with connecting := true }
      | some status => s.onConnect status

/-- No callback of the user is running. -/
def Idle (s : Connection) : Prop := s.stack = [] ∧ s.writing = none

instance (s : Connection) : Decidable s.Idle := by
  unfold Idle
  infer_instance

/-- Take a step, if it is enabled. Every write libuv has accepted is completed once, in
order, and with the connect before the handle is closed; a connect on a closing handle is
cancelled. -/
def step (s : Connection) (action : Action) : Option Connection :=
  if s.handle.phase = .reused then
    none
  else
    match action with
    | .start outcome => if outcome = some 0 then none else some (s.onStart outcome)
    | .accept status =>
        if s.handle.phase = .fresh ∧ s.Idle then
          some ({ s with handle := s.handle.init }.onConnect status)
        else
          none
    | .stop => some s.onStop
    | .send wr => some (s.onSend wr)
    | .callbacks connCb recvCb sendCb closeCb =>
        some { s with connCb := connCb, recvCb := recvCb, sendCb := sendCb, closeCb := closeCb }
    | .connect status =>
        if s.Idle ∧ s.connecting ∧ (s.handle.isClosing → status ≠ 0) then
          some ({ s with connecting := false }.onConnect status)
        else
          none
    | .read nread => if s.Idle ∧ s.reading then some (s.onRead nread) else none
    | .write status wr =>
        match s.outstanding with
        | [] => none
        | _ :: rest =>
            if s.Idle then some ({ s with outstanding := rest }.onWrite status wr) else none
    | .closed =>
        if s.Idle ∧ s.handle.phase = .closing ∧ s.connecting = false ∧ s.outstanding = [] then
          some { s with handle := s.handle.deliver }.onClose
        else
          none
    | .ret wr =>
        match s.stack with
        | frame :: rest =>
            let s := { s with stack := rest }
            some (if frame = .failed then s.onStop else s)
        | [] =>
            match s.writing with
            | some status => some ({ s with writing := none }.written status wr)
            | none => none

/-- A connection that has just been constructed; callbacks may have been set. -/
structure Initial (s : Connection) : Prop where
  connected : s.connected = false
  handle : s.handle = .fresh
  connecting : s.connecting = false
  reading : s.reading = false
  buffers : s.buffers = []
  outstanding : s.outstanding = []
  writing : s.writing = none
  stack : s.stack = []
  sends : s.sends = 0
  accepted : s.accepted = []
  gone : s.gone = []
  passed : s.passed = []
  refused : s.refused = []
  log : s.log = []
  finished : s.finished = false
  fault : s.fault = false

/-- A connection without callbacks. -/
def fresh : Connection where
  connected := false
  handle := .fresh
  connecting := false
  reading := false
  buffers := []
  outstanding := []
  connCb := false
  recvCb := false
  sendCb := false
  closeCb := false
  writing := none
  stack := []
  sends := 0
  accepted := []
  gone := []
  passed := []
  refused := []
  log := []
  finished := false
  fault := false

/-- A new connection is an initial one. -/
theorem fresh_initial : fresh.Initial := by
  constructor <;> rfl

end Connection

/-- The machine of all connections. -/
def connectionMachine : Machine Connection Action where
  Initial := Connection.Initial
  step := Connection.step

/-- What each step does. -/
inductive Transition (s : Connection) : Action → Connection → Prop where
  | ignored {outcome : Option Int} (up : s.connected = true) :
      Transition s (.start outcome) s
  | reused {outcome : Option Int} (down : s.connected = false)
      (closing : s.handle.phase = .closing) :
      Transition s (.start outcome)
        { s with connected := true, finished := false, handle := s.handle.init }
  | started (down : s.connected = false) (settled : s.handle.phase ≠ .closing) :
      Transition s (.start none)
        { s with connected := true, finished := false, handle := s.handle.init, connecting := true }
  | startFailed {status : Int} (down : s.connected = false) (settled : s.handle.phase ≠ .closing)
      (error : status ≠ 0) :
      Transition s (.start (some status))
        ({ s with connected := true, finished := false, handle := s.handle.init }.onConnect status)
  | accepted {status : Int} (fresh : s.handle.phase = .fresh) (idle : s.Idle) :
      Transition s (.accept status) ({ s with handle := s.handle.init }.onConnect status)
  | stop : Transition s .stop s.onStop
  | send {wr : Int} : Transition s (.send wr) (s.onSend wr)
  | callbacks {connCb recvCb sendCb closeCb : Bool} :
      Transition s (.callbacks connCb recvCb sendCb closeCb)
        { s with connCb := connCb, recvCb := recvCb, sendCb := sendCb, closeCb := closeCb }
  | connect {status : Int} (idle : s.Idle) (connecting : s.connecting = true)
      (cancelled : s.handle.isClosing = true → status ≠ 0) :
      Transition s (.connect status) ({ s with connecting := false }.onConnect status)
  | read {nread : Int} (idle : s.Idle) (reading : s.reading = true) :
      Transition s (.read nread) (s.onRead nread)
  | write {status wr : Int} {buf : Nat} {rest : List Nat} (idle : s.Idle)
      (outstanding : s.outstanding = buf :: rest) :
      Transition s (.write status wr) ({ s with outstanding := rest }.onWrite status wr)
  | closed (idle : s.Idle) (closing : s.handle.phase = .closing)
      (settled : s.connecting = false) (free : s.outstanding = []) :
      Transition s .closed { s with handle := s.handle.deliver }.onClose
  | returned {wr : Int} {frame : Frame} {rest : List Frame} (stack : s.stack = frame :: rest)
      (other : frame ≠ .failed) : Transition s (.ret wr) { s with stack := rest }
  | failed {wr : Int} {rest : List Frame} (stack : s.stack = .failed :: rest) :
      Transition s (.ret wr) { s with stack := rest }.onStop
  | written {wr status : Int} (stack : s.stack = []) (writing : s.writing = some status) :
      Transition s (.ret wr) ({ s with writing := none }.written status wr)

namespace Connection

variable {s next : Connection}

/-- Every step is one of the listed transitions. -/
theorem step_transition {action : Action} (taken : s.step action = some next) :
    s.handle.phase ≠ .reused ∧ Transition s action next := by
  unfold step at taken
  by_cases unusable : s.handle.phase = .reused
  · rw [if_pos unusable] at taken
    cases taken
  rw [if_neg unusable] at taken
  refine ⟨unusable, ?_⟩
  cases action with
  | start outcome =>
      simp only at taken
      by_cases zero : outcome = some 0
      · rw [if_pos zero] at taken
        cases taken
      rw [if_neg zero] at taken
      cases taken
      unfold onStart
      by_cases up : s.connected = true
      · rw [if_pos up]
        exact .ignored up
      rw [if_neg up]
      have down : s.connected = false := by simpa using up
      by_cases closing : s.handle.phase = .closing
      · rw [if_pos (Uv.Handle.init_reused closing)]
        exact .reused down closing
      have usable : s.handle.init.phase ≠ .reused := by
        rw [Uv.Handle.init_opened unusable closing]
        decide
      rw [if_neg usable]
      cases outcome with
      | none => exact .started down closing
      | some status => exact .startFailed down closing fun same => zero (by rw [same])
  | accept status =>
      simp only at taken
      split_ifs at taken with enabled
      cases taken
      exact .accepted enabled.1 enabled.2
  | stop =>
      cases taken
      exact .stop
  | send wr =>
      cases taken
      exact .send
  | callbacks connCb recvCb sendCb closeCb =>
      cases taken
      exact .callbacks
  | connect status =>
      simp only at taken
      split_ifs at taken with enabled
      cases taken
      exact .connect enabled.1 enabled.2.1 enabled.2.2
  | read nread =>
      simp only at taken
      split_ifs at taken with enabled
      cases taken
      exact .read enabled.1 enabled.2
  | write status wr =>
      cases outstanding : s.outstanding with
      | nil => simp [outstanding] at taken
      | cons buf rest =>
          simp only [outstanding] at taken
          split_ifs at taken with idle
          cases taken
          exact .write idle outstanding
  | closed =>
      simp only at taken
      split_ifs at taken with enabled
      cases taken
      exact .closed enabled.1 enabled.2.1 enabled.2.2.1 enabled.2.2.2
  | ret wr =>
      cases stack : s.stack with
      | cons frame rest =>
          simp only [stack, Option.some.injEq] at taken
          rw [← taken]
          split_ifs with isFailed
          · subst isFailed
            exact .failed stack
          · exact .returned stack isFailed
      | nil =>
          cases writing : s.writing with
          | none => simp [stack, writing] at taken
          | some status =>
              have written : Transition s (.ret wr)
                  ({ s with writing := none }.written status wr) := .written stack writing
              simp only [stack, writing, Option.some.injEq] at taken written
              rwa [← taken]

/-- The callbacks that are running go on when another one is called. -/
theorem mem_call {set : Bool} {frame other : Frame} {what : Callback} (member : other ∈ s.stack) :
    other ∈ (s.call set frame what).stack := by
  simp only [call]
  split_ifs
  · exact List.mem_cons_of_mem _ member
  · exact member

/-- `on_stop` takes the connection down. -/
theorem onStop_down : s.onStop.connected = false := by
  unfold onStop
  split_ifs with down
  · exact down
  · rfl
  · rfl

end Connection

end Sdpf.Tcp
