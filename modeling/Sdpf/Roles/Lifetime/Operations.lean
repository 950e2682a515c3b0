import Sdpf.Roles.Lifetime.Objects
import Sdpf.Semantics.Machine

/-!
# What is done with connections and channels

Every function called through a reference touches the object, and a destroyed one must not
be touched. A user may keep the pointer a callback is passed. The callbacks of a connection
that a channel has set are left to the channel; the server hands its channels to nobody.

Libuv's callbacks are taken to reach the object they belong to. The code finds it by
`handle_.data`, which only an `on_connect` with status 0 sets.
-/

namespace Sdpf.Roles

open Sdpf.Data Sdpf.Semantics

namespace World

variable (s : World)

/-- `pif_` of an object. -/
def pif : Ref → Bool
  | .connection n => (s.connections n).pif
  | .channel c => (s.channels c).pif

/-- The objects, as owned by counted pointers. -/
def shared : Shared Ref where
  live := s.live
  outside r := s.pointers r + if ∃ c ∈ s.accepted, r = .channel c then 1 else 0
  fields
    | .connection n => if (s.connections n).pif then [.connection n] else []
    | .channel c =>
        (if (s.channels c).pif then [.channel c] else []) ++ [.connection (s.channels c).conn]

/-- Destroy what nothing refers to any more. -/
def settle : World := { s with live := s.shared.collect.live }

/-- A function of the object is called. -/
def touch (r : Ref) : World := { s with fault := s.fault || decide (r ∉ s.live) }

/-- Copy a pointer. -/
def give (r : Ref) : World := { s with pointers := Function.update s.pointers r (s.pointers r + 1) }

/-- Drop a pointer. -/
def drop (r : Ref) : World :=
  { s with pointers := Function.update s.pointers r (s.pointers r - 1) }.settle

def setConnection (n : Nat) (change : TcpObject → TcpObject) : World :=
  { s with connections := Function.update s.connections n (change (s.connections n)) }

def setChannel (c : Nat) (change : RpcObject → RpcObject) : World :=
  { s with channels := Function.update s.channels c (change (s.channels c)) }

/-- `set_shared(shared_from_this())`. -/
def share : Ref → World
  | .connection n => s.setConnection n fun object => { object with pif := true }
  | .channel c => s.setChannel c fun object => { object with pif := true }

/-- A connection that has just been constructed. -/
def newborn : TcpObject := ⟨.fresh, false, none, none, none⟩

/-- `make_shared<TcpConnection>`. -/
def newConnection : World :=
  let n := s.connectionCount
  let made : World :=
    { s with
      connections := Function.update s.connections n newborn
      connectionCount := n + 1
      live := insert (.connection n) s.live }
  made.give (.connection n)

/-- Construct a channel whose `conn_` is a connection. -/
def wrap (n : Nat) : World :=
  let c := s.channelCount
  let made : World :=
    { s with
      channels := Function.update s.channels c ⟨n, false, false, false⟩
      channelCount := c + 1
      live := insert (.channel c) s.live }
  made.give (.channel c)

/-- `make_shared<RpcChannel>`. The pointer to its connection moves to `conn_`. -/
def newChannel : World :=
  (s.newConnection.wrap s.connectionCount).drop (.connection s.connectionCount)

/-- `on_connect` of a channel. The server's `on_channel_connect` sets the services. -/
def onConnect (c : Nat) (status : Int) : World :=
  if status = 0 then
    let established := s.setConnection (s.channels c).conn fun object =>
      { object with
        conn := { object.conn with recvCb := true, sendCb := true, closeCb := true }
        bound := some c }
    established.setChannel c fun object =>
      { object with services := object.services || object.served }
  else
    s

/-- `on_close` of a channel. The server's `on_channel_close` erases it from `channels_`. -/
def onClose (c : Nat) : World :=
  let closed := s.setChannel c fun object => { object with services := false }
  if (s.channels c).served then
    { closed with accepted := closed.accepted.erase c }.settle
  else
    closed

/-- A connection calls a callback, which may be that of a channel. -/
def react (n : Nat) : Option Tcp.Callback → World
  | none => s
  | some (.connect status) =>
      (s.connections n).hooked.elim s fun c => (s.touch (.channel c)).onConnect c status
  | some .close => (s.connections n).bound.elim s fun c => (s.touch (.channel c)).onClose c
  | some (.receive _) | some (.send _ _) =>
      (s.connections n).bound.elim s fun c => s.touch (.channel c)

/-- A step of a connection, which libuv finds whenever it has to call it. A callback of a
channel that the step returns to goes on. -/
def perform (n : Nat) (action : Tcp.Action) : Option World :=
  ((s.connections n).conn.step action).map fun conn =>
    let called := conn.log[(s.connections n).conn.log.length]?
    let moved := (s.touch (.connection n)).setConnection n fun object =>
      { object with conn := conn }
    match action with
    | .ret _ => (moved.react n called).react n (some (.receive 0))
    | _ => moved.react n called

/-- `TcpConnection::start`. -/
def startConnection (n : Nat) (taken : Bool) : World :=
  let kept := (s.touch (.connection n)).share (.connection n)
  if taken = true ∧ (s.connections n).conn.connected = false then
    { kept with posted := kept.posted ++ [(n, .start)] }
  else
    kept

/-- `RpcChannel::start`. -/
def startChannel (c : Nat) (addressed taken : Bool) : World :=
  let kept := (s.touch (.channel c)).share (.channel c)
  let n := (s.channels c).conn
  if addressed = false ∨ (s.connections n).conn.connected = true ∨
      (s.channels c).services = true then
    kept
  else
    (kept.setConnection n fun object =>
      { object with conn := { object.conn with connCb := true }, hooked := some c }).startConnection
        n taken

/-- The connection that `stop` and `send` are about. -/
def target : Ref → Nat
  | .connection n => n
  | .channel c => (s.channels c).conn

/-- `stop` or `send`. -/
def post (r : Ref) (task : Task) (taken : Bool) : World :=
  let touched := (s.touch r).touch (.connection (s.target r))
  if taken = true ∧ (s.connections (s.target r)).conn.connected = true then
    { touched with posted := touched.posted ++ [(s.target r, task)] }
  else
    touched

/-- The part of `TcpServer::on_accept` behind `alloc_cb_`, up to `accept_cb_`. -/
def accept (n : Nat) (ret : Int) : Option World :=
  ((s.touch (.connection n)).share (.connection n)).perform n (.accept ret)

/-- `on_alloc`, which returns the connection. -/
def onAlloc : World :=
  let c := s.channelCount
  let n := s.connectionCount
  let made := s.newChannel.give (.connection n)
  let named := made.setConnection n fun object => { object with data := some c }
  { named with accepted := insert c named.accepted }.drop (.channel c)

/-- `RpcServerImp::on_accept`, which looks the channel up in `channels_`. -/
def onAccept (n : Nat) (status : Int) : World :=
  let chn := (s.connections n).data.filter (· ∈ s.accepted)
  if status = 0 then
    chn.elim { s with fault := true } fun c =>
      let served := s.setChannel c fun object => { object with served := true }
      (served.share (.channel c)).onConnect c 0
  else
    chn.elim s fun c => { s with accepted := s.accepted.erase c }.settle

/-- `on_accept` of the `TcpServer` of a `RpcServer`. -/
def serve (ret : Int) : Option World :=
  let n := s.connectionCount
  (s.onAlloc.accept n ret).map fun accepted => (accepted.onAccept n ret).drop (.connection n)

/-- The user has a pointer to the object, or the server to the channel. -/
def Has (r : Ref) : Prop := s.pointers r ≠ 0 ∨ ∃ c ∈ s.accepted, r = .channel c

instance : DecidablePred s.Has := fun _ => by
  unfold Has
  infer_instance

/-- A callback is running that is passed a pointer to the object. -/
def Passes (r : Ref) : Prop := s.pif r = true ∧ ¬ (s.connections (s.target r)).conn.Idle

instance : DecidablePred s.Passes := fun _ => by
  unfold Passes
  infer_instance

/-- Take a step, if it is enabled. What happens after a destroyed object was touched is not
defined. -/
def step (s : World) (operation : Operation) : Option World :=
  if s.fault then
    none
  else
    match operation with
    | .makeConnection => some s.newConnection
    | .makeChannel => some s.newChannel
    | .copy r => if s.Has r then some (s.give r) else none
    | .drop r => if s.pointers r ≠ 0 then some (s.drop r) else none
    | .connection c =>
        if s.Has (.channel c) then
          some ((s.touch (.channel c)).give (.connection (s.channels c).conn))
        else
          none
    | .keep r => if s.Passes r then some (s.give r) else none
    | .callbacks n connCb recvCb sendCb closeCb =>
        if s.Has (.connection n) ∧ (s.connections n).hooked = none ∧
            (s.connections n).bound = none then
          s.perform n (.callbacks connCb recvCb sendCb closeCb)
        else
          none
    | .startConnection n taken =>
        if s.Has (.connection n) then some (s.startConnection n taken) else none
    | .startChannel c addressed taken =>
        if s.Has (.channel c) then some (s.startChannel c addressed taken) else none
    | .stop r taken => if s.Has r then some (s.post r .stop taken) else none
    | .send r taken => if s.Has r then some (s.post r .send taken) else none
    | .run n action =>
        match Task.of action with
        | some task =>
            if (n, task) ∈ s.posted then
              { s with posted := s.posted.erase (n, task) }.perform n action
            else
              none
        | none => none
    | .event n action => if action.ofLoop then s.perform n action else none
    | .accept n ret => if s.Has (.connection n) then s.accept n ret else none
    | .serve ret => s.serve ret

/-- Nothing has been made. -/
structure Initial (s : World) : Prop where
  connections : ∀ n, (s.connections n).pif = false ∧ (s.connections n).conn.Unstarted ∧
    (s.connections n).hooked = none ∧ (s.connections n).bound = none
  channels : ∀ c, (s.channels c).pif = false
  live : s.live = ∅
  pointers : ∀ r, s.pointers r = 0
  accepted : s.accepted = ∅
  posted : s.posted = []
  fault : s.fault = false

end World

/-- The machine of all connections and channels. -/
def worldMachine : Machine World Operation where
  Initial := World.Initial
  step := World.step

end Sdpf.Roles
