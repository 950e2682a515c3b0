import Sdpf.Client.Waiting.Places
import Sdpf.Semantics.Machine

/-!
# Synchronous calls

A call without a done callback waits on the condition variable of its controller, with
no predicate: it relies on holding the controller's mutex from before it sends until it
sleeps. The machine has any number of such calls, each with a controller of its own, and
the loop thread, which completes them one by one in `process_response` and all together
in `on_close`. Both mutexes are explicit, and every step happens between two operations
on them.
-/

namespace Sdpf.Client

open Sdpf.Semantics Sdpf.Data Sdpf.Channel

variable {Id : Type}

/-- The calls of a channel whose connection is up, or has been. -/
structure SyncCalls (Id : Type) where
  connected : Bool
  /-- `on_close` has run. -/
  closed : Bool
  /-- The ids in `requests_`. -/
  requests : List Id
  /-- The owner of `mutex_requests_`. -/
  mutexRequests : Option (Party Id)
  /-- The controller of each call. -/
  ctrls : Id → RpcController
  /-- What the response message of each call has been deserialised from. -/
  filled : Id → Option (List UInt8)
  /-- The owner of each controller's mutex. -/
  mutexes : Id → Option (Party Id)
  pc : Id → CallerPc
  loop : LoopPc Id
  /-- The requests the peer may answer. -/
  sent : Id → Bool
  /-- The completions whose `notify_one` has been issued. -/
  notified : Id → Option Settlement

/-- What a thread does next. -/
inductive SyncAction (Id : Type) where
  /-- A call with a response message, by a thread of its own. -/
  | call (id : Id) (response : Option RpcMessage)
  /-- `send_packet`, where `accepted` tells whether all but the connection allow it. -/
  | send (id : Id) (accepted : Bool)
  | stir (id : Id)
  | timeout (id : Id)
  /-- The next step of a call, where it has no choice. -/
  | go (id : Id)
  | response (id : Id) (code : Int32) (body : List UInt8)
  /-- `on_stop` of the connection. -/
  | stop
  | close
  /-- The next step of the loop thread. -/
  | turn

/-- The thread that takes a step. -/
def SyncAction.party : SyncAction Id → Party Id
  | .call id _ | .send id _ | .stir id | .timeout id | .go id => .caller id
  | .response .. | .stop | .close | .turn => .loop

/-- The error code a completion leaves in a controller. -/
def Settlement.ec (resp : Option RpcMessage) : Settlement → Int32
  | .response code body => RpcChannel.outcome resp code body
  | .close => enetwork

/-- What a completion deserialises the response message from. -/
def Settlement.filled (resp : Option RpcMessage) : Settlement → Option (List UInt8)
  | .response _ body => if body.length > 0 ∧ resp.isSome then some body else none
  | .close => none

namespace SyncCalls

/-- A connection that is up, and no calls yet. -/
def fresh (ctrls : Id → RpcController) : SyncCalls Id where
  connected := true
  closed := false
  requests := []
  mutexRequests := none
  ctrls := ctrls
  filled _ := none
  mutexes _ := none
  pc _ := .idle
  loop := .idle
  sent _ := false
  notified _ := none

variable [DecidableEq Id]

/-- Move a call on. -/
def goto (s : SyncCalls Id) (id : Id) (pc : CallerPc) : SyncCalls Id :=
  { s with pc := Function.update s.pc id pc }

/-- Set the owner of a controller's mutex. -/
def own (s : SyncCalls Id) (id : Id) (owner : Option (Party Id)) : SyncCalls Id :=
  { s with mutexes := Function.update s.mutexes id owner }

/-- Change one controller. -/
def modify (s : SyncCalls Id) (id : Id) (change : RpcController → RpcController) : SyncCalls Id :=
  { s with ctrls := Function.update s.ctrls id (change (s.ctrls id)) }

/-- `call_method` up to `mutex_requests_`. -/
def call (s : SyncCalls Id) (id : Id) (response : Option RpcMessage) : SyncCalls Id :=
  if s.connected then
    (s.modify id fun ctrl => { ctrl with ec := 0, resp := response }).goto id
      .entering
  else s

/-- `send_packet`, which asks the connection whether it is up. -/
def send (s : SyncCalls Id) (id : Id) (accepted : Bool) : SyncCalls Id :=
  if s.connected ∧ accepted = true then
    { s with sent := Function.update s.sent id true }.goto id .sent
  else s.goto id .unsent

/-- The step of a call that is neither a choice nor an event. -/
def go (s : SyncCalls Id) (id : Id) : Option (SyncCalls Id) :=
  match s.pc id with
  | .entering =>
      if s.mutexRequests = none then
        some ({ s with mutexRequests := some (.caller id) }.goto id .inserting)
      else none
  | .inserting =>
      some ({ s with requests := id :: s.requests, mutexRequests := none }.goto id .registered)
  | .registered =>
      if s.mutexes id = none then some ((s.own id (some (.caller id))).goto id .locked) else none
  | .unsent => some ((s.own id none).goto id .returned)
  | .sent => some ((s.own id none).goto id .sleeping)
  | .awake wakeup =>
      if s.mutexes id = none then some ((s.own id (some (.caller id))).goto id (.resumed wakeup))
      else none
  | .resumed _ => some ((s.own id none).goto id .returned)
  | .idle | .locked | .sleeping | .returned => none

/-- `remove_request` and the test of the controller's error code. -/
def remove (s : SyncCalls Id) (id : Id) (code : Int32) (body : List UInt8) : SyncCalls Id :=
  if id ∈ s.requests then
    if (s.ctrls id).ec = 0 then
      { s with
        requests := s.requests.erase id
        mutexRequests := none
        loop := .found id code body false }
    else { s with mutexRequests := none, loop := .found id code body true }
  else { s with mutexRequests := none, loop := .idle }

/-- Set the error code, and the response message, of a call that completes. -/
def settle (s : SyncCalls Id) (id : Id) (completion : Settlement) (after : After Id) :
    SyncCalls Id :=
  { s.modify id fun ctrl => { ctrl with ec := completion.ec ctrl.resp } with
    filled := Function.update s.filled id
      ((completion.filled (s.ctrls id).resp).or (s.filled id))
    loop := .notifying id completion after }

/-- The loop thread goes on after a notification. -/
def proceed (s : SyncCalls Id) (id : Id) : After Id → SyncCalls Id
  | .response true =>
      { s.modify id fun ctrl => { ctrl with ec := enotifyMark } with loop := .idle }
  | .response false => { s with loop := .idle }
  | .close rest => { s with loop := .clearing rest }

/-- `notify_one`: the caller is released if it sleeps. -/
def signal (s : SyncCalls Id) (id : Id) (completion : Settlement) : SyncCalls Id :=
  { s with
    notified := Function.update s.notified id (some completion)
    pc := if s.pc id = .sleeping then Function.update s.pc id (.awake .notified) else s.pc }

/-- Where the loop thread is then. -/
def resumption : After Id → LoopPc Id
  | .response _ => .idle
  | .close rest => .clearing rest

/-- The step of the loop thread inside `process_response` or `on_close`. -/
def turn (s : SyncCalls Id) : Option (SyncCalls Id) :=
  match s.loop with
  | .idle => none
  | .finding id code body =>
      if s.mutexRequests = none then
        some { s with mutexRequests := some .loop, loop := .removing id code body }
      else none
  | .removing id code body => some (s.remove id code body)
  | .found id code body bnotify => some (s.settle id (.response code body) (.response bnotify))
  | .closing =>
      if s.mutexRequests = none then
        some { s with mutexRequests := some .loop, loop := .clearing s.requests }
      else none
  | .clearing (id :: rest) => some (s.settle id .close (.close rest))
  | .clearing [] =>
      some { s with requests := [], mutexRequests := none, closed := true, loop := .idle }
  | .notifying id completion after =>
      if s.mutexes id = none then
        some { s.own id (some .loop) with loop := .holding id completion after }
      else none
  | .holding id completion after =>
      some { s.own id none with loop := .signalling id completion after }
  | .signalling id completion after => some ((s.signal id completion).proceed id after)

def step (s : SyncCalls Id) : SyncAction Id → Option (SyncCalls Id)
  | .call id response => if s.pc id = .idle then some (s.call id response) else none
  | .send id accepted => if s.pc id = .locked then some (s.send id accepted) else none
  | .stir id => if s.pc id = .sleeping then some (s.goto id (.awake .spurious)) else none
  | .timeout id => if s.pc id = .sleeping then some (s.goto id (.awake .timeout)) else none
  | .go id => s.go id
  | .response id code body =>
      if s.loop = .idle ∧ s.connected = true ∧ s.sent id = true then
        some { s with loop := .finding id code body }
      else none
  | .stop =>
      if s.loop = .idle ∧ s.connected = true then some { s with connected := false } else none
  | .close =>
      if s.loop = .idle ∧ s.connected = false ∧ s.closed = false then
        some { s with loop := .closing }
      else none
  | .turn => s.turn

/-- Synchronous calls, and the loop thread that completes them. -/
def syncMachine : Machine (SyncCalls Id) (SyncAction Id) where
  Initial s := ∃ ctrls, s = fresh ctrls
  step := step

end SyncCalls

end Sdpf.Client
