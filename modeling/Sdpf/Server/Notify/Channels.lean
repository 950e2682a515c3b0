import Sdpf.Server.Answers

/-!
# Channels of a server

A service publishes to the channels that have registered for it. The table of a channel
maps the id of the registering request to the service, and is searched by service:
`process_request` fills it, `notify` reads it and `on_close` empties it.

All channels look for their services in the server's. Each remembers the registrations
it has accepted or found repeated, in order, and what `notify` handed to its connection.
-/

namespace Sdpf.Server

open Sdpf.Data Sdpf.Buffer Sdpf.Msgpack Sdpf.Channel Sdpf.Semantics

/-- A channel of a server. -/
structure ServedChannel where
  /-- `conn_->connected()`. -/
  connected : Bool
  /-- `services_` is not null. -/
  serving : Bool
  session : Serving
  /-- The id and the service of each notification request. -/
  registrations : List (UInt32 × Nat)
  /-- The buffers `notify` handed to the connection. -/
  notified : List IOBuf

/-- The state of `RpcServerImp`. Channels are numbered as they are made. -/
structure RpcServer where
  services : List RpcService
  /-- `channels_`. -/
  channels : List Nat
  count : Nat
  chn : Nat → ServedChannel

/-- What happens to a server and its channels. -/
inductive ServerAction where
  | registerService (svc : RpcService)
  | alloc
  /-- The connection of a channel is accepted, or that fails. -/
  | accept (c : Nat) (ok : Bool)
  | request (c : Nat) (r : Request)
  | done (c : Nat) (number : Nat) (response : Option AnyMessage) (failed : Bool)
  /-- `on_stop` of the connection. -/
  | stop (c : Nat)
  | close (c : Nat)
  | notifyAll (service : Nat) (msg : Option AnyMessage)

/-- The request that comes to a channel, if it is one. -/
def ServerAction.requestTo (c : Nat) : ServerAction → Option Request
  | request other r => if other = c then some r else none
  | _ => none

/-- The request is a notification for this service, and the service has the method. -/
def RpcChannel.Registers (ch : RpcChannel) (r : Request) (index : Nat) : Prop :=
  r.RegistersNotify ∧
    ∃ svc, ch.findSvc r.service = some (svc, index) ∧ 0 ≤ svc.findMethod r.method

/-- The registration in a request, if it is one. -/
def RpcChannel.registration (ch : RpcChannel) (r : Request) : List (UInt32 × Nat) :=
  match (ch.processRequest r.allocated r.id r.service r.method r.body).1, ch.findSvc r.service with
  | .registered, some (_, index) => [(r.id, index)]
  | _, _ => []

/-- The id of the first registration of a service. -/
def firstOf (registrations : List (UInt32 × Nat)) (service : Nat) : Option UInt32 :=
  (registrations.find? fun entry => entry.2 = service).map Prod.fst

namespace ServedChannel

/-- A channel without a connection. -/
def blank : ServedChannel where
  connected := false
  serving := false
  session := ⟨⟨[], ∅⟩, [], ∅, ∅, []⟩
  registrations := []
  notified := []

/-- `requests_`. -/
abbrev table (chn : ServedChannel) : AList fun _ : UInt32 => Nat := chn.session.ch.requests

/-- The session of a channel that looks for services in these. -/
def withServices (chn : ServedChannel) (services : List RpcService) : Serving :=
  { chn.session with ch := { chn.session.ch with services := services } }

/-- `on_close`. -/
def onClose (chn : ServedChannel) : ServedChannel :=
  { chn with
    serving := false
    session := { chn.session with ch := { chn.session.ch with requests := ∅ } } }

section Step

variable (codec : Codec)

/-- A request arrives. -/
def request (chn : ServedChannel) (services : List RpcService) (r : Request) :
    Option ServedChannel :=
  ((chn.withServices services).step codec (.request r)).map fun session =>
    { chn with
      session := session
      registrations := chn.registrations ++ (chn.withServices services).ch.registration r }

/-- A method calls `done`. -/
def done (chn : ServedChannel) (number : Nat) (response : Option AnyMessage) (failed : Bool) :
    Option ServedChannel :=
  (chn.session.step codec (.done number response failed)).map fun session =>
    { chn with session := session }

/-- `notify`. -/
def notify (chn : ServedChannel) (service : Nat) (msg : Option AnyMessage) : ServedChannel :=
  if msg = none ∨ chn.connected = false ∨ chn.serving = false then
    chn
  else
    match chn.table.entries.find? fun entry => entry.2 = service with
    | none => chn
    | some entry =>
        { chn with notified := chn.notified ++ Answer.packets codec ⟨entry.1, 0, msg, false⟩ }

end Step

/-- The channel is open, and its first registration of the service had this id. -/
def Subscribed (chn : ServedChannel) (service : Nat) (id : UInt32) : Prop :=
  chn.connected = true ∧ firstOf chn.registrations service = some id

/-- The requests that have come in had different ids. -/
def Distinct (chn : ServedChannel) : Prop := (chn.session.requests.map Request.id).Nodup

end ServedChannel

namespace RpcServer

variable (codec : Codec)

def put (s : RpcServer) (c : Nat) (chn : ServedChannel) : RpcServer :=
  { s with chn := Function.update s.chn c chn }

/-- `notify_all`. -/
def notifyAll (s : RpcServer) (service : Nat) (msg : Option AnyMessage) : RpcServer :=
  s.channels.foldl (fun s c => s.put c ((s.chn c).notify codec service msg)) s

/-- Take a step, if it is enabled. -/
def step (s : RpcServer) : ServerAction → Option RpcServer
  | .registerService svc => some { s with services := s.services ++ [svc] }
  | .alloc => some { s with channels := s.count :: s.channels, count := s.count + 1 }
  | .accept c ok =>
      if c ∈ s.channels ∧ (s.chn c).serving = false then
        if ok then some (s.put c { s.chn c with connected := true, serving := true })
        else some { s with channels := s.channels.erase c }
      else none
  | .request c r =>
      if (s.chn c).connected = true ∧ (s.chn c).serving = true then
        ((s.chn c).request codec s.services r).map (s.put c)
      else none
  | .done c number response failed =>
      ((s.chn c).done codec number response failed).map (s.put c)
  | .stop c =>
      if (s.chn c).connected = true then some (s.put c { s.chn c with connected := false })
      else none
  | .close c =>
      if (s.chn c).connected = false ∧ (s.chn c).serving = true then
        some ({ s with channels := s.channels.erase c }.put c (s.chn c).onClose)
      else none
  | .notifyAll service msg => some (s.notifyAll codec service msg)

/-- A server before its first channel. -/
structure Initial (s : RpcServer) : Prop where
  channels : s.channels = []
  count : s.count = 0
  chn : ∀ c, s.chn c = .blank

end RpcServer

/-- The machine of all servers. -/
def serverMachine (codec : Codec) : Machine RpcServer ServerAction where
  Initial := RpcServer.Initial
  step := RpcServer.step codec

end Sdpf.Server
