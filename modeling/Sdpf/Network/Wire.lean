import Sdpf.Network.Link

/-!
# A client and a server channel over a connection

The parties are those of an exchange, but what they send goes through `send_buf_`, is
written and read in pieces, and is parsed out of the receive buffer. Each of the two loops
runs on its own, and any thread may send.
-/

namespace Sdpf.Network

open Sdpf.Data Sdpf.Buffer Sdpf.Msgpack Sdpf.Channel Sdpf.Semantics Sdpf.Client Sdpf.Connection
open Sdpf.Server (Invocation Completion Handling)

/-- A client channel, a server channel, and the connection between them. -/
structure WireExchange where
  client : World
  server : Server.RpcChannel
  /-- The near end is that of the client. -/
  link : Link
  /-- Methods that have not run their done callback. -/
  pending : List Invocation
  invoked : List Invocation
  answered : List Completion
  /-- Bytes that were not received were used, a parser gave up, or a packet of the other
  kind came in. -/
  fault : Bool

/-- A step of a party, or of the loop of one end. -/
inductive WireMove where
  | call (action : Action)
  | send (n : Nat) (route : Route)
  /-- The `k`-th pending method is done. -/
  | answer (k : Nat) (filled : RpcMessage) (failed : Bool) (route : Route)
  | clientLoop (event : Event)
  | serverLoop (event : Event)
  /-- `on_recv` of the client looks at its buffer. -/
  | receive
  /-- `on_recv` of the server looks at its buffer. -/
  | serve (allocated : Bool) (route : Route)

/-- The move draws a relation id. -/
def WireMove.draws : WireMove → Bool
  | .call action => action.draws
  | _ => false

/-- `on_recv` is running, and no callback of its own. -/
def Endpoint.Receiving (e : Endpoint) : Prop := e.conn.stack.head? = some .received

instance (e : Endpoint) : Decidable e.Receiving := by
  unfold Endpoint.Receiving
  infer_instance

/-- What `on_recv` does when `parse` has returned: it goes on or returns. -/
def Endpoint.moveOn (e : Endpoint) (ret : Int) : Option Endpoint :=
  if ret > 0 then some (e.pop ret.toNat) else e.leave

namespace WireExchange

section Step

variable (codec : Codec) (wild : Nat → UInt8) (calls : Nat → Call)

/-- The client has parsed a packet. -/
def takeUp (w : WireExchange) : Option Packet → Option WireExchange
  | none => some w
  | some (.response id code _ body) =>
      (w.client.step calls (.respond id code body)).map fun client => { w with client := client }
  | some (.request _ _ _ _) => some { w with fault := true }

/-- The server has parsed a packet. -/
def process (w : WireExchange) (allocated : Bool) (route : Route) : Option Packet → WireExchange
  | none => w
  | some (.request id service method body) =>
      let handled := w.server.processRequest allocated id service.text method.text body
      let w := { w with server := handled.2 }
      match handled.1 with
      | .refused ec =>
          { w with link := { w.link with
              far := (w.link.far.sendPacket codec route (.response id ec none)).2 } }
      | .registered => w
      | .invoked invocation =>
          { w with
            pending := w.pending ++ [invocation]
            invoked := w.invoked ++ [invocation] }
  | some (.response _ _ _ _) => { w with fault := true }

/-- Take a step, if it is enabled. -/
def step (w : WireExchange) : WireMove → Option WireExchange
  | .call action =>
      if Local action then
        (w.client.step calls action).map fun client => { w with client := client }
      else
        none
  | .send n route =>
      match w.client.drawn n with
      | none => none
      | some id =>
          let sent := w.link.near.sendPacket codec route (outgoing (calls n) id)
          (w.client.step calls (.send n sent.1)).map fun client =>
            { w with client := client, link := { w.link with near := sent.2 } }
  | .answer k filled failed route =>
      match w.pending[k]? with
      | none => none
      | some invocation =>
          let completion : Completion :=
            ⟨invocation, invocation.response.map fun _ => filled, failed⟩
          some { w with
            pending := w.pending.eraseIdx k
            answered := w.answered ++ [completion]
            link := { w.link with
              far := (w.link.far.sendPacket codec route completion.outgoing).2 } }
  | .clientLoop event => (w.link.step event).map fun link => { w with link := link }
  | .serverLoop event => (w.link.flip.step event).map fun link => { w with link := link.flip }
  | .receive =>
      if w.link.near.Receiving ∧ w.client.phase = .idle then
        match parse codec wild w.link.near.recvBuf with
        | .error _ => some { w with fault := true }
        | .ok (ret, packet) =>
            if ret < 0 then
              some { w with fault := true }
            else
              (w.link.near.moveOn ret).bind fun near =>
                { w with link := { w.link with near := near } }.takeUp calls packet
      else
        none
  | .serve allocated route =>
      if w.link.far.Receiving then
        match parse codec wild w.link.far.recvBuf with
        | .error _ => some { w with fault := true }
        | .ok (ret, packet) =>
            if ret < 0 then
              some { w with fault := true }
            else
              (w.link.far.moveOn ret).map fun far =>
                { w with link := { w.link with far := far } }.process codec allocated route packet
      else
        none

end Step

/-- Two connected channels before the first call. -/
structure Initial (w : WireExchange) : Prop where
  client : w.client.Initial
  near : w.link.near.Established
  far : w.link.far.Established
  pending : w.pending = []
  invoked : w.invoked = []
  answered : w.answered = []
  sound : w.fault = false

/-- There is room for what is sent, and answers are sent. -/
def Roomy (codec : Codec) (w : WireExchange) : WireMove → Prop
  | .call _ | .receive => True
  | .send _ route => w.link.near.Clear route
  | .answer k filled failed route => w.link.far.Clear route ∧ ∀ invocation ∈ w.pending[k]?,
      (w.link.far.sendPacket codec route
        (Completion.outgoing ⟨invocation, invocation.response.map fun _ => filled, failed⟩)).1 = 0
  | .clientLoop event => w.link.Roomy event
  | .serverLoop event => w.link.flip.Roomy event
  | .serve _ route => w.link.far.Clear route ∧ route ≠ .down

instance (codec : Codec) (w : WireExchange) : (move : WireMove) → Decidable (w.Roomy codec move)
  | .call _ | .receive => inferInstanceAs (Decidable True)
  | .send _ route => inferInstanceAs (Decidable (w.link.near.Clear route))
  | .answer k filled failed route => inferInstanceAs (Decidable (w.link.far.Clear route ∧
      ∀ invocation ∈ w.pending[k]?, (w.link.far.sendPacket codec route
        (Completion.outgoing ⟨invocation, invocation.response.map fun _ => filled, failed⟩)).1 = 0))
  | .clientLoop event => inferInstanceAs (Decidable (w.link.Roomy event))
  | .serverLoop event => inferInstanceAs (Decidable (w.link.flip.Roomy event))
  | .serve _ route => inferInstanceAs (Decidable (w.link.far.Clear route ∧ route ≠ .down))

end WireExchange

/-- The machine of all exchanges over a connection that stays up. -/
def wireMachine (codec : Codec) (wild : Nat → UInt8) (calls : Nat → Call) :
    Machine WireExchange WireMove where
  Initial := WireExchange.Initial
  step := WireExchange.step codec wild calls

end Sdpf.Network
