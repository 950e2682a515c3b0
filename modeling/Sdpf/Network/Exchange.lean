import Sdpf.Client.Once
import Sdpf.Server.Request

/-!
# A client and a server channel

The two channels are joined by a queue of whole packets in each direction. Calls,
deliveries and the completions of methods happen in any order. The network remembers
which invocations and completions there have been.
-/

namespace Sdpf.Network

open Sdpf.Data Sdpf.Msgpack Sdpf.Channel Sdpf.Semantics Sdpf.Client
open Sdpf.Server (Invocation Completion Handling)

/-- A client channel, a server channel, and the packets in flight. -/
structure Exchange where
  client : World
  server : Server.RpcChannel
  toServer : List Packet
  toClient : List Packet
  /-- Methods that have not run their done callback. -/
  pending : List Invocation
  invoked : List Invocation
  answered : List Completion

/-- A step of a party. `conn` is what the connection answers to a send. -/
inductive Move where
  | call (action : Action)
  | send (n : Nat) (conn : Int)
  /-- The server processes a request. -/
  | serve (allocated : Bool) (conn : Int)
  /-- The `k`-th pending method is done. -/
  | answer (k : Nat) (filled : RpcMessage) (failed : Bool) (conn : Int)
  /-- The client takes up a response. -/
  | deliver

/-- What `call_method` sends. -/
def outgoing (call : Call) (id : UInt32) : Outgoing :=
  .request id call.service call.method call.request

/-- Steps the client takes without the network; the connection stays open. -/
def Local : Action → Bool
  | .send _ _ | .respond _ _ _ | .close => false
  | _ => true

/-- The relation id of a packet. -/
def packetId : Packet → UInt32
  | .request id _ _ _ => id
  | .response id _ _ _ => id

section Step

variable (codec : Codec) (calls : Nat → Call)

/-- `send_packet`, and the packets it puts on the way. -/
def transmit (conn : Int) (out : Outgoing) : Int × List Packet :=
  let ret := sendPacket codec (fun _ => conn) out.metaRpc out.msg
  (ret, if ret = 0 then [out.packet codec] else [])

namespace Exchange

/-- Take a step, if it is enabled. -/
def step (w : Exchange) : Move → Option Exchange
  | .call action =>
      if Local action then
        (w.client.step calls action).map fun client => { w with client := client }
      else
        none
  | .send n conn =>
      match w.client.drawn n with
      | none => none
      | some id =>
          let sent := transmit codec conn (outgoing (calls n) id)
          (w.client.step calls (.send n sent.1)).map fun client =>
            { w with client := client, toServer := w.toServer ++ sent.2 }
  | .serve allocated conn =>
      match w.toServer with
      | .request id service method body :: rest =>
          let handled := w.server.processRequest allocated id service.text method.text body
          let w := { w with server := handled.2, toServer := rest }
          match handled.1 with
          | .refused ec =>
              some { w with
                toClient := w.toClient ++ (transmit codec conn (.response id ec none)).2 }
          | .registered => some w
          | .invoked invocation =>
              some { w with
                pending := w.pending ++ [invocation]
                invoked := w.invoked ++ [invocation] }
      | _ => none
  | .answer k filled failed conn =>
      match w.pending[k]? with
      | none => none
      | some invocation =>
          let completion : Completion :=
            ⟨invocation, invocation.response.map fun _ => filled, failed⟩
          some { w with
            pending := w.pending.eraseIdx k
            answered := w.answered ++ [completion]
            toClient := w.toClient ++ (transmit codec conn completion.outgoing).2 }
  | .deliver =>
      match w.toClient with
      | .response id code _ body :: rest =>
          (w.client.step calls (.respond id code body)).map fun client =>
            { w with client := client, toClient := rest }
      | _ => none

/-- Two connected channels before the first call. -/
structure Initial (w : Exchange) : Prop where
  client : w.client.Initial
  toServer : w.toServer = []
  toClient : w.toClient = []
  pending : w.pending = []
  invoked : w.invoked = []
  answered : w.answered = []

end Exchange

/-- The machine of all exchanges. -/
def exchangeMachine : Machine Exchange Move where
  Initial := Exchange.Initial
  step := Exchange.step codec calls

end Step

section Transmit

variable {codec : Codec} {conn : Int} {out : Outgoing} {packet : Packet}

/-- A packet on its way is the one that was built, and the send has succeeded. -/
theorem mem_transmit (member : packet ∈ (transmit codec conn out).2) :
    (transmit codec conn out).1 = 0 ∧ packet = out.packet codec := by
  unfold transmit at member ⊢
  simp only at member ⊢
  split at member
  · next sent => exact ⟨sent, List.mem_singleton.mp member⟩
  · cases member

/-- The bytes handed to the connection are one frame, which the receiver takes for
exactly this packet. -/
theorem transmit_frame (law : codec.Lawful) (sent : (transmit codec conn out).1 = 0) :
    ∃ pb, buildPacket codec out.metaRpc out.msg = .ok pb ∧ conn = 0 ∧
      WellFormedFrame codec pb.readable (out.packet codec) := by
  simp only [transmit, sendPacket] at sent
  cases built : buildPacket codec out.metaRpc out.msg with
  | error ret =>
      simp only [built] at sent
      exact absurd sent (buildPacket_error built)
  | ok pb =>
      simp only [built] at sent
      split_ifs at sent with accepted
      exact ⟨pb, rfl, (not_not.mp accepted).symm, (buildPacket_wellFormed law built).2⟩

end Transmit

end Sdpf.Network
