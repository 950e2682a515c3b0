import Sdpf.Network.CrossTalk

/-!
# An unreliable carrier

Packets may overtake each other on their way, and get lost, but are neither changed nor
doubled. What the parties do is what they do in an exchange over two queues, so whatever
their moves keep, and the carrier does not break, holds here as well.
-/

namespace Sdpf.Network

open Sdpf.Data Sdpf.Msgpack Sdpf.Channel Sdpf.Semantics Sdpf.Client
open Sdpf.Server (Invocation Completion Handling)

/-- A move of a party, or something that happens to the packets in flight. -/
inductive Passage where
  | party (move : Move)
  | reorder (toServer toClient : List Packet)
  | lose (toServer toClient : List Packet)

namespace Passage

/-- The passage draws a relation id. -/
def draws : Passage → Bool
  | party move => move.draws
  | _ => false

end Passage

variable {codec : Codec} {calls : Nat → Call} {w next start : Exchange}

namespace Exchange

/-- Take a step, if it is enabled. -/
def carry (codec : Codec) (calls : Nat → Call) (w : Exchange) : Passage → Option Exchange
  | .party move => w.step codec calls move
  | .reorder toServer toClient =>
      if toServer.Perm w.toServer ∧ toClient.Perm w.toClient then
        some { w with toServer := toServer, toClient := toClient }
      else
        none
  | .lose toServer toClient =>
      if toServer.Sublist w.toServer ∧ toClient.Sublist w.toClient then
        some { w with toServer := toServer, toClient := toClient }
      else
        none

/-- What each step does. -/
inductive Carries (codec : Codec) (calls : Nat → Call) (w : Exchange) :
    Passage → Exchange → Prop where
  | party {move : Move} {next : Exchange} (moved : w.step codec calls move = some next) :
      Carries codec calls w (.party move) next
  | reorder {toServer toClient : List Packet} (up : toServer.Perm w.toServer)
      (down : toClient.Perm w.toClient) :
      Carries codec calls w (.reorder toServer toClient)
        { w with toServer := toServer, toClient := toClient }
  | lose {toServer toClient : List Packet} (up : toServer.Sublist w.toServer)
      (down : toClient.Sublist w.toClient) :
      Carries codec calls w (.lose toServer toClient)
        { w with toServer := toServer, toClient := toClient }

/-- A passage that is taken is one of these. -/
theorem carry_carries {passage : Passage} (transition : w.carry codec calls passage = some next) :
    Carries codec calls w passage next := by
  cases passage with
  | party move => exact .party transition
  | reorder toServer toClient =>
      simp only [carry] at transition
      split_ifs at transition with permuted
      cases transition
      exact .reorder permuted.1 permuted.2
  | lose toServer toClient =>
      simp only [carry] at transition
      split_ifs at transition with fewer
      cases transition
      exact .lose fewer.1 fewer.2

/-- Some of the packets in flight, in any order. -/
theorem Linked.reroute {toServer toClient : List Packet} (linked : w.Linked codec calls)
    (up : toServer.Subperm w.toServer) (down : toClient.Subperm w.toClient) :
    ({ w with toServer := toServer, toClient := toClient } : Exchange).Linked codec calls := by
  refine { linked with requests := ?_, distinct := ?_, responses := ?_ }
  · exact fun packet member => linked.requests packet (up.subset member)
  · obtain ⟨kept, permuted, fewer⟩ := up
    refine (permuted.map packetId |>.append_right _).nodup_iff.mp ?_
    exact linked.distinct.sublist ((fewer.map packetId).append_right _)
  · exact fun id code text body member => linked.responses id code text body (down.subset member)

/-- The condition of a party's move. -/
def Carefully (condition : Exchange → Move → Prop) (w : Exchange) : Passage → Prop
  | .party move => condition w move
  | _ => True

/-- A passage keeps ids tied to their calls. -/
theorem Linked.carry {passage : Passage} (linked : w.Linked codec calls)
    (apart : Function.Injective fun n => (calls n).ctrl)
    (ordinary : ∀ n, ¬ (calls n).IsNotify) (unwrapped : Carefully Unwrapped w passage)
    (transition : w.carry codec calls passage = some next) : next.Linked codec calls := by
  cases carry_carries transition with
  | party moved => exact linked.step apart ordinary unwrapped moved
  | reorder up down => exact linked.reroute up.subperm down.subperm
  | lose up down => exact linked.reroute up.subperm down.subperm

/-- A passage draws one id at most. -/
theorem carry_id {passage : Passage} (transition : w.carry codec calls passage = some next) :
    next.client.ch.id.toNat ≤ w.client.ch.id.toNat + if passage.draws then 1 else 0 := by
  cases carry_carries transition with
  | party moved => exact step_id moved
  | reorder up down => exact Nat.le_add_right _ _
  | lose up down => exact Nat.le_add_right _ _

end Exchange

/-- The machine of all exchanges over an unreliable carrier. -/
def carrierMachine (codec : Codec) (calls : Nat → Call) : Machine Exchange Passage where
  Initial := Exchange.Initial
  step := Exchange.carry codec calls

namespace Exchange

section Runs

variable {passages : List Passage} (initial : start.Initial)
  (runs : (carrierMachine codec calls).Runs start passages w)
include initial runs

/-- The ids are counted by the moves that draw them. -/
theorem carried_id : w.client.ch.id.toNat ≤ passages.countP Passage.draws := by
  induction runs with
  | refl => simp [initial.client.id]
  | @step passages state passage next prior transition ih =>
      have moved := carry_id transition
      rw [List.countP_append, List.countP_singleton]
      omega

variable (few : passages.countP Passage.draws < 2 ^ 32)
include few

/-- Fewer than 2^32 draws do not wrap. -/
theorem carried_unwrapped :
    (carrierMachine codec calls).Along (Carefully Unwrapped) start passages := by
  refine runs.along_of fun {before state passage after} prior same => ?_
  have drawn := carried_id initial prior
  rw [same, List.countP_append] at few
  cases passage with
  | party move =>
      cases move with
      | call action =>
          cases action with
          | mark n =>
              rw [List.countP_cons_of_pos rfl] at few
              simp only [Carefully, Unwrapped, World.Unwrapped]
              omega
          | _ => trivial
      | _ => trivial
  | _ => trivial

/-- Whatever the carrier does, ids tie together calls, packets, invocations and answers. -/
theorem carried_linked (apart : Function.Injective fun n => (calls n).ctrl)
    (ordinary : ∀ n, ¬ (calls n).IsNotify) : w.Linked codec calls :=
  runs.guarded (Linked codec calls)
    (fun linked unwrapped => linked.carry apart ordinary unwrapped) (.of_initial initial)
    (carried_unwrapped initial runs few)

end Runs

end Exchange

end Sdpf.Network
