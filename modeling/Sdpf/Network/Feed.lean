import Sdpf.Network.Settlement
import Sdpf.Client.Listening
import Sdpf.Client.Refusal
import Sdpf.Server.Notify

/-!
# Notifications from the service to the callback

The server of a feed publishes besides answering: `notify` looks for the id under which a
service was registered, and sends a success with that id. On the client the entry of the
registering call stays, so every such response runs its callback. `Wired` ties the ids in
the queues and in the server's table to the calls that drew them.
-/

namespace Sdpf.Network

open Sdpf.Data Sdpf.Msgpack Sdpf.Channel Sdpf.Semantics Sdpf.Client
open Sdpf.Server (Invocation Completion Handling)

/-- An exchange whose server publishes, and what it has handed to the connection: services,
and bodies of notifications. -/
structure Feed where
  exchange : Exchange
  published : List (Nat × List UInt8)

/-- A step of an exchange, or a `notify` on the server. -/
inductive FeedMove where
  | exchange (move : Move)
  | notify (service : Nat) (msg : RpcMessage) (conn : Int)

/-- The move draws a relation id. -/
def FeedMove.draws : FeedMove → Bool
  | .exchange move => move.draws
  | .notify _ _ _ => false

/-- The responses with an id on their way: their codes and bodies. -/
def Exchange.inFlight (w : Exchange) (id : UInt32) : List (Int32 × List UInt8) :=
  w.toClient.filterMap fun
    | .response other code _ body => if other = id then some (code, body) else none
    | .request _ _ _ _ => none

namespace Feed

section Step

variable (codec : Codec) (calls : Nat → Call)

/-- Take a step, if it is enabled. -/
def step (w : Feed) : FeedMove → Option Feed
  | .exchange move =>
      (w.exchange.step codec calls move).map fun exchange => { w with exchange := exchange }
  | .notify service msg conn =>
      match w.exchange.server.requests.entries.find? fun entry => entry.2 = service with
      | none => some w
      | some entry =>
          let out : Outgoing := .response entry.1 0 (some msg)
          let sent := transmit codec conn out
          some {
            exchange := { w.exchange with toClient := w.exchange.toClient ++ sent.2 }
            published := w.published ++ sent.2.map fun _ => (service, out.body codec) }

/-- What has been published for a service. -/
def publishedBy (w : Feed) (service : Nat) : List (List UInt8) :=
  (w.published.filter fun entry => entry.1 = service).map Prod.snd

/-- Two connected channels before the first call. -/
structure Initial (w : Feed) : Prop where
  exchange : w.exchange.Initial
  requests : w.exchange.server.requests = ∅
  published : w.published = []

end Step

end Feed

/-- The machine of all feeds. -/
def feedMachine (codec : Codec) (calls : Nat → Call) : Machine Feed FeedMove where
  Initial := Feed.Initial
  step := Feed.step codec calls

namespace Exchange

/-- The ids of requests: on their way, being worked on, and registered. -/
def requested (w : Exchange) : List UInt32 :=
  w.toServer.map packetId ++ w.pending.map Invocation.id ++ w.server.requests.keys

/-- What is in the queues, in the server's hands and in the client's belongs to calls that
have been sent. -/
structure Wired (codec : Codec) (calls : Nat → Call) (w : Exchange) : Prop where
  attributed : w.client.Attributed calls
  separate : w.client.Separate
  heard : w.client.Heard calls
  requests : ∀ packet ∈ w.toServer, ∃ n id, w.Sent n id ∧ packet = request codec calls n id
  requested : ∀ id ∈ w.requested, ∃ n, w.Sent n id
  responses : ∀ packet ∈ w.toClient, ∃ n id code text body,
    packet = .response id code text body ∧ w.Sent n id
  answering : ∀ answer, w.client.answering = some answer → w.Sent answer.call answer.id
  fired : ∀ firing ∈ w.client.fired, ∃ id, w.Sent firing.call id
  distinct : w.requested.Nodup
  subscribed : ∀ id service, w.server.requests.lookup id = some service → ∃ n svc,
    (calls n).IsNotify ∧ w.Sent n id ∧
      w.server.findSvc (nameField (calls n).service).text = some (svc, service)

variable {codec : Codec} {calls : Nat → Call} {w next : Exchange} {n : Nat} {id : UInt32}

/-- Before the first call nothing is wired up. -/
theorem Wired.of_initial (initial : w.Initial) (empty : w.server.requests = ∅) :
    w.Wired codec calls := by
  have none : w.requested = [] := by
    simp [Exchange.requested, initial.toServer, initial.pending, empty]
  constructor
  · exact .of_initial initial.client
  · exact .of_initial initial.client
  · exact .of_initial initial.client
  · simp [initial.toServer]
  · simp [none]
  · simp [initial.toClient]
  · simp [World.answering, initial.client.phase]
  · simp [initial.client.fired]
  · simp [none]
  · simp [empty]

/-- A call whose send fails has been left alone by the loop thread, and so has one that the
answer at hand does not belong to. -/
theorem Wired.orderly {action : Action} (wired : w.Wired codec calls) (unclosed : action ≠ .close)
    (sent : ∀ id code body, action = .respond id code body → ∃ n, w.Sent n id)
    (was : ∀ n ret, action = .send n ret → w.client.pc n = .registered) :
    w.client.Orderly action := by
  cases action with
  | send n ret =>
      have now := was n ret rfl
      refine fun _ => ⟨?_, ?_⟩
      · rintro ⟨firing, member, rfl⟩
        obtain ⟨id, before⟩ := wired.fired firing member
        simp [before.1] at now
      · intro completing
        have belongs : ∃ answer, w.client.answering = some answer ∧ answer.call = n := by
          unfold World.Completing at completing
          split at completing
          · next answer is => exact ⟨answer, by simp [World.answering, is], completing⟩
          · next answer _ is => exact ⟨answer, by simp [World.answering, is], completing⟩
          all_goals exact completing.elim
        obtain ⟨answer, at_hand, rfl⟩ := belongs
        have before := wired.answering answer at_hand
        simp [before.1] at now
  | respond id code body =>
      intro stored failed
      obtain ⟨n, before⟩ := sent id code body rfl
      rw [wired.attributed.owner before.2 stored, before.1] at failed
      simp [Pc.SendFailed] at failed
  | close => exact absurd rfl unclosed
  | _ => trivial

/-- The client takes a step. -/
theorem Wired.client {action : Action} {client : World} (wired : w.Wired codec calls)
    (apart : Function.Injective fun n => (calls n).ctrl) (unwrapped : w.client.Unwrapped action)
    (unclosed : action ≠ .close)
    (sent : ∀ id code body, action = .respond id code body → ∃ n, w.Sent n id)
    (was : ∀ n ret, action = .send n ret → w.client.pc n = .registered)
    (transition : w.client.step calls action = some client) :
    ({ w with client := client } : Exchange).Wired codec calls := by
  constructor
  · exact wired.attributed.step apart unwrapped transition
  · exact wired.separate.step (wired.orderly unclosed sent was) transition
  · exact wired.heard.step transition
  · intro packet member
    obtain ⟨n, id, before, same⟩ := wired.requests packet member
    exact ⟨n, id, before.step transition, same⟩
  · intro id member
    obtain ⟨n, before⟩ := wired.requested id member
    exact ⟨n, before.step transition⟩
  · intro packet member
    obtain ⟨n, id, code, text, body, same, before⟩ := wired.responses packet member
    exact ⟨n, id, code, text, body, same, before.step transition⟩
  · intro answer now
    rcases World.step_answering transition now with before | ⟨responds, stored⟩
    · exact (wired.answering answer before).step transition
    · obtain ⟨n, before⟩ := sent _ _ _ responds
      have own := wired.attributed.owner before.2 (mem_of_lookup stored)
      have call : answer.call = n := by
        rw [responds] at transition
        cases World.step_transition transition with
        | unknown was absent =>
            rw [absent] at stored
            cases stored
        | found was _ => exact (congrArg Answer.call (Option.some.inj now)).symm.trans own
      exact call ▸ before.step transition
  · intro firing member
    rcases World.step_fired unclosed transition member with before | ⟨answer, now, call, -⟩
    · obtain ⟨id, sent⟩ := wired.fired firing before
      exact ⟨id, sent.step transition⟩
    · exact ⟨answer.id, call ▸ (wired.answering answer now).step transition⟩
  · exact wired.distinct
  · intro id service stored
    obtain ⟨n, svc, notify, before, found⟩ := wired.subscribed id service stored
    exact ⟨n, svc, notify, before.step transition, found⟩

/-- No id of a call that has not been sent is in use. -/
theorem Wired.unused (wired : w.Wired codec calls) (drew : w.client.drawn n = some id)
    (unsent : w.client.pc n ≠ .returned 0) :
    id ∉ w.requested ∧ ∀ code text body, .response id code text body ∉ w.toClient := by
  have other : ∀ m, ¬ w.Sent m id := by
    intro m before
    obtain rfl := wired.attributed.distinct m n id before.2 drew
    exact unsent before.1
  constructor
  · intro member
    obtain ⟨m, before⟩ := wired.requested id member
    exact other m before
  · intro code text body member
    obtain ⟨m, _, _, _, _, same, before⟩ := wired.responses _ member
    cases same
    exact other m before

/-- A request is put on its way. -/
theorem Wired.send {conn : Int} {client : World} (wired : w.Wired codec calls)
    (apart : Function.Injective fun n => (calls n).ctrl) (drew : w.client.drawn n = some id)
    (transition : w.client.step calls
      (.send n (transmit codec conn (outgoing (calls n) id)).1) = some client) :
    ({ w with
      client := client
      toServer := w.toServer ++ (transmit codec conn (outgoing (calls n) id)).2 } :
        Exchange).Wired codec calls := by
  have was := (World.step_send transition).1
  have unwrapped : ∀ ret, w.client.Unwrapped (.send n ret) := fun _ => trivial
  have moved := wired.client apart (unwrapped _) (by simp) (by simp)
    (by rintro _ _ ⟨rfl, rfl⟩; exact was) transition
  by_cases sent : (transmit codec conn (outgoing (calls n) id)).1 = 0
  · have packets : (transmit codec conn (outgoing (calls n) id)).2 = [request codec calls n id] :=
      if_pos sent
    rw [packets]
    rw [sent] at transition
    have now : ({ w with client := client } : Exchange).Sent n id := by
      cases World.step_transition transition with
      | sent was connected => exact ⟨by simp [World.setPc], drew⟩
      | sendFailed was error => exact absurd rfl error
    have fresh := (wired.unused drew (by simp [was])).1
    have places : Exchange.requested { w with
        client := client
        toServer := w.toServer ++ [request codec calls n id] } =
          w.toServer.map packetId ++ id :: (w.pending.map Invocation.id ++
            w.server.requests.keys) := by
      simp [Exchange.requested, request, outgoing, Outgoing.packet, packetId]
    refine { moved with requests := ?_, requested := ?_, distinct := ?_ }
    · intro packet member
      rcases List.mem_append.mp member with before | added
      · exact moved.requests packet before
      · exact ⟨n, id, now, List.mem_singleton.mp added⟩
    · intro other member
      rw [places, List.perm_middle.mem_iff, List.mem_cons] at member
      rcases member with rfl | before
      · exact ⟨n, now⟩
      · exact moved.requested other (by simpa [Exchange.requested] using before)
    · rw [places]
      refine List.perm_middle.nodup_iff.mpr (List.nodup_cons.mpr ⟨?_, ?_⟩)
      · simpa [Exchange.requested] using fresh
      · simpa [Exchange.requested] using wired.distinct
  · have packets : (transmit codec conn (outgoing (calls n) id)).2 = [] := if_neg sent
    rw [packets, List.append_nil]
    exact moved

/-- A response for a call that has been sent is put on its way. -/
theorem Wired.respond {code : Int32} {msg : Option RpcMessage} {conn : Int}
    (wired : w.Wired codec calls) (sent : w.Sent n id) :
    ({ w with toClient := w.toClient ++ (transmit codec conn (.response id code msg)).2 } :
      Exchange).Wired codec calls := by
  refine { wired with responses := ?_ }
  intro packet member
  rcases List.mem_append.mp member with before | added
  · exact wired.responses packet before
  · rw [(mem_transmit added).2]
    exact ⟨n, id, _, _, _, rfl, sent⟩

/-- The server takes a request from the queue. -/
theorem Wired.take {packet : Packet} {rest : List Packet} (wired : w.Wired codec calls)
    (queue : w.toServer = packet :: rest) :
    ({ w with toServer := rest } : Exchange).Wired codec calls ∧
      packetId packet ∉ Exchange.requested { w with toServer := rest } ∧
      ∃ n, w.Sent n (packetId packet) ∧ packet = request codec calls n (packetId packet) := by
  have whole : w.requested = packetId packet :: Exchange.requested { w with toServer := rest } := by
    simp [Exchange.requested, queue]
  have distinct := wired.distinct
  rw [whole, List.nodup_cons] at distinct
  refine ⟨{ wired with requests := ?_, requested := ?_, distinct := distinct.2 }, distinct.1, ?_⟩
  · intro other member
    exact wired.requests other (queue ▸ List.mem_cons_of_mem _ member)
  · intro other member
    exact wired.requested other (whole ▸ List.mem_cons_of_mem _ member)
  · obtain ⟨n, id, sent, rfl⟩ := wired.requests packet (queue ▸ List.mem_cons_self)
    exact ⟨n, sent, rfl⟩

/-- The server invokes a method for a request. -/
theorem Wired.invoke {packet : Packet} {rest : List Packet} {invocation : Invocation}
    (wired : w.Wired codec calls) (queue : w.toServer = packet :: rest)
    (same : invocation.id = packetId packet) :
    ({ w with
      toServer := rest
      pending := w.pending ++ [invocation]
      invoked := w.invoked ++ [invocation] } : Exchange).Wired codec calls := by
  obtain ⟨taken, gone, n, sent, -⟩ := wired.take queue
  have places : (Exchange.requested { w with
      toServer := rest
      pending := w.pending ++ [invocation]
      invoked := w.invoked ++ [invocation] }).Perm
        (packetId packet :: Exchange.requested { w with toServer := rest }) := by
    simp only [Exchange.requested, List.map_append, List.map_cons, List.map_nil, same,
      List.append_assoc, List.singleton_append]
    rw [← List.append_assoc, ← List.append_assoc]
    exact List.perm_middle
  refine { taken with requested := ?_, distinct := ?_ }
  · intro id member
    rcases List.mem_cons.mp (places.mem_iff.mp member) with rfl | before
    · exact ⟨n, sent⟩
    · exact taken.requested id before
  · exact places.nodup_iff.mpr (List.nodup_cons.mpr ⟨gone, taken.distinct⟩)

/-- The server registers a service under the id of a request. -/
theorem Wired.register {service method : CharArray 64} {body : List UInt8} {rest : List Packet}
    {svc : Server.RpcService} {index : Nat} (wired : w.Wired codec calls)
    (queue : w.toServer = .request id service method body :: rest)
    (notify : strcmp method.text.bytes methodNotify.bytes = 0)
    (found : w.server.findSvc service.text = some (svc, index)) :
    ({ w with server := w.server.registerNotify id index, toServer := rest } :
      Exchange).Wired codec calls := by
  obtain ⟨taken, gone, n, sent, is⟩ := wired.take queue
  have services : (w.server.registerNotify id index).services = w.server.services := by
    unfold Server.RpcChannel.registerNotify
    split_ifs <;> rfl
  have findSvc : ∀ name, (w.server.registerNotify id index).findSvc name =
      w.server.findSvc name := by
    intro name
    simp only [Server.RpcChannel.findSvc, services]
  rcases Server.ServedChannel.registerNotify_cases w.server id index with
    ⟨-, same⟩ | ⟨-, inserted⟩
  · have places : Exchange.requested
        { w with server := w.server.registerNotify id index, toServer := rest } =
          Exchange.requested { w with toServer := rest } := by
      simp only [Exchange.requested, same]
    refine { taken with requested := ?_, distinct := ?_, subscribed := ?_ }
    · exact fun other member => taken.requested other (places ▸ member)
    · exact places ▸ taken.distinct
    · intro other service' stored
      rw [same] at stored
      obtain ⟨m, svc', listens, before, named⟩ := wired.subscribed other service' stored
      exact ⟨m, svc', listens, before, (findSvc _).trans named⟩
  · have absent : id ∉ w.server.requests.keys := fun member =>
      gone (List.mem_append_right _ member)
    have places : (Exchange.requested
        { w with server := w.server.registerNotify id index, toServer := rest }).Perm
          (id :: Exchange.requested { w with toServer := rest }) := by
      simp only [Exchange.requested, inserted, AList.keys_insert, List.erase_of_not_mem absent]
      exact List.perm_middle
    refine { taken with requested := ?_, distinct := ?_, subscribed := ?_ }
    · intro other member
      rcases List.mem_cons.mp (places.mem_iff.mp member) with rfl | before
      · exact ⟨n, sent⟩
      · exact taken.requested other before
    · exact places.nodup_iff.mpr (List.nodup_cons.mpr ⟨gone, taken.distinct⟩)
    · intro other service' stored
      rw [inserted, lookup_insert] at stored
      split_ifs at stored with own
      · cases stored
        simp only [request, outgoing, Outgoing.packet, Packet.request.injEq] at is
        obtain ⟨-, rfl, rfl, -⟩ := is
        refine ⟨n, svc, text_nameField_notify notify, own ▸ sent, ?_⟩
        exact (findSvc _).trans found
      · obtain ⟨m, svc', listens, before, named⟩ := wired.subscribed other service' stored
        exact ⟨m, svc', listens, before, (findSvc _).trans named⟩

/-- A method is done. -/
theorem Wired.complete {k : Nat} {completion : Completion} (wired : w.Wired codec calls)
    (found : w.pending[k]? = some completion.invocation) :
    ({ w with
      pending := w.pending.eraseIdx k
      answered := w.answered ++ [completion] } : Exchange).Wired codec calls ∧
      ∃ n, w.Sent n completion.invocation.id := by
  have fewer : (Exchange.requested { w with
      pending := w.pending.eraseIdx k
      answered := w.answered ++ [completion] }).Sublist w.requested := by
    unfold Exchange.requested
    exact (((List.eraseIdx_sublist _ _).map _).append_left _).append_right _
  refine ⟨{ wired with requested := ?_, distinct := wired.distinct.sublist fewer }, ?_⟩
  · exact fun id member => wired.requested id (fewer.subset member)
  · refine wired.requested _ ?_
    exact List.mem_append_left _ (List.mem_append_right _
      (List.mem_map_of_mem (List.mem_of_getElem? found)))

/-- A request is refused, registers a service under its id, or has a method invoked. -/
theorem serve_cases (server : Server.RpcChannel) (allocated : Bool) (id : UInt32)
    (service method : CStr) (body : List UInt8) :
    ((∃ ec, (server.processRequest allocated id service method body).1 = .refused ec) ∧
        (server.processRequest allocated id service method body).2 = server) ∨
      (∃ svc index, (server.processRequest allocated id service method body).1 = .registered ∧
        strcmp method.bytes methodNotify.bytes = 0 ∧ server.findSvc service = some (svc, index) ∧
        (server.processRequest allocated id service method body).2 =
          server.registerNotify id index) ∨
      ∃ invocation,
        (server.processRequest allocated id service method body).1 = .invoked invocation ∧
        invocation.id = id ∧
        (server.processRequest allocated id service method body).2 = server := by
  unfold Server.RpcChannel.processRequest
  split
  · exact .inl ⟨⟨_, rfl⟩, rfl⟩
  · next svc index found =>
      simp only
      split_ifs with unknown notify bad unallocated
      · exact .inl ⟨⟨_, rfl⟩, rfl⟩
      · exact .inr (.inl ⟨svc, index, rfl, notify.1, found, rfl⟩)
      · exact .inl ⟨⟨_, rfl⟩, rfl⟩
      · exact .inl ⟨⟨_, rfl⟩, rfl⟩
      · exact .inr (.inr ⟨_, rfl, rfl, rfl⟩)

end Exchange

namespace Feed

/-- What each step of a feed does. -/
inductive Transition (codec : Codec) (calls : Nat → Call) (w : Feed) : FeedMove → Feed → Prop where
  | client {action : Action} {client : World} (here : Local action = true)
      (moved : w.exchange.client.step calls action = some client) :
      Transition codec calls w (.exchange (.call action))
        { w with exchange := { w.exchange with client := client } }
  | send {n : Nat} {id : UInt32} {conn : Int} {client : World}
      (drew : w.exchange.client.drawn n = some id)
      (moved : w.exchange.client.step calls
        (.send n (transmit codec conn (outgoing (calls n) id)).1) = some client) :
      Transition codec calls w (.exchange (.send n conn)) { w with
        exchange := { w.exchange with
          client := client
          toServer := w.exchange.toServer ++ (transmit codec conn (outgoing (calls n) id)).2 } }
  | refused {allocated : Bool} {id : UInt32} {service method : CharArray 64} {body : List UInt8}
      {rest : List Packet} {ec : Int32} {conn : Int}
      (queue : w.exchange.toServer = .request id service method body :: rest) :
      Transition codec calls w (.exchange (.serve allocated conn)) { w with
        exchange := { w.exchange with
          toServer := rest
          toClient := w.exchange.toClient ++ (transmit codec conn (.response id ec none)).2 } }
  | registered {allocated : Bool} {conn : Int} {id : UInt32} {service method : CharArray 64}
      {body : List UInt8} {rest : List Packet} {svc : Server.RpcService} {index : Nat}
      (queue : w.exchange.toServer = .request id service method body :: rest)
      (notify : strcmp method.text.bytes methodNotify.bytes = 0)
      (found : w.exchange.server.findSvc service.text = some (svc, index)) :
      Transition codec calls w (.exchange (.serve allocated conn)) { w with
        exchange := { w.exchange with
          server := w.exchange.server.registerNotify id index
          toServer := rest } }
  | invoked {allocated : Bool} {conn : Int} {id : UInt32} {service method : CharArray 64}
      {body : List UInt8} {rest : List Packet} {invocation : Invocation}
      (queue : w.exchange.toServer = .request id service method body :: rest)
      (same : invocation.id = id) :
      Transition codec calls w (.exchange (.serve allocated conn)) { w with
        exchange := { w.exchange with
          toServer := rest
          pending := w.exchange.pending ++ [invocation]
          invoked := w.exchange.invoked ++ [invocation] } }
  | answered {k : Nat} {filled : RpcMessage} {failed : Bool} {completion : Completion} {conn : Int}
      (found : w.exchange.pending[k]? = some completion.invocation) :
      Transition codec calls w (.exchange (.answer k filled failed conn)) { w with
        exchange := { w.exchange with
          pending := w.exchange.pending.eraseIdx k
          answered := w.exchange.answered ++ [completion]
          toClient := w.exchange.toClient ++ (transmit codec conn completion.outgoing).2 } }
  | delivered {id : UInt32} {code : Int32} {text : CharArray 64} {body : List UInt8}
      {rest : List Packet} {client : World}
      (queue : w.exchange.toClient = .response id code text body :: rest)
      (moved : w.exchange.client.step calls (.respond id code body) = some client) :
      Transition codec calls w (.exchange .deliver) { w with
        exchange := { w.exchange with client := client, toClient := rest } }
  | silent {service : Nat} {msg : RpcMessage} {conn : Int} :
      Transition codec calls w (.notify service msg conn) w
  | published {id : UInt32} {service : Nat} {msg : RpcMessage} {conn : Int}
      (stored : w.exchange.server.requests.lookup id = some service) :
      Transition codec calls w (.notify service msg conn) {
        exchange := { w.exchange with
          toClient := w.exchange.toClient ++
            (transmit codec conn (.response id 0 (some msg))).2 }
        published := w.published ++ (transmit codec conn (.response id 0 (some msg))).2.map
          fun _ => (service, (Outgoing.response id 0 (some msg)).body codec) }

variable {codec : Codec} {calls : Nat → Call} {w next : Feed}

/-- Every step is one of the listed transitions. -/
theorem step_transition {move : FeedMove} (transition : w.step codec calls move = some next) :
    Transition codec calls w move next := by
  cases move with
  | exchange move =>
      obtain ⟨exchange, moved, rfl⟩ := Option.map_eq_some_iff.mp transition
      cases move with
      | call action =>
          simp only [Exchange.step] at moved
          split_ifs at moved with here
          obtain ⟨client, stepped, rfl⟩ := Option.map_eq_some_iff.mp moved
          exact .client here stepped
      | send n conn =>
          simp only [Exchange.step] at moved
          cases drew : w.exchange.client.drawn n with
          | none => simp [drew] at moved
          | some id =>
              simp only [drew] at moved
              obtain ⟨client, stepped, rfl⟩ := Option.map_eq_some_iff.mp moved
              exact .send drew stepped
      | serve allocated conn =>
          simp only [Exchange.step] at moved
          split at moved
          · next id service method body rest queue =>
              rcases Exchange.serve_cases w.exchange.server allocated id service.text method.text
                  body with
                ⟨⟨ec, handled⟩, same⟩ | ⟨svc, index, handled, notify, found, after⟩ |
                  ⟨invocation, handled, carries, same⟩
              · simp only [handled, same, Option.some.injEq] at moved
                subst moved
                exact .refused queue
              · simp only [handled, after, Option.some.injEq] at moved
                subst moved
                exact .registered queue notify found
              · simp only [handled, same, Option.some.injEq] at moved
                subst moved
                exact .invoked queue carries
          · cases moved
      | answer k filled failed conn =>
          simp only [Exchange.step] at moved
          split at moved
          · cases moved
          · next invocation found =>
              simp only [Option.some.injEq] at moved
              subst moved
              exact .answered found
      | deliver =>
          simp only [Exchange.step] at moved
          split at moved
          · next id code text body rest queue =>
              obtain ⟨client, stepped, rfl⟩ := Option.map_eq_some_iff.mp moved
              exact .delivered queue stepped
          · cases moved
  | notify service msg conn =>
      simp only [step] at transition
      split at transition
      · cases transition
        exact .silent
      · next entry found =>
          have same : entry.2 = service := by simpa using List.find?_some found
          subst same
          cases transition
          exact .published (AList.mem_lookup_iff.mpr (List.mem_of_find?_eq_some found))

end Feed

end Sdpf.Network
