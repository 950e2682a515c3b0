import Sdpf.Network.Carrier
import Sdpf.Network.Settlement
import Sdpf.Network.Wire
import Sdpf.Semantics.Simulation

/-!
# The packets behind the bytes

What two channels do over a connection is what they do over an unreliable carrier of whole
packets: the parser of one side finds exactly the frames that the other side has put into
its queue, however their bytes were divided, and nothing else. Packets get lost only where
a queue is full or libuv refuses a write, and overtake each other only where a thread of
the user posts and the loop sends at once.
-/

namespace Sdpf.Network

open Sdpf.Data Sdpf.Buffer Sdpf.Msgpack Sdpf.Channel Sdpf.Semantics Sdpf.Client Sdpf.Connection
open Sdpf.Server (Invocation Completion Handling)

/-- The packet is a request. -/
def isRequest : Packet → Bool
  | .request _ _ _ _ => true
  | .response _ _ _ _ => false

/-- Requests go to the server, responses to the client. -/
structure Aimed (toServer toClient : List Packet) : Prop where
  toServer : ∀ packet ∈ toServer, isRequest packet = true
  toClient : ∀ packet ∈ toClient, isRequest packet = false

/-- The carrier, which loses nothing if it is `lossless`; then answers are sent as well. -/
abbrev steadyMachine (codec : Codec) (calls : Nat → Call) (lossless : Bool) :
    Machine Exchange Passage :=
  (carrierMachine codec calls).restrict fun x passage =>
    lossless = true → x.Faithful codec passage

section Carrier

variable {codec : Codec} {calls : Nat → Call} {lossless : Bool} {x : Exchange}
  {up down : List Packet}

/-- A move of a party is one of the carrier's. -/
theorem party_step {move : Move} {y : Exchange} (answers : lossless = true → x.Answers codec move)
    (moved : x.step codec calls move = some y) :
    (steadyMachine codec calls lossless).step x (.party move) = some y :=
  (if_pos answers).trans moved

/-- Packets of one direction have overtaken each other, or there was no room for some. -/
def Rerouted (lossless : Bool) (before after : List Packet) : Prop :=
  after.Perm before ∨ after.Sublist before ∧ lossless = false

/-- A carrier invents no packet. -/
theorem Rerouted.subset {before after : List Packet} (rerouted : Rerouted lossless before after) :
    after ⊆ before :=
  rerouted.elim List.Perm.subset fun lost => lost.1.subset

/-- What is known of a queue says which way it was rerouted. -/
theorem Rerouted.of_room {before after : List Packet} {clear : Prop}
    (room : lossless = true → clear)
    (kept : after.Perm before ∨ after.Sublist before ∧ ¬ clear) :
    Rerouted lossless before after :=
  kept.imp id fun lost => ⟨lost.1, Bool.eq_false_iff.mpr fun yes => lost.2 (room yes)⟩

/-- Wherever they are put, packets keep their kind. -/
theorem Aimed.reroute (aimed : Aimed x.toServer x.toClient)
    (toServer : Rerouted lossless x.toServer up) (toClient : Rerouted lossless x.toClient down) :
    Aimed up down :=
  ⟨fun packet member => aimed.toServer packet (toServer.subset member),
    fun packet member => aimed.toClient packet (toClient.subset member)⟩

/-- The carrier can do to one queue what the connection has done. -/
theorem reroute (codec : Codec) (calls : Nat → Call)
    (rerouted : Rerouted lossless x.toServer up ∧ down = x.toClient ∨
      up = x.toServer ∧ Rerouted lossless x.toClient down) :
    ∃ passage, passage.draws = false ∧ (steadyMachine codec calls lossless).step x passage =
      some { x with toServer := up, toClient := down } := by
  rcases rerouted with ⟨permuted | ⟨fewer, lossy⟩, rfl⟩ | ⟨rfl, permuted | ⟨fewer, lossy⟩⟩
  · exact ⟨.reorder up x.toClient, rfl, (if_pos fun _ => trivial).trans
      (if_pos ⟨permuted, .refl _⟩)⟩
  · exact ⟨.lose up x.toClient, rfl, (if_pos fun yes => by simp [lossy] at yes).trans
      (if_pos ⟨fewer, .refl _⟩)⟩
  · exact ⟨.reorder x.toServer down, rfl, (if_pos fun _ => trivial).trans
      (if_pos ⟨.refl _, permuted⟩)⟩
  · exact ⟨.lose x.toServer down, rfl, (if_pos fun yes => by simp [lossy] at yes).trans
      (if_pos ⟨.refl _, fewer⟩)⟩

end Carrier

/-- Moves that stand for a move on the wire draw an id only if it does. -/
def Stands (move : WireMove) (passages : List Passage) : Prop :=
  passages.countP Passage.draws ≤ if move.draws then 1 else 0

namespace WireExchange

/-- The exchange as an observer sees it who can see packets only. -/
def image (w : WireExchange) (toServer toClient : List Packet) : Exchange where
  client := w.client
  server := w.server
  toServer := toServer
  toClient := toClient
  pending := w.pending
  invoked := w.invoked
  answered := w.answered

/-- The packets on their way, as the bytes between the parties tell. -/
structure Shows (codec : Codec) (w : WireExchange) (x : Exchange) : Prop where
  sound : w.fault = false
  same : x = w.image x.toServer x.toClient
  conveys : Conveys codec w.link x.toServer x.toClient
  aimed : Aimed x.toServer x.toClient

section Steps

variable {codec : Codec} {wild : Nat → UInt8} {calls : Nat → Call} {lossless : Bool}
  {w next : WireExchange} {x : Exchange} {up down : List Packet}

/-- What the connection did to the packets of one direction, after a move of a party. -/
theorem matched (move : WireMove) {party : Move} {y : Exchange}
    (draws : (if party.draws then 1 else 0) ≤ if move.draws then 1 else 0)
    (stepped : (steadyMachine codec calls lossless).step x (.party party) = some y)
    (rerouted : Rerouted lossless y.toServer up ∧ down = y.toClient ∨
      up = y.toServer ∧ Rerouted lossless y.toClient down) :
    ∃ passages, Stands move passages ∧ (steadyMachine codec calls lossless).Runs x passages
      { y with toServer := up, toClient := down } := by
  obtain ⟨passage, quiet, moved⟩ := reroute codec calls rerouted
  refine ⟨[.party party, passage], ?_, .cons stepped (.cons moved .refl)⟩
  have nothing : [passage].countP Passage.draws = 0 := by simp [quiet]
  rw [Stands, List.countP_cons, nothing, Nat.zero_add]
  exact draws

/-- The same, without a move of a party. -/
theorem matched_quiet (move : WireMove)
    (rerouted : Rerouted lossless x.toServer up ∧ down = x.toClient ∨
      up = x.toServer ∧ Rerouted lossless x.toClient down) :
    ∃ passages, Stands move passages ∧ (steadyMachine codec calls lossless).Runs x passages
      { x with toServer := up, toClient := down } := by
  obtain ⟨passage, quiet, moved⟩ := reroute codec calls rerouted
  refine ⟨[passage], ?_, .cons moved .refl⟩
  simp [Stands, quiet]

/-- What is transmitted is a request or a response, as it was meant. -/
theorem aimed_transmit {conn : Int} {out : Outgoing} {packet : Packet}
    (member : packet ∈ (transmit codec conn out).2) : isRequest packet = match out with
      | .request _ _ _ _ => true
      | .response _ _ _ => false := by
  obtain ⟨_, rfl⟩ := mem_transmit member
  cases out <;> rfl

/-- A step of a thread of the client. -/
theorem Shows.call {action : Action} (shows : w.Shows codec x)
    (taken : w.step codec wild calls (.call action) = some next) :
    ∃ passages y, Stands (.call action) passages ∧
      (steadyMachine codec calls lossless).Runs x passages y ∧ next.Shows codec y := by
  simp only [WireExchange.step] at taken
  split_ifs at taken with here
  obtain ⟨client, moved, rfl⟩ := Option.map_eq_some_iff.mp taken
  have stepped : x.step codec calls (.call action) = some { x with client := client } := by
    rw [shows.same]
    simp only [Exchange.step, if_pos here, image, moved, Option.map_some]
  have answers : lossless = true → x.Answers codec (.call action) := fun _ => trivial
  obtain ⟨passages, stands, runs⟩ := matched (.call action) (Nat.le_refl _)
    (party_step answers stepped) (.inl ⟨.inl (.refl _), rfl⟩)
  exact ⟨passages, _, stands, runs, shows.sound, by rw [shows.same]; rfl, shows.conveys,
    shows.aimed⟩

/-- A request is sent. -/
theorem Shows.send {n : Nat} {route : Route} (shows : w.Shows codec x) (law : codec.Lawful)
    (room : lossless = true → w.link.near.Clear route)
    (taken : w.step codec wild calls (.send n route) = some next) :
    ∃ passages y, Stands (.send n route) passages ∧
      (steadyMachine codec calls lossless).Runs x passages y ∧ next.Shows codec y := by
  simp only [WireExchange.step] at taken
  cases drew : w.client.drawn n with
  | none => simp [drew] at taken
  | some id =>
      simp only [drew] at taken
      obtain ⟨client, moved, rfl⟩ := Option.map_eq_some_iff.mp taken
      obtain ⟨answer, up, conveys, kept⟩ :=
        shows.conveys.sendPacket law route (outgoing (calls n) id)
      rw [answer] at moved
      have stepped : x.step codec calls (.send n route.answer) = some { x with
          client := client
          toServer := x.toServer ++ (transmit codec route.answer (outgoing (calls n) id)).2 } := by
        rw [shows.same]
        simp only [Exchange.step, image, drew, moved, Option.map_some]
      have answers : lossless = true → x.Answers codec (.send n route.answer) := fun _ => trivial
      have rerouted := Rerouted.of_room room kept
      obtain ⟨passages, stands, runs⟩ := matched (.send n route) (Nat.le_refl _)
        (party_step answers stepped) (.inl ⟨rerouted, rfl⟩)
      refine ⟨passages, _, stands, runs, shows.sound, by rw [shows.same]; rfl, conveys, ?_,
        shows.aimed.toClient⟩
      intro packet member
      rcases List.mem_append.mp (rerouted.subset member) with before | now
      · exact shows.aimed.toServer packet before
      · exact aimed_transmit now

/-- A method is done. -/
theorem Shows.answer {k : Nat} {filled : RpcMessage} {failed : Bool} {route : Route}
    (shows : w.Shows codec x) (law : codec.Lawful)
    (room : lossless = true → w.Roomy codec (.answer k filled failed route))
    (taken : w.step codec wild calls (.answer k filled failed route) = some next) :
    ∃ passages y, Stands (.answer k filled failed route) passages ∧
      (steadyMachine codec calls lossless).Runs x passages y ∧ next.Shows codec y := by
  simp only [WireExchange.step] at taken
  cases found : w.pending[k]? with
  | none => simp [found] at taken
  | some invocation =>
      simp only [found] at taken
      cases taken
      obtain ⟨answer, down, conveys, kept⟩ := shows.conveys.flip.sendPacket law route
        (Completion.outgoing ⟨invocation, invocation.response.map fun _ => filled, failed⟩)
      have stepped : x.step codec calls (.answer k filled failed route.answer) = some { x with
          pending := x.pending.eraseIdx k
          answered := x.answered ++
            [⟨invocation, invocation.response.map fun _ => filled, failed⟩]
          toClient := x.toClient ++ (transmit codec route.answer (Completion.outgoing
            ⟨invocation, invocation.response.map fun _ => filled, failed⟩)).2 } := by
        rw [shows.same]
        simp only [Exchange.step, image, found]
      have answers : lossless = true →
          x.Answers codec (.answer k filled failed route.answer) := by
        intro yes other member
        rw [shows.same] at member
        obtain ⟨_, sent⟩ := room yes
        obtain rfl : invocation = other := Option.some.inj (found.symm.trans member)
        exact answer.symm.trans (sent invocation found)
      have rerouted := Rerouted.of_room (fun yes => (room yes).1) kept
      obtain ⟨passages, stands, runs⟩ := matched (.answer k filled failed route) (Nat.le_refl _)
        (party_step answers stepped) (.inr ⟨rfl, rerouted⟩)
      refine ⟨passages, _, stands, runs, shows.sound, by rw [shows.same]; rfl, conveys.flip,
        shows.aimed.toServer, ?_⟩
      intro packet member
      rcases List.mem_append.mp (rerouted.subset member) with before | now
      · exact shows.aimed.toClient packet before
      · exact aimed_transmit now

/-- The loop of the client's end. -/
theorem Shows.clientLoop {event : Event} (shows : w.Shows codec x)
    (room : lossless = true → w.link.Roomy event)
    (taken : w.step codec wild calls (.clientLoop event) = some next) :
    ∃ passages y, Stands (.clientLoop event) passages ∧
      (steadyMachine codec calls lossless).Runs x passages y ∧ next.Shows codec y := by
  obtain ⟨link, moved, rfl⟩ := Option.map_eq_some_iff.mp taken
  obtain ⟨up, conveys, kept⟩ := shows.conveys.step moved
  have rerouted := Rerouted.of_room room (kept.imp (fun same => .of_eq same) id)
  obtain ⟨passages, stands, runs⟩ := matched_quiet (.clientLoop event) (.inl ⟨rerouted, rfl⟩)
  exact ⟨passages, _, stands, runs, shows.sound, by rw [shows.same]; rfl, conveys,
    shows.aimed.reroute rerouted (.inl (.refl _))⟩

/-- The loop of the server's end. -/
theorem Shows.serverLoop {event : Event} (shows : w.Shows codec x)
    (room : lossless = true → w.link.flip.Roomy event)
    (taken : w.step codec wild calls (.serverLoop event) = some next) :
    ∃ passages y, Stands (.serverLoop event) passages ∧
      (steadyMachine codec calls lossless).Runs x passages y ∧ next.Shows codec y := by
  obtain ⟨link, moved, rfl⟩ := Option.map_eq_some_iff.mp taken
  obtain ⟨down, conveys, kept⟩ := shows.conveys.flip.step moved
  have rerouted := Rerouted.of_room room (kept.imp (fun same => .of_eq same) id)
  obtain ⟨passages, stands, runs⟩ := matched_quiet (.serverLoop event) (.inr ⟨rfl, rerouted⟩)
  exact ⟨passages, _, stands, runs, shows.sound, by rw [shows.same]; rfl, conveys.flip,
    shows.aimed.reroute (.inl (.refl _)) rerouted⟩

/-- `on_recv` of the client looks at its buffer: it takes up a response or returns. -/
theorem Shows.receive (shows : w.Shows codec x)
    (taken : w.step codec wild calls .receive = some next) :
    ∃ passages y, Stands .receive passages ∧
      (steadyMachine codec calls lossless).Runs x passages y ∧ next.Shows codec y := by
  simp only [WireExchange.step] at taken
  split_ifs at taken with running
  have busy : .received ∈ w.link.near.conn.stack := List.mem_of_mem_head? running.1
  rcases shows.conveys.parse wild busy with
    ⟨packet, rest, n, queue, positive, parsed, popped⟩ | ⟨parsed, left⟩
  · have forward : (0 : Int) < n := Int.natCast_pos.mpr positive
    simp only [parsed, if_neg (Int.not_lt.mpr (Int.le_of_lt forward)), Endpoint.moveOn,
      if_pos forward, Int.toNat_natCast, Option.bind_some] at taken
    cases packet with
    | request id service method body =>
        have other := shows.aimed.toClient _ (queue ▸ List.mem_cons_self)
        cases other
    | response id code text body =>
        obtain ⟨client, moved, rfl⟩ := Option.map_eq_some_iff.mp taken
        have stepped : x.step codec calls .deliver =
            some { x with client := client, toClient := rest } := by
          simp only [Exchange.step, queue]
          rw [shows.same]
          simp only [image, moved, Option.map_some]
        have answers : lossless = true → x.Answers codec .deliver := fun _ => trivial
        obtain ⟨passages, stands, runs⟩ := matched .receive (Nat.le_refl _)
          (party_step answers stepped) (.inl ⟨.inl (.refl _), rfl⟩)
        refine ⟨passages, _, stands, runs, shows.sound, by rw [shows.same]; rfl, popped,
          shows.aimed.toServer, fun packet member => ?_⟩
        exact shows.aimed.toClient packet (queue ▸ List.mem_cons_of_mem _ member)
  · simp only [parsed, lt_irrefl, if_false, Endpoint.moveOn, Option.bind_eq_some_iff] at taken
    obtain ⟨near, returned, same⟩ := taken
    cases same
    obtain ⟨passages, stands, runs⟩ := matched_quiet .receive (.inl ⟨.inl (.refl _), rfl⟩)
    exact ⟨passages, _, stands, runs, shows.sound, by rw [shows.same]; rfl, left near returned,
      shows.aimed⟩

/-- `on_recv` of the server looks at its buffer: it serves a request or returns. -/
theorem Shows.serve {allocated : Bool} {route : Route} (shows : w.Shows codec x)
    (law : codec.Lawful)
    (room : lossless = true → w.link.far.Clear route ∧ route ≠ .down)
    (taken : w.step codec wild calls (.serve allocated route) = some next) :
    ∃ passages y, Stands (.serve allocated route) passages ∧
      (steadyMachine codec calls lossless).Runs x passages y ∧ next.Shows codec y := by
  simp only [WireExchange.step] at taken
  split_ifs at taken with running
  have busy : .received ∈ w.link.flip.near.conn.stack := List.mem_of_mem_head? running
  have answers : lossless = true → x.Answers codec (.serve allocated route.answer) := by
    intro yes
    obtain ⟨_, up⟩ := room yes
    cases route with
    | down => exact absurd rfl up
    | posted => rfl
    | direct wr => rfl
  rcases shows.conveys.flip.parse wild busy with
    ⟨packet, rest, n, queue, positive, parsed, popped⟩ | ⟨parsed, left⟩
  · have forward : (0 : Int) < n := Int.natCast_pos.mpr positive
    simp only [Link.flip] at parsed
    simp only [parsed, if_neg (Int.not_lt.mpr (Int.le_of_lt forward)), Endpoint.moveOn,
      if_pos forward, Int.toNat_natCast, Option.map_some] at taken
    cases packet with
    | response id code text body =>
        have other := shows.aimed.toServer _ (queue ▸ List.mem_cons_self)
        cases other
    | request id service method body =>
        have fewer : ∀ packet ∈ rest, isRequest packet = true := fun packet member =>
          shows.aimed.toServer packet (queue ▸ List.mem_cons_of_mem _ member)
        cases taken
        cases handled : (w.server.processRequest allocated id service.text method.text body).1 with
        | refused ec =>
            obtain ⟨_, down, conveys, kept⟩ := popped.sendPacket law route (.response id ec none)
            have rerouted := Rerouted.of_room (fun yes => (room yes).1) kept
            have stepped : x.step codec calls (.serve allocated route.answer) = some { x with
                server := (w.server.processRequest allocated id service.text method.text body).2
                toServer := rest
                toClient := x.toClient ++
                  (transmit codec route.answer (.response id ec none)).2 } := by
              simp only [Exchange.step, queue]
              rw [shows.same]
              simp only [image, handled]
            obtain ⟨passages, stands, runs⟩ := matched (.serve allocated route) (Nat.le_refl _)
              (party_step answers stepped) (.inr ⟨rfl, rerouted⟩)
            simp only [process, handled]
            refine ⟨passages, _, stands, runs, shows.sound, by rw [shows.same]; rfl, conveys.flip,
              fewer, fun packet member => ?_⟩
            rcases List.mem_append.mp (rerouted.subset member) with before | now
            · exact shows.aimed.toClient packet before
            · exact aimed_transmit now
        | registered =>
            have stepped : x.step codec calls (.serve allocated route.answer) = some { x with
                server := (w.server.processRequest allocated id service.text method.text body).2
                toServer := rest } := by
              simp only [Exchange.step, queue]
              rw [shows.same]
              simp only [image, handled]
            obtain ⟨passages, stands, runs⟩ := matched (.serve allocated route) (Nat.le_refl _)
              (party_step answers stepped) (.inl ⟨.inl (.refl _), rfl⟩)
            simp only [process, handled]
            exact ⟨passages, _, stands, runs, shows.sound, by rw [shows.same]; rfl, popped.flip,
              fewer, shows.aimed.toClient⟩
        | invoked invocation =>
            have stepped : x.step codec calls (.serve allocated route.answer) = some { x with
                server := (w.server.processRequest allocated id service.text method.text body).2
                toServer := rest
                pending := x.pending ++ [invocation]
                invoked := x.invoked ++ [invocation] } := by
              simp only [Exchange.step, queue]
              rw [shows.same]
              simp only [image, handled]
            obtain ⟨passages, stands, runs⟩ := matched (.serve allocated route) (Nat.le_refl _)
              (party_step answers stepped) (.inl ⟨.inl (.refl _), rfl⟩)
            simp only [process, handled]
            exact ⟨passages, _, stands, runs, shows.sound, by rw [shows.same]; rfl, popped.flip,
              fewer, shows.aimed.toClient⟩
  · simp only [Link.flip] at parsed
    simp only [parsed, lt_irrefl, if_false, Endpoint.moveOn, Option.map_eq_some_iff] at taken
    obtain ⟨far, returned, rfl⟩ := taken
    obtain ⟨passages, stands, runs⟩ := matched_quiet (.serve allocated route)
      (.inl ⟨.inl (.refl _), rfl⟩)
    exact ⟨passages, _, stands, runs, shows.sound, by rw [shows.same]; rfl,
      (left far returned).flip, shows.aimed⟩

/-- Nothing is on its way between two channels before the first call. -/
theorem Shows.of_initial (initial : w.Initial) : w.Shows codec (w.image [] []) where
  sound := initial.sound
  same := rfl
  conveys := .of_established initial.near initial.far
  aimed := ⟨List.forall_mem_nil _, List.forall_mem_nil _⟩

/-- Two channels before the first call are an initial exchange. -/
theorem Initial.image (initial : w.Initial) : (w.image [] []).Initial :=
  ⟨initial.client, rfl, rfl, initial.pending, initial.invoked, initial.answered⟩

/-- Every step on the wire is some moves of the carrier. -/
theorem Shows.step {move : WireMove} (shows : w.Shows codec x) (law : codec.Lawful)
    (room : lossless = true → w.Roomy codec move)
    (taken : w.step codec wild calls move = some next) :
    ∃ passages y, Stands move passages ∧
      (steadyMachine codec calls lossless).Runs x passages y ∧ next.Shows codec y := by
  cases move with
  | call action => exact shows.call taken
  | send n route => exact shows.send law room taken
  | answer k filled failed route => exact shows.answer law room taken
  | clientLoop event => exact shows.clientLoop room taken
  | serverLoop event => exact shows.serverLoop room taken
  | receive => exact shows.receive taken
  | serve allocated route => exact shows.serve law room taken

end Steps

end WireExchange

/-- The carrier simulates the connection. -/
def transport (codec : Codec) (law : codec.Lawful) (wild : Nat → UInt8) (calls : Nat → Call)
    (lossless : Bool) :
    Simulation (wireMachine codec wild calls) (steadyMachine codec calls lossless)
      (fun w move => lossless = true → w.Roomy codec move) Stands where
  Related w x := w.Shows codec x
  initial {start} initial :=
    ⟨start.image [] [], initial.image, .of_initial initial⟩
  step related meets taken := related.step law meets taken

/-- A body that comes back is what a method has answered to the request of the same call. -/
theorem Exchange.Linked.own {codec : Codec} {calls : Nat → Call} {x : Exchange}
    (linked : x.Linked codec calls) {firing : Firing} (member : firing ∈ x.client.fired)
    (nonempty : firing.body ≠ []) :
    ∃ completion ∈ x.answered, x.client.drawn firing.call = some completion.invocation.id ∧
      completion.invocation.body =
        (outgoing (calls firing.call) completion.invocation.id).body codec ∧
      firing.body = completion.outgoing.body codec := by
  obtain ⟨id, code, drew, _, genuine, _⟩ := linked.fired firing member
  obtain ⟨completion, recorded, rfl, body, _⟩ := genuine nonempty
  obtain ⟨n, sent, same⟩ := linked.invoked _ (linked.answered completion recorded)
  obtain rfl := linked.attributed.distinct n _ _ sent.2 drew
  exact ⟨completion, recorded, drew, same, body⟩

end Sdpf.Network
