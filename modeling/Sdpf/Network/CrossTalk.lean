import Sdpf.Network.Exchange
import Sdpf.Msgpack.Wire

/-!
# No cross-talk between calls

A relation id is drawn by one call, is in one request, in at most one invocation, and
the responses that carry it come from that invocation. `Exchange.Linked` says so of the
queues, of the server's records and of the client at once.
-/

namespace Sdpf.Network

open Sdpf.Data Sdpf.Msgpack Sdpf.Channel Sdpf.Semantics Sdpf.Client
open Sdpf.Server (Invocation Completion Handling)

/-- The move draws a relation id. -/
def Move.draws : Move → Bool
  | .call action => action.draws
  | _ => false

namespace Exchange

/-- A drawn id does not wrap. -/
def Unwrapped (w : Exchange) : Move → Prop
  | .call action => w.client.Unwrapped action
  | _ => True

/-- The call has been sent under an id. -/
def Sent (w : Exchange) (n : Nat) (id : UInt32) : Prop :=
  w.client.pc n = .returned 0 ∧ w.client.drawn n = some id

/-- A body that comes with an id is what a method of that id has answered. -/
def Genuine (codec : Codec) (answered : List Completion) (id : UInt32) (code : Int32)
    (body : List UInt8) : Prop :=
  body ≠ [] → ∃ completion ∈ answered, completion.invocation.id = id ∧
    body = completion.outgoing.body codec ∧ (code = 0 → completion.failed = false)

/-- Ids tie together calls, packets, invocations and answers. -/
structure Linked (codec : Codec) (calls : Nat → Call) (w : Exchange) : Prop where
  attributed : w.client.Attributed calls
  once : w.client.Once
  requests : ∀ packet ∈ w.toServer, ∃ n id, w.Sent n id ∧
    packet = (outgoing (calls n) id).packet codec
  invoked : ∀ invocation ∈ w.invoked, ∃ n, w.Sent n invocation.id ∧
    invocation.body = (outgoing (calls n) invocation.id).body codec
  distinct : (w.toServer.map packetId ++ w.invoked.map Invocation.id).Nodup
  pending : ∀ invocation ∈ w.pending, invocation ∈ w.invoked
  answered : ∀ completion ∈ w.answered, completion.invocation ∈ w.invoked
  responses : ∀ id code text body, .response id code text body ∈ w.toClient →
    Genuine codec w.answered id code body
  answering : ∀ answer, w.client.answering = some answer →
    Genuine codec w.answered answer.id answer.code answer.body
  fired : ∀ firing ∈ w.client.fired, ∃ id code, w.client.drawn firing.call = some id ∧
    ¬ (w.client.pc firing.call).Unregistered ∧
    Genuine codec w.answered id code firing.body ∧ (firing.ec = 0 → code = 0)

variable {codec : Codec} {calls : Nat → Call} {w next : Exchange}

/-- An answer stays genuine when others have been given. -/
theorem Genuine.mono {answered : List Completion} {id : UInt32} {code : Int32}
    {body : List UInt8} (genuine : Genuine codec answered id code body)
    (more : List Completion) : Genuine codec (answered ++ more) id code body := by
  intro nonempty
  obtain ⟨completion, member, rest⟩ := genuine nonempty
  exact ⟨completion, List.mem_append_left _ member, rest⟩

/-- Before the first call nothing is to be tied together. -/
theorem Linked.of_initial (initial : w.Initial) : w.Linked codec calls := by
  constructor
  · exact .of_initial initial.client
  · exact .of_initial initial.client
  · simp [initial.toServer]
  · simp [initial.invoked]
  · simp [initial.toServer, initial.invoked]
  · simp [initial.pending]
  · simp [initial.answered]
  · simp [initial.toClient]
  · simp [World.answering, initial.client.phase]
  · simp [initial.client.fired]

/-- A call that has been sent stays sent. -/
theorem Sent.step {action : Action} {client : World} {n : Nat} {id : UInt32} (sent : w.Sent n id)
    (transition : w.client.step calls action = some client) :
    ({ w with client := client } : Exchange).Sent n id := by
  have registered : ¬ (w.client.pc n).Unregistered := by simp [sent.1, Pc.Unregistered]
  refine ⟨World.step_returned sent.1 transition, ?_⟩
  rw [← sent.2]
  exact World.step_drawn transition registered

/-- The client takes a step. -/
theorem Linked.client {action : Action} {client : World} (linked : w.Linked codec calls)
    (apart : Function.Injective fun n => (calls n).ctrl)
    (ordinary : ∀ n, ¬ (calls n).IsNotify) (unwrapped : w.client.Unwrapped action)
    (unclosed : action ≠ .close)
    (genuine : ∀ id code body, action = .respond id code body →
      Genuine codec w.answered id code body)
    (transition : w.client.step calls action = some client) :
    ({ w with client := client } : Exchange).Linked codec calls := by
  have attributed := linked.attributed.step apart unwrapped transition
  constructor
  · exact attributed
  · exact linked.once.step linked.attributed attributed ordinary unclosed transition
  · intro packet member
    obtain ⟨n, id, sent, same⟩ := linked.requests packet member
    exact ⟨n, id, sent.step transition, same⟩
  · intro invocation member
    obtain ⟨n, sent, same⟩ := linked.invoked invocation member
    exact ⟨n, sent.step transition, same⟩
  · exact linked.distinct
  · exact linked.pending
  · exact linked.answered
  · exact linked.responses
  · intro answer now
    rcases World.step_answering transition now with before | ⟨responds, _⟩
    · exact linked.answering answer before
    · exact genuine _ _ _ responds
  · intro firing member
    rcases World.step_fired unclosed transition member with before | ⟨answer, now, call, body, code⟩
    · obtain ⟨id, code, drew, registered, rest⟩ := linked.fired firing before
      refine ⟨id, code, ?_, World.step_registered transition registered, rest⟩
      rw [← drew]
      exact World.step_drawn transition registered
    · obtain ⟨drew, _, registered, _⟩ := linked.attributed.answer answer now
      rw [call, body]
      refine ⟨answer.id, answer.code, ?_, World.step_registered transition registered,
        linked.answering answer now, code⟩
      rw [← drew]
      exact World.step_drawn transition registered

/-- A request is put on its way. -/
theorem Linked.send {n : Nat} {id : UInt32} {conn : Int} {client : World}
    (linked : w.Linked codec calls) (apart : Function.Injective fun n => (calls n).ctrl)
    (ordinary : ∀ n, ¬ (calls n).IsNotify) (drew : w.client.drawn n = some id)
    (transition : w.client.step calls
      (.send n (transmit codec conn (outgoing (calls n) id)).1) = some client) :
    ({ w with
      client := client
      toServer := w.toServer ++ (transmit codec conn (outgoing (calls n) id)).2 } :
        Exchange).Linked codec calls := by
  have unwrapped : ∀ ret, w.client.Unwrapped (.send n ret) := fun _ => trivial
  have moved := linked.client apart ordinary (unwrapped _) (by simp) (by simp) transition
  by_cases sent : (transmit codec conn (outgoing (calls n) id)).1 = 0
  · have packets : (transmit codec conn (outgoing (calls n) id)).2 =
        [(outgoing (calls n) id).packet codec] := if_pos sent
    rw [packets]
    rw [sent] at transition
    have now : ({ w with client := client } : Exchange).Sent n id ∧
        w.client.pc n = .registered := by
      cases World.step_transition transition with
      | sent was connected => exact ⟨⟨by simp [World.setPc], drew⟩, was⟩
      | sendFailed was error => exact absurd rfl error
    have new : id ∉ w.toServer.map packetId ++ w.invoked.map Invocation.id := by
      have other : ∀ m, ¬ w.Sent m id := by
        intro m before
        obtain rfl := linked.attributed.distinct m n id before.2 drew
        rw [before.1] at now
        cases now.2
      rw [List.mem_append, not_or]
      constructor
      · intro queued
        obtain ⟨packet, member, same⟩ := List.mem_map.mp queued
        obtain ⟨m, own, before, rfl⟩ := linked.requests packet member
        obtain rfl : own = id := same
        exact other m before
      · intro recorded
        obtain ⟨invocation, member, same⟩ := List.mem_map.mp recorded
        obtain ⟨m, before, _⟩ := linked.invoked invocation member
        exact other m (same ▸ before)
    refine ⟨moved.attributed, moved.once, ?_, moved.invoked, ?_, moved.pending, moved.answered,
      moved.responses, moved.answering, moved.fired⟩
    · intro packet member
      rcases List.mem_append.mp member with before | added
      · exact moved.requests packet before
      · exact ⟨n, id, now.1, List.mem_singleton.mp added⟩
    · simp only [List.map_append, List.map_cons, List.map_nil, List.append_assoc]
      refine (List.perm_middle.nodup_iff).mpr (List.nodup_cons.mpr ⟨?_, linked.distinct⟩)
      exact new
  · have packets : (transmit codec conn (outgoing (calls n) id)).2 = [] := if_neg sent
    rw [packets, List.append_nil]
    exact moved

/-- A response is put on its way. -/
theorem Linked.respond {id : UInt32} {code : Int32} {msg : Option RpcMessage} {conn : Int}
    (linked : w.Linked codec calls)
    (genuine : Genuine codec w.answered id code ((Outgoing.response id code msg).body codec)) :
    ({ w with toClient := w.toClient ++ (transmit codec conn (.response id code msg)).2 } :
      Exchange).Linked codec calls := by
  refine { linked with responses := ?_ }
  intro other otherCode text body member
  rcases List.mem_append.mp member with before | added
  · exact linked.responses other otherCode text body before
  · cases (mem_transmit added).2
    exact genuine

/-- The server takes a request from the queue. -/
theorem Linked.take {packet : Packet} {rest : List Packet} (server : Server.RpcChannel)
    (linked : w.Linked codec calls) (queue : w.toServer = packet :: rest) :
    ({ w with server := server, toServer := rest } : Exchange).Linked codec calls := by
  refine { linked with requests := ?_, distinct := ?_ }
  · intro other member
    exact linked.requests other (queue ▸ List.mem_cons_of_mem _ member)
  · have distinct := linked.distinct
    rw [queue, List.map_cons, List.cons_append] at distinct
    exact (List.nodup_cons.mp distinct).2

/-- The server invokes a method for a request. -/
theorem Linked.invoke {id : UInt32} {service method : CharArray 64} {body : List UInt8}
    {rest : List Packet} {server : Server.RpcChannel} {invocation : Invocation}
    (linked : w.Linked codec calls) (queue : w.toServer = .request id service method body :: rest)
    (carries : invocation.id = id ∧ invocation.body = body) :
    ({ w with
      server := server
      toServer := rest
      pending := w.pending ++ [invocation]
      invoked := w.invoked ++ [invocation] } : Exchange).Linked codec calls := by
  have taken := linked.take server queue
  refine { taken with invoked := ?_, distinct := ?_, pending := ?_, answered := ?_ }
  · intro other member
    rcases List.mem_append.mp member with before | added
    · exact linked.invoked other before
    · obtain rfl := List.mem_singleton.mp added
      obtain ⟨n, own, sent, same⟩ := linked.requests _ (queue ▸ List.mem_cons_self)
      cases same
      rw [carries.1, carries.2]
      exact ⟨n, sent, rfl⟩
  · have distinct := linked.distinct
    rw [queue] at distinct
    rw [List.map_append, ← List.append_assoc]
    refine (List.perm_append_singleton _ _).nodup_iff.mpr ?_
    rw [carries.1]
    exact distinct
  · intro other member
    exact (List.mem_append.mp member).elim
      (fun before => List.mem_append_left _ (linked.pending other before))
      (fun added => List.mem_append_right _ added)
  · exact fun completion member => List.mem_append_left _ (linked.answered completion member)

/-- A method is done. -/
theorem Linked.complete {k : Nat} (completion : Completion) (linked : w.Linked codec calls)
    (found : w.pending[k]? = some completion.invocation) :
    ({ w with
      pending := w.pending.eraseIdx k
      answered := w.answered ++ [completion] } : Exchange).Linked codec calls := by
  refine { linked with
    pending := ?_, answered := ?_, responses := ?_, answering := ?_, fired := ?_ }
  · exact fun invocation member => linked.pending invocation (List.mem_of_mem_eraseIdx member)
  · intro other member
    rcases List.mem_append.mp member with before | added
    · exact linked.answered other before
    · rw [List.mem_singleton.mp added]
      exact linked.pending _ (List.mem_of_getElem? found)
  · exact fun id code text body member => (linked.responses id code text body member).mono _
  · exact fun answer now => (linked.answering answer now).mono _
  · intro firing member
    obtain ⟨id, code, drew, registered, genuine, success⟩ := linked.fired firing member
    exact ⟨id, code, drew, registered, genuine.mono _, success⟩

/-- A move keeps ids tied to their calls. -/
theorem Linked.step {move : Move} (linked : w.Linked codec calls)
    (apart : Function.Injective fun n => (calls n).ctrl)
    (ordinary : ∀ n, ¬ (calls n).IsNotify) (unwrapped : w.Unwrapped move)
    (transition : w.step codec calls move = some next) : next.Linked codec calls := by
  cases move with
  | call action =>
      simp only [Exchange.step] at transition
      split_ifs at transition with here
      obtain ⟨client, moved, rfl⟩ := Option.map_eq_some_iff.mp transition
      refine linked.client apart ordinary unwrapped ?_ ?_ moved
      · rintro rfl
        cases here
      · rintro id code body rfl
        cases here
  | send n conn =>
      simp only [Exchange.step] at transition
      cases drew : w.client.drawn n with
      | none => simp [drew] at transition
      | some id =>
          simp only [drew] at transition
          obtain ⟨client, moved, rfl⟩ := Option.map_eq_some_iff.mp transition
          exact linked.send apart ordinary drew moved
  | serve allocated conn =>
      simp only [Exchange.step] at transition
      split at transition
      · next id service method body rest queue =>
          split at transition
          · cases transition
            exact (linked.take _ queue).respond fun nonempty => absurd rfl nonempty
          · cases transition
            exact linked.take _ queue
          · next invocation handled =>
              cases transition
              exact linked.invoke queue (Server.RpcChannel.processRequest_invoked handled)
      · cases transition
  | answer k filled failed conn =>
      simp only [Exchange.step] at transition
      split at transition
      · cases transition
      · next invocation found =>
          cases transition
          refine (linked.complete ⟨invocation, _, failed⟩ found).respond fun _ =>
            ⟨_, List.mem_append_right _ (List.mem_singleton_self _), rfl, rfl, ?_⟩
          cases failed
          · exact fun _ => rfl
          · intro success
            cases success
  | deliver =>
      simp only [Exchange.step] at transition
      split at transition
      · next id code text body rest queue =>
          obtain ⟨client, moved, rfl⟩ := Option.map_eq_some_iff.mp transition
          have genuine := linked.responses id code text body (queue ▸ List.mem_cons_self)
          have unwrapped : w.client.Unwrapped (.respond id code body) := trivial
          have delivered := linked.client apart ordinary unwrapped (by simp)
            (by rintro _ _ _ ⟨rfl, rfl, rfl⟩; exact genuine) moved
          refine { delivered with responses := ?_ }
          exact fun other otherCode text body member =>
            linked.responses other otherCode text body (queue ▸ List.mem_cons_of_mem _ member)
      · cases transition

/-- A move draws one id at most. -/
theorem step_id {move : Move} (transition : w.step codec calls move = some next) :
    next.client.ch.id.toNat ≤ w.client.ch.id.toNat + if move.draws then 1 else 0 := by
  cases move with
  | call action =>
      simp only [Exchange.step] at transition
      split_ifs at transition
      obtain ⟨client, moved, rfl⟩ := Option.map_eq_some_iff.mp transition
      exact World.step_id moved
  | send n conn =>
      simp only [Exchange.step] at transition
      split at transition
      · cases transition
      · obtain ⟨client, moved, rfl⟩ := Option.map_eq_some_iff.mp transition
        exact World.step_id moved
  | serve allocated conn =>
      simp only [Exchange.step] at transition
      split at transition
      · split at transition <;> cases transition <;> exact Nat.le_add_right _ _
      · cases transition
  | answer k filled failed conn =>
      simp only [Exchange.step] at transition
      split at transition <;> cases transition
      exact Nat.le_add_right _ _
  | deliver =>
      simp only [Exchange.step] at transition
      split at transition
      · obtain ⟨client, moved, rfl⟩ := Option.map_eq_some_iff.mp transition
        exact World.step_id moved
      · cases transition

/-- The ids are counted by the moves that draw them. -/
theorem runs_id {start : Exchange} {moves : List Move} (initial : start.Initial)
    (runs : (exchangeMachine codec calls).Runs start moves w) :
    w.client.ch.id.toNat ≤ moves.countP Move.draws := by
  induction runs with
  | refl => simp [initial.client.id]
  | @step moves state move next prior transition ih =>
      have moved := step_id transition
      rw [List.countP_append, List.countP_singleton]
      omega

/-- The invocations for a call. -/
def invocations (w : Exchange) (n : Nat) : List Invocation :=
  w.invoked.filter fun invocation => w.client.drawn n = some invocation.id

/-- Each call is invoked at most once, for its own request, and completed at most once;
a body that comes with success is what its own invocation has answered. -/
theorem no_cross_talk {start finish : Exchange} {moves : List Move}
    (apart : Function.Injective fun n => (calls n).ctrl) (ordinary : ∀ n, ¬ (calls n).IsNotify)
    (initial : start.Initial) (runs : (exchangeMachine codec calls).Runs start moves finish)
    (few : moves.countP Move.draws < 2 ^ 32) :
    (∀ n, (finish.invocations n).length ≤ 1 ∧ (finish.client.firings n).length ≤ 1) ∧
    (∀ invocation ∈ finish.invoked, ∃ n, finish.client.drawn n = some invocation.id ∧
      invocation.body = (outgoing (calls n) invocation.id).body codec) ∧
    ∀ firing ∈ finish.client.fired, firing.ec = 0 → firing.body ≠ [] →
      ∃ completion ∈ finish.answered, completion.failed = false ∧
        finish.client.drawn firing.call = some completion.invocation.id ∧
        completion.invocation ∈ finish.invoked ∧
        completion.invocation.body =
          (outgoing (calls firing.call) completion.invocation.id).body codec ∧
        firing.body = completion.outgoing.body codec := by
  have linked : finish.Linked codec calls := by
    refine runs.guarded (Linked codec calls)
      (fun linked unwrapped => linked.step apart ordinary unwrapped) (.of_initial initial)
      (runs.along_of fun {before state move after} prior same => ?_)
    have drawn := runs_id initial prior
    cases move with
    | call action =>
        cases action with
        | mark n =>
            rw [same, List.countP_append, List.countP_cons_of_pos rfl] at few
            simp only [Unwrapped, World.Unwrapped]
            omega
        | _ => trivial
    | _ => trivial
  refine ⟨fun n => ⟨?_, linked.once.firings n⟩, ?_, ?_⟩
  · have distinct := (List.nodup_append.mp linked.distinct).2.1
    cases drew : finish.client.drawn n with
    | none => simp [invocations, drew]
    | some id =>
        have counted := List.nodup_iff_count_le_one.mp distinct id
        rw [List.count, List.countP_map, List.countP_eq_length_filter] at counted
        refine Nat.le_trans (Nat.le_of_eq (congrArg List.length (List.filter_congr ?_))) counted
        intro invocation _
        simp only [drew, Option.some.injEq]
        exact decide_eq_decide.mpr eq_comm
  · intro invocation member
    obtain ⟨n, sent, same⟩ := linked.invoked invocation member
    exact ⟨n, sent.2, same⟩
  · intro firing member success nonempty
    obtain ⟨id, code, drew, _, genuine, successful⟩ := linked.fired firing member
    obtain ⟨completion, recorded, rfl, body, unfailed⟩ := genuine nonempty
    have invoked := linked.answered completion recorded
    obtain ⟨n, sent, same⟩ := linked.invoked _ invoked
    obtain rfl := linked.attributed.distinct n _ _ sent.2 drew
    exact ⟨completion, recorded, unfailed (successful success), drew, invoked, same, body⟩

/-- Two channels before the first call, and a service "a" with one method. -/
def fresh : Exchange where
  client := .fresh true
  server :=
    ⟨[⟨CStr.ofBlock [0x61], fun _ => 0, fun _ => some (.byte 0), fun _ => some (.byte 0)⟩], ∅⟩
  toServer := []
  toClient := []
  pending := []
  invoked := []
  answered := []

/-- Two channels without calls are an initial exchange. -/
theorem fresh_initial : fresh.Initial := ⟨World.fresh_initial true, rfl, rfl, rfl, rfl, rfl⟩

/-- Calls that send their number. -/
def numberedCalls (n : Nat) : Call :=
  ⟨CStr.ofBlock [0x61], CStr.ofBlock [0x62], some (.byte (UInt8.ofNat n)), some (.byte 0), n⟩

/-- Two calls, registered in one order, sent and answered in the other. -/
def crossing : List Move :=
  [.call (.check 0), .call (.mark 0), .call (.register 0), .call (.check 1), .call (.mark 1),
    .call (.register 1), .send 1 0, .send 0 0, .serve true 0, .serve true 0,
    .answer 1 (.byte 7) false 0, .answer 0 (.byte 8) false 0,
    .deliver, .call .inspect, .call .complete, .call .remark,
    .deliver, .call .inspect, .call .complete, .call .remark]

/-- Two calls are answered in the other order, and each gets its own answer. -/
theorem no_cross_talk_crossing :
    ∃ finish, (exchangeMachine Wire.codec numberedCalls).Runs fresh crossing finish ∧
      finish.client.fired = [⟨0, 0, 0, [7]⟩, ⟨1, 1, 0, [8]⟩] ∧
      ∃ completion ∈ finish.answered,
        finish.client.drawn 0 = some completion.invocation.id ∧
        completion.invocation.body =
          (outgoing (numberedCalls 0) completion.invocation.id).body Wire.codec ∧
        [7] = completion.outgoing.body Wire.codec := by
  have ran : ((exchangeMachine Wire.codec numberedCalls).run fresh crossing).map
      (fun finish => finish.client.fired) = some [⟨0, 0, 0, [7]⟩, ⟨1, 1, 0, [8]⟩] := by
    decide +kernel
  obtain ⟨finish, executed, fired⟩ := Option.map_eq_some_iff.mp ran
  have runs := Machine.Runs.of_run executed
  have ordinary : ∀ n, ¬ (numberedCalls n).IsNotify := fun n => show ¬ strcmp [0x62] _ = 0 by decide
  obtain ⟨_, _, own⟩ := no_cross_talk (fun _ _ same => same) ordinary fresh_initial runs (by decide)
  have member : (⟨0, 0, 0, [7]⟩ : Firing) ∈ finish.client.fired := fired ▸ List.mem_cons_self
  obtain ⟨completion, recorded, _, drew, _, body, answer⟩ := own _ member rfl (List.cons_ne_nil _ _)
  exact ⟨finish, runs, fired, completion, recorded, drew, body, answer⟩

end Exchange

end Sdpf.Network
