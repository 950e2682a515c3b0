import Sdpf.Network.Carrier
import Sdpf.Client.Served
import Sdpf.Server.Answers
import Mathlib.Data.List.Perm.Basic

/-!
# Where calls are

As long as no packet gets lost and every answer is built and handed over, each call that
has been sent is in one place: its request or its answer is on the way, its method has not
finished, or it has been served. `Accounted` is that invariant, and `Truthful` says that
whatever comes back is what the server has decided about the request.
-/

namespace Sdpf.Network

open Sdpf.Data Sdpf.Msgpack Sdpf.Channel Sdpf.Semantics Sdpf.Client
open Sdpf.Server (Invocation Completion Handling)

/-- The server invokes this method for a request. -/
inductive Invokes (server : Server.RpcChannel) : Packet → Invocation → Prop where
  | intro {allocated : Bool} {id : UInt32} {service method : CharArray 64} {body : List UInt8}
      {invocation : Invocation}
      (invoked : (server.processRequest allocated id service.text method.text body).1 =
        .invoked invocation) :
      Invokes server (.request id service method body) invocation

/-- What the server says to a request: the code and the body of its response. -/
inductive Says (codec : Codec) (server : Server.RpcChannel) (answered : List Completion) :
    Packet → Int32 → List UInt8 → Prop where
  | refused {allocated : Bool} {id : UInt32} {service method : CharArray 64} {body : List UInt8}
      {ec : Int32}
      (refused : (server.processRequest allocated id service.text method.text body).1 =
        .refused ec) :
      Says codec server answered (.request id service method body) ec []
  | answered {packet : Packet} {completion : Completion}
      (invokes : Invokes server packet completion.invocation) (member : completion ∈ answered) :
      Says codec server answered packet (if completion.failed then Server.emethodcall else 0)
        (completion.outgoing.body codec)

section Requests

variable {codec : Codec} {server other : Server.RpcChannel}

/-- What becomes of a request depends on the registered services only. -/
theorem processRequest_congr (same : server.services = other.services) (allocated : Bool)
    (id : UInt32) (service method : CStr) (body : List UInt8) :
    (server.processRequest allocated id service method body).1 =
      (other.processRequest allocated id service method body).1 := by
  unfold Server.RpcChannel.processRequest Server.RpcChannel.findSvc
  rw [same]
  split
  · rfl
  · simp only
    split_ifs <;> rfl

/-- No request changes the services. -/
theorem processRequest_services (server : Server.RpcChannel) (allocated : Bool) (id : UInt32)
    (service method : CStr) (body : List UInt8) :
    (server.processRequest allocated id service method body).2.services = server.services := by
  unfold Server.RpcChannel.processRequest
  split
  · rfl
  · simp only
    split_ifs
    · rfl
    · unfold Server.RpcChannel.registerNotify
      split_ifs <;> rfl
    · rfl
    · rfl
    · rfl

/-- What a request invokes depends on the services only. -/
theorem Invokes.congr {packet : Packet} {invocation : Invocation}
    (invokes : Invokes server packet invocation) (same : other.services = server.services) :
    Invokes other packet invocation := by
  cases invokes with
  | intro invoked => exact .intro ((processRequest_congr same ..).trans invoked)

/-- What the server has decided on stays decided. -/
theorem Says.congr {answered more : List Completion} {packet : Packet} {code : Int32}
    {body : List UInt8} (said : Says codec server answered packet code body)
    (same : other.services = server.services) (grown : answered ⊆ more) :
    Says codec other more packet code body := by
  cases said with
  | refused refused => exact .refused ((processRequest_congr same ..).trans refused)
  | answered invokes member => exact .answered (invokes.congr same) (grown member)

/-- A name that is cut to its field is "notify" only if it was before. -/
theorem text_nameField_notify {name : CStr}
    (same : strcmp (nameField name).text.bytes methodNotify.bytes = 0) :
    strcmp name.bytes methodNotify.bytes = 0 := by
  rw [strcmp_eq_zero] at same ⊢
  have cut : name.bytes.take 63 = methodNotify.bytes := by rw [← text_nameField, same]
  have few : (name.bytes.take 63).length = 6 := by rw [cut]; rfl
  refine CStr.ext ?_
  rw [← cut, List.take_of_length_le]
  rw [List.length_take] at few
  omega

/-- An ordinary call is not taken for a registration. -/
theorem request_ordinary {call : Call} (ordinary : ¬ call.IsNotify) {allocated : Bool}
    {id : UInt32} {body : List UInt8} :
    (server.processRequest allocated id (nameField call.service).text
      (nameField call.method).text body).1 ≠ .registered :=
  fun registered => ordinary (text_nameField_notify
    (Server.RpcChannel.processRequest_registered registered).1)

end Requests

namespace Exchange

/-- The requests and answers on their way, and the methods that have not finished, by id. -/
def whereabouts (w : Exchange) : List UInt32 :=
  w.toServer.map packetId ++ w.pending.map Invocation.id ++ w.toClient.map packetId

/-- A call that has been sent is in one place. -/
structure Accounted (w : Exchange) : Prop where
  distinct : w.whereabouts.Nodup
  expected : ∀ id ∈ w.whereabouts, ∃ n, w.Sent n id ∧ ¬ w.client.Served n
  present : ∀ n id, w.Sent n id → ¬ w.client.Served n → id ∈ w.whereabouts

/-- The packet of a call. -/
abbrev request (codec : Codec) (calls : Nat → Call) (n : Nat) (id : UInt32) : Packet :=
  (outgoing (calls n) id).packet codec

/-- What is invoked, answered and reported is what the server has decided. -/
structure Truthful (codec : Codec) (calls : Nat → Call) (w : Exchange) : Prop where
  pending : ∀ invocation ∈ w.pending, ∃ n, w.Sent n invocation.id ∧
    Invokes w.server (request codec calls n invocation.id) invocation
  responses : ∀ packet ∈ w.toClient, ∃ n id code text body,
    packet = .response id code text body ∧ w.Sent n id ∧
      Says codec w.server w.answered (request codec calls n id) code body
  answering : ∀ answer, w.client.answering = some answer → w.Sent answer.call answer.id ∧
    Says codec w.server w.answered (request codec calls answer.call answer.id) answer.code
      answer.body
  fired : ∀ firing ∈ w.client.fired, ∃ id code, w.Sent firing.call id ∧
    firing = completion calls firing.call (code, firing.body) ∧
    Says codec w.server w.answered (request codec calls firing.call id) code firing.body

/-- Answers are built and handed over. -/
def Answers (codec : Codec) (w : Exchange) : Move → Prop
  | .serve _ conn => conn = 0
  | .answer k filled failed conn => ∀ invocation ∈ w.pending[k]?,
      (transmit codec conn
        (Completion.outgoing ⟨invocation, invocation.response.map fun _ => filled, failed⟩)).1 = 0
  | _ => True

instance (codec : Codec) (w : Exchange) : (move : Move) → Decidable (w.Answers codec move)
  | .serve _ conn => inferInstanceAs (Decidable (conn = 0))
  | .answer k filled failed conn => inferInstanceAs (Decidable (∀ invocation ∈ w.pending[k]?,
      (transmit codec conn
        (Completion.outgoing ⟨invocation, invocation.response.map fun _ => filled, failed⟩)).1 = 0))
  | .call _ | .send _ _ | .deliver => inferInstanceAs (Decidable True)

/-- Nothing is on its way, and nothing is being done. -/
structure Quiet (w : Exchange) : Prop where
  nowhere : w.whereabouts = []
  phase : w.client.phase = .idle

variable {codec : Codec} {calls : Nat → Call} {w next start : Exchange}

/-- Packets and methods have changed places. -/
theorem Accounted.frame (accounted : w.Accounted) (next : Exchange)
    (places : next.whereabouts.Perm w.whereabouts)
    (sent : ∀ n id, next.Sent n id ↔ w.Sent n id)
    (served : ∀ n, next.client.Served n ↔ w.client.Served n) : next.Accounted where
  distinct := places.nodup_iff.mpr accounted.distinct
  expected id member := by
    obtain ⟨n, before, waiting⟩ := accounted.expected id (places.subset member)
    exact ⟨n, (sent n id).mpr before, mt (served n).mp waiting⟩
  present n id now waiting :=
    places.symm.subset (accounted.present n id ((sent n id).mp now) (mt (served n).mpr waiting))

/-- What has been decided stays decided. -/
theorem Truthful.frame (truthful : w.Truthful codec calls)
    (services : next.server.services = w.server.services) (answered : w.answered ⊆ next.answered)
    (sent : ∀ n id, w.Sent n id → next.Sent n id)
    (pending : ∀ invocation ∈ next.pending, invocation ∈ w.pending)
    (responses : ∀ packet ∈ next.toClient, packet ∈ w.toClient)
    (answering : ∀ answer, next.client.answering = some answer →
      w.client.answering = some answer)
    (fired : ∀ firing ∈ next.client.fired, firing ∈ w.client.fired) :
    next.Truthful codec calls where
  pending invocation member := by
    obtain ⟨n, before, invokes⟩ := truthful.pending invocation (pending invocation member)
    exact ⟨n, sent n _ before, invokes.congr services⟩
  responses packet member := by
    obtain ⟨n, id, code, text, body, same, before, said⟩ :=
      truthful.responses packet (responses packet member)
    exact ⟨n, id, code, text, body, same, sent n id before, said.congr services answered⟩
  answering answer now := by
    obtain ⟨before, said⟩ := truthful.answering answer (answering answer now)
    exact ⟨sent _ _ before, said.congr services answered⟩
  fired firing member := by
    obtain ⟨id, code, before, same, said⟩ := truthful.fired firing (fired firing member)
    exact ⟨id, code, sent _ id before, same, said.congr services answered⟩

/-- Calls that are served have been sent. -/
theorem Truthful.sent_of_served (truthful : w.Truthful codec calls) {n : Nat}
    (served : w.client.Served n) : ∃ id, w.Sent n id := by
  rcases served with ⟨firing, member, rfl⟩ | completing
  · obtain ⟨id, _, sent, _⟩ := truthful.fired firing member
    exact ⟨id, sent⟩
  · unfold World.Completing at completing
    split at completing
    · next answer was =>
        obtain ⟨sent, _⟩ := truthful.answering answer (by simp [World.answering, was])
        exact ⟨answer.id, completing ▸ sent⟩
    · next answer bnotify was =>
        obtain ⟨sent, _⟩ := truthful.answering answer (by simp [World.answering, was])
        exact ⟨answer.id, completing ▸ sent⟩
    · cases completing
    · cases completing

end Exchange

end Sdpf.Network
