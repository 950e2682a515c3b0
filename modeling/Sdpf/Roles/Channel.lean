import Sdpf.Client.Channel
import Sdpf.Data.Search
import Sdpf.Server.Request

/-!
# One class for both sides

`RpcChannelImp` serves as the client's and as the server's channel. Its table maps ids
to `void*`: the client stores controllers in it, the server the services that want
notifications. Which of the two a pointer is, only the code knows that uses it, and
`services_` is null on a client.

Here the table keeps what its pointers really point to, and using one as an object of
the other class, or `services_` while it is null, is a `Misuse`. On a table of one kind
the functions are those of the side concerned (`Client.processResponse_of`,
`Server.processRequest_of`).
-/

namespace Sdpf.Roles

open Sdpf.Data Sdpf.Channel
open Sdpf.Client (RpcController Call enotifyMark enetwork)
open Sdpf.Server (RpcService Handling enoservice enomethod erequest einternal)

/-- The object behind a `void*` of the table: a controller, by its address, or a service,
by its place in `services_`. -/
inductive Pointee where
  | controller (ctrl : Nat)
  | service (index : Nat)
deriving DecidableEq, Repr

/-- A use of a pointer that has no defined outcome. -/
inductive Misuse where
  /-- `services_` was followed while null. -/
  | nullServices
  /-- A service was used as a controller. -/
  | notController
deriving DecidableEq, Repr

/-- A computation that may misuse a pointer. -/
abbrev Deref := Except Misuse

/-- Follow a pointer of the table as a `RpcController*`. -/
def Pointee.asController : Pointee → Deref Nat
  | controller ctrl => .ok ctrl
  | service _ => .error .notController

/-- `requests_`. -/
abbrev Requests := AList fun _ : UInt32 => Pointee

/-- The state of `RpcChannelImp`, and the controllers it may refer to. -/
structure RpcChannel where
  services : Option (List RpcService)
  requests : Requests
  ctrls : Nat → RpcController

/-- What processing a packet came to: what became of a request, or the controller that a
response was for. -/
inductive Effect where
  | requested (handling : Handling)
  | answered (ctrl : Option Nat)

namespace RpcChannel

variable (ch : RpcChannel)

/-- `ctrl->ec(ec)`. -/
def setEc (ctrl : Nat) (ec : Int32) : RpcChannel :=
  { ch with ctrls := Function.update ch.ctrls ctrl { ch.ctrls ctrl with ec := ec } }

/-- `find_svc`. -/
def findSvc (name : CStr) : Deref (Option (RpcService × Nat)) :=
  match ch.services with
  | none => .error .nullServices
  | some services => .ok ((Server.RpcChannel.mk services ∅).findSvc name)

/-- Register for notifications; pointers are compared and not followed. -/
def registerNotify (id : UInt32) (index : Nat) : RpcChannel :=
  if ∃ entry ∈ ch.requests.entries, entry.2 = .service index then
    ch
  else
    { ch with requests := ch.requests.insert id (.service index) }

/-- `process_request`. -/
def processRequest (allocated : Bool) (id : UInt32) (service method : CStr) (body : List UInt8) :
    Deref (Handling × RpcChannel) := do
  match ← ch.findSvc service with
  | none => .ok (.refused enoservice, ch)
  | some (svc, index) =>
      let methodId := svc.findMethod method
      if methodId < 0 then
        .ok (.refused enomethod, ch)
      else if strcmp method.bytes methodNotify.bytes = 0 ∧ body.length = 0 then
        .ok (.registered, ch.registerNotify id index)
      else if Server.RpcChannel.malformed (svc.newRequest methodId) body then
        .ok (.refused erequest, ch)
      else if allocated = false then
        .ok (.refused einternal, ch)
      else
        .ok (.invoked ⟨id, index, methodId, body, svc.newResponse methodId⟩, ch)

/-- `remove_request`: the error code of the controller decides whether its entry goes. -/
def removeRequest (id : UInt32) : Deref (Option Nat × RpcChannel) :=
  match ch.requests.lookup id with
  | none => .ok (none, ch)
  | some entry => do
      let ctrl ← entry.asController
      if (ch.ctrls ctrl).ec = 0 then
        .ok (some ctrl, { ch with requests := ch.requests.erase id })
      else
        .ok (some ctrl, ch)

/-- `process_response`. -/
def processResponse (id : UInt32) (code : Int32) (body : List UInt8) :
    Deref (Option Nat × RpcChannel) := do
  match ← ch.removeRequest id with
  | (none, ch) => .ok (none, ch)
  | (some ctrl, ch) =>
      let bnotify := (ch.ctrls ctrl).ec ≠ 0
      let ch := ch.setEc ctrl (Client.RpcChannel.outcome (ch.ctrls ctrl).resp code body)
      .ok (some ctrl, if bnotify then ch.setEc ctrl enotifyMark else ch)

/-- The dispatch of `parse` on the type of a packet. -/
def processPacket (allocated : Bool) : Packet → Deref (Effect × RpcChannel)
  | .request id service method body => do
      let processed ← ch.processRequest allocated id service.text method.text body
      .ok (.requested processed.1, processed.2)
  | .response id code _ body => do
      let processed ← ch.processResponse id code body
      .ok (.answered processed.1, processed.2)

/-- The search of `call_method` for a notification registered for the same service. -/
def repeated (service : CStr) : List (Sigma fun _ : UInt32 => Pointee) → Deref Bool
  | [] => .ok false
  | entry :: rest => do
      let ctrl ← entry.2.asController
      if (ch.ctrls ctrl).ec ≠ 0 ∧ strcmp service.bytes (ch.ctrls ctrl).text.bytes = 0 then
        .ok true
      else
        repeated service rest

/-- The call is a notification that repeats a registered one. -/
def repeats (call : Call) : Deref Bool :=
  if (ch.ctrls call.ctrl).ec ≠ 0 then
    ch.repeated call.service ch.requests.entries
  else
    .ok false

/-- The part of `call_method` that enters a call into the table. -/
def register (call : Call) (id : UInt32) : Deref RpcChannel := do
  let refused ← ch.repeats call
  if refused then
    .ok ch
  else
    .ok { ch with requests := ch.requests.insert id (.controller call.ctrl) }

/-- The loop of `on_close` over the table. -/
def completeAll : List (Sigma fun _ : UInt32 => Pointee) → RpcChannel → Deref RpcChannel
  | [], ch => .ok ch
  | entry :: rest, ch => do
      let ctrl ← entry.2.asController
      completeAll rest (ch.setEc ctrl enetwork)

/-- Complete what is in the table of a client. -/
def completeRemaining : Deref RpcChannel :=
  if ch.services.isNone then completeAll ch.requests.entries ch else .ok ch

/-- `on_close`. -/
def onClose : Deref RpcChannel := do
  let ch ← ch.completeRemaining
  .ok { ch with requests := ∅, services := none }

end RpcChannel

/-- A channel that holds what a client channel holds. -/
structure IsClient (ch : RpcChannel) (client : Client.RpcChannel) : Prop where
  services : ch.services = none
  requests : ∀ id, ch.requests.lookup id = (client.requests.lookup id).map .controller
  ctrls : ch.ctrls = client.ctrls

/-- A channel that holds what a server channel holds. -/
structure IsServer (ch : RpcChannel) (server : Server.RpcChannel) : Prop where
  services : ch.services = some server.services
  requests : ∀ id, ch.requests.lookup id = (server.requests.lookup id).map .service

section Sides

variable {ch : RpcChannel}

/-- On a client a response is processed as in `Sdpf.Client`. -/
theorem IsClient.processResponse {client : Client.RpcChannel} (is : IsClient ch client)
    (id : UInt32) (code : Int32) (body : List UInt8) :
    ∃ next, ch.processResponse id code body = .ok ((client.processResponse id code body).1, next) ∧
      IsClient next (client.processResponse id code body).2 := by
  have here := is.requests id
  have ctrls := is.ctrls
  unfold RpcChannel.processResponse RpcChannel.removeRequest Client.RpcChannel.processResponse
    Client.RpcChannel.removeRequest
  cases stored : client.requests.lookup id with
  | none =>
      rw [stored, Option.map_none] at here
      simp only [here, bind, Except.bind]
      exact ⟨ch, rfl, is⟩
  | some ctrl =>
      rw [stored, Option.map_some] at here
      simp only [here, Pointee.asController, bind, Except.bind]
      by_cases ordinary : (ch.ctrls ctrl).ec = 0
      · have ordinary' : (client.ctrls ctrl).ec = 0 := by rw [← ctrls, ordinary]
        simp only [ordinary, ordinary', if_true, ne_eq, not_true_eq_false, if_false]
        refine ⟨_, rfl, is.services, fun other => ?_, ?_⟩
        · simp only [RpcChannel.setEc, lookup_erase, Client.RpcChannel.modify_requests,
            is.requests other]
          split <;> rfl
        · simp only [RpcChannel.setEc, Client.RpcChannel.modify, ctrls]
      · have marked : ¬ (client.ctrls ctrl).ec = 0 := by rwa [← ctrls]
        simp only [ordinary, marked, if_false, ne_eq, not_false_eq_true, if_true]
        refine ⟨_, rfl, is.services, is.requests, ?_⟩
        simp only [RpcChannel.setEc, Client.RpcChannel.modify, ctrls]

/-- On a server a request is processed as in `Sdpf.Server`. -/
theorem IsServer.processRequest {server : Server.RpcChannel} (is : IsServer ch server)
    (allocated : Bool) (id : UInt32) (service method : CStr) (body : List UInt8) :
    ∃ next, ch.processRequest allocated id service method body =
        .ok ((server.processRequest allocated id service method body).1, next) ∧
      IsServer next (server.processRequest allocated id service method body).2 := by
  have same : ∀ name, ch.findSvc name = .ok (server.findSvc name) := fun name => by
    simp only [RpcChannel.findSvc, is.services]
    rfl
  unfold RpcChannel.processRequest Server.RpcChannel.processRequest
  rw [same]
  simp only [bind, Except.bind]
  cases server.findSvc service with
  | none => exact ⟨ch, rfl, is⟩
  | some found =>
      obtain ⟨svc, index⟩ := found
      simp only
      split_ifs
      · exact ⟨ch, rfl, is⟩
      · refine ⟨_, rfl, ?_⟩
        have known : (∃ entry ∈ ch.requests.entries, entry.2 = .service index) ↔
            ∃ entry ∈ server.requests.entries, entry.2 = index := by
          constructor
          · rintro ⟨⟨other, _⟩, member, rfl⟩
            have stored := is.requests other
            rw [AList.mem_lookup_iff.mpr member] at stored
            obtain ⟨_, there, equal⟩ := Option.map_eq_some_iff.mp stored.symm
            cases equal
            exact ⟨⟨other, index⟩, AList.mem_lookup_iff.mp there, rfl⟩
          · rintro ⟨⟨other, _⟩, member, rfl⟩
            have stored := is.requests other
            rw [AList.mem_lookup_iff.mpr member, Option.map_some] at stored
            exact ⟨⟨other, _⟩, AList.mem_lookup_iff.mp stored, rfl⟩
        unfold RpcChannel.registerNotify Server.RpcChannel.registerNotify
        by_cases repeats : ∃ entry ∈ server.requests.entries, entry.2 = index
        · rw [if_pos (known.mpr repeats), if_pos repeats]
          exact is
        · rw [if_neg (fun some => repeats (known.mp some)), if_neg repeats]
          refine ⟨is.services, fun other => ?_⟩
          rw [lookup_insert, lookup_insert, is.requests other]
          split <;> rfl
      · exact ⟨ch, rfl, is⟩
      · exact ⟨ch, rfl, is⟩
      · exact ⟨ch, rfl, is⟩

end Sides

end Sdpf.Roles
