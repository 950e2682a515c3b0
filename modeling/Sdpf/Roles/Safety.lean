import Sdpf.Roles.Channel
import Sdpf.Semantics.Machine

/-!
# Which packets a role can take

A channel that is reached by its functions holds either controllers and no services, or
services only (`OneRole`). `parse` asks neither: a request makes a client follow its null
`services_`, and a response whose id is that of a registered notification makes a server
use a service as a controller. `roleSafe_iff` says that no other packet does harm, and
that one sent to the wrong side is then refused.
-/

namespace Sdpf.Roles

open Sdpf.Data Sdpf.Channel Sdpf.Semantics
open Sdpf.Dispatcher (ok_bind)
open Sdpf.Client (RpcController Call)
open Sdpf.Server (RpcService Handling)

/-- What changes a channel. -/
inductive Action where
  /-- A controller is marked, reset or changed by its owner. -/
  | controller (ctrl : Nat) (now : RpcController)
  /-- `call_method` enters a call into the table. -/
  | register (call : Call) (id : UInt32)
  /-- `call_method` takes a failed call out of it. -/
  | remove (id : UInt32)
  | packet (allocated : Bool) (packet : Packet)
  | close

namespace RpcChannel

/-- Take a step, if it is enabled. `call_method` turns back where there are services. -/
def step (ch : RpcChannel) : Action → Option RpcChannel
  | .controller ctrl now => some { ch with ctrls := Function.update ch.ctrls ctrl now }
  | .register call id => if ch.services.isSome then none else (ch.register call id).toOption
  | .remove id =>
      if ch.services.isSome then none else (ch.removeRequest id).toOption.map Prod.snd
  | .packet allocated packet => (ch.processPacket allocated packet).toOption.map Prod.snd
  | .close => ch.onClose.toOption

/-- A channel just created by a client, or just accepted and given services. -/
def Initial (ch : RpcChannel) : Prop := ch.requests = ∅

/-- No services, and the table holds controllers. -/
structure Client (ch : RpcChannel) : Prop where
  services : ch.services = none
  entries : ∀ id entry, ch.requests.lookup id = some entry → ∃ ctrl, entry = .controller ctrl

/-- Services, and the table holds some of them. -/
structure Server (ch : RpcChannel) (list : List RpcService) : Prop where
  services : ch.services = some list
  entries : ∀ id entry, ch.requests.lookup id = some entry →
    ∃ index < list.length, entry = .service index

/-- The channel is one or the other. -/
def OneRole (ch : RpcChannel) : Prop := ch.Client ∨ ∃ list, ch.Server list

/-- The packet is meant for this side. -/
def Suits (ch : RpcChannel) : Packet → Prop
  | .request _ _ _ _ => ch.services ≠ none
  | .response _ _ _ _ => ch.services = none

end RpcChannel

/-- The machine of all channels. -/
def roleMachine : Machine RpcChannel Action where
  Initial := RpcChannel.Initial
  step := RpcChannel.step

/-- Nothing was invoked, registered or completed. -/
def Effect.Refused : Effect → Prop
  | requested (.refused _) => True
  | requested _ => False
  | answered ctrl => ctrl = none

namespace RpcChannel

/-- The packet is processed without misusing a pointer, and refused without touching the
table if it is meant for the other side. -/
def RoleSafe (ch : RpcChannel) (allocated : Bool) (packet : Packet) : Prop :=
  ∃ effect next, ch.processPacket allocated packet = .ok (effect, next) ∧
    (¬ ch.Suits packet → next.requests = ch.requests ∧ effect.Refused)

/-- A request comes to a channel with services, and a response to one without, or with an
id that is not in the table. -/
def Takes (ch : RpcChannel) : Packet → Prop
  | .request _ _ _ _ => ch.services ≠ none
  | .response id _ _ _ => ch.services = none ∨ id ∉ ch.requests

variable {ch next : RpcChannel}

/-- What is taken out of a table was in it. -/
theorem removeRequest_subset {id : UInt32} {found : Option Nat}
    (removed : ch.removeRequest id = .ok (found, next)) :
    next.services = ch.services ∧
      ∀ other entry, next.requests.lookup other = some entry →
        ch.requests.lookup other = some entry := by
  unfold removeRequest at removed
  split at removed
  · cases removed
    exact ⟨rfl, fun _ _ stored => stored⟩
  · obtain ⟨ctrl, _, removed⟩ := ok_bind removed
    split_ifs at removed
    · cases removed
      refine ⟨rfl, fun other entry stored => ?_⟩
      rw [lookup_erase] at stored
      split_ifs at stored
      exact stored
    · cases removed
      exact ⟨rfl, fun _ _ stored => stored⟩

/-- A response takes at most one entry out of the table. -/
theorem processResponse_subset {id : UInt32} {code : Int32} {body : List UInt8}
    {found : Option Nat} (processed : ch.processResponse id code body = .ok (found, next)) :
    next.services = ch.services ∧
      ∀ other entry, next.requests.lookup other = some entry →
        ch.requests.lookup other = some entry := by
  obtain ⟨⟨ctrl, after⟩, removed, rest⟩ := ok_bind processed
  have subset := removeRequest_subset removed
  cases ctrl with
  | none =>
      cases rest
      exact subset
  | some ctrl =>
      simp only at rest
      split_ifs at rest <;> cases rest <;> exact subset

/-- Without services every request follows the null `services_`. -/
theorem processRequest_client (null : ch.services = none) (allocated : Bool) (id : UInt32)
    (service method : CStr) (body : List UInt8) :
    ch.processRequest allocated id service method body = .error .nullServices := by
  simp only [processRequest, findSvc, null]
  rfl

/-- A request adds at most the service it names to the table. -/
theorem processRequest_entries {allocated : Bool} {id : UInt32} {service method : CStr}
    {body : List UInt8} {handling : Handling}
    (processed : ch.processRequest allocated id service method body = .ok (handling, next)) :
    next.services = ch.services ∧
      ∀ list, ch.services = some list → ∀ other entry,
        next.requests.lookup other = some entry →
        ch.requests.lookup other = some entry ∨ ∃ index < list.length, entry = .service index := by
  obtain ⟨found, search, rest⟩ := ok_bind processed
  cases found with
  | none =>
      cases rest
      exact ⟨rfl, fun _ _ _ _ stored => .inl stored⟩
  | some found =>
      obtain ⟨svc, index⟩ := found
      simp only at rest
      split_ifs at rest <;> cases rest
      · exact ⟨rfl, fun _ _ _ _ stored => .inl stored⟩
      · unfold registerNotify
        split
        · exact ⟨rfl, fun _ _ _ _ stored => .inl stored⟩
        · refine ⟨rfl, fun list are other entry stored => ?_⟩
          rw [lookup_insert] at stored
          split_ifs at stored
          · cases stored
            refine .inr ⟨index, ?_, rfl⟩
            simp only [findSvc, are, Except.ok.injEq] at search
            have member := List.mem_of_find?_eq_some search
            exact (List.mem_zipIdx' member).1
          · exact .inl stored
      · exact ⟨rfl, fun _ _ _ _ stored => .inl stored⟩
      · exact ⟨rfl, fun _ _ _ _ stored => .inl stored⟩
      · exact ⟨rfl, fun _ _ _ _ stored => .inl stored⟩

/-- A closed channel has neither services nor entries. -/
theorem onClose_empty (closed : ch.onClose = .ok next) :
    next.services = none ∧ next.requests = ∅ := by
  obtain ⟨after, _, rest⟩ := ok_bind closed
  cases rest
  exact ⟨rfl, rfl⟩

/-- A new channel has no entries. -/
theorem OneRole.of_initial (initial : ch.Initial) : ch.OneRole := by
  have empty : ∀ id, ch.requests.lookup id = none := fun id => by
    rw [show ch.requests = ∅ from initial, AList.lookup_empty]
  cases services : ch.services with
  | none => exact .inl ⟨services, fun id entry stored => by simp [empty] at stored⟩
  | some list => exact .inr ⟨list, services, fun id entry stored => by simp [empty] at stored⟩

/-- A channel whose table has only lost entries. -/
theorem OneRole.subset (role : ch.OneRole) (services : next.services = ch.services)
    (subset : ∀ id entry, next.requests.lookup id = some entry →
      ch.requests.lookup id = some entry) : next.OneRole := by
  rcases role with client | ⟨list, server⟩
  · exact .inl ⟨services.trans client.services, fun id entry stored =>
      client.entries id entry (subset id entry stored)⟩
  · exact .inr ⟨list, services.trans server.services, fun id entry stored =>
      server.entries id entry (subset id entry stored)⟩

/-- What a computation that went well returned. -/
theorem ok_of_toOption {α : Type} {computed : Deref α} {value : α}
    (some : computed.toOption = some value) : computed = .ok value := by
  cases computed with
  | error misuse => cases some
  | ok other =>
      cases some
      rfl

/-- A step adds only entries of the role the channel has. -/
theorem OneRole.step {action : Action} (role : ch.OneRole)
    (transition : ch.step action = some next) : next.OneRole := by
  cases action with
  | controller ctrl now =>
      cases transition
      exact role.subset rfl fun _ _ stored => stored
  | register call id =>
      simp only [RpcChannel.step] at transition
      split_ifs at transition with serving
      obtain ⟨refused, _, rest⟩ := ok_bind (ok_of_toOption transition)
      split_ifs at rest <;> cases rest
      · exact role
      · rcases role with client | ⟨list, server⟩
        · refine .inl ⟨client.services, fun other entry stored => ?_⟩
          rw [lookup_insert] at stored
          split_ifs at stored
          · cases stored
            exact ⟨call.ctrl, rfl⟩
          · exact client.entries other entry stored
        · rw [server.services] at serving
          cases serving rfl
  | remove id =>
      simp only [RpcChannel.step] at transition
      split_ifs at transition
      obtain ⟨⟨found, after⟩, removed, rfl⟩ := Option.map_eq_some_iff.mp transition
      obtain ⟨same, subset⟩ := removeRequest_subset (ok_of_toOption removed)
      exact role.subset same subset
  | packet allocated packet =>
      obtain ⟨⟨effect, after⟩, processed, rfl⟩ := Option.map_eq_some_iff.mp transition
      have ok := ok_of_toOption processed
      cases packet with
      | request id service method body =>
          obtain ⟨⟨handling, last⟩, handled, rest⟩ := ok_bind ok
          cases rest
          obtain ⟨same, entries⟩ := processRequest_entries handled
          rcases role with client | ⟨list, server⟩
          · rw [processRequest_client client.services] at handled
            cases handled
          · refine .inr ⟨list, same.trans server.services, fun other entry stored => ?_⟩
            rcases entries list server.services other entry stored with before | added
            · exact server.entries other entry before
            · exact added
      | response id code text body =>
          obtain ⟨⟨found, last⟩, handled, rest⟩ := ok_bind ok
          cases rest
          obtain ⟨same, subset⟩ := processResponse_subset handled
          exact role.subset same subset
  | close =>
      obtain ⟨services, empty⟩ := onClose_empty (ok_of_toOption transition)
      exact .of_initial empty

/-- Every channel that its functions lead to has one role. -/
theorem OneRole.of_reachable (reachable : roleMachine.Reachable ch) : ch.OneRole :=
  reachable.invariant OneRole (fun _ => OneRole.of_initial) fun role transition =>
    role.step transition

/-- A client takes every response. -/
theorem Client.takes_response (client : ch.Client) (id : UInt32) (code : Int32)
    (body : List UInt8) : ∃ found next, ch.processResponse id code body = .ok (found, next) := by
  unfold processResponse removeRequest
  cases stored : ch.requests.lookup id with
  | none => exact ⟨none, ch, rfl⟩
  | some entry =>
      obtain ⟨ctrl, rfl⟩ := client.entries id entry stored
      simp only [Pointee.asController, bind, Except.bind]
      split_ifs <;> exact ⟨_, _, rfl⟩

/-- A server takes every request. -/
theorem Server.takes_request {list : List RpcService} (server : ch.Server list)
    (allocated : Bool) (id : UInt32) (service method : CStr) (body : List UInt8) :
    ∃ handling next,
      ch.processRequest allocated id service method body = .ok (handling, next) := by
  unfold processRequest findSvc
  rw [server.services]
  simp only [bind, Except.bind]
  cases (Server.RpcChannel.mk list ∅).findSvc service with
  | none => exact ⟨_, _, rfl⟩
  | some found =>
      simp only
      split_ifs <;> exact ⟨_, _, rfl⟩

/-- A response whose id is in the table makes a server use a service as a controller. -/
theorem Server.response_misused {list : List RpcService} (server : ch.Server list) {id : UInt32}
    (stored : id ∈ ch.requests) (code : Int32) (body : List UInt8) :
    ch.processResponse id code body = .error .notController := by
  obtain ⟨entry, found⟩ :=
    Option.isSome_iff_exists.mp (AList.lookup_isSome.mpr stored)
  obtain ⟨index, _, rfl⟩ := server.entries id entry found
  unfold processResponse removeRequest
  rw [found]
  rfl

/-- A response whose id is not in the table is refused. -/
theorem processResponse_absent {id : UInt32} (absent : id ∉ ch.requests) (code : Int32)
    (body : List UInt8) : ch.processResponse id code body = .ok (none, ch) := by
  unfold processResponse removeRequest
  rw [AList.lookup_eq_none.mpr absent]
  rfl

/-- In a reachable channel a packet is processed safely exactly if it is a request that
comes to a channel with services, or a response that comes to one without or finds its id
not in the table. -/
theorem roleSafe_iff (reachable : roleMachine.Reachable ch) (allocated : Bool)
    (packet : Packet) : ch.RoleSafe allocated packet ↔ ch.Takes packet := by
  have role := OneRole.of_reachable reachable
  cases packet with
  | request id service method body =>
      constructor
      · rintro ⟨effect, next, processed, _⟩ null
        simp only [processPacket, processRequest_client null] at processed
        cases processed
      · intro takes
        rcases role with client | ⟨list, server⟩
        · exact absurd client.services takes
        · obtain ⟨handling, next, processed⟩ :=
            server.takes_request allocated id service.text method.text body
          refine ⟨.requested handling, next, ?_, fun unsuited => absurd takes unsuited⟩
          simp only [processPacket, processed, bind, Except.bind]
  | response id code text body =>
      constructor
      · rintro ⟨effect, next, processed, _⟩
        rcases role with client | ⟨list, server⟩
        · exact .inl client.services
        · refine .inr fun stored => ?_
          simp only [processPacket, server.response_misused stored] at processed
          cases processed
      · intro takes
        rcases role with client | ⟨list, server⟩
        · obtain ⟨found, next, processed⟩ := client.takes_response id code body
          refine ⟨.answered found, next, ?_, fun unsuited => absurd client.services unsuited⟩
          simp only [processPacket, processed, bind, Except.bind]
        · have absent : id ∉ ch.requests := takes.resolve_left fun null => by
            rw [server.services] at null
            cases null
          refine ⟨.answered none, ch, ?_, fun _ => ⟨rfl, rfl⟩⟩
          simp only [processPacket, processResponse_absent absent, bind, Except.bind]

/-- A service "a" all of whose methods are accepted. -/
private def anyService : RpcService where
  name := CStr.ofBlock [0x61]
  findMethod _ := 0
  newRequest _ := none
  newResponse _ := none

/-- A server with that service, after somebody has registered for notifications under
the given id. -/
private def registeredAt (id : UInt32) : RpcChannel where
  services := some [anyService]
  requests := AList.singleton id (.service 0)
  ctrls _ := ⟨none, false, 0, CStr.empty⟩

/-- A client that has just been created. -/
private def newClient : RpcChannel where
  services := none
  requests := ∅
  ctrls _ := ⟨none, false, 0, CStr.empty⟩

/-- The channel with one registration can be reached. -/
private theorem registeredAt_reachable (id : UInt32) :
    roleMachine.Reachable (registeredAt id) := by
  have initial : roleMachine.Initial { registeredAt id with requests := ∅ } := .refl ∅
  have registers : roleMachine.step { registeredAt id with requests := ∅ }
      (.packet true (.request id (nameField (CStr.ofBlock [0x61])) (nameField methodNotify) [])) =
      some (registeredAt id) := rfl
  exact ⟨_, _, initial, .cons registers .refl⟩

/-- So can a client without calls. -/
private theorem newClient_reachable : roleMachine.Reachable newClient := by
  have initial : roleMachine.Initial newClient := .refl ∅
  exact ⟨_, _, initial, .refl⟩

/-- The server takes a second registration and a response to nothing. -/
theorem roleSafe_registered :
    (registeredAt 7).RoleSafe true
        (.request 8 (nameField (CStr.ofBlock [0x61])) (nameField methodNotify) []) ∧
      (registeredAt 7).RoleSafe true (.response 8 0 (.zero 64) []) :=
  ⟨(roleSafe_iff (registeredAt_reachable 7) true _).mpr (by
      intro null
      cases null),
    (roleSafe_iff (registeredAt_reachable 7) true _).mpr (.inr (by decide))⟩

/-- Packets misuse pointers: a request at a client follows the null `services_`, and a
response at a server, with the id of a registration, uses the service as a controller. -/
theorem not_roleSafe :
    (roleMachine.Reachable newClient ∧
      ¬ newClient.RoleSafe true (.request 1 (.zero 64) (.zero 64) [])) ∧
    (roleMachine.Reachable (registeredAt 7) ∧
      ¬ (registeredAt 7).RoleSafe true (.response 7 0 (.zero 64) [])) := by
  refine ⟨⟨newClient_reachable, ?_⟩, registeredAt_reachable 7, ?_⟩
  · rintro ⟨effect, next, processed, _⟩
    have misused : newClient.processPacket true (.request 1 (.zero 64) (.zero 64) []) =
        .error .nullServices := rfl
    rw [misused] at processed
    cases processed
  · rintro ⟨effect, next, processed, _⟩
    have misused : (registeredAt 7).processPacket true (.response 7 0 (.zero 64) []) =
        .error .notController := rfl
    rw [misused] at processed
    cases processed

end RpcChannel

end Sdpf.Roles
