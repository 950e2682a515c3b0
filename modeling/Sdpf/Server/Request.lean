import Sdpf.Channel.Sending
import Mathlib.Data.List.AList

/-!
# Requests on the server side

`process_request` looks for the service and the method, and either refuses the request
with an error code, or registers a notification, or invokes the method. A method has its
answer sent by the `done` callback, whenever it likes.
-/

namespace Sdpf.Server

open Sdpf.Data Sdpf.Channel

/-- `_ENOSERVICE`. -/
def enoservice : Int32 := 1001

/-- `_ENOMETHOD`. -/
def enomethod : Int32 := 1002

/-- `_EREQUEST`. -/
def erequest : Int32 := 1003

/-- `_EMETHODCALL`. -/
def emethodcall : Int32 := 1005

/-- `_EINTERNAL`. -/
def einternal : Int32 := 1007

/-- A service of the application, apart from its `call_method`. -/
structure RpcService where
  name : CStr
  findMethod : CStr → Int
  newRequest : Int → Option RpcMessage
  newResponse : Int → Option RpcMessage

/-- The state of `RpcChannelImp` on the server side. Services are known by their place
in `services_`; `requests_` holds those that clients want notifications from. -/
structure RpcChannel where
  services : List RpcService
  requests : AList fun _ : UInt32 => Nat

/-- A call of a method: the request's id and body, and the message for its response. -/
structure Invocation where
  id : UInt32
  service : Nat
  method : Int
  body : List UInt8
  response : Option RpcMessage

/-- What becomes of a request. -/
inductive Handling where
  | refused (ec : Int32)
  | registered
  | invoked (invocation : Invocation)

/-- A method has run its done callback, with its response and whether it has failed. -/
structure Completion where
  invocation : Invocation
  response : Option RpcMessage
  failed : Bool

/-- `done`: the response that is sent. -/
def Completion.outgoing (completion : Completion) : Outgoing :=
  .response completion.invocation.id (if completion.failed then emethodcall else 0)
    completion.response

namespace RpcChannel

variable (ch : RpcChannel)

/-- `find_svc`: the first service whose name starts with the given one. -/
def findSvc (name : CStr) : Option (RpcService × Nat) :=
  ch.services.zipIdx.find? fun service =>
    strncmp name.bytes service.1.name.bytes name.strlen = 0

/-- Register for notifications from a service, unless somebody has. -/
def registerNotify (id : UInt32) (service : Nat) : RpcChannel :=
  if ∃ entry ∈ ch.requests.entries, entry.2 = service then
    ch
  else
    { ch with requests := ch.requests.insert id service }

/-- The body of a request cannot be decoded. -/
def malformed (request : Option RpcMessage) (body : List UInt8) : Bool :=
  match request with
  | none => false
  | some request => body.length > 0 ∧ request.deserialize body ≠ 0

/-- `process_request`; `allocated` tells whether there was memory for the controller. -/
def processRequest (allocated : Bool) (id : UInt32) (service method : CStr) (body : List UInt8) :
    Handling × RpcChannel :=
  match ch.findSvc service with
  | none => (.refused enoservice, ch)
  | some (svc, index) =>
      let methodId := svc.findMethod method
      if methodId < 0 then
        (.refused enomethod, ch)
      else if strcmp method.bytes methodNotify.bytes = 0 ∧ body.length = 0 then
        (.registered, ch.registerNotify id index)
      else if malformed (svc.newRequest methodId) body then
        (.refused erequest, ch)
      else if allocated = false then
        (.refused einternal, ch)
      else
        (.invoked ⟨id, index, methodId, body, svc.newResponse methodId⟩, ch)

variable {ch}

/-- An invocation carries the id and the body of its request. -/
theorem processRequest_invoked {allocated : Bool} {id : UInt32} {service method : CStr}
    {body : List UInt8} {invocation : Invocation}
    (invoked : (ch.processRequest allocated id service method body).1 = .invoked invocation) :
    invocation.id = id ∧ invocation.body = body := by
  unfold processRequest at invoked
  split at invoked
  · cases invoked
  · simp only at invoked
    split_ifs at invoked
    cases invoked
    exact ⟨rfl, rfl⟩

end RpcChannel

end Sdpf.Server
