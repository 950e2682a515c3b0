import Sdpf.Server.Answers
import Sdpf.Data.Heap

/-!
# The objects of a method call

`process_request` allocates the request, the response and the controller of a method call.
It deletes the request when `call_method` has returned, or on its way out when the call is
not made; `done` deletes the other two. A method may finish at once or later, in any
thread, and keep what it was given: whether its objects are still there is up to it.
-/

namespace Sdpf.Server

open Sdpf.Data Sdpf.Msgpack Sdpf.Channel Sdpf.Semantics

/-- The objects of a method call, by address; a message may be null. -/
structure Objects where
  request : Option Nat
  response : Option Nat
  ctrl : Nat
deriving DecidableEq, Repr

/-- An object that a method was called with. -/
inductive Object where
  | request
  | response
  | ctrl
deriving DecidableEq, Repr

namespace Objects

/-- What `done` deletes. -/
def answer (objects : Objects) : List Nat := objects.response.toList ++ [objects.ctrl]

/-- All of them. -/
def all (objects : Objects) : List Nat := objects.request.toList ++ objects.answer

/-- One of them, unless it is null. -/
def get (objects : Objects) : Object → Option Nat
  | .request => objects.request
  | .response => objects.response
  | .ctrl => some objects.ctrl

end Objects

/-- `process_request` from `new_request` on: what has been allocated for the call of the
method, if it is made. -/
def prepare (heap : Heap) (svc : RpcService) (methodId : Int) (allocated : Bool)
    (body : List UInt8) : Heap × Option Objects :=
  let request := heap.newIf (svc.newRequest methodId).isSome
  if RpcChannel.malformed (svc.newRequest methodId) body then
    (request.2.deleteAll request.1.toList, none)
  else
    let response := request.2.newIf (svc.newResponse methodId).isSome
    if allocated = false then
      ((response.2.deleteAll request.1.toList).deleteAll response.1.toList, none)
    else
      (response.2.new, some ⟨request.1, response.1, response.2.next⟩)

/-- A server channel and the objects of its method calls. -/
structure Owning where
  serving : Serving
  heap : Heap
  /-- The objects a method was called with, by the number of the request. -/
  objects : Nat → Option Objects
  /-- The method call that has not returned to `process_request`. -/
  running : Option Nat

/-- What happens to the objects. -/
inductive Usage where
  | event (event : Event)
  /-- A method uses an object it was called with. -/
  | use (number : Nat) (object : Object)
  /-- `call_method` returns. -/
  | returned

namespace Owning

/-- The objects that `process_request` has allocated for a request and not deleted. -/
def allocate (s : Owning) (r : Request) : Heap × Option Objects :=
  match s.serving.ch.findSvc r.service with
  | none => (s.heap, none)
  | some (svc, _) =>
      let methodId := svc.findMethod r.method
      if methodId < 0 then
        (s.heap, none)
      else if strcmp r.method.bytes methodNotify.bytes = 0 ∧ r.body.length = 0 then
        (s.heap, none)
      else
        prepare s.heap svc methodId r.allocated r.body

/-- Take a step, if it is enabled. What happens after a dead object was touched is not
defined. The loop thread takes no request while a method is called. -/
def step (codec : Codec) (s : Owning) (usage : Usage) : Option Owning :=
  if s.heap.fault then
    none
  else
    match usage with
    | .event (.request r) =>
        if s.running = none then
          let number := s.serving.requests.length
          let allocated := s.allocate r
          (s.serving.step codec (.request r)).map fun serving =>
            { serving := serving
              heap := allocated.1
              objects := fun n => if n = number then allocated.2 else s.objects n
              running := allocated.2.map fun _ => number }
        else
          none
    | .event (.done number response failed) =>
        (s.objects number).map fun objects =>
          { s with
            serving := (s.serving.step codec (.done number response failed)).getD s.serving
            heap := (s.heap.useAll objects.answer).deleteAll objects.answer }
    | .use number object =>
        ((s.objects number).bind fun objects => objects.get object).map fun address =>
          { s with heap := s.heap.use address }
    | .returned =>
        s.running.map fun number =>
          { s with
            heap := s.heap.deleteAll ((s.objects number).elim [] fun objects =>
              objects.request.toList)
            running := none }

/-- Before the first request. -/
structure Initial (s : Owning) : Prop where
  serving : s.serving.Initial
  heap : s.heap = .empty
  objects : ∀ n, s.objects n = none
  running : s.running = none

/-- A method uses its request until it returns, its response and its controller until it runs
`done`, and it does that once. -/
def Careful (s : Owning) : Usage → Prop
  | .event (.request _) | .returned => True
  | .event (.done number _ _) => number ∈ s.serving.pending
  | .use number .request => s.running = some number
  | .use number _ => number ∈ s.serving.pending

instance (s : Owning) : (usage : Usage) → Decidable (s.Careful usage)
  | .event (.request _) | .returned => inferInstanceAs (Decidable True)
  | .event (.done number _ _) => inferInstanceAs (Decidable (number ∈ s.serving.pending))
  | .use number .request => inferInstanceAs (Decidable (s.running = some number))
  | .use number .response => inferInstanceAs (Decidable (number ∈ s.serving.pending))
  | .use number .ctrl => inferInstanceAs (Decidable (number ∈ s.serving.pending))

/-- The objects a method call still has: its request until it returns, the others until it
runs `done`. -/
def held (s : Owning) (number : Nat) (objects : Objects) : List Nat :=
  (if s.running = some number then objects.request.toList else []) ++
    (if number ∈ s.serving.pending then objects.answer else [])

/-- Each live object belongs to one method call that still has it. -/
structure Accounted (s : Owning) : Prop where
  sound : s.heap.fault = false
  live : ∀ address, address ∈ s.heap.live ↔
    ∃ number objects, s.objects number = some objects ∧ address ∈ s.held number objects
  known : ∀ number objects, s.objects number = some objects →
    objects.all.Nodup ∧ ∀ address ∈ objects.all, address < s.heap.next
  apart : ∀ first second objects others, s.objects first = some objects →
    s.objects second = some others → ∀ address ∈ objects.all, address ∈ others.all →
      first = second
  numbered : ∀ number, s.serving.requests.length ≤ number → s.objects number = none
  called : ∀ number, s.running = some number → (s.objects number).isSome

end Owning

/-- What a usage is to the server channel. -/
def Usage.visible : Usage → Option Event
  | .event what => some what
  | .use _ _ | .returned => none

/-- The machine of all server channels with their objects. -/
def owningMachine (codec : Codec) : Machine Owning Usage where
  Initial := Owning.Initial
  step := Owning.step codec

end Sdpf.Server
