import Sdpf.Data.CString
import Sdpf.Msgpack.Codec

/-!
# Packet meta data

The meta part of a packet is a msgpack array of four scalars. `serializeMeta` and
`deserializeMeta` are the two functions of `Dispatcher.cpp`. The decoder looks at
nothing before it reads: which reads and writes it makes depends on the object the
peer sent, so it is modelled in `Access`, where reading a union through a member that
was not stored, reading past the end of an array, and writing past a field end the
computation with the `Violation` they commit.
-/

namespace Sdpf.Dispatcher

open Sdpf.Data Sdpf.Msgpack

/-- `RPCTYPE_REQUEST`. -/
def rpctypeRequest : UInt32 := 1

/-- `RPCTYPE_RESPONSE`. -/
def rpctypeResponse : UInt32 := 2

structure MetaRequest where
  service : CharArray 64
  method : CharArray 64
deriving DecidableEq, Repr

structure MetaResponse where
  code : Int32
  text : CharArray 64
deriving DecidableEq, Repr

/-- `Meta_Rpc`. The two members of its union are kept apart: code reads only the one
that `type` names, and the whole struct is zeroed before it is filled. -/
structure MetaRpc where
  type : UInt32
  relationId : UInt32
  req : MetaRequest
  rsp : MetaResponse
deriving DecidableEq, Repr

/-- The struct after `memset`. -/
def MetaRpc.zero : MetaRpc where
  type := 0
  relationId := 0
  req := ⟨.zero 64, .zero 64⟩
  rsp := ⟨0, .zero 64⟩

/-- `serialize_meta`: the returned length or error, and the bytes written to the buffer. -/
def serializeMeta (codec : Codec) (m : MetaRpc) : Int × List UInt8 :=
  if m.type = rpctypeRequest then
    let packed := codec.packArray 4 ++ codec.packInt m.type.toInt32 ++
      codec.packUint32 m.relationId ++ codec.packStrWithBody m.req.service.text.bytes ++
      codec.packStrWithBody m.req.method.text.bytes
    (packed.length, packed)
  else if m.type = rpctypeResponse then
    let packed := codec.packArray 4 ++ codec.packInt m.type.toInt32 ++
      codec.packUint32 m.relationId ++ codec.packInt m.rsp.code ++
      codec.packStrWithBody m.rsp.text.text.bytes
    (packed.length, packed)
  else
    (-1, [])

/-- What code must not do to memory it was given. -/
inductive Violation where
  /-- A union was read through a member other than the one stored in it. -/
  | wrongVariant
  /-- An array element behind the last one was read. -/
  | missingElement
  /-- More bytes were written than the field holds. -/
  | overflow
deriving DecidableEq, Repr

/-- A computation that may commit a violation. -/
abbrev Access := Except Violation

/-- A computation without violation got there through its first part. -/
theorem ok_bind {ε α β : Type} {first : Except ε α} {next : α → Except ε β} {value : β}
    (ok : (first >>= next) = .ok value) :
    ∃ middle, first = .ok middle ∧ next middle = .ok value := by
  cases first with
  | error violation => cases ok
  | ok middle => exact ⟨middle, rfl, ok⟩

/-- Read a member of a union, if it is the one that was stored. -/
def variant {α : Type} : Option α → Access α
  | some payload => .ok payload
  | none => .error .wrongVariant

/-- `object.via.array.ptr + index`, dereferenced. -/
def element (object : Object) (index : Nat) : Access Object := do
  let items ← variant object.viaArray
  match items[index]? with
  | some item => .ok item
  | none => .error .missingElement

/-- `strncpy(field, item.via.str.ptr, item.via.str.size)`. -/
def copyText (field : CharArray 64) (item : Object) : Access (CharArray 64) := do
  let bytes ← variant item.viaStr
  if within : bytes.length ≤ 64 then
    .ok (field.strncpy bytes bytes.length within)
  else
    .error .overflow

/-- The `Meta_RpcType` an integer payload is converted to. -/
def messageType (value : Int64) : UInt32 := value.toUInt64.toUInt32

/-- `deserialize_meta`: the returned status, and the struct after it. -/
def deserializeMeta (codec : Codec) (m : MetaRpc) (bytes : List UInt8) :
    Access (Int × MetaRpc) :=
  match codec.unpackNext bytes with
  | none => .ok (-1, m)
  | some object => do
      let type ← variant (← element object 0).viaI64
      let m := { m with type := messageType type }
      let id ← variant (← element object 1).viaU64
      let m := { m with relationId := id.toUInt32 }
      if m.type = rpctypeRequest then
        let service ← copyText m.req.service (← element object 2)
        let method ← copyText m.req.method (← element object 3)
        .ok (0, { m with req := ⟨service, method⟩ })
      else if m.type = rpctypeResponse then
        let code ← variant (← element object 2).viaI64
        let text ← copyText m.rsp.text (← element object 3)
        .ok (0, { m with rsp := ⟨code.toInt32, text⟩ })
      else
        .ok (-2, m)

/-- The scalars a request's meta data is made of. -/
def requestScalars (id : UInt32) (service method : CStr) : List Scalar :=
  [.int 1, .uint32 id, .str service.bytes, .str method.bytes]

/-- The scalars a response's meta data is made of. -/
def responseScalars (id : UInt32) (code : Int32) (text : CStr) : List Scalar :=
  [.int 2, .uint32 id, .int code, .str text.bytes]

/-- A request is written as an array of its four scalars. -/
theorem serializeMeta_request (codec : Codec) {m : MetaRpc} (request : m.type = rpctypeRequest) :
    serializeMeta codec m =
      let packed := codec.packArray 4 ++
        (requestScalars m.relationId m.req.service.text m.req.method.text).flatMap codec.pack
      ((packed.length : Int), packed) := by
  have type : (rpctypeRequest.toInt32 : Int32) = 1 := rfl
  simp [serializeMeta, request, requestScalars, Codec.pack, type]

/-- A response is written as an array of its four scalars. -/
theorem serializeMeta_response (codec : Codec) {m : MetaRpc} (response : m.type = rpctypeResponse) :
    serializeMeta codec m =
      let packed := codec.packArray 4 ++
        (responseScalars m.relationId m.rsp.code m.rsp.text.text).flatMap codec.pack
      ((packed.length : Int), packed) := by
  have type : (rpctypeResponse.toInt32 : Int32) = 2 := rfl
  have distinct : rpctypeResponse ≠ rpctypeRequest := by decide
  simp [serializeMeta, response, responseScalars, Codec.pack, type, distinct]

@[simp] theorem element_array (items : List Object) (index : Nat) :
    element (.array items) index =
      match items[index]? with
      | some item => .ok item
      | none => .error .missingElement := rfl

/-- A string that fits its field is copied, one that does not overflows it. -/
theorem copyText_str (field : CharArray 64) (bytes : List UInt8) :
    copyText field (.str bytes) =
      if within : bytes.length ≤ 64 then .ok (field.strncpy bytes bytes.length within)
      else .error .overflow := rfl

/-- Only strings are copied, and only if they fit. -/
theorem copyText_ok {field copied : CharArray 64} {item : Object}
    (ok : copyText field item = .ok copied) :
    ∃ bytes, ∃ within : bytes.length ≤ 64,
      item = .str bytes ∧ copied = field.strncpy bytes bytes.length within := by
  cases item with
  | str bytes =>
      rw [copyText_str] at ok
      split at ok
      · next within =>
          cases ok
          exact ⟨bytes, within, rfl, rfl⟩
      · cases ok
  | _ => cases ok

end Sdpf.Dispatcher
