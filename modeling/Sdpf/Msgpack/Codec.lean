import Mathlib.Data.List.Basic

/-!
# The msgpack interface

`Object` is what unpacking yields: a tagged union whose members may be read through
only one of several views. `Codec` collects the packing functions and the unpacker a
client calls, and `Codec.Lawful` says what their documentation promises about each
other: an array of scalars that was packed is unpacked again, whatever follows it.

The byte format itself is in `Sdpf.Msgpack.Wire`.
-/

namespace Sdpf.Msgpack

/-- `msgpack_object`: the kind of an unpacked value, and its payload. -/
inductive Object where
  | nil
  | boolean (value : Bool)
  | positiveInteger (u64 : UInt64)
  | negativeInteger (i64 : Int64)
  | float32 (bits : UInt32)
  | float64 (bits : UInt64)
  | str (bytes : List UInt8)
  | array (items : List Object)
  | map (entries : List (Object × Object))
  | bin (bytes : List UInt8)
  | ext (kind : Int8) (bytes : List UInt8)
deriving Repr

namespace Object

/-- Either integer kind, by the sign of the value. -/
def integer (value : Int64) : Object :=
  if value.toInt < 0 then .negativeInteger value else .positiveInteger value.toUInt64

/-- The integer payload read as signed; both integer kinds share it. -/
def viaI64 : Object → Option Int64
  | .positiveInteger u64 => some u64.toInt64
  | .negativeInteger i64 => some i64
  | _ => none

/-- The integer payload read as unsigned; both integer kinds share it. -/
def viaU64 : Object → Option UInt64
  | .positiveInteger u64 => some u64
  | .negativeInteger i64 => some i64.toUInt64
  | _ => none

def viaStr : Object → Option (List UInt8)
  | .str bytes => some bytes
  | _ => none

/-- The bytes of a string or of a byte string, which are laid out alike. -/
def viaBin : Object → Option (List UInt8)
  | .str bytes | .bin bytes => some bytes
  | _ => none

def viaArray : Object → Option (List Object)
  | .array items => some items
  | _ => none

/-- A signed number is read as itself. -/
@[simp] theorem viaI64_integer (value : Int64) : (integer value).viaI64 = some value := by
  unfold integer
  split <;> simp [viaI64]

end Object

/-- A scalar handed to one of the packing functions. -/
inductive Scalar where
  | int (value : Int32)
  | uint32 (value : UInt32)
  | str (bytes : List UInt8)
  | bin (bytes : List UInt8)
deriving Repr, DecidableEq

namespace Scalar

/-- What unpacking a packed scalar yields. -/
def object : Scalar → Object
  | .int value => .integer value.toInt64
  | .uint32 value => .positiveInteger value.toUInt64
  | .str bytes => .str bytes
  | .bin bytes => .bin bytes

/-- The bytes a scalar carries beside its header. -/
def body : Scalar → List UInt8
  | .int _ | .uint32 _ => []
  | .str bytes | .bin bytes => bytes

/-- A body whose length fits into one byte. -/
def Short (scalar : Scalar) : Prop := scalar.body.length ≤ 255

end Scalar

/-- The functions of the library that a client calls. -/
structure Codec where
  packArray : Nat → List UInt8
  packInt : Int32 → List UInt8
  packUint32 : UInt32 → List UInt8
  packStrWithBody : List UInt8 → List UInt8
  packBinWithBody : List UInt8 → List UInt8
  /-- `msgpack_unpack_next`: the first object of the input, or no success. -/
  unpackNext : List UInt8 → Option Object

namespace Codec

/-- The packing function for each kind of scalar. -/
def pack (codec : Codec) : Scalar → List UInt8
  | .int value => codec.packInt value
  | .uint32 value => codec.packUint32 value
  | .str bytes => codec.packStrWithBody bytes
  | .bin bytes => codec.packBinWithBody bytes

/-- What a client relies on. -/
structure Lawful (codec : Codec) : Prop where
  /-- A packed array of up to fifteen scalars unpacks to its elements, whatever follows. -/
  unpack_packed : ∀ (scalars : List Scalar) (rest : List UInt8), scalars.length ≤ 15 →
    (∀ scalar ∈ scalars, scalar.Short) →
    codec.unpackNext (codec.packArray scalars.length ++ scalars.flatMap codec.pack ++ rest) =
      some (.array (scalars.map Scalar.object))
  /-- An array header takes between one and five bytes. -/
  length_packArray : ∀ n, 1 ≤ (codec.packArray n).length ∧ (codec.packArray n).length ≤ 5
  /-- A scalar takes its body and a header of between one and five bytes. -/
  length_pack : ∀ scalar : Scalar, scalar.Short →
    scalar.body.length + 1 ≤ (codec.pack scalar).length ∧
      (codec.pack scalar).length ≤ scalar.body.length + 5

end Codec

end Sdpf.Msgpack
