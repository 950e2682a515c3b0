import Sdpf.Data.BigEndian
import Sdpf.Msgpack.Codec
import Mathlib.Tactic.IntervalCases

/-!
# The msgpack byte format

Every value is a tag byte, followed by a big-endian number, a length and a body, or
nested values, depending on the tag. The packers choose the shortest form; the reader
accepts every form. `Wire.codec_lawful` is the agreement of the two.
-/

namespace Sdpf.Msgpack.Wire

open Sdpf.Data

/-- An array header: fixarray, array 16 or array 32. -/
def packArray (n : Nat) : List UInt8 :=
  if n < 16 then [UInt8.ofNat (0x90 + n)]
  else if n < 65536 then 0xdc :: beBytes 2 n
  else 0xdd :: beBytes 4 n

/-- A signed number in its shortest form; non-negative values use the unsigned forms. -/
def packInt (value : Int32) : List UInt8 :=
  let v := value.toInt
  if v < -32768 then 0xd2 :: beBytes 4 (v + 4294967296).toNat
  else if v < -128 then 0xd1 :: beBytes 2 (v + 65536).toNat
  else if v < -32 then 0xd0 :: beBytes 1 (v + 256).toNat
  else if v < 0 then [UInt8.ofNat (v + 256).toNat]
  else if v < 128 then [UInt8.ofNat v.toNat]
  else if v < 256 then 0xcc :: beBytes 1 v.toNat
  else if v < 65536 then 0xcd :: beBytes 2 v.toNat
  else 0xce :: beBytes 4 v.toNat

/-- An unsigned number in its shortest form. -/
def packUint32 (value : UInt32) : List UInt8 :=
  let v := value.toNat
  if v < 128 then [UInt8.ofNat v]
  else if v < 256 then 0xcc :: beBytes 1 v
  else if v < 65536 then 0xcd :: beBytes 2 v
  else 0xce :: beBytes 4 v

/-- A string: fixstr, str 8, str 16 or str 32. -/
def packStrWithBody (bytes : List UInt8) : List UInt8 :=
  let n := bytes.length
  if n < 32 then UInt8.ofNat (0xa0 + n) :: bytes
  else if n < 256 then 0xd9 :: (beBytes 1 n ++ bytes)
  else if n < 65536 then 0xda :: (beBytes 2 n ++ bytes)
  else 0xdb :: (beBytes 4 n ++ bytes)

/-- A byte string: bin 8, bin 16 or bin 32. -/
def packBinWithBody (bytes : List UInt8) : List UInt8 :=
  let n := bytes.length
  if n < 256 then 0xc4 :: (beBytes 1 n ++ bytes)
  else if n < 65536 then 0xc5 :: (beBytes 2 n ++ bytes)
  else 0xc6 :: (beBytes 4 n ++ bytes)

/-- Split off exactly `n` bytes. -/
def takeExact (n : Nat) (bytes : List UInt8) : Option (List UInt8 × List UInt8) :=
  if n ≤ bytes.length then some (bytes.take n, bytes.drop n) else none

/-- A big-endian number of the given width. -/
def readNat (width : Nat) (bytes : List UInt8) : Option (Nat × List UInt8) :=
  (takeExact width bytes).map fun split => (beValue split.1, split.2)

/-- The two's complement reading of a number below `range`. -/
def signed (range value : Nat) : Int64 :=
  Int64.ofInt (if 2 * value < range then (value : Int) else (value : Int) - range)

/-- A length of the given width, then that many bytes. -/
def readBody (width : Nat) (bytes : List UInt8) : Option (List UInt8 × List UInt8) :=
  (readNat width bytes).bind fun header => takeExact header.1 header.2

/-- A payload of known length behind its application-defined kind. -/
def readExt (n : Nat) (bytes : List UInt8) : Option (Object × List UInt8) :=
  match bytes with
  | [] => none
  | kind :: rest => (takeExact n rest).map fun split => (.ext kind.toInt8 split.1, split.2)

/-- Read `n` values one after the other. -/
def readItems (read : List UInt8 → Option (Object × List UInt8)) :
    Nat → List UInt8 → Option (List Object × List UInt8)
  | 0, bytes => some ([], bytes)
  | n + 1, bytes =>
      (read bytes).bind fun head =>
        (readItems read n head.2).map fun tail => (head.1 :: tail.1, tail.2)

/-- Read `n` pairs one after the other. -/
def readEntries (read : List UInt8 → Option (Object × List UInt8)) :
    Nat → List UInt8 → Option (List (Object × Object) × List UInt8)
  | 0, bytes => some ([], bytes)
  | n + 1, bytes =>
      (read bytes).bind fun key =>
        (read key.2).bind fun value =>
          (readEntries read n value.2).map fun tail => ((key.1, value.1) :: tail.1, tail.2)

/-- Read one value, nested at most `depth` deep. -/
def readObject : Nat → List UInt8 → Option (Object × List UInt8)
  | 0, _ => none
  | _ + 1, [] => none
  | depth + 1, tag :: rest =>
      let array := fun (n : Nat) (bytes : List UInt8) =>
        (readItems (readObject depth) n bytes).map fun items => (Object.array items.1, items.2)
      let map := fun (n : Nat) (bytes : List UInt8) =>
        (readEntries (readObject depth) n bytes).map fun items => (Object.map items.1, items.2)
      let number := fun (width : Nat) (make : Nat → Object) =>
        (readNat width rest).map fun value => (make value.1, value.2)
      let body := fun (width : Nat) (make : List UInt8 → Object) =>
        (readBody width rest).map fun bytes => (make bytes.1, bytes.2)
      let unsigned := fun (value : Nat) => Object.positiveInteger (UInt64.ofNat value)
      let t := tag.toNat
      if t < 0x80 then some (unsigned t, rest)
      else if t < 0x90 then map (t - 0x80) rest
      else if t < 0xa0 then array (t - 0x90) rest
      else if t < 0xc0 then
        (takeExact (t - 0xa0) rest).map fun split => (.str split.1, split.2)
      else if 0xe0 ≤ t then some (.negativeInteger (signed 256 t), rest)
      else match t with
        | 0xc0 => some (.nil, rest)
        | 0xc2 => some (.boolean false, rest)
        | 0xc3 => some (.boolean true, rest)
        | 0xc4 => body 1 .bin
        | 0xc5 => body 2 .bin
        | 0xc6 => body 4 .bin
        | 0xc7 => (readNat 1 rest).bind fun size => readExt size.1 size.2
        | 0xc8 => (readNat 2 rest).bind fun size => readExt size.1 size.2
        | 0xc9 => (readNat 4 rest).bind fun size => readExt size.1 size.2
        | 0xca => number 4 fun value => .float32 (UInt32.ofNat value)
        | 0xcb => number 8 fun value => .float64 (UInt64.ofNat value)
        | 0xcc => number 1 unsigned
        | 0xcd => number 2 unsigned
        | 0xce => number 4 unsigned
        | 0xcf => number 8 unsigned
        | 0xd0 => number 1 fun value => .integer (signed 256 value)
        | 0xd1 => number 2 fun value => .integer (signed 65536 value)
        | 0xd2 => number 4 fun value => .integer (signed 4294967296 value)
        | 0xd3 => number 8 fun value => .integer (signed 18446744073709551616 value)
        | 0xd4 => readExt 1 rest
        | 0xd5 => readExt 2 rest
        | 0xd6 => readExt 4 rest
        | 0xd7 => readExt 8 rest
        | 0xd8 => readExt 16 rest
        | 0xd9 => body 1 .str
        | 0xda => body 2 .str
        | 0xdb => body 4 .str
        | 0xdc => (readNat 2 rest).bind fun size => array size.1 size.2
        | 0xdd => (readNat 4 rest).bind fun size => array size.1 size.2
        | 0xde => (readNat 2 rest).bind fun size => map size.1 size.2
        | 0xdf => (readNat 4 rest).bind fun size => map size.1 size.2
        | _ => none

/-- The library, byte for byte. -/
def codec : Codec where
  packArray := packArray
  packInt := packInt
  packUint32 := packUint32
  packStrWithBody := packStrWithBody
  packBinWithBody := packBinWithBody
  unpackNext bytes := (readObject (bytes.length + 1) bytes).map Prod.fst

/-- Exactly the bytes in front are split off. -/
@[simp] theorem takeExact_append (bytes rest : List UInt8) :
    takeExact bytes.length (bytes ++ rest) = some (bytes, rest) := by
  simp [takeExact]

/-- A number that fits its width is read back. -/
theorem readNat_append (width : Nat) {n : Nat} (fits : n < 256 ^ width) (rest : List UInt8) :
    readNat width (beBytes width n ++ rest) = some (n, rest) := by
  have split := takeExact_append (beBytes width n) rest
  rw [length_beBytes] at split
  simp [readNat, split, beValue_beBytes width fits]

/-- A body behind its length is read back. -/
theorem readBody_append (width : Nat) {bytes : List UInt8} (fits : bytes.length < 256 ^ width)
    (rest : List UInt8) :
    readBody width (beBytes width bytes.length ++ (bytes ++ rest)) = some (bytes, rest) := by
  simp [readBody, readNat_append width fits]

/-- A negative number read back from its two's complement. -/
theorem signed_negative (range n : Nat) {value : Int32} (negative : value.toInt < 0)
    (fits : -(range : Int) ≤ 2 * value.toInt) (complement : (n : Int) = value.toInt + range) :
    signed range n = value.toInt64 := by
  have low := value.le_toInt
  apply Int64.toInt_inj.mp
  have upper : ¬ 2 * n < range := by omega
  have exact : (n : Int) - range = value.toInt := by omega
  rw [signed, if_neg upper, exact, Int32.toInt_toInt64, Int64.toInt_ofInt_of_le] <;> omega

/-- A non-negative number as an unsigned object. -/
theorem integer_nonnegative {value : Int32} (nonnegative : 0 ≤ value.toInt) :
    Object.integer value.toInt64 = .positiveInteger (UInt64.ofNat value.toInt.toNat) := by
  have small := value.toInt_lt
  have same : value.toInt64.toInt = value.toInt := Int32.toInt_toInt64 value
  have ordered : (0 : Int64) ≤ value.toInt64 := by
    rw [Int64.le_iff_toInt_le, same]
    exact nonnegative
  rw [Object.integer, if_neg (by omega)]
  congr 1
  apply UInt64.toNat_inj.mp
  rw [Int64.toNat_toUInt64_of_le ordered, UInt64.toNat_ofNat', Int64.toNatClampNeg, same]
  exact (Nat.mod_eq_of_lt (by omega)).symm

/-- A negative number keeps its kind. -/
theorem integer_negative {value : Int32} (negative : value.toInt < 0) :
    Object.integer value.toInt64 = .negativeInteger value.toInt64 := by
  rw [Object.integer, if_pos (by rwa [Int32.toInt_toInt64])]

/-- The tag of a short form is the base of its range plus the value. -/
theorem toNat_tag (base n : Nat) (small : base + n < 256) :
    (UInt8.ofNat (base + n)).toNat = base + n := by
  rw [UInt8.toNat_ofNat']
  exact Nat.mod_eq_of_lt small

/-- One-byte non-negative numbers. -/
theorem readObject_fixint {depth n : Nat} (small : n < 128) (rest : List UInt8) :
    readObject (depth + 1) (UInt8.ofNat n :: rest) =
      some (.positiveInteger (UInt64.ofNat n), rest) := by
  have tag : (UInt8.ofNat n).toNat = n := by
    rw [UInt8.toNat_ofNat']
    omega
  simp [readObject, tag, small]

/-- Unsigned numbers of one, two and four bytes. -/
theorem readObject_unsigned (depth n : Nat) (rest : List UInt8) :
    (n < 256 → readObject (depth + 1) (0xcc :: (beBytes 1 n ++ rest)) =
        some (.positiveInteger (UInt64.ofNat n), rest)) ∧
      (n < 65536 → readObject (depth + 1) (0xcd :: (beBytes 2 n ++ rest)) =
        some (.positiveInteger (UInt64.ofNat n), rest)) ∧
      (n < 4294967296 → readObject (depth + 1) (0xce :: (beBytes 4 n ++ rest)) =
        some (.positiveInteger (UInt64.ofNat n), rest)) := by
  refine ⟨?_, ?_, ?_⟩ <;> intro fits
  · simp [readObject, readNat_append 1 fits]
  · simp [readObject, readNat_append 2 fits]
  · simp [readObject, readNat_append 4 fits]

/-- An unsigned number is read back, whichever width it was packed in. -/
theorem readObject_packUint32 (depth : Nat) (value : UInt32) (rest : List UInt8) :
    readObject (depth + 1) (packUint32 value ++ rest) =
      some (.positiveInteger value.toUInt64, rest) := by
  have range := value.toNat_lt
  have same : value.toUInt64 = UInt64.ofNat value.toNat := by
    apply UInt64.toNat_inj.mp
    rw [UInt64.toNat_ofNat', UInt32.toNat_toUInt64]
    omega
  obtain ⟨one, two, four⟩ := readObject_unsigned depth value.toNat rest
  rw [same, packUint32]
  split_ifs with fixint byte half
  · exact readObject_fixint fixint rest
  · exact one byte
  · exact two half
  · exact four (by omega)

/-- Signed numbers of one, two and four bytes. -/
theorem readObject_signed (depth n : Nat) (rest : List UInt8) :
    (n < 256 → readObject (depth + 1) (0xd0 :: (beBytes 1 n ++ rest)) =
        some (.integer (signed 256 n), rest)) ∧
      (n < 65536 → readObject (depth + 1) (0xd1 :: (beBytes 2 n ++ rest)) =
        some (.integer (signed 65536 n), rest)) ∧
      (n < 4294967296 → readObject (depth + 1) (0xd2 :: (beBytes 4 n ++ rest)) =
        some (.integer (signed 4294967296 n), rest)) := by
  refine ⟨?_, ?_, ?_⟩ <;> intro fits
  · simp [readObject, readNat_append 1 fits]
  · simp [readObject, readNat_append 2 fits]
  · simp [readObject, readNat_append 4 fits]

/-- So is a signed one. -/
theorem readObject_packInt (depth : Nat) (value : Int32) (rest : List UInt8) :
    readObject (depth + 1) (packInt value ++ rest) = some (.integer value.toInt64, rest) := by
  have low := value.le_toInt
  have high := value.toInt_lt
  rw [packInt]
  by_cases negative : value.toInt < 0
  · split_ifs with four two one
    · have read := (readObject_signed depth (value.toInt + 4294967296).toNat rest).2.2 (by omega)
      rwa [signed_negative _ _ negative (by omega) (by omega)] at read
    · have read := (readObject_signed depth (value.toInt + 65536).toNat rest).2.1 (by omega)
      rwa [signed_negative _ _ negative (by omega) (by omega)] at read
    · have read := (readObject_signed depth (value.toInt + 256).toNat rest).1 (by omega)
      rwa [signed_negative _ _ negative (by omega) (by omega)] at read
    · -- the tag itself is the two's complement of a number from -32 on
      have tag : (UInt8.ofNat (value.toInt + 256).toNat).toNat = (value.toInt + 256).toNat := by
        rw [UInt8.toNat_ofNat']
        omega
      have number := signed_negative 256 (value.toInt + 256).toNat negative (by omega)
        (by omega)
      simp only [List.cons_append, List.nil_append, readObject, tag]
      rw [if_neg (by omega), if_neg (by omega), if_neg (by omega), if_neg (by omega),
        if_pos (by omega), integer_negative negative]
      exact congrArg (fun i64 => some (Object.negativeInteger i64, rest)) number
  · rw [if_neg (by omega), if_neg (by omega), if_neg (by omega), if_neg negative,
      integer_nonnegative (by omega)]
    obtain ⟨one, two, four⟩ := readObject_unsigned depth value.toInt.toNat rest
    split_ifs with fixint byte half
    · exact readObject_fixint (by omega) rest
    · exact one (by omega)
    · exact two (by omega)
    · exact four (by omega)

/-- Strings of up to 255 bytes, in the fixstr or the str 8 form. -/
theorem readObject_packStr (depth : Nat) {bytes : List UInt8} (short : bytes.length ≤ 255)
    (rest : List UInt8) :
    readObject (depth + 1) (packStrWithBody bytes ++ rest) = some (.str bytes, rest) := by
  rw [packStrWithBody]
  by_cases fixed : bytes.length < 32
  · have tag := toNat_tag 0xa0 bytes.length (by omega)
    rw [if_pos fixed, List.cons_append, readObject]
    simp only [tag]
    rw [if_neg (by omega), if_neg (by omega), if_neg (by omega), if_pos (by omega),
      Nat.add_sub_cancel_left, takeExact_append]
    rfl
  · have body := readBody_append 1 (show bytes.length < 256 ^ 1 by omega) rest
    rw [if_neg fixed, if_pos (by omega)]
    simp [readObject, body]

/-- Byte strings of up to 255 bytes. -/
theorem readObject_packBin (depth : Nat) {bytes : List UInt8} (short : bytes.length ≤ 255)
    (rest : List UInt8) :
    readObject (depth + 1) (packBinWithBody bytes ++ rest) = some (.bin bytes, rest) := by
  have body := readBody_append 1 (show bytes.length < 256 ^ 1 by omega) rest
  rw [packBinWithBody, if_pos (by omega)]
  simp [readObject, body]

/-- Every scalar a client packs is read back. -/
theorem readObject_pack (depth : Nat) {scalar : Scalar} (short : scalar.Short)
    (rest : List UInt8) :
    readObject (depth + 1) (codec.pack scalar ++ rest) = some (scalar.object, rest) := by
  cases scalar with
  | int value => exact readObject_packInt depth value rest
  | uint32 value => exact readObject_packUint32 depth value rest
  | str bytes => exact readObject_packStr depth short rest
  | bin bytes => exact readObject_packBin depth short rest

/-- A sequence of packed scalars is read back in order. -/
theorem readItems_pack (depth : Nat) {scalars : List Scalar}
    (short : ∀ scalar ∈ scalars, scalar.Short) (rest : List UInt8) :
    readItems (readObject (depth + 1)) scalars.length (scalars.flatMap codec.pack ++ rest) =
      some (scalars.map Scalar.object, rest) := by
  induction scalars with
  | nil => rfl
  | cons scalar scalars ih =>
      have head := readObject_pack depth (short scalar List.mem_cons_self)
        (scalars.flatMap codec.pack ++ rest)
      have tail := ih fun other member => short other (List.mem_cons_of_mem _ member)
      simp [readItems, head, tail]

/-- The size of a packed scalar is that of its body and a short header. -/
theorem length_pack {scalar : Scalar} (short : scalar.Short) :
    scalar.body.length + 1 ≤ (codec.pack scalar).length ∧
      (codec.pack scalar).length ≤ scalar.body.length + 5 := by
  cases scalar with
  | int value =>
      simp only [codec, Codec.pack, packInt, Scalar.body]
      split_ifs <;> simp
  | uint32 value =>
      simp only [codec, Codec.pack, packUint32, Scalar.body]
      split_ifs <;> simp
  | str bytes =>
      simp only [codec, Codec.pack, packStrWithBody, Scalar.body]
      split_ifs <;> simp <;> omega
  | bin bytes =>
      simp only [codec, Codec.pack, packBinWithBody, Scalar.body]
      split_ifs <;> simp <;> omega

/-- The format meets the promises of the interface. -/
theorem codec_lawful : codec.Lawful where
  unpack_packed scalars rest few short := by
    have tag := toNat_tag 0x90 scalars.length (by omega)
    have items := fun depth => readItems_pack depth short rest
    have header : codec.packArray scalars.length = [UInt8.ofNat (0x90 + scalars.length)] := by
      simp only [codec, packArray]
      rw [if_pos (by omega)]
    rw [header]
    simp only [codec, List.cons_append, List.nil_append, List.length_cons, readObject, tag]
    rw [if_neg (by omega), if_neg (by omega), if_pos (by omega), Nat.add_sub_cancel_left]
    simp only [List.length_append]
    have depth := items (scalars.flatMap codec.pack ++ rest).length
    rw [List.length_append] at depth
    simp only [codec] at depth
    rw [depth]
    rfl
  length_packArray n := by
    simp only [codec, packArray]
    split_ifs <;> simp
  length_pack _ short := length_pack short

end Sdpf.Msgpack.Wire
