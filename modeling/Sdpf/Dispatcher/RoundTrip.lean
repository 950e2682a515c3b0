import Sdpf.Dispatcher.Decoder

/-!
# Meta data there and back

Meta data as a sender fills it is written in between 5 and 137 bytes, and the decoder
reads the struct back from them, whatever bytes follow. Only one member of the union
is in use; the other one is as zeroed, before and after.
-/

namespace Sdpf.Dispatcher

open Sdpf.Data Sdpf.Msgpack

/-- The meta data of a request with the names in zeroed fields. -/
def requestOf (id : UInt32) (service method : CStr) (serviceRoom : service.strlen < 64)
    (methodRoom : method.strlen < 64) : MetaRpc :=
  { MetaRpc.zero with
    type := rpctypeRequest
    relationId := id
    req := ⟨.padded service serviceRoom, .padded method methodRoom⟩ }

/-- The meta data of a response with the text in a zeroed field. -/
def responseOf (id : UInt32) (code : Int32) (text : CStr) (room : text.strlen < 64) : MetaRpc :=
  { MetaRpc.zero with
    type := rpctypeResponse
    relationId := id
    rsp := ⟨code, .padded text room⟩ }

/-- Requests and responses whose texts leave room for a terminator. -/
inductive MetaRpc.Filled : MetaRpc → Prop where
  | request (id : UInt32) (service method : CStr) (serviceRoom : service.strlen < 64)
      (methodRoom : method.strlen < 64) :
      Filled (requestOf id service method serviceRoom methodRoom)
  | response (id : UInt32) (code : Int32) (text : CStr) (room : text.strlen < 64) :
      Filled (responseOf id code text room)

/-- A number takes its tag and at most four bytes. -/
theorem length_packUint32 (value : UInt32) :
    1 ≤ (Wire.packUint32 value).length ∧ (Wire.packUint32 value).length ≤ 5 :=
  @Wire.length_pack (.uint32 value) (Nat.zero_le _)

/-- An integer takes between one and five bytes. -/
theorem length_packInt (value : Int32) :
    1 ≤ (Wire.packInt value).length ∧ (Wire.packInt value).length ≤ 5 :=
  @Wire.length_pack (.int value) (Nat.zero_le _)

/-- A text that leaves room for a terminator takes at most two bytes in front of it. -/
theorem length_packStr {text : CStr} (room : text.strlen < 64) :
    1 ≤ (Wire.packStrWithBody text.bytes).length ∧
      (Wire.packStrWithBody text.bytes).length ≤ 65 := by
  simp only [CStr.strlen] at room
  simp only [Wire.packStrWithBody]
  split_ifs <;> simp <;> omega

/-- What the unpacker makes of the scalars of meta data, whatever follows them. -/
theorem unpack_meta {scalars : List Scalar} (four : scalars.length = 4)
    (short : ∀ scalar ∈ scalars, scalar.Short) (rest : List UInt8) :
    Wire.codec.unpackNext
        (Wire.codec.packArray 4 ++ scalars.flatMap Wire.codec.pack ++ rest) =
      some (.array (scalars.map Scalar.object)) := by
  have unpacked := Wire.codec_lawful.unpack_packed scalars rest (by omega) short
  rwa [four] at unpacked

/-- A text that fits its field fits its format. -/
theorem short_str {text : CStr} (room : text.strlen < 64) : (Scalar.str text.bytes).Short :=
  Nat.le_trans (Nat.le_of_lt room) (by decide)

/-- A request is written in 5 to 137 bytes. -/
theorem length_request (id : UInt32) {service method : CStr} (serviceRoom : service.strlen < 64)
    (methodRoom : method.strlen < 64) :
    let packed := Wire.codec.packArray 4 ++
      (requestScalars id service method).flatMap Wire.codec.pack
    5 ≤ packed.length ∧ packed.length ≤ 137 := by
  have header : (Wire.codec.packArray 4).length = 1 := by decide
  have type : (Wire.packInt 1).length = 1 := by decide
  have relation := length_packUint32 id
  have first := length_packStr serviceRoom
  have second := length_packStr methodRoom
  simp only [requestScalars, List.flatMap_cons, List.flatMap_nil, List.length_append,
    List.length_nil, Codec.pack, Wire.codec] at header ⊢
  omega

/-- A response is written in 5 to 77 bytes. -/
theorem length_response (id : UInt32) (code : Int32) {text : CStr} (room : text.strlen < 64) :
    let packed := Wire.codec.packArray 4 ++
      (responseScalars id code text).flatMap Wire.codec.pack
    5 ≤ packed.length ∧ packed.length ≤ 77 := by
  have header : (Wire.codec.packArray 4).length = 1 := by decide
  have type : (Wire.packInt 2).length = 1 := by decide
  have relation := length_packUint32 id
  have coded := length_packInt code
  have written := length_packStr room
  simp only [responseScalars, List.flatMap_cons, List.flatMap_nil, List.length_append,
    List.length_nil, Codec.pack, Wire.codec] at header ⊢
  omega

/-- The scalars of a request are read back into its struct. -/
theorem deserializeMeta_requestOf (id : UInt32) {service method : CStr}
    (serviceRoom : service.strlen < 64) (methodRoom : method.strlen < 64) (rest : List UInt8) :
    deserializeMeta Wire.codec .zero
        (Wire.codec.packArray 4 ++
          (requestScalars id service method).flatMap Wire.codec.pack ++ rest) =
      .ok (0, requestOf id service method serviceRoom methodRoom) := by
  have short : ∀ scalar ∈ requestScalars id service method, scalar.Short := by
    intro scalar member
    simp only [requestScalars, List.mem_cons, List.not_mem_nil, or_false] at member
    rcases member with rfl | rfl | rfl | rfl
    · exact Nat.zero_le _
    · exact Nat.zero_le _
    · exact short_str serviceRoom
    · exact short_str methodRoom
  have unpacked := unpack_meta rfl short rest
  simp only [requestScalars, List.map_cons, List.map_nil, Scalar.object] at unpacked
  rw [requestScalars, deserializeMeta_request unpacked (Object.viaI64_integer _) rfl (by decide)
    (Nat.le_of_lt serviceRoom) (Nat.le_of_lt methodRoom)]
  simp only [MetaRpc.zero, CharArray.strncpy_padded _ serviceRoom,
    CharArray.strncpy_padded _ methodRoom, UInt32.toUInt32_toUInt64]
  rfl

/-- The scalars of a response are read back into its struct. -/
theorem deserializeMeta_responseOf (id : UInt32) (code : Int32) {text : CStr}
    (room : text.strlen < 64) (rest : List UInt8) :
    deserializeMeta Wire.codec .zero
        (Wire.codec.packArray 4 ++
          (responseScalars id code text).flatMap Wire.codec.pack ++ rest) =
      .ok (0, responseOf id code text room) := by
  have short : ∀ scalar ∈ responseScalars id code text, scalar.Short := by
    intro scalar member
    simp only [responseScalars, List.mem_cons, List.not_mem_nil, or_false] at member
    rcases member with rfl | rfl | rfl | rfl
    · exact Nat.zero_le _
    · exact Nat.zero_le _
    · exact Nat.zero_le _
    · exact short_str room
  have unpacked := unpack_meta rfl short rest
  simp only [responseScalars, List.map_cons, List.map_nil, Scalar.object] at unpacked
  rw [responseScalars, deserializeMeta_response unpacked (Object.viaI64_integer _) rfl (by decide)
    (Object.viaI64_integer _) (Nat.le_of_lt room)]
  simp only [MetaRpc.zero, CharArray.strncpy_padded _ room, UInt32.toUInt32_toUInt64,
    Int32.toInt32_toInt64]
  rfl

/-- Meta data as a sender fills it is read back from the bytes it is written in. -/
theorem serializeMeta_roundTrip {m : MetaRpc} (filled : m.Filled) :
    ∃ bytes : List UInt8,
      serializeMeta Wire.codec m = ((bytes.length : Int), bytes) ∧
        5 ≤ bytes.length ∧ bytes.length ≤ 137 ∧
        ∀ rest, deserializeMeta Wire.codec .zero (bytes ++ rest) = .ok (0, m) := by
  cases filled with
  | request id service method serviceRoom methodRoom =>
      have written := serializeMeta_request Wire.codec
        (m := requestOf id service method serviceRoom methodRoom) rfl
      obtain ⟨some_bytes, few⟩ := length_request id serviceRoom methodRoom
      simp only [requestOf, CharArray.text_padded] at written
      exact ⟨_, written, some_bytes, few, deserializeMeta_requestOf id serviceRoom methodRoom⟩
  | response id code text room =>
      have written := serializeMeta_response Wire.codec (m := responseOf id code text room) rfl
      obtain ⟨some_bytes, few⟩ := length_response id code room
      simp only [responseOf, CharArray.text_padded] at written
      exact ⟨_, written, some_bytes, Nat.le_trans few (by decide),
        deserializeMeta_responseOf id code room⟩

/-- A request with names on either side of the boundary between the two string forms. -/
theorem serializeMeta_roundTrip_boundary :
    ∃ m : MetaRpc, m.Filled ∧ m.req.service.text.strlen = 31 ∧ m.req.method.text.strlen = 32 ∧
      ∃ bytes : List UInt8,
        serializeMeta Wire.codec m = ((bytes.length : Int), bytes) ∧
          5 ≤ bytes.length ∧ bytes.length ≤ 137 ∧
          ∀ rest, deserializeMeta Wire.codec .zero (bytes ++ rest) = .ok (0, m) := by
  have filled : (requestOf 65536 ⟨List.replicate 31 0x61, by decide⟩
      ⟨List.replicate 32 0x62, by decide⟩ (by decide) (by decide)).Filled := .request ..
  exact ⟨_, filled, by rw [requestOf, CharArray.text_padded]; rfl,
    by rw [requestOf, CharArray.text_padded]; rfl, serializeMeta_roundTrip filled⟩

end Sdpf.Dispatcher
