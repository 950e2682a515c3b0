import Sdpf.Channel.Parsing

/-!
# What the sender writes

`send_packet` writes the header first and patches the two lengths into it once it
knows them. Whatever it builds is a well-formed frame of at most the 1024 bytes of a
new buffer, and carries the id, names or code, and body it was built from
(`buildPacket_frame`).
-/

namespace Sdpf.Channel

open Sdpf.Data Sdpf.Buffer Sdpf.Msgpack Sdpf.Dispatcher Sdpf.Stream

/-- `_METHOD_NOTIFY`, the text "notify". -/
def methodNotify : CStr := ⟨[0x6e, 0x6f, 0x74, 0x69, 0x66, 0x79], by decide⟩

/-- `strncpy(field, name, sizeof(field) - 1)` into a zeroed field. -/
def nameField (name : CStr) : CharArray 64 := (CharArray.zero 64).strncpy name.bytes 63 (by decide)

/-- The meta data of a call. -/
def requestMeta (id : UInt32) (service method : CStr) : MetaRpc :=
  { MetaRpc.zero with
    type := rpctypeRequest
    relationId := id
    req := ⟨nameField service, nameField method⟩ }

/-- The meta data of an answer. -/
def responseMeta (id : UInt32) (code : Int32) : MetaRpc :=
  { MetaRpc.zero with
    type := rpctypeResponse
    relationId := id
    rsp := ⟨code, .zero 64⟩ }

/-- What a channel sends. -/
inductive Outgoing where
  | request (id : UInt32) (service method : CStr) (msg : Option RpcMessage)
  | response (id : UInt32) (code : Int32) (msg : Option RpcMessage)

namespace Outgoing

def metaRpc : Outgoing → MetaRpc
  | request id service method _ => requestMeta id service method
  | response id code _ => responseMeta id code

def msg : Outgoing → Option RpcMessage
  | request _ _ _ msg => msg
  | response _ _ msg => msg

/-- The names fit their fields. -/
def Named : Outgoing → Prop
  | request _ service method _ => service.strlen ≤ 63 ∧ method.strlen ≤ 63
  | response _ _ _ => True

/-- The bytes the message writes into the space left by header and meta data. -/
def body (codec : Codec) (out : Outgoing) : List UInt8 :=
  match out.msg with
  | none => []
  | some msg =>
      (msg.serialize (IOBuf.initialSize - HeaderPacket.size -
        (serializeMeta codec out.metaRpc).2.length)).2

/-- The packet as it arrives: names may have been cut to their fields. -/
def packet (codec : Codec) (out : Outgoing) : Packet :=
  match out with
  | request id service method _ =>
      .request id (nameField service) (nameField method) (out.body codec)
  | response id code _ => .response id code (.zero 64) (out.body codec)

/-- The packet arrives with the same id, names or code, and body. -/
inductive CarriedBy (codec : Codec) : Outgoing → Packet → Prop where
  | request {id : UInt32} {service method : CStr} {msg : Option RpcMessage}
      {serviceField methodField : CharArray 64}
      (sameService : serviceField.text = service) (sameMethod : methodField.text = method) :
      CarriedBy codec (.request id service method msg)
        (.request id serviceField methodField ((request id service method msg).body codec))
  | response {id : UInt32} {code : Int32} {msg : Option RpcMessage} {text : CharArray 64} :
      CarriedBy codec (.response id code msg)
        (.response id code text ((response id code msg).body codec))

end Outgoing

/-- The scalars of the meta data. -/
def Outgoing.scalars : Outgoing → List Scalar
  | .request id service method _ =>
      requestScalars id (nameField service).text (nameField method).text
  | .response id code _ => responseScalars id code CStr.empty

/-- The meta data as it is sent. -/
def Outgoing.metaBytes (codec : Codec) (out : Outgoing) : List UInt8 :=
  codec.packArray 4 ++ out.scalars.flatMap codec.pack

/-- A name field holds the first 63 bytes of the name. -/
theorem text_nameField (name : CStr) : (nameField name).text.bytes = name.bytes.take 63 :=
  CharArray.text_strncpy_zero name _

/-- A packet under construction: nothing of it has been read, and `bytes` is what has
been written. -/
structure Packed (pb : IOBuf) (bytes : List UInt8) : Prop where
  valid : pb.Valid
  front : pb.readIndex = 0
  capacity : pb.capacity = IOBuf.initialSize
  readable : pb.readable = bytes

namespace Packed

variable {pb : IOBuf} {bytes : List UInt8}

/-- The write index counts what has been written. -/
theorem writeIndex (packed : Packed pb bytes) : pb.writeIndex = bytes.length := by
  have length := packed.valid.length_readable
  rw [packed.readable, packed.front] at length
  omega

/-- What has not been written is writable. -/
theorem writableBytes (packed : Packed pb bytes) :
    pb.writableBytes = IOBuf.initialSize - bytes.length := by
  have size := packed.capacity
  rw [packed.valid.writableBytes_eq, packed.writeIndex]
  unfold IOBuf.capacity at size
  rw [size]

/-- Serialising more bytes behind those already written. -/
theorem append (packed : Packed pb bytes) (more : List UInt8)
    (fits : bytes.length + more.length ≤ IOBuf.initialSize) :
    Packed ((pb.fill more).hasWritten more.length).2 (bytes ++ more) := by
  have room : more.length ≤ pb.writableBytes := by rw [packed.writableBytes]; omega
  obtain ⟨_, valid, appended, same, _⟩ := packed.valid.hasWritten room
  refine ⟨valid, ?_, same.trans packed.capacity, by rw [appended, packed.readable]⟩
  unfold IOBuf.hasWritten
  split <;> exact packed.front

/-- Patching a length into what has been written. -/
theorem setLength (packed : Packed pb bytes) (offset n : Nat) (inside : offset + 2 ≤ bytes.length) :
    Packed (setLength pb offset n) (store bytes offset (beBytes 2 n)) := by
  have bounded := packed.valid.bounded
  have front := packed.front
  have writeIndex := packed.writeIndex
  have valid : (Channel.setLength pb offset n).Valid :=
    ⟨packed.valid.ordered, by simpa [Channel.setLength] using bounded,
      by simpa [Channel.setLength] using packed.valid.allocated⟩
  refine ⟨valid, front, ?_, ?_⟩
  · simpa [Channel.setLength, IOBuf.capacity] using packed.capacity
  · have content : pb.buff.take bytes.length = bytes := by
      have readable := packed.readable
      rwa [IOBuf.readable, packed.valid.readableBytes_eq, front, writeIndex, slice, List.drop_zero,
        Nat.sub_zero] at readable
    have here : pb.readable = pb.buff.take bytes.length := by rw [packed.readable, content]
    rw [IOBuf.readable, valid.readableBytes_eq]
    simp only [Channel.setLength, Int.toNat_natCast, front, writeIndex, slice, List.drop_zero,
      Nat.sub_zero]
    rw [take_store (by omega) (by simpa using inside), content]

end Packed

section Meta

variable {codec : Codec} {out : Outgoing}

/-- `serialize_meta` writes the four scalars and returns their length. -/
theorem serializeMeta_outgoing (codec : Codec) (out : Outgoing) :
    serializeMeta codec out.metaRpc =
      (((out.metaBytes codec).length : Int), out.metaBytes codec) := by
  cases out with
  | request id service method msg =>
      exact serializeMeta_request codec (m := requestMeta id service method) rfl
  | response id code msg =>
      have sent := serializeMeta_response codec (m := responseMeta id code) rfl
      simp only [responseMeta, CharArray.text_zero] at sent
      exact sent

/-- Every scalar fits its format. -/
theorem scalars_short (out : Outgoing) : ∀ scalar ∈ out.scalars, scalar.Short := by
  have named : ∀ name, (nameField name).text.bytes.length ≤ 63 := fun name => by
    rw [text_nameField, List.length_take]
    omega
  cases out with
  | request id service method msg =>
      have first := named service
      have second := named method
      intro scalar member
      simp only [Outgoing.scalars, requestScalars, List.mem_cons, List.not_mem_nil, or_false]
        at member
      rcases member with rfl | rfl | rfl | rfl <;> simp [Scalar.Short, Scalar.body] <;> omega
  | response id code msg =>
      intro scalar member
      simp only [Outgoing.scalars, responseScalars, List.mem_cons, List.not_mem_nil, or_false]
        at member
      rcases member with rfl | rfl | rfl | rfl <;> simp [Scalar.Short, Scalar.body, CStr.empty]

/-- Meta data that is accepted takes at least one byte and fits easily. -/
theorem length_serializeMeta (law : codec.Lawful) {m : MetaRpc}
    (accepted : 0 < (serializeMeta codec m).1) :
    (serializeMeta codec m).1 = (serializeMeta codec m).2.length ∧
      1 ≤ (serializeMeta codec m).2.length ∧ (serializeMeta codec m).2.length ≤ 153 := by
  have array := law.length_packArray 4
  have number := fun value => law.length_pack (.int value) (Nat.zero_le _)
  have relation := law.length_pack (.uint32 m.relationId) (Nat.zero_le _)
  have text : ∀ field : CharArray 64,
      1 ≤ (codec.packStrWithBody field.text.bytes).length ∧
        (codec.packStrWithBody field.text.bytes).length ≤ 69 := fun field => by
    have inside := field.length_text_le
    have packed := law.length_pack (.str field.text.bytes) (Nat.le_trans inside (by decide))
    simp only [Scalar.body, Codec.pack] at packed
    omega
  have type := number m.type.toInt32
  have code := number m.rsp.code
  have service := text m.req.service
  have method := text m.req.method
  have detail := text m.rsp.text
  simp only [Scalar.body, Codec.pack, List.length_nil] at type code relation
  unfold serializeMeta at *
  split_ifs at accepted ⊢ with request response
  · refine ⟨rfl, ?_⟩
    simp only [List.length_append]
    omega
  · refine ⟨rfl, ?_⟩
    simp only [List.length_append]
    omega
  · cases accepted

/-- Meta data takes between one and 153 bytes. -/
theorem length_metaBytes (law : codec.Lawful) (out : Outgoing) :
    1 ≤ (out.metaBytes codec).length ∧ (out.metaBytes codec).length ≤ 153 := by
  have array := law.length_packArray 4
  have positive : 0 < (serializeMeta codec out.metaRpc).1 := by
    rw [serializeMeta_outgoing, Outgoing.metaBytes, List.length_append]
    omega
  have limits := length_serializeMeta law positive
  rw [serializeMeta_outgoing] at limits
  exact limits.2

/-- The receiver decodes the meta data to what was sent. -/
theorem deserializeMeta_outgoing (law : codec.Lawful) (out : Outgoing) (type : UInt32) :
    ∃ m, deserializeMeta codec (.fresh type) (out.metaBytes codec) = .ok (0, m) ∧
      dispatch m (out.body codec) = some (out.packet codec) := by
  have unpacked : codec.unpackNext (out.metaBytes codec) =
      some (.array (out.scalars.map Scalar.object)) := by
    have four : out.scalars.length = 4 := by cases out <;> rfl
    have whole := law.unpack_packed out.scalars [] (by omega) (scalars_short out)
    rwa [four, List.append_nil] at whole
  cases out with
  | request id service method msg =>
      have fits : ∀ name, (nameField name).text.bytes.length ≤ 64 := fun name => by
        rw [text_nameField, List.length_take]
        omega
      simp only [Outgoing.scalars, requestScalars, List.map_cons, Scalar.object, List.map_nil]
        at unpacked
      refine ⟨_, deserializeMeta_request unpacked (Object.viaI64_integer _) rfl (by decide)
        (fits service) (fits method), ?_⟩
      have copied : ∀ name, (CharArray.zero 64).strncpy (nameField name).text.bytes
          (nameField name).text.bytes.length (fits name) = nameField name :=
        fun name => CharArray.strncpy_text name _ (fits name)
      simp only [MetaRpc.fresh, MetaRpc.zero, copied, UInt32.toUInt32_toUInt64]
      rfl
  | response id code msg =>
      simp only [Outgoing.scalars, responseScalars, List.map_cons, Scalar.object, List.map_nil]
        at unpacked
      refine ⟨_, deserializeMeta_response unpacked (Object.viaI64_integer _) rfl (by decide)
        (Object.viaI64_integer _) (Nat.zero_le _), ?_⟩
      simp only [UInt32.toUInt32_toUInt64, Int32.toInt32_toInt64]
      rfl

/-- Names that fit their fields arrive as they were. -/
theorem carriedBy_packet (named : out.Named) : out.CarriedBy codec (out.packet codec) := by
  have texts : ∀ name : CStr, name.strlen ≤ 63 → (nameField name).text = name := fun name fits =>
    CStr.ext (by rw [text_nameField]; exact List.take_of_length_le fits)
  cases out with
  | request id service method msg => exact .request (texts service named.1) (texts method named.2)
  | response id code msg => exact .response

end Meta

section Build

variable {codec : Codec} {out : Outgoing} {pb : IOBuf}

/-- Patching the length of the meta data into a header. -/
theorem store_metaLen {header : HeaderPacket} (mark : header.mark = erpc) (n : Nat)
    (rest : List UInt8) :
    store (header.encode ++ rest) 6 (beBytes 2 n) =
      { header with metaLen := UInt16.ofNat n }.encode ++ rest := by
  have same : beBytes 2 (UInt16.ofNat n).toNat = beBytes 2 n := by
    rw [UInt16.toNat_ofNat']
    exact beBytes_mod 2 n
  simp only [HeaderPacket.encode, same]
  simp [mark, erpc, store, beBytes]

/-- Patching the length of the body into a header. -/
theorem store_bodyLen {header : HeaderPacket} (mark : header.mark = erpc) (n : Nat)
    (rest : List UInt8) :
    store (header.encode ++ rest) 4 (beBytes 2 n) =
      { header with bodyLen := UInt16.ofNat n }.encode ++ rest := by
  have same : beBytes 2 (UInt16.ofNat n).toNat = beBytes 2 n := by
    rw [UInt16.toNat_ofNat']
    exact beBytes_mod 2 n
  simp only [HeaderPacket.encode, same]
  simp [mark, erpc, store, beBytes]

/-- The header without lengths passes the check. -/
theorem blank_accepted (type : UInt32) : (HeaderPacket.blank type).Accepted := ⟨rfl, rfl, rfl⟩

/-- The header is written first. -/
theorem packHeader_packed (type : UInt32) :
    Packed (packHeader type) (HeaderPacket.blank type).encode := by
  have created : Packed (IOBuf.create IOBuf.initialSize) [] :=
    ⟨IOBuf.create_valid (by decide), rfl, IOBuf.create_capacity _, IOBuf.create_readable _⟩
  have length := (blank_accepted type).length_encode
  have written := created.append (HeaderPacket.blank type).encode
    (by rw [length]; decide)
  rw [length] at written
  exact written

/-- The header of a packet with the given lengths. -/
def sentHeader (type : UInt32) (metaLen bodyLen : Nat) : HeaderPacket :=
  { HeaderPacket.blank type with
    metaLen := UInt16.ofNat metaLen
    bodyLen := UInt16.ofNat bodyLen }

/-- Whatever lengths are patched into it, the header passes the check. -/
theorem sentHeader_accepted (type : UInt32) (metaLen bodyLen : Nat) :
    (sentHeader type metaLen bodyLen).Accepted := ⟨rfl, rfl, rfl⟩

/-- Header and meta data of a packet under construction. -/
theorem packMeta_serialized (law : codec.Lawful) {m : MetaRpc}
    (accepted : 0 < (serializeMeta codec m).1) :
    ∃ pb, packMeta codec m = .ok pb ∧
      Packed pb ((sentHeader m.type (serializeMeta codec m).2.length 0).encode ++
        (serializeMeta codec m).2) := by
  obtain ⟨same, some_bytes, few⟩ := length_serializeMeta law accepted
  have length := (blank_accepted m.type).length_encode
  have whole := ((packHeader_packed m.type).append (serializeMeta codec m).2
    (by rw [length]; unfold HeaderPacket.size IOBuf.initialSize; omega)).setLength
    6 (serializeMeta codec m).2.length
    (by rw [List.length_append, length]; unfold HeaderPacket.size; omega)
  rw [store_metaLen rfl] at whole
  refine ⟨_, ?_, whole⟩
  simp only [packMeta, gt_iff_lt]
  rw [if_pos accepted, same, Int.toNat_natCast]

/-- Behind the header the meta data is written, and its length patched in. -/
theorem packMeta_packed (law : codec.Lawful) (out : Outgoing) :
    ∃ pb, packMeta codec out.metaRpc = .ok pb ∧
      Packed pb ((sentHeader out.metaRpc.type (out.metaBytes codec).length 0).encode ++
        out.metaBytes codec) := by
  have some_bytes := (length_metaBytes law out).1
  have serialized := serializeMeta_outgoing codec out
  have packed := packMeta_serialized law (m := out.metaRpc) (by rw [serialized]; omega)
  rwa [serialized] at packed

/-- What was built is header, meta data and body, all in one buffer. -/
theorem buildPacket_packed (law : codec.Lawful)
    (built : buildPacket codec out.metaRpc out.msg = .ok pb) :
    Packed pb ((sentHeader out.metaRpc.type (out.metaBytes codec).length
        (out.body codec).length).encode ++ out.metaBytes codec ++ out.body codec) ∧
      HeaderPacket.size + (out.metaBytes codec).length + (out.body codec).length ≤
        IOBuf.initialSize := by
  obtain ⟨some_bytes, few⟩ := length_metaBytes law out
  obtain ⟨front, packed, frontPacked⟩ := packMeta_packed law out
  have length := (sentHeader_accepted out.metaRpc.type (out.metaBytes codec).length 0).length_encode
  have room := frontPacked.writableBytes
  rw [List.length_append, length, ← Nat.sub_sub] at room
  simp only [buildPacket, packed, bind, Except.bind] at built
  cases message : out.msg with
  | none =>
      have empty : out.body codec = [] := by simp only [Outgoing.body, message]
      rw [message, packBody] at built
      cases built
      rw [empty, List.append_nil, List.length_nil]
      exact ⟨frontPacked, by unfold HeaderPacket.size IOBuf.initialSize; omega⟩
  | some msg =>
      have body : out.body codec = (msg.serialize front.writableBytes).2 := by
        simp only [Outgoing.body, message, serializeMeta_outgoing, room]
      rw [message, packBody] at built
      split_ifs at built with positive
      obtain ⟨count, within⟩ := msg.honest _ positive
      rw [← body] at count within built
      rw [room] at within
      have fits : HeaderPacket.size + (out.metaBytes codec).length + (out.body codec).length ≤
          IOBuf.initialSize := by
        unfold HeaderPacket.size IOBuf.initialSize at *
        omega
      rw [count, Int.toNat_natCast] at built
      cases built
      refine ⟨?_, fits⟩
      have whole := (frontPacked.append (out.body codec)
        (by rw [List.length_append, length]; exact fits)).setLength 4 (out.body codec).length
        (by rw [List.length_append, List.length_append, length]; unfold HeaderPacket.size; omega)
      rw [List.append_assoc, store_bodyLen rfl, ← List.append_assoc] at whole
      exact whole

/-- A packet that cannot be built is reported. -/
theorem buildPacket_error {m : MetaRpc} {msg : Option RpcMessage} {ret : Int}
    (failed : buildPacket codec m msg = .error ret) : ret ≠ 0 := by
  simp only [buildPacket, bind, Except.bind, packMeta] at failed
  split at failed
  · next error unpacked =>
      split_ifs at unpacked
      cases unpacked
      cases failed
      decide
  · next front packed =>
      cases msg with
      | none => cases failed
      | some msg =>
          simp only [packBody] at failed
          split_ifs at failed
          cases failed
          decide

/-- A packet that was built is a well-formed frame of at most 1024 bytes. -/
theorem buildPacket_wellFormed (law : codec.Lawful)
    (built : buildPacket codec out.metaRpc out.msg = .ok pb) :
    pb.readable.length ≤ IOBuf.initialSize ∧
      WellFormedFrame codec pb.readable (out.packet codec) := by
  obtain ⟨packed, fits⟩ := buildPacket_packed law built
  have accepted := sentHeader_accepted out.metaRpc.type (out.metaBytes codec).length
    (out.body codec).length
  obtain ⟨m, decoded, dispatched⟩ := deserializeMeta_outgoing law out
    (sentHeader out.metaRpc.type (out.metaBytes codec).length
      (out.body codec).length).type.toUInt32
  have small : ∀ n, n ≤ IOBuf.initialSize → (UInt16.ofNat n).toNat = n := fun n fits => by
    unfold IOBuf.initialSize at fits
    rw [UInt16.toNat_ofNat', Nat.mod_eq_of_lt (by omega)]
  rw [packed.readable]
  refine ⟨?_, .intro accepted (small _ (by omega)) (small _ (by omega)) decoded dispatched⟩
  rw [List.length_append, List.length_append, accepted.length_encode]
  exact fits

/-- It carries what it was built from. -/
theorem buildPacket_frame (law : codec.Lawful) (named : out.Named)
    (built : buildPacket codec out.metaRpc out.msg = .ok pb) :
    pb.readable.length ≤ IOBuf.initialSize ∧
      ∃ packet, WellFormedFrame codec pb.readable packet ∧ out.CarriedBy codec packet := by
  obtain ⟨limit, wellFormed⟩ := buildPacket_wellFormed law built
  exact ⟨limit, _, wellFormed, carriedBy_packet named⟩

end Build

end Sdpf.Channel
