import Sdpf.Channel.Frames

/-!
# Response packets

A response packet is a whole frame that a receiver dispatches as a response. What
`send_packet` builds of a message that returns too much starts like one, but its header
announces bytes that are not there; `buildAny_response_iff` says which messages lead to a
response packet, and that its id and its code are those it was built from.
-/

namespace Sdpf.Channel

open Sdpf.Data Sdpf.Buffer Sdpf.Msgpack Sdpf.Dispatcher

/-- A whole frame that is dispatched as the response to the request with this id, with this
code. -/
def ResponseFrame (codec : Codec) (id : UInt32) (code : Int32) (frame : List UInt8) : Prop :=
  ∃ text body, WellFormedFrame codec frame (.response id code text body)

/-- There is no message, or it returns a positive length within the space it is offered. -/
def Serializes (codec : Codec) (m : MetaRpc) (msg : Option AnyMessage) : Prop :=
  ∀ some_msg ∈ msg, 0 < (some_msg.serialize (bodySpace codec m)).1 ∧
    (some_msg.serialize (bodySpace codec m)).1 ≤ bodySpace codec m

/-- The message claims a multiple of 65536 bytes. None of them is sent, and 16 bits of the
header announce none. -/
def Vanishes (codec : Codec) (m : MetaRpc) (msg : Option AnyMessage) : Prop :=
  ∃ some_msg ∈ msg, 0 < (some_msg.serialize (bodySpace codec m)).1 ∧
    (some_msg.serialize (bodySpace codec m)).1 % 65536 = 0

variable {codec : Codec} {msg : Option AnyMessage}

/-- The meta data of an answer is decoded to its id and its code. -/
theorem deserializeMeta_response (law : codec.Lawful) (id : UInt32) (code : Int32)
    (type : UInt32) :
    ∃ m, deserializeMeta codec (.fresh type)
        ((Outgoing.response id code none).metaBytes codec) = .ok (0, m) ∧
      m.type = rpctypeResponse ∧ m.relationId = id ∧ m.rsp.code = code := by
  obtain ⟨m, decoded, dispatched⟩ := deserializeMeta_outgoing law (.response id code none) type
  refine ⟨m, decoded, ?_⟩
  unfold dispatch at dispatched
  split_ifs at dispatched with request response
  · cases dispatched
  · simp only [Outgoing.packet, Option.some.injEq, Packet.response.injEq] at dispatched
    exact ⟨response, dispatched.1, dispatched.2.1⟩

/-- A message of which a packet has been built returned a positive length. -/
theorem positive_of_buildAny (law : codec.Lawful) {m : MetaRpc} {msg : AnyMessage} {pb : IOBuf}
    (accepted : 0 < (serializeMeta codec m).1) (built : buildAny codec m (some msg) = .ok pb) :
    0 < (msg.serialize (bodySpace codec m)).1 := by
  obtain ⟨front, packed, content⟩ := packMeta_serialized law accepted
  rw [content.bodySpace_eq]
  simp only [buildAny, packed, packAny, bind, Except.bind] at built
  split_ifs at built with positive
  exact positive

/-- The meta data of an answer is accepted. -/
theorem serializeMeta_answer (law : codec.Lawful) (id : UInt32) (code : Int32) :
    0 < (serializeMeta codec (responseMeta id code)).1 := by
  have serialized := serializeMeta_outgoing codec (.response id code none)
  obtain ⟨some_bytes, _⟩ := length_metaBytes law (.response id code none)
  rw [show responseMeta id code = (Outgoing.response id code none).metaRpc from rfl, serialized]
  exact Int.natCast_pos.mpr some_bytes

/-- What bytes that start like an answer have to be to be a response packet. -/
theorem responseFrame_iff (law : codec.Lawful) {id otherId : UInt32} {code otherCode : Int32}
    {rest frame : List UInt8} {bodyLen : Nat}
    (framed : frame = (sentHeader (responseMeta id code).type
        (serializeMeta codec (responseMeta id code)).2.length bodyLen).encode ++
      ((serializeMeta codec (responseMeta id code)).2 ++ rest)) :
    ResponseFrame codec otherId otherCode frame ↔
      bodyLen % 65536 = rest.length ∧ otherId = id ∧ otherCode = code := by
  obtain ⟨_, _, few⟩ := length_serializeMeta law (serializeMeta_answer law id code)
  have accepted := sentHeader_accepted (responseMeta id code).type
    (serializeMeta codec (responseMeta id code)).2.length bodyLen
  have metaLen : (sentHeader (responseMeta id code).type
      (serializeMeta codec (responseMeta id code)).2.length bodyLen).metaLen.toNat =
        (serializeMeta codec (responseMeta id code)).2.length := by
    simp only [sentHeader, UInt16.toNat_ofNat']
    omega
  have announced : (sentHeader (responseMeta id code).type
      (serializeMeta codec (responseMeta id code)).2.length bodyLen).bodyLen.toNat =
        bodyLen % 65536 := by
    simp only [sentHeader, UInt16.toNat_ofNat']
  have metaBytes : (serializeMeta codec (responseMeta id code)).2 =
      (Outgoing.response id code none).metaBytes codec :=
    congrArg Prod.snd (serializeMeta_outgoing codec (.response id code none))
  obtain ⟨m, decoded, type, sameId, sameCode⟩ := deserializeMeta_response law id code
    (sentHeader (responseMeta id code).type (serializeMeta codec (responseMeta id code)).2.length
      bodyLen).type.toUInt32
  rw [← metaBytes] at decoded
  have response : dispatch m rest = some (.response id code m.rsp.text rest) := by
    rw [dispatch, type, if_neg (by decide), if_pos rfl, sameId, sameCode]
  unfold ResponseFrame
  simp only [framed, ← List.append_assoc, wellFormedFrame_encode_iff accepted metaLen, announced]
  constructor
  · rintro ⟨text, body, whole, other, again, dispatched⟩
    rw [decoded] at again
    cases again
    rw [response] at dispatched
    cases dispatched
    exact ⟨whole, rfl, rfl⟩
  · rintro ⟨whole, rfl, rfl⟩
    exact ⟨m.rsp.text, rest, whole, m, decoded, response⟩

/-- The length that the header announces, of 16 bits, is that of the body sent if and only if
the message keeps to the space it is offered, or claims a multiple of 65536 bytes. -/
theorem announced_iff (law : codec.Lawful) {id : UInt32} {code : Int32} {pb : IOBuf}
    {rest : List UInt8} (built : buildAny codec (responseMeta id code) msg = .ok pb)
    (length : rest.length =
      if (bodyReturn codec (responseMeta id code) msg).toNat ≤
          bodySpace codec (responseMeta id code) then
        (bodyReturn codec (responseMeta id code) msg).toNat
      else 0) :
    (bodyReturn codec (responseMeta id code) msg).toNat % 65536 = rest.length ↔
      Serializes codec (responseMeta id code) msg ∨ Vanishes codec (responseMeta id code) msg := by
  have space : bodySpace codec (responseMeta id code) ≤ 1024 := by
    unfold bodySpace IOBuf.initialSize
    omega
  cases msg with
  | none =>
      refine iff_of_true ?_ (.inl fun _ none => (by cases none))
      simpa [bodyReturn] using length.symm
  | some msg =>
      have positive := positive_of_buildAny law (serializeMeta_answer law id code) built
      have returned : bodyReturn codec (responseMeta id code) (some msg) =
        (msg.serialize (bodySpace codec (responseMeta id code))).1 := rfl
      rw [returned] at length ⊢
      simp only [Serializes, Vanishes, Option.mem_some_iff, forall_eq', exists_eq_left',
        positive, true_and]
      split_ifs at length with fits <;> omega

/-- Where nothing is built, there is a message, and it returns nothing positive. -/
theorem not_serializes_of_refused (law : codec.Lawful) {id : UInt32} {code : Int32}
    (refused : buildAny codec (responseMeta id code) msg = .error (-2))
    (negative : bodyReturn codec (responseMeta id code) msg ≤ 0) :
    ¬ (Serializes codec (responseMeta id code) msg ∨
      Vanishes codec (responseMeta id code) msg) := by
  cases msg with
  | none =>
      obtain ⟨pb, packed, _⟩ := packMeta_serialized law (serializeMeta_answer law id code)
      simp [buildAny, packed, packAny, bind, Except.bind] at refused
  | some msg =>
      simp only [bodyReturn, Option.elim_some] at negative
      rintro (serializes | ⟨_, ⟨⟩, positive, _⟩)
      · exact absurd (serializes msg rfl).1 (Int.not_lt.mpr negative)
      · exact absurd positive (Int.not_lt.mpr negative)

/-- A response packet is built if and only if the message, if there is one, keeps to the
space it is offered or claims a multiple of 65536 bytes; its id and its code are those it was
built from. -/
theorem buildAny_response_iff (law : codec.Lawful) {id otherId : UInt32}
    {code otherCode : Int32} :
    (∃ pb, buildAny codec (responseMeta id code) msg = .ok pb ∧
        ResponseFrame codec otherId otherCode pb.readable) ↔
      (Serializes codec (responseMeta id code) msg ∨ Vanishes codec (responseMeta id code) msg) ∧
        otherId = id ∧ otherCode = code := by
  rcases buildAny_cases law (serializeMeta_answer law id code) msg with
    ⟨pb, rest, built, framed, -, length⟩ | ⟨refused, negative⟩
  · have frame : ResponseFrame codec otherId otherCode pb.readable ↔ _ :=
      responseFrame_iff law framed
    rw [← announced_iff law built length, ← frame]
    constructor
    · rintro ⟨other, again, is⟩
      rw [built] at again
      cases again
      exact is
    · intro is
      exact ⟨pb, built, is⟩
  · refine iff_of_false ?_ ?_
    · rintro ⟨pb, built, -⟩
      rw [refused] at built
      cases built
    · exact fun both => not_serializes_of_refused law refused negative both.1

end Sdpf.Channel
