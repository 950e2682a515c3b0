import Sdpf.Channel.Message
import Sdpf.Msgpack.Wire

/-!
# Frames and the lengths in their headers

`send_packet` writes two lengths into the header it has packed and moves the write index
with `has_written`, whose answer it does not look at. A message that returns more than the
space it was offered gets its length into the header but no bytes into the buffer;
`sendAny_consistent_iff` shows that this is the only way to send an inconsistent frame.
-/

namespace Sdpf.Channel

open Sdpf.Data Sdpf.Buffer Sdpf.Msgpack Sdpf.Dispatcher

/-- `send_packet` on a connection that answers `send` as given: the value returned, and
the buffer the connection has taken. -/
def sendAny (codec : Codec) (send : IOBuf → Int) (m : MetaRpc) (msg : Option AnyMessage) :
    Int × Option IOBuf :=
  match buildAny codec m msg with
  | .error ret => (ret, none)
  | .ok pb => if 0 ≠ send pb then (-3, none) else (0, some pb)

/-- What the message returns to `send_packet`, zero if there is none. -/
def bodyReturn (codec : Codec) (m : MetaRpc) (msg : Option AnyMessage) : Int :=
  msg.elim 0 fun some_msg => (some_msg.serialize (bodySpace codec m)).1

/-- A frame of the size its header announces, with the lengths that were returned. -/
structure ConsistentFrame (metaRet bodyRet : Int) (frame : List UInt8) : Prop where
  complete : frame.length = (HeaderPacket.decode (slice frame 0 HeaderPacket.size)).total
  metaLen : ((HeaderPacket.decode (slice frame 0 HeaderPacket.size)).metaLen.toNat : Int) = metaRet
  bodyLen : ((HeaderPacket.decode (slice frame 0 HeaderPacket.size)).bodyLen.toNat : Int) = bodyRet

/-- Whatever the connection answers, it has taken a consistent frame if `send_packet`
succeeds, and nothing if it fails. -/
def SendsConsistent (codec : Codec) (m : MetaRpc) (msg : Option AnyMessage) : Prop :=
  ∀ send : IOBuf → Int,
    ((sendAny codec send m msg).1 = 0 → ∃ pb, (sendAny codec send m msg).2 = some pb ∧
      ConsistentFrame (serializeMeta codec m).1 (bodyReturn codec m msg) pb.readable) ∧
    ((sendAny codec send m msg).1 ≠ 0 → (sendAny codec send m msg).2 = none)

section Send

variable {codec : Codec} {m : MetaRpc} {msg : Option AnyMessage}

/-- The frame `send_packet` builds. A body that claims more than the space it was offered
is announced, but not there. -/
theorem buildAny_cases (law : codec.Lawful) (accepted : 0 < (serializeMeta codec m).1)
    (msg : Option AnyMessage) :
    (∃ pb rest, buildAny codec m msg = .ok pb ∧
        pb.readable = (sentHeader m.type (serializeMeta codec m).2.length
          (bodyReturn codec m msg).toNat).encode ++ ((serializeMeta codec m).2 ++ rest) ∧
        0 ≤ bodyReturn codec m msg ∧
        rest.length = if (bodyReturn codec m msg).toNat ≤ bodySpace codec m then
          (bodyReturn codec m msg).toNat else 0) ∨
      buildAny codec m msg = .error (-2) ∧ bodyReturn codec m msg ≤ 0 := by
  obtain ⟨pb, packed, front⟩ := packMeta_serialized law accepted
  have space := front.bodySpace_eq
  simp only [buildAny, packed, bind, Except.bind]
  cases msg with
  | none =>
      refine .inl ⟨pb, [], rfl, ?_, Int.le_refl _, ?_⟩
      · rw [front.readable, List.append_nil]
        rfl
      · simp [bodyReturn]
  | some msg =>
      have returned : bodyReturn codec m (some msg) = (msg.serialize pb.writableBytes).1 := by
        rw [← space]
        rfl
      rw [returned]
      by_cases positive : (msg.serialize pb.writableBytes).1 > 0
      · have length := (sentHeader_accepted m.type (serializeMeta codec m).2.length 0).length_encode
        obtain ⟨rest, readable, claimed⟩ := front.body
          (by rw [List.length_append, length]; unfold HeaderPacket.size; omega)
          (msg.within pb.writableBytes) (msg.serialize pb.writableBytes).1.toNat
          (msg.serialize pb.writableBytes).1
        refine .inl ⟨_, rest, if_pos positive, ?_, Int.le_of_lt positive, by rw [claimed, space]⟩
        rw [readable, store_bodyLen rfl, List.append_assoc]
        rfl
      · exact .inr ⟨if_neg positive, Int.not_lt.mp positive⟩

/-- A frame is consistent exactly if the bytes behind its meta data are those announced. -/
theorem consistentFrame_iff {type : UInt32} {metaBytes rest frame : List UInt8} {bodyRet : Int}
    (few : metaBytes.length < 65536) (nonnegative : 0 ≤ bodyRet)
    (framed : frame = (sentHeader type metaBytes.length bodyRet.toNat).encode ++
      (metaBytes ++ rest)) :
    ConsistentFrame metaBytes.length bodyRet frame ↔
      bodyRet < 65536 ∧ (rest.length : Int) = bodyRet := by
  have accepted := sentHeader_accepted type metaBytes.length bodyRet.toNat
  have header : slice frame 0 HeaderPacket.size =
      (sentHeader type metaBytes.length bodyRet.toNat).encode := by
    refine accepted.slice_eq (metaBytes ++ rest) ?_ (.inr (framed ▸ List.prefix_append _ _))
    rw [framed, List.length_append, accepted.length_encode]
    exact Nat.le_add_right _ _
  have decoded : HeaderPacket.decode (slice frame 0 HeaderPacket.size) =
      sentHeader type metaBytes.length bodyRet.toNat := by rw [header, accepted.decode_encode]
  have length : frame.length = HeaderPacket.size + (metaBytes.length + rest.length) := by
    rw [framed, List.length_append, List.length_append, accepted.length_encode]
  have metaLen : (sentHeader type metaBytes.length bodyRet.toNat).metaLen.toNat =
      metaBytes.length := by
    simp only [sentHeader, UInt16.toNat_ofNat']
    exact Nat.mod_eq_of_lt few
  have bodyLen : (sentHeader type metaBytes.length bodyRet.toNat).bodyLen.toNat =
      bodyRet.toNat % 65536 := by
    simp only [sentHeader, UInt16.toNat_ofNat']
  constructor
  · rintro ⟨complete, _, announced⟩
    rw [decoded, HeaderPacket.total, metaLen, length] at complete
    rw [decoded] at announced
    omega
  · rintro ⟨small, whole⟩
    refine ⟨?_, ?_, ?_⟩
    · rw [decoded, HeaderPacket.total, metaLen, bodyLen, length]
      omega
    · rw [decoded, metaLen]
    · rw [decoded, bodyLen]
      omega

/-- For meta data that is accepted, only consistent frames are sent exactly if the message
returns no more than the space it was offered. -/
theorem sendAny_consistent_iff (law : codec.Lawful) (accepted : 0 < (serializeMeta codec m).1)
    (msg : Option AnyMessage) :
    SendsConsistent codec m msg ↔ bodyReturn codec m msg ≤ bodySpace codec m := by
  obtain ⟨same, _, few⟩ := length_serializeMeta law accepted
  have space : bodySpace codec m ≤ IOBuf.initialSize := by
    unfold bodySpace
    omega
  unfold IOBuf.initialSize at space
  rcases buildAny_cases law accepted msg with ⟨pb, rest, built, framed, nonnegative, claimed⟩ |
    ⟨built, negative⟩
  · have consistent := consistentFrame_iff (by omega) nonnegative framed
    rw [← same] at consistent
    constructor
    · intro sends
      obtain ⟨sent, _⟩ := sends fun _ => 0
      obtain ⟨taken, handed, frame⟩ := sent (by simp [sendAny, built])
      simp only [sendAny, built, ne_eq, not_true_eq_false, if_false, Option.some.injEq] at handed
      subst handed
      obtain ⟨_, whole⟩ := consistent.mp frame
      split_ifs at claimed <;> omega
    · intro fits send
      have whole : (rest.length : Int) = bodyReturn codec m msg := by
        rw [claimed, if_pos (by omega)]
        omega
      have frame := consistent.mpr ⟨by omega, whole⟩
      have sent : sendAny codec send m msg =
          if 0 ≠ send pb then (-3, none) else (0, some pb) := by simp only [sendAny, built]
      by_cases refused : 0 ≠ send pb
      · rw [sent, if_pos refused]
        exact ⟨fun zero => absurd zero (by decide), fun _ => rfl⟩
      · rw [sent, if_neg refused]
        exact ⟨fun _ => ⟨pb, rfl, frame⟩, fun nonzero => absurd rfl nonzero⟩
  · refine iff_of_true (fun send => ?_) (by omega)
    have sent : sendAny codec send m msg = (-2, none) := by simp only [sendAny, built]
    rw [sent]
    exact ⟨fun zero => absurd zero (by decide), fun _ => rfl⟩

/-- A message that keeps to the contract of `serialize` is always sent consistently. -/
theorem sendAny_consistent_honest (law : codec.Lawful) (accepted : 0 < (serializeMeta codec m).1)
    (msg : Option RpcMessage) : SendsConsistent codec m (msg.map RpcMessage.any) := by
  refine (sendAny_consistent_iff law accepted _).mpr ?_
  cases msg with
  | none => exact Int.natCast_nonneg _
  | some msg =>
      simp only [bodyReturn, Option.map_some, Option.elim_some, RpcMessage.any]
      by_cases positive : 0 < (msg.serialize (bodySpace codec m)).1
      · obtain ⟨returned, fits⟩ := msg.honest _ positive
        omega
      · omega

end Send

/-- A message that returns 2000 and writes nothing. -/
def boasting : AnyMessage where
  serialize _ := (2000, [])
  within _ := Nat.zero_le _

/-- A response with a message of two bytes. -/
theorem sendAny_consistent_iff_two :
    SendsConsistent Wire.codec (responseMeta 7 0)
        (some ⟨fun offered => (2, [1, 2].take offered), fun _ => List.length_take_le ..⟩) ↔
      bodyReturn Wire.codec (responseMeta 7 0)
          (some ⟨fun offered => (2, [1, 2].take offered), fun _ => List.length_take_le ..⟩) ≤
        bodySpace Wire.codec (responseMeta 7 0) :=
  sendAny_consistent_iff Wire.codec_lawful (by decide) _

/-- The frame of a message that returns more than it was offered announces 2000 bytes of
body and contains none. -/
theorem sendAny_inconsistent :
    ¬ ∀ (codec : Codec) (m : MetaRpc) (msg : Option AnyMessage), codec.Lawful →
      0 < (serializeMeta codec m).1 → SendsConsistent codec m msg := by
  intro consistent
  obtain ⟨sent, _⟩ := consistent Wire.codec (responseMeta 7 0) (some boasting) Wire.codec_lawful
    (by decide) fun _ => 0
  have seen : (sendAny Wire.codec (fun _ => 0) (responseMeta 7 0) (some boasting)).2.map
      (fun pb => (pb.readable.length,
        (HeaderPacket.decode (slice pb.readable 0 HeaderPacket.size)).total)) =
          some (17, 2017) := by decide +kernel
  obtain ⟨pb, taken, frame⟩ := sent (by decide +kernel)
  rw [taken, Option.map_some, Option.some.injEq, Prod.mk.injEq] at seen
  have complete := frame.complete
  rw [seen.1, seen.2] at complete
  cases complete

end Sdpf.Channel
