import Sdpf.Channel.Sending

/-!
# Messages that return what they like

`RpcMessage` is the message of an application that keeps to the contract of `serialize`.
Here nothing is known of the returned value; the message only writes within the space it
is offered. `send_packet` looks at the sign of the value and no further: what it builds
then starts with the header and the meta data it was built from, and the bytes claimed
follow if there is room for them (`Packed.body`).
-/

namespace Sdpf.Channel

open Sdpf.Data Sdpf.Buffer Sdpf.Msgpack Sdpf.Dispatcher

/-- A message of which is only known where it writes. -/
structure AnyMessage where
  serialize : Nat → Int × List UInt8
  within : ∀ offered, (serialize offered).2.length ≤ offered

/-- The same message without its promises. -/
def RpcMessage.any (msg : RpcMessage) : AnyMessage where
  serialize offered := ((msg.serialize offered).1, (msg.serialize offered).2.take offered)
  within _ := List.length_take_le ..

/-- The part of `send_packet` that writes the body. -/
def packAny (pb : IOBuf) : Option AnyMessage → Except Int IOBuf
  | none => .ok pb
  | some msg =>
      let serialized := msg.serialize pb.writableBytes
      if serialized.1 > 0 then
        .ok (setLength ((pb.fill serialized.2).hasWritten serialized.1.toNat).2 4 serialized.1)
      else
        .error (-2)

/-- The packet `send_packet` hands to the connection. -/
def buildAny (codec : Codec) (m : MetaRpc) (msg : Option AnyMessage) : Except Int IOBuf := do
  let pb ← packMeta codec m
  packAny pb msg

/-- The space a message is offered behind the meta data. -/
def bodySpace (codec : Codec) (m : MetaRpc) : Nat :=
  IOBuf.initialSize - HeaderPacket.size - (serializeMeta codec m).2.length

section Build

variable {codec : Codec} {pb : IOBuf}

/-- A message that keeps its promises is sent as before. -/
theorem packAny_any (pb : IOBuf) (msg : Option RpcMessage) :
    packAny pb (msg.map RpcMessage.any) = packBody pb msg := by
  cases msg with
  | none => rfl
  | some msg =>
      simp only [Option.map_some, packAny, packBody, RpcMessage.any]
      split_ifs with positive
      · obtain ⟨_, fits⟩ := msg.honest _ positive
        rw [List.take_of_length_le fits]
      · rfl

/-- Of a message that keeps its promises the same packet is built. -/
theorem buildAny_any (m : MetaRpc) (msg : Option RpcMessage) :
    buildAny codec m (msg.map RpcMessage.any) = buildPacket codec m msg := by
  simp only [buildAny, buildPacket, packAny_any]

/-- Whatever length the body claims to have, only that length changes in what was packed
before. The claimed length is added if there is room for it. -/
theorem Packed.body {bytes data : List UInt8} (packed : Packed pb bytes) (long : 6 ≤ bytes.length)
    (within : data.length ≤ pb.writableBytes) (claimed : Nat) (n : Int) :
    ∃ rest, (Channel.setLength ((pb.fill data).hasWritten claimed).2 4 n).readable =
        store bytes 4 (beBytes 2 n.toNat) ++ rest ∧
      rest.length = if claimed ≤ pb.writableBytes then claimed else 0 := by
  have bounded := packed.valid.bounded
  have writeIndex := packed.writeIndex
  have front := packed.front
  have filled : (pb.fill data).Valid := ⟨packed.valid.ordered, by simpa [IOBuf.fill] using bounded,
    by simpa [IOBuf.fill] using packed.valid.allocated⟩
  have same : (pb.fill data).writableBytes = pb.writableBytes := by
    rw [filled.writableBytes_eq, packed.valid.writableBytes_eq]
    simp only [IOBuf.fill, length_store]
  have space := packed.valid.writableBytes_eq
  rw [space, writeIndex] at within
  -- the write index only moves if the claim fits
  obtain ⟨index, after, moved, atMost⟩ : ∃ index,
      ((pb.fill data).hasWritten claimed).2 = { pb.fill data with writeIndex := index } ∧
        index = bytes.length + (if claimed ≤ pb.writableBytes then claimed else 0) ∧
        index ≤ pb.buff.length := by
    by_cases refused : (pb.fill data).writableBytes < claimed
    · refine ⟨pb.writeIndex, ?_, ?_, bounded⟩
      · rw [IOBuf.hasWritten_refused refused]
        rfl
      · rw [if_neg (by omega), writeIndex, Nat.add_zero]
    · have allocated := packed.valid.allocated
      refine ⟨pb.writeIndex + claimed, ?_, ?_, by omega⟩
      · have sum : SizeT.add (pb.fill data).writeIndex claimed = pb.writeIndex + claimed :=
          SizeT.add_eq (by simp only [IOBuf.fill]; unfold sizeRange; omega)
        rw [IOBuf.hasWritten, if_neg refused, sum]
      · rw [if_pos (by omega), writeIndex]
  have atLeast : bytes.length ≤ index := by omega
  have content : pb.buff.take bytes.length = bytes := by
    have readable := packed.readable
    rwa [IOBuf.readable, packed.valid.readableBytes_eq, front, writeIndex, slice, List.drop_zero,
      Nat.sub_zero] at readable
  have kept : (store (store pb.buff pb.writeIndex data) 4 (beBytes 2 n.toNat)).take bytes.length =
      store bytes 4 (beBytes 2 n.toNat) := by
    have before : slice (store pb.buff pb.writeIndex data) 0 bytes.length =
        slice pb.buff 0 bytes.length := slice_store_before (by omega) (by omega)
    simp only [slice, List.drop_zero] at before
    rw [take_store (by simp only [length_store]; omega) (by simpa using long), before, content]
  have valid : (Channel.setLength ((pb.fill data).hasWritten claimed).2 4 n).Valid := by
    rw [after]
    refine ⟨?_, by simpa [Channel.setLength, IOBuf.fill] using atMost,
      by simpa [Channel.setLength, IOBuf.fill] using packed.valid.allocated⟩
    simp only [Channel.setLength, IOBuf.fill, front]
    omega
  refine ⟨((store (store pb.buff pb.writeIndex data) 4 (beBytes 2 n.toNat)).take index).drop
    bytes.length, ?_, ?_⟩
  · rw [IOBuf.readable, valid.readableBytes_eq, after]
    simp only [Channel.setLength, IOBuf.fill, front, slice, List.drop_zero, Nat.sub_zero]
    conv_lhs => rw [← List.take_append_drop bytes.length (List.take index _)]
    rw [List.take_take, Nat.min_eq_left atLeast, kept]
  · rw [List.length_drop, List.length_take, length_store, length_store, Nat.min_eq_left atMost,
      moved, Nat.add_sub_cancel_left]

/-- The space offered to a message is what header and meta data leave of the buffer. -/
theorem Packed.bodySpace_eq {m : MetaRpc} (front : Packed pb
      ((sentHeader m.type (serializeMeta codec m).2.length 0).encode ++ (serializeMeta codec m).2)) :
    bodySpace codec m = pb.writableBytes := by
  have length := (sentHeader_accepted m.type (serializeMeta codec m).2.length 0).length_encode
  rw [front.writableBytes, List.length_append, length, ← Nat.sub_sub, bodySpace]

end Build

end Sdpf.Channel
