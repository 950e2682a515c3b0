import Sdpf.Channel.Packet

/-!
# What the parser reads

The length check of `parse` adds the two lengths of the header in 16 bits.
`Overruns` names the received bytes for which the sum wraps and the check passes too
early; `checkHeader_contained_iff` shows that it is exactly then that the parser is
sent beyond the received bytes. Everywhere else `parse` is a function of these bytes
alone (`parse_eq`), and a whole well-formed frame is recognised as soon as it has
arrived (`WellFormedFrame.isFrame`).
-/

namespace Sdpf.Channel

open Sdpf.Data Sdpf.Buffer Sdpf.Msgpack Sdpf.Dispatcher Sdpf.Stream

/-- A packet announced by an accepted header whose size wraps to a number of bytes that
have been received, while the packet itself has not. -/
def Overruns (bytes : List UInt8) : Prop :=
  HeaderPacket.size ≤ bytes.length ∧
    let header := HeaderPacket.decode (slice bytes 0 HeaderPacket.size)
    header.Accepted ∧ 65536 ≤ header.total ∧ header.total % 65536 ≤ bytes.length ∧
      bytes.length < header.total

/-- Once the completeness check has passed, the header, the meta bytes and the body
bytes that `parse` hands on are readable. -/
def Contained (wild : Nat → UInt8) (b : IOBuf) : Prop :=
  ∀ header, checkHeader b.readableBytes (bufferMemory wild b) = .complete header →
    12 + header.metaLen.toNat + header.bodyLen.toNat ≤ b.readableBytes

/-- Looking at some bytes shows as many. -/
@[simp] theorem length_peek (memory : Nat → UInt8) (start count : Nat) :
    (peek memory start count).length = count := by
  simp [peek]

/-- Two memories that agree up to some offset look the same up to there. -/
theorem peek_congr {first second : Nat → UInt8} {limit : Nat}
    (agree : ∀ offset < limit, first offset = second offset) (start count : Nat)
    (within : start + count ≤ limit) :
    peek first start count = peek second start count := by
  apply List.map_congr_left
  intro offset member
  obtain ⟨_, below⟩ := List.mem_range'_1.mp member
  exact agree offset (by omega)

/-- Looking at a block is taking a slice of it. -/
theorem peek_block {bytes : List UInt8} {start count : Nat}
    (within : start + count ≤ bytes.length) :
    peek (blockMemory bytes) start count = slice bytes start count := by
  apply List.ext_getElem
  · rw [length_peek, length_slice within]
  · intro index inside _
    rw [length_peek] at inside
    have present : start + index < bytes.length := by omega
    simp [peek, slice, blockMemory, List.getD_eq_getElem?_getD, present]

/-- The memory of a buffer begins with its readable bytes. -/
theorem bufferMemory_readable {b : IOBuf} (valid : b.Valid) (wild : Nat → UInt8) :
    ∀ offset < b.readable.length, bufferMemory wild b offset = blockMemory b.readable offset := by
  intro offset inside
  have ordered := valid.ordered
  have bounded := valid.bounded
  have length := valid.length_readable
  have present : b.readIndex + offset < b.buff.length := by omega
  have within : offset < b.writeIndex - b.readIndex := by omega
  simp [bufferMemory, blockMemory, List.getD_eq_getElem?_getD, IOBuf.readable,
    valid.readableBytes_eq, slice, within, present]

/-- The header is looked at only where bytes have been received. -/
theorem checkHeader_congr {first second : Nat → UInt8} {remainLen : Nat}
    (agree : ∀ offset < remainLen, first offset = second offset) :
    checkHeader remainLen first = checkHeader remainLen second := by
  unfold checkHeader
  by_cases short : remainLen < HeaderPacket.size
  · rw [if_pos short, if_pos short]
  · have same := peek_congr agree 0 HeaderPacket.size (by omega)
    rw [if_neg short, if_neg short, same]

/-- The check on a buffer is the check on its readable bytes. -/
theorem checkHeader_buffer {b : IOBuf} (valid : b.Valid) (wild : Nat → UInt8) :
    checkHeader b.readableBytes (bufferMemory wild b) =
      checkHeader b.readable.length (blockMemory b.readable) := by
  rw [valid.readableBytes_length]
  exact checkHeader_congr (bufferMemory_readable valid wild)

/-- When the check on a block of bytes passes. -/
theorem checkHeader_complete_iff {bytes : List UInt8} {header : HeaderPacket} :
    checkHeader bytes.length (blockMemory bytes) = .complete header ↔
      HeaderPacket.size ≤ bytes.length ∧
        header = HeaderPacket.decode (slice bytes 0 HeaderPacket.size) ∧
        header.Accepted ∧ header.packLen.toNat ≤ bytes.length := by
  unfold checkHeader
  by_cases short : bytes.length < HeaderPacket.size
  · rw [if_pos short]
    exact iff_of_false (by simp) (by omega)
  · rw [if_neg short, peek_block (by omega)]
    simp only
    split_ifs with accepted partly
    · refine iff_of_false (by simp) ?_
      rintro ⟨_, rfl, _, arrived⟩
      omega
    · rw [Progress.complete.injEq]
      constructor
      · rintro rfl
        exact ⟨by omega, rfl, accepted, by omega⟩
      · rintro ⟨_, same, _, _⟩
        exact same.symm
    · refine iff_of_false (by simp) ?_
      rintro ⟨_, rfl, isAccepted, _⟩
      exact accepted isAccepted

/-- The size the parser computes is the real one in 16 bits. -/
theorem HeaderPacket.toNat_packLen (header : HeaderPacket) :
    header.packLen.toNat = header.total % 65536 := UInt16.toNat_ofNat'

/-- Without a wrapped size, a packet that passes the check has arrived. -/
theorem total_le_of_complete {bytes : List UInt8} {header : HeaderPacket}
    (noOverrun : ¬ Overruns bytes)
    (complete : checkHeader bytes.length (blockMemory bytes) = .complete header) :
    header.total ≤ bytes.length := by
  obtain ⟨long, rfl, accepted, arrived⟩ := checkHeader_complete_iff.mp complete
  rw [HeaderPacket.toNat_packLen] at arrived
  by_contra beyond
  exact noOverrun ⟨long, accepted, by omega, arrived, by omega⟩

/-- The parser stays inside the received bytes exactly when these do not announce a
packet whose size wraps. -/
theorem checkHeader_contained_iff {b : IOBuf} (valid : b.Valid) (wild : Nat → UInt8) :
    Contained wild b ↔ ¬ Overruns b.readable := by
  unfold Contained
  rw [checkHeader_buffer valid, valid.readableBytes_length]
  constructor
  · rintro contained ⟨long, accepted, _, wrapped, missing⟩
    have reached := contained _ (checkHeader_complete_iff.mpr ⟨long, rfl, accepted, by
      rw [HeaderPacket.toNat_packLen]
      exact wrapped⟩)
    exact absurd missing (Nat.not_lt.mpr reached)
  · intro noOverrun header complete
    exact total_le_of_complete noOverrun complete

/-- A packet with one byte of meta data and two of body, and the first bytes of the next. -/
def packetAndMore : List UInt8 :=
  [0x45, 0x52, 0x50, 0x43, 0x00, 0x02, 0x00, 0x01, 0x01, 0x01, 0x10, 0x23, 0x90, 0x07, 0x08,
    0x45, 0x52]

/-- The condition is met, and the parser contained, when a packet has been received whole and
the next one in part. -/
theorem checkHeader_contained_iff_received :
    ∃ b : IOBuf, b.readable = packetAndMore ∧
      checkHeader b.readableBytes (bufferMemory (fun _ => 0) b) =
        .complete (HeaderPacket.decode packetAndMore) ∧
      (Contained (fun _ => 0) b ↔ ¬ Overruns b.readable) ∧ Contained (fun _ => 0) b := by
  have created : (IOBuf.create 1024).Valid := IOBuf.create_valid (by decide)
  have room : packetAndMore.length ≤ (IOBuf.create 1024).writableBytes := by
    rw [IOBuf.create_writableBytes (by decide)]
    decide
  obtain ⟨_, valid, received, _, _⟩ := created.hasWritten room
  rw [IOBuf.create_readable, List.nil_append] at received
  have contained := checkHeader_contained_iff valid (fun _ => 0)
  refine ⟨_, received, ?_, contained, contained.mpr ?_⟩
  · rw [checkHeader_buffer valid, received]
    rfl
  · rw [received]
    rintro ⟨_, _, wraps, _⟩
    exact absurd wraps (by decide)

/-- A header alone that announces 32768 bytes of meta data and as many of body. -/
def overrunningHeader : List UInt8 :=
  [0x45, 0x52, 0x50, 0x43, 0x80, 0x00, 0x80, 0x00, 0x01, 0x01, 0x10, 0x23]

/-- These twelve bytes, received into a new buffer, send the parser 65536 bytes beyond
them. -/
theorem checkHeader_not_contained :
    ¬ ∀ (wild : Nat → UInt8) (b : IOBuf), b.Valid → Contained wild b := by
  intro contained
  have created : (IOBuf.create 1024).Valid := IOBuf.create_valid (by decide)
  have room : overrunningHeader.length ≤ (IOBuf.create 1024).writableBytes := by
    rw [IOBuf.create_writableBytes (by decide)]
    decide
  obtain ⟨_, valid, received, _, _⟩ := created.hasWritten room
  rw [IOBuf.create_readable, List.nil_append] at received
  have inside := contained (fun _ => 0) _ valid
    (HeaderPacket.decode overrunningHeader) (by
      rw [checkHeader_buffer valid, received]
      rfl)
  rw [valid.readableBytes_length, received] at inside
  exact absurd inside (by decide)

/-- A contained parser is a function of the readable bytes. -/
theorem parse_eq {b : IOBuf} (valid : b.Valid) (codec : Codec) (wild : Nat → UInt8)
    (noOverrun : ¬ Overruns b.readable) :
    parse codec wild b = parseAt codec b.readable.length (blockMemory b.readable) := by
  unfold parse parseAt
  rw [checkHeader_buffer valid]
  cases checked : checkHeader b.readable.length (blockMemory b.readable) with
  | incomplete => rfl
  | malformed => rfl
  | complete header =>
      have inside := total_le_of_complete noOverrun checked
      have agree := bufferMemory_readable valid wild
      unfold HeaderPacket.total at inside
      simp only [peek_congr agree HeaderPacket.size header.metaLen.toNat (by omega),
        peek_congr agree (HeaderPacket.size + header.metaLen.toNat) header.bodyLen.toNat (by omega)]

/-- A packet is dispatched only together with its size. -/
theorem parseAt_nonneg {codec : Codec} {remainLen : Nat} {memory : Nat → UInt8} {ret : Int}
    {packet : Packet} (parsed : parseAt codec remainLen memory = .ok (ret, some packet)) :
    0 ≤ ret := by
  unfold parseAt at parsed
  cases checked : checkHeader remainLen memory with
  | incomplete =>
      simp only [checked] at parsed
      cases parsed
  | malformed =>
      simp only [checked] at parsed
      cases parsed
  | complete header =>
      simp only [checked, bind, Except.bind] at parsed
      split at parsed
      · cases parsed
      · split_ifs at parsed
        · cases parsed
        · rw [Except.ok.injEq, Prod.mk.injEq] at parsed
          rw [← parsed.1]
          exact Int.natCast_nonneg _

/-- The bytes of a packet whose header describes the meta data and the body behind it,
and whose meta data the decoder accepts. -/
inductive WellFormedFrame (codec : Codec) : List UInt8 → Packet → Prop where
  | intro {header : HeaderPacket} {metaBytes body : List UInt8} {m : MetaRpc} {packet : Packet}
      (accepted : header.Accepted)
      (metaLen : header.metaLen.toNat = metaBytes.length)
      (bodyLen : header.bodyLen.toNat = body.length)
      (decoded : deserializeMeta codec (.fresh header.type.toUInt32) metaBytes = .ok (0, m))
      (dispatched : dispatch m body = some packet) :
      WellFormedFrame codec (header.encode ++ metaBytes ++ body) packet

namespace HeaderPacket

/-- A header takes twelve bytes. -/
theorem Accepted.length_encode {header : HeaderPacket} (accepted : header.Accepted) :
    header.encode.length = size := by
  obtain ⟨mark, _, _⟩ := accepted
  simp [encode, mark, erpc, size]

/-- The receiver sees the header the sender wrote. -/
theorem Accepted.decode_encode {header : HeaderPacket} (accepted : header.Accepted) :
    decode header.encode = header := by
  obtain ⟨mark, bodyLen, metaLen, type, mode, version, reserve⟩ := header
  obtain ⟨isErpc, _, _⟩ := accepted
  simp only at isErpc
  subst isErpc
  have number : ∀ n : UInt16, UInt16.ofNat (beValue (beBytes 2 n.toNat)) = n := fun n => by
    rw [beValue_beBytes 2 n.toNat_lt, UInt16.ofNat_toNat]
  have body := number bodyLen
  have metaData := number metaLen
  simp [beBytes] at body metaData
  simp [decode, encode, erpc, slice, beBytes, body, metaData]

/-- The first bytes of a packet are its header, even before all of it has arrived. -/
theorem Accepted.slice_eq {header : HeaderPacket} (accepted : header.Accepted)
    {bytes : List UInt8} (more : List UInt8) (long : size ≤ bytes.length)
    (part : bytes <+: header.encode ++ more ∨ header.encode <+: bytes) :
    slice bytes 0 size = header.encode := by
  have front : header.encode <+: bytes := by
    rcases part with part | front
    · exact List.prefix_of_prefix_length_le (List.prefix_append _ _) part
        (by rw [accepted.length_encode]; exact long)
    · exact front
  rw [slice, List.drop_zero, ← accepted.length_encode]
  exact (List.prefix_iff_eq_take.mp front).symm

end HeaderPacket

/-- Whether bytes that start with an accepted header and the meta data it announces are a
well-formed frame is a matter of the body's length and of the meta data. -/
theorem wellFormedFrame_encode_iff {codec : Codec} {header : HeaderPacket} {packet : Packet}
    {metaBytes rest : List UInt8} (accepted : header.Accepted)
    (metaLen : header.metaLen.toNat = metaBytes.length) :
    WellFormedFrame codec (header.encode ++ metaBytes ++ rest) packet ↔
      header.bodyLen.toNat = rest.length ∧
        ∃ m, deserializeMeta codec (.fresh header.type.toUInt32) metaBytes = .ok (0, m) ∧
          dispatch m rest = some packet := by
  constructor
  · intro wellFormed
    generalize bytes : header.encode ++ metaBytes ++ rest = frame at wellFormed
    obtain @⟨other, otherMeta, body, m, packet, isAccepted, itsMeta, itsBody, decoded, dispatched⟩ :=
      wellFormed
    rw [List.append_assoc, List.append_assoc] at bytes
    obtain ⟨front, behind⟩ := List.append_inj bytes
      (accepted.length_encode.trans isAccepted.length_encode.symm)
    -- the header is the same, so it announces the same meta data
    obtain rfl : header = other := by
      rw [← accepted.decode_encode, front, isAccepted.decode_encode]
    obtain ⟨rfl, rfl⟩ := List.append_inj behind (metaLen.symm.trans itsMeta)
    exact ⟨itsBody, m, decoded, dispatched⟩
  · rintro ⟨bodyLen, m, decoded, dispatched⟩
    exact .intro accepted metaLen bodyLen decoded dispatched

/-- A beginning of a packet of moderate size, or anything that starts with such a
packet, does not lead the parser astray. -/
theorem not_overruns {header : HeaderPacket} (accepted : header.Accepted)
    (small : header.total < 65536) (more : List UInt8) {bytes : List UInt8}
    (part : bytes <+: header.encode ++ more ∨ header.encode <+: bytes) : ¬ Overruns bytes := by
  rintro ⟨long, _, wraps, _⟩
  rw [accepted.slice_eq more long part, accepted.decode_encode] at wraps
  omega

namespace WellFormedFrame

variable {codec : Codec} {frame : List UInt8} {packet : Packet}

/-- Neither a part of a frame nor anything behind it leads the parser astray. -/
theorem not_overruns (wellFormed : WellFormedFrame codec frame packet)
    (small : frame.length < 65536) {bytes : List UInt8} (part : bytes <+: frame ∨ frame <+: bytes) :
    ¬ Overruns bytes := by
  obtain @⟨header, metaBytes, body, m, packet, accepted, metaLen, bodyLen, decoded, dispatched⟩ :=
    wellFormed
  rw [List.append_assoc] at part
  simp only [List.length_append, accepted.length_encode] at small
  refine Channel.not_overruns accepted ?_ (metaBytes ++ body)
    (part.imp id fun whole => (List.prefix_append _ _).trans whole)
  rw [HeaderPacket.total, metaLen, bodyLen]
  exact small

/-- A whole frame is dispatched, and nothing behind it matters. -/
private theorem look_whole (wellFormed : WellFormedFrame codec frame packet)
    (small : frame.length < 65536) (rest : List UInt8) :
    look codec (frame ++ rest) = .item frame.length packet := by
  obtain @⟨header, metaBytes, body, m, packet, accepted, metaLen, bodyLen, decoded, dispatched⟩ :=
    wellFormed
  have length := accepted.length_encode
  have total : header.total = (header.encode ++ metaBytes ++ body).length := by
    rw [HeaderPacket.total, List.length_append, List.length_append, length, metaLen, bodyLen]
  have exact_size : header.packLen.toNat = header.total := by
    rw [HeaderPacket.toNat_packLen, Nat.mod_eq_of_lt (by omega)]
  have long : HeaderPacket.size ≤ (header.encode ++ metaBytes ++ body ++ rest).length := by
    simp only [List.length_append, length]
    omega
  have front := accepted.slice_eq [] long (.inr ⟨metaBytes ++ body ++ rest, by simp⟩)
  have complete := checkHeader_complete_iff.mpr ⟨long, rfl, by
    rw [front, accepted.decode_encode]
    refine ⟨accepted, ?_⟩
    rw [exact_size, total]
    exact (List.prefix_append _ rest).length_le⟩
  rw [front, accepted.decode_encode] at complete
  have metaHere : peek (blockMemory (header.encode ++ metaBytes ++ body ++ rest))
      HeaderPacket.size header.metaLen.toNat = metaBytes := by
    rw [peek_block (by simp only [List.length_append, length, metaLen]; omega), slice,
      ← length, List.append_assoc, List.append_assoc, List.drop_left, metaLen, List.take_left]
  have bodyHere : peek (blockMemory (header.encode ++ metaBytes ++ body ++ rest))
      (HeaderPacket.size + header.metaLen.toNat) header.bodyLen.toNat = body := by
    rw [peek_block (by simp only [List.length_append, length, metaLen, bodyLen]; omega), slice,
      ← length, metaLen, ← List.length_append, List.append_assoc, List.drop_left, bodyLen,
      List.take_left]
  simp only [look, parseAt, complete, metaHere, bodyHere, decoded, dispatched, bind, Except.bind,
    exact_size, total]
  rfl

/-- A proper part of a frame makes the parser wait. -/
private theorem look_part (wellFormed : WellFormedFrame codec frame packet)
    (small : frame.length < 65536) {shorter rest : List UInt8} (missing : rest ≠ [])
    (split : frame = shorter ++ rest) : look codec shorter = .more := by
  obtain @⟨header, metaBytes, body, m, packet, accepted, metaLen, bodyLen, decoded, dispatched⟩ :=
    wellFormed
  have positive := List.length_pos_of_ne_nil missing
  have length := congrArg List.length split
  simp only [List.length_append, accepted.length_encode] at length small
  have waits : checkHeader shorter.length (blockMemory shorter) = .incomplete := by
    unfold checkHeader
    by_cases short : shorter.length < HeaderPacket.size
    · rw [if_pos short]
    · have front := accepted.slice_eq (metaBytes ++ body) (Nat.le_of_not_lt short)
        (.inl ⟨rest, by rw [← split, List.append_assoc]⟩)
      have size : header.packLen.toNat = header.total := by
        rw [HeaderPacket.toNat_packLen, HeaderPacket.total, Nat.mod_eq_of_lt (by omega)]
      rw [if_neg short, peek_block (Nat.le_of_not_lt short), front, accepted.decode_encode]
      simp only [accepted, not_true_eq_false, if_false, size, HeaderPacket.total, metaLen, bodyLen]
      rw [if_pos (by omega)]
  simp [look, parseAt, waits]

/-- A well-formed frame of moderate size is a frame of the stream. -/
theorem isFrame (wellFormed : WellFormedFrame codec frame packet) (small : frame.length < 65536) :
    IsFrame (look codec) frame packet where
  nonempty := by
    obtain @⟨header, _, _, _, _, accepted, _, _, _, _⟩ := wellFormed
    intro empty
    have length := congrArg List.length empty
    simp [accepted.length_encode, HeaderPacket.size] at length
  whole := wellFormed.look_whole small
  part _ _ missing split := wellFormed.look_part small missing split

end WellFormedFrame

end Sdpf.Channel
