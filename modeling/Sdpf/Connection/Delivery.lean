import Sdpf.Channel.Sending
import Sdpf.Connection.Receive

/-!
# From sender to receiver

The frames a sender builds are at most as long as the space `on_alloc` asks for, so
the receiver never runs out of room, however the stream is divided into reads.
`sent_packets_arrive` puts the two sides together.
-/

namespace Sdpf.Connection

open Sdpf.Data Sdpf.Buffer Sdpf.Msgpack Sdpf.Dispatcher Sdpf.Channel Sdpf.Stream

variable {codec : Codec} (wild : Nat → UInt8) {frames : List (Framed UInt8 Packet)}
  {received : List UInt8} {r : Receiver}

/-- Every frame fits into the space a new buffer has. -/
def Short (frames : List (Framed UInt8 Packet)) : Prop :=
  ∀ framed ∈ frames, framed.1.length ≤ IOBuf.initialSize

/-- The unread bytes are a proper part of a frame. -/
theorem Standing.unread_lt_of_frames (standing : Standing frames received r) {limit : Nat}
    (positive : 0 < limit) (bounded : ∀ framed ∈ frames, framed.1.length ≤ limit) :
    r.recvBuf.readable.length < limit := by
  obtain ⟨complete, later, rfl, _, _, unfinished⟩ := standing.cut
  cases later with
  | nil =>
      rw [show r.recvBuf.readable = [] from unfinished]
      exact positive
  | cons next rest =>
      obtain ⟨missing, nonempty, split⟩ := unfinished
      have some_missing := List.length_pos_of_ne_nil nonempty
      have whole := bounded next (List.mem_append_right _ List.mem_cons_self)
      rw [split, List.length_append] at whole
      omega

/-- Among short frames the unread bytes are fewer than 1024. -/
theorem Standing.unread_short (standing : Standing frames received r) (short : Short frames) :
    r.recvBuf.readable.length < IOBuf.initialSize :=
  standing.unread_lt_of_frames (by decide) short

/-- Among short frames a full region is always offered. -/
theorem Standing.offered_short (standing : Standing frames received r) (short : Short frames) :
    IOBuf.initialSize ≤ r.offered := by
  have unread := standing.unread_short short
  exact standing.offered_ge (by unfold IOBuf.maxSize; omega)

/-- Any number of rounds: the stream moves on by the bytes read. -/
theorem Standing.receive (standing : Standing frames received r) (stream : Stream codec frames)
    {reads : List (List UInt8)} (rest : List UInt8) (nonempty : ∀ read ∈ reads, read ≠ [])
    (within : r.WithinOffers codec wild reads)
    (arrives : wire frames = received ++ reads.flatten ++ rest) :
    ∃ next, r.receive codec wild reads = .ok next ∧
      Standing frames (received ++ reads.flatten) next := by
  induction reads generalizing r received with
  | nil => exact ⟨r, rfl, by simpa using standing⟩
  | cons data others ih =>
      obtain ⟨room, onward⟩ := within
      rw [List.flatten_cons, ← List.append_assoc, List.append_assoc _ _ rest] at arrives
      obtain ⟨middle, first, standing'⟩ := standing.readEvent wild stream
        (nonempty data List.mem_cons_self) room arrives
      obtain ⟨next, finish, standing''⟩ := ih standing'
        (fun read member => nonempty read (List.mem_cons_of_mem _ member)) (onward middle first)
        (by rw [arrives, List.append_assoc, List.append_assoc, List.append_assoc])
      refine ⟨next, ?_, by rw [List.flatten_cons, ← List.append_assoc]; exact standing''⟩
      simp only [Receiver.receive, first, bind, Except.bind, finish]

/-- The offers made during the first reads do not depend on the later ones. -/
theorem withinOffers_append {before after : List (List UInt8)}
    (within : r.WithinOffers codec wild (before ++ after)) : r.WithinOffers codec wild before := by
  induction before generalizing r with
  | nil => trivial
  | cons data rest ih => exact ⟨within.1, fun next read => ih (within.2 next read)⟩

/-- Reads of up to 1024 bytes are within what is offered on a stream of short frames. -/
theorem Standing.withinOffers (standing : Standing frames received r)
    (stream : Stream codec frames) (short : Short frames) {reads : List (List UInt8)}
    (rest : List UInt8) (nonempty : ∀ read ∈ reads, read ≠ [])
    (small : ∀ read ∈ reads, read.length ≤ IOBuf.initialSize)
    (arrives : wire frames = received ++ reads.flatten ++ rest) :
    r.WithinOffers codec wild reads := by
  induction reads generalizing r received with
  | nil => trivial
  | cons data others ih =>
      have room := Nat.le_trans (small data List.mem_cons_self) (standing.offered_short short)
      rw [List.flatten_cons, ← List.append_assoc, List.append_assoc _ _ rest] at arrives
      obtain ⟨middle, first, standing'⟩ := standing.readEvent wild stream
        (nonempty data List.mem_cons_self) room arrives
      refine ⟨room, fun next read => ?_⟩
      rw [first] at read
      cases read
      exact ih standing' (fun other member => nonempty other (List.mem_cons_of_mem _ member))
        (fun other member => small other (List.mem_cons_of_mem _ member))
        (by rw [arrives, List.append_assoc, List.append_assoc, List.append_assoc])

/-- What was built of a packet, and the packet. -/
def Built (codec : Codec) (packet : Outgoing × IOBuf) : Prop :=
  packet.1.Named ∧ buildPacket codec packet.1.metaRpc packet.1.msg = .ok packet.2

/-- The bytes of packets, in the order they were sent. -/
def sentBytes (sent : List (Outgoing × IOBuf)) : List UInt8 :=
  sent.flatMap fun packet => packet.2.readable

/-- Packets that were built are a stream of short frames that carries them. -/
theorem sent_stream (law : codec.Lawful) {sent : List (Outgoing × IOBuf)}
    (built : ∀ packet ∈ sent, Built codec packet) :
    ∃ frames, Stream codec frames ∧ Short frames ∧ wire frames = sentBytes sent ∧
      List.Forall₂ (Outgoing.CarriedBy codec) (sent.map Prod.fst) (items frames) := by
  induction sent with
  | nil => exact ⟨[], by simp [Stream], by simp [Short], rfl, .nil⟩
  | cons packet rest ih =>
      obtain ⟨frames, stream, short, bytes, carried⟩ :=
        ih fun other member => built other (List.mem_cons_of_mem _ member)
      obtain ⟨named, ok⟩ := built packet List.mem_cons_self
      obtain ⟨limit, received, wellFormed, carriedBy⟩ := buildPacket_frame law named ok
      have small : packet.2.readable.length < 65536 := by
        unfold IOBuf.initialSize at limit
        omega
      refine ⟨(packet.2.readable, received) :: frames, ?_, ?_, ?_, .cons carriedBy carried⟩
      · exact List.forall_mem_cons.mpr ⟨⟨wellFormed, small⟩, stream⟩
      · exact List.forall_mem_cons.mpr ⟨limit, short⟩
      · rw [wire_cons, bytes]
        rfl

/-- Whatever a sender builds arrives: for every division of the bytes into non-empty
reads within the regions offered, at least 1024 bytes are offered at any time and no
read is refused, and in the end exactly the packets sent have been dispatched, in order,
with no byte left over. -/
theorem sent_packets_arrive (law : codec.Lawful) {sent : List (Outgoing × IOBuf)}
    {reads : List (List UInt8)} (built : ∀ packet ∈ sent, Built codec packet)
    (divided : reads.flatten = sentBytes sent) (nonempty : ∀ read ∈ reads, read ≠ [])
    (within : Receiver.fresh.WithinOffers codec wild reads) :
    (∀ before after, reads = before ++ after →
      ∃ r, Receiver.fresh.receive codec wild before = .ok r ∧ r.connected = true ∧
        1024 ≤ r.offered) ∧
      ∃ r, Receiver.fresh.receive codec wild reads = .ok r ∧
        List.Forall₂ (Outgoing.CarriedBy codec) (sent.map Prod.fst) r.dispatched ∧
        r.recvBuf.readable = [] := by
  obtain ⟨frames, stream, short, bytes, carried⟩ := sent_stream law built
  have start := Standing.fresh stream
  constructor
  · rintro before after rfl
    obtain ⟨r, received, standing⟩ := start.receive wild stream after.flatten
      (fun read member => nonempty read (List.mem_append_left _ member))
      (withinOffers_append wild within)
      (by rw [bytes, ← divided, List.flatten_append, List.nil_append])
    exact ⟨r, received, standing.connected, standing.offered_short short⟩
  · obtain ⟨r, received, standing⟩ := start.receive wild stream [] nonempty
      within (by rw [bytes, divided, List.append_nil, List.nil_append])
    have cut := standing.cut
    rw [List.nil_append, divided, ← bytes] at cut
    obtain ⟨dispatched, nothing⟩ := cut.finished
    exact ⟨r, received, by rw [dispatched]; exact carried, nothing⟩

/-- A packet whose bytes are known has been built. -/
theorem built_of_readable {out : Outgoing} {bytes : List UInt8} (named : out.Named)
    (content : (buildPacket codec out.metaRpc out.msg).toOption.map IOBuf.readable = some bytes) :
    ∃ pb, Built codec (out, pb) ∧ pb.readable = bytes := by
  cases made : buildPacket codec out.metaRpc out.msg with
  | error ret =>
      rw [made] at content
      cases content
  | ok pb =>
      rw [made] at content
      exact ⟨pb, ⟨named, made⟩, Option.some.inj content⟩

/-- A call of method "b" of service "a", without a body. -/
def plainCall : Outgoing := .request 9 (CStr.ofBlock [0x61]) (CStr.ofBlock [0x62]) none

/-- The call in the msgpack format. -/
def plainFrame : List UInt8 :=
  [0x45, 0x52, 0x50, 0x43, 0x00, 0x00, 0x00, 0x07, 0x01, 0x01, 0x10, 0x23,
    0x94, 0x01, 0x09, 0xa1, 0x61, 0xa1, 0x62]

/-- The call is built, and these are its bytes. -/
theorem plainCall_built : ∃ pb, Built Wire.codec (plainCall, pb) ∧ pb.readable = plainFrame :=
  built_of_readable ⟨by decide, by decide⟩ (by decide +kernel)

/-- A call of the same method with a body of one byte. -/
def bodyCall : Outgoing :=
  .request 7 (CStr.ofBlock [0x61]) (CStr.ofBlock [0x62]) (some (.byte 1))

/-- The call in the msgpack format. -/
def bodyFrame : List UInt8 :=
  [0x45, 0x52, 0x50, 0x43, 0x00, 0x01, 0x00, 0x07, 0x01, 0x01, 0x10, 0x23,
    0x94, 0x01, 0x07, 0xa1, 0x61, 0xa1, 0x62, 0x01]

/-- An answer with a body of one byte. -/
def bodyAnswer : Outgoing := .response 8 0 (some (.byte 2))

/-- The answer in the msgpack format. -/
def answerFrame : List UInt8 :=
  [0x45, 0x52, 0x50, 0x43, 0x00, 0x01, 0x00, 0x05, 0x02, 0x01, 0x10, 0x23,
    0x94, 0x02, 0x08, 0x00, 0xa0, 0x02]

/-- Three reads of a call, an answer and another call: the first ends within a header, the
second within the meta data of the answer. -/
def threeReads : List (List UInt8) :=
  [bodyFrame.take 5, bodyFrame.drop 5 ++ answerFrame.take 13, answerFrame.drop 13 ++ plainFrame]

/-- The three packets are built, and what is read are their bytes. -/
theorem threeReads_built :
    ∃ sent : List (Outgoing × IOBuf), sent.map Prod.fst = [bodyCall, bodyAnswer, plainCall] ∧
      (∀ packet ∈ sent, Built Wire.codec packet) ∧ threeReads.flatten = sentBytes sent := by
  obtain ⟨first, builtFirst, bytesFirst⟩ : ∃ pb, Built Wire.codec (bodyCall, pb) ∧
      pb.readable = bodyFrame :=
    built_of_readable ⟨by decide, by decide⟩ (by decide +kernel)
  obtain ⟨second, builtSecond, bytesSecond⟩ : ∃ pb, Built Wire.codec (bodyAnswer, pb) ∧
      pb.readable = answerFrame :=
    built_of_readable trivial (by decide +kernel)
  obtain ⟨third, builtThird, bytesThird⟩ := plainCall_built
  refine ⟨[(bodyCall, first), (bodyAnswer, second), (plainCall, third)], rfl, ?_, ?_⟩
  · simp only [List.forall_mem_cons]
    exact ⟨builtFirst, builtSecond, builtThird, by simp⟩
  · simp only [sentBytes, List.flatMap_cons, List.flatMap_nil, bytesFirst, bytesSecond, bytesThird]
    decide

/-- Every read brings something. -/
theorem threeReads_nonempty : ∀ read ∈ threeReads, read ≠ [] := by decide

/-- Each of the three reads fits into what is offered. -/
theorem threeReads_within :
    Receiver.fresh.WithinOffers Wire.codec wild threeReads := by
  obtain ⟨sent, _, built, divided⟩ := threeReads_built
  obtain ⟨frames, stream, short, bytes, _⟩ := sent_stream Wire.codec_lawful built
  refine (Standing.fresh stream).withinOffers wild stream short [] threeReads_nonempty ?_
    (by rw [bytes, divided, List.append_nil, List.nil_append])
  unfold IOBuf.initialSize
  decide

/-- A call and an answer with bodies and a call without arrive in three reads, of which the
second spans the first two frames. -/
theorem sent_packets_arrive_spanning :
    ∃ (sent : List (Outgoing × IOBuf)) (r : Receiver),
      sent.map Prod.fst = [bodyCall, bodyAnswer, plainCall] ∧
      (∀ packet ∈ sent, Built Wire.codec packet) ∧
      Receiver.fresh.receive Wire.codec (fun _ => 0) threeReads = .ok r ∧
      List.Forall₂ (Outgoing.CarriedBy Wire.codec) [bodyCall, bodyAnswer, plainCall] r.dispatched ∧
      r.recvBuf.readable = [] := by
  obtain ⟨sent, packets, built, divided⟩ := threeReads_built
  obtain ⟨_, r, received, carried, nothing⟩ := sent_packets_arrive (fun _ => 0) Wire.codec_lawful
    built divided threeReads_nonempty (threeReads_within _)
  rw [packets] at carried
  exact ⟨sent, r, packets, built, received, carried, nothing⟩

end Sdpf.Connection
