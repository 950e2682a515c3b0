import Sdpf.Connection.Delivery

/-!
# When a healthy stream is cut

On frames of up to the 4096 bytes the receive buffer can hold, the receiver closes the
connection in two situations: a read of length zero, and an empty region. The latter
comes about when 1024 more bytes would exceed the cap, so that `ensure_writable` is
refused, while the vector is written to its end; `on_alloc` ignores the refusal.
`receive_healthy_iff` shows that there are no others.
-/

namespace Sdpf.Connection

open Sdpf.Data Sdpf.Buffer Sdpf.Msgpack Sdpf.Dispatcher Sdpf.Channel Sdpf.Stream

/-- Frames the receive buffer can hold. -/
def Holdable (codec : Codec) (frames : List (Framed UInt8 Packet)) : Prop :=
  ∀ framed ∈ frames, WellFormedFrame codec framed.1 framed.2 ∧ framed.1.length ≤ 4096

/-- Frames the buffer can hold are a stream the parser recognises. -/
theorem Holdable.stream {codec : Codec} {frames : List (Framed UInt8 Packet)}
    (holdable : Holdable codec frames) : Stream codec frames :=
  fun framed member => ⟨(holdable framed member).1, by have := (holdable framed member).2; omega⟩

namespace Receiver

variable (codec : Codec) (wild : Nat → UInt8)

/-- Before each read a region is offered if fewer than 4096 bytes are unread, and no
read makes the receiver fail or close the connection. -/
def Healthy (r : Receiver) : List (List UInt8) → Prop
  | [] => True
  | data :: rest =>
      (r.recvBuf.readable.length < 4096 → 0 < r.offered) ∧
        ∃ next, r.readEvent codec wild data = .ok next ∧ next.connected = true ∧ Healthy next rest

/-- Each read brings data, and before each either 1024 bytes fit below the cap or the
vector has room behind the write index. -/
def Spacious (r : Receiver) : List (List UInt8) → Prop
  | [] => True
  | data :: rest =>
      data ≠ [] ∧
        (r.recvBuf.readable.length + 1024 ≤ 4096 ∨ r.recvBuf.writeIndex < r.recvBuf.buff.length) ∧
        ∀ next, r.readEvent codec wild data = .ok next → Spacious next rest

end Receiver

variable {codec : Codec} (wild : Nat → UInt8) {frames : List (Framed UInt8 Packet)}
  {received : List UInt8} {r : Receiver}

/-- The unread bytes never fill the buffer. -/
theorem Standing.unread_lt (standing : Standing frames received r)
    (holdable : Holdable codec frames) : r.recvBuf.readable.length < 4096 :=
  standing.unread_lt_of_frames (by decide) fun framed member => (holdable framed member).2

/-- A round without data closes the connection. -/
theorem Standing.readEvent_nil (codec : Codec) (standing : Standing frames received r) :
    ∃ next, r.readEvent codec wild [] = .ok next ∧ next.connected = false := by
  have connected :=
    (Receiver.onAlloc_kept standing.connected standing.valid standing.capped).2.2.2.1
  unfold Receiver.readEvent
  split
  · exact ⟨r.onAlloc.1.onStop, by simp [Receiver.onRead, connected, uvEnobufs], rfl⟩
  · exact ⟨r.onAlloc.1.onStop, by simp [Receiver.onRead, connected], rfl⟩

/-- On a stream of frames the buffer can hold, the receiver keeps the connection open
exactly as long as each read brings data and finds room. -/
theorem receive_healthy_iff (standing : Standing frames received r)
    (holdable : Holdable codec frames) {reads : List (List UInt8)} (rest : List UInt8)
    (arrives : wire frames = received ++ reads.flatten ++ rest)
    (within : r.WithinOffers codec wild reads) :
    r.Healthy codec wild reads ↔ r.Spacious codec wild reads := by
  induction reads generalizing r received with
  | nil => exact Iff.rfl
  | cons data others ih =>
      obtain ⟨room, onward⟩ := within
      have unread := standing.unread_lt holdable
      have offers := standing.offered_pos_iff
      rw [List.flatten_cons, ← List.append_assoc, List.append_assoc _ _ rest] at arrives
      have onward_iff : data ≠ [] → ∃ next, r.readEvent codec wild data = .ok next ∧
          next.connected = true ∧
          (next.Healthy codec wild others ↔ next.Spacious codec wild others) := by
        intro nonempty
        obtain ⟨next, read, standing'⟩ := standing.readEvent wild holdable.stream nonempty
          room arrives
        refine ⟨next, read, standing'.connected, ih standing' ?_ (onward next read)⟩
        rw [arrives, List.append_assoc, List.append_assoc, List.append_assoc]
      constructor
      · rintro ⟨offered, next, read, connected, healthy⟩
        have nonempty : data ≠ [] := by
          rintro rfl
          obtain ⟨closed, read', disconnected⟩ := standing.readEvent_nil wild codec
          rw [read] at read'
          cases read'
          rw [connected] at disconnected
          cases disconnected
        obtain ⟨next', read', _, same⟩ := onward_iff nonempty
        refine ⟨nonempty, offers.mp (offered unread), fun other read'' => ?_⟩
        rw [read'] at read read''
        cases read
        cases read''
        exact same.mp healthy
      · rintro ⟨nonempty, space, spacious⟩
        obtain ⟨next, read, connected, same⟩ := onward_iff nonempty
        exact ⟨fun _ => offers.mpr space, next, read, connected, same.mpr (spacious next read)⟩

/-- Short frames of a stream can be held. -/
theorem Short.holdable (stream : Stream codec frames) (short : Short frames) :
    Holdable codec frames :=
  fun framed member =>
    ⟨(stream framed member).1, Nat.le_trans (short framed member) (by decide)⟩

/-- The three reads of a call, an answer and another call, two of them ending within a
frame. -/
theorem receive_healthy_iff_spanning :
    ∃ frames, Holdable Wire.codec frames ∧ wire frames = threeReads.flatten ∧
      (Receiver.fresh.Healthy Wire.codec (fun _ => 0) threeReads ↔
        Receiver.fresh.Spacious Wire.codec (fun _ => 0) threeReads) := by
  obtain ⟨sent, _, built, divided⟩ := threeReads_built
  obtain ⟨frames, stream, short, bytes, _⟩ := sent_stream Wire.codec_lawful built
  have holdable := short.holdable stream
  have arrives := bytes.trans divided.symm
  exact ⟨frames, holdable, arrives, receive_healthy_iff _ (Standing.fresh stream) holdable []
    (by rw [arrives, List.append_nil, List.nil_append]) (threeReads_within _)⟩

/-- A read of length zero before the call arrives cuts the connection. -/
theorem receive_not_healthy :
    ¬ ∀ (frames : List (Framed UInt8 Packet)) (received : List UInt8) (r : Receiver)
        (reads : List (List UInt8)) (rest : List UInt8),
      Standing frames received r → Holdable Wire.codec frames →
      wire frames = received ++ reads.flatten ++ rest →
      r.WithinOffers Wire.codec (fun _ => 0) reads → r.Healthy Wire.codec (fun _ => 0) reads := by
  intro healthy
  obtain ⟨pb, built, _⟩ := plainCall_built
  obtain ⟨limit, packet, wellFormed, _⟩ := buildPacket_frame Wire.codec_lawful built.1 built.2
  have holdable : Holdable Wire.codec [(pb.readable, packet)] :=
    List.forall_mem_singleton.mpr ⟨wellFormed, Nat.le_trans limit (by decide)⟩
  have standing := Standing.fresh holdable.stream
  obtain ⟨_, next, read, connected, _⟩ := healthy _ _ _ [[]] pb.readable standing holdable
    (by simp [wire]) ⟨Nat.zero_le _, fun _ _ => trivial⟩
  obtain ⟨closed, read', disconnected⟩ := standing.readEvent_nil (fun _ => 0) Wire.codec
  rw [read] at read'
  cases read'
  rw [connected] at disconnected
  cases disconnected

end Sdpf.Connection
