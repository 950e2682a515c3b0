import Sdpf.Channel.Parsing

/-!
# The receiving side of a connection

libuv asks for a region (`on_alloc`), places bytes in it and reports how many
(`on_read`); `on_recv` then parses packets off the front of the receive buffer until
none is left. `readEvent` is one such round and `receive` a sequence of them.

`Standing` is what each round leaves on a stream of well-formed frames: the frames
received completely have been dispatched, and the beginning of the next one is in the
buffer.
-/

namespace Sdpf.Connection

open Sdpf.Data Sdpf.Buffer Sdpf.Msgpack Sdpf.Dispatcher Sdpf.Channel Sdpf.Stream

/-- What `on_recv` leaves: the buffer, the packets it dispatched, and whether it asked
the connection to stop. -/
structure Received where
  buf : IOBuf
  dispatched : List Packet
  stopped : Bool
deriving DecidableEq, Repr

/-- The loop of `on_recv`. Every further round has consumed at least one byte, so one
round more than there are readable bytes is enough (`onRecv_enough`). -/
def onRecv (codec : Codec) (wild : Nat → UInt8) : Nat → IOBuf → Access Received
  | 0, b => .ok ⟨b, [], false⟩
  | rounds + 1, b => do
      let parsed ← parse codec wild b
      if parsed.1 > 0 then
        let rest ← onRecv codec wild rounds (b.hasReaded parsed.1.toNat).2
        .ok { rest with dispatched := parsed.2.toList ++ rest.dispatched }
      else
        .ok ⟨b, parsed.2.toList, parsed.1 < 0⟩

/-- A connection as its peer's bytes see it: `TcpConnectionImp` with `on_recv` as its
receive callback, and the packets dispatched so far. -/
structure Receiver where
  connected : Bool
  recvBuf : IOBuf
  dispatched : List Packet
deriving DecidableEq, Repr

/-- `UV_ENOBUFS`. -/
def uvEnobufs : Int := -105

namespace Receiver

/-- A connection that has just been established. -/
def fresh : Receiver where
  connected := true
  recvBuf := IOBuf.create IOBuf.initialSize
  dispatched := []

/-- `on_alloc`: the size of the region offered comes second. -/
def onAlloc (r : Receiver) : Receiver × Nat :=
  if r.connected then
    let b := (r.recvBuf.ensureWritable IOBuf.initialSize).2
    ({ r with recvBuf := b }, b.writableBytes)
  else
    (r, 0)

/-- `on_stop`, as far as the receiver is concerned. -/
def onStop (r : Receiver) : Receiver := { r with connected := false }

/-- `on_read` after `data` has been placed in the region. -/
def onRead (codec : Codec) (wild : Nat → UInt8) (r : Receiver) (nread : Int)
    (data : List UInt8) : Access Receiver :=
  if r.connected = false then
    .ok r
  else if nread > 0 then do
    let b := ((r.recvBuf.fill data).hasWritten nread.toNat).2
    let received ← onRecv codec wild (b.readableBytes + 1) b
    .ok {
      connected := !received.stopped
      recvBuf := received.buf
      dispatched := r.dispatched ++ received.dispatched }
  else
    .ok r.onStop

/-- The size of the region the next `on_alloc` offers. -/
def offered (r : Receiver) : Nat := r.onAlloc.2

/-- One round of libuv's read loop. An empty region is reported as `UV_ENOBUFS`; a
socket that turns out to have no data is reported as a read of length zero. -/
def readEvent (codec : Codec) (wild : Nat → UInt8) (r : Receiver) (data : List UInt8) :
    Access Receiver :=
  if r.onAlloc.2 = 0 then
    r.onAlloc.1.onRead codec wild uvEnobufs []
  else
    r.onAlloc.1.onRead codec wild data.length data

/-- A sequence of rounds. -/
def receive (codec : Codec) (wild : Nat → UInt8) (r : Receiver) :
    List (List UInt8) → Access Receiver
  | [] => .ok r
  | data :: rest => do
      let next ← readEvent codec wild r data
      receive codec wild next rest

/-- Each read is no longer than the region offered at that moment. -/
def WithinOffers (codec : Codec) (wild : Nat → UInt8) (r : Receiver) : List (List UInt8) → Prop
  | [] => True
  | data :: rest =>
      data.length ≤ r.offered ∧
        ∀ next, readEvent codec wild r data = .ok next → WithinOffers codec wild next rest

end Receiver

namespace Receiver

variable {r : Receiver}

/-- The space asked for by `on_alloc` is nowhere near the range of sizes. -/
theorem asked_small (valid : r.recvBuf.Valid) (capped : r.recvBuf.capacity ≤ IOBuf.maxSize) :
    IOBuf.initialSize + r.recvBuf.readable.length < sizeRange := by
  have within := valid.readable_le_capacity
  unfold IOBuf.maxSize IOBuf.initialSize sizeRange at *
  omega

/-- On an open connection the region is what `ensure_writable` leaves. -/
theorem onAlloc_connected (connected : r.connected = true) :
    r.onAlloc = ({ r with recvBuf := (r.recvBuf.ensureWritable IOBuf.initialSize).2 },
      (r.recvBuf.ensureWritable IOBuf.initialSize).2.writableBytes) := by
  simp only [onAlloc, connected, if_true]

/-- Asking for a region keeps what has been received. -/
theorem onAlloc_kept (connected : r.connected = true) (valid : r.recvBuf.Valid)
    (capped : r.recvBuf.capacity ≤ IOBuf.maxSize) :
    r.onAlloc.1.recvBuf.Valid ∧ r.onAlloc.1.recvBuf.readable = r.recvBuf.readable ∧
      r.onAlloc.1.recvBuf.capacity ≤ IOBuf.maxSize ∧
      r.onAlloc.1.connected = true ∧ r.onAlloc.1.dispatched = r.dispatched := by
  have small := asked_small valid capped
  rw [onAlloc_connected connected]
  by_cases fits : IOBuf.initialSize + r.recvBuf.readable.length ≤
      max r.recvBuf.capacity IOBuf.maxSize
  · obtain ⟨_, valid', kept, _, _, limit⟩ := valid.ensureWritable small fits
    exact ⟨valid', kept, Nat.le_trans limit (by omega), connected, rfl⟩
  · rw [valid.ensureWritable_refused small (by omega)]
    exact ⟨valid, rfl, capped, connected, rfl⟩

/-- A round with data runs the loop on what was unread and the new bytes. -/
theorem readEvent_eq (codec : Codec) (wild : Nat → UInt8) (connected : r.connected = true)
    (valid : r.recvBuf.Valid) (capped : r.recvBuf.capacity ≤ IOBuf.maxSize) {data : List UInt8}
    (nonempty : data ≠ []) (within : data.length ≤ r.offered) :
    ∃ b : IOBuf, b.Valid ∧ b.readable = r.recvBuf.readable ++ data ∧
      b.capacity ≤ IOBuf.maxSize ∧
      r.readEvent codec wild data = (onRecv codec wild (b.readable.length + 1) b >>= fun received =>
        .ok ⟨!received.stopped, received.buf, r.dispatched ++ received.dispatched⟩) := by
  have positive := List.length_pos_of_ne_nil nonempty
  obtain ⟨valid', kept, limit, still, same⟩ := onAlloc_kept connected valid capped
  have region : r.onAlloc.2 = r.onAlloc.1.recvBuf.writableBytes := by
    rw [onAlloc_connected connected]
  have offers : ¬ r.onAlloc.2 = 0 := by
    unfold offered at within
    omega
  obtain ⟨_, valid'', appended, size, _⟩ :=
    valid'.hasWritten (Nat.le_trans within (Nat.le_of_eq region))
  refine ⟨_, valid'', appended.trans (by rw [kept]), by rw [size]; exact limit, ?_⟩
  rw [readEvent, if_neg offers, onRead, still, if_neg (by decide), if_pos (by omega),
    Int.toNat_natCast, same, ← valid''.readableBytes_length]

end Receiver

/-- What the parser is told by bytes that start with a whole packet. -/
theorem parse_item {b : IOBuf} (valid : b.Valid) {codec : Codec} (wild : Nat → UInt8)
    (noOverrun : ¬ Overruns b.readable) {consumed : Nat} {packet : Packet}
    (item : look codec b.readable = .item consumed packet) :
    parse codec wild b = .ok ((consumed : Int), some packet) := by
  rw [parse_eq valid codec wild noOverrun]
  unfold look at item
  cases parsed : parseAt codec b.readable.length (blockMemory b.readable) with
  | error violation => simp [parsed] at item
  | ok result =>
      obtain ⟨ret, dispatched⟩ := result
      cases dispatched with
      | none =>
          simp only [parsed] at item
          split at item <;> cases item
      | some sent =>
          simp only [parsed, Verdict.item.injEq] at item
          obtain ⟨rfl, rfl⟩ := item
          rw [Int.toNat_of_nonneg (parseAt_nonneg parsed)]

/-- What the parser is told by an unfinished packet. -/
theorem parse_more {b : IOBuf} (valid : b.Valid) {codec : Codec} (wild : Nat → UInt8)
    (noOverrun : ¬ Overruns b.readable) (more : look codec b.readable = .more) :
    parse codec wild b = .ok (0, none) := by
  rw [parse_eq valid codec wild noOverrun]
  unfold look at more
  cases parsed : parseAt codec b.readable.length (blockMemory b.readable) with
  | error violation => simp [parsed] at more
  | ok result =>
      obtain ⟨ret, dispatched⟩ := result
      cases dispatched with
      | some sent => simp [parsed] at more
      | none =>
          simp only [parsed] at more
          split at more
          · next zero => rw [zero]
          · cases more

/-- What `parse` returns when `deserialize_meta` returns `status`. The handlers have no
part in it. -/
def parseReturn (wild : Nat → UInt8) (b : IOBuf) (status : Int) : Int :=
  match checkHeader b.readableBytes (bufferMemory wild b) with
  | .incomplete => 0
  | .malformed => -1
  | .complete header => if 0 ≠ status then -2 else header.packLen.toNat

/-- The parser never consumes more than has been received. -/
theorem parseReturn_le {b : IOBuf} (valid : b.Valid) (wild : Nat → UInt8) (status : Int) :
    (parseReturn wild b status).toNat ≤ b.readable.length := by
  unfold parseReturn
  rw [checkHeader_buffer valid]
  cases checked : checkHeader b.readable.length (blockMemory b.readable) with
  | incomplete => exact Nat.zero_le _
  | malformed => exact Nat.zero_le _
  | complete header =>
      obtain ⟨_, _, _, arrived⟩ := checkHeader_complete_iff.mp checked
      simp only
      split_ifs
      · exact Nat.zero_le _
      · rw [Int.toNat_natCast]
        exact arrived

/-- The value depends on the meta data only through the status of its decoder. -/
theorem parse_return {b : IOBuf} {codec : Codec} {wild : Nat → UInt8}
    {result : Int × Option Packet} (parsed : parse codec wild b = .ok result) :
    ∃ status, result.1 = parseReturn wild b status := by
  unfold parse parseAt at parsed
  unfold parseReturn
  cases checked : checkHeader b.readableBytes (bufferMemory wild b) with
  | incomplete =>
      simp only [checked] at parsed
      cases parsed
      exact ⟨0, rfl⟩
  | malformed =>
      simp only [checked] at parsed
      cases parsed
      exact ⟨0, rfl⟩
  | complete header =>
      simp only [checked] at parsed
      obtain ⟨decoded, _, parsed⟩ := ok_bind parsed
      refine ⟨decoded.1, ?_⟩
      simp only at parsed ⊢
      split_ifs at parsed ⊢ with failed
      · cases parsed
        rfl
      · cases parsed
        rfl

/-- The parser consumes no more than is readable. -/
theorem parse_le {b : IOBuf} (valid : b.Valid) {codec : Codec} {wild : Nat → UInt8}
    {result : Int × Option Packet} (parsed : parse codec wild b = .ok result) :
    result.1.toNat ≤ b.readable.length := by
  obtain ⟨status, same⟩ := parse_return parsed
  rw [same]
  exact parseReturn_le valid wild status

/-- The rounds granted to the loop are enough: one more makes no difference. -/
theorem onRecv_enough {codec : Codec} {wild : Nat → UInt8} {rounds : Nat} {b : IOBuf}
    (valid : b.Valid) (enough : b.readable.length < rounds) :
    onRecv codec wild (rounds + 1) b = onRecv codec wild rounds b := by
  induction rounds generalizing b with
  | zero => omega
  | succ rounds ih =>
      rw [onRecv, onRecv]
      cases parsed : parse codec wild b with
      | error violation => rfl
      | ok result =>
          simp only [bind, Except.bind]
          by_cases positive : result.1 > 0
          · have consumed := parse_le valid parsed
            obtain ⟨_, valid', dropped, _, _⟩ := valid.hasReaded consumed
            have shorter : (b.hasReaded result.1.toNat).2.readable.length < rounds := by
              rw [dropped, List.length_drop]
              omega
            rw [if_pos positive, if_pos positive, ih valid' shorter]
          · rw [if_neg positive, if_neg positive]

/-- A sequence of frames a peer may send: well-formed, and of moderate size. -/
def Stream (codec : Codec) (frames : List (Framed UInt8 Packet)) : Prop :=
  ∀ framed ∈ frames, WellFormedFrame codec framed.1 framed.2 ∧ framed.1.length < 65536

/-- Each frame of a stream is one for the scanner. -/
theorem Stream.allFrames {codec : Codec} {frames : List (Framed UInt8 Packet)}
    (stream : Stream codec frames) : AllFrames (look codec) frames :=
  fun framed member => (stream framed member).1.isFrame (stream framed member).2

/-- No frame is empty. -/
theorem Stream.nonempty {codec : Codec} {frames : List (Framed UInt8 Packet)}
    (stream : Stream codec frames) : ∀ framed ∈ frames, framed.1 ≠ [] :=
  fun framed member => (stream.allFrames framed member).nonempty

/-- The loop dispatches exactly the complete frames in the buffer. -/
theorem onRecv_frames {codec : Codec} (wild : Nat → UInt8) {fresh later : List (Framed UInt8 Packet)}
    {partly : List UInt8} {rounds : Nat} {b : IOBuf} (valid : b.Valid)
    (stream : Stream codec (fresh ++ later)) (unfinished : Unfinished partly later)
    (content : b.readable = wire fresh ++ partly) (enough : fresh.length < rounds) :
    ∃ b', onRecv codec wild rounds b = .ok ⟨b', items fresh, false⟩ ∧ b'.Valid ∧
      b'.readable = partly ∧ b'.capacity = b.capacity := by
  induction fresh generalizing rounds b with
  | nil =>
      obtain ⟨rounds, rfl⟩ : ∃ fewer, rounds = fewer + 1 := ⟨rounds - 1, by simp at enough; omega⟩
      rw [wire_nil, List.nil_append] at content
      have waiting : look codec partly = .more := unfinished.look rfl stream.allFrames
      have noOverrun : ¬ Overruns partly := by
        cases later with
        | nil =>
            rw [show partly = [] from unfinished]
            exact fun overruns => absurd overruns.1 (by decide)
        | cons next rest =>
            obtain ⟨missing, _, split⟩ := unfinished
            obtain ⟨wellFormed, small⟩ := stream next List.mem_cons_self
            exact wellFormed.not_overruns small (.inl ⟨missing, split.symm⟩)
      rw [← content] at waiting noOverrun
      have more := parse_more valid wild noOverrun waiting
      exact ⟨b, by simp [onRecv, more, bind, Except.bind], valid, content, rfl⟩
  | cons next rest ih =>
      obtain ⟨rounds, rfl⟩ : ∃ fewer, rounds = fewer + 1 := ⟨rounds - 1, by omega⟩
      rw [wire_cons, List.append_assoc] at content
      obtain ⟨wellFormed, small⟩ := stream next List.mem_cons_self
      have first := wellFormed.isFrame small
      have noOverrun : ¬ Overruns b.readable := by
        rw [content]
        exact wellFormed.not_overruns small (.inr (List.prefix_append _ _))
      have item := parse_item valid wild noOverrun (by rw [content]; exact first.whole _)
      have positive := List.length_pos_of_ne_nil first.nonempty
      obtain ⟨_, valid', dropped, same, _⟩ := valid.hasReaded (n := next.1.length)
        (by rw [content, List.length_append]; omega)
      rw [content, List.drop_left] at dropped
      obtain ⟨b', looped, valid'', left, size⟩ := ih valid'
        (fun framed member => stream framed (List.mem_cons_of_mem _ member)) dropped
        (Nat.lt_of_succ_lt_succ enough)
      refine ⟨b', ?_, valid'', left, size.trans same⟩
      simp [onRecv, item, bind, Except.bind, positive, looped]

/-- A point in the reception of a stream of frames: `received` has arrived, its
complete frames have been dispatched, and the rest is in the buffer. -/
structure Standing (frames : List (Framed UInt8 Packet)) (received : List UInt8)
    (r : Receiver) : Prop where
  connected : r.connected = true
  valid : r.recvBuf.Valid
  capped : r.recvBuf.capacity ≤ IOBuf.maxSize
  cut : Cut frames received r.dispatched r.recvBuf.readable

/-- A new connection stands at the beginning of any stream. -/
theorem Standing.fresh {codec : Codec} {frames : List (Framed UInt8 Packet)}
    (stream : Stream codec frames) : Standing frames [] Receiver.fresh where
  connected := rfl
  valid := IOBuf.create_valid (by decide)
  capped := by
    simp only [Receiver.fresh, IOBuf.create_capacity]
    decide
  cut := by
    simp only [Receiver.fresh, IOBuf.create_readable]
    exact Cut.start stream.nonempty

namespace Standing

variable {codec : Codec} {frames : List (Framed UInt8 Packet)}
  {received : List UInt8} {r : Receiver}

/-- When `on_alloc` has a region to offer: as long as 1024 more bytes fit below the
cap, or the vector has room behind the write index. -/
theorem offered_pos_iff (standing : Standing frames received r) :
    0 < r.offered ↔
      r.recvBuf.readable.length + IOBuf.initialSize ≤ IOBuf.maxSize ∨
        r.recvBuf.writeIndex < r.recvBuf.capacity := by
  have valid := standing.valid
  have capped := standing.capped
  have bounded := valid.bounded
  have small := Receiver.asked_small valid capped
  rw [Receiver.offered, Receiver.onAlloc_connected standing.connected]
  by_cases fits : r.recvBuf.readable.length + IOBuf.initialSize ≤ IOBuf.maxSize
  · obtain ⟨_, _, _, room, _, _⟩ := valid.ensureWritable small (by omega)
    refine iff_of_true ?_ (.inl fits)
    exact Nat.lt_of_lt_of_le (by decide) room
  · rw [valid.ensureWritable_refused small (by omega), valid.writableBytes_eq]
    simp only [fits, false_or]
    unfold IOBuf.capacity
    omega

/-- Below the cap the whole 1024 bytes are offered. -/
theorem offered_ge (standing : Standing frames received r)
    (below : r.recvBuf.readable.length + IOBuf.initialSize ≤ IOBuf.maxSize) :
    IOBuf.initialSize ≤ r.offered := by
  have small := Receiver.asked_small standing.valid standing.capped
  rw [Receiver.offered, Receiver.onAlloc_connected standing.connected]
  exact (standing.valid.ensureWritable small (by omega)).2.2.2.1

/-- One round with data: the stream moves on by the bytes read. -/
theorem readEvent (standing : Standing frames received r) (wild : Nat → UInt8)
    (stream : Stream codec frames) {data rest : List UInt8} (nonempty : data ≠ [])
    (within : data.length ≤ r.offered)
    (arrives : wire frames = received ++ data ++ rest) :
    ∃ next, r.readEvent codec wild data = .ok next ∧ Standing frames (received ++ data) next := by
  obtain ⟨b, valid, appended, capped, event⟩ := Receiver.readEvent_eq codec wild
    standing.connected standing.valid standing.capped nonempty within
  obtain ⟨fresh, later, partly, members, content, unfinished, cut⟩ :=
    standing.cut.feed stream.nonempty arrives
  rw [← appended] at content
  have fewer : fresh.length < b.readable.length + 1 := by
    rw [content, List.length_append]
    have count : fresh.length ≤ (wire fresh).length := length_le_wire fun framed member =>
      stream.nonempty framed (members framed (List.mem_append_left _ member))
    omega
  obtain ⟨b', looped, valid', left, size⟩ := onRecv_frames wild valid
    (fun framed member => stream framed (members framed member)) unfinished content fewer
  refine ⟨⟨true, b', r.dispatched ++ items fresh⟩, ?_, rfl, valid', ?_, ?_⟩
  · rw [event, looped]
    rfl
  · rw [size]
    exact capped
  · rw [left]
    exact cut

end Standing

end Sdpf.Connection
