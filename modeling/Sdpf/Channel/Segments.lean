import Sdpf.Channel.Parsing
import Sdpf.Stream.Scanner
import Mathlib.Data.List.ReduceOption

/-!
# The parser on a stream in pieces

`Queue` is the receive buffer as an unbounded queue of bytes, with `on_recv` run after
each piece that arrives. As long as no accepted header announces a packet of 65536 bytes
or more, it does what `packetScanner` does, which adds the lengths of a header without a
limit; so neither what is dispatched nor the verdict depends on the pieces
(`segmentation_independent`).
-/

namespace Sdpf.Channel

open Sdpf.Data Sdpf.Buffer Sdpf.Msgpack Sdpf.Dispatcher Sdpf.Stream

/-- Why a stream is given up: a negative value returned by `parse`, or an access of the
meta decoder that has no defined outcome. -/
inductive Refusal where
  | returned (ret : Int)
  | violation (violation : Violation)
deriving DecidableEq, Repr

/-- The header at the front of some bytes. -/
def frontHeader (bytes : List UInt8) : HeaderPacket :=
  HeaderPacket.decode (slice bytes 0 HeaderPacket.size)

/-- What `parse` would do if it added the lengths of the header without a limit. -/
def scanPacket (codec : Codec) (bytes : List UInt8) : Scan (Option Packet) Refusal :=
  if bytes.length < HeaderPacket.size then
    .more
  else
    let header := frontHeader bytes
    if ¬ header.Accepted then
      .stop (.returned (-1))
    else if bytes.length < header.total then
      .more
    else
      match deserializeMeta codec (.fresh header.type.toUInt32)
          (slice bytes HeaderPacket.size header.metaLen.toNat) with
      | .error violation => .stop (.violation violation)
      | .ok (ret, m) =>
          if 0 ≠ ret then
            .stop (.returned (-2))
          else
            .item header.total (dispatch m
              (slice bytes (HeaderPacket.size + header.metaLen.toNat) header.bodyLen.toNat))

section Scan

variable {codec : Codec} {bytes : List UInt8}

/-- A packet is taken off the front when it has arrived. -/
private theorem scanPacket_consumes {consumed : Nat} {packet : Option Packet}
    (found : scanPacket codec bytes = .item consumed packet) :
    0 < consumed ∧ consumed ≤ bytes.length := by
  unfold scanPacket at found
  simp only at found
  split_ifs at found with short refused partly
  split at found
  · cases found
  · split_ifs at found
    cases found
    refine ⟨?_, Nat.le_of_not_lt partly⟩
    unfold HeaderPacket.total HeaderPacket.size
    omega

/-- The header does not depend on what follows it. -/
theorem frontHeader_append (long : HeaderPacket.size ≤ bytes.length) (more : List UInt8) :
    frontHeader (bytes ++ more) = frontHeader bytes := by
  rw [frontHeader, slice_append_left (by omega), frontHeader]

/-- What follows the bytes does not matter once there are enough of them. -/
private theorem scanPacket_final (decided : scanPacket codec bytes ≠ .more)
    (more : List UInt8) : scanPacket codec (bytes ++ more) = scanPacket codec bytes := by
  unfold scanPacket at decided ⊢
  simp only at decided ⊢
  by_cases short : bytes.length < HeaderPacket.size
  · exact absurd (if_pos short) decided
  · rw [if_neg short] at decided ⊢
    rw [if_neg (by rw [List.length_append]; omega),
      frontHeader_append (Nat.le_of_not_lt short)]
    by_cases accepted : (frontHeader bytes).Accepted
    · rw [if_neg (not_not.mpr accepted)] at decided ⊢
      by_cases partly : bytes.length < (frontHeader bytes).total
      · exact absurd (if_pos partly) decided
      · have arrived := Nat.le_of_not_lt partly
        unfold HeaderPacket.total at arrived
        rw [if_neg partly, if_neg (not_not.mpr accepted),
          if_neg (by rw [List.length_append]; omega), slice_append_left (by omega),
          slice_append_left (by omega)]
    · rw [if_pos accepted, if_pos accepted]

end Scan

/-- The parser without the 16-bit limit. -/
def packetScanner (codec : Codec) : Scanner UInt8 (Option Packet) Refusal where
  scan := scanPacket codec
  consumes := scanPacket_consumes
  final := scanPacket_final

/-- The bytes of a queue, and behind them whatever happens to be there. -/
def queueMemory (wild : Nat → UInt8) (bytes : List UInt8) (offset : Nat) : UInt8 :=
  (bytes[offset]?).getD (wild offset)

/-- A receiver with an unbounded byte queue for a buffer. -/
structure Queue where
  unread : List UInt8
  dispatched : List Packet
  refused : Option Refusal
deriving DecidableEq, Repr

namespace Queue

variable (codec : Codec) (wild : Nat → UInt8)

/-- The loop of `on_recv` on the bytes of a queue. -/
def onRecv : Nat → List UInt8 → Queue
  | 0, bytes => ⟨bytes, [], none⟩
  | rounds + 1, bytes =>
      match parseAt codec bytes.length (queueMemory wild bytes) with
      | .error violation => ⟨bytes, [], some (.violation violation)⟩
      | .ok (ret, packet) =>
          if ret > 0 then
            let rest := onRecv rounds (bytes.drop ret.toNat)
            { rest with dispatched := packet.toList ++ rest.dispatched }
          else
            ⟨bytes, packet.toList, if ret < 0 then some (.returned ret) else none⟩

/-- A piece arrives. Every round of the loop that is followed by another has consumed at
least one byte. -/
def append (q : Queue) (piece : List UInt8) : Queue :=
  match q.refused with
  | some _ => q
  | none =>
      let next := onRecv codec wild ((q.unread ++ piece).length + 1) (q.unread ++ piece)
      { next with dispatched := q.dispatched ++ next.dispatched }

/-- A sequence of pieces arrives. -/
def receive (pieces : List (List UInt8)) : Queue :=
  pieces.foldl (append codec wild) ⟨[], [], none⟩

/-- The queue of a receiver that uses the parser without the limit. -/
def of (state : Drained UInt8 (Option Packet) Refusal) : Queue :=
  ⟨state.unread, state.items.reduceOption, state.stopped⟩

end Queue

/-- The size of the packet at the front does not wrap, or not even the wrapped number of
bytes has arrived. -/
def Plain (bytes : List UInt8) : Prop :=
  HeaderPacket.size ≤ bytes.length → (frontHeader bytes).Accepted →
    (frontHeader bytes).total ≤ 65535 ∨ bytes.length < (frontHeader bytes).total % 65536

/-- The bytes are plain wherever a packet starts. -/
def Straight (codec : Codec) (stream : List UInt8) : Prop :=
  ∀ items rest, (packetScanner codec).Finds stream items rest → Plain rest

/-- No accepted header that is reached at the start of a packet announces more than 65535
bytes. -/
def Moderate (codec : Codec) (stream : List UInt8) : Prop :=
  ∀ items rest, (packetScanner codec).Finds stream items rest → 12 ≤ rest.length →
    (frontHeader rest).Accepted →
      12 + (frontHeader rest).metaLen.toNat + (frontHeader rest).bodyLen.toNat ≤ 65535

/-- What `parse` returns for each outcome of the scan. -/
def told : Scan (Option Packet) Refusal → Access (Int × Option Packet)
  | .more => .ok (0, none)
  | .item consumed packet => .ok (consumed, packet)
  | .stop (.returned ret) => .ok (ret, none)
  | .stop (.violation violation) => .error violation

section Parse

variable {codec : Codec} {bytes more stream : List UInt8} {memory : Nat → UInt8}

/-- Bytes that come later do not make a plain start what it was not. -/
theorem Plain.of_append (plain : Plain (bytes ++ more)) : Plain bytes := by
  intro long accepted
  have whole := plain (by rw [List.length_append]; omega)
  rw [frontHeader_append long] at whole
  refine (whole accepted).imp_right fun early => ?_
  rw [List.length_append] at early
  omega

/-- The beginning of a straight stream is straight. -/
theorem Straight.of_append (straight : Straight codec (stream ++ more)) :
    Straight codec stream :=
  fun items rest finds => (straight items (rest ++ more) (finds.append more)).of_append

/-- What follows some packets of a straight stream is straight. -/
theorem Straight.behind {items : List (Option Packet)} {rest : List UInt8}
    (straight : Straight codec stream) (finds : (packetScanner codec).Finds stream items rest) :
    Straight codec rest :=
  fun later _ onward => straight (items ++ later) _ (finds.trans onward)

/-- A moderate stream is straight. -/
theorem Moderate.straight (moderate : Moderate codec stream) : Straight codec stream :=
  fun items rest finds long accepted => .inl (moderate items rest finds long accepted)

/-- On plain bytes `parse` does what the scan says. -/
theorem parseAt_scan (agree : ∀ offset < bytes.length, memory offset = blockMemory bytes offset)
    (plain : Plain bytes) : parseAt codec bytes.length memory = told (scanPacket codec bytes) := by
  unfold parseAt scanPacket
  rw [checkHeader_congr agree]
  unfold checkHeader
  by_cases short : bytes.length < HeaderPacket.size
  · rw [if_pos short, if_pos short]
    rfl
  · rw [if_neg short, if_neg short, peek_block (by omega)]
    have fits := plain (by omega)
    rw [← frontHeader]
    simp only
    generalize frontHeader bytes = header at fits ⊢
    by_cases accepted : header.Accepted
    · have wrapped := header.toNat_packLen
      rw [if_neg (not_not.mpr accepted), if_neg (not_not.mpr accepted)]
      by_cases partly : bytes.length < header.packLen.toNat
      · have less : bytes.length < header.total := by omega
        rw [if_pos partly, if_pos less]
        rfl
      · have size : header.packLen.toNat = header.total := by
          rcases fits accepted with small | early
          · omega
          · omega
        have arrived : header.total ≤ bytes.length := by omega
        unfold HeaderPacket.total at arrived
        have metaHere : peek memory HeaderPacket.size header.metaLen.toNat =
            slice bytes HeaderPacket.size header.metaLen.toNat := by
          rw [peek_congr agree _ _ (by omega), peek_block (by omega)]
        have bodyHere : peek memory (HeaderPacket.size + header.metaLen.toNat)
            header.bodyLen.toNat =
              slice bytes (HeaderPacket.size + header.metaLen.toNat) header.bodyLen.toNat := by
          rw [peek_congr agree _ _ (by omega), peek_block (by omega)]
        rw [if_neg partly, if_neg (by omega)]
        simp only [metaHere, bodyHere, bind, Except.bind, size]
        cases deserializeMeta codec (.fresh header.type.toUInt32)
            (slice bytes HeaderPacket.size header.metaLen.toNat) with
        | error violation => rfl
        | ok decoded =>
            obtain ⟨ret, m⟩ := decoded
            simp only
            split_ifs <;> rfl
    · rw [if_pos accepted, if_pos accepted]
      rfl

/-- A stop is told as a negative value or a violation. -/
theorem scanPacket_stop {ret : Int} (stops : scanPacket codec bytes = .stop (.returned ret)) :
    ret < 0 := by
  unfold scanPacket at stops
  simp only at stops
  split_ifs at stops with short accepted partly
  · split at stops
    · cases stops
    · split_ifs at stops
      cases stops
      decide
  · cases stops
    decide

end Parse

section Receive

variable {codec : Codec} (wild : Nat → UInt8) {stream : List UInt8}
  {state : Drained UInt8 (Option Packet) Refusal}

/-- On straight bytes the parser is told what the scan says. -/
theorem parse_queue {bytes : List UInt8} (straight : Straight codec bytes) :
    parseAt codec bytes.length (queueMemory wild bytes) = told (scanPacket codec bytes) := by
  refine parseAt_scan (fun offset inside => ?_) (straight [] bytes (.done bytes))
  simp [queueMemory, blockMemory, List.getD_eq_getElem?_getD, inside]

/-- The loop drains straight bytes, given more rounds than there are bytes. -/
theorem Queue.onRecv_drain {rounds : Nat} {bytes : List UInt8} (straight : Straight codec bytes)
    (enough : bytes.length < rounds) :
    Queue.onRecv codec wild rounds bytes = .of ((packetScanner codec).drain bytes) := by
  induction rounds generalizing bytes with
  | zero => omega
  | succ rounds ih =>
      have parsed := parse_queue wild straight
      rw [onRecv]
      cases scanned : scanPacket codec bytes with
      | more =>
          rw [scanned] at parsed
          have waits : (packetScanner codec).scan bytes = .more := scanned
          rw [Scanner.drain_more waits]
          simp [parsed, told, of]
      | stop reason =>
          rw [scanned] at parsed
          have stops : (packetScanner codec).scan bytes = .stop reason := scanned
          rw [Scanner.drain_stop stops]
          cases reason with
          | returned ret =>
              have negative := scanPacket_stop scanned
              simp [parsed, told, of, negative, Int.not_lt.mpr (Int.le_of_lt negative)]
          | violation violation => simp [parsed, told, of]
      | item consumed packet =>
          rw [scanned] at parsed
          have found : (packetScanner codec).scan bytes = .item consumed packet := scanned
          obtain ⟨positive, within⟩ := (packetScanner codec).consumes found
          have rest := ih (straight.behind (.item found (.done _)))
            (by rw [List.length_drop]; omega)
          rw [Scanner.drain_item found]
          simp only [parsed, told]
          rw [if_pos (by omega), Int.toNat_natCast, rest]
          cases packet <;> rfl

/-- A piece that keeps the stream straight moves the queue on as it moves the scanner. -/
theorem Queue.append_push (agrees : state.Agrees (packetScanner codec) stream)
    {piece : List UInt8} (straight : Straight codec (stream ++ piece)) :
    (Queue.of state).append codec wild piece = .of (state.push (packetScanner codec) piece) := by
  unfold Queue.append Drained.push
  cases now : state.stopped with
  | some reason => simp [Queue.of, now]
  | none =>
      have finds := ((packetScanner codec).drain_finds stream).1.append piece
      rw [← agrees.unread now] at finds
      simp only [Queue.of, now]
      rw [Queue.onRecv_drain wild (straight.behind finds) (Nat.lt_succ_self _)]
      simp [Queue.of, List.reduceOption_append]

/-- Whatever the pieces, the queue ends where draining the whole stream ends. -/
theorem Queue.receive_agrees {pieces : List (List UInt8)}
    (straight : Straight codec pieces.flatten) :
    ∃ state : Drained UInt8 (Option Packet) Refusal,
      state.Agrees (packetScanner codec) pieces.flatten ∧
        Queue.receive codec wild pieces = .of state := by
  have onward : ∀ (pieces : List (List UInt8)) (stream : List UInt8)
      (state : Drained UInt8 (Option Packet) Refusal),
      state.Agrees (packetScanner codec) stream → Straight codec (stream ++ pieces.flatten) →
      ∃ last : Drained UInt8 (Option Packet) Refusal,
        last.Agrees (packetScanner codec) (stream ++ pieces.flatten) ∧
          pieces.foldl (Queue.append codec wild) (.of state) = .of last := by
    intro pieces
    induction pieces with
    | nil =>
        intro stream state agrees _
        exact ⟨state, by simpa using agrees, rfl⟩
    | cons piece rest ih =>
        intro stream state agrees straight
        rw [List.flatten_cons, ← List.append_assoc] at straight ⊢
        obtain ⟨last, reached, same⟩ := ih (stream ++ piece) _ (agrees.push piece) straight
        refine ⟨last, reached, ?_⟩
        rw [List.foldl_cons, Queue.append_push wild agrees straight.of_append, same]
  have silent : (packetScanner codec).scan [] = .more := rfl
  exact onward pieces [] .start (.start silent) straight

/-- Two ways of cutting a moderate stream into pieces lead to the same packets, the same
verdict, and the same unread bytes if the stream is not given up; and the packets are
those in front of the place where it is given up, or where the rest is awaited. -/
theorem segmentation_independent (wild wild' : Nat → UInt8) {first second : List (List UInt8)}
    (same : first.flatten = second.flatten) (moderate : Moderate codec first.flatten) :
    (Queue.receive codec wild first).dispatched = (Queue.receive codec wild' second).dispatched ∧
      (Queue.receive codec wild first).refused = (Queue.receive codec wild' second).refused ∧
      ((Queue.receive codec wild first).refused = none →
        (Queue.receive codec wild first).unread = (Queue.receive codec wild' second).unread) ∧
      ∃ items rest, (packetScanner codec).Finds first.flatten items rest ∧
        (packetScanner codec).scan rest =
          Scanner.leaves (Queue.receive codec wild first).refused ∧
        (Queue.receive codec wild first).dispatched = items.reduceOption := by
  obtain ⟨one, agrees, reached⟩ := Queue.receive_agrees wild moderate.straight
  have straight : Straight codec second.flatten := by
    rw [← same]
    exact moderate.straight
  obtain ⟨two, agrees', reached'⟩ := Queue.receive_agrees wild' straight
  rw [← same] at agrees'
  obtain ⟨finds, left⟩ := (packetScanner codec).drain_finds first.flatten
  rw [reached, reached']
  refine ⟨?_, agrees.stopped.trans agrees'.stopped.symm, fun waiting => ?_, _, _, finds, ?_, ?_⟩
  · exact congrArg List.reduceOption (agrees.items.trans agrees'.items.symm)
  · have waiting' := agrees'.stopped.trans (agrees.stopped.symm.trans waiting)
    exact (agrees.unread waiting).trans (agrees'.unread waiting').symm
  · rw [left, ← agrees.stopped]
    rfl
  · exact congrArg List.reduceOption agrees.items

end Receive

/-- A request with id 7 for method "b" of service "a", in the msgpack format. -/
def shortFrame : List UInt8 :=
  [0x45, 0x52, 0x50, 0x43, 0x00, 0x00, 0x00, 0x07, 0x01, 0x01, 0x10, 0x23,
    0x94, 0x01, 0x07, 0xa1, 0x61, 0xa1, 0x62]

/-- The request announces nineteen bytes. -/
theorem shortFrame_moderate : Moderate Wire.codec shortFrame := by
  obtain ⟨packet, whole⟩ : ∃ packet, (packetScanner Wire.codec).scan shortFrame =
      .item 19 packet := ⟨_, rfl⟩
  intro items rest finds long accepted
  cases finds with
  | done => decide
  | item found onward =>
      rw [whole] at found
      cases found
      cases onward with
      | done => exact absurd long (by decide)
      | item found onward => cases found

/-- The request may be torn apart within its header. -/
theorem segmentation_independent_torn :
    (Queue.receive Wire.codec (fun _ => 0) [shortFrame.take 5, shortFrame.drop 5]).dispatched =
      (Queue.receive Wire.codec (fun _ => 1) [shortFrame]).dispatched :=
  (segmentation_independent _ _ (by decide) shortFrame_moderate).1

end Sdpf.Channel
