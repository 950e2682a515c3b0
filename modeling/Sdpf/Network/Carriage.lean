import Sdpf.Network.Endpoint

/-!
# Frames between two endpoints

What one end has sent and the other has not parsed is a sequence of whole frames: some are
in the receive buffer or in transit as bytes, others wait in the queue of the sender or are
posted to its loop. `Carriage` says so, and each function of an endpoint keeps it.
-/

namespace Sdpf.Network

open Sdpf.Data Sdpf.Buffer Sdpf.Msgpack Sdpf.Channel Sdpf.Stream Sdpf.Connection Sdpf.Tcp

/-- Whole packets as they are built. -/
def Sendable (codec : Codec) (frames : List (Framed UInt8 Packet)) : Prop :=
  ∀ framed ∈ frames, WellFormedFrame codec framed.1 framed.2 ∧
    framed.1.length ≤ IOBuf.initialSize

/-- The frames on their way from one end to the other: those whose bytes are in transit or
in the receive buffer, those that wait in `send_buf_`, and those that are posted. Between
two calls of `on_recv` no whole frame is in the receive buffer. -/
structure Carriage (codec : Codec) (sender receiver : Endpoint)
    (flying waiting posted : List (Framed UInt8 Packet)) : Prop where
  sendable : Sendable codec (flying ++ waiting ++ posted)
  bytes : receiver.recvBuf.readable ++ sender.transit = wire flying
  waiting : sender.conn.buffers.tail.map sender.contents = waiting.map Prod.fst
  posted : sender.posted.map IOBuf.readable = posted.map Prod.fst
  settled : .received ∉ receiver.conn.stack → Unfinished receiver.recvBuf.readable flying

section Carriage

variable {codec : Codec} {e r : Endpoint} {flying waiting posted : List (Framed UInt8 Packet)}

/-- What can be sent is a stream the parser recognises. -/
theorem Sendable.stream {frames : List (Framed UInt8 Packet)} (sendable : Sendable codec frames) :
    Stream codec frames := fun framed member => by
  obtain ⟨wellFormed, short⟩ := sendable framed member
  exact ⟨wellFormed, Nat.lt_of_le_of_lt short (by decide)⟩

/-- Some of the frames can be sent where all can. -/
theorem Sendable.subset {frames some_frames : List (Framed UInt8 Packet)}
    (sendable : Sendable codec frames) (fewer : some_frames ⊆ frames) :
    Sendable codec some_frames := fun framed member => sendable framed (fewer member)

/-- More frames behind the one that is not complete. -/
theorem unfinished_append {bytes : List UInt8} {more : List (Framed UInt8 Packet)}
    (unfinished : Unfinished bytes flying) (nonempty : ∀ framed ∈ more, framed.1 ≠ []) :
    Unfinished bytes (flying ++ more) := by
  cases flying with
  | cons next rest => exact unfinished
  | nil =>
      cases more with
      | nil => exact unfinished
      | cons next rest =>
          obtain rfl : bytes = [] := unfinished
          exact ⟨next.1, nonempty next List.mem_cons_self, rfl⟩

/-- `on_send` puts a frame behind those that are not posted, unless there is no room for it
or libuv refuses it. -/
theorem Carriage.onSend (carriage : Carriage codec e r flying waiting posted) (sound : e.Sound)
    {pb : IOBuf} {packet : Packet} (good : Sendable codec [(pb.readable, packet)]) (wr : Int) :
    ∃ flying' waiting', Carriage codec (e.onSend pb wr) r flying' waiting' posted ∧
      (flying' ++ waiting' = flying ++ waiting ++ [(pb.readable, packet)] ∨
        flying' ++ waiting' = flying ++ waiting ∧ ¬ e.Room wr) := by
  obtain ⟨_, _, takes, _⟩ := sound.up.onSend wr
  have sendable : Sendable codec (flying ++ waiting ++ [(pb.readable, packet)] ++ posted) := by
    intro framed member
    simp only [List.mem_append] at member
    rcases member with (before | last) | posted
    · exact carriage.sendable framed (List.mem_append_left _ (List.mem_append.mpr before))
    · exact good framed last
    · exact carriage.sendable framed (List.mem_append_right _ posted)
  have known : ∀ buf ∈ e.conn.buffers.tail, buf < e.given.length := fun buf member =>
    sound.known buf (List.mem_of_mem_tail member)
  have last := Endpoint.contents_last (e := e) pb
  cases takes with
  | refused full buffers passed =>
      refine ⟨flying, waiting, ⟨carriage.sendable, ?_, ?_, carriage.posted, carriage.settled⟩,
        .inr ⟨rfl, fun room => absurd room.1 (Nat.not_lt.mpr full)⟩⟩
      · simp [Endpoint.onSend, Endpoint.become, passed, carriage.bytes]
      · rw [← carriage.waiting]
        simp only [Endpoint.onSend, Endpoint.become, buffers]
        exact Endpoint.map_contents pb known
  | passed empty buffers passed =>
      obtain rfl : waiting = [] := by
        have none_waiting := carriage.waiting
        rw [empty] at none_waiting
        exact List.map_eq_nil_iff.mp none_waiting.symm
      by_cases success : wr = 0
      · refine ⟨flying ++ [(pb.readable, packet)], [], ⟨?_, ?_, ?_, carriage.posted, ?_⟩,
          .inl (by simp)⟩
        · simpa using sendable
        · subst success
          rw [wire_append, ← carriage.bytes]
          simp [Endpoint.onSend, Endpoint.become, passed, ← sound.numbered, last]
        · simp [Endpoint.onSend, Endpoint.become, buffers]
        · exact fun idle => unfinished_append (carriage.settled idle) fun framed member =>
            good.stream.nonempty framed member
      · refine ⟨flying, [], ⟨carriage.sendable, ?_, ?_, carriage.posted, carriage.settled⟩,
          .inr ⟨rfl, fun room => success room.2⟩⟩
        · simp [Endpoint.onSend, Endpoint.become, success, carriage.bytes]
        · simp [Endpoint.onSend, Endpoint.become, buffers]
  | waits busy room buffers passed =>
      refine ⟨flying, waiting ++ [(pb.readable, packet)], ⟨?_, ?_, ?_, carriage.posted,
        carriage.settled⟩, .inl (by simp)⟩
      · simpa using sendable
      · simp [Endpoint.onSend, Endpoint.become, passed, carriage.bytes]
      · change (e.conn.onSend wr).buffers.tail.map
          { e with given := e.given ++ [pb] : Endpoint }.contents = _
        rw [buffers, List.tail_append_of_ne_nil busy, List.map_append,
          Endpoint.map_contents pb known, carriage.waiting, ← sound.numbered]
        simp [last]

/-- The queue moves on: the next buffer is in transit, unless libuv refuses it. -/
theorem Carriage.become (carriage : Carriage codec e r flying waiting posted)
    {conn : Tcp.Connection} (flow : Tcp.Connection.Flow e.conn conn) (wr : Int) :
    ∃ flying' waiting', Carriage codec (e.become wr conn) r flying' waiting' posted ∧
      (flying' ++ waiting' = flying ++ waiting ∨
        (flying' ++ waiting').Sublist (flying ++ waiting) ∧ wr ≠ 0) := by
  rcases flow.queue with ⟨buffers, passed⟩ | ⟨buffers, passed⟩
  · refine ⟨flying, waiting, ⟨carriage.sendable, ?_, ?_, carriage.posted, carriage.settled⟩,
      .inl rfl⟩
    · simp [Endpoint.become, passed, carriage.bytes]
    · simp only [Endpoint.become, buffers]
      exact carriage.waiting
  · have front := carriage.waiting
    cases queue : e.conn.buffers.tail with
    | nil =>
        rw [queue] at front buffers passed
        obtain rfl := List.map_eq_nil_iff.mp front.symm
        refine ⟨flying, [], ⟨carriage.sendable, ?_, ?_, carriage.posted, carriage.settled⟩,
          .inl rfl⟩
        · simp [Endpoint.become, passed, carriage.bytes]
        · simp [Endpoint.become, buffers]
    | cons buf rest =>
        rw [queue] at front buffers passed
        obtain ⟨⟨frame, packet⟩, others, rfl⟩ :=
          List.exists_cons_of_ne_nil (l := waiting) (by rintro rfl; cases front)
        simp only [List.map_cons, List.cons.injEq] at front
        by_cases success : wr = 0
        · refine ⟨flying ++ [(frame, packet)], others, ⟨?_, ?_, ?_, carriage.posted, ?_⟩,
            .inl (by simp)⟩
          · simpa using carriage.sendable
          · rw [wire_append, ← carriage.bytes]
            simp [Endpoint.become, success, passed, front.1]
          · simp only [Endpoint.become, buffers, List.tail_cons]
            exact front.2
          · refine fun idle => unfinished_append (carriage.settled idle) fun framed member => ?_
            refine carriage.sendable.stream.nonempty framed ?_
            simp [List.mem_singleton.mp member]
        · refine ⟨flying, others, ⟨?_, ?_, ?_, carriage.posted, carriage.settled⟩,
            .inr ⟨?_, success⟩⟩
          · refine carriage.sendable.subset ?_
            simp only [List.append_assoc, List.cons_append]
            intro framed member
            simp only [List.mem_append, List.mem_cons] at member ⊢
            tauto
          · simp [Endpoint.become, success, carriage.bytes]
          · simp only [Endpoint.become, buffers, List.tail_cons]
            exact front.2
          · exact (List.sublist_cons_self _ _).append_left _

/-- What the sender does apart from its queue. -/
theorem Carriage.sender (carriage : Carriage codec e r flying waiting posted) {next : Endpoint}
    (buffers : next.conn.buffers = e.conn.buffers) (given : next.given = e.given)
    (transit : next.transit = e.transit) (same : next.posted = e.posted) :
    Carriage codec next r flying waiting posted where
  sendable := carriage.sendable
  bytes := by rw [transit]; exact carriage.bytes
  waiting := by
    have contents : next.contents = e.contents := by
      funext buf
      simp only [Endpoint.contents, given]
    rw [buffers, contents]
    exact carriage.waiting
  posted := by rw [same]; exact carriage.posted
  settled := carriage.settled

/-- What the receiver does apart from its receive buffer. -/
theorem Carriage.receiver (carriage : Carriage codec e r flying waiting posted) {next : Endpoint}
    (recvBuf : next.recvBuf = r.recvBuf)
    (stack : .received ∈ r.conn.stack → .received ∈ next.conn.stack) :
    Carriage codec e next flying waiting posted where
  sendable := carriage.sendable
  bytes := by rw [recvBuf]; exact carriage.bytes
  waiting := carriage.waiting
  posted := carriage.posted
  settled idle := by rw [recvBuf]; exact carriage.settled (mt stack idle)

/-- A call of `on_send` is posted. -/
theorem Carriage.post (carriage : Carriage codec e r flying waiting posted) {pb : IOBuf}
    {packet : Packet} (good : Sendable codec [(pb.readable, packet)]) :
    Carriage codec { e with posted := e.posted ++ [pb] } r flying waiting
      (posted ++ [(pb.readable, packet)]) where
  sendable framed member := by
    rw [← List.append_assoc] at member
    exact (List.mem_append.mp member).elim (carriage.sendable framed) (good framed)
  bytes := carriage.bytes
  waiting := carriage.waiting
  posted := by simp [carriage.posted]
  settled := carriage.settled

/-- The loop of the sender runs a posted call of `on_send`. -/
theorem Carriage.task (carriage : Carriage codec e r flying waiting posted) (sound : e.Sound)
    {wr : Int} {next : Endpoint} (taken : e.task wr = some next) :
    next.Sound ∧ next.recvBuf = e.recvBuf ∧
      (.received ∈ e.conn.stack → .received ∈ next.conn.stack) ∧
      ∃ flying' waiting' posted', Carriage codec next r flying' waiting' posted' ∧
        (flying' ++ waiting' ++ posted' = flying ++ waiting ++ posted ∨
          (flying' ++ waiting' ++ posted').Sublist (flying ++ waiting ++ posted) ∧
            ¬ e.Room wr) := by
  unfold Endpoint.task at taken
  cases queue : e.posted with
  | nil => simp [queue] at taken
  | cons pb rest =>
      simp only [queue] at taken
      split_ifs at taken with idle
      cases taken
      have front := carriage.posted
      rw [queue] at front
      obtain ⟨⟨frame, packet⟩, others, rfl⟩ :=
        List.exists_cons_of_ne_nil (l := posted) (by rintro rfl; cases front)
      simp only [List.map_cons, List.cons.injEq] at front
      have taken : { e with posted := rest : Endpoint }.Sound := { sound with }
      have good : Sendable codec [(pb.readable, packet)] := by
        rw [front.1]
        refine carriage.sendable.subset fun framed member => ?_
        simp [List.mem_singleton.mp member]
      have fewer : Carriage codec { e with posted := rest } r flying waiting others :=
        { carriage with
          sendable := carriage.sendable.subset fun framed member => by
            simp only [List.mem_append, List.mem_cons] at member ⊢
            tauto
          posted := front.2 }
      obtain ⟨flying', waiting', moved, rest⟩ := fewer.onSend taken good wr
      obtain ⟨sound', same, stack⟩ := taken.onSend pb wr
      refine ⟨sound', same, stack.mpr, flying', waiting', others, moved, ?_⟩
      rcases rest with kept | ⟨lost, full⟩
      · exact .inl (by simp [kept, front.1])
      · refine .inr ⟨?_, full⟩
        rw [lost]
        exact (List.sublist_cons_self _ _).append_left _

/-- Between two calls of `on_recv` less than a frame is unread. -/
theorem Carriage.unread (carriage : Carriage codec e r flying waiting posted)
    (idle : .received ∉ r.conn.stack) : r.recvBuf.readable.length < IOBuf.initialSize := by
  have unfinished := carriage.settled idle
  cases flying with
  | nil =>
      rw [show r.recvBuf.readable = [] from unfinished]
      decide
  | cons next rest =>
      obtain ⟨missing, nonempty, split⟩ := unfinished
      have some_missing := List.length_pos_of_ne_nil nonempty
      obtain ⟨_, short⟩ := carriage.sendable next (by simp)
      rw [split, List.length_append] at short
      omega

/-- Bytes in transit are read. -/
theorem Carriage.take (carriage : Carriage codec e r flying waiting posted) (sound : r.Sound)
    {data rest : List UInt8} (transit : e.transit = data ++ rest) (nonempty : data ≠ [])
    (within : data.length ≤ r.onAlloc.2) {next : Endpoint} (taken : r.take data = some next) :
    Carriage codec { e with transit := rest } next flying waiting posted := by
  obtain ⟨_, _, _, _, _, appended, _, stack⟩ := sound.take nonempty within taken
  refine { carriage with bytes := ?_, settled := ?_ }
  · rw [appended, List.append_assoc, ← transit]
    exact carriage.bytes
  · simp [stack]

/-- What `parse` finds in the receive buffer: the first frame, or that it is not complete. -/
theorem Carriage.parse (carriage : Carriage codec e r flying waiting posted) (sound : r.Sound)
    (wild : Nat → UInt8) :
    (∃ frame packet rest, flying = (frame, packet) :: rest ∧ frame ≠ [] ∧
        Channel.parse codec wild r.recvBuf = .ok ((frame.length : Int), some packet) ∧
        (r.pop frame.length).Sound ∧
        (.received ∈ r.conn.stack → Carriage codec e (r.pop frame.length) rest waiting posted)) ∨
      Channel.parse codec wild r.recvBuf = .ok (0, none) ∧
        Unfinished r.recvBuf.readable flying := by
  have stream : Stream codec flying := (carriage.sendable.subset (by simp)).stream
  obtain ⟨complete, later, partly, rfl, content, unfinished⟩ :=
    exists_cut stream.nonempty carriage.bytes.symm
  cases complete with
  | cons first others =>
      refine .inl ?_
      obtain ⟨wellFormed, small⟩ := stream first (by simp)
      have whole := wellFormed.isFrame small
      rw [wire_cons, List.append_assoc] at content
      have noOverrun : ¬ Overruns r.recvBuf.readable := by
        rw [content]
        exact wellFormed.not_overruns small (.inr (List.prefix_append _ _))
      have item := parse_item sound.valid wild noOverrun (by rw [content]; exact whole.whole _)
      obtain ⟨sound', dropped⟩ := sound.pop (n := first.1.length)
        (by rw [content, List.length_append]; omega)
      refine ⟨first.1, first.2, others ++ later, rfl, whole.nonempty, item, sound', fun busy => ?_⟩
      have bytes := carriage.bytes
      rw [List.cons_append, wire_cons, content, List.append_assoc,
        List.append_right_inj] at bytes
      refine { carriage with sendable := ?_, bytes := ?_, settled := fun idle => absurd busy idle }
      · exact carriage.sendable.subset (by simp)
      · rw [dropped, content, List.drop_left]
        exact bytes
  | nil =>
      rw [wire_nil, List.nil_append] at content
      rw [List.nil_append] at stream ⊢
      have waits : look codec r.recvBuf.readable = .more := by
        rw [content]
        exact unfinished.look rfl stream.allFrames
      have noOverrun : ¬ Overruns r.recvBuf.readable := by
        rw [content]
        cases later with
        | nil =>
            rw [show partly = [] from unfinished]
            exact fun overruns => absurd overruns.1 (by decide)
        | cons next rest =>
            obtain ⟨missing, _, split⟩ := unfinished
            obtain ⟨wellFormed, small⟩ := stream next List.mem_cons_self
            exact wellFormed.not_overruns small (.inl ⟨missing, split.symm⟩)
      exact .inr ⟨parse_more sound.valid wild noOverrun waits, content ▸ unfinished⟩

end Carriage

end Sdpf.Network
