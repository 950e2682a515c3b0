import Sdpf.Network.Carriage
import Sdpf.Network.Exchange

/-!
# Two connected endpoints

The bytes that one end passes to `uv_write` are read by the other in pieces of any size
that its `on_alloc` has room for. `Conveys` relates the two ends to the packets that are on
their way in each direction; the functions of an end keep it, and what they do to the
packets is to add one, to take the first, or to leave them alone.
-/

namespace Sdpf.Network

open Sdpf.Data Sdpf.Buffer Sdpf.Msgpack Sdpf.Channel Sdpf.Stream Sdpf.Connection

/-- What `send` answers on a connection that is up. -/
def Route.answer : Route → Int
  | down => -2
  | _ => 0

/-- A buffer sent this way gets into the queue. -/
def Endpoint.Clear (e : Endpoint) : Route → Prop
  | .direct wr => e.Room wr
  | _ => True

instance (e : Endpoint) : (route : Route) → Decidable (e.Clear route)
  | .direct wr => inferInstanceAs (Decidable (e.Room wr))
  | .down | .posted => inferInstanceAs (Decidable True)

/-- What happens on the loop of an end. -/
inductive Event where
  | task (wr : Int)
  | written (wr : Int)
  | ret (wr : Int)
  /-- Bytes of the other end are read. -/
  | read (n : Nat)
deriving DecidableEq, Repr

/-- Two ends of a connection; it is the near one that acts. -/
structure Link where
  near : Endpoint
  far : Endpoint

namespace Link

def flip (link : Link) : Link := ⟨link.far, link.near⟩

/-- Take a step, if it is enabled. -/
def step (link : Link) : Event → Option Link
  | .task wr => (link.near.task wr).map fun near => { link with near := near }
  | .written wr => (link.near.written wr).map fun near => { link with near := near }
  | .ret wr => (link.near.ret wr).map fun near => { link with near := near }
  | .read n =>
      if 0 < n ∧ n ≤ link.far.transit.length ∧
          (link.near.onAlloc.2 = 0 ∨ n ≤ link.near.onAlloc.2) then
        (link.near.take (link.far.transit.take n)).map fun near =>
          ⟨near, { link.far with transit := link.far.transit.drop n }⟩
      else
        none

/-- Buffers get into the queue and `uv_write` takes what it is passed. -/
def Roomy (link : Link) : Event → Prop
  | .task wr => link.near.Room wr
  | .written wr | .ret wr => wr = 0
  | .read _ => True

instance (link : Link) : (event : Event) → Decidable (link.Roomy event)
  | .task wr => inferInstanceAs (Decidable (link.near.Room wr))
  | .written wr | .ret wr => inferInstanceAs (Decidable (wr = 0))
  | .read _ => inferInstanceAs (Decidable True)

/-- The end has nothing to send and nothing to parse. -/
def Idle (e : Endpoint) : Prop :=
  e.posted = [] ∧ e.conn.buffers.tail = [] ∧ e.transit = [] ∧ e.recvBuf.readable = []

/-- No byte is on its way. -/
def Drained (link : Link) : Prop := Idle link.near ∧ Idle link.far

instance (link : Link) : Decidable link.Drained := by
  unfold Drained Idle
  infer_instance

end Link

/-- The packets on their way from one end to the other, as frames. -/
def EnRoute (codec : Codec) (sender receiver : Endpoint) (packets : List Packet) : Prop :=
  ∃ flying waiting posted, Carriage codec sender receiver flying waiting posted ∧
    items (flying ++ waiting ++ posted) = packets

/-- Two sound ends, and the packets on their way from the near and to the near one. -/
structure Conveys (codec : Codec) (link : Link) (up down : List Packet) : Prop where
  near : link.near.Sound
  far : link.far.Sound
  up : EnRoute codec link.near link.far up
  down : EnRoute codec link.far link.near down

section EnRoute

variable {codec : Codec} {e r next : Endpoint} {packets : List Packet}

/-- Only these fields of the sending end matter. -/
theorem EnRoute.sender (enRoute : EnRoute codec e r packets)
    (buffers : next.conn.buffers = e.conn.buffers) (given : next.given = e.given)
    (transit : next.transit = e.transit) (same : next.posted = e.posted) :
    EnRoute codec next r packets := by
  obtain ⟨flying, waiting, posted, carriage, whole⟩ := enRoute
  exact ⟨flying, waiting, posted, carriage.sender buffers given transit same, whole⟩

/-- Only these fields of the receiving end matter. -/
theorem EnRoute.receiver (enRoute : EnRoute codec e r packets)
    (recvBuf : next.recvBuf = r.recvBuf)
    (stack : .received ∈ r.conn.stack → .received ∈ next.conn.stack) :
    EnRoute codec e next packets := by
  obtain ⟨flying, waiting, posted, carriage, whole⟩ := enRoute
  exact ⟨flying, waiting, posted, carriage.receiver recvBuf stack, whole⟩

/-- A new connection carries nothing. -/
theorem EnRoute.of_established (sender : e.Established) (receiver : r.Established) :
    EnRoute codec e r [] := by
  refine ⟨[], [], [], ⟨by simp [Sendable], ?_, ?_, ?_, fun _ => ?_⟩, rfl⟩
  · simp [sender.transit, receiver.recvBuf, IOBuf.create_readable]
  · simp [sender.buffers]
  · simp [sender.posted]
  · simp [Unfinished, receiver.recvBuf, IOBuf.create_readable]

/-- Bytes of one end and of the other are all that can be on the way. -/
theorem EnRoute.drained (enRoute : EnRoute codec e r packets) (sender : Link.Idle e)
    (receiver : Link.Idle r) : packets = [] := by
  obtain ⟨flying, waiting, posted, carriage, rfl⟩ := enRoute
  have stream : Stream codec flying := (carriage.sendable.subset (by simp)).stream
  have noBytes := carriage.bytes
  have noneWaiting := carriage.waiting
  have nonePosted := carriage.posted
  rw [receiver.2.2.2, sender.2.2.1, List.append_nil] at noBytes
  rw [sender.2.1, List.map_nil] at noneWaiting
  rw [sender.1, List.map_nil] at nonePosted
  have fewer := length_le_wire stream.nonempty
  rw [← noBytes] at fewer
  rw [List.length_eq_zero_iff.mp (Nat.le_zero.mp fewer),
    List.map_eq_nil_iff.mp noneWaiting.symm, List.map_eq_nil_iff.mp nonePosted.symm]
  rfl

end EnRoute

namespace Conveys

variable {codec : Codec} {link next : Link} {up down : List Packet}

/-- The two directions are alike. -/
theorem flip (conveys : Conveys codec link up down) : Conveys codec link.flip down up :=
  ⟨conveys.far, conveys.near, conveys.down, conveys.up⟩

/-- A connection that was just established carries nothing. -/
theorem of_established (near : link.near.Established) (far : link.far.Established) :
    Conveys codec link [] [] :=
  ⟨near.sound, far.sound, .of_established near far, .of_established far near⟩

/-- Where no byte is left, no packet is. -/
theorem drained (conveys : Conveys codec link up down) (drained : link.Drained) :
    up = [] ∧ down = [] :=
  ⟨conveys.up.drained drained.1 drained.2, conveys.down.drained drained.2 drained.1⟩

/-- The queue of the near end moves on. -/
theorem become (conveys : Conveys codec link up down) {conn : Tcp.Connection}
    (flow : Tcp.Connection.Flow link.near.conn conn) (wr : Int)
    (stack : .received ∈ link.near.conn.stack → .received ∈ conn.stack) :
    ∃ up', Conveys codec { link with near := link.near.become wr conn } up' down ∧
      (up' = up ∨ up'.Sublist up ∧ wr ≠ 0) := by
  obtain ⟨flying, waiting, posted, carriage, rfl⟩ := conveys.up
  obtain ⟨flying', waiting', moved, rest⟩ := carriage.become flow wr
  refine ⟨_, ⟨conveys.near.become flow wr, conveys.far, ⟨flying', waiting', posted, moved, rfl⟩,
    conveys.down.receiver rfl stack⟩, ?_⟩
  rcases rest with kept | ⟨fewer, refused⟩
  · exact .inl (by rw [kept])
  · exact .inr ⟨(fewer.append_right posted).map Prod.snd, refused⟩

/-- What is read: the first bytes in transit, as many as there is a region for. -/
theorem read (conveys : Conveys codec link up down) {n : Nat}
    (taken : link.step (.read n) = some next) :
    ∃ near data rest, link.far.transit = data ++ rest ∧ data ≠ [] ∧ data.length = n ∧
      data.length ≤ link.near.onAlloc.2 ∧ link.near.take data = some near ∧
      next = ⟨near, { link.far with transit := rest }⟩ := by
  simp only [Link.step] at taken
  split_ifs at taken with within
  obtain ⟨positive, available, offered⟩ := within
  obtain ⟨near, ran, rfl⟩ := Option.map_eq_some_iff.mp taken
  obtain ⟨flying, waiting, posted, carriage, _⟩ := conveys.down
  have length : (link.far.transit.take n).length = n := by
    rw [List.length_take]
    omega
  have idle : link.near.conn.stack = [] := by
    unfold Endpoint.take at ran
    split_ifs at ran with none_offered
    all_goals
      obtain ⟨conn, stepped, _⟩ := Option.map_eq_some_iff.mp ran
      exact Tcp.Connection.read_idle stepped
  have few := carriage.unread (by simp [idle])
  have region := conveys.near.offered few
  refine ⟨near, _, _, (List.take_append_drop n _).symm, List.ne_nil_of_length_pos (by omega),
    length, ?_, ran, rfl⟩
  unfold IOBuf.initialSize at region
  omega

/-- What the loop of the near end does to the packets: unless there is no room, nothing. -/
theorem step (conveys : Conveys codec link up down) {event : Event}
    (taken : link.step event = some next) :
    ∃ up', Conveys codec next up' down ∧ (up' = up ∨ up'.Sublist up ∧ ¬ link.Roomy event) := by
  cases event with
  | task wr =>
      obtain ⟨near, ran, rfl⟩ := Option.map_eq_some_iff.mp taken
      obtain ⟨flying, waiting, posted, carriage, rfl⟩ := conveys.up
      obtain ⟨sound, recvBuf, stack, flying', waiting', posted', moved, rest⟩ :=
        carriage.task conveys.near ran
      refine ⟨_, ⟨sound, conveys.far, ⟨flying', waiting', posted', moved, rfl⟩,
        conveys.down.receiver recvBuf stack⟩, ?_⟩
      rcases rest with kept | ⟨fewer, full⟩
      · exact .inl (by rw [kept])
      · exact .inr ⟨fewer.map Prod.snd, full⟩
  | written wr =>
      obtain ⟨near, ran, rfl⟩ := Option.map_eq_some_iff.mp taken
      obtain ⟨conn, stepped, rfl⟩ := Option.map_eq_some_iff.mp ran
      obtain ⟨flow, stack⟩ := conveys.near.up.write stepped
      exact conveys.become flow wr fun busy => stack ▸ busy
  | ret wr =>
      obtain ⟨near, ran, rfl⟩ := Option.map_eq_some_iff.mp taken
      unfold Endpoint.ret at ran
      split_ifs at ran with receiving
      obtain ⟨conn, stepped, rfl⟩ := Option.map_eq_some_iff.mp ran
      obtain ⟨flow, stack⟩ := conveys.near.up.ret stepped
      refine conveys.become flow wr fun busy => ?_
      rw [stack]
      cases top : link.near.conn.stack with
      | nil =>
          rw [top] at busy
          cases busy
      | cons frame rest =>
          rw [top] at busy receiving
          exact (List.mem_cons.mp busy).resolve_left fun same => receiving (by simp [same])
  | read n =>
      obtain ⟨near, data, rest, transit, nonempty, _, fits, ran, rfl⟩ := conveys.read taken
      obtain ⟨flying, waiting, posted, carriage, rfl⟩ := conveys.down
      obtain ⟨sound, unmoved, given, posts, same, _, _, _⟩ :=
        conveys.near.take nonempty fits ran
      refine ⟨up, ⟨sound, { conveys.far with }, ?_, ?_⟩, .inl rfl⟩
      · exact (conveys.up.sender unmoved.buffers given same posts).receiver rfl fun busy => busy
      · exact ⟨flying, waiting, posted, carriage.take conveys.near transit nonempty fits ran, rfl⟩

/-- The near end sends a packet: if it is built and there is room for it, it is on its way. -/
theorem sendPacket (law : codec.Lawful) (conveys : Conveys codec link up down) (route : Route)
    (out : Outgoing) :
    (link.near.sendPacket codec route out).1 = (transmit codec route.answer out).1 ∧
      ∃ up', Conveys codec { link with near := (link.near.sendPacket codec route out).2 } up' down ∧
        (up'.Perm (up ++ (transmit codec route.answer out).2) ∨
          up'.Sublist (up ++ (transmit codec route.answer out).2) ∧ ¬ link.near.Clear route) := by
  unfold Endpoint.sendPacket transmit Channel.sendPacket
  cases built : buildPacket codec out.metaRpc out.msg with
  | error ret =>
      simp only
      rw [if_neg (buildPacket_error built), List.append_nil]
      exact ⟨trivial, up, conveys, .inl (.refl _)⟩
  | ok pb =>
      obtain ⟨short, wellFormed⟩ := buildPacket_wellFormed law built
      have good : Sendable codec [(pb.readable, out.packet codec)] :=
        List.forall_mem_singleton.mpr ⟨wellFormed, short⟩
      have content : pb.readableBytes ≠ 0 := by
        rw [(buildPacket_packed law built).1.valid.readableBytes_length]
        exact Nat.ne_of_gt (List.length_pos_of_ne_nil
          (good.stream.nonempty _ (List.mem_singleton_self _)))
      simp only [conveys.near.send content]
      obtain ⟨flying, waiting, posted, carriage, rfl⟩ := conveys.up
      cases route with
      | down => exact ⟨rfl, _, conveys, .inl (by simp [Route.answer])⟩
      | posted =>
          refine ⟨rfl, _, ⟨{ conveys.near with }, conveys.far,
            ⟨flying, waiting, posted ++ [(pb.readable, out.packet codec)], ?_, rfl⟩,
            conveys.down.receiver rfl fun busy => busy⟩, .inl ?_⟩
          · exact carriage.post good
          · simp [Route.answer]
      | direct wr =>
          obtain ⟨flying', waiting', moved, rest⟩ := carriage.onSend conveys.near good wr
          obtain ⟨sound, recvBuf, stack⟩ := conveys.near.onSend pb wr
          refine ⟨rfl, _, ⟨sound, conveys.far, ⟨flying', waiting', posted, moved, rfl⟩,
            conveys.down.receiver recvBuf stack.mpr⟩, ?_⟩
          rcases rest with kept | ⟨lost, full⟩
          · refine .inl ?_
            simp only [kept, items_append, Route.answer]
            simp only [if_false, ne_eq, not_true_eq_false, if_true, List.append_assoc]
            exact ((List.perm_append_singleton _ _).symm.append_left _).append_left _
          · refine .inr ⟨?_, full⟩
            rw [lost]
            exact List.sublist_append_left _ _

/-- What `on_recv` of the near end finds: the first packet on the way to it, or that it is
time to return. -/
theorem parse (conveys : Conveys codec link up down) (wild : Nat → UInt8)
    (busy : .received ∈ link.near.conn.stack) :
    (∃ packet rest, ∃ n : Nat, down = packet :: rest ∧ 0 < n ∧
        Channel.parse codec wild link.near.recvBuf = .ok ((n : Int), some packet) ∧
        Conveys codec { link with near := link.near.pop n } up rest) ∨
      Channel.parse codec wild link.near.recvBuf = .ok (0, none) ∧
        ∀ near, link.near.leave = some near →
          Conveys codec { link with near := near } up down := by
  obtain ⟨flying, waiting, posted, carriage, rfl⟩ := conveys.down
  rcases carriage.parse conveys.near wild with
    ⟨frame, packet, rest, rfl, nonempty, parsed, sound, popped⟩ | ⟨parsed, unfinished⟩
  · refine .inl ⟨packet, _, frame.length, rfl, List.length_pos_of_ne_nil nonempty, parsed, sound,
      conveys.far, ?_, rest, waiting, posted, popped busy, rfl⟩
    exact conveys.up.sender rfl rfl rfl rfl
  · refine .inr ⟨parsed, fun near left => ?_⟩
    obtain ⟨sound, unmoved, given, posts, transit, recvBuf⟩ :=
      conveys.near.leave (List.ne_nil_of_mem busy) left
    refine ⟨sound, conveys.far, conveys.up.sender unmoved.buffers given transit posts,
      flying, waiting, posted, { carriage with bytes := ?_, settled := fun _ => ?_ }, rfl⟩
    · rw [recvBuf]
      exact carriage.bytes
    · rw [recvBuf]
      exact unfinished

end Conveys

end Sdpf.Network
