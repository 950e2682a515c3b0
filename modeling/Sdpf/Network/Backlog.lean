import Sdpf.Network.Link

/-!
# What is left to send

A connection that is up never leaves its queue alone: as long as a buffer is in it, libuv
has yet to call back, or `on_write` has yet to return. The bytes an endpoint has taken on
and the peer has not read are its `backlog`. The functions of the sender move bytes within
it, a read takes some off its front, and only a new packet makes it longer; what moves
them is counted by `effort`.
-/

namespace Sdpf.Tcp.Connection

/-- The connection reads, and its queue does not stand still. -/
structure Moving (s : Connection) : Prop where
  reading : s.reading = true
  queue : s.buffers = [] ∨ s.outstanding ≠ [] ∨ s.writing ≠ none

/-- The calls libuv and the callbacks of the user have yet to make. -/
def effort (s : Connection) : Nat :=
  2 * s.buffers.length + 2 * s.outstanding.length + s.writing.toList.length + s.stack.length

variable {s next : Connection}

/-- `on_send` with room costs no more than a write and its buffer. -/
theorem Moving.onSend (moving : s.Moving) (up : s.Up) (room : s.buffers.length < maxSendBuf) :
    (s.onSend 0).Moving ∧ (s.onSend 0).effort ≤ s.effort + 4 := by
  unfold Connection.onSend
  simp only
  rw [if_neg up.not_down, if_neg (Nat.not_le.mpr room)]
  split_ifs with empty
  · refine ⟨⟨moving.reading, .inr (.inl ?_)⟩, ?_⟩
    · simp [sendBuf, empty]
    · simp only [effort, sendBuf, empty, if_true, List.nil_append, List.length_append,
        List.take_succ_cons, List.take_zero, List.length_singleton]
      omega
  · refine ⟨⟨moving.reading, .inr (moving.queue.resolve_left empty)⟩, ?_⟩
    simp only [effort, List.length_append, List.length_singleton]
    omega

/-- The rest of `on_write`: the next buffer is passed on, if there is one. -/
theorem written_moving (reading : s.reading = true) :
    (s.written 0 0).Moving ∧ (s.written 0 0).effort ≤ s.effort := by
  unfold Connection.written
  simp only [if_true]
  split_ifs with last
  · refine ⟨⟨reading, .inl last⟩, ?_⟩
    simp only [effort, List.length_tail]
    omega
  · obtain ⟨buf, rest, queue⟩ := List.exists_cons_of_ne_nil last
    have fewer : rest.length + 2 = s.buffers.length := by
      have length := congrArg List.length queue
      rw [List.length_tail, List.length_cons] at length
      omega
    refine ⟨⟨reading, .inr (.inl ?_)⟩, ?_⟩
    · simp [sendBuf, queue]
    · simp only [effort, sendBuf, queue, if_true, List.take_succ_cons, List.take_zero,
        List.length_append, List.length_cons, List.length_nil]
      omega

/-- The callback of a write is one thing less to come. -/
theorem Moving.write (moving : s.Moving) (up : s.Up) (taken : s.step (.write 0 0) = some next) :
    next.Moving ∧ next.effort < s.effort := by
  obtain ⟨_, transition⟩ := step_transition taken
  cases transition with
  | @write _ _ _ rest idle outstanding =>
      have kept : { s with outstanding := rest : Connection }.Up := { up with }
      have less : { s with outstanding := rest : Connection }.effort + 2 = s.effort := by
        simp only [effort, outstanding, List.length_cons]
        omega
      unfold Connection.onWrite
      rw [if_neg kept.not_down]
      split_ifs
      · refine ⟨⟨moving.reading, .inr (.inr (Option.some_ne_none _))⟩, ?_⟩
        simp only [effort, idle.2, Option.toList_none, Option.toList_some, List.length_nil,
          List.length_singleton] at less ⊢
        omega
      · obtain ⟨goes, cost⟩ :=
          written_moving (s := { s with outstanding := rest }) moving.reading
        exact ⟨goes, by omega⟩

/-- So is the return of a callback. -/
theorem Moving.ret (moving : s.Moving) (up : s.Up) (taken : s.step (.ret 0) = some next) :
    next.Moving ∧ next.effort < s.effort := by
  obtain ⟨_, transition⟩ := step_transition taken
  cases transition with
  | returned stack other =>
      refine ⟨{ moving with }, ?_⟩
      simp only [effort, stack, List.length_cons]
      omega
  | failed stack => exact absurd (stack ▸ List.mem_cons_self) up.sound
  | @written _ status stack writing =>
      obtain rfl : status = 0 := by
        rcases up.writing with other | other <;> rw [writing] at other <;> cases other
        rfl
      obtain ⟨goes, cost⟩ := written_moving (s := { s with writing := none }) moving.reading
      refine ⟨goes, Nat.lt_of_le_of_lt cost ?_⟩
      simp [effort, writing]

/-- A read calls the receive callback. -/
theorem Moving.read (moving : s.Moving) (up : s.Up) {n : Nat} (positive : 0 < n)
    (taken : s.step (.read n) = some next) : next.Moving ∧ next.effort = s.effort + 1 := by
  obtain ⟨_, transition⟩ := step_transition taken
  cases transition with
  | read idle reading =>
      unfold Connection.onRead
      rw [if_neg up.not_down, if_pos (by omega)]
      refine ⟨{ moving with }, ?_⟩
      simp [effort, Connection.call, up.receives]
      omega

/-- What can come next on the loop thread, while the queue is not empty. -/
theorem Moving.proceeds (moving : s.Moving) (up : s.Up) :
    (s.step (.ret 0)).isSome ∨ s.Idle ∧ ((s.step (.write 0 0)).isSome ∨ s.buffers = []) := by
  have usable := up.usable
  cases stack : s.stack with
  | cons frame rest => exact .inl (by simp [step, usable, stack])
  | nil =>
      cases writing : s.writing with
      | some status => exact .inl (by simp [step, usable, stack, writing])
      | none =>
          have idle : s.Idle := ⟨stack, writing⟩
          refine .inr ⟨idle, ?_⟩
          cases outstanding : s.outstanding with
          | cons buf rest => exact .inl (by simp [step, usable, outstanding, idle])
          | nil =>
              refine .inr (moving.queue.resolve_right ?_)
              simp [outstanding, writing]

end Sdpf.Tcp.Connection

namespace Sdpf.Network

open Sdpf.Data Sdpf.Buffer Sdpf.Msgpack Sdpf.Channel Sdpf.Stream Sdpf.Connection Sdpf.Tcp

namespace Endpoint

/-- The bytes an end has taken on and the peer has not read, in the order they are sent. -/
def backlog (e : Endpoint) : List UInt8 :=
  e.transit ++ e.conn.buffers.tail.flatMap e.contents ++ e.posted.flatMap IOBuf.readable

/-- The calls that are needed to put the backlog on its way. -/
def effort (e : Endpoint) : Nat := 5 * e.posted.length + e.conn.effort

/-- The queue has moved on. -/
structure Forwards (e next : Endpoint) : Prop where
  moving : next.conn.Moving
  backlog : next.backlog = e.backlog
  recvBuf : next.recvBuf = e.recvBuf
  effort : next.effort < e.effort

/-- At most a packet has been taken on. -/
structure Loads (e next : Endpoint) : Prop where
  moving : next.conn.Moving
  backlog : next.backlog.length ≤ e.backlog.length + IOBuf.initialSize
  recvBuf : next.recvBuf = e.recvBuf
  effort : next.effort ≤ e.effort + 5

variable {e next : Endpoint}

/-- With room, `on_send` puts a buffer behind those that are not posted. -/
theorem Sound.onSend_backlog (sound : e.Sound) (pb : IOBuf)
    (room : e.conn.buffers.length < maxSendBuf) :
    (e.onSend pb 0).backlog = e.transit ++ e.conn.buffers.tail.flatMap e.contents ++ pb.readable ++
      e.posted.flatMap IOBuf.readable := by
  obtain ⟨_, _, takes, _⟩ := sound.up.onSend 0
  have last := contents_last (e := e) pb
  cases takes with
  | refused full buffers passed => exact absurd room (Nat.not_lt.mpr full)
  | passed empty buffers passed =>
      simp [backlog, Endpoint.onSend, Endpoint.become, buffers, passed, empty, ← sound.numbered,
        last]
  | waits busy room buffers passed =>
      have known : ∀ buf ∈ e.conn.buffers.tail,
          { e with given := e.given ++ [pb] : Endpoint }.contents buf = e.contents buf :=
        fun buf member => contents_append pb (sound.known buf (List.mem_of_mem_tail member))
      have transit : (e.onSend pb 0).transit = e.transit := by
        simp [Endpoint.onSend, Endpoint.become, passed]
      have waiting : (e.onSend pb 0).conn.buffers.tail.flatMap (e.onSend pb 0).contents =
          e.conn.buffers.tail.flatMap e.contents ++ pb.readable := by
        change (e.conn.onSend 0).buffers.tail.flatMap
          { e with given := e.given ++ [pb] : Endpoint }.contents = _
        rw [buffers, List.tail_append_of_ne_nil busy, List.flatMap_append,
          List.flatMap_congr known, ← sound.numbered]
        simp [last]
      rw [backlog, waiting, transit, List.append_assoc e.transit]
      simp only [List.append_assoc]
      rfl

/-- What becomes of a buffer that is handed to `on_send`, if there is room. -/
theorem Sound.onSend_moves (sound : e.Sound) (moving : e.conn.Moving) (pb : IOBuf) {wr : Int}
    (room : e.Room wr) :
    (e.onSend pb wr).conn.Moving ∧ (e.onSend pb wr).effort ≤ e.effort + 4 ∧
      (e.onSend pb wr).backlog = e.transit ++ e.conn.buffers.tail.flatMap e.contents ++
        pb.readable ++ e.posted.flatMap IOBuf.readable := by
  obtain ⟨free, rfl⟩ := room
  obtain ⟨goes, cost⟩ := moving.onSend sound.up free
  refine ⟨goes, ?_, sound.onSend_backlog pb free⟩
  have same : (e.onSend pb 0).effort = 5 * e.posted.length + (e.conn.onSend 0).effort := rfl
  rw [same]
  unfold effort
  omega

/-- The loop runs a posted call: the backlog is the same. -/
theorem Sound.task_forwards (sound : e.Sound) (moving : e.conn.Moving) {wr : Int}
    (room : e.Room wr) (taken : e.task wr = some next) : e.Forwards next := by
  unfold Endpoint.task at taken
  cases queue : e.posted with
  | nil => simp [queue] at taken
  | cons pb rest =>
      simp only [queue] at taken
      split_ifs at taken with idle
      cases taken
      have rested : { e with posted := rest : Endpoint }.Sound := { sound with }
      obtain ⟨goes, cost, bytes⟩ := rested.onSend_moves moving pb room
      refine ⟨goes, ?_, (rested.onSend pb wr).2.1, Nat.lt_of_le_of_lt cost ?_⟩
      · rw [bytes, backlog, queue, List.flatMap_cons, List.append_assoc]
        rfl
      · simp only [effort, queue, List.length_cons]
        omega

/-- The queue moves on: the next buffer is in transit. -/
theorem backlog_become {conn : Tcp.Connection} (flow : Tcp.Connection.Flow e.conn conn) :
    (e.become 0 conn).backlog = e.backlog := by
  rcases flow.queue with ⟨buffers, passed⟩ | ⟨buffers, passed⟩
  · simp only [backlog, become, buffers, passed, List.drop_length, List.flatMap_nil,
      List.append_nil, if_true]
    rfl
  · have transit : (e.become 0 conn).transit =
        e.transit ++ (e.conn.buffers.tail.take 1).flatMap e.contents := by
      simp [become, passed]
    have waiting : (e.become 0 conn).conn.buffers.tail.flatMap (e.become 0 conn).contents =
        (e.conn.buffers.tail.drop 1).flatMap e.contents := by
      change conn.buffers.tail.flatMap e.contents = _
      rw [buffers, List.drop_one]
    rw [backlog, transit, waiting, List.append_assoc e.transit, ← List.flatMap_append,
      List.take_append_drop]
    rfl

/-- A callback of libuv or of the user has come to its end. -/
theorem Forwards.become {conn : Tcp.Connection} (flow : Tcp.Connection.Flow e.conn conn)
    (moving : conn.Moving) (less : conn.effort < e.conn.effort) :
    e.Forwards (e.become 0 conn) where
  moving := moving
  backlog := backlog_become flow
  recvBuf := rfl
  effort := Nat.add_lt_add_left less _

/-- A read leaves the backlog of the reader as it is. -/
theorem Sound.take_moves (sound : e.Sound) (moving : e.conn.Moving) {data : List UInt8}
    (nonempty : data ≠ []) (within : data.length ≤ e.onAlloc.2)
    (taken : e.take data = some next) :
    next.conn.Moving ∧ next.backlog = e.backlog ∧ next.effort = e.effort + 1 := by
  have positive := List.length_pos_of_ne_nil nonempty
  rw [Endpoint.take, if_neg (by omega)] at taken
  obtain ⟨conn, read, rfl⟩ := Option.map_eq_some_iff.mp taken
  obtain ⟨goes, cost⟩ := moving.read sound.up positive read
  obtain ⟨unmoved, _⟩ := sound.up.read positive read
  refine ⟨goes, ?_, ?_⟩
  · simp only [backlog, unmoved.buffers]
    rfl
  · simp only [effort, cost]
    omega

/-- `on_recv` can return. -/
theorem Sound.leaves (sound : e.Sound) (busy : e.conn.stack ≠ []) : e.leave.isSome := by
  obtain ⟨frame, rest, stack⟩ := List.exists_cons_of_ne_nil busy
  simp [Endpoint.leave, Tcp.Connection.step, sound.up.usable, stack]

/-- `on_recv` returns. -/
theorem Sound.leave_forwards (sound : e.Sound) (moving : e.conn.Moving)
    (busy : e.conn.stack ≠ []) (left : e.leave = some next) : e.Forwards next := by
  obtain ⟨conn, returned, rfl⟩ := Option.map_eq_some_iff.mp left
  obtain ⟨goes, less⟩ := moving.ret sound.up returned
  obtain ⟨unmoved, _⟩ := sound.up.returned busy returned
  refine ⟨goes, ?_, rfl, Nat.add_lt_add_left less _⟩
  simp only [backlog, unmoved.buffers]
  rfl

/-- Taking nothing on costs nothing. -/
theorem Loads.refl (moving : e.conn.Moving) : e.Loads e :=
  ⟨moving, Nat.le_add_right _ _, rfl, Nat.le_add_right _ _⟩

/-- What `send_packet` takes on: at most a frame, whichever way it goes. -/
theorem Sound.sendPacket_loads {codec : Codec} (law : codec.Lawful) (sound : e.Sound)
    (moving : e.conn.Moving) {route : Route} (clear : e.Clear route) (out : Outgoing) :
    e.Loads (e.sendPacket codec route out).2 := by
  unfold Endpoint.sendPacket
  cases built : buildPacket codec out.metaRpc out.msg with
  | error ret => exact .refl moving
  | ok pb =>
      obtain ⟨short, wellFormed⟩ := buildPacket_wellFormed law built
      have content : pb.readableBytes ≠ 0 := by
        rw [(buildPacket_packed law built).1.valid.readableBytes_length]
        refine Nat.ne_of_gt (List.length_pos_of_ne_nil ?_)
        exact (wellFormed.isFrame (Nat.lt_of_le_of_lt short (by decide))).nonempty
      simp only [sound.send content]
      cases route with
      | down => exact .refl moving
      | posted =>
          refine ⟨moving, ?_, rfl, ?_⟩
          · simp only [backlog, List.flatMap_append, List.flatMap_singleton, List.length_append]
            have same : { e with posted := e.posted ++ [pb] : Endpoint }.contents =
              e.contents := rfl
            rw [same]
            omega
          · simp only [effort, List.length_append, List.length_singleton]
            omega
      | direct wr =>
          obtain ⟨goes, cost, bytes⟩ := sound.onSend_moves moving pb clear
          refine ⟨goes, ?_, (sound.onSend pb wr).2.1, Nat.le_succ_of_le cost⟩
          rw [bytes]
          simp only [backlog, List.length_append]
          omega

end Endpoint

/-- When nothing is in transit and `on_recv` has returned, nothing is unread. -/
theorem EnRoute.read_all {codec : Codec} {e r : Endpoint} {packets : List Packet}
    (enRoute : EnRoute codec e r packets) (returned : .received ∉ r.conn.stack)
    (transit : e.transit = []) : r.recvBuf.readable = [] := by
  obtain ⟨flying, waiting, posted, carriage, _⟩ := enRoute
  have unfinished := carriage.settled returned
  have bytes := carriage.bytes
  rw [transit, List.append_nil] at bytes
  cases flying with
  | nil => exact unfinished
  | cons next rest =>
      obtain ⟨missing, nonempty, split⟩ := unfinished
      rw [bytes, wire_cons, List.append_assoc] at split
      have length := congrArg List.length split
      have positive := List.length_pos_of_ne_nil nonempty
      simp only [List.length_append] at length
      omega

namespace Link

open Endpoint

/-- What an event on the loop of the near end does: its queue moves on, or bytes of the far
end come in. -/
inductive Eases (link next : Link) : Prop where
  | forwards (moved : link.near.Forwards next.near) (far : next.far = link.far)
  | reads (n : Nat) (positive : 0 < n) (moving : next.near.conn.Moving)
      (backlog : next.near.backlog = link.near.backlog)
      (unread : next.near.recvBuf.readable.length = link.near.recvBuf.readable.length + n)
      (effort : next.near.effort = link.near.effort + 1)
      (conn : next.far.conn = link.far.conn) (recvBuf : next.far.recvBuf = link.far.recvBuf)
      (arrived : next.far.backlog.length + n = link.far.backlog.length)
      (still : next.far.effort = link.far.effort)

variable {codec : Codec} {link next : Link} {up down : List Packet}

/-- Whatever happens on the loop of the near end, if there is room. -/
theorem eases (conveys : Conveys codec link up down) (moving : link.near.conn.Moving)
    {event : Event} (roomy : link.Roomy event) (taken : link.step event = some next) :
    link.Eases next := by
  cases event with
  | task wr =>
      obtain ⟨near, ran, rfl⟩ := Option.map_eq_some_iff.mp taken
      exact .forwards (conveys.near.task_forwards moving roomy ran) rfl
  | written wr =>
      obtain ⟨near, ran, rfl⟩ := Option.map_eq_some_iff.mp taken
      obtain ⟨conn, stepped, rfl⟩ := Option.map_eq_some_iff.mp ran
      obtain rfl : wr = 0 := roomy
      obtain ⟨flow, _⟩ := conveys.near.up.write stepped
      obtain ⟨goes, less⟩ := moving.write conveys.near.up stepped
      exact .forwards (.become flow goes less) rfl
  | ret wr =>
      obtain ⟨near, ran, rfl⟩ := Option.map_eq_some_iff.mp taken
      unfold Endpoint.ret at ran
      split_ifs at ran
      obtain ⟨conn, stepped, rfl⟩ := Option.map_eq_some_iff.mp ran
      obtain rfl : wr = 0 := roomy
      obtain ⟨flow, _⟩ := conveys.near.up.ret stepped
      obtain ⟨goes, less⟩ := moving.ret conveys.near.up stepped
      exact .forwards (.become flow goes less) rfl
  | read n =>
      obtain ⟨near, data, rest, transit, nonempty, length, fits, ran, rfl⟩ := conveys.read taken
      obtain ⟨_, _, _, _, _, unread, _, _⟩ := conveys.near.take nonempty fits ran
      obtain ⟨goes, backlog, effort⟩ := conveys.near.take_moves moving nonempty fits ran
      refine .reads data.length (List.length_pos_of_ne_nil nonempty) goes backlog ?_ effort rfl
        rfl ?_ rfl
      · rw [unread, List.length_append]
      · simp only [Endpoint.backlog, transit, List.length_append]
        have same : { link.far with transit := rest }.contents = link.far.contents := rfl
        rw [same]
        omega

/-- As long as an end has something to do and `on_recv` is not running, its loop can go on;
there is room for what it does. -/
theorem progress (link : Link) (up : link.near.conn.Up) (moving : link.near.conn.Moving)
    (elsewhere : link.near.conn.stack.head? ≠ some .received) :
    (∃ event, (link.step event).isSome ∧ link.Roomy event) ∨
      link.near.conn.stack = [] ∧ link.near.posted = [] ∧ link.near.conn.buffers = [] ∧
        link.far.transit = [] := by
  rcases moving.proceeds up with returns | ⟨idle, written | empty⟩
  · exact .inl ⟨.ret 0, by simp [Link.step, Endpoint.ret, elsewhere, returns], rfl⟩
  · exact .inl ⟨.written 0, by simp [Link.step, Endpoint.written, written], rfl⟩
  · cases posted : link.near.posted with
    | cons pb rest =>
        refine .inl ⟨.task 0, by simp [Link.step, Endpoint.task, posted, idle], ?_, rfl⟩
        rw [empty]
        decide
    | nil =>
        cases transit : link.far.transit with
        | cons byte rest =>
            have reads : ∀ nread, (link.near.conn.step (.read nread)).isSome := fun nread => by
              simp [Tcp.Connection.step, up.usable, idle, moving.reading]
            have offered : link.near.onAlloc.2 = 0 ∨ 1 ≤ link.near.onAlloc.2 := by omega
            refine .inl ⟨.read 1, ?_, trivial⟩
            rw [Link.step, if_pos ⟨Nat.one_pos, by simp [transit], offered⟩, Option.isSome_map,
              Endpoint.take]
            split_ifs
            · rw [Option.isSome_map]
              exact reads _
            · rw [Option.isSome_map]
              exact reads _
        | nil => exact .inr ⟨idle.1, rfl, empty, rfl⟩

end Link

end Sdpf.Network
