import Sdpf.Connection.Delivery
import Sdpf.Tcp.Connection

/-!
# The end of a connection

An `Endpoint` is a `TcpConnectionImp` with what its queue and its receive buffer hold: the
buffers it was given, the calls of `on_send` that are still posted, and the bytes that
libuv has taken and the peer has not read. The steps are those of the connection while it
stays up. What a step does to the queue is all that is needed to follow the bytes:
`Flow` says it for every function of the connection.
-/

namespace Sdpf.Tcp.Connection

/-- A connection that is up, and not about to be stopped, with a receive callback. -/
structure Up (s : Connection) : Prop where
  connected : s.connected = true
  receives : s.recvCb = true
  sound : .failed ∉ s.stack
  writing : s.writing = none ∨ s.writing = some 0
  usable : s.handle.phase ≠ .reused

/-- A function of the connection that leaves the queue alone. -/
structure Unmoved (s next : Connection) : Prop where
  up : next.Up
  sends : next.sends = s.sends
  buffers : next.buffers = s.buffers
  passed : next.passed = s.passed

/-- What a function of the connection does to the queue: nothing, or the front leaves and
the next buffer is passed to `uv_write`. -/
structure Flow (s next : Connection) : Prop where
  up : next.Up
  sends : next.sends = s.sends
  queue : next.buffers = s.buffers ∧ next.passed = s.passed ∨
    next.buffers = s.buffers.tail ∧ next.passed = s.passed ++ s.buffers.tail.take 1

/-- What `on_send` does to the queue: there is no room, or the buffer is passed to `uv_write`
at once, or it waits. -/
inductive Takes (s next : Connection) : Prop where
  | refused (full : maxSendBuf ≤ s.buffers.length) (buffers : next.buffers = s.buffers)
      (passed : next.passed = s.passed)
  | passed (empty : s.buffers = []) (buffers : next.buffers = [s.sends])
      (passed : next.passed = s.passed ++ [s.sends])
  | waits (busy : s.buffers ≠ []) (room : s.buffers.length < maxSendBuf)
      (buffers : next.buffers = s.buffers ++ [s.sends]) (passed : next.passed = s.passed)

variable {s next : Connection}

/-- A callback is called on a connection that is up. -/
theorem Up.call (up : s.Up) (set : Bool) (frame : Frame) (what : Callback)
    (other : frame ≠ .failed) : (s.call set frame what).Up where
  connected := up.connected
  receives := up.receives
  sound := by
    simp only [Connection.call]
    split_ifs
    · exact fun member => (List.mem_cons.mp member).elim (fun same => other same.symm) up.sound
    · exact up.sound
  writing := up.writing
  usable := up.usable

/-- A connection that is up is not down. -/
theorem Up.not_down (up : s.Up) : ¬ s.connected = false := by simp [up.connected]

/-- `on_send` keeps the connection up and takes the buffer or refuses it. -/
theorem Up.onSend (up : s.Up) (wr : Int) :
    (s.onSend wr).Up ∧ (s.onSend wr).sends = s.sends + 1 ∧ Takes s (s.onSend wr) ∧
      (.received ∈ (s.onSend wr).stack ↔ .received ∈ s.stack) := by
  unfold Connection.onSend
  simp only
  rw [if_neg up.not_down]
  split_ifs with full empty
  · have counted : { s with
        sends := s.sends + 1
        refused := s.refused ++ [(s.sends, s.sendCb)] : Connection }.Up := { up with }
    refine ⟨counted.call _ _ _ (by decide), rfl, .refused full rfl rfl, ?_⟩
    simp only [Connection.call]
    split_ifs <;> simp
  · exact ⟨{ up with }, rfl, .passed empty (by simp [sendBuf, empty]) (by simp [sendBuf, empty]),
      .rfl⟩
  · exact ⟨{ up with }, rfl, .waits empty (Nat.lt_of_not_le full) rfl rfl, .rfl⟩

/-- A write is completed with success. -/
theorem Up.written (up : s.Up) (wr : Int) :
    Flow s (s.written 0 wr) ∧ (s.written 0 wr).stack = s.stack := by
  unfold Connection.written
  simp only [if_true]
  split_ifs with last
  · exact ⟨⟨{ up with }, rfl, .inr ⟨rfl, by simp [last]⟩⟩, rfl⟩
  · exact ⟨⟨{ up with }, rfl, .inr ⟨rfl, rfl⟩⟩, rfl⟩

/-- The callback of a write comes, with success. -/
theorem Up.write (up : s.Up) {wr : Int} (taken : s.step (.write 0 wr) = some next) :
    Flow s next ∧ next.stack = s.stack := by
  obtain ⟨_, transition⟩ := step_transition taken
  cases transition with
  | @write _ _ _ rest idle outstanding =>
      have kept : { s with outstanding := rest : Connection }.Up := { up with }
      unfold Connection.onWrite
      rw [if_neg kept.not_down]
      split_ifs
      · exact ⟨⟨{ up with writing := .inr rfl }, rfl, .inl ⟨rfl, rfl⟩⟩, rfl⟩
      · obtain ⟨flow, stack⟩ := kept.written wr
        exact ⟨⟨flow.up, flow.sends, flow.queue⟩, stack⟩

/-- Where nothing moves, nothing is lost. -/
theorem Unmoved.flow (unmoved : Unmoved s next) : Flow s next :=
  ⟨unmoved.up, unmoved.sends, .inl ⟨unmoved.buffers, unmoved.passed⟩⟩

/-- The callback on top of the stack returns. -/
theorem Up.returned (up : s.Up) {wr : Int} (busy : s.stack ≠ [])
    (taken : s.step (.ret wr) = some next) : Unmoved s next ∧ next.stack = s.stack.tail := by
  obtain ⟨_, transition⟩ := step_transition taken
  cases transition with
  | @returned _ _ rest stack other =>
      have sound := up.sound
      rw [stack] at sound
      exact ⟨⟨{ up with sound := fun member => sound (List.mem_cons_of_mem _ member) }, rfl, rfl,
        rfl⟩, by rw [stack]; rfl⟩
  | failed stack => exact absurd (stack ▸ List.mem_cons_self) up.sound
  | written stack writing => exact absurd stack busy

/-- A callback of the user returns, or the rest of `on_write` runs. -/
theorem Up.ret (up : s.Up) {wr : Int} (taken : s.step (.ret wr) = some next) :
    Flow s next ∧ next.stack = s.stack.tail := by
  by_cases busy : s.stack = []
  · obtain ⟨_, transition⟩ := step_transition taken
    cases transition with
    | returned stack other => rw [busy] at stack; cases stack
    | failed stack => rw [busy] at stack; cases stack
    | @written _ status stack writing =>
        have success : status = 0 := by
          rcases up.writing with other | other <;> rw [writing] at other <;> cases other
          rfl
        subst success
        have returned : { s with writing := none : Connection }.Up :=
          { up with writing := .inl rfl }
        obtain ⟨flow, same⟩ := returned.written wr
        exact ⟨⟨flow.up, flow.sends, flow.queue⟩, same.trans (by rw [stack]; rfl)⟩
  · obtain ⟨unmoved, stack⟩ := up.returned busy taken
    exact ⟨unmoved.flow, stack⟩

/-- Libuv reads only while no callback is running. -/
theorem read_idle {nread : Int} (taken : s.step (.read nread) = some next) : s.stack = [] := by
  obtain ⟨_, transition⟩ := step_transition taken
  cases transition with
  | read idle reading => exact idle.1

/-- A read with data calls the receive callback. -/
theorem Up.read (up : s.Up) {n : Nat} (positive : 0 < n)
    (taken : s.step (.read n) = some next) :
    Unmoved s next ∧ s.stack = [] ∧ next.stack = [.received] := by
  obtain ⟨_, transition⟩ := step_transition taken
  cases transition with
  | read idle reading =>
      have called := up.call s.recvCb .received (.receive n) (by decide)
      unfold Connection.onRead
      rw [if_neg up.not_down, if_pos (by omega)]
      exact ⟨⟨called, rfl, rfl, rfl⟩, idle.1, by simp [Connection.call, up.receives, idle.1]⟩

end Sdpf.Tcp.Connection

namespace Sdpf.Network

open Sdpf.Data Sdpf.Buffer Sdpf.Msgpack Sdpf.Channel Sdpf.Stream Sdpf.Connection Sdpf.Tcp

/-- How `send` reaches `on_send`. -/
inductive Route where
  /-- The scheduler is not running. -/
  | down
  /-- Another thread posts the call. -/
  | posted
  /-- The loop thread calls at once; `wr` is what `uv_write` returns, if it is called. -/
  | direct (wr : Int)
deriving DecidableEq, Repr

/-- One end of a connection. -/
structure Endpoint where
  conn : Tcp.Connection
  /-- The buffers `on_send` was called with; `conn` knows them by number. -/
  given : List IOBuf
  /-- Calls of `on_send` in the queue of the scheduler. -/
  posted : List IOBuf
  /-- The bytes libuv has taken and the peer has not read. -/
  transit : List UInt8
  recvBuf : IOBuf

namespace Endpoint

/-- The bytes of a numbered buffer. -/
def contents (e : Endpoint) (buf : Nat) : List UInt8 := (e.given[buf]?).elim [] IOBuf.readable

/-- What has become of the connection; bytes passed to a `uv_write` that returns `wr = 0`
are on their way. -/
def become (e : Endpoint) (wr : Int) (conn : Tcp.Connection) : Endpoint :=
  { e with
    conn := conn
    transit :=
      if wr = 0 then
        e.transit ++ (conn.passed.drop e.conn.passed.length).flatMap e.contents
      else
        e.transit }

/-- `on_send`. -/
def onSend (e : Endpoint) (pb : IOBuf) (wr : Int) : Endpoint :=
  { e with given := e.given ++ [pb] }.become wr (e.conn.onSend wr)

/-- `TcpConnectionImp::send`. -/
def send (e : Endpoint) (route : Route) (pb : IOBuf) : Int × Endpoint :=
  if pb.readableBytes = 0 then
    (-1, e)
  else if route = .down then
    (-2, e)
  else if e.conn.connected = false then
    (-3, e)
  else
    match route with
    | .direct wr => (0, e.onSend pb wr)
    | _ => (0, { e with posted := e.posted ++ [pb] })

/-- `send_packet`. -/
def sendPacket (codec : Codec) (e : Endpoint) (route : Route) (out : Outgoing) : Int × Endpoint :=
  match buildPacket codec out.metaRpc out.msg with
  | .error ret => (ret, e)
  | .ok pb =>
      let sent := e.send route pb
      (if 0 ≠ sent.1 then -3 else 0, sent.2)

/-- What `on_alloc` offers, and the buffer it leaves. -/
def onAlloc (e : Endpoint) : Receiver × Nat :=
  (⟨e.conn.connected, e.recvBuf, []⟩ : Receiver).onAlloc

/-- The loop runs a posted call of `on_send`. -/
def task (e : Endpoint) (wr : Int) : Option Endpoint :=
  match e.posted with
  | [] => none
  | pb :: rest => if e.conn.Idle then some ({ e with posted := rest }.onSend pb wr) else none

/-- A write is completed with success. -/
def written (e : Endpoint) (wr : Int) : Option Endpoint :=
  (e.conn.step (.write 0 wr)).map (e.become wr)

/-- A callback returns, apart from that of a read: `on_recv` returns when `parse` tells it to. -/
def ret (e : Endpoint) (wr : Int) : Option Endpoint :=
  if e.conn.stack.head? = some .received then
    none
  else
    (e.conn.step (.ret wr)).map (e.become wr)

/-- Bytes are read into the region that `on_alloc` offers, and `on_recv` is called. An
empty region is an error. -/
def take (e : Endpoint) (data : List UInt8) : Option Endpoint :=
  if e.onAlloc.2 = 0 then
    (e.conn.step (.read uvEnobufs)).map fun conn => { e with conn := conn }
  else
    (e.conn.step (.read data.length)).map fun conn =>
      { e with
        conn := conn
        recvBuf := ((e.onAlloc.1.recvBuf.fill data).hasWritten data.length).2 }

/-- A packet has been parsed off the front of the receive buffer. -/
def pop (e : Endpoint) (n : Nat) : Endpoint := { e with recvBuf := (e.recvBuf.hasReaded n).2 }

/-- `on_recv` returns. -/
def leave (e : Endpoint) : Option Endpoint :=
  (e.conn.step (.ret 0)).map fun conn => { e with conn := conn }

/-- A connection that has just been established, before the first send. -/
structure Established (e : Endpoint) : Prop where
  up : e.conn.Up
  stack : e.conn.stack = []
  buffers : e.conn.buffers = []
  sends : e.conn.sends = 0
  given : e.given = []
  posted : e.posted = []
  transit : e.transit = []
  recvBuf : e.recvBuf = IOBuf.create IOBuf.initialSize

/-- What holds between the functions of an endpoint. -/
structure Sound (e : Endpoint) : Prop where
  up : e.conn.Up
  numbered : e.given.length = e.conn.sends
  known : ∀ buf ∈ e.conn.buffers, buf < e.given.length
  valid : e.recvBuf.Valid
  capped : e.recvBuf.capacity ≤ IOBuf.maxSize

/-- `on_send` has room for a buffer, and `uv_write` takes what it is passed. -/
def Room (e : Endpoint) (wr : Int) : Prop := e.conn.buffers.length < maxSendBuf ∧ wr = 0

instance (e : Endpoint) (wr : Int) : Decidable (e.Room wr) := by
  unfold Room
  infer_instance

variable {e : Endpoint}

/-- The numbers of earlier buffers stay. -/
theorem contents_append (pb : IOBuf) {buf : Nat} (known : buf < e.given.length) :
    { e with given := e.given ++ [pb] : Endpoint }.contents buf = e.contents buf := by
  simp [contents, List.getElem?_append_left known]

/-- The buffer given last has its own bytes. -/
theorem contents_last (pb : IOBuf) :
    { e with given := e.given ++ [pb] : Endpoint }.contents e.given.length = pb.readable := by
  simp [contents]

/-- A buffer that was known before the last `on_send` keeps its bytes. -/
theorem map_contents (pb : IOBuf) {bufs : List Nat}
    (known : ∀ buf ∈ bufs, buf < e.given.length) :
    bufs.map { e with given := e.given ++ [pb] : Endpoint }.contents = bufs.map e.contents :=
  List.map_congr_left fun buf member => contents_append pb (known buf member)

/-- `on_send` keeps an endpoint sound, and its receive buffer as it was. -/
theorem Sound.onSend (sound : e.Sound) (pb : IOBuf) (wr : Int) :
    (e.onSend pb wr).Sound ∧ (e.onSend pb wr).recvBuf = e.recvBuf ∧
      (.received ∈ (e.onSend pb wr).conn.stack ↔ .received ∈ e.conn.stack) := by
  obtain ⟨up, sends, takes, stack⟩ := sound.up.onSend wr
  refine ⟨⟨up, ?_, ?_, sound.valid, sound.capped⟩, rfl, stack⟩
  · simp [Endpoint.onSend, become, sends, sound.numbered]
  · intro buf member
    simp only [Endpoint.onSend, become, List.length_append, List.length_singleton]
    have older : ∀ buf ∈ e.conn.buffers, buf < e.given.length + 1 := fun buf member =>
      Nat.lt_succ_of_lt (sound.known buf member)
    have last : e.conn.sends < e.given.length + 1 := by
      rw [sound.numbered]
      exact Nat.lt_succ_self _
    cases takes with
    | refused full buffers passed => exact older buf (buffers ▸ member)
    | passed empty buffers passed =>
        obtain rfl := List.mem_singleton.mp (buffers ▸ member)
        exact last
    | waits busy room buffers passed =>
        rcases List.mem_append.mp (buffers ▸ member) with before | now
        · exact older buf before
        · obtain rfl := List.mem_singleton.mp now
          exact last

/-- An endpoint stays sound while its connection is up, loses buffers at most, and has a
proper receive buffer. -/
theorem Sound.of_fewer (sound : e.Sound) {next : Endpoint} (up : next.conn.Up)
    (sends : next.conn.sends = e.conn.sends) (given : next.given = e.given)
    (fewer : next.conn.buffers ⊆ e.conn.buffers) (valid : next.recvBuf.Valid)
    (capped : next.recvBuf.capacity ≤ IOBuf.maxSize) : next.Sound where
  up := up
  numbered := by rw [given, sends]; exact sound.numbered
  known buf member := by rw [given]; exact sound.known buf (fewer member)
  valid := valid
  capped := capped

/-- The queue moves on. -/
theorem Sound.become (sound : e.Sound) {conn : Tcp.Connection}
    (flow : Tcp.Connection.Flow e.conn conn) (wr : Int) : (e.become wr conn).Sound := by
  refine sound.of_fewer flow.up flow.sends rfl ?_ sound.valid sound.capped
  rcases flow.queue with ⟨same, _⟩ | ⟨rest, _⟩
  · exact same.symm ▸ List.Subset.refl _
  · exact rest.symm ▸ fun buf member => List.mem_of_mem_tail member

/-- What becomes of a buffer that is sent on a connection that is up. -/
theorem Sound.send (sound : e.Sound) {pb : IOBuf} (content : pb.readableBytes ≠ 0)
    (route : Route) :
    e.send route pb = match route with
      | .down => (-2, e)
      | .posted => (0, { e with posted := e.posted ++ [pb] })
      | .direct wr => (0, e.onSend pb wr) := by
  unfold Endpoint.send
  rw [if_neg content]
  cases route with
  | down => rfl
  | posted => simp [sound.up.connected]
  | direct wr => simp [sound.up.connected]

/-- A new connection has a proper receive buffer. -/
theorem Established.sound (established : e.Established) : e.Sound where
  up := established.up
  numbered := by rw [established.given, established.sends]; rfl
  known := by simp [established.buffers]
  valid := by rw [established.recvBuf]; exact IOBuf.create_valid (by decide)
  capped := by rw [established.recvBuf, IOBuf.create_capacity]; decide

/-- With few unread bytes a region of at least 1024 bytes is offered. -/
theorem Sound.offered (sound : e.Sound)
    (few : e.recvBuf.readable.length < IOBuf.initialSize) : IOBuf.initialSize ≤ e.onAlloc.2 := by
  have small := Receiver.asked_small
    (r := ⟨e.conn.connected, e.recvBuf, []⟩) sound.valid sound.capped
  rw [onAlloc, Receiver.onAlloc_connected sound.up.connected]
  refine (sound.valid.ensureWritable small ?_).2.2.2.1
  have wide : IOBuf.initialSize + IOBuf.initialSize ≤ IOBuf.maxSize := by decide
  omega

/-- What a read leaves: the bytes are behind those that are unread, and `on_recv` runs. -/
theorem Sound.take (sound : e.Sound) {data : List UInt8} (nonempty : data ≠ [])
    (within : data.length ≤ e.onAlloc.2) {next : Endpoint} (taken : e.take data = some next) :
    next.Sound ∧ Tcp.Connection.Unmoved e.conn next.conn ∧ next.given = e.given ∧
      next.posted = e.posted ∧ next.transit = e.transit ∧
      next.recvBuf.readable = e.recvBuf.readable ++ data ∧ e.conn.stack = [] ∧
      next.conn.stack = [.received] := by
  have positive := List.length_pos_of_ne_nil nonempty
  rw [Endpoint.take, if_neg (by omega)] at taken
  obtain ⟨conn, read, rfl⟩ := Option.map_eq_some_iff.mp taken
  obtain ⟨unmoved, idle, stack⟩ := sound.up.read positive read
  obtain ⟨valid, kept, limit, _, _⟩ := Receiver.onAlloc_kept
    (r := ⟨e.conn.connected, e.recvBuf, []⟩) sound.up.connected sound.valid sound.capped
  have region : e.onAlloc.2 = e.onAlloc.1.recvBuf.writableBytes := by
    rw [onAlloc, Receiver.onAlloc_connected sound.up.connected]
  obtain ⟨_, valid', appended, size, _⟩ :=
    valid.hasWritten (Nat.le_trans within (Nat.le_of_eq region))
  refine ⟨sound.of_fewer unmoved.up unmoved.sends rfl (unmoved.buffers ▸ List.Subset.refl _)
    valid' ?_, unmoved, rfl, rfl, rfl, ?_, idle, stack⟩
  · exact Nat.le_trans (Nat.le_of_eq size) limit
  · exact appended.trans (congrArg (· ++ data) kept)

/-- A packet leaves the receive buffer. -/
theorem Sound.pop (sound : e.Sound) {n : Nat} (within : n ≤ e.recvBuf.readable.length) :
    (e.pop n).Sound ∧ (e.pop n).recvBuf.readable = e.recvBuf.readable.drop n := by
  obtain ⟨_, valid, dropped, same, _⟩ := sound.valid.hasReaded within
  exact ⟨sound.of_fewer sound.up rfl rfl (List.Subset.refl _) valid (same ▸ sound.capped), dropped⟩

/-- `on_recv` has returned. -/
theorem Sound.leave (sound : e.Sound) (busy : e.conn.stack ≠ []) {next : Endpoint}
    (left : e.leave = some next) :
    next.Sound ∧ Tcp.Connection.Unmoved e.conn next.conn ∧ next.given = e.given ∧
      next.posted = e.posted ∧ next.transit = e.transit ∧ next.recvBuf = e.recvBuf := by
  obtain ⟨conn, returned, rfl⟩ := Option.map_eq_some_iff.mp left
  obtain ⟨unmoved, _⟩ := sound.up.returned busy returned
  exact ⟨sound.of_fewer unmoved.up unmoved.sends rfl (unmoved.buffers ▸ List.Subset.refl _)
    sound.valid sound.capped, unmoved, rfl, rfl, rfl, rfl⟩

end Endpoint

end Sdpf.Network
