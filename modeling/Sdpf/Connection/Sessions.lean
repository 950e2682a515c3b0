import Sdpf.Channel.Segments
import Sdpf.Connection.Receive
import Sdpf.Semantics.Machine

/-!
# One session after another

A client channel may be started again when its connection has been closed. `on_close`
releases what was still to be sent, but nobody empties the receive buffer, so bytes a
session leaves unread are parsed in front of the next session's. `sessions_isolated` says
that this is all: after sessions that left nothing, what is dispatched depends on the
bytes of the current session only.
-/

namespace Sdpf.Connection

open Sdpf.Data Sdpf.Buffer Sdpf.Msgpack Sdpf.Dispatcher Sdpf.Channel Sdpf.Stream Sdpf.Semantics

/-- Where a channel is in its cycle of sessions. -/
inductive Stage where
  | closed
  | connecting
  | established
  | closing
deriving DecidableEq, Repr

/-- A client channel as its peers' bytes see it. The packets of the receiver, the bytes
and the verdict are those of the current session. -/
structure Cycle where
  stage : Stage
  receiver : Receiver
  received : List UInt8
  /-- `on_recv` has stopped the session because of a malformed packet. -/
  malformed : Bool
deriving DecidableEq, Repr

/-- What happens to a channel. -/
inductive Turn where
  | start
  /-- `on_connect` with the result of the connect. -/
  | connect (ok : Bool)
  | read (data : List UInt8)
  /-- `on_stop`: called by the user, or after a read error. -/
  | stop
  /-- The callback of `uv_close`. -/
  | closed
deriving DecidableEq, Repr

namespace Cycle

variable (codec : Codec) (wild : Nat → UInt8)

/-- Take a turn, if it is enabled. -/
def step (s : Cycle) : Turn → Option Cycle
  | .start =>
      if s.stage = .closed then
        some {
          stage := .connecting
          receiver := { s.receiver with connected := true, dispatched := [] }
          received := []
          malformed := false }
      else
        none
  | .connect ok =>
      if s.stage ≠ .connecting then
        none
      else if ok then
        some { s with stage := .established }
      else
        some { s with stage := .closing, receiver := s.receiver.onStop }
  | .read data =>
      if s.stage = .established ∧ data ≠ [] ∧ data.length ≤ s.receiver.offered then
        match s.receiver.readEvent codec wild data with
        | .error _ => none
        | .ok next =>
            some {
              stage := if next.connected then .established else .closing
              receiver := next
              received := s.received ++ data
              malformed := !next.connected }
      else
        none
  | .stop =>
      if s.stage = .connecting ∨ s.stage = .established then
        some { s with stage := .closing, receiver := s.receiver.onStop }
      else
        none
  | .closed => if s.stage = .closing then some { s with stage := .closed } else none

/-- A channel that has not been started. -/
def fresh : Cycle where
  stage := .closed
  receiver := { Receiver.fresh with connected := false }
  received := []
  malformed := false

/-- A session starts with nothing unread in the buffer. -/
def Clean (s : Cycle) : Turn → Prop
  | .start => s.receiver.recvBuf.readable = []
  | _ => True

end Cycle

/-- The machine of all sequences of sessions. -/
def cycleMachine (codec : Codec) (wild : Nat → UInt8) : Machine Cycle Turn where
  Initial s := s = Cycle.fresh
  step := Cycle.step codec wild

section Loop

variable {codec : Codec} (wild : Nat → UInt8) {b : IOBuf}

/-- Whatever the bytes, the loop leaves a buffer of the same size. -/
theorem onRecv_valid {rounds : Nat} {received : Received} (valid : b.Valid)
    (looped : onRecv codec wild rounds b = .ok received) :
    received.buf.Valid ∧ received.buf.capacity = b.capacity := by
  induction rounds generalizing b received with
  | zero =>
      cases looped
      exact ⟨valid, rfl⟩
  | succ rounds ih =>
      rw [onRecv] at looped
      obtain ⟨result, parsed, looped⟩ := ok_bind looped
      split_ifs at looped with positive
      · obtain ⟨rest, onward, looped⟩ := ok_bind looped
        cases looped
        obtain ⟨_, valid', _, same, _⟩ := valid.hasReaded (parse_le valid parsed)
        obtain ⟨kept, size⟩ := ih valid' onward
        exact ⟨kept, size.trans same⟩
      · cases looped
        exact ⟨valid, rfl⟩

/-- On straight bytes the parser is told what the scan says. -/
theorem parse_scan (valid : b.Valid) (straight : Straight codec b.readable) :
    parse codec wild b = told (scanPacket codec b.readable) := by
  rw [parse, valid.readableBytes_length]
  exact parseAt_scan (bufferMemory_readable valid wild) (straight [] _ (.done _))

/-- On straight bytes the loop drains the buffer. -/
theorem onRecv_drain {rounds : Nat} {received : Received} (valid : b.Valid)
    (straight : Straight codec b.readable) (enough : b.readable.length < rounds)
    (looped : onRecv codec wild rounds b = .ok received) :
    received.dispatched = ((packetScanner codec).drain b.readable).items.reduceOption ∧
      received.stopped = ((packetScanner codec).drain b.readable).stopped.isSome ∧
      received.buf.readable = ((packetScanner codec).drain b.readable).unread := by
  induction rounds generalizing b received with
  | zero => omega
  | succ rounds ih =>
      have parsed := parse_scan wild valid straight
      rw [onRecv] at looped
      cases scanned : scanPacket codec b.readable with
      | more =>
          have waits : (packetScanner codec).scan b.readable = .more := scanned
          rw [Scanner.drain_more waits]
          simp only [parsed, scanned, told, bind, Except.bind] at looped
          cases looped
          simp
      | stop reason =>
          have stops : (packetScanner codec).scan b.readable = .stop reason := scanned
          rw [Scanner.drain_stop stops]
          cases reason with
          | returned ret =>
              have negative := scanPacket_stop scanned
              simp only [parsed, scanned, told, bind, Except.bind,
                if_neg (Int.not_lt.mpr (Int.le_of_lt negative))] at looped
              cases looped
              simp [negative]
          | violation violation =>
              simp only [parsed, scanned, told, bind, Except.bind] at looped
              cases looped
      | item consumed packet =>
          have found : (packetScanner codec).scan b.readable = .item consumed packet := scanned
          obtain ⟨positive, within⟩ := (packetScanner codec).consumes found
          obtain ⟨_, valid', dropped, _, _⟩ := valid.hasReaded within
          simp only [parsed, scanned, told, bind, Except.bind, Int.toNat_natCast] at looped
          rw [if_pos (by omega)] at looped
          split at looped
          · cases looped
          · next rest onward =>
              cases looped
              have straight' : Straight codec (b.hasReaded consumed).2.readable := by
                rw [dropped]
                exact straight.behind (.item found (.done _))
              obtain ⟨items, stopped, unread⟩ := ih valid' straight'
                (by rw [dropped, List.length_drop]; omega) onward
              rw [dropped] at items stopped unread
              rw [Scanner.drain_item found]
              refine ⟨?_, stopped, unread⟩
              simp only [items]
              cases packet <;> rfl

end Loop

namespace Cycle

/-- What is known of a channel in any of its sessions: what has been dispatched is what
the bytes of this session drain to, unless they lead the parser astray. -/
structure Sound (codec : Codec) (s : Cycle) : Prop where
  valid : s.receiver.recvBuf.Valid
  capped : s.receiver.recvBuf.capacity ≤ IOBuf.maxSize
  live : s.stage = .connecting ∨ s.stage = .established →
    s.receiver.connected = true ∧ s.malformed = false
  faithful : Straight codec s.received →
    s.receiver.dispatched = ((packetScanner codec).drain s.received).items.reduceOption ∧
      s.malformed = ((packetScanner codec).drain s.received).stopped.isSome
  unread : Straight codec s.received → s.stage = .connecting ∨ s.stage = .established →
    s.receiver.recvBuf.readable = ((packetScanner codec).drain s.received).unread

variable {codec : Codec} {wild : Nat → UInt8} {s next : Cycle}

/-- Nothing has been received. -/
theorem drain_nil : (packetScanner codec).drain [] = ⟨[], none, []⟩ := by
  have waits : (packetScanner codec).scan [] = .more := rfl
  exact Scanner.drain_more waits

/-- A channel that has not been started has received nothing. -/
theorem Sound.fresh : Sound codec Cycle.fresh where
  valid := IOBuf.create_valid (by decide)
  capped := by
    simp only [Cycle.fresh, Receiver.fresh, IOBuf.create_capacity]
    decide
  live := by rintro (now | now) <;> cases now
  faithful _ := by
    simp only [Cycle.fresh, Receiver.fresh, drain_nil]
    exact ⟨rfl, rfl⟩
  unread _ := by rintro (now | now) <;> cases now

/-- A stage in which nothing is read any more. -/
theorem Sound.ended {stage : Stage} {connected : Bool} (sound : s.Sound codec)
    (stopped : stage = .closing ∨ stage = .closed) :
    { s with stage := stage, receiver := { s.receiver with connected := connected } : Cycle }.Sound
      codec where
  valid := sound.valid
  capped := sound.capped
  live := by rcases stopped with rfl | rfl <;> simp
  faithful := sound.faithful
  unread _ := by rcases stopped with rfl | rfl <;> simp

/-- A session that starts with an empty buffer. -/
theorem Sound.start (sound : s.Sound codec) (empty : s.receiver.recvBuf.readable = []) :
    ({
      stage := .connecting
      receiver := { s.receiver with connected := true, dispatched := [] }
      received := []
      malformed := false } : Cycle).Sound codec where
  valid := sound.valid
  capped := sound.capped
  live _ := ⟨rfl, rfl⟩
  faithful _ := by
    simp only [drain_nil]
    exact ⟨rfl, rfl⟩
  unread _ _ := by
    simp only [drain_nil]
    exact empty

/-- A read dispatches what its bytes complete. -/
theorem Sound.read (sound : s.Sound codec) (now : s.stage = .established) {data : List UInt8}
    {receiver : Receiver} (nonempty : data ≠ []) (within : data.length ≤ s.receiver.offered)
    (read : s.receiver.readEvent codec wild data = .ok receiver) :
    ({
      stage := if receiver.connected then .established else .closing
      receiver := receiver
      received := s.received ++ data
      malformed := !receiver.connected } : Cycle).Sound codec := by
  obtain ⟨connected, unbroken⟩ := sound.live (.inr now)
  obtain ⟨b, valid, appended, capped, event⟩ :=
    Receiver.readEvent_eq codec wild connected sound.valid sound.capped nonempty within
  rw [event] at read
  obtain ⟨received, looped, done⟩ := ok_bind read
  cases done
  obtain ⟨valid', size⟩ := onRecv_valid wild valid looped
  have drained : Straight codec (s.received ++ data) →
      s.receiver.dispatched ++ received.dispatched =
          ((packetScanner codec).drain (s.received ++ data)).items.reduceOption ∧
        received.stopped = ((packetScanner codec).drain (s.received ++ data)).stopped.isSome ∧
        received.buf.readable = ((packetScanner codec).drain (s.received ++ data)).unread := by
    intro straight
    obtain ⟨before, _⟩ := sound.faithful straight.of_append
    have left := sound.unread straight.of_append (.inr now)
    have finds := ((packetScanner codec).drain_finds s.received).1.append data
    rw [← left, ← appended] at finds
    obtain ⟨items, stopped, unread⟩ :=
      onRecv_drain wild valid (straight.behind finds) (Nat.lt_succ_self _) looped
    rw [Scanner.drain_append, ← left, ← appended, List.reduceOption_append, before, items]
    exact ⟨rfl, stopped, unread⟩
  refine ⟨valid', by rw [size]; exact capped, ?_, ?_, ?_⟩
  · cases received.stopped <;> simp
  · intro straight
    obtain ⟨items, stopped, _⟩ := drained straight
    exact ⟨items, by rw [Bool.not_not, stopped]⟩
  · exact fun straight _ => (drained straight).2.2

/-- A turn that starts no session over unread bytes keeps the session its own. -/
theorem Sound.step {turn : Turn} (sound : s.Sound codec) (clean : s.Clean turn)
    (transition : Cycle.step codec wild s turn = some next) : next.Sound codec := by
  cases turn with
  | start =>
      simp only [Cycle.step] at transition
      split_ifs at transition
      cases transition
      exact sound.start clean
  | connect ok =>
      simp only [Cycle.step] at transition
      split_ifs at transition with other established
      · cases transition
        have was : s.stage = .connecting := not_not.mp other
        exact ⟨sound.valid, sound.capped, fun _ => sound.live (.inl was), sound.faithful,
          fun straight _ => sound.unread straight (.inl was)⟩
      · cases transition
        exact sound.ended (.inl rfl)
  | read data =>
      simp only [Cycle.step] at transition
      split_ifs at transition with enabled
      obtain ⟨now, nonempty, within⟩ := enabled
      split at transition
      · cases transition
      · next receiver read =>
          cases transition
          exact sound.read now nonempty within read
  | stop =>
      simp only [Cycle.step] at transition
      split_ifs at transition
      cases transition
      exact sound.ended (.inl rfl)
  | closed =>
      simp only [Cycle.step] at transition
      split_ifs at transition
      cases transition
      exact sound.ended (.inr rfl)

/-- Two channels that have received the same bytes in their current sessions have
dispatched the same packets and judged the session alike, if no earlier session has left
anything unread. -/
theorem sessions_isolated {wild' : Nat → UInt8} {first second : List Turn} {s s' : Cycle}
    (runs : (cycleMachine codec wild).Runs fresh first s)
    (runs' : (cycleMachine codec wild').Runs fresh second s')
    (clean : (cycleMachine codec wild).Along Clean fresh first)
    (clean' : (cycleMachine codec wild').Along Clean fresh second)
    (same : s.received = s'.received) (straight : Straight codec s.received) :
    s.receiver.dispatched = s'.receiver.dispatched ∧ s.malformed = s'.malformed := by
  have sound := runs.guarded (Sound codec) (fun sound => sound.step) .fresh clean
  have sound' := runs'.guarded (Sound codec) (fun sound => sound.step) .fresh clean'
  obtain ⟨dispatched, malformed⟩ := sound.faithful straight
  rw [same] at straight dispatched malformed
  obtain ⟨dispatched', malformed'⟩ := sound'.faithful straight
  exact ⟨dispatched.trans dispatched'.symm, malformed.trans malformed'.symm⟩

/-- A session that receives one packet and is stopped. -/
private def packetSession : List Turn :=
  [.start, .connect true, .read shortFrame, .stop, .closed]

/-- A session that receives the packet in two pieces. -/
private def tornSession : List Turn :=
  [.start, .connect true, .read (shortFrame.take 5), .read (shortFrame.drop 5)]

/-- A channel that has received a packet in an earlier session and one in the current, and a
channel that has received the latter only, both dispatch one packet. -/
theorem sessions_isolated_again :
    ∃ s s', (cycleMachine Wire.codec fun _ => 0).Runs fresh (packetSession ++ tornSession) s ∧
      (cycleMachine Wire.codec fun _ => 0).Runs fresh tornSession s' ∧
      s.receiver.dispatched.length = 1 ∧
      s.receiver.dispatched = s'.receiver.dispatched ∧ s.malformed = s'.malformed := by
  have executed : ((cycleMachine Wire.codec fun _ => 0).run fresh
      (packetSession ++ tornSession)).map
        (fun s => (s.received, s.receiver.dispatched.length)) = some (shortFrame, 1) := by
    decide +kernel
  have executed' : ((cycleMachine Wire.codec fun _ => 0).run fresh tornSession).map
      Cycle.received = some shortFrame := by decide +kernel
  have earlier : ((cycleMachine Wire.codec fun _ => 0).run fresh packetSession).map
      (fun s => s.receiver.recvBuf.readable) = some [] := by decide +kernel
  obtain ⟨s, runs, seen⟩ := Machine.Runs.of_map executed
  obtain ⟨s', runs', received'⟩ := Machine.Runs.of_map executed'
  obtain ⟨middle, first, consumed⟩ := Machine.Runs.of_map earlier
  obtain ⟨received, dispatched⟩ := Prod.mk.inj seen
  have straight : Straight Wire.codec s.received := by
    rw [received]
    exact shortFrame_moderate.straight
  -- only the start of a session asks for an empty buffer
  have torn : ∀ s : Cycle, s.receiver.recvBuf.readable = [] →
      (cycleMachine Wire.codec fun _ => 0).Along Clean s tornSession := fun s empty =>
    ⟨empty, fun _ _ => ⟨trivial, fun _ _ => ⟨trivial, fun _ _ => ⟨trivial, fun _ _ => trivial⟩⟩⟩⟩
  have empty : fresh.receiver.recvBuf.readable = [] := IOBuf.create_readable _
  have whole : (cycleMachine Wire.codec fun _ => 0).Along Clean fresh packetSession :=
    ⟨empty, fun _ _ => ⟨trivial, fun _ _ => ⟨trivial, fun _ _ => ⟨trivial, fun _ _ =>
      ⟨trivial, fun _ _ => trivial⟩⟩⟩⟩⟩
  exact ⟨s, s', runs, runs', dispatched, sessions_isolated runs runs'
    ((Machine.Along.append first).mpr ⟨whole, torn middle consumed⟩) (torn fresh empty)
    (received.trans received'.symm) straight⟩

/-- A byte left over from the first session makes the eleven bytes of the second one a
malformed header; on their own they are not even a whole one. -/
theorem sessions_not_isolated :
    ¬ ∀ (first second : List Turn) (s s' : Cycle),
      (cycleMachine Wire.codec fun _ => 0).Runs fresh first s →
      (cycleMachine Wire.codec fun _ => 0).Runs fresh second s' →
      s.received = s'.received →
      s.receiver.dispatched = s'.receiver.dispatched ∧ s.malformed = s'.malformed := by
  intro isolated
  have executed : ((cycleMachine Wire.codec fun _ => 0).run fresh
      [.start, .connect true, .read [0], .stop, .closed, .start, .connect true,
        .read (List.replicate 11 0)]).map (fun s => (s.received, s.malformed)) =
      some (List.replicate 11 0, true) := by decide +kernel
  have executed' : ((cycleMachine Wire.codec fun _ => 0).run fresh
      [.start, .connect true, .read (List.replicate 11 0)]).map
        (fun s => (s.received, s.malformed)) =
      some (List.replicate 11 0, false) := by decide +kernel
  obtain ⟨s, runs, seen⟩ := Machine.Runs.of_map executed
  obtain ⟨s', runs', seen'⟩ := Machine.Runs.of_map executed'
  rw [Prod.mk.injEq] at seen seen'
  have alike := isolated _ _ s s' runs runs' (seen.1.trans seen'.1.symm)
  rw [seen.2, seen'.2] at alike
  cases alike.2

end Cycle

end Sdpf.Connection
