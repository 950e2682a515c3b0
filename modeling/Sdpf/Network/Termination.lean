import Sdpf.Network.Backlog
import Sdpf.Network.Draining
import Sdpf.Network.Transport

/-!
# Two channels over a connection come to rest

Without new calls, what is on its way between two channels gets less with every step of a
loop, a parser, a method or the client, whichever comes next: a byte is worth more before
it is read than after, a request more than its answer, and a posted buffer more than a
queued one. So every run that only finishes what has been begun is bounded, and as long as
the two are not at rest there is a step that continues it.
-/

namespace Sdpf.Network

open Sdpf.Data Sdpf.Buffer Sdpf.Msgpack Sdpf.Channel Sdpf.Semantics Sdpf.Client Sdpf.Connection
open Sdpf.Server (Invocation Completion Handling)

/-- The move goes on with what has been begun; no thread calls. -/
def WireMove.Finishes : WireMove → Prop
  | .call .inspect | .call .complete | .call .remark => True
  | .call _ | .send _ _ => False
  | .answer _ _ _ _ | .clientLoop _ | .serverLoop _ | .receive | .serve _ _ => True

namespace WireExchange

/-- What an answer can add: six for each of its bytes, and the effort of a buffer. -/
def answerCost : Nat := 6 * IOBuf.initialSize + 5

/-- How much there is left to do. -/
def rank (w : WireExchange) : Nat :=
  (answerCost + 4) * w.link.near.backlog.length +
    (answerCost + 2) * w.link.far.recvBuf.readable.length +
    (answerCost + 1) * w.pending.length +
    6 * w.link.far.backlog.length + 4 * w.link.near.recvBuf.readable.length +
    (w.link.near.effort + w.link.far.effort) + (w.image [] []).remaining

/-- The two channels are those of an exchange, and their connection does not stand still. -/
structure Steady (codec : Codec) (w : WireExchange) : Prop where
  shows : ∃ x, w.Shows codec x
  near : w.link.near.conn.Moving
  far : w.link.far.conn.Moving

section Steps

variable {codec : Codec} {wild : Nat → UInt8} {calls : Nat → Call} {w next : WireExchange}

/-- The ends move on, and there is less to do if the move finishes something. -/
structure Descends (move : WireMove) (w next : WireExchange) : Prop where
  near : next.link.near.conn.Moving
  far : next.link.far.conn.Moving
  less : move.Finishes → next.rank < w.rank

/-- The response being processed needs three more steps at most. -/
theorem remaining_le (x : Exchange) : x.remaining ≤ 3 := by
  unfold Exchange.remaining
  split <;> decide

/-- A thread of the client takes a step; the response that is processed gets on. -/
theorem descends_call {action : Action} (near : w.link.near.conn.Moving)
    (far : w.link.far.conn.Moving) (taken : w.step codec wild calls (.call action) = some next) :
    Descends (.call action) w next := by
  simp only [WireExchange.step] at taken
  split_ifs at taken with here
  obtain ⟨client, moved, rfl⟩ := Option.map_eq_some_iff.mp taken
  refine ⟨near, far, fun finishes => Nat.add_lt_add_left ?_ _⟩
  cases action with
  | inspect =>
      cases phase : w.client.phase with
      | found answer =>
          simp only [World.step, phase] at moved
          cases moved
          simp [Exchange.remaining, image, phase]
      | _ => simp [World.step, phase] at moved
  | complete =>
      cases phase : w.client.phase with
      | inspected answer bnotify =>
          simp only [World.step, phase] at moved
          cases moved
          simp [Exchange.remaining, image, phase]
      | _ => simp [World.step, phase] at moved
  | remark =>
      cases phase : w.client.phase with
      | completed answer bnotify =>
          simp only [World.step, phase] at moved
          cases moved
          simp [Exchange.remaining, image, phase]
      | _ => simp [World.step, phase] at moved
  | _ => exact finishes.elim

/-- An event on the loop of the client. -/
theorem descends_clientLoop {event : Event} (near : w.link.near.conn.Moving)
    (far : w.link.far.conn.Moving) {up down : List Packet} (conveys : Conveys codec w.link up down)
    (roomy : w.link.Roomy event)
    (taken : w.step codec wild calls (.clientLoop event) = some next) :
    Descends (.clientLoop event) w next := by
  obtain ⟨link, moved, rfl⟩ := Option.map_eq_some_iff.mp taken
  cases Link.eases conveys near roomy moved with
  | forwards forwards same =>
      refine ⟨forwards.moving, same ▸ far, fun _ => ?_⟩
      have less := forwards.effort
      simp only [rank, forwards.backlog, forwards.recvBuf, same, image]
      omega
  | reads n positive moving backlog unread effort conn recvBuf arrived still =>
      refine ⟨moving, conn ▸ far, fun _ => ?_⟩
      simp only [rank, backlog, unread, effort, recvBuf, still, answerCost, IOBuf.initialSize,
        image]
      omega

/-- An event on the loop of the server. -/
theorem descends_serverLoop {event : Event} (near : w.link.near.conn.Moving)
    (far : w.link.far.conn.Moving) {up down : List Packet} (conveys : Conveys codec w.link up down)
    (roomy : w.link.flip.Roomy event)
    (taken : w.step codec wild calls (.serverLoop event) = some next) :
    Descends (.serverLoop event) w next := by
  obtain ⟨link, moved, rfl⟩ := Option.map_eq_some_iff.mp taken
  cases Link.eases conveys.flip far roomy moved with
  | forwards forwards same =>
      have less := forwards.effort
      simp only [Link.flip] at same less
      refine ⟨?_, forwards.moving, fun _ => ?_⟩
      · rw [← same] at near
        exact near
      · simp only [rank, Link.flip, forwards.backlog, forwards.recvBuf, same, image]
        omega
  | reads n positive moving backlog unread effort conn recvBuf arrived still =>
      simp only [Link.flip] at backlog unread effort conn recvBuf arrived still
      refine ⟨?_, moving, fun _ => ?_⟩
      · rw [← conn] at near
        exact near
      · simp only [rank, Link.flip, backlog, unread, effort, recvBuf, still, answerCost,
          IOBuf.initialSize, image]
        omega

/-- A method is done: its answer costs less than it did. -/
theorem descends_answer (law : codec.Lawful) {k : Nat} {filled : RpcMessage} {failed : Bool}
    {route : Route} (near : w.link.near.conn.Moving) (far : w.link.far.conn.Moving)
    (sound : w.link.far.Sound) (clear : w.link.far.Clear route)
    (taken : w.step codec wild calls (.answer k filled failed route) = some next) :
    Descends (.answer k filled failed route) w next := by
  simp only [WireExchange.step] at taken
  cases found : w.pending[k]? with
  | none => simp [found] at taken
  | some invocation =>
      simp only [found] at taken
      cases taken
      have loads := sound.sendPacket_loads law far clear
        (Completion.outgoing ⟨invocation, invocation.response.map fun _ => filled, failed⟩)
      refine ⟨near, loads.moving, fun _ => ?_⟩
      have inside : k < w.pending.length := (List.getElem?_eq_some_iff.mp found).1
      have fewer := List.length_eraseIdx_of_lt inside
      have bytes := loads.backlog
      have effort := loads.effort
      simp only [rank, fewer, loads.recvBuf, answerCost, IOBuf.initialSize, Exchange.remaining,
        image] at bytes ⊢
      omega

/-- The client takes up a packet, or does not want it. -/
theorem takeUp_frame {packet : Option Packet} (taken : w.takeUp calls packet = some next) :
    next.link = w.link ∧ next.pending = w.pending := by
  unfold takeUp at taken
  split at taken
  · cases taken
    exact ⟨rfl, rfl⟩
  · obtain ⟨client, _, rfl⟩ := Option.map_eq_some_iff.mp taken
    exact ⟨rfl, rfl⟩
  · cases taken
    exact ⟨rfl, rfl⟩

/-- `on_recv` of the client takes a packet out of its buffer, or returns. -/
theorem descends_receive (near : w.link.near.conn.Moving) (far : w.link.far.conn.Moving)
    {up down : List Packet} (conveys : Conveys codec w.link up down)
    (taken : w.step codec wild calls .receive = some next) : Descends .receive w next := by
  simp only [WireExchange.step] at taken
  split_ifs at taken with running
  have busy : .received ∈ w.link.near.conn.stack := List.mem_of_mem_head? running.1
  rcases conveys.parse wild busy with
    ⟨packet, rest, n, _, positive, parsed, _⟩ | ⟨parsed, _⟩
  · have forward : (0 : Int) < n := Int.natCast_pos.mpr positive
    simp only [parsed, if_neg (Int.not_lt.mpr (Int.le_of_lt forward)), Endpoint.moveOn,
      if_pos forward, Int.toNat_natCast, Option.bind_some] at taken
    obtain ⟨link, pending⟩ := takeUp_frame taken
    have within : n ≤ w.link.near.recvBuf.readable.length := parse_le conveys.near.valid parsed
    obtain ⟨_, unread⟩ := conveys.near.pop within
    have fewer : (w.link.near.pop n).recvBuf.readable.length + n =
        w.link.near.recvBuf.readable.length := by
      rw [unread, List.length_drop]
      omega
    have backlog : (w.link.near.pop n).backlog = w.link.near.backlog := rfl
    have effort : (w.link.near.pop n).effort = w.link.near.effort := rfl
    refine ⟨?_, ?_, fun _ => ?_⟩
    · rw [link]
      exact near
    · rw [link]
      exact far
    · have steps := remaining_le (next.image [] [])
      simp only [rank, link, pending, backlog, effort]
      omega
  · simp only [parsed, lt_irrefl, if_false, Endpoint.moveOn, Option.bind_eq_some_iff] at taken
    obtain ⟨near', returned, same⟩ := taken
    cases same
    have forwards := conveys.near.leave_forwards near (List.ne_nil_of_mem busy) returned
    have less := forwards.effort
    refine ⟨forwards.moving, far, fun _ => ?_⟩
    simp only [rank, forwards.backlog, forwards.recvBuf, image]
    omega

/-- A request is refused with an answer, or invoked, or neither. -/
theorem process_costs (law : codec.Lawful) (far : w.link.far.conn.Moving)
    (sound : w.link.far.Sound) {route : Route} (clear : w.link.far.Clear route)
    (allocated : Bool) (packet : Option Packet) :
    (w.process codec allocated route packet).client = w.client ∧
      (w.process codec allocated route packet).link.near = w.link.near ∧
      w.link.far.Loads (w.process codec allocated route packet).link.far ∧
      ((w.process codec allocated route packet).pending = w.pending ∨
        (w.process codec allocated route packet).link.far = w.link.far ∧
          (w.process codec allocated route packet).pending.length = w.pending.length + 1) := by
  have stays := Endpoint.Loads.refl far
  unfold process
  split
  · exact ⟨rfl, rfl, stays, .inl rfl⟩
  · simp only
    split
    · exact ⟨rfl, rfl, sound.sendPacket_loads law far clear _, .inl rfl⟩
    · exact ⟨rfl, rfl, stays, .inl rfl⟩
    · exact ⟨rfl, rfl, stays, .inr ⟨rfl, List.length_append⟩⟩
  · exact ⟨rfl, rfl, stays, .inl rfl⟩

/-- `on_recv` of the server takes a packet out of its buffer, or returns. -/
theorem descends_serve (law : codec.Lawful) {allocated : Bool} {route : Route}
    (near : w.link.near.conn.Moving) (far : w.link.far.conn.Moving) {up down : List Packet}
    (conveys : Conveys codec w.link up down) (clear : w.link.far.Clear route)
    (taken : w.step codec wild calls (.serve allocated route) = some next) :
    Descends (.serve allocated route) w next := by
  simp only [WireExchange.step] at taken
  split_ifs at taken with running
  have busy : .received ∈ w.link.flip.near.conn.stack := List.mem_of_mem_head? running
  rcases conveys.flip.parse wild busy with
    ⟨packet, rest, n, _, positive, parsed, _⟩ | ⟨parsed, _⟩
  · have forward : (0 : Int) < n := Int.natCast_pos.mpr positive
    simp only [Link.flip] at parsed
    simp only [parsed, if_neg (Int.not_lt.mpr (Int.le_of_lt forward)), Endpoint.moveOn,
      if_pos forward, Int.toNat_natCast, Option.map_some] at taken
    cases taken
    have within : n ≤ w.link.far.recvBuf.readable.length := parse_le conveys.far.valid parsed
    obtain ⟨sound, unread⟩ := conveys.far.pop within
    have fewer : (w.link.far.pop n).recvBuf.readable.length + n =
        w.link.far.recvBuf.readable.length := by
      rw [unread, List.length_drop]
      omega
    have clear : (w.link.far.pop n).Clear route := by
      cases route <;> exact clear
    obtain ⟨client, same, loads, invoked⟩ := process_costs
      (w := { w with link := { w.link with far := w.link.far.pop n } }) law far sound clear
      allocated (some packet)
    have bytes := loads.backlog
    have effort := loads.effort
    have backlog' : (w.link.far.pop n).backlog = w.link.far.backlog := rfl
    have effort' : (w.link.far.pop n).effort = w.link.far.effort := rfl
    refine ⟨?_, loads.moving, fun _ => ?_⟩
    · rw [same]
      exact near
    · simp only [rank, same, loads.recvBuf, answerCost, IOBuf.initialSize, Exchange.remaining,
        image, client, backlog', effort'] at bytes effort ⊢
      rcases invoked with pending | ⟨far, pending⟩
      · simp only [pending]
        omega
      · simp only [pending, far, backlog', effort']
        omega
  · simp only [Link.flip] at parsed
    simp only [parsed, lt_irrefl, if_false, Endpoint.moveOn, Option.map_eq_some_iff] at taken
    obtain ⟨far', returned, rfl⟩ := taken
    have forwards := conveys.far.leave_forwards far (List.ne_nil_of_mem busy) returned
    have less := forwards.effort
    refine ⟨near, forwards.moving, fun _ => ?_⟩
    simp only [rank, process, forwards.backlog, forwards.recvBuf, image]
    omega

/-- A request is sent. -/
theorem descends_send (law : codec.Lawful) {n : Nat} {route : Route}
    (near : w.link.near.conn.Moving) (far : w.link.far.conn.Moving) (sound : w.link.near.Sound)
    (clear : w.link.near.Clear route)
    (taken : w.step codec wild calls (.send n route) = some next) :
    Descends (.send n route) w next := by
  simp only [WireExchange.step] at taken
  cases drew : w.client.drawn n with
  | none => simp [drew] at taken
  | some id =>
      simp only [drew] at taken
      obtain ⟨client, moved, rfl⟩ := Option.map_eq_some_iff.mp taken
      exact ⟨(sound.sendPacket_loads law near clear _).moving, far, False.elim⟩

/-- Every step for which there is room keeps the connection going, and one that finishes
something leaves less to do. -/
theorem Steady.step {move : WireMove} (steady : w.Steady codec) (law : codec.Lawful)
    (roomy : w.Roomy codec move) (taken : w.step codec wild calls move = some next) :
    next.Steady codec ∧ (move.Finishes → next.rank < w.rank) := by
  obtain ⟨⟨x, shows⟩, near, far⟩ := steady
  obtain ⟨_, y, _, _, shows'⟩ := shows.step law (fun _ : true = true => roomy) taken
  have conveys := shows.conveys
  have descends : Descends move w next := by
    cases move with
    | call action => exact descends_call near far taken
    | send n route => exact descends_send law near far conveys.near roomy taken
    | answer k filled failed route =>
        exact descends_answer law near far conveys.far roomy.1 taken
    | clientLoop event => exact descends_clientLoop near far conveys roomy taken
    | serverLoop event => exact descends_serverLoop near far conveys roomy taken
    | receive => exact descends_receive near far conveys taken
    | serve allocated route => exact descends_serve law near far conveys roomy.1 taken
  exact ⟨⟨⟨y, shows'⟩, descends.near, descends.far⟩, descends.less⟩

/-- The client gets on with the response that it is processing. -/
theorem progress_processing (processing : w.client.phase ≠ .idle) :
    ∃ move, WireMove.Finishes move ∧ w.Roomy codec move ∧
      (w.step codec wild calls move).isSome := by
  cases phase : w.client.phase with
  | idle => exact absurd phase processing
  | found answer =>
      exact ⟨.call .inspect, trivial, trivial, by
        simp [WireExchange.step, Local, World.step, phase]⟩
  | inspected answer bnotify =>
      exact ⟨.call .complete, trivial, trivial, by
        simp [WireExchange.step, Local, World.step, phase]⟩
  | completed answer bnotify =>
      exact ⟨.call .remark, trivial, trivial, by
        simp [WireExchange.step, Local, World.step, phase]⟩

/-- `on_recv` of the client can go on. -/
theorem Shows.progress_receive {x : Exchange} (shows : w.Shows codec x)
    (running : w.link.near.Receiving) (idle : w.client.phase = .idle) :
    (w.step codec wild calls .receive).isSome := by
  have busy : .received ∈ w.link.near.conn.stack := List.mem_of_mem_head? running
  simp only [WireExchange.step]
  rw [if_pos ⟨running, idle⟩]
  rcases shows.conveys.parse wild busy with
    ⟨packet, rest, n, queue, positive, parsed, _⟩ | ⟨parsed, _⟩
  · have forward : (0 : Int) < n := Int.natCast_pos.mpr positive
    have response := shows.aimed.toClient packet (queue ▸ List.mem_cons_self)
    simp only [parsed, if_neg (Int.not_lt.mpr (Int.le_of_lt forward)), Endpoint.moveOn,
      if_pos forward, Int.toNat_natCast, Option.bind_some]
    cases packet with
    | request id service method body => cases response
    | response id code text body =>
        simp only [takeUp, Option.isSome_map, World.step, idle, ne_eq, not_true_eq_false, if_false]
        split <;> rfl
  · obtain ⟨near', returned⟩ := Option.isSome_iff_exists.mp
      (shows.conveys.near.leaves (List.ne_nil_of_mem busy))
    simp [parsed, Endpoint.moveOn, returned, takeUp]

/-- `on_recv` of the server can go on. -/
theorem Shows.progress_serve {x : Exchange} (shows : w.Shows codec x)
    (running : w.link.far.Receiving) (allocated : Bool) (route : Route) :
    (w.step codec wild calls (.serve allocated route)).isSome := by
  have busy : .received ∈ w.link.flip.near.conn.stack := List.mem_of_mem_head? running
  simp only [WireExchange.step]
  rw [if_pos running]
  rcases shows.conveys.flip.parse wild busy with
    ⟨packet, rest, n, queue, positive, parsed, _⟩ | ⟨parsed, _⟩
  · have forward : (0 : Int) < n := Int.natCast_pos.mpr positive
    simp only [Link.flip] at parsed
    simp only [parsed, if_neg (Int.not_lt.mpr (Int.le_of_lt forward)), Endpoint.moveOn,
      if_pos forward, Option.map_some, Option.isSome_some]
  · obtain ⟨far', returned⟩ := Option.isSome_iff_exists.mp
      (shows.conveys.far.leaves (List.ne_nil_of_mem busy))
    simp only [Link.flip] at parsed
    simp [parsed, Endpoint.moveOn, returned]

/-- The next method can be done, with an answer for which there is room. -/
theorem Shows.progress_answer {x : Exchange} (shows : w.Shows codec x) (law : codec.Lawful)
    (pending : w.pending ≠ []) :
    w.Roomy codec (.answer 0 (.byte 0) false .posted) ∧
      (w.step codec wild calls (.answer 0 (.byte 0) false .posted)).isSome := by
  obtain ⟨invocation, rest, queue⟩ := List.exists_cons_of_ne_nil pending
  refine ⟨⟨trivial, fun other found => ?_⟩, ?_⟩
  · obtain ⟨answer, _⟩ := shows.conveys.flip.sendPacket law .posted
      (Completion.outgoing ⟨other, other.response.map fun _ => .byte 0, false⟩)
    exact answer.trans (Exchange.transmit_byte law other.id 0 other.response 0)
  · simp [WireExchange.step, queue]

/-- As long as the two are not at rest, there is a step that finishes something. -/
theorem Steady.progress (steady : w.Steady codec) (law : codec.Lawful) (wild : Nat → UInt8)
    (calls : Nat → Call) (busy : ¬ w.Quiet) :
    ∃ move, WireMove.Finishes move ∧ w.Roomy codec move ∧
      (w.step codec wild calls move).isSome := by
  obtain ⟨⟨x, shows⟩, near, far⟩ := steady
  have conveys := shows.conveys
  by_cases idle : w.client.phase = .idle
  · by_cases receiving : w.link.near.Receiving
    · exact ⟨.receive, trivial, trivial, shows.progress_receive receiving idle⟩
    by_cases serving : w.link.far.Receiving
    · exact ⟨.serve true .posted, trivial, ⟨trivial, Route.noConfusion⟩,
        shows.progress_serve serving true .posted⟩
    rcases Link.progress w.link conveys.near.up near receiving with
      ⟨event, enabled, roomy⟩ | ⟨nearStack, nearPosted, nearBuffers, farTransit⟩
    · exact ⟨.clientLoop event, trivial, roomy, by
        simpa [WireExchange.step, Option.isSome_map] using enabled⟩
    rcases Link.progress w.link.flip conveys.far.up far serving with
      ⟨event, enabled, roomy⟩ | ⟨farStack, farPosted, farBuffers, nearTransit⟩
    · exact ⟨.serverLoop event, trivial, roomy, by
        simpa [WireExchange.step, Option.isSome_map] using enabled⟩
    by_cases pending : w.pending = []
    · refine absurd ⟨⟨⟨nearPosted, ?_, nearTransit, ?_⟩, farPosted, ?_, farTransit, ?_⟩, pending,
        idle⟩ busy
      · rw [nearBuffers, List.tail_nil]
      · exact conveys.down.read_all (by simp [nearStack]) farTransit
      · simp only [Link.flip] at farBuffers
        rw [farBuffers, List.tail_nil]
      · simp only [Link.flip] at farStack nearTransit
        exact conveys.up.read_all (by simp [farStack]) nearTransit
    · obtain ⟨roomy, enabled⟩ := shows.progress_answer law pending
      exact ⟨.answer 0 (.byte 0) false .posted, trivial, roomy, enabled⟩
  · exact progress_processing idle

end Steps

section Runs

variable {codec : Codec} {wild : Nat → UInt8} {calls : Nat → Call} {start finish : WireExchange}
  {moves : List WireMove}

/-- A move that finishes something draws no id. -/
theorem not_draws_of_finishes {move : WireMove} (finishes : move.Finishes) :
    move.draws = false := by
  cases move with
  | call action => cases action <;> first | exact finishes.elim | rfl
  | _ => rfl

/-- Runs with room for what is sent lead to steady states. -/
theorem steady_of_runs (law : codec.Lawful) (initial : start.Initial)
    (reads : start.link.near.conn.reading = true ∧ start.link.far.conn.reading = true)
    (runs : (wireMachine codec wild calls).Runs start moves finish)
    (room : (wireMachine codec wild calls).Along (Roomy codec) start moves) :
    finish.Steady codec :=
  runs.guarded (Steady codec) (fun steady roomy taken => (steady.step law roomy taken).1)
    ⟨⟨_, .of_initial initial⟩, ⟨reads.1, .inl initial.near.buffers⟩,
      ⟨reads.2, .inl initial.far.buffers⟩⟩ room

/-- A call that has been sent stays so. -/
theorem sent_of_runs (law : codec.Lawful) {w : WireExchange} {x : Exchange}
    (shows : w.Shows codec x) (runs : (wireMachine codec wild calls).Runs w moves finish)
    (room : (wireMachine codec wild calls).Along (Roomy codec) w moves) {n : Nat} {id : UInt32}
    (returned : w.client.pc n = .returned 0) (drew : w.client.drawn n = some id) :
    finish.client.pc n = .returned 0 ∧ finish.client.drawn n = some id := by
  have related : (transport codec law wild calls true).Related w x := shows
  obtain ⟨_, y, _, moved, shows'⟩ := (transport codec law wild calls true).runs related runs
    (by simpa using room)
  have sent : x.Sent n id := by
    rw [shows.same]
    exact ⟨returned, drew⟩
  have later := (moved.of_restrict.1).invariant (fun x => x.Sent n id)
    (fun sent transition => sent.carry transition) sent
  rw [WireExchange.Shows.same shows'] at later
  exact later

/-- From every state that is reached with room for what is sent: in whatever order the loops,
the parsers, the methods and the client finish what has been begun, they come to an end
after a number of steps that the state bounds, never get stuck before, and then every call
that had been sent has been completed once, with what the server decided on. -/
theorem wire_comes_to_rest (law : codec.Lawful)
    (apart : Function.Injective fun n => (calls n).ctrl) (ordinary : ∀ n, ¬ (calls n).IsNotify)
    (initial : start.Initial)
    (reads : start.link.near.conn.reading = true ∧ start.link.far.conn.reading = true)
    (callbacks : ∀ n, (start.client.ch.ctrls (calls n).ctrl).done = true)
    (runs : (wireMachine codec wild calls).Runs start moves finish)
    (few : moves.countP WireMove.draws < 2 ^ 32)
    (room : (wireMachine codec wild calls).Along (Roomy codec) start moves)
    {later : List WireMove} {state : WireExchange}
    (onward : (wireMachine codec wild calls).Runs finish later state)
    (finishing : (wireMachine codec wild calls).Along
      (fun w move => w.Roomy codec move ∧ move.Finishes) finish later) :
    later.length ≤ finish.rank ∧
      (state.Quiet ∨ ∃ move next, WireMove.Finishes move ∧ state.Roomy codec move ∧
        (wireMachine codec wild calls).step state move = some next) ∧
      (state.Quiet → ∀ n id, finish.client.pc n = .returned 0 → finish.client.drawn n = some id →
        ∃ code body, state.client.firings n = [completion calls n (code, body)] ∧
          Says codec state.server state.answered (Exchange.request codec calls n id) code
            body) := by
  have steady := steady_of_runs law initial reads runs room
  obtain ⟨settled, bound⟩ := onward.length_add_rank_le (Steady codec)
    (fun w move => w.Roomy codec move ∧ move.Finishes) rank
    (fun steady useful taken => (steady.step law useful.1 taken).imp id fun less => less useful.2)
    steady finishing
  refine ⟨by omega, ?_, fun quiet n id returned drew => ?_⟩
  · by_cases quiet : state.Quiet
    · exact .inl quiet
    · obtain ⟨move, finishes, roomy, enabled⟩ :=
        settled.progress law wild calls quiet
      obtain ⟨next, taken⟩ := Option.isSome_iff_exists.mp enabled
      exact .inr ⟨move, next, finishes, roomy, taken⟩
  · have roomy := finishing.imp fun _ _ useful => useful.1
    have none_drawn : later.countP WireMove.draws = 0 :=
      onward.guarded_history (fun done _ => done.countP WireMove.draws = 0)
        (fun {done _ move _} none_before useful _ => by
          rw [List.countP_append, none_before, List.countP_singleton,
            not_draws_of_finishes useful.2]
          rfl) rfl finishing
    obtain ⟨x, shows⟩ := steady.shows
    obtain ⟨returned', drew'⟩ := sent_of_runs law shows onward roomy returned drew
    obtain ⟨settling, still⟩ := settling_of_quiet law apart ordinary initial callbacks
      (runs.trans onward) (by rw [List.countP_append, none_drawn]; exact few)
      ((Machine.Along.append runs).mpr ⟨room, roomy⟩) quiet
    exact settling.quiet still ⟨returned', drew'⟩

/-- Five bytes of a request have been read. -/
theorem wire_comes_to_rest_torn :
    ∃ w state, numberedMachine.Runs wired (torn.take 6) w ∧ w.rank = 123055 ∧
      numberedMachine.Runs w (torn.drop 6) state ∧ (torn.drop 6).length ≤ w.rank ∧
      ∃ code body,
        state.client.firings 0 = [completion Exchange.numberedCalls 0 (code, body)] ∧
        Says Wire.codec state.server state.answered
          (Exchange.request Wire.codec Exchange.numberedCalls 0 1) code body := by
  have ran : ((numberedMachine.run wired (torn.take 6)).bind fun w =>
      (numberedMachine.run w (torn.drop 6)).map fun state =>
        (w.rank, w.client.pc 0, w.client.drawn 0, decide state.Quiet)) =
      some (123055, .returned 0, some 1, true) := by
    decide +kernel
  obtain ⟨w, executed, rest⟩ := Option.bind_eq_some_iff.mp ran
  obtain ⟨state, continued, seen⟩ := Option.map_eq_some_iff.mp rest
  simp only [Prod.mk.injEq, decide_eq_true_eq] at seen
  obtain ⟨rank, returned, drew, quiet⟩ := seen
  have before := Machine.Runs.of_run executed
  have after := Machine.Runs.of_run continued
  have room : numberedMachine.Along (Roomy Wire.codec) wired (torn.take 6 ++ torn.drop 6) := by
    decide +kernel
  obtain ⟨early, late⟩ := (Machine.Along.append before).mp room
  have finishes : ∀ move ∈ torn.drop 6, WireMove.Finishes move := by
    simp [torn, WireMove.Finishes]
  obtain ⟨bound, _, settled⟩ := wire_comes_to_rest Wire.codec_lawful (fun _ _ same => same)
    numbered_ordinary wired_initial ⟨rfl, rfl⟩ (fun _ => rfl) before (by decide) early after
    (late.and_mem finishes)
  exact ⟨w, state, before, rank, after, bound, settled quiet 0 1 returned drew⟩

end Runs

end WireExchange

end Sdpf.Network
