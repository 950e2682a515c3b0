import Sdpf.Network.Image

/-!
# From bytes to packets

What holds of all exchanges over a carrier of whole packets holds of the bytes on a
connection: there is no cross talk, and as long as the queues have room every call is
settled.
-/

namespace Sdpf.Network

open Sdpf.Data Sdpf.Buffer Sdpf.Msgpack Sdpf.Channel Sdpf.Semantics Sdpf.Client Sdpf.Connection
open Sdpf.Server (Invocation Completion Handling)

namespace WireExchange

/-- No byte is on its way, no method is running and no response is being processed. -/
structure Quiet (w : WireExchange) : Prop where
  drained : w.link.Drained
  pending : w.pending = []
  phase : w.client.phase = .idle

instance (w : WireExchange) : Decidable w.Quiet :=
  decidable_of_iff (w.link.Drained ∧ w.pending = [] ∧ w.client.phase = .idle)
    ⟨fun all => ⟨all.1, all.2.1, all.2.2⟩, fun all => ⟨all.drained, all.pending, all.phase⟩⟩

/-- A connection on which `on_connect` has set its callbacks. -/
def accepted : Tcp.Connection :=
  { Tcp.Connection.fresh with
    connected := true
    handle := Uv.Handle.fresh.init
    reading := true
    connCb := true
    recvCb := true
    sendCb := true
    closeCb := true
    log := [.connect 0] }

example : Tcp.connectionMachine.run .fresh [.callbacks true false false false, .accept 0,
    .callbacks true true true true, .ret 0] = some accepted := rfl

/-- The end of a connection that was just accepted. -/
def newEnd : Endpoint where
  conn := accepted
  given := []
  posted := []
  transit := []
  recvBuf := IOBuf.create IOBuf.initialSize

/-- The end has just been established. -/
theorem newEnd_established : newEnd.Established where
  up := ⟨rfl, rfl, by decide, .inl rfl, by decide⟩
  stack := rfl
  buffers := rfl
  sends := rfl
  given := rfl
  posted := rfl
  transit := rfl
  recvBuf := rfl

/-- Two channels over a connection that was just accepted. -/
def wired : WireExchange where
  client := Exchange.fresh.client
  server := Exchange.fresh.server
  link := ⟨newEnd, newEnd⟩
  pending := []
  invoked := []
  answered := []
  fault := false

/-- The two channels are before their first call. -/
theorem wired_initial : wired.Initial :=
  ⟨World.fresh_initial true, newEnd_established, newEnd_established, rfl, rfl, rfl, rfl⟩

/-- A call whose header is torn apart on its way, and its answer. -/
def torn : List WireMove :=
  [.call (.check 0), .call (.mark 0), .call (.register 0), .send 0 .posted, .clientLoop (.task 0),
    .serverLoop (.read 5), .serve true .posted, .serverLoop (.read 15), .serve true .posted,
    .answer 0 (.byte 7) false (.direct 0), .serve true .posted,
    .clientLoop (.written 0), .clientLoop (.ret 0), .serverLoop (.written 0), .serverLoop (.ret 0),
    .clientLoop (.read 18), .receive, .call .inspect, .call .complete, .call .remark, .receive]

/-- The machine of the calls that send their number. -/
abbrev numberedMachine : Machine WireExchange WireMove :=
  wireMachine Wire.codec (fun _ => 0) Exchange.numberedCalls

/-- The call is completed with the body of its answer, and nothing is left on its way. -/
theorem torn_ran : ∃ finish, numberedMachine.Runs wired torn finish ∧
    finish.client.fired = [⟨0, 0, 0, [7]⟩] ∧ finish.client.pc 0 = .returned 0 ∧
    finish.client.drawn 0 = some 1 ∧ finish.Quiet := by
  have ran : (numberedMachine.run wired torn).map (fun finish => (finish.client.fired,
      finish.client.pc 0, finish.client.drawn 0, decide finish.Quiet)) =
      some ([⟨0, 0, 0, [7]⟩], .returned 0, some 1, true) := by
    decide +kernel
  obtain ⟨finish, executed, seen⟩ := Option.map_eq_some_iff.mp ran
  simp only [Prod.mk.injEq, decide_eq_true_eq] at seen
  exact ⟨finish, Machine.Runs.of_run executed, seen⟩

/-- Two calls, registered in one order and sent in the other; the second frame is torn apart on
its way. The methods are done in the order of the registrations, and both answers arrive in
one read. -/
def crossing : List WireMove :=
  [.call (.check 0), .call (.mark 0), .call (.register 0), .call (.check 1), .call (.mark 1),
    .call (.register 1), .send 1 .posted, .send 0 .posted, .clientLoop (.task 0),
    .clientLoop (.task 0), .serverLoop (.read 20), .serve true .posted, .serve true .posted,
    .clientLoop (.written 0), .clientLoop (.ret 0), .serverLoop (.read 5), .serve true .posted,
    .serverLoop (.read 15), .serve true .posted, .answer 1 (.byte 8) false (.direct 0),
    .answer 0 (.byte 7) false (.direct 0), .serve true .posted, .serverLoop (.written 0),
    .serverLoop (.ret 0), .serverLoop (.written 0), .serverLoop (.ret 0), .clientLoop (.written 0),
    .clientLoop (.ret 0), .clientLoop (.read 36),
    .receive, .call .inspect, .call .complete, .call .remark,
    .receive, .call .inspect, .call .complete, .call .remark, .receive]

/-- None of these calls registers for notifications. -/
theorem numbered_ordinary (n : Nat) : ¬ (Exchange.numberedCalls n).IsNotify :=
  show ¬ strcmp [0x62] _ = 0 by decide

section Runs

variable {codec : Codec} {wild : Nat → UInt8} {calls : Nat → Call} {start finish : WireExchange}
  {moves : List WireMove}

/-- A run on the wire is a run of the carrier that draws no more ids. -/
theorem carried (law : codec.Lawful) (initial : start.Initial)
    (runs : (wireMachine codec wild calls).Runs start moves finish) {lossless : Bool}
    (room : (wireMachine codec wild calls).Along
      (fun w move => lossless = true → w.Roomy codec move) start moves) :
    ∃ passages final, (carrierMachine codec calls).Runs (start.image [] []) passages final ∧
      (carrierMachine codec calls).Along
        (fun x passage => lossless = true → x.Faithful codec passage) (start.image [] []) passages ∧
      passages.countP Passage.draws ≤ moves.countP WireMove.draws ∧ finish.Shows codec final := by
  have related : (transport codec law wild calls lossless).Related start (start.image [] []) :=
    .of_initial initial
  obtain ⟨parts, final, stands, moved, shows⟩ :=
    (transport codec law wild calls lossless).runs related runs room
  obtain ⟨ran, faithful⟩ := moved.of_restrict
  exact ⟨parts.flatten, final, ran, faithful,
    countP_flatten_le stands fun _ _ stand => stand, shows⟩

/-- Two channels over a connection that stays up never fault, however the bytes are written
and read: each step is one of two channels over a carrier of whole packets, and the packets
still on the way there are what the bytes on the way here amount to. -/
theorem wire_refines (law : codec.Lawful) (initial : start.Initial)
    (runs : (wireMachine codec wild calls).Runs start moves finish) :
    finish.fault = false ∧ finish.link.near.conn.connected = true ∧
      finish.link.far.conn.connected = true ∧
      ∃ passages toServer toClient,
        (carrierMachine codec calls).Runs (start.image [] []) passages
          (finish.image toServer toClient) ∧
        passages.countP Passage.draws ≤ moves.countP WireMove.draws ∧
        Conveys codec finish.link toServer toClient := by
  obtain ⟨passages, final, ran, _, few, shows⟩ := carried law initial runs
    (runs.along_of fun _ _ yes => absurd yes Bool.false_ne_true)
  refine ⟨shows.sound, shows.conveys.near.up.connected, shows.conveys.far.up.connected, passages,
    final.toServer, final.toClient, ?_, few, shows.conveys⟩
  rw [← shows.same]
  exact ran

/-- The run with the torn header stands for one of the carrier, with a single draw. -/
theorem wire_refines_torn : ∃ finish, numberedMachine.Runs wired torn finish ∧
    finish.client.fired = [⟨0, 0, 0, [7]⟩] ∧ finish.fault = false ∧
    ∃ passages toServer toClient,
      (carrierMachine Wire.codec Exchange.numberedCalls).Runs (wired.image [] []) passages
        (finish.image toServer toClient) ∧
      passages.countP Passage.draws ≤ 1 ∧ Conveys Wire.codec finish.link toServer toClient := by
  obtain ⟨finish, runs, fired, _⟩ := torn_ran
  obtain ⟨sound, _, _, carried⟩ := wire_refines Wire.codec_lawful wired_initial runs
  exact ⟨finish, runs, fired, sound, carried⟩

/-- Whatever is done with the bytes on the way, no request is invoked twice or for another
call, no call is completed twice, and a body that a call is completed with is what a method
has answered to that call's own request. -/
theorem wire_no_cross_talk (law : codec.Lawful) (apart : Function.Injective fun n => (calls n).ctrl)
    (ordinary : ∀ n, ¬ (calls n).IsNotify) (initial : start.Initial)
    (runs : (wireMachine codec wild calls).Runs start moves finish)
    (few : moves.countP WireMove.draws < 2 ^ 32) :
    (finish.invoked.map Invocation.id).Nodup ∧
      (∀ n, (finish.client.firings n).length ≤ 1) ∧
      (∀ invocation ∈ finish.invoked, ∃ n, finish.client.drawn n = some invocation.id ∧
        invocation.body = (outgoing (calls n) invocation.id).body codec) ∧
      ∀ firing ∈ finish.client.fired, firing.body ≠ [] →
        ∃ completion ∈ finish.answered,
          finish.client.drawn firing.call = some completion.invocation.id ∧
          completion.invocation.body =
            (outgoing (calls firing.call) completion.invocation.id).body codec ∧
          firing.body = completion.outgoing.body codec := by
  obtain ⟨passages, final, ran, _, fewer, shows⟩ := carried law initial runs
    (runs.along_of fun _ _ yes => absurd yes Bool.false_ne_true)
  have linked : final.Linked codec calls :=
    Exchange.carried_linked initial.image ran (Nat.lt_of_le_of_lt fewer few) apart ordinary
  rw [shows.same] at linked
  refine ⟨(List.nodup_append.mp linked.distinct).2.1, linked.once.firings, ?_, ?_⟩
  · intro invocation member
    obtain ⟨n, sent, same⟩ := linked.invoked invocation member
    exact ⟨n, sent.2, same⟩
  · exact fun firing member nonempty => linked.own member nonempty

/-- The answers of two calls cross on their way; each call is completed with its own. -/
theorem wire_no_cross_talk_crossing : ∃ finish, numberedMachine.Runs wired crossing finish ∧
    finish.client.fired = [⟨0, 0, 0, [8]⟩, ⟨1, 1, 0, [7]⟩] ∧
    ∀ firing ∈ finish.client.fired, ∃ completion ∈ finish.answered,
      finish.client.drawn firing.call = some completion.invocation.id ∧
      completion.invocation.body =
        (outgoing (Exchange.numberedCalls firing.call) completion.invocation.id).body Wire.codec ∧
      firing.body = completion.outgoing.body Wire.codec := by
  have ran : (numberedMachine.run wired crossing).map (fun finish => finish.client.fired) =
      some [⟨0, 0, 0, [8]⟩, ⟨1, 1, 0, [7]⟩] := by
    decide +kernel
  obtain ⟨finish, executed, fired⟩ := Option.map_eq_some_iff.mp ran
  have runs := Machine.Runs.of_run executed
  obtain ⟨_, _, _, own⟩ := wire_no_cross_talk Wire.codec_lawful (fun _ _ same => same)
    numbered_ordinary wired_initial runs (by decide)
  have filled : ∀ firing ∈ finish.client.fired, firing.body ≠ [] := by
    rw [fired]
    decide
  exact ⟨finish, runs, fired, fun firing member => own firing member (filled firing member)⟩

/-- When no byte is on its way after a run in which the queues had room for what was sent,
the two channels are those of a settled exchange. -/
theorem settling_of_quiet (law : codec.Lawful)
    (apart : Function.Injective fun n => (calls n).ctrl)
    (ordinary : ∀ n, ¬ (calls n).IsNotify) (initial : start.Initial)
    (callbacks : ∀ n, (start.client.ch.ctrls (calls n).ctrl).done = true)
    (runs : (wireMachine codec wild calls).Runs start moves finish)
    (few : moves.countP WireMove.draws < 2 ^ 32)
    (room : (wireMachine codec wild calls).Along (Roomy codec) start moves)
    (quiet : finish.Quiet) :
    (finish.image [] []).Settling codec calls ∧ (finish.image [] []).Quiet := by
  have always : (wireMachine codec wild calls).Along
      (fun w move => true = true → w.Roomy codec move) start moves := by simpa using room
  obtain ⟨passages, final, ran, faithful, fewer, shows⟩ := carried law initial runs always
  have settling : final.Settling codec calls :=
    Exchange.carried_settling law apart ordinary initial.image callbacks ran
      (Nat.lt_of_le_of_lt fewer few) (by simpa using faithful)
  obtain ⟨up, down⟩ := shows.conveys.drained quiet.drained
  rw [shows.same, up, down] at settling
  exact ⟨settling, by simp [Exchange.whereabouts, image, quiet.pending], quiet.phase⟩

/-- When no byte is on its way after a run in which the queues had room for what was sent,
each call that has been sent has had its callback run once, with what the server decided on
for its request. -/
theorem wire_settled (law : codec.Lawful) (apart : Function.Injective fun n => (calls n).ctrl)
    (ordinary : ∀ n, ¬ (calls n).IsNotify) (initial : start.Initial)
    (callbacks : ∀ n, (start.client.ch.ctrls (calls n).ctrl).done = true)
    (runs : (wireMachine codec wild calls).Runs start moves finish)
    (few : moves.countP WireMove.draws < 2 ^ 32)
    (room : (wireMachine codec wild calls).Along (Roomy codec) start moves)
    (quiet : finish.Quiet) (n : Nat) (id : UInt32) (sent : finish.client.pc n = .returned 0)
    (drew : finish.client.drawn n = some id) :
    ∃ code body, finish.client.firings n = [completion calls n (code, body)] ∧
      Says codec finish.server finish.answered
        (Exchange.request codec calls n id) code body := by
  obtain ⟨settling, still⟩ :=
    settling_of_quiet law apart ordinary initial callbacks runs few room quiet
  exact settling.quiet still ⟨sent, drew⟩

/-- When the run with the torn header is over, its call has been completed once. -/
theorem wire_settled_torn : ∃ finish, numberedMachine.Runs wired torn finish ∧
    ∃ code body,
      finish.client.firings 0 = [completion Exchange.numberedCalls 0 (code, body)] ∧
      Says Wire.codec finish.server finish.answered
        (Exchange.request Wire.codec Exchange.numberedCalls 0 1) code body := by
  obtain ⟨finish, runs, _, returned, drew, quiet⟩ := torn_ran
  exact ⟨finish, runs, wire_settled Wire.codec_lawful (fun _ _ same => same) numbered_ordinary
    wired_initial (fun _ => rfl) runs (by decide) (by decide +kernel) quiet 0 1 returned drew⟩

end Runs

end WireExchange

end Sdpf.Network
