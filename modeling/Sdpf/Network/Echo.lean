import Sdpf.Network.Transport
import Sdpf.Server.MsgService

/-!
# The sample service over a connection

A server that offers the sample service runs the done callbacks of its methods in
`call_method`. A call of "echo" then has its callback run with the message it was made
with, after all that happens to the bytes on their way and to the other calls.
-/

namespace Sdpf.Network

open Sdpf.Data Sdpf.Msgpack Sdpf.Channel Sdpf.Dispatcher Sdpf.Semantics Sdpf.Client
open Sdpf.Server (Invocation Completion)
open Sdpf.Server.MsgService (MsgObject Completes)

/-- The name of the echo method, "echo". -/
def methodEcho : CStr := CStr.ofBlock [0x65, 0x63, 0x68, 0x6f]

section Request

variable {codec : Codec} {server : Server.RpcChannel} {index : Nat}

/-- A method that starts with "echo" is the echo method, also when it is cut to its field. -/
theorem findMethod_echo {method : CStr} (echo : methodEcho.bytes <+: method.bytes) :
    Server.MsgService.findMethod (nameField method).text = 2 ∧
      strcmp (nameField method).text.bytes methodNotify.bytes ≠ 0 := by
  obtain ⟨rest, whole⟩ := echo
  have cut : (nameField method).text.bytes = [0x65, 0x63, 0x68, 0x6f] ++ rest.take 59 := by
    rw [text_nameField, ← whole]
    rfl
  generalize (nameField method).text = name at cut
  obtain ⟨bytes, noNul⟩ := name
  subst cut
  constructor
  · simp [Server.MsgService.findMethod, Server.MsgService.methods, CStr.strlen, CStr.ofBlock,
      strncmp]
  · simp [methodNotify, strcmp]

/-- An echo request that was serialised is invoked, if there is memory for the controller. -/
theorem processRequest_echo (law : codec.Lawful) {service method : CStr} {sent : MsgFields}
    (found : server.findSvc (nameField service).text =
      some (Server.MsgService.service codec, index))
    (echo : methodEcho.bytes <+: method.bytes) (allocated : Bool) (id : UInt32) :
    (server.processRequest allocated id (nameField service).text (nameField method).text
        (serializeFields codec sent).2).1 =
      if allocated = false then
        .refused Server.einternal
      else
        .invoked ⟨id, index, 2, (serializeFields codec sent).2,
          some (MsgObject.message codec ⟨.echo, Server.MsgService.blank⟩)⟩ := by
  obtain ⟨is, other⟩ := findMethod_echo echo
  have newRequest : (Server.MsgService.service codec).newRequest 2 =
      some (MsgObject.message codec ⟨.echo, Server.MsgService.blank⟩) := rfl
  have sound : Server.RpcChannel.malformed ((Server.MsgService.service codec).newRequest 2)
      (serializeFields codec sent).2 = false := by
    simp only [newRequest, Server.RpcChannel.malformed, Server.MsgService.deserialize_message law]
    simp
  have method : (Server.MsgService.service codec).findMethod (nameField method).text = 2 := is
  simp only [Server.RpcChannel.processRequest, found, method, sound, other, false_and, if_false]
  cases allocated <;> rfl

end Request

namespace WireExchange

/-- The methods of a service are completed by its `call_method`. -/
def Serves (codec : Codec) (index : Nat) (w : WireExchange) : WireMove → Prop
  | .answer k filled failed _ => ∀ invocation ∈ w.pending[k]?, invocation.service = index →
      Completes codec ⟨invocation, invocation.response.map fun _ => filled, failed⟩
  | _ => True

/-- What has been answered for a service was answered by its `call_method`. -/
def Served (codec : Codec) (index : Nat) (w : WireExchange) : Prop :=
  ∀ completion ∈ w.answered, completion.invocation.service = index →
    Completes codec completion

variable {codec : Codec} {wild : Nat → UInt8} {calls : Nat → Call} {w next start : WireExchange}
  {moves : List WireMove} {index : Nat}

/-- A packet the client takes up does not touch the server. -/
theorem takeUp_server {packet : Option Packet} (taken : w.takeUp calls packet = some next) :
    next.server = w.server ∧ next.answered = w.answered := by
  rcases packet with _ | ⟨_ | _⟩
  · cases taken
    exact ⟨rfl, rfl⟩
  · cases taken
    exact ⟨rfl, rfl⟩
  · obtain ⟨client, -, rfl⟩ := Option.map_eq_some_iff.mp taken
    exact ⟨rfl, rfl⟩

/-- A packet the server processes changes neither its services nor the answers. -/
theorem process_services (codec : Codec) (w : WireExchange) (allocated : Bool) (route : Route)
    (packet : Option Packet) :
    (w.process codec allocated route packet).server.services = w.server.services ∧
      (w.process codec allocated route packet).answered = w.answered := by
  rcases packet with _ | ⟨id, service, method, body⟩ | _
  · exact ⟨rfl, rfl⟩
  · have services := processRequest_services w.server allocated id service.text method.text body
    unfold process
    simp only
    split
    · exact ⟨services, rfl⟩
    · exact ⟨services, rfl⟩
    · exact ⟨services, rfl⟩
  · exact ⟨rfl, rfl⟩

/-- Services stay, and only a done callback adds an answer. -/
theorem step_services {move : WireMove}
    (transition : w.step codec wild calls move = some next) :
    next.server.services = w.server.services ∧
      (next.answered = w.answered ∨ ∃ k filled failed route invocation,
        move = .answer k filled failed route ∧ w.pending[k]? = some invocation ∧
        next.answered = w.answered ++
          [⟨invocation, invocation.response.map fun _ => filled, failed⟩]) := by
  cases move with
  | call action =>
      simp only [step] at transition
      split_ifs at transition
      obtain ⟨client, -, rfl⟩ := Option.map_eq_some_iff.mp transition
      exact ⟨rfl, .inl rfl⟩
  | send n route =>
      simp only [step] at transition
      split at transition
      · cases transition
      · obtain ⟨client, -, rfl⟩ := Option.map_eq_some_iff.mp transition
        exact ⟨rfl, .inl rfl⟩
  | answer k filled failed route =>
      simp only [step] at transition
      split at transition
      · cases transition
      · next invocation found =>
          cases transition
          exact ⟨rfl, .inr ⟨k, filled, failed, route, invocation, rfl, found, rfl⟩⟩
  | clientLoop event =>
      obtain ⟨link, -, rfl⟩ := Option.map_eq_some_iff.mp transition
      exact ⟨rfl, .inl rfl⟩
  | serverLoop event =>
      obtain ⟨link, -, rfl⟩ := Option.map_eq_some_iff.mp transition
      exact ⟨rfl, .inl rfl⟩
  | receive =>
      simp only [step] at transition
      split at transition
      · split at transition
        · cases transition
          exact ⟨rfl, .inl rfl⟩
        · split at transition
          · cases transition
            exact ⟨rfl, .inl rfl⟩
          · obtain ⟨near, -, taken⟩ := Option.bind_eq_some_iff.mp transition
            obtain ⟨server, answered⟩ := takeUp_server taken
            exact ⟨congrArg _ server, .inl answered⟩
      · cases transition
  | serve allocated route =>
      simp only [step] at transition
      split at transition
      · split at transition
        · cases transition
          exact ⟨rfl, .inl rfl⟩
        · split at transition
          · cases transition
            exact ⟨rfl, .inl rfl⟩
          · obtain ⟨far, -, rfl⟩ := Option.map_eq_some_iff.mp transition
            obtain ⟨services, answered⟩ := process_services codec _ allocated route _
            exact ⟨services, .inl answered⟩
      · cases transition

/-- The services stay what they are. -/
theorem runs_services (runs : (wireMachine codec wild calls).Runs start moves w) :
    w.server.services = start.server.services :=
  runs.invariant (fun w => w.server.services = start.server.services)
    (fun same transition => (step_services transition).1.trans same) rfl

/-- A server that answers with the service has answered only so. -/
theorem runs_served (initial : start.Initial)
    (runs : (wireMachine codec wild calls).Runs start moves w)
    (serves : (wireMachine codec wild calls).Along (Serves codec index) start moves) :
    w.Served codec index := by
  refine runs.guarded (Served codec index) (fun {w move next} served here transition => ?_)
    (by simp [Served, initial.answered]) serves
  rcases (step_services transition).2 with
    same | ⟨k, filled, failed, route, invocation, rfl, found, grown⟩
  · rwa [Served, same]
  · intro completion member own
    rw [grown] at member
    rcases List.mem_append.mp member with before | added
    · exact served completion before own
    · obtain rfl := List.mem_singleton.mp added
      exact here invocation found own

/-- What the server says to an echo request: that it has no memory, or the message. -/
theorem says_echo (law : codec.Lawful) {call : Call} {sent : MsgFields}
    (served : w.Served codec index)
    (found : w.server.findSvc (nameField call.service).text =
      some (Server.MsgService.service codec, index))
    (echo : methodEcho.bytes <+: call.method.bytes)
    (request : call.request = some (MsgObject.message codec ⟨.echo, sent⟩))
    (terminated : sent.msg.Terminated) {id : UInt32} {code : Int32} {body : List UInt8}
    (said : Says codec w.server w.answered ((outgoing call id).packet codec) code body) :
    code = Server.einternal ∧ body = [] ∨ code = 0 ∧ body = (serializeFields codec sent).2 := by
  have sends : (outgoing call id).body codec = (serializeFields codec sent).2 :=
    Server.MsgService.body_message law ⟨.echo, sent⟩ request
  have packet : (outgoing call id).packet codec = .request id (nameField call.service)
      (nameField call.method) (serializeFields codec sent).2 := by
    rw [← sends]
    rfl
  rw [packet] at said
  cases said with
  | @refused allocated _ _ _ _ ec refused =>
      rw [processRequest_echo law found echo] at refused
      split_ifs at refused
      cases refused
      exact .inl ⟨rfl, rfl⟩
  | @answered _ completion invokes member =>
      refine .inr ?_
      cases invokes with
      | @intro allocated _ _ _ _ _ invoked =>
          rw [processRequest_echo law found echo] at invoked
          split_ifs at invoked
          injection invoked with is
          obtain ⟨response, handled, answer⟩ := served completion member (by rw [← is])
          have method : completion.invocation.method = 2 := by rw [← is]
          have carried : completion.invocation.body = (serializeFields codec sent).2 := by rw [← is]
          obtain ⟨echoed, ok, number, text⟩ :=
            Server.MsgService.handle_echo law terminated method carried
          rw [ok] at handled
          injection handled with same
          simp only [Option.some.injEq, Prod.mk.injEq] at same
          obtain ⟨rfl, unfailed⟩ := same
          refine ⟨by rw [← unfailed]; rfl, ?_⟩
          rw [← Server.MsgService.serializeFields_congr number text]
          exact Server.MsgService.body_message law ⟨.echo, echoed⟩ answer

/-- When no byte is on its way after a run in which the queues had room for what was sent,
each call of "echo" to the sample service has had its callback run once: with the message
that was sent, which decodes into the response to the same number and, over zeros, the same
text; or with code 1007, if the server had no memory. -/
theorem echo_returned {finish : WireExchange} (law : codec.Lawful)
    (apart : Function.Injective fun n => (calls n).ctrl) (ordinary : ∀ n, ¬ (calls n).IsNotify)
    (initial : start.Initial)
    (callbacks : ∀ n, (start.client.ch.ctrls (calls n).ctrl).done = true)
    (runs : (wireMachine codec wild calls).Runs start moves finish)
    (few : moves.countP WireMove.draws < 2 ^ 32)
    (room : (wireMachine codec wild calls).Along (Roomy codec) start moves)
    (serves : (wireMachine codec wild calls).Along (Serves codec index) start moves)
    (quiet : finish.Quiet) {n : Nat} {id : UInt32} {sent receiver : MsgFields}
    (found : start.server.findSvc (nameField (calls n).service).text =
      some (Server.MsgService.service codec, index))
    (echo : methodEcho.bytes <+: (calls n).method.bytes)
    (request : (calls n).request = some (MsgObject.message codec ⟨.echo, sent⟩))
    (terminated : sent.msg.Terminated)
    (response : (calls n).response = some (MsgObject.message codec ⟨.echo, receiver⟩))
    (returned : finish.client.pc n = .returned 0) (drew : finish.client.drawn n = some id) :
    finish.client.firings n = [⟨n, (calls n).ctrl, Server.einternal, []⟩] ∨
      finish.client.firings n = [⟨n, (calls n).ctrl, 0, (serializeFields codec sent).2⟩] ∧
        ∃ received, deserializeFields codec receiver (serializeFields codec sent).2 =
            .ok (0, received) ∧ received.logId = sent.logId ∧
          (receiver.msg = .zero 64 → received.msg.text = sent.msg.text) := by
  obtain ⟨settling, still⟩ :=
    settling_of_quiet law apart ordinary initial callbacks runs few room quiet
  obtain ⟨code, body, fired, said⟩ := settling.quiet still ⟨returned, drew⟩
  have findSvc : finish.server.findSvc (nameField (calls n).service).text =
      some (Server.MsgService.service codec, index) := by
    rw [← found]
    simp only [Server.RpcChannel.findSvc, runs_services runs]
  rcases says_echo law (runs_served initial runs serves) findSvc echo request terminated said with
    ⟨rfl, rfl⟩ | ⟨rfl, rfl⟩
  · refine .inl (fired.trans ?_)
    simp [completion, response, RpcChannel.outcome]
  · refine .inr ⟨fired.trans ?_, ?_⟩
    · simp only [completion, response, RpcChannel.outcome,
        Server.MsgService.deserialize_message law]
      simp
    · refine ⟨_, deserializeFields_sent law receiver sent.msg.length_text_le, rfl, ?_⟩
      intro zeros
      simp only [zeros]
      exact Server.MsgService.text_over_zeros sent terminated

/-- The message with number 7 and text "hi". -/
def greeting : MsgFields := textMsg 7 [0x68, 0x69]

/-- Calls of method "echo" of service "msg". -/
def echoCalls (n : Nat) : Call :=
  ⟨CStr.ofBlock [0x6d, 0x73, 0x67], methodEcho,
    some (MsgObject.message Wire.codec ⟨.echo, greeting⟩),
    some (MsgObject.message Wire.codec ⟨.echo, Server.MsgService.blank⟩), n⟩

abbrev echoMachine : Machine WireExchange WireMove := wireMachine Wire.codec (fun _ => 0) echoCalls

/-- Two channels over a connection that was just accepted, and the sample service. -/
def offering : WireExchange :=
  { wired with server := ⟨[Server.MsgService.service Wire.codec], ∅⟩ }

/-- The server that offers the service is an initial one. -/
theorem offering_initial : offering.Initial :=
  ⟨World.fresh_initial true, newEnd_established, newEnd_established, rfl, rfl, rfl, rfl⟩

/-- A call whose header is torn apart, up to its invocation. -/
def calling : List WireMove :=
  [.call (.check 0), .call (.mark 0), .call (.register 0), .send 0 .posted, .clientLoop (.task 0),
    .serverLoop (.read 5), .serve true .posted, .serverLoop (.read 25), .serve true .posted]

def replying : WireMove :=
  .answer 0 (MsgObject.message Wire.codec ⟨.echo, greeting⟩) false (.direct 0)

def returning : List WireMove :=
  [.serve true .posted, .clientLoop (.written 0), .clientLoop (.ret 0), .serverLoop (.written 0),
    .serverLoop (.ret 0), .clientLoop (.read 23), .receive, .call .inspect, .call .complete,
    .call .remark, .receive]

/-- Where nothing is answered, the service has nothing to do. -/
theorem serves_unanswered {machine : Machine WireExchange WireMove}
    (unanswered : ∀ move ∈ moves, ∀ k filled failed route, move ≠ .answer k filled failed route) :
    machine.Along (Serves codec index) start moves := by
  induction moves generalizing start with
  | nil => trivial
  | cons move rest ih =>
      refine ⟨?_, fun next _ => ih fun other member =>
        unanswered other (List.mem_cons_of_mem _ member)⟩
      cases move with
      | answer k filled failed route =>
          exact absurd rfl (unanswered _ List.mem_cons_self k filled failed route)
      | _ => trivial

/-- A greeting is echoed over a connection that tears its packets apart. -/
theorem echo_returned_torn : ∃ finish,
    echoMachine.Runs offering (calling ++ replying :: returning) finish ∧
      (finish.client.firings 0 = [⟨0, 0, Server.einternal, []⟩] ∨
        finish.client.firings 0 = [⟨0, 0, 0, (serializeFields Wire.codec greeting).2⟩] ∧
          ∃ received, deserializeFields Wire.codec Server.MsgService.blank
              (serializeFields Wire.codec greeting).2 = .ok (0, received) ∧
            received.logId = greeting.logId ∧
            (Server.MsgService.blank.msg = .zero 64 → received.msg.text = greeting.msg.text)) := by
  have ran : (echoMachine.run offering (calling ++ replying :: returning)).map (fun finish =>
      (finish.client.pc 0, finish.client.drawn 0, decide finish.Quiet)) =
      some (.returned 0, some 1, true) := by
    decide +kernel
  have called : (echoMachine.run offering calling).map (fun middle => middle.pending.map
      fun invocation => (invocation.method, invocation.body, invocation.response.isSome)) =
      some [(2, (serializeFields Wire.codec greeting).2, true)] := by
    decide +kernel
  obtain ⟨finish, runs, seen⟩ := Machine.Runs.of_map ran
  simp only [Prod.mk.injEq, decide_eq_true_eq] at seen
  obtain ⟨returned, drew, quiet⟩ := seen
  obtain ⟨middle, reached, pending⟩ := Machine.Runs.of_map called
  have serves : echoMachine.Along (Serves Wire.codec 0) offering
      (calling ++ replying :: returning) := by
    refine (Machine.Along.append reached).mpr ⟨serves_unanswered ?_, ?_,
      fun next _ => serves_unanswered ?_⟩
    · simp [calling]
    · intro invocation found _
      have member := List.mem_map_of_mem (f := fun invocation : Invocation =>
        (invocation.method, invocation.body, invocation.response.isSome))
          (List.mem_of_getElem? found)
      rw [pending, List.mem_singleton, Prod.mk.injEq, Prod.mk.injEq] at member
      obtain ⟨method, body, some_response⟩ := member
      obtain ⟨response, is⟩ := Option.isSome_iff_exists.mp some_response
      refine ⟨some ⟨.echo, greeting⟩, ?_, by rw [is]; rfl⟩
      have echoes : (deserializeFields Wire.codec Server.MsgService.blank
          (serializeFields Wire.codec greeting).2 >>= fun decoded =>
            Server.MsgService.echoed decoded.2) = .ok (some (some ⟨.echo, greeting⟩, false)) := by
        decide +kernel
      rw [Server.MsgService.handle_method_echo method, body, if_pos (by decide)]
      exact echoes
    · simp [returning]
  have ordinary : ∀ n, ¬ (echoCalls n).IsNotify :=
    fun n => show ¬ strcmp methodEcho.bytes methodNotify.bytes = 0 by decide
  exact ⟨finish, runs, echo_returned Wire.codec_lawful (fun _ _ same => same) ordinary
    offering_initial
    (fun _ => rfl) runs (by decide) (by decide +kernel) serves quiet rfl List.prefix_rfl rfl
    (textMsg_terminated 7 _) rfl returned drew⟩

end WireExchange

end Sdpf.Network
