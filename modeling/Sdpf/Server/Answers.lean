import Sdpf.Server.Request
import Sdpf.Data.Search
import Sdpf.Channel.Responses
import Sdpf.Semantics.Machine

/-!
# The answers of a server channel

A request is answered by `process_request` itself when it is refused, and by `done` when
the method it invokes has run its callback, at once or later. `send_resp` cannot tell
either of them that a message failed to serialise, and logs it: such a request stays
without an answer. Nobody notices a message that returns more than the space it is offered
either: its header announces a body that is not there. All other requests are answered once
(`answered_iff`).

The connection is open and has room. Requests are numbered as they come; the machine
remembers what `send_resp` was called with for each.
-/

namespace Sdpf.Server

open Sdpf.Data Sdpf.Buffer Sdpf.Msgpack Sdpf.Channel Sdpf.Semantics

/-- A request packet, and whether there is memory for a controller. -/
structure Request where
  allocated : Bool
  id : UInt32
  service : CStr
  method : CStr
  body : List UInt8

/-- The method is "notify" and the body is empty. -/
def Request.RegistersNotify (request : Request) : Prop :=
  strcmp request.method.bytes methodNotify.bytes = 0 ∧ request.body.length = 0

/-- The arguments of `send_resp`. -/
structure Answer where
  id : UInt32
  code : Int32
  response : Option AnyMessage
  /-- A stage before `send_resp` has failed. -/
  failed : Bool

/-- A server channel and the methods that have not called `done`. -/
structure Serving where
  ch : RpcChannel
  requests : List Request
  pending : AList fun _ : Nat => Invocation
  given : AList fun _ : Nat => Answer
  /-- The buffers handed to the connection, with the numbers of their requests. -/
  handed : List (Nat × IOBuf)

/-- What happens to a server channel. -/
inductive Event where
  | request (request : Request)
  /-- A method calls `done`; its controller has this message and may have failed. -/
  | done (number : Nat) (response : Option AnyMessage) (failed : Bool)

section Step

variable (codec : Codec)

/-- The buffer `send_packet` hands over, if it builds one. -/
def Answer.packets (answer : Answer) : List IOBuf :=
  match buildAny codec (responseMeta answer.id answer.code) answer.response with
  | .ok pb => [pb]
  | .error _ => []

namespace Serving

/-- `send_resp`. -/
def sendResp (s : Serving) (number : Nat) (answer : Answer) : Serving :=
  { s with
    given := s.given.insert number answer
    handed := s.handed ++ (answer.packets codec).map (Prod.mk number) }

/-- Take a step, if it is enabled. -/
def step (s : Serving) : Event → Option Serving
  | .request r =>
      let number := s.requests.length
      let handled := s.ch.processRequest r.allocated r.id r.service r.method r.body
      let s := { s with ch := handled.2, requests := s.requests ++ [r] }
      match handled.1 with
      | .refused ec => some (s.sendResp codec number ⟨r.id, ec, none, true⟩)
      | .registered => some s
      | .invoked invocation =>
          some { s with pending := s.pending.insert number invocation }
  | .done number response failed =>
      match s.pending.lookup number with
      | none => none
      | some invocation =>
          let s := { s with pending := s.pending.erase number }
          some (s.sendResp codec number
            ⟨invocation.id, if failed then emethodcall else 0, response, failed⟩)

/-- Before the first request. -/
structure Initial (s : Serving) : Prop where
  requests : s.requests = []
  pending : s.pending = ∅
  given : s.given = ∅
  handed : s.handed = []

/-- The buffers handed over for one request. -/
def handedFor (s : Serving) (number : Nat) : List IOBuf :=
  (s.handed.filter fun entry => entry.1 = number).map Prod.snd

/-- The service or method lookup, the decoding of the request, the method, or the
serialisation of the response has failed. -/
def StageFailed (s : Serving) (number : Nat) : Prop :=
  ∃ answer, s.given.lookup number = some answer ∧
    (answer.failed = true ∨
      ¬ Serializes codec (responseMeta answer.id answer.code) answer.response)

/-- Exactly one buffer has been handed over, a response packet with the request's id, with a
non-zero code if a stage has failed. -/
def AnsweredOnce (s : Serving) (number : Nat) (id : UInt32) : Prop :=
  ∃ pb code, s.handedFor number = [pb] ∧ ResponseFrame codec id code pb.readable ∧
    (s.StageFailed codec number → code ≠ 0)

/-- The response to a request, if it has one, keeps to the space it is offered; or the method
has failed, and the response claims a multiple of 65536 bytes. -/
def ResponseSendable (s : Serving) (number : Nat) : Prop :=
  ∀ answer ∈ s.given.lookup number,
    Serializes codec (responseMeta answer.id answer.code) answer.response ∨
      answer.failed = true ∧ Vanishes codec (responseMeta answer.id answer.code) answer.response

end Serving

/-- The machine of all server channels. -/
def servingMachine : Machine Serving Event where
  Initial := Serving.Initial
  step := Serving.step codec

end Step

namespace RpcChannel

variable {ch : RpcChannel} {allocated : Bool} {id : UInt32} {service method : CStr}
  {body : List UInt8}

/-- A request is refused with an error. -/
theorem processRequest_refused {ec : Int32}
    (refused : (ch.processRequest allocated id service method body).1 = .refused ec) : ec ≠ 0 := by
  unfold processRequest at refused
  split at refused
  · cases refused
    decide
  · simp only at refused
    split_ifs at refused <;> cases refused <;> decide

/-- What is registered is a notification. -/
theorem processRequest_registered
    (registered : (ch.processRequest allocated id service method body).1 = .registered) :
    Request.RegistersNotify ⟨allocated, id, service, method, body⟩ := by
  unfold processRequest at registered
  split at registered
  · cases registered
  · simp only at registered
    split_ifs at registered with _ notify
    exact notify

end RpcChannel

namespace Serving

variable {codec : Codec} {s next : Serving}

/-- Pending methods and answers belong to requests, and what was handed over is what the
answers came to. -/
structure Orderly (codec : Codec) (s : Serving) : Prop where
  pending : ∀ n invocation, s.pending.lookup n = some invocation →
    n ∉ s.given ∧ ∃ r, s.requests[n]? = some r ∧ r.id = invocation.id
  given : ∀ n answer, s.given.lookup n = some answer →
    (∃ r, s.requests[n]? = some r ∧ r.id = answer.id) ∧ (answer.failed = true ↔ answer.code ≠ 0)
  handed : ∀ n, s.handedFor n = (s.given.lookup n).elim [] (Answer.packets codec)

/-- Every request but a registration is pending or has been given its answer. -/
def Kept (s : Serving) : Prop :=
  ∀ (n : Nat) r, s.requests[n]? = some r → ¬ r.RegistersNotify → n ∈ s.pending ∨ n ∈ s.given

/-- The buffers of one request among those of another. -/
theorem filter_numbered (packets : List IOBuf) (number n : Nat) :
    ((packets.map (Prod.mk number)).filter fun entry => entry.1 = n).map Prod.snd =
      if n = number then packets else [] := by
  induction packets with
  | nil => simp
  | cons pb rest ih =>
      rw [List.map_cons, List.filter_cons]
      by_cases same : n = number
      · simp only [same, if_true] at ih ⊢
        simp [ih]
      · simp only [if_neg same] at ih ⊢
        simp [Ne.symm same, ih]

namespace Orderly

/-- Before the first request nothing has been answered. -/
theorem of_initial (initial : s.Initial) : Orderly codec s where
  pending n invocation stored := by simp [initial.pending] at stored
  given n answer stored := by simp [initial.given] at stored
  handed n := by simp [handedFor, initial.handed, initial.given]

/-- A number that no request has is neither pending nor answered. -/
theorem absent (orderly : Orderly codec s) {n : Nat} (beyond : s.requests.length ≤ n) :
    n ∉ s.pending ∧ n ∉ s.given := by
  have nobody : s.requests[n]? = none := List.getElem?_eq_none beyond
  constructor
  · intro member
    obtain ⟨invocation, stored⟩ := Option.isSome_iff_exists.mp (AList.lookup_isSome.mpr member)
    obtain ⟨_, r, asked, _⟩ := orderly.pending n invocation stored
    rw [nobody] at asked
    cases asked
  · intro member
    obtain ⟨answer, stored⟩ := Option.isSome_iff_exists.mp (AList.lookup_isSome.mpr member)
    obtain ⟨⟨r, asked, _⟩, _⟩ := orderly.given n answer stored
    rw [nobody] at asked
    cases asked

/-- Another request has come. -/
theorem arrive (orderly : Orderly codec s) (r : Request) (ch : RpcChannel) :
    Orderly codec { s with ch := ch, requests := s.requests ++ [r] } := by
  have still : ∀ {n : Nat} {other}, s.requests[n]? = some other →
      (s.requests ++ [r])[n]? = some other := fun asked => by
    rw [List.getElem?_append_left (List.getElem?_eq_some_iff.mp asked).1, asked]
  refine ⟨fun n invocation stored => ?_, fun n answer stored => ?_, orderly.handed⟩
  · obtain ⟨fresh, other, asked, same⟩ := orderly.pending n invocation stored
    exact ⟨fresh, other, still asked, same⟩
  · obtain ⟨⟨other, asked, same⟩, nonzero⟩ := orderly.given n answer stored
    exact ⟨⟨other, still asked, same⟩, nonzero⟩

/-- A request that was waiting for it is given its answer. -/
theorem sendResp (orderly : Orderly codec s) {number : Nat} {answer : Answer} {r : Request}
    (idle : number ∉ s.pending) (fresh : number ∉ s.given)
    (asked : s.requests[number]? = some r) (same : r.id = answer.id)
    (nonzero : answer.failed = true ↔ answer.code ≠ 0) :
    Orderly codec (s.sendResp codec number answer) := by
  refine ⟨fun n invocation stored => ?_, fun n other stored => ?_, fun n => ?_⟩
  · obtain ⟨unanswered, belongs⟩ := orderly.pending n invocation stored
    refine ⟨fun member => ?_, belongs⟩
    rcases (AList.mem_insert _).mp member with rfl | before
    · exact idle (AList.lookup_isSome.mp (Option.isSome_iff_exists.mpr ⟨invocation, stored⟩))
    · exact unanswered before
  · simp only [Serving.sendResp, lookup_insert] at stored
    split_ifs at stored with here
    · cases stored
      exact ⟨⟨r, by rw [here]; exact asked, same⟩, nonzero⟩
    · exact orderly.given n other stored
  · have before := orderly.handed n
    simp only [handedFor] at before
    simp only [handedFor, Serving.sendResp, List.filter_append, List.map_append, before,
      lookup_insert, filter_numbered]
    split_ifs with here
    · rw [here, AList.lookup_eq_none.mpr fresh]
      rfl
    · exact List.append_nil _

/-- The action of a step on the table of methods and answers. -/
theorem step {event : Event} (orderly : Orderly codec s)
    (transition : s.step codec event = some next) : Orderly codec next := by
  cases event with
  | request r =>
      have arrived := orderly.arrive r
        (s.ch.processRequest r.allocated r.id r.service r.method r.body).2
      obtain ⟨idle, fresh⟩ := orderly.absent (Nat.le_refl _)
      have asked : (s.requests ++ [r])[s.requests.length]? = some r := by simp
      simp only [Serving.step] at transition
      cases handled : (s.ch.processRequest r.allocated r.id r.service r.method r.body).1 with
      | refused ec =>
          simp only [handled, Option.some.injEq] at transition
          rw [← transition]
          exact arrived.sendResp idle fresh asked rfl
            (iff_of_true rfl (RpcChannel.processRequest_refused handled))
      | registered =>
          simp only [handled, Option.some.injEq] at transition
          rw [← transition]
          exact arrived
      | invoked invocation =>
          simp only [handled, Option.some.injEq] at transition
          rw [← transition]
          refine ⟨fun n other stored => ?_, arrived.given, arrived.handed⟩
          rw [lookup_insert] at stored
          split_ifs at stored with here
          · cases stored
            subst here
            exact ⟨fresh, r, asked, (RpcChannel.processRequest_invoked handled).1.symm⟩
          · exact arrived.pending n other stored
  | done number response failed =>
      simp only [Serving.step] at transition
      split at transition
      · cases transition
      · next invocation stored =>
          cases transition
          obtain ⟨fresh, r, asked, same⟩ := orderly.pending number invocation stored
          have taken : Orderly codec { s with pending := s.pending.erase number } := by
            refine ⟨fun n other still => ?_, orderly.given, orderly.handed⟩
            rw [lookup_erase] at still
            split_ifs at still
            exact orderly.pending n other still
          refine taken.sendResp (fun member => ?_) fresh asked same ?_
          · exact (AList.mem_erase.mp member).1 rfl
          · cases failed
            · exact iff_of_false (by simp) (by simp)
            · exact iff_of_true rfl (by decide : emethodcall ≠ 0)

end Orderly

/-- A step leaves no request aside. -/
theorem Kept.step {event : Event} (kept : s.Kept)
    (transition : s.step codec event = some next) : next.Kept := by
  -- an answer that is given now does not take another's place
  have grows : ∀ {s : Serving} {number : Nat} {answer : Answer},
      (∀ (n : Nat) r, s.requests[n]? = some r → ¬ r.RegistersNotify →
        n = number ∨ n ∈ s.pending ∨ n ∈ s.given) →
      (s.sendResp codec number answer).Kept := by
    intro s number answer others n r asked ordinary
    rcases others n r asked ordinary with here | pending | given
    · exact .inr ((AList.mem_insert _).mpr (.inl here))
    · exact .inl pending
    · exact .inr ((AList.mem_insert _).mpr (.inr given))
  cases event with
  | request r =>
      have before : ∀ (n : Nat) other, (s.requests ++ [r])[n]? = some other →
          ¬ other.RegistersNotify →
          (n = s.requests.length ∧ other = r) ∨ n ∈ s.pending ∨ n ∈ s.given := by
        intro n other asked ordinary
        rcases Nat.lt_trichotomy n s.requests.length with earlier | here | later
        · rw [List.getElem?_append_left earlier] at asked
          exact .inr (kept n other asked ordinary)
        · subst here
          rw [List.getElem?_concat_length] at asked
          exact .inl ⟨rfl, (Option.some.inj asked).symm⟩
        · rw [List.getElem?_eq_none (by rw [List.length_append, List.length_singleton]; omega)]
            at asked
          cases asked
      simp only [Serving.step] at transition
      cases handled : (s.ch.processRequest r.allocated r.id r.service r.method r.body).1 with
      | refused ec =>
          simp only [handled, Option.some.injEq] at transition
          rw [← transition]
          exact grows fun n other asked ordinary =>
            (before n other asked ordinary).imp_left fun here => here.1
      | registered =>
          simp only [handled, Option.some.injEq] at transition
          rw [← transition]
          intro n other asked ordinary
          rcases before n other asked ordinary with ⟨_, rfl⟩ | still
          · exact absurd (RpcChannel.processRequest_registered handled) ordinary
          · exact still
      | invoked invocation =>
          simp only [handled, Option.some.injEq] at transition
          rw [← transition]
          intro n other asked ordinary
          rcases before n other asked ordinary with ⟨here, _⟩ | pending | given
          · exact .inl ((AList.mem_insert _).mpr (.inl here))
          · exact .inl ((AList.mem_insert _).mpr (.inr pending))
          · exact .inr given
  | done number response failed =>
      simp only [Serving.step] at transition
      split at transition
      · cases transition
      · cases transition
        refine grows fun n r asked ordinary => ?_
        by_cases here : n = number
        · exact .inl here
        · exact .inr ((kept n r asked ordinary).imp_left fun pending =>
            AList.mem_erase.mpr ⟨here, pending⟩)

/-- What was handed over for an answer that was given is one response packet exactly if the
response of the answer can be sent. -/
theorem Orderly.answeredOnce_iff (orderly : Orderly codec s) (law : codec.Lawful) {number : Nat}
    {answer : Answer} (stored : s.given.lookup number = some answer) :
    s.AnsweredOnce codec number answer.id ↔ s.ResponseSendable codec number := by
  obtain ⟨_, nonzero⟩ := orderly.given number answer stored
  have handed := orderly.handed number
  rw [stored, Option.elim_some] at handed
  have stage : s.StageFailed codec number ↔ answer.failed = true ∨
      ¬ Serializes codec (responseMeta answer.id answer.code) answer.response := by
    simp [StageFailed, stored]
  have sendable : s.ResponseSendable codec number ↔
      Serializes codec (responseMeta answer.id answer.code) answer.response ∨
        answer.failed = true ∧
          Vanishes codec (responseMeta answer.id answer.code) answer.response := by
    simp [ResponseSendable, stored]
  rw [sendable]
  constructor
  · rintro ⟨pb, code, once, frame, failed⟩
    rw [once, Answer.packets] at handed
    cases built : buildAny codec (responseMeta answer.id answer.code) answer.response with
    | error ret =>
        rw [built] at handed
        cases handed
    | ok other =>
        rw [built] at handed
        cases handed
        obtain ⟨sent, _, rfl⟩ := (buildAny_response_iff law).mp ⟨pb, built, frame⟩
        by_cases serializes :
            Serializes codec (responseMeta answer.id answer.code) answer.response
        · exact .inl serializes
        · -- a code that is not zero was given because the method had failed
          exact .inr ⟨nonzero.mpr (failed (stage.mpr (.inr serializes))),
            sent.resolve_left serializes⟩
  · intro sent
    obtain ⟨pb, built, frame⟩ := (buildAny_response_iff law).mpr
      ⟨sent.imp_right And.right, rfl, rfl⟩
    refine ⟨pb, answer.code, by rw [handed, Answer.packets, built], frame, fun failed => ?_⟩
    rcases stage.mp failed with earlier | unserialized
    · exact nonzero.mp earlier
    · exact nonzero.mp (sent.resolve_left unserialized).1

/-- A request that registers nothing is answered exactly once, after its method has called
`done`, if and only if its response can be sent. -/
theorem answered_iff (law : codec.Lawful) (reachable : (servingMachine codec).Reachable s)
    {number : Nat} {r : Request} (asked : s.requests[number]? = some r)
    (ordinary : ¬ r.RegistersNotify) (settled : number ∉ s.pending) :
    s.AnsweredOnce codec number r.id ↔ s.ResponseSendable codec number := by
  have orderly := reachable.invariant (Orderly codec) (fun _ => Orderly.of_initial)
    fun orderly transition => orderly.step transition
  have kept := reachable.invariant Kept
    (fun start initial n other stored => by
      rw [initial.requests] at stored
      cases stored)
    fun kept transition => kept.step transition
  have given := (kept number r asked ordinary).resolve_left settled
  obtain ⟨answer, stored⟩ := Option.isSome_iff_exists.mp (AList.lookup_isSome.mpr given)
  obtain ⟨⟨other, same, sameId⟩, _⟩ := orderly.given number answer stored
  rw [asked] at same
  cases same
  rw [sameId]
  exact orderly.answeredOnce_iff law stored

/-- A server with one service, named "a", that has every method. -/
private def waiting : Serving where
  ch := ⟨[⟨CStr.ofBlock [0x61], fun _ => 0, fun _ => none, fun _ => none⟩], ∅⟩
  requests := []
  pending := ∅
  given := ∅
  handed := []

/-- A request for a method of the given service. -/
private def requestTo (service : CStr) : Request := ⟨true, 5, service, CStr.ofBlock [0x6d], []⟩

/-- The request registers nothing. -/
private theorem requestTo_ordinary (service : CStr) : ¬ (requestTo service).RegistersNotify :=
  fun notify => (by decide : strcmp [0x6d] methodNotify.bytes ≠ 0) notify.1

/-- While a method is at work on its request, another request is refused; then the method
answers with a message of one byte. -/
private def refusedMeanwhile : List Event :=
  [.request (requestTo (CStr.ofBlock [0x61])), .request (requestTo (CStr.ofBlock [0x62])),
    .done 0 (some (RpcMessage.byte 7).any) false]

/-- The request whose method has called `done` is answered once. -/
theorem answered_done :
    ∃ s, (servingMachine Wire.codec).Runs waiting refusedMeanwhile s ∧
      s.handed.map Prod.fst = [1, 0] ∧ s.AnsweredOnce Wire.codec 0 5 := by
  have runs : (servingMachine Wire.codec).Runs waiting refusedMeanwhile _ := .of_run rfl
  refine ⟨_, runs, by decide +kernel, (answered_iff Wire.codec_lawful
    ⟨_, _, ⟨rfl, rfl, rfl, rfl⟩, runs⟩ rfl (requestTo_ordinary _) (by decide)).mpr ?_⟩
  intro answer stored
  rw [show answer = ⟨5, 0, some (RpcMessage.byte 7).any, false⟩ from (Option.some.inj stored).symm]
  exact .inl fun msg is => by
    cases is
    decide +kernel

/-- A message that cannot be serialised. -/
private def mute : AnyMessage where
  serialize _ := (-1, [])
  within _ := Nat.zero_le _

/-- A method whose response returns -1 from `serialize` has called `done`, and nothing was
sent. -/
theorem not_answered :
    ¬ ∀ s, (servingMachine Wire.codec).Reachable s → ∀ (number : Nat) r,
      s.requests[number]? = some r → ¬ r.RegistersNotify → number ∉ s.pending →
      s.AnsweredOnce Wire.codec number r.id := by
  intro answered
  have executed : ((servingMachine Wire.codec).run waiting
      [.request (requestTo (CStr.ofBlock [0x61])), .done 0 (some mute) false]).map
      (fun s => (s.requests.map Request.method, decide (0 ∈ s.pending), (s.handedFor 0).length)) =
      some ([CStr.ofBlock [0x6d]], false, 0) := by decide +kernel
  obtain ⟨s, runs, seen⟩ := Machine.Runs.of_map executed
  simp only [Prod.mk.injEq, decide_eq_false_iff_not] at seen
  obtain ⟨asked, settled, nothing⟩ := seen
  cases requests : s.requests with
  | nil =>
      rw [requests] at asked
      cases asked
  | cons r rest =>
      rw [requests, List.map_cons] at asked
      have method := (List.cons.inj asked).1
      obtain ⟨pb, code, once, _⟩ := answered s ⟨_, _, ⟨rfl, rfl, rfl, rfl⟩, runs⟩ 0 r
        (by rw [requests]; rfl) (fun notify => absurd notify.1 (by rw [method]; decide)) settled
      rw [once] at nothing
      cases nothing

end Serving

end Sdpf.Server
