import Sdpf.Network.Settlement.Accounts

/-!
# From place to place

Each move of the client and the server takes a call from one place to the next, or leaves
all calls where they are. `Settling` is what is known of them in between.
-/

namespace Sdpf.Network

open Sdpf.Data Sdpf.Msgpack Sdpf.Channel Sdpf.Semantics Sdpf.Client
open Sdpf.Server (Invocation Completion Handling)

namespace Exchange

variable {codec : Codec} {calls : Nat → Call} {w next start : Exchange}

/-- Everything that is known of a call on its way. -/
structure Settling (codec : Codec) (calls : Nat → Call) (w : Exchange) : Prop
    extends Accounted w, Truthful codec calls w where
  linked : w.Linked codec calls
  outstanding : w.client.Outstanding calls
  callbacks : ∀ n, (w.client.ch.ctrls (calls n).ctrl).done = true
  serving : w.client.ch.serving = false

/-- Before the first call there is nothing to settle. -/
theorem Settling.of_initial (initial : w.Initial)
    (callbacks : ∀ n, (w.client.ch.ctrls (calls n).ctrl).done = true) :
    w.Settling codec calls where
  distinct := by simp [whereabouts, initial.toServer, initial.pending, initial.toClient]
  expected := by simp [whereabouts, initial.toServer, initial.pending, initial.toClient]
  present n id sent := by
    rw [Sent, initial.client.pc] at sent
    cases sent.1
  pending := by simp [initial.pending]
  responses := by simp [initial.toClient]
  answering := by simp [World.answering, initial.client.phase]
  fired := by simp [initial.client.fired]
  linked := .of_initial initial
  outstanding := .of_initial initial.client
  callbacks := callbacks
  serving := initial.client.client

/-- What a step of the client cannot break. -/
theorem Settling.stepClient {action : Action} {client : World} (settling : w.Settling codec calls)
    (transition : w.client.step calls action = some client) :
    client.Outstanding calls ∧ (∀ n, (client.ch.ctrls (calls n).ctrl).done = true) ∧
      client.ch.serving = false := by
  have attributed := settling.linked.attributed
  refine ⟨settling.outstanding.step settling.serving settling.callbacks
    (attributed.unused transition) transition, fun n => ?_,
    World.step_client transition settling.serving⟩
  rw [World.step_done transition]
  exact settling.callbacks n

/-- The calls that have been sent are the same, unless the step is a send. -/
theorem sent_iff {action : Action} {client : World} {n : Nat} {id : UInt32}
    (transition : w.client.step calls action = some client) (other : action ≠ .send n 0) :
    ({ w with client := client } : Exchange).Sent n id ↔ w.Sent n id := by
  constructor
  · intro now
    have before := World.step_unsent transition other now.1
    refine ⟨before, ?_⟩
    rw [← World.step_drawn transition (by simp [before, Pc.Unregistered])]
    exact now.2
  · exact fun before => before.step transition

/-- The client takes a step that sends nothing and takes up no response. -/
theorem Settling.stepSilent {action : Action} {client : World}
    (settling : w.Settling codec calls) (unclosed : action ≠ .close)
    (unanswered : ∀ id code body, action ≠ .respond id code body)
    (unsent : ∀ n, action ≠ .send n 0)
    (linked : ({ w with client := client } : Exchange).Linked codec calls)
    (transition : w.client.step calls action = some client) :
    ({ w with client := client } : Exchange).Settling codec calls := by
  obtain ⟨outstanding, callbacks, serving⟩ := settling.stepClient transition
  have attributed := settling.linked.attributed
  have sent : ∀ n id, ({ w with client := client } : Exchange).Sent n id ↔ w.Sent n id :=
    fun n id => sent_iff transition (unsent n)
  have accounted : ({ w with client := client } : Exchange).Accounted :=
    settling.toAccounted.frame _ .rfl sent fun _ =>
      World.step_served attributed settling.callbacks unclosed unanswered transition
  refine { accounted with
    pending := ?_, responses := ?_, answering := ?_, fired := ?_
    linked := linked, outstanding := outstanding, callbacks := callbacks, serving := serving }
  · intro invocation member
    obtain ⟨n, before, invokes⟩ := settling.pending invocation member
    exact ⟨n, (sent _ _).mpr before, invokes⟩
  · intro packet member
    obtain ⟨n, id, code, text, body, same, before, said⟩ := settling.responses packet member
    exact ⟨n, id, code, text, body, same, (sent _ _).mpr before, said⟩
  · intro answer now
    rcases World.step_answering transition now with before | ⟨responds, _⟩
    · obtain ⟨earlier, said⟩ := settling.answering answer before
      exact ⟨(sent _ _).mpr earlier, said⟩
    · exact absurd responds (unanswered _ _ _)
  · intro firing member
    rcases World.step_completion attributed unclosed transition member with
      before | ⟨answer, now, rfl⟩
    · obtain ⟨id, code, earlier, same, said⟩ := settling.fired firing before
      exact ⟨id, code, (sent _ _).mpr earlier, same, said⟩
    · obtain ⟨earlier, said⟩ := settling.answering answer now
      exact ⟨answer.id, answer.code, (sent _ _).mpr earlier, rfl, said⟩

/-- A request is put on its way. -/
theorem Settling.send {n : Nat} {id : UInt32} {client : World}
    (settling : w.Settling codec calls) (drew : w.client.drawn n = some id)
    (linked : ({ w with client := client, toServer := w.toServer ++ [request codec calls n id] } :
      Exchange).Linked codec calls)
    (transition : w.client.step calls (.send n 0) = some client) :
    ({ w with client := client, toServer := w.toServer ++ [request codec calls n id] } :
      Exchange).Settling codec calls := by
  obtain ⟨outstanding, callbacks, serving⟩ := settling.stepClient transition
  have attributed := settling.linked.attributed
  have served : ∀ m, client.Served m ↔ w.client.Served m := fun m =>
    World.step_served attributed settling.callbacks (by simp) (by simp) transition
  have was : w.client.pc n = .registered ∧ client = w.client.setPc n (.returned 0) := by
    cases World.step_transition transition with
    | sent was connected => exact ⟨was, rfl⟩
    | sendFailed was error => exact absurd rfl error
  have waiting : ¬ w.client.Served n := by
    intro earlier
    obtain ⟨_, sent, _⟩ := settling.sent_of_served earlier
    rw [was.1] at sent
    cases sent
  have now : client.pc n = .returned 0 := by rw [was.2]; simp [World.setPc]
  have drawn : client.drawn = w.client.drawn := by rw [was.2]; rfl
  have onward : ∀ m other, w.Sent m other → client.pc m = .returned 0 ∧
      client.drawn m = some other := fun m other before => before.step transition
  have truthful : ({ w with
      client := client
      toServer := w.toServer ++ [request codec calls n id] } : Exchange).Truthful codec calls := by
    refine settling.toTruthful.frame rfl (fun _ member => member) onward (fun _ member => member)
      (fun _ member => member) ?_ ?_
    · rw [was.2]
      exact fun answer now => now
    · rw [was.2]
      exact fun firing member => member
  have places : ({ w with
      client := client
      toServer := w.toServer ++ [request codec calls n id] } : Exchange).whereabouts.Perm
        (id :: w.whereabouts) := by
    simp only [whereabouts, List.map_append, List.append_assoc]
    exact List.perm_middle
  refine { truthful with
    distinct := ?_, expected := ?_, present := ?_
    linked := linked, outstanding := outstanding, callbacks := callbacks, serving := serving }
  · refine places.nodup_iff.mpr (List.nodup_cons.mpr ⟨fun member => ?_, settling.distinct⟩)
    obtain ⟨m, before, _⟩ := settling.expected id member
    obtain rfl := attributed.distinct _ _ id before.2 drew
    rw [before.1] at was
    cases was.1
  · intro other member
    rcases List.mem_cons.mp (places.subset member) with rfl | earlier
    · exact ⟨n, ⟨now, drawn ▸ drew⟩, mt (served n).mp waiting⟩
    · obtain ⟨m, before, unserved⟩ := settling.expected other earlier
      exact ⟨m, onward m other before, mt (served m).mp unserved⟩
  · intro m other sent unserved
    refine places.symm.subset ?_
    by_cases same : m = n
    · subst same
      have drew' : w.client.drawn m = some other := drawn ▸ sent.2
      rw [drew] at drew'
      cases drew'
      exact List.mem_cons_self
    · refine List.mem_cons_of_mem _ (settling.present m other ⟨?_, drawn ▸ sent.2⟩
        (mt (served m).mpr unserved))
      exact World.step_unsent transition (by rintro ⟨rfl⟩; exact same rfl) sent.1

/-- The server refuses a request. -/
theorem Settling.refuse {packet : Packet} {rest : List Packet} {server : Server.RpcChannel}
    {code : Int32} {text : CharArray 64} (settling : w.Settling codec calls)
    (queue : w.toServer = packet :: rest) (services : server.services = w.server.services)
    (said : Says codec w.server w.answered packet code [])
    (linked : ({ w with
      server := server
      toServer := rest
      toClient := w.toClient ++ [.response (packetId packet) code text []] } :
        Exchange).Linked codec calls) :
    ({ w with
      server := server
      toServer := rest
      toClient := w.toClient ++ [.response (packetId packet) code text []] } :
        Exchange).Settling codec calls := by
  obtain ⟨n, id, sent, rfl⟩ := settling.linked.requests _ (queue ▸ List.mem_cons_self)
  have taken : ({ w with server := server, toServer := rest } : Exchange).Truthful codec calls :=
    settling.toTruthful.frame services (fun _ member => member) (fun _ _ sent => sent)
      (fun _ member => member) (fun _ member => member) (fun _ now => now) (fun _ member => member)
  have accounted := settling.toAccounted.frame { w with
      server := server
      toServer := rest
      toClient := w.toClient ++ [.response id code text []] }
    (by
      simp only [whereabouts, queue, List.map_append, List.map_cons, List.map_nil]
      rw [← List.append_assoc]
      exact List.perm_append_singleton _ _)
    (fun _ _ => .rfl) (fun _ => .rfl)
  refine { accounted, taken with
    responses := ?_
    linked := linked, outstanding := settling.outstanding
    callbacks := settling.callbacks, serving := settling.serving }
  intro other member
  rcases List.mem_append.mp member with before | added
  · exact taken.responses other before
  · exact ⟨n, id, code, text, [], List.mem_singleton.mp added, sent,
      said.congr services fun _ member => member⟩

/-- The server invokes a method. -/
theorem Settling.invoke {packet : Packet} {rest : List Packet} {server : Server.RpcChannel}
    {invocation : Invocation} (settling : w.Settling codec calls)
    (queue : w.toServer = packet :: rest) (services : server.services = w.server.services)
    (invokes : Invokes w.server packet invocation) (same : invocation.id = packetId packet)
    (linked : ({ w with
      server := server
      toServer := rest
      pending := w.pending ++ [invocation]
      invoked := w.invoked ++ [invocation] } : Exchange).Linked codec calls) :
    ({ w with
      server := server
      toServer := rest
      pending := w.pending ++ [invocation]
      invoked := w.invoked ++ [invocation] } : Exchange).Settling codec calls := by
  obtain ⟨n, id, sent, rfl⟩ := settling.linked.requests _ (queue ▸ List.mem_cons_self)
  have own : invocation.id = id := same
  have taken : ({ w with server := server, toServer := rest } : Exchange).Truthful codec calls :=
    settling.toTruthful.frame services (fun _ member => member) (fun _ _ sent => sent)
      (fun _ member => member) (fun _ member => member) (fun _ now => now) (fun _ member => member)
  have accounted := settling.toAccounted.frame { w with
      server := server
      toServer := rest
      pending := w.pending ++ [invocation]
      invoked := w.invoked ++ [invocation] }
    (by
      simp only [whereabouts, queue, List.map_append, List.map_cons, List.map_nil, same,
        List.append_assoc, List.cons_append, List.nil_append]
      rw [← List.append_assoc, ← List.append_assoc (rest.map packetId)]
      exact List.perm_middle)
    (fun _ _ => .rfl) (fun _ => .rfl)
  refine { accounted, taken with
    pending := ?_
    linked := linked, outstanding := settling.outstanding
    callbacks := settling.callbacks, serving := settling.serving }
  intro other member
  rcases List.mem_append.mp member with before | added
  · exact taken.pending other before
  · obtain rfl := List.mem_singleton.mp added
    rw [own]
    exact ⟨n, sent, invokes.congr services⟩

/-- A method is done, and its answer is put on its way. -/
theorem Settling.answer {k : Nat} {completion : Completion} {text : CharArray 64}
    (settling : w.Settling codec calls) (found : w.pending[k]? = some completion.invocation)
    (linked : ({ w with
      pending := w.pending.eraseIdx k
      answered := w.answered ++ [completion]
      toClient := w.toClient ++ [.response completion.invocation.id
        (if completion.failed then Server.emethodcall else 0) text
        (completion.outgoing.body codec)] } : Exchange).Linked codec calls) :
    ({ w with
      pending := w.pending.eraseIdx k
      answered := w.answered ++ [completion]
      toClient := w.toClient ++ [.response completion.invocation.id
        (if completion.failed then Server.emethodcall else 0) text
        (completion.outgoing.body codec)] } : Exchange).Settling codec calls := by
  obtain ⟨within, here⟩ := List.getElem?_eq_some_iff.mp found
  obtain ⟨n, sent, invokes⟩ := settling.pending _ (List.mem_of_getElem? found)
  have taken : ({ w with
      pending := w.pending.eraseIdx k
      answered := w.answered ++ [completion] } : Exchange).Truthful codec calls :=
    settling.toTruthful.frame rfl (List.subset_append_left _ _) (fun _ _ sent => sent)
      (fun _ => List.mem_of_mem_eraseIdx) (fun _ member => member) (fun _ now => now)
      (fun _ member => member)
  have places : (completion.invocation.id :: (w.pending.eraseIdx k).map Invocation.id).Perm
      (w.pending.map Invocation.id) := by
    have whole := (List.getElem_cons_eraseIdx_perm within).map Invocation.id
    rwa [here, List.map_cons] at whole
  have accounted := settling.toAccounted.frame { w with
      pending := w.pending.eraseIdx k
      answered := w.answered ++ [completion]
      toClient := w.toClient ++ [.response completion.invocation.id
        (if completion.failed then Server.emethodcall else 0) text
        (completion.outgoing.body codec)] }
    (by
      simp only [whereabouts, List.map_append, List.map_cons, List.map_nil]
      rw [← List.append_assoc]
      refine (List.perm_append_singleton _ _).trans ?_
      rw [← List.cons_append]
      refine List.Perm.append_right _ (List.perm_middle.symm.trans ?_)
      exact places.append_left _)
    (fun _ _ => .rfl) (fun _ => .rfl)
  refine { accounted, taken with
    responses := ?_
    linked := linked, outstanding := settling.outstanding
    callbacks := settling.callbacks, serving := settling.serving }
  intro other member
  rcases List.mem_append.mp member with before | added
  · exact taken.responses other before
  · exact ⟨n, _, _, text, _, List.mem_singleton.mp added, sent,
      .answered invokes (List.mem_append_right _ (List.mem_singleton_self _))⟩

/-- The client takes up a response, which finds its call. -/
theorem Settling.deliver {id : UInt32} {code : Int32} {text : CharArray 64} {body : List UInt8}
    {rest : List Packet} {client : World} (settling : w.Settling codec calls)
    (queue : w.toClient = .response id code text body :: rest)
    (linked : ({ w with client := client, toClient := rest } : Exchange).Linked codec calls)
    (transition : w.client.step calls (.respond id code body) = some client) :
    ({ w with client := client, toClient := rest } : Exchange).Settling codec calls := by
  obtain ⟨outstanding, callbacks, serving⟩ := settling.stepClient transition
  have attributed := settling.linked.attributed
  have places : w.whereabouts.Perm
      (id :: ({ w with client := client, toClient := rest } : Exchange).whereabouts) := by
    simp only [whereabouts, queue, List.map_cons]
    exact List.perm_middle
  obtain ⟨absent, distinct⟩ := List.nodup_cons.mp (places.nodup_iff.mp settling.distinct)
  obtain ⟨n, sent, unserved⟩ := settling.expected id (places.symm.subset List.mem_cons_self)
  obtain ⟨other, stored, drew, _⟩ :=
    (settling.outstanding.kept n (.inr sent.1)).resolve_left unserved
  obtain rfl : id = other := Option.some.inj (sent.2.symm.trans drew)
  have responded := fun m => World.respond_served (m := m) attributed sent.2 stored transition
  have sentIff : ∀ m other,
      ({ w with client := client, toClient := rest } : Exchange).Sent m other ↔ w.Sent m other :=
    fun m other => sent_iff transition (by simp)
  obtain ⟨k, own, theirCode, theirText, theirBody, same, earlier, said⟩ :=
    settling.responses _ (queue ▸ List.mem_cons_self)
  cases same
  obtain rfl := attributed.distinct k n id earlier.2 sent.2
  refine ⟨⟨distinct, ?_, ?_⟩, ⟨?_, ?_, ?_, ?_⟩, linked, outstanding, callbacks, serving⟩
  · intro other member
    obtain ⟨m, before, waiting⟩ := settling.expected other
      (places.symm.subset (List.mem_cons_of_mem _ member))
    refine ⟨m, (sentIff m other).mpr before, fun now => ?_⟩
    rcases (responded m).1.mp now with earlier | rfl
    · exact waiting earlier
    · obtain rfl : id = other := Option.some.inj (sent.2.symm.trans before.2)
      exact absent member
  · intro m other now waiting
    have before := (sentIff m other).mp now
    rw [(responded m).1, not_or] at waiting
    rcases List.mem_cons.mp (places.subset (settling.present m other before waiting.1)) with
      rfl | member
    · exact absurd (attributed.distinct m k other before.2 sent.2) waiting.2
    · exact member
  · intro invocation member
    obtain ⟨m, before, invokes⟩ := settling.pending invocation member
    exact ⟨m, (sentIff _ _).mpr before, invokes⟩
  · intro packet member
    obtain ⟨m, other, code, text, body, same, before, said⟩ :=
      settling.responses packet (queue ▸ List.mem_cons_of_mem _ member)
    exact ⟨m, other, code, text, body, same, (sentIff _ _).mpr before, said⟩
  · intro answer now
    rw [(responded k).2] at now
    cases now
    exact ⟨(sentIff _ _).mpr sent, said⟩
  · intro firing member
    rcases World.step_completion attributed (by simp) transition member with
      before | ⟨answer, now, rfl⟩
    · obtain ⟨other, code, earlier, same, said⟩ := settling.fired firing before
      exact ⟨other, code, (sentIff _ _).mpr earlier, same, said⟩
    · obtain ⟨earlier, said⟩ := settling.answering answer now
      exact ⟨answer.id, answer.code, (sentIff _ _).mpr earlier, rfl, said⟩

/-- A packet that has been sent is on its way. -/
theorem transmit_sent {conn : Int} {out : Outgoing} (sent : (transmit codec conn out).1 = 0) :
    (transmit codec conn out).2 = [out.packet codec] := if_pos sent

/-- A refusal is built and handed over. -/
theorem transmit_refusal (law : codec.Lawful) (id : UInt32) (ec : Int32) :
    (transmit codec 0 (.response id ec none)).1 = 0 := by
  obtain ⟨pb, packed, _⟩ := packMeta_packed law (.response id ec none)
  have built : buildPacket codec (Outgoing.response id ec none).metaRpc none = .ok pb := by
    simp only [buildPacket, packed, bind, Except.bind, packBody]
  simp [transmit, sendPacket, Outgoing.msg, built]

/-- A move leaves every sent call in exactly one of its places. -/
theorem Settling.step {move : Move} (settling : w.Settling codec calls) (law : codec.Lawful)
    (apart : Function.Injective fun n => (calls n).ctrl)
    (ordinary : ∀ n, ¬ (calls n).IsNotify) (unwrapped : w.Unwrapped move)
    (answers : w.Answers codec move) (transition : w.step codec calls move = some next) :
    next.Settling codec calls := by
  have linked := settling.linked.step apart ordinary unwrapped transition
  cases move with
  | call action =>
      simp only [Exchange.step] at transition
      split_ifs at transition with here
      obtain ⟨client, moved, rfl⟩ := Option.map_eq_some_iff.mp transition
      exact settling.stepSilent (by rintro rfl; cases here) (by rintro _ _ _ rfl; cases here)
        (by rintro _ rfl; cases here) linked moved
  | send n conn =>
      simp only [Exchange.step] at transition
      cases drew : w.client.drawn n with
      | none => simp [drew] at transition
      | some id =>
          simp only [drew] at transition
          obtain ⟨client, moved, rfl⟩ := Option.map_eq_some_iff.mp transition
          by_cases sent : (transmit codec conn (outgoing (calls n) id)).1 = 0
          · rw [transmit_sent sent] at linked ⊢
            rw [sent] at moved
            exact settling.send drew linked moved
          · have nothing : (transmit codec conn (outgoing (calls n) id)).2 = [] := if_neg sent
            rw [nothing, List.append_nil] at linked ⊢
            exact settling.stepSilent (by simp) (by simp)
              (fun m same => sent (by injection same)) linked moved
  | serve allocated conn =>
      obtain rfl : conn = 0 := answers
      simp only [Exchange.step] at transition
      split at transition
      · next id service method body rest queue =>
          have services := processRequest_services w.server allocated id service.text
            method.text body
          split at transition
          · next ec refused =>
              cases transition
              rw [transmit_sent (transmit_refusal law id ec)] at linked ⊢
              exact settling.refuse queue services (.refused refused) linked
          · next registered =>
              obtain ⟨n, own, sent, same⟩ := settling.linked.requests _ (queue ▸ List.mem_cons_self)
              cases same
              exact absurd registered (request_ordinary (ordinary n))
          · next invocation invoked =>
              cases transition
              exact settling.invoke queue services (.intro invoked)
                (Server.RpcChannel.processRequest_invoked invoked).1 linked
      · cases transition
  | answer k filled failed conn =>
      simp only [Exchange.step] at transition
      split at transition
      · cases transition
      · next invocation found =>
          cases transition
          rw [transmit_sent (answers invocation found)] at linked ⊢
          exact settling.answer found linked
  | deliver =>
      simp only [Exchange.step] at transition
      split at transition
      · next id code text body rest queue =>
          obtain ⟨client, moved, rfl⟩ := Option.map_eq_some_iff.mp transition
          exact settling.deliver queue linked moved
      · cases transition

end Exchange

end Sdpf.Network
