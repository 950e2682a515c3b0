import Sdpf.Network.Settlement
import Sdpf.Semantics.Progress

/-!
# Calls can always be settled

From every state that a run without losses reaches, the parties can finish what has been
begun: as long as something is on its way there is a step of the server or of the loop
thread of the client, and each brings the end nearer. No call is left hanging, and no new
one is needed.
-/

namespace Sdpf.Network

open Sdpf.Data Sdpf.Buffer Sdpf.Msgpack Sdpf.Channel Sdpf.Semantics Sdpf.Client
open Sdpf.Server (Invocation Completion Handling)

/-- The server or the loop thread of the client goes on with what has been begun. -/
def Passage.Finishes : Passage → Prop
  | .party (.serve _ _) | .party (.answer _ _ _ _) | .party .deliver => True
  | .party (.call .inspect) | .party (.call .complete) | .party (.call .remark) => True
  | _ => False

namespace Exchange

/-- The steps left for the response that is being processed. -/
def remaining (w : Exchange) : Nat :=
  match w.client.phase with
  | .idle => 0
  | .found _ => 3
  | .inspected _ _ => 2
  | .completed _ _ => 1

/-- How much there is left to do. -/
def rank (w : Exchange) : Nat :=
  6 * w.toServer.length + 5 * w.pending.length + 4 * w.toClient.length + w.remaining

variable {codec : Codec} {calls : Nat → Call} {w next start : Exchange}

/-- There is always room for the answer of one byte. -/
theorem transmit_byte (law : codec.Lawful) (id : UInt32) (code : Int32)
    (response : Option RpcMessage) (byte : UInt8) :
    (transmit codec 0 (.response id code (response.map fun _ => .byte byte))).1 = 0 := by
  obtain ⟨pb, packed, front⟩ := packMeta_packed law (.response id code none)
  obtain ⟨_, few⟩ := length_metaBytes law (.response id code none)
  have length := (sentHeader_accepted (Outgoing.response id code none).metaRpc.type
    ((Outgoing.response id code none).metaBytes codec).length 0).length_encode
  have room := front.writableBytes
  rw [List.length_append, length] at room
  have offered : pb.writableBytes ≠ 0 := by
    rw [room]
    unfold IOBuf.initialSize HeaderPacket.size
    omega
  have same : (Outgoing.response id code (response.map fun _ => RpcMessage.byte byte)).metaRpc =
      (Outgoing.response id code none).metaRpc := rfl
  have built : ∃ pb', buildPacket codec (Outgoing.response id code none).metaRpc
      (response.map fun _ => RpcMessage.byte byte) = .ok pb' := by
    simp only [buildPacket, packed, bind, Except.bind]
    cases response with
    | none => exact ⟨_, rfl⟩
    | some _ => simp [packBody, RpcMessage.byte, offered]
  obtain ⟨pb', built⟩ := built
  simp [transmit, sendPacket, same, Outgoing.msg, built]

/-- The loop thread goes on with the response that is being processed. -/
theorem progress_phase (processing : w.client.phase ≠ .idle) :
    ∃ passage next, w.carry codec calls passage = some next ∧ passage.Finishes ∧
      w.Faithful codec passage ∧ next.rank < w.rank := by
  have finish : ∀ action client, Passage.Finishes (.party (.call action)) →
      Local action = true → w.client.step calls action = some client →
      ({ w with client := client } : Exchange).remaining < w.remaining →
      ∃ passage next, w.carry codec calls passage = some next ∧ passage.Finishes ∧
        w.Faithful codec passage ∧ next.rank < w.rank := by
    intro action client finishes here moved less
    refine ⟨.party (.call action), { w with client := client }, ?_, finishes, trivial,
      Nat.add_lt_add_left less _⟩
    simp [Exchange.carry, Exchange.step, here, moved]
  cases phase : w.client.phase with
  | idle => exact absurd phase processing
  | found answer =>
      refine finish .inspect
        { w.client with phase := .inspected answer ((w.client.ch.ctrls answer.ctrl).ec ≠ 0) }
        trivial rfl ?_ ?_
      · simp only [World.step, phase]
      · simp [remaining, phase]
  | inspected answer bnotify =>
      refine finish .complete _ trivial rfl (by simp only [World.step, phase]; rfl) ?_
      simp [remaining, phase]
  | completed answer bnotify =>
      refine finish .remark _ trivial rfl (by simp only [World.step, phase]; rfl) ?_
      simp [remaining, phase]

/-- The client takes up the next response. -/
theorem Settling.progress_deliver {packet : Packet} {rest : List Packet}
    (settling : w.Settling codec calls) (idle : w.client.phase = .idle)
    (queue : w.toClient = packet :: rest) :
    ∃ next, w.carry codec calls (.party .deliver) = some next ∧ next.rank < w.rank := by
  obtain ⟨n, id, code, text, body, rfl, _⟩ :=
    settling.responses packet (queue ▸ List.mem_cons_self)
  obtain ⟨client, moved⟩ : ∃ client,
      w.client.step calls (.respond id code body) = some client := by
    simp only [World.step, idle, ne_eq, not_true_eq_false, if_false]
    split <;> exact ⟨_, rfl⟩
  refine ⟨{ w with client := client, toClient := rest }, ?_, ?_⟩
  · simp [Exchange.carry, Exchange.step, queue, moved]
  · have few : ({ w with client := client, toClient := rest } : Exchange).remaining ≤ 3 := by
      unfold remaining
      split <;> decide
    simp only [rank, queue, List.length_cons]
    omega

/-- The next method is done. -/
theorem progress_answer (law : codec.Lawful) {invocation : Invocation} {rest : List Invocation}
    (queue : w.pending = invocation :: rest) :
    ∃ next, w.carry codec calls (.party (.answer 0 (.byte 0) false 0)) = some next ∧
      w.Faithful codec (.party (.answer 0 (.byte 0) false 0)) ∧ next.rank < w.rank := by
  have sent := transmit_byte law invocation.id 0 invocation.response 0
  refine ⟨_, by simp only [Exchange.carry, Exchange.step, queue]; rfl, ?_, ?_⟩
  · intro other found
    rw [queue] at found
    cases found
    exact sent
  · have one := transmit_sent sent
    simp only [Completion.outgoing, Bool.false_eq_true, if_false, rank, remaining, one, queue,
      List.eraseIdx_zero, List.tail_cons, List.length_append, List.length_cons, List.length_nil]
    omega

/-- The server takes up the next request. -/
theorem Settling.progress_serve (settling : w.Settling codec calls) (law : codec.Lawful)
    {packet : Packet} {rest : List Packet} (queue : w.toServer = packet :: rest) :
    ∃ next, w.carry codec calls (.party (.serve true 0)) = some next ∧ next.rank < w.rank := by
  obtain ⟨n, id, _, rfl⟩ := settling.linked.requests packet (queue ▸ List.mem_cons_self)
  simp only [Exchange.carry, Exchange.step, queue, outgoing, Outgoing.packet]
  split
  · next ec refused =>
      refine ⟨_, rfl, ?_⟩
      have one := transmit_sent (transmit_refusal law id ec)
      simp only [rank, remaining, one, queue, List.length_append, List.length_cons,
        List.length_nil]
      omega
  · refine ⟨_, rfl, ?_⟩
    simp only [rank, remaining, queue, List.length_cons]
    omega
  · refine ⟨_, rfl, ?_⟩
    simp only [rank, remaining, queue, List.length_append, List.length_cons, List.length_nil]
    omega

/-- Something can be done as long as there is something to do. -/
theorem Settling.progress (settling : w.Settling codec calls) (law : codec.Lawful)
    (busy : ¬ w.Quiet) :
    ∃ passage next, w.carry codec calls passage = some next ∧ passage.Finishes ∧
      w.Faithful codec passage ∧ next.rank < w.rank := by
  by_cases idle : w.client.phase = .idle
  · cases toClient : w.toClient with
    | cons packet rest =>
        obtain ⟨next, moved, less⟩ := settling.progress_deliver idle toClient
        exact ⟨_, next, moved, trivial, trivial, less⟩
    | nil =>
        cases pending : w.pending with
        | cons invocation rest =>
            obtain ⟨next, moved, faithful, less⟩ := progress_answer law pending
            exact ⟨_, next, moved, trivial, faithful, less⟩
        | nil =>
            cases toServer : w.toServer with
            | cons packet rest =>
                obtain ⟨next, moved, less⟩ := settling.progress_serve law toServer
                exact ⟨_, next, moved, trivial, rfl, less⟩
            | nil =>
                exact absurd ⟨by simp [whereabouts, toServer, pending, toClient], idle⟩ busy
  · exact progress_phase idle

/-- A call that has been sent stays so. -/
theorem Sent.carry {passage : Passage} {n : Nat} {id : UInt32} (sent : w.Sent n id)
    (transition : w.carry codec calls passage = some next) : next.Sent n id := by
  cases carry_carries transition with
  | reorder up down => exact sent
  | lose up down => exact sent
  | @party move next moved =>
      cases move with
      | call action =>
          simp only [Exchange.step] at moved
          split_ifs at moved
          obtain ⟨client, stepped, rfl⟩ := Option.map_eq_some_iff.mp moved
          exact sent.step stepped
      | send m conn =>
          simp only [Exchange.step] at moved
          split at moved
          · cases moved
          · obtain ⟨client, stepped, rfl⟩ := Option.map_eq_some_iff.mp moved
            exact sent.step stepped
      | serve allocated conn =>
          simp only [Exchange.step] at moved
          split at moved
          · split at moved <;> cases moved <;> exact sent
          · cases moved
      | answer k filled failed conn =>
          simp only [Exchange.step] at moved
          split at moved <;> cases moved
          exact sent
      | deliver =>
          simp only [Exchange.step] at moved
          split at moved
          · obtain ⟨client, stepped, rfl⟩ := Option.map_eq_some_iff.mp moved
            exact sent.step stepped
          · cases moved

/-- A passage that finishes something draws no id. -/
theorem unwrapped_of_finishes {passage : Passage} (finishes : passage.Finishes) :
    Carefully Unwrapped w passage := by
  cases passage with
  | party move =>
      cases move with
      | call action => cases action <;> first | exact finishes.elim | trivial
      | _ => trivial
  | _ => trivial

/-- From every state a run without losses leads to, a bounded number of steps of the server
and of the loop thread is enough to bring every call that has been sent to its end. -/
theorem calls_can_settle {passages : List Passage} (law : codec.Lawful)
    (apart : Function.Injective fun n => (calls n).ctrl) (ordinary : ∀ n, ¬ (calls n).IsNotify)
    (initial : start.Initial)
    (callbacks : ∀ n, (start.client.ch.ctrls (calls n).ctrl).done = true)
    (runs : (carrierMachine codec calls).Runs start passages w)
    (few : passages.countP Passage.draws < 2 ^ 32)
    (faithful : (carrierMachine codec calls).Along (Faithful codec) start passages) :
    ∃ later finish, (carrierMachine codec calls).Runs w later finish ∧
      (carrierMachine codec calls).Along (fun _ passage => passage.Finishes) w later ∧
      later.length ≤ w.rank ∧ finish.Quiet ∧ ∀ n id, w.Sent n id →
        ∃ code body, finish.client.firings n = [completion calls n (code, body)] ∧
          Says codec finish.server finish.answered (request codec calls n id) code body := by
  obtain ⟨later, finish, runs', along, short, settling, quiet⟩ :=
    (carrierMachine codec calls).exists_runs_of_rank (Settling codec calls) Quiet
      (fun _ => Passage.Finishes) rank
      (fun {state} settling busy => by
        obtain ⟨passage, next, moved, finishes, faithful, less⟩ := settling.progress law busy
        exact ⟨passage, next, moved, finishes, settling.carry law apart ordinary
          (unwrapped_of_finishes finishes) faithful moved, less⟩)
      (carried_settling law apart ordinary initial callbacks runs few faithful)
  refine ⟨later, finish, runs', along, short, quiet, fun n id sent => ?_⟩
  exact settling.quiet quiet (runs'.invariant (fun w => w.Sent n id)
    (fun sent transition => sent.carry transition) sent)

/-- Two requests are on their way. -/
theorem calls_can_settle_overtaking :
    ∃ w, (carrierMachine Wire.codec strayCalls).Runs fresh (overtaking.take 9) w ∧ w.rank = 12 ∧
      ∃ later finish, (carrierMachine Wire.codec strayCalls).Runs w later finish ∧
        later.length ≤ w.rank ∧
        ∃ code body, finish.client.firings 1 = [completion strayCalls 1 (code, body)] ∧
          Says Wire.codec finish.server finish.answered (request Wire.codec strayCalls 1 2) code
            body := by
  have ran : ((carrierMachine Wire.codec strayCalls).run fresh (overtaking.take 9)).map
      (fun w => (w.rank, w.client.pc 1, w.client.drawn 1)) = some (12, .returned 0, some 2) := by
    decide +kernel
  obtain ⟨w, executed, seen⟩ := Option.map_eq_some_iff.mp ran
  simp only [Prod.mk.injEq] at seen
  obtain ⟨rank, pc, drawn⟩ := seen
  have runs := Machine.Runs.of_run executed
  have ordinary : ∀ n, ¬ (strayCalls n).IsNotify := fun n => show ¬ strcmp [0x62] _ = 0 by decide
  obtain ⟨later, finish, onward, _, short, _, settled⟩ := calls_can_settle Wire.codec_lawful
    (fun _ _ same => same) ordinary fresh_initial (fun _ => rfl) runs (by decide)
    (by decide +kernel)
  exact ⟨w, runs, rank, later, finish, onward, short, settled 1 2 ⟨pc, drawn⟩⟩

end Exchange

end Sdpf.Network
