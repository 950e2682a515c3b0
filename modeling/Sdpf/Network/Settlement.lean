import Sdpf.Network.Settlement.Moves

/-!
# Every call is settled

A carrier may change the order of packets on their way, which changes no call's place. When
nothing is on its way any more, every call that has been sent has therefore been completed
once, with its own outcome (`calls_settled`).
-/

namespace Sdpf.Network

open Sdpf.Data Sdpf.Msgpack Sdpf.Channel Sdpf.Semantics Sdpf.Client
open Sdpf.Server (Invocation Completion Handling)

namespace Exchange

variable {codec : Codec} {calls : Nat → Call} {w next start : Exchange}

/-- Packets that overtake each other are still on their way. -/
theorem Settling.reorder {toServer toClient : List Packet} (settling : w.Settling codec calls)
    (up : toServer.Perm w.toServer) (down : toClient.Perm w.toClient) :
    ({ w with toServer := toServer, toClient := toClient } : Exchange).Settling codec calls := by
  have accounted := settling.toAccounted.frame
    { w with toServer := toServer, toClient := toClient }
    (((up.map packetId).append_right _).append (down.map packetId))
    (fun _ _ => .rfl) (fun _ => .rfl)
  have truthful : ({ w with toServer := toServer, toClient := toClient } : Exchange).Truthful
      codec calls :=
    settling.toTruthful.frame rfl (fun _ member => member) (fun _ _ sent => sent)
      (fun _ member => member) (fun _ member => down.subset member) (fun _ now => now)
      (fun _ member => member)
  exact { accounted, truthful with
    linked := settling.linked.reroute up.subperm down.subperm
    outstanding := settling.outstanding
    callbacks := settling.callbacks, serving := settling.serving }

/-- Nothing gets lost, and answers are built and handed over. -/
def Faithful (codec : Codec) (w : Exchange) : Passage → Prop
  | .party move => w.Answers codec move
  | .reorder _ _ => True
  | .lose _ _ => False

instance (codec : Codec) (w : Exchange) : (passage : Passage) → Decidable (w.Faithful codec passage)
  | .party move => inferInstanceAs (Decidable (w.Answers codec move))
  | .reorder _ _ => inferInstanceAs (Decidable True)
  | .lose _ _ => inferInstanceAs (Decidable False)

/-- A passage on which nothing gets lost keeps every call in its place. -/
theorem Settling.carry {passage : Passage} (settling : w.Settling codec calls)
    (law : codec.Lawful) (apart : Function.Injective fun n => (calls n).ctrl)
    (ordinary : ∀ n, ¬ (calls n).IsNotify) (unwrapped : Carefully Unwrapped w passage)
    (faithful : w.Faithful codec passage) (transition : w.carry codec calls passage = some next) :
    next.Settling codec calls := by
  cases carry_carries transition with
  | party moved => exact settling.step law apart ordinary unwrapped faithful moved
  | reorder up down => exact settling.reorder up down
  | lose up down => exact faithful.elim

/-- Runs on which nothing gets lost keep account of every call. -/
theorem carried_settling {passages : List Passage} (law : codec.Lawful)
    (apart : Function.Injective fun n => (calls n).ctrl) (ordinary : ∀ n, ¬ (calls n).IsNotify)
    (initial : start.Initial)
    (callbacks : ∀ n, (start.client.ch.ctrls (calls n).ctrl).done = true)
    (runs : (carrierMachine codec calls).Runs start passages w)
    (few : passages.countP Passage.draws < 2 ^ 32)
    (faithful : (carrierMachine codec calls).Along (Faithful codec) start passages) :
    w.Settling codec calls :=
  runs.guarded (Settling codec calls)
    (fun settling both => settling.carry law apart ordinary both.1 both.2)
    (.of_initial initial callbacks) ((carried_unwrapped initial runs few).and faithful)

/-- When nothing is on its way any more, each call that has been sent has been completed
once, by the response the server has decided on for its own request. -/
theorem Settling.quiet (settling : w.Settling codec calls) (quiet : w.Quiet) {n : Nat}
    {id : UInt32} (sent : w.Sent n id) :
    ∃ code body, w.client.firings n = [completion calls n (code, body)] ∧
      Says codec w.server w.answered (request codec calls n id) code body := by
  have served : w.client.Served n := by
    by_contra waiting
    have member := settling.present n id sent waiting
    rw [quiet.nowhere] at member
    cases member
  obtain ⟨firing, member, rfl⟩ : w.client.Fired n :=
    served.resolve_right (by simp [World.Completing, quiet.phase])
  obtain ⟨other, code, before, same, said⟩ := settling.fired firing member
  obtain rfl : id = other := Option.some.inj (sent.2.symm.trans before.2)
  refine ⟨code, firing.body, ?_, said⟩
  have own : firing ∈ w.client.firings firing.call :=
    List.mem_filter.mpr ⟨member, decide_eq_true rfl⟩
  obtain ⟨one, only⟩ := List.length_eq_one_iff.mp
    (Nat.le_antisymm (settling.linked.once.firings _) (List.length_pos_of_mem own))
  rw [only] at own ⊢
  rw [← List.mem_singleton.mp own, ← same]

/-- When nothing is on its way after a run on which nothing got lost, each call that has
been sent has had its callback run once, with what the server decided on for its request. -/
theorem calls_settled {finish : Exchange} {passages : List Passage} (law : codec.Lawful)
    (apart : Function.Injective fun n => (calls n).ctrl) (ordinary : ∀ n, ¬ (calls n).IsNotify)
    (initial : start.Initial)
    (callbacks : ∀ n, (start.client.ch.ctrls (calls n).ctrl).done = true)
    (runs : (carrierMachine codec calls).Runs start passages finish)
    (few : passages.countP Passage.draws < 2 ^ 32)
    (faithful : (carrierMachine codec calls).Along (Faithful codec) start passages)
    (quiet : finish.Quiet) (n : Nat) (id : UInt32) (sent : finish.Sent n id) :
    ∃ code body, finish.client.firings n = [completion calls n (code, body)] ∧
      Says codec finish.server finish.answered (request codec calls n id) code body :=
  (carried_settling law apart ordinary initial callbacks runs few faithful).quiet quiet sent

/-- A call of a method that there is, and calls of a service that there is not. -/
def strayCalls (n : Nat) : Call :=
  ⟨CStr.ofBlock (if n = 0 then [0x61] else [0x63]), CStr.ofBlock [0x62], none, some (.byte 0), n⟩

/-- Two requests overtake each other; one of them is refused. -/
def overtaking : List Passage :=
  [.party (.call (.check 0)), .party (.call (.mark 0)), .party (.call (.register 0)),
    .party (.call (.check 1)), .party (.call (.mark 1)), .party (.call (.register 1)),
    .party (.send 0 0), .party (.send 1 0),
    .reorder [request Wire.codec strayCalls 1 2, request Wire.codec strayCalls 0 1] [],
    .party (.serve true 0), .party (.serve true 0), .party (.answer 0 (.byte 7) false 0),
    .party .deliver, .party (.call .inspect), .party (.call .complete), .party (.call .remark),
    .party .deliver, .party (.call .inspect), .party (.call .complete), .party (.call .remark)]

/-- A refusal overtakes an answer, and both calls are settled. -/
theorem calls_settled_overtaking :
    ∃ finish, (carrierMachine Wire.codec strayCalls).Runs fresh overtaking finish ∧
      finish.client.fired = [⟨1, 1, 1001, []⟩, ⟨0, 0, 0, [7]⟩] ∧
      ∃ code body, finish.client.firings 1 = [completion strayCalls 1 (code, body)] ∧
        Says Wire.codec finish.server finish.answered (request Wire.codec strayCalls 1 2) code
          body := by
  have ran : ((carrierMachine Wire.codec strayCalls).run fresh overtaking).map (fun finish =>
      (finish.client.fired, finish.whereabouts, finish.client.phase, finish.client.pc 1,
        finish.client.drawn 1)) =
      some ([⟨1, 1, 1001, []⟩, ⟨0, 0, 0, [7]⟩], [], .idle, .returned 0, some 2) := by
    decide +kernel
  obtain ⟨finish, executed, seen⟩ := Option.map_eq_some_iff.mp ran
  simp only [Prod.mk.injEq] at seen
  obtain ⟨fired, nowhere, phase, pc, drawn⟩ := seen
  have runs := Machine.Runs.of_run executed
  have ordinary : ∀ n, ¬ (strayCalls n).IsNotify := fun n => show ¬ strcmp [0x62] _ = 0 by decide
  exact ⟨finish, runs, fired, calls_settled Wire.codec_lawful (fun _ _ same => same) ordinary
    fresh_initial (fun _ => rfl) runs (by decide) (by decide +kernel)
    ⟨nowhere, phase⟩ 1 2 ⟨pc, drawn⟩⟩

end Exchange

end Sdpf.Network
