import Sdpf.Connection.Receive
import Sdpf.Semantics.Machine
import Mathlib.Tactic.SplitIfs

/-!
# The end of the receive loop

`on_recv` goes on as long as `parse` returns a positive value, which the peer chooses
through two lengths of 16 bits. Here `deserialize_meta` may return anything, and each round
is labelled with what it returns; nothing else that happens in a round reaches the loop.
`onRecv_terminates` bounds every run by the bytes at its start.
-/

namespace Sdpf.Connection

open Sdpf.Data Sdpf.Buffer Sdpf.Msgpack Sdpf.Channel Sdpf.Semantics

/-- The loop of `on_recv` between two calls of `parse`. -/
structure RecvLoop where
  buf : IOBuf
  ended : Bool
deriving DecidableEq, Repr

/-- In front of the first call. -/
def RecvLoop.enter (b : IOBuf) : RecvLoop := ⟨b, false⟩

/-- `on_recv`: one call of `parse`, with the status its decoder returns, and what follows. -/
def recvMachine (wild : Nat → UInt8) : Machine RecvLoop Int where
  Initial loop := loop.buf.Valid ∧ loop.ended = false
  step loop status :=
    if loop.ended then
      none
    else
      let ret := parseReturn wild loop.buf status
      if ret > 0 then
        some { loop with buf := (loop.buf.hasReaded ret.toNat).2 }
      else
        some { loop with ended := true }

/-- A point of the loop: every call so far has consumed a byte, except the last one when
the loop has ended. -/
structure Underway (b : IOBuf) (statuses : List Int) (loop : RecvLoop) : Prop where
  valid : loop.buf.Valid
  spent : statuses.length + loop.buf.readable.length ≤
    b.readable.length + if loop.ended then 1 else 0
  rest : loop.buf.readable <:+ b.readable

variable {wild : Nat → UInt8} {b : IOBuf} {statuses : List Int} {loop next : RecvLoop}

/-- Before the loop nothing has been consumed. -/
theorem Underway.enter (valid : b.Valid) : Underway b [] (.enter b) where
  valid := valid
  spent := by simp [RecvLoop.enter]
  rest := List.suffix_refl _

/-- One call of `parse` and what follows it. -/
theorem Underway.step (underway : Underway b statuses loop) {status : Int}
    (transition : (recvMachine wild).step loop status = some next) :
    Underway b (statuses ++ [status]) next := by
  have spent := underway.spent
  simp only [recvMachine] at transition
  split_ifs at transition with ended positive
  · cases transition
    have consumed := parseReturn_le underway.valid wild status
    obtain ⟨_, valid', dropped, _, _⟩ := underway.valid.hasReaded consumed
    exact {
      valid := valid'
      spent := by
        simp only [ended, List.length_append, List.length_singleton, dropped, List.length_drop]
          at spent ⊢
        omega
      rest := by
        rw [dropped]
        exact (List.drop_suffix _ _).trans underway.rest }
  · cases transition
    exact {
      valid := underway.valid
      spent := by
        simp only [ended, List.length_append, List.length_singleton, Bool.false_eq_true, if_false,
          if_true] at spent ⊢
        omega
      rest := underway.rest }

/-- Every run of the loop. -/
theorem Underway.of_runs (valid : b.Valid)
    (runs : (recvMachine wild).Runs (.enter b) statuses loop) : Underway b statuses loop := by
  induction runs with
  | refl => exact .enter valid
  | step _ transition ih => exact ih.step transition

/-- The loop has ended by the time it has made one call more than there were bytes. -/
theorem Underway.ended (underway : Underway b statuses loop)
    (all : b.readable.length < statuses.length) : loop.ended = true := by
  have spent := underway.spent
  by_contra running
  rw [if_neg running] at spent
  omega

/-- Before it has ended, the loop makes another call. -/
theorem recvMachine_enabled (running : loop.ended = false) (status : Int) :
    ∃ next, (recvMachine wild).step loop status = some next := by
  simp only [recvMachine, running, Bool.false_eq_true, if_false]
  split_ifs
  · exact ⟨_, rfl⟩
  · exact ⟨_, rfl⟩

/-- The loop makes any number of calls unless it ends before. -/
theorem recvMachine_continues (wild : Nat → UInt8) (b : IOBuf) (statuses : Nat → Int)
    (limit : Nat) :
    ∃ calls, ∃ loop, (recvMachine wild).Runs (.enter b) ((List.range calls).map statuses) loop ∧
      calls ≤ limit ∧ (loop.ended = false → calls = limit) := by
  induction limit with
  | zero => exact ⟨0, .enter b, .refl, Nat.le_refl _, fun _ => rfl⟩
  | succ limit ih =>
      obtain ⟨calls, loop, runs, within, unfinished⟩ := ih
      cases ended : loop.ended with
      | true =>
          refine ⟨calls, loop, runs, Nat.le_succ_of_le within, fun running => ?_⟩
          rw [ended] at running
          cases running
      | false =>
          obtain ⟨next, transition⟩ : ∃ next,
              (recvMachine wild).step loop (statuses calls) = some next :=
            recvMachine_enabled ended _
          have longer := runs.step transition
          rw [← List.map_singleton, ← List.map_append, ← List.range_succ] at longer
          have all := unfinished ended
          exact ⟨calls + 1, next, longer, by omega, fun _ => by omega⟩

/-- Whatever has been received and whatever the decoder of the meta data returns, the loop
ends, after at most one call of `parse` more than there are bytes. At any time a positive
value is no more than what is unread, so that `has_readed` accepts it, and the bytes left
are the last of those at the start. -/
theorem onRecv_terminates (wild : Nat → UInt8) (valid : b.Valid) :
    (∀ statuses : Nat → Int, ∃ calls loop,
        (recvMachine wild).Runs (.enter b) ((List.range calls).map statuses) loop ∧
          calls ≤ b.readableBytes + 1 ∧ loop.ended = true) ∧
      ∀ statuses loop, (recvMachine wild).Runs (.enter b) statuses loop →
        statuses.length ≤ b.readableBytes + 1 ∧
          (∀ status, 0 < parseReturn wild loop.buf status →
            parseReturn wild loop.buf status ≤ loop.buf.readableBytes ∧
              (loop.buf.hasReaded (parseReturn wild loop.buf status).toNat).1 = 0) ∧
          loop.buf.readable <:+ b.readable := by
  have length := valid.readableBytes_length
  refine ⟨fun statuses => ?_, fun statuses loop runs => ?_⟩
  · obtain ⟨calls, loop, runs, within, unfinished⟩ :=
      recvMachine_continues wild b statuses (b.readableBytes + 1)
    refine ⟨calls, loop, runs, within, ?_⟩
    by_contra running
    have all := unfinished (Bool.not_eq_true _ ▸ running)
    refine running ((Underway.of_runs valid runs).ended ?_)
    rw [List.length_map, List.length_range]
    omega
  · have underway := Underway.of_runs valid runs
    have spent := underway.spent
    refine ⟨?_, fun status positive => ?_, underway.rest⟩
    · split_ifs at spent <;> omega
    · have consumed := parseReturn_le underway.valid wild status
      obtain ⟨accepted, _⟩ := underway.valid.hasReaded consumed
      refine ⟨?_, accepted⟩
      rw [underway.valid.readableBytes_length]
      omega

/-- The loop as it was run on a codec is one of these runs. -/
theorem onRecv_runs {codec : Codec} {rounds : Nat} {received : Received} (valid : b.Valid)
    (enough : b.readable.length < rounds) (ok : onRecv codec wild rounds b = .ok received) :
    ∃ statuses, (recvMachine wild).Runs (.enter b) statuses ⟨received.buf, true⟩ := by
  induction rounds generalizing b received with
  | zero => omega
  | succ rounds ih =>
      rw [onRecv] at ok
      obtain ⟨result, parsed, ok⟩ := Dispatcher.ok_bind ok
      obtain ⟨status, same⟩ := parse_return parsed
      have consumed := parse_le valid parsed
      by_cases positive : result.1 > 0
      · rw [if_pos positive] at ok
        obtain ⟨rest, looped, ok⟩ := Dispatcher.ok_bind ok
        cases ok
        obtain ⟨_, valid', dropped, _, _⟩ := valid.hasReaded consumed
        obtain ⟨statuses, runs⟩ := ih valid' (by rw [dropped, List.length_drop]; omega) looped
        refine ⟨status :: statuses, .cons ?_ runs⟩
        rw [same] at positive
        simp [recvMachine, RecvLoop.enter, positive, same]
      · rw [if_neg positive] at ok
        cases ok
        rw [same] at positive
        refine ⟨[status], .cons ?_ .refl⟩
        simp [recvMachine, RecvLoop.enter, positive]

/-- A header whose packet length has wrapped to zero ends the loop at once. -/
theorem onRecv_terminates_wrapped :
    let b := ((IOBuf.create 1024).write (some [0x45, 0x52, 0x50, 0x43, 0x7f, 0xff, 0x7f, 0xf5,
      0x01, 0x01, 0x10, 0x23])).2
    b.readableBytes = 12 ∧ parseReturn (fun _ => 0) b 0 = 0 ∧
      ((∀ statuses : Nat → Int, ∃ calls loop,
          (recvMachine fun _ => 0).Runs (.enter b) ((List.range calls).map statuses) loop ∧
            calls ≤ b.readableBytes + 1 ∧ loop.ended = true) ∧
        ∀ statuses loop, (recvMachine fun _ => 0).Runs (.enter b) statuses loop →
          statuses.length ≤ b.readableBytes + 1 ∧
            (∀ status, 0 < parseReturn (fun _ => 0) loop.buf status →
              parseReturn (fun _ => 0) loop.buf status ≤ loop.buf.readableBytes ∧
                (loop.buf.hasReaded (parseReturn (fun _ => 0) loop.buf status).toNat).1 = 0) ∧
            loop.buf.readable <:+ b.readable) := by
  refine ⟨by decide +kernel, by decide +kernel, onRecv_terminates _ ?_⟩
  exact ⟨by decide +kernel, by decide +kernel, by decide +kernel⟩

end Sdpf.Connection
