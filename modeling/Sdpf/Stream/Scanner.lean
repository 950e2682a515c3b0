import Mathlib.Data.List.Basic

/-!
# Scanners whose decisions are final

A receiver looks at the bytes it has not consumed, takes an item off their front, waits
for more, or stops for good. A `Scanner` does so in such a way that what it decides about
some bytes it also decides when more bytes follow them. Whatever is then done with a
stream in pieces amounts to draining it at once (`Agrees.push`), and the items found are
those in front of the place where the scanner stops (`drain_finds`).
-/

namespace Sdpf.Stream

variable {β π ε : Type}

/-- What a scanner makes of the bytes in front of it. -/
inductive Scan (π ε : Type) where
  | more
  | item (consumed : Nat) (payload : π)
  | stop (reason : ε)
deriving DecidableEq, Repr

/-- An item takes at least one byte and no more than there are, and a decision stands
whatever follows. -/
structure Scanner (β π ε : Type) where
  scan : List β → Scan π ε
  consumes : ∀ {bytes consumed payload}, scan bytes = .item consumed payload →
    0 < consumed ∧ consumed ≤ bytes.length
  final : ∀ {bytes}, scan bytes ≠ .more → ∀ more, scan (bytes ++ more) = scan bytes

/-- What has become of some bytes: the items found, whether and why the scanner has
stopped, and the bytes it has not consumed. -/
structure Drained (β π ε : Type) where
  items : List π
  stopped : Option ε
  unread : List β
deriving DecidableEq, Repr

namespace Scanner

variable (scanner : Scanner β π ε)

/-- Take items off the front until the bytes do not suffice or the scanner stops. -/
def drain (bytes : List β) : Drained β π ε :=
  match _ : scanner.scan bytes with
  | .more => ⟨[], none, bytes⟩
  | .stop reason => ⟨[], some reason, bytes⟩
  | .item consumed payload =>
      let rest := drain (bytes.drop consumed)
      { rest with items := payload :: rest.items }
termination_by bytes.length
decreasing_by
  have taken := scanner.consumes ‹_›
  rw [List.length_drop]
  omega

/-- The items a scanner finds one after the other, and the bytes behind them. -/
inductive Finds : List β → List π → List β → Prop where
  | done (bytes : List β) : Finds bytes [] bytes
  | item {bytes unread : List β} {consumed : Nat} {payload : π} {items : List π}
      (found : scanner.scan bytes = .item consumed payload)
      (rest : Finds (bytes.drop consumed) items unread) :
      Finds bytes (payload :: items) unread

/-- What a scanner says of the bytes it has left unread. -/
def leaves : Option ε → Scan π ε
  | none => .more
  | some reason => .stop reason

variable {scanner} {bytes unread : List β} {items : List π} {consumed : Nat} {payload : π}

/-- What is not complete is left. -/
theorem drain_more (waits : scanner.scan bytes = .more) :
    scanner.drain bytes = ⟨[], none, bytes⟩ := by
  rw [drain]
  split <;> simp_all

/-- What is given up is left. -/
theorem drain_stop {reason : ε} (stops : scanner.scan bytes = .stop reason) :
    scanner.drain bytes = ⟨[], some reason, bytes⟩ := by
  rw [drain]
  split <;> simp_all

/-- An item in front is found first. -/
theorem drain_item (found : scanner.scan bytes = .item consumed payload) :
    scanner.drain bytes = { scanner.drain (bytes.drop consumed) with
      items := payload :: (scanner.drain (bytes.drop consumed)).items } := by
  rw [drain]
  split <;> simp_all

/-- Draining finds items up to the place where the scanner waits or stops. -/
theorem drain_finds (bytes : List β) :
    scanner.Finds bytes (scanner.drain bytes).items (scanner.drain bytes).unread ∧
      scanner.scan (scanner.drain bytes).unread = leaves (scanner.drain bytes).stopped := by
  induction size : bytes.length using Nat.strongRecOn generalizing bytes with
  | _ length ih =>
      cases found : scanner.scan bytes with
      | more =>
          rw [drain_more found]
          exact ⟨.done bytes, found⟩
      | stop reason =>
          rw [drain_stop found]
          exact ⟨.done bytes, found⟩
      | item consumed payload =>
          have taken := scanner.consumes found
          obtain ⟨rest, left⟩ := ih (bytes.drop consumed).length
            (by rw [List.length_drop]; omega) (bytes.drop consumed) rfl
          rw [drain_item found]
          exact ⟨.item found rest, left⟩

namespace Finds

/-- Items found one after the other in two stretches. -/
theorem trans {middle : List β} {later : List π} (first : scanner.Finds bytes items middle)
    (second : scanner.Finds middle later unread) :
    scanner.Finds bytes (items ++ later) unread := by
  induction first with
  | done => exact second
  | item found _ ih => exact .item found (ih second)

/-- What follows the bytes does not change what is found in them. -/
theorem append (finds : scanner.Finds bytes items unread) (more : List β) :
    scanner.Finds (bytes ++ more) items (unread ++ more) := by
  induction finds with
  | done bytes => exact .done _
  | item found _ ih =>
      refine .item ((scanner.final (by rw [found]; simp) more).trans found) ?_
      rw [List.drop_append_of_le_length (scanner.consumes found).2]
      exact ih

/-- Items that were found come first when the bytes are drained. -/
theorem drain (finds : scanner.Finds bytes items unread) :
    scanner.drain bytes = { scanner.drain unread with
      items := items ++ (scanner.drain unread).items } := by
  induction finds with
  | done => rfl
  | item found _ ih => rw [drain_item found, ih, List.cons_append]

end Finds

/-- When more bytes arrive, draining goes on from what was left. -/
theorem drain_append (bytes more : List β) :
    scanner.drain (bytes ++ more) =
      { scanner.drain ((scanner.drain bytes).unread ++ more) with
        items := (scanner.drain bytes).items ++
          (scanner.drain ((scanner.drain bytes).unread ++ more)).items } :=
  ((drain_finds bytes).1.append more).drain

/-- After a stop more bytes make no difference. -/
theorem drain_append_stopped {reason : ε} (stops : (scanner.drain bytes).stopped = some reason)
    (more : List β) :
    (scanner.drain (bytes ++ more)).items = (scanner.drain bytes).items ∧
      (scanner.drain (bytes ++ more)).stopped = some reason := by
  have left := (scanner.drain_finds bytes).2
  rw [stops] at left
  have still : scanner.scan ((scanner.drain bytes).unread ++ more) = .stop reason :=
    (scanner.final (by rw [left]; simp [leaves]) more).trans left
  rw [drain_append, drain_stop still]
  simp

end Scanner

namespace Drained

/-- Before anything has arrived. -/
def start : Drained β π ε := ⟨[], none, []⟩

/-- A piece of the stream arrives; after a stop nothing is looked at any more. -/
def push (scanner : Scanner β π ε) (state : Drained β π ε) (piece : List β) : Drained β π ε :=
  match state.stopped with
  | some _ => state
  | none =>
      let next := scanner.drain (state.unread ++ piece)
      { next with items := state.items ++ next.items }

/-- The state reached on a stream is that of draining it at once, apart from what
remains unread after a stop. -/
structure Agrees (scanner : Scanner β π ε) (stream : List β) (state : Drained β π ε) : Prop where
  items : state.items = (scanner.drain stream).items
  stopped : state.stopped = (scanner.drain stream).stopped
  unread : state.stopped = none → state.unread = (scanner.drain stream).unread

variable {scanner : Scanner β π ε} {stream : List β} {state : Drained β π ε}

/-- Nothing has arrived. -/
theorem Agrees.start (silent : scanner.scan [] = .more) :
    Agrees scanner [] (Drained.start : Drained β π ε) := by
  have drained := Scanner.drain_more silent
  constructor <;> simp [Drained.start, drained]

/-- A further piece has arrived. -/
theorem Agrees.push (agrees : Agrees scanner stream state) (piece : List β) :
    Agrees scanner (stream ++ piece) (state.push scanner piece) := by
  have stopped := agrees.stopped
  unfold Drained.push
  cases now : state.stopped with
  | some reason =>
      rw [now] at stopped
      obtain ⟨items, same⟩ := Scanner.drain_append_stopped stopped.symm piece
      exact ⟨agrees.items.trans items.symm, now.trans same.symm, by simp [now]⟩
  | none =>
      rw [now] at stopped
      have whole := scanner.drain_append stream piece
      rw [← agrees.unread now, ← agrees.items] at whole
      constructor <;> simp [whole]

end Drained

end Sdpf.Stream
