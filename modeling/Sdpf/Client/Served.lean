import Sdpf.Client.Outstanding

/-!
# Calls that have been served

Between a send and a close nothing but the response to a call serves it, and a response
that finds its call serves no other.
-/

namespace Sdpf.Client

open Sdpf.Data Sdpf.Channel

namespace World

variable {calls : Nat → Call} {w next : World} {n : Nat}

/-- A call has returned success by its send only. -/
theorem step_unsent {action : Action} (transition : w.step calls action = some next)
    (other : action ≠ .send n 0) (now : next.pc n = .returned 0) :
    w.pc n = .returned 0 := by
  have moves : ∀ m pc, pc ≠ .returned 0 → (w.setPc m pc).pc n = .returned 0 →
      w.pc n = .returned 0 := by
    intro m pc unsent now
    by_cases same : n = m
    · subst same
      simp only [setPc, Function.update_self] at now
      exact absurd now unsent
    · simpa [setPc, same] using now
  cases step_transition transition with
  | checkRefused was error => exact moves _ _ (by rcases error with rfl | rfl <;> decide) now
  | checkPassed was connected => exact moves _ _ (by decide) now
  | markRefused was => exact moves _ _ (by decide) now
  | markAccepted was doneKept marks resp => exact moves _ _ (by decide) now
  | registerRefused was marked => exact moves _ _ (by decide) now
  | registerAccepted was drew => exact moves _ _ (by decide) now
  | @sent m was connected =>
      by_cases same : n = m
      · subst same
        exact absurd rfl other
      · simpa [setPc, same] using now
  | sendFailed was error => exact moves _ _ (by decide) now
  | reset was => exact moves _ _ (by decide) now
  | removed was drew => exact moves _ _ (by decide) now
  | _ => exact now

/-- Only a response and a close serve calls. -/
theorem step_served {action : Action} (attributed : w.Attributed calls)
    (done : ∀ n, (w.ch.ctrls (calls n).ctrl).done = true) (unclosed : action ≠ .close)
    (unanswered : ∀ id code body, action ≠ .respond id code body)
    (transition : w.step calls action = some next) : next.Served n ↔ w.Served n := by
  cases step_transition transition with
  | unknown was absent => rfl
  | found was stored => exact absurd rfl (unanswered _ _ _)
  | inspected was => simp [Served, Fired, Completing, was]
  | @completed answer bnotify was =>
      have ctrl := (attributed.answer answer (by simp [answering, was])).2.1
      have fires : w.answerFiring answer = [⟨answer.call, answer.ctrl,
          RpcChannel.outcome (w.ch.ctrls answer.ctrl).resp answer.code answer.body,
          answer.body⟩] := if_pos (by rw [ctrl, done])
      simp [Served, Fired, Completing, was, fires, or_and_right, exists_or]
  | remarked was => simp [Served, Fired, Completing, was]
  | closed was => exact absurd rfl unclosed
  | _ => rfl

/-- A response serves the call it belongs to. -/
theorem respond_served {id : UInt32} {code : Int32} {body : List UInt8} {m : Nat}
    (attributed : w.Attributed calls) (drew : w.drawn n = some id) (stored : id ∈ w.ch.requests)
    (transition : w.step calls (.respond id code body) = some next) :
    (next.Served m ↔ w.Served m ∨ m = n) ∧
      next.answering = some ⟨id, n, (calls n).ctrl, code, body⟩ := by
  cases step_transition transition with
  | unknown was absent => exact absurd stored (AList.lookup_eq_none.mp absent)
  | @found _ _ _ ctrl was found =>
      obtain ⟨drawn, same, _⟩ := attributed.entry id ctrl found
      obtain rfl := attributed.distinct _ _ id drawn drew
      refine ⟨?_, by simp [answering, same]⟩
      simp only [Served, Fired, Completing, was, or_false]
      exact or_congr_right eq_comm

/-- A callback is run with the outcome of the response being processed. -/
theorem step_completion {action : Action} {firing : Firing} (attributed : w.Attributed calls)
    (unclosed : action ≠ .close) (transition : w.step calls action = some next)
    (member : firing ∈ next.fired) :
    firing ∈ w.fired ∨ ∃ answer, w.answering = some answer ∧
      firing = completion calls answer.call (answer.code, answer.body) := by
  cases step_transition transition with
  | @completed answer bnotify was =>
      have now : w.answering = some answer := by simp [answering, was]
      refine (List.mem_append.mp member).imp_right fun fires => ⟨answer, now, ?_⟩
      obtain ⟨drew, ctrl, _⟩ := attributed.answer answer now
      unfold answerFiring at fires
      split at fires
      · rw [List.mem_singleton.mp fires, completion, ctrl, attributed.resp _ _ drew]
      · cases fires
  | closed was => exact absurd rfl unclosed
  | _ => exact .inl member

/-- No id that is about to be registered is in use. -/
theorem Attributed.unused {action : Action} (attributed : w.Attributed calls)
    (transition : w.step calls action = some next) :
    w.Unused action := by
  cases action with
  | register m =>
      intro id drew
      have unregistered : (w.pc m).Unregistered := by
        cases step_transition transition with
        | registerRefused was marked => exact .inr (.inr (.inl was))
        | registerAccepted was drawn => exact .inr (.inr (.inl was))
      constructor
      · intro stored
        obtain ⟨ctrl, found⟩ := lookup_of_mem stored
        obtain ⟨drawn, _, registered⟩ := attributed.entry id ctrl found
        obtain rfl := attributed.distinct _ _ id drawn drew
        exact registered unregistered
      · intro other distinct _ same
        exact distinct (attributed.distinct _ _ id same drew)
  | _ => trivial

end World

end Sdpf.Client
