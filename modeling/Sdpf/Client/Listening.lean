import Sdpf.Client.Tracking

/-!
# Following a call among others

A call that has been accepted is followed to the responses with its id, whatever becomes of
the sends of the other calls. For a notification each response runs the callback.
-/

namespace Sdpf.Client

open Sdpf.Data Sdpf.Channel Sdpf.Semantics

namespace World

variable {calls : Nat → Call} {w next : World} {n : Nat} {id : UInt32}
  {arrived : List (Int32 × List UInt8)}

/-- Only a call that is registered sends, and with the id it has. -/
theorem step_send {ret : Int} (transition : w.step calls (.send n ret) = some next) :
    w.pc n = .registered ∧ next.drawn = w.drawn := by
  simp only [step] at transition
  split_ifs at transition with other
  all_goals
    cases transition
    exact ⟨not_not.mp other, rfl⟩

/-- A call is accepted by its registration only. -/
theorem accepted_of_step {action : Action} (transition : w.step calls action = some next)
    (now : next.Accepted n) : w.Accepted n ∨ action = .register n ∧ w.pc n = .marked := by
  cases step_progress transition n with
  | same same => exact .inl (by rwa [Accepted, same] at now)
  | early was unregistered => exact absurd unregistered now.registered
  | register was _ is => exact .inr ⟨is, was⟩
  | sent was _ => exact .inl (.inl was)
  | failed was failed _ _ => simp [Accepted, failed] at now
  | reset was reset => simp [Accepted, reset] at now
  | removed was removed => simp [Accepted, removed] at now

/-- A call that is still accepted is followed, though the sends of others may fail. -/
theorem Tracks.keep {action : Action} (tracks : w.Tracks calls n id arrived)
    (attributed : w.Attributed calls) (apart : Function.Injective fun n => (calls n).ctrl)
    (done : (w.ch.ctrls (calls n).ctrl).done = true) (unclosed : action ≠ .close)
    (accepted : next.Accepted n) (transition : w.step calls action = some next) :
    next.Tracks calls n id (arrived ++ responses id [action]) := by
  by_cases unbroken : action.Unbroken
  · exact tracks.step attributed apart done unbroken transition
  · obtain ⟨m, ret, rfl⟩ : ∃ m ret, action = .send m ret := by
      cases action with
      | send m ret => exact ⟨m, ret, rfl⟩
      | close => exact absurd rfl unclosed
      | _ => exact absurd trivial unbroken
    cases step_transition transition with
    | sent was connected => exact absurd rfl unbroken
    | sendFailed was error => exact .silent rfl (tracks.frame accepted rfl rfl rfl .rfl rfl)

/-- A registration step that is accepted begins with no response. -/
theorem Tracks.begin (attributed : w.Attributed calls) (separate : w.Separate)
    (drew : next.drawn n = some id) (transition : w.step calls (.register n) = some next)
    (accepted : next.Accepted n) : next.Tracks calls n id [] := by
  cases step_transition transition with
  | registerRefused was marked => simp [Accepted, setPc] at accepted
  | registerAccepted was drawn =>
      obtain rfl : _ = id := Option.some.inj (drawn.symm.trans drew)
      exact .register attributed separate was drawn

/-- The callbacks of a notification are one for each response. -/
theorem Tracks.notified (tracks : w.Tracks calls n id arrived) (notify : (calls n).IsNotify) :
    w.firings n ++ w.imminent calls n = arrived.map (completion calls n) := by
  rw [tracks.log, Call.completions, if_pos notify]

end World

end Sdpf.Client
