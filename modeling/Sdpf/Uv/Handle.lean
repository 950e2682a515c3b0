import Mathlib.Data.Bool.Basic

/-!
# The life of a handle

A `uv_handle_t` is initialised, closed, and released by its close callback, which comes
later; then it may be initialised again. To initialise it before has no defined outcome.
A handle carries the number of calls of `uv_close` and of close callbacks, and the proof
that they differ exactly while it is closing.
-/

namespace Sdpf.Uv

/-- How far a handle has got. -/
inductive Phase where
  | fresh
  | opened
  /-- `uv_close` has been called and the close callback has not. -/
  | closing
  | closed
  /-- It was initialised while closing. -/
  | reused
deriving DecidableEq, Repr

/-- A handle and its account. -/
structure Handle where
  phase : Phase
  /-- Calls of `uv_close`. -/
  requested : Nat
  /-- Close callbacks. -/
  delivered : Nat
  accounted : requested = delivered + if phase = .closing ∨ phase = .reused then 1 else 0

namespace Handle

/-- Memory that has not been initialised. -/
def fresh : Handle := ⟨.fresh, 0, 0, rfl⟩

/-- `uv_tcp_init` and its like. -/
def init (handle : Handle) : Handle where
  phase := if handle.phase = .closing ∨ handle.phase = .reused then .reused else .opened
  requested := handle.requested
  delivered := handle.delivered
  accounted := by
    have accounted := handle.accounted
    split_ifs at accounted ⊢ <;> simp_all

/-- `uv_is_closing`, which stays true when the handle is closed. -/
def isClosing (handle : Handle) : Bool := handle.phase = .closing ∨ handle.phase = .closed

/-- `uv_close` on a handle that is open. -/
def close (handle : Handle) : Handle where
  phase := if handle.phase = .opened then .closing else handle.phase
  requested := if handle.phase = .opened then handle.requested + 1 else handle.requested
  delivered := handle.delivered
  accounted := by
    have accounted := handle.accounted
    split_ifs at accounted ⊢ <;> simp_all

/-- The close callback is due. -/
def deliver (handle : Handle) : Handle where
  phase := if handle.phase = .closing then .closed else handle.phase
  requested := handle.requested
  delivered := if handle.phase = .closing then handle.delivered + 1 else handle.delivered
  accounted := by
    have accounted := handle.accounted
    split_ifs at accounted ⊢ <;> simp_all

variable {handle : Handle}

/-- Unless it has been reused, a handle is closing exactly while a close callback is due. -/
theorem closing_iff (sound : handle.phase ≠ .reused) :
    handle.phase = .closing ↔ handle.requested ≠ handle.delivered := by
  have accounted := handle.accounted
  by_cases closing : handle.phase = .closing <;> simp_all

/-- Initialising a handle opens it, unless a close is under way. -/
theorem init_opened (sound : handle.phase ≠ .reused) (settled : handle.phase ≠ .closing) :
    handle.init.phase = .opened := by
  simp [init, sound, settled]

/-- Initialising a handle that is being closed reuses it. -/
theorem init_reused (closing : handle.phase = .closing) : handle.init.phase = .reused := by
  simp [init, closing]

/-- Closing an open handle is begun. -/
theorem close_opened (opened : handle.phase = .opened) : handle.close.phase = .closing := by
  simp [close, opened]

/-- The close callback closes the handle. -/
theorem deliver_closing (closing : handle.phase = .closing) : handle.deliver.phase = .closed := by
  simp [deliver, closing]

/-- `uv_is_closing` also holds of a handle that has been closed. -/
theorem isClosing_iff : handle.isClosing = true ↔ handle.phase = .closing ∨ handle.phase = .closed := by
  simp [isClosing]

/-- A handle is fit for use after it has been initialised exactly when no close callback was
due. -/
theorem init_sound_iff (sound : handle.phase ≠ .reused) :
    handle.init.phase ≠ .reused ↔ handle.requested = handle.delivered := by
  by_cases closing : handle.phase = .closing
  · have due := (closing_iff sound).mp closing
    simp [init_reused closing, due]
  · have settled : handle.requested = handle.delivered :=
      not_not.mp (mt (closing_iff sound).mpr closing)
    simp [init_opened sound closing, settled]

/-- Closing does not reuse a handle. -/
theorem close_sound (sound : handle.phase ≠ .reused) : handle.close.phase ≠ .reused := by
  simp only [close]
  split_ifs
  · decide
  · exact sound

/-- Nor does the close callback. -/
theorem deliver_sound (sound : handle.phase ≠ .reused) : handle.deliver.phase ≠ .reused := by
  simp only [deliver]
  split_ifs
  · decide
  · exact sound

end Handle

end Sdpf.Uv
