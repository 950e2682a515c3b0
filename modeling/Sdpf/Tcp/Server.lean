import Sdpf.Uv.Handle
import Sdpf.Semantics.Machine

/-!
# TcpServer

A server listens from its start to its stop. When the listening fails, `launch_cb_` is told,
and the server is stopped behind it. A step is one call of the user, who may be in a user
callback, one call of libuv, or the return of a user callback.
-/

namespace Sdpf.Tcp

open Sdpf.Semantics

/-- A user callback that has not returned. -/
inductive ServerFrame where
  | launched (ret : Int)
  /-- `alloc_cb_` or `accept_cb_` in `on_accept`. -/
  | accepting
  | closed
deriving DecidableEq, Repr

/-- The state of a `TcpServerImp`. -/
structure Server where
  started : Bool
  handle : Uv.Handle
  launchCb : Bool
  closeCb : Bool
  stack : List ServerFrame

/-- What happens to a server. -/
inductive ServerAction where
  /-- `on_start`; `ret` is the result of binding and listening. -/
  | start (ret : Int)
  | stop
  /-- The user sets or unsets callbacks. -/
  | callbacks (launchCb closeCb : Bool)
  | accept (status : Int)
  | closed
  /-- The callback on top of the stack returns. -/
  | ret
deriving DecidableEq, Repr

namespace Server

variable {s next : Server}

/-- `on_close`. -/
def onClose (s : Server) : Server :=
  if s.closeCb then { s with stack := .closed :: s.stack } else s

/-- `on_stop`. -/
def onStop (s : Server) : Server :=
  if s.started = false then
    s
  else if s.handle.isClosing then
    { s with started := false }.onClose
  else
    { s with started := false, handle := s.handle.close }

/-- The part of `on_start` behind `launch_cb_`. -/
def launched (s : Server) (ret : Int) : Server := if ret = 0 then s else s.onStop

/-- `on_start`. A handle that is initialised while closing is not used any further. -/
def onStart (s : Server) (ret : Int) : Server :=
  if s.started then
    s
  else
    let s := { s with started := true, handle := s.handle.init }
    if s.handle.phase = .reused then
      s
    else if s.launchCb then
      { s with stack := .launched ret :: s.stack }
    else
      s.launched ret

/-- `on_accept`. -/
def onAccept (s : Server) (status : Int) : Server :=
  if status < 0 then s else { s with stack := .accepting :: s.stack }

/-- Take a step, if it is enabled. -/
def step (s : Server) (action : ServerAction) : Option Server :=
  if s.handle.phase = .reused then
    none
  else
    match action with
    | .start ret => some (s.onStart ret)
    | .stop => some s.onStop
    | .callbacks launchCb closeCb => some { s with launchCb := launchCb, closeCb := closeCb }
    | .accept status =>
        if s.stack = [] ∧ s.handle.phase = .opened then some (s.onAccept status) else none
    | .closed =>
        if s.stack = [] ∧ s.handle.phase = .closing then
          some { s with handle := s.handle.deliver }.onClose
        else
          none
    | .ret =>
        match s.stack with
        | .launched ret :: rest => some ({ s with stack := rest }.launched ret)
        | _ :: rest => some { s with stack := rest }
        | [] => none

/-- A server that has just been constructed; callbacks may have been set. -/
structure Initial (s : Server) : Prop where
  started : s.started = false
  handle : s.handle = .fresh
  stack : s.stack = []

/-- A server without callbacks. -/
def fresh : Server where
  started := false
  handle := .fresh
  launchCb := false
  closeCb := false
  stack := []

/-- A new server is an initial one. -/
theorem fresh_initial : fresh.Initial := by
  constructor <;> rfl

/-- A start that takes effect finds that all its close callbacks have come. -/
def Settled (s : Server) : ServerAction → Prop
  | .start _ => s.started = true ∨ s.handle.requested = s.handle.delivered
  | _ => True

/-- The close callback leaves the handle alone. -/
theorem onClose_handle : s.onClose.handle = s.handle := by
  unfold onClose
  split_ifs <;> rfl

/-- `on_stop` does not initialise the handle. -/
theorem onStop_sound (sound : s.handle.phase ≠ .reused) : s.onStop.handle.phase ≠ .reused := by
  unfold onStop
  split_ifs
  · exact sound
  · rw [onClose_handle]
    exact sound
  · exact Uv.Handle.close_sound sound

/-- Nor does the rest of `on_start`, whatever bind and listen return. -/
theorem launched_sound (sound : s.handle.phase ≠ .reused) (ret : Int) :
    (s.launched ret).handle.phase ≠ .reused := by
  unfold launched
  split_ifs
  · exact sound
  · exact onStop_sound sound

/-- `on_start` keeps the handle usable exactly if no close is under way. -/
theorem onStart_sound (sound : s.handle.phase ≠ .reused) (ret : Int) :
    (s.onStart ret).handle.phase ≠ .reused ↔
      s.started = true ∨ s.handle.requested = s.handle.delivered := by
  rw [← Uv.Handle.init_sound_iff sound]
  unfold onStart
  simp only
  split_ifs with up reused told
  · simp [up, sound]
  · simp [up]
  · simp [up]
  · have started : { s with started := true, handle := s.handle.init }.handle.phase ≠ .reused :=
      reused
    exact iff_of_true (launched_sound started ret) (.inr reused)

/-- A step is taken on a handle in use, and keeps it so exactly when it is settled. -/
theorem step_sound {action : ServerAction} (taken : s.step action = some next) :
    s.handle.phase ≠ .reused ∧ (next.handle.phase ≠ .reused ↔ s.Settled action) := by
  unfold step at taken
  by_cases unusable : s.handle.phase = .reused
  · rw [if_pos unusable] at taken
    cases taken
  rw [if_neg unusable] at taken
  refine ⟨unusable, ?_⟩
  cases action with
  | start ret =>
      cases taken
      exact onStart_sound unusable ret
  | stop =>
      cases taken
      exact iff_of_true (onStop_sound unusable) trivial
  | callbacks launchCb closeCb =>
      cases taken
      exact iff_of_true unusable trivial
  | accept status =>
      simp only at taken
      split_ifs at taken with enabled
      cases taken
      refine iff_of_true ?_ trivial
      unfold onAccept
      split_ifs <;> exact unusable
  | closed =>
      simp only at taken
      split_ifs at taken with enabled
      cases taken
      refine iff_of_true ?_ trivial
      rw [onClose_handle]
      exact Uv.Handle.deliver_sound unusable
  | ret =>
      refine iff_of_true ?_ trivial
      have popped : ∀ rest, { s with stack := rest : Server }.handle.phase ≠ .reused :=
        fun _ => unusable
      cases stack : s.stack with
      | nil => simp [stack] at taken
      | cons frame rest =>
          simp only [stack] at taken
          cases frame with
          | launched ret =>
              cases taken
              exact launched_sound (popped rest) ret
          | accepting =>
              cases taken
              exact unusable
          | closed =>
              cases taken
              exact unusable

end Server

/-- The machine of all servers. -/
def serverMachine : Machine Server ServerAction where
  Initial := Server.Initial
  step := Server.step

namespace Server

variable {s : Server}

/-- A server never has its handle initialised while closing exactly when every start that takes
effect finds it settled. -/
theorem kept_iff {start : Server} {actions : List ServerAction} (initial : start.Initial)
    (runs : serverMachine.Runs start actions s) :
    s.handle.phase ≠ .reused ↔ serverMachine.Along Settled start actions := by
  have clear : start.handle.phase ≠ .reused := by simp [initial.handle, Uv.Handle.fresh]
  exact runs.clear_iff (fun s => s.handle.phase = .reused) (fun taken => (step_sound taken).1)
    (fun taken => (step_sound taken).2) clear

end Server

end Sdpf.Tcp
