import Sdpf.Uv.Handle
import Sdpf.Semantics.Machine

/-!
# IOTimer and IOSignal

The two classes differ in what a start stores and in what arrives: a timer has a timeout and
a repeat, and its task takes no argument; a signal has a number, which its task is given. The
rest of their code is the same. A step is one call of the user, which may be posted from
another thread or made inside a user callback, one call of libuv, which waits for the user
callbacks to return, or such a return.

The calls of `on_stop` that take effect are numbered. A number stands for the close callback
that was given.
-/

namespace Sdpf.Loop

open Sdpf.Semantics

/-- The state of an `IOTimerImp` or an `IOSignalImp`. -/
structure Watcher (Setting Arrival : Type) where
  active : Bool
  handle : Uv.Handle
  /-- `cb_` is set. -/
  cb : Bool
  setting : Option Setting
  /-- The stop whose callback `close_cb_` is. -/
  closeCb : Option Nat
  /-- User callbacks that have not returned. -/
  running : Nat
  /-- For each stop that took effect, whether it was given a callback. -/
  stops : List Bool
  /-- What `cb_` was called with. -/
  tasks : List Arrival
  /-- The stops whose callbacks were called. -/
  called : List Nat

/-- What happens to a watcher. -/
inductive Action (Setting Arrival : Type) where
  /-- `on_start`; `ret` is what `uv_timer_start` or `uv_signal_start` returns. -/
  | start (cb : Bool) (setting : Setting) (ret : Int)
  | stop (cb : Bool)
  | arrival (what : Arrival)
  | closed
  /-- A user callback returns. -/
  | ret
deriving DecidableEq, Repr

/-- What a timer stores, in milliseconds. -/
structure TimerSetting where
  timeout : Nat
  repeat_ : Nat
deriving DecidableEq, Repr

/-- `IOTimerImp`. -/
abbrev IOTimer := Watcher TimerSetting Unit

/-- `IOSignalImp`, which stores a number and is given one. -/
abbrev IOSignal := Watcher Int Int

namespace Watcher

variable {Setting Arrival : Type} {s next : Watcher Setting Arrival}

/-- `on_close`. -/
def onClose (s : Watcher Setting Arrival) : Watcher Setting Arrival :=
  match s.closeCb with
  | some stop => { s with called := s.called ++ [stop], running := s.running + 1 }
  | none => s

/-- `on_stop`. -/
def onStop (s : Watcher Setting Arrival) (cb : Bool) : Watcher Setting Arrival :=
  if s.active = false then
    s
  else
    let s :=
      { s with
        active := false
        closeCb := if cb then some s.stops.length else none
        stops := s.stops ++ [cb] }
    if s.handle.isClosing then s.onClose else { s with handle := s.handle.close }

/-- `on_start`. A handle that is initialised while closing is not used any further. -/
def onStart (s : Watcher Setting Arrival) (cb : Bool) (setting : Setting) (ret : Int) :
    Watcher Setting Arrival :=
  if s.active then
    s
  else
    let s :=
      { s with
        active := true
        cb := cb
        setting := some setting
        handle := s.handle.init }
    if s.handle.phase = .reused ∨ ret = 0 then s else s.onStop false

/-- `on_timer` and `on_signal`. -/
def onArrival (s : Watcher Setting Arrival) (what : Arrival) : Watcher Setting Arrival :=
  if s.cb then { s with tasks := s.tasks ++ [what], running := s.running + 1 } else s

/-- Take a step, if it is enabled. -/
def step (s : Watcher Setting Arrival) (action : Action Setting Arrival) :
    Option (Watcher Setting Arrival) :=
  if s.handle.phase = .reused then
    none
  else
    match action with
    | .start cb setting ret => some (s.onStart cb setting ret)
    | .stop cb => some (s.onStop cb)
    | .arrival what =>
        if s.running = 0 ∧ s.handle.phase = .opened then some (s.onArrival what) else none
    | .closed =>
        if s.running = 0 ∧ s.handle.phase = .closing then
          some { s with handle := s.handle.deliver }.onClose
        else
          none
    | .ret => if s.running = 0 then none else some { s with running := s.running - 1 }

/-- A watcher that has just been constructed. -/
def fresh : Watcher Setting Arrival where
  active := false
  handle := .fresh
  cb := false
  setting := none
  closeCb := none
  running := 0
  stops := []
  tasks := []
  called := []

/-- A start that takes effect finds that all its close callbacks have come. -/
def Settled (s : Watcher Setting Arrival) : Action Setting Arrival → Prop
  | .start .. => s.active = true ∨ s.handle.requested = s.handle.delivered
  | _ => True

instance (s : Watcher Setting Arrival) :
    (action : Action Setting Arrival) → Decidable (s.Settled action)
  | .start .. => inferInstanceAs (Decidable (_ ∨ _))
  | .stop _ | .arrival _ | .closed | .ret => inferInstanceAs (Decidable True)

/-- The callback given to a stop is called once, as soon as the close callback has come, and
so is no other. -/
def Answered (s : Watcher Setting Arrival) : Prop :=
  ∀ stop, s.called.count stop =
    if s.stops[stop]? = some true ∧ ¬ (s.handle.phase = .closing ∧ stop + 1 = s.stops.length)
    then 1 else 0

end Watcher

/-- The machine of a class of watchers. -/
def watcherMachine (Setting Arrival : Type) :
    Machine (Watcher Setting Arrival) (Action Setting Arrival) where
  Initial s := s = .fresh
  step := Watcher.step

/-- The machine of all timers. -/
abbrev timerMachine : Machine IOTimer (Action TimerSetting Unit) := watcherMachine _ _

/-- The machine of all signals. -/
abbrev signalMachine : Machine IOSignal (Action Int Int) := watcherMachine _ _

namespace Watcher

variable {Setting Arrival : Type} {s next : Watcher Setting Arrival}

/-- The close callback leaves the handle alone. -/
theorem onClose_handle : s.onClose.handle = s.handle := by
  unfold onClose
  cases s.closeCb <;> rfl

/-- `on_stop` does not initialise the handle. -/
theorem onStop_sound (sound : s.handle.phase ≠ .reused) (cb : Bool) :
    (s.onStop cb).handle.phase ≠ .reused := by
  unfold onStop
  by_cases down : s.active = false
  · rw [if_pos down]
    exact sound
  rw [if_neg down]
  simp only
  by_cases closing : s.handle.isClosing = true
  · rw [if_pos closing, onClose_handle]
    exact sound
  · rw [if_neg closing]
    exact Uv.Handle.close_sound sound

/-- `on_start` keeps the handle usable exactly if no close is under way. -/
theorem onStart_sound (sound : s.handle.phase ≠ .reused) (cb : Bool) (setting : Setting)
    (ret : Int) : (s.onStart cb setting ret).handle.phase ≠ .reused ↔
      s.active = true ∨ s.handle.requested = s.handle.delivered := by
  rw [← Uv.Handle.init_sound_iff sound]
  unfold onStart
  simp only
  split_ifs with up done
  · simp [up, sound]
  · simp [up]
  · have usable : s.handle.init.phase ≠ .reused := fun now => done (.inl now)
    exact iff_of_true (onStop_sound (s := { s with
      active := true
      cb := cb
      setting := some setting
      handle := s.handle.init }) usable false) (.inr usable)

/-- A step is taken on a handle in use, and keeps it so exactly when it is settled. -/
theorem step_sound {action : Action Setting Arrival} (taken : s.step action = some next) :
    s.handle.phase ≠ .reused ∧ (next.handle.phase ≠ .reused ↔ s.Settled action) := by
  unfold step at taken
  by_cases unusable : s.handle.phase = .reused
  · rw [if_pos unusable] at taken
    cases taken
  rw [if_neg unusable] at taken
  refine ⟨unusable, ?_⟩
  cases action with
  | start cb setting ret =>
      cases taken
      exact onStart_sound unusable cb setting ret
  | stop cb =>
      cases taken
      exact iff_of_true (onStop_sound unusable cb) trivial
  | arrival what =>
      simp only at taken
      split_ifs at taken with enabled
      cases taken
      refine iff_of_true ?_ trivial
      simp only [onArrival]
      split_ifs
      · exact unusable
      · exact unusable
  | closed =>
      simp only at taken
      split_ifs at taken with enabled
      cases taken
      refine iff_of_true ?_ trivial
      rw [onClose_handle]
      exact Uv.Handle.deliver_sound unusable
  | ret =>
      simp only at taken
      split_ifs at taken
      cases taken
      exact iff_of_true unusable trivial

/-- The stops are counted by the handle, and the callbacks by the closes. -/
structure Accounted (s : Watcher Setting Arrival) : Prop where
  sound : s.handle.phase ≠ .reused
  active : s.active = true ↔ s.handle.phase = .opened
  counted : s.handle.requested = s.stops.length
  stored : s.handle.phase = .closing →
    s.closeCb = if s.stops[s.handle.delivered]? = some true then some s.handle.delivered else none
  called : ∀ stop, s.called.count stop =
    if stop < s.handle.delivered ∧ s.stops[stop]? = some true then 1 else 0

/-- Where no close is under way, every one asked for has been delivered. -/
theorem Accounted.settled (accounted : s.Accounted) (other : s.handle.phase ≠ .closing) :
    s.handle.delivered = s.stops.length := by
  rw [← accounted.counted]
  exact (not_not.mp (mt (Uv.Handle.closing_iff accounted.sound).mpr other)).symm

/-- While a close is under way, one is due. -/
theorem Accounted.due (accounted : s.Accounted) (closing : s.handle.phase = .closing) :
    s.stops.length = s.handle.delivered + 1 := by
  rw [← accounted.counted, s.handle.accounted, if_pos (.inl closing)]

/-- `on_stop` records whom to call back. -/
theorem Accounted.onStop (accounted : s.Accounted) (cb : Bool) : (s.onStop cb).Accounted := by
  unfold Watcher.onStop
  by_cases down : s.active = false
  · rw [if_pos down]
    exact accounted
  have opened := accounted.active.mp (by simpa using down)
  have unclosed : s.handle.isClosing ≠ true := by simp [Uv.Handle.isClosing_iff, opened]
  rw [if_neg down, if_neg unclosed]
  have phase := Uv.Handle.close_opened opened
  have settled := accounted.settled (by simp [opened])
  have delivered : s.handle.close.delivered = s.stops.length := settled
  exact
    { sound := by simp [phase]
      active := by simp [phase]
      counted := by simp [Uv.Handle.close, opened, accounted.counted]
      stored := fun _ => by
        simp only [delivered, List.getElem?_concat_length]
        cases cb <;> rfl
      called := fun stop => by
        simp only [accounted.called stop, delivered, settled]
        by_cases earlier : stop < s.stops.length
        · rw [List.getElem?_append_left earlier]
        · simp [earlier] }

/-- `on_start` on a settled handle owes nobody. -/
theorem Accounted.onStart (accounted : s.Accounted) (cb : Bool) (setting : Setting) (ret : Int)
    (settled : s.active = true ∨ s.handle.requested = s.handle.delivered) :
    (s.onStart cb setting ret).Accounted := by
  have sound := (onStart_sound accounted.sound cb setting ret).mpr settled
  unfold Watcher.onStart at sound ⊢
  simp only at sound ⊢
  by_cases up : s.active = true
  · rw [if_pos up]
    exact accounted
  rw [if_neg up] at sound ⊢
  have clear : s.handle.phase ≠ .closing := fun closing =>
    (Uv.Handle.closing_iff accounted.sound).mp closing (settled.resolve_left up)
  have opened := Uv.Handle.init_opened accounted.sound clear
  have started : { s with
      active := true
      cb := cb
      setting := some setting
      handle := s.handle.init : Watcher Setting Arrival }.Accounted :=
    { sound := by simp [opened]
      active := by simp [opened]
      counted := accounted.counted
      stored := fun now => by simp [opened] at now
      called := accounted.called }
  split_ifs
  · exact started
  · exact started.onStop false

/-- The close callback calls back whom the stop recorded. -/
theorem Accounted.onClose (accounted : s.Accounted) (closing : s.handle.phase = .closing) :
    { s with handle := s.handle.deliver }.onClose.Accounted := by
  have phase := Uv.Handle.deliver_closing closing
  have delivered : s.handle.deliver.delivered = s.handle.delivered + 1 := if_pos closing
  have unset : s.active ≠ true := fun now => by simp [accounted.active.mp now] at closing
  have stored := accounted.stored closing
  have before := accounted.called
  -- the callback that is called is that of the last stop, if it was given one
  have called : ∀ stop, { s with handle := s.handle.deliver }.onClose.called.count stop =
      if stop < s.handle.delivered + 1 ∧ s.stops[stop]? = some true then 1 else 0 := by
    intro stop
    unfold Watcher.onClose
    simp only [stored]
    by_cases given : s.stops[s.handle.delivered]? = some true
    · rw [if_pos given]
      simp only [List.count_append, before, List.count_singleton]
      by_cases same : s.handle.delivered = stop
      · subst same
        simp [given]
      · have earlier : stop < s.handle.delivered + 1 ↔ stop < s.handle.delivered := by omega
        simp [same, earlier]
    · rw [if_neg given]
      simp only [before]
      by_cases same : s.handle.delivered = stop
      · subst same
        simp [given]
      · have earlier : stop < s.handle.delivered + 1 ↔ stop < s.handle.delivered := by omega
        simp [earlier]
  have rest : { s with handle := s.handle.deliver }.onClose.active = s.active ∧
      { s with handle := s.handle.deliver }.onClose.stops = s.stops := by
    unfold Watcher.onClose
    simp only [stored]
    split_ifs <;> exact ⟨rfl, rfl⟩
  exact
    { sound := by simp [onClose_handle, phase]
      active := by
        rw [rest.1, onClose_handle]
        simp [phase, unset]
      counted := by
        rw [onClose_handle, rest.2]
        exact accounted.counted
      stored := fun now => by simp [onClose_handle, phase] at now
      called := fun stop => by rw [called stop, onClose_handle, rest.2, delivered] }

/-- A settled step keeps the stops accounted for. -/
theorem Accounted.step {action : Action Setting Arrival} (accounted : s.Accounted)
    (settled : s.Settled action) (taken : s.step action = some next) : next.Accounted := by
  unfold Watcher.step at taken
  rw [if_neg accounted.sound] at taken
  cases action with
  | start cb setting ret =>
      cases taken
      exact accounted.onStart cb setting ret settled
  | stop cb =>
      cases taken
      exact accounted.onStop cb
  | arrival what =>
      simp only at taken
      split_ifs at taken with enabled
      cases taken
      simp only [onArrival]
      split_ifs
      · exact { accounted with }
      · exact accounted
  | closed =>
      simp only at taken
      split_ifs at taken with enabled
      cases taken
      exact accounted.onClose enabled.2
  | ret =>
      simp only at taken
      split_ifs at taken
      cases taken
      exact { accounted with }

/-- What is accounted for has been answered. -/
theorem Accounted.answered (accounted : s.Accounted) : s.Answered := by
  intro stop
  rw [accounted.called stop]
  by_cases given : s.stops[stop]? = some true
  · obtain ⟨early, _⟩ := List.getElem?_eq_some_iff.mp given
    by_cases closing : s.handle.phase = .closing
    · have due := accounted.due closing
      have last : stop < s.handle.delivered ↔ ¬ stop + 1 = s.stops.length := by omega
      simp [given, closing, last]
    · have settled := accounted.settled closing
      simp [closing, settled, early]
  · simp [given]

/-- A new watcher owes nobody. -/
theorem fresh_accounted : (fresh : Watcher Setting Arrival).Accounted := by
  constructor <;> simp [fresh, Uv.Handle.fresh]

/-- A watcher never has its handle initialised while closing, and all its stops are answered,
exactly when every start that takes effect finds it settled. -/
theorem kept_iff {start : Watcher Setting Arrival} {actions : List (Action Setting Arrival)}
    (initial : (watcherMachine Setting Arrival).Initial start)
    (runs : (watcherMachine Setting Arrival).Runs start actions s) :
    s.handle.phase ≠ .reused ∧ s.Answered ↔
      (watcherMachine Setting Arrival).Along Settled start actions := by
  have fresh : start.Accounted := by
    rw [show start = .fresh from initial]
    exact fresh_accounted
  have kept := runs.clear_iff (fun s => s.handle.phase = .reused)
    (fun taken => (step_sound taken).1) (fun taken => (step_sound taken).2) fresh.sound
  refine ⟨fun both => kept.mp both.1, fun settled => ⟨kept.mpr settled, ?_⟩⟩
  have accounted : s.Accounted :=
    runs.guarded Accounted (fun accounted settled taken => accounted.step settled taken) fresh
      settled
  exact accounted.answered

end Watcher

end Sdpf.Loop
