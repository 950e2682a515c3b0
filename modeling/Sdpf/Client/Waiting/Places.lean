import Sdpf.Client.Channel

/-!
# Places of a synchronous call

A synchronous call and the loop thread meet at two mutexes and a condition variable. The
places between the operations on these are one inductive for a call and one for the loop
thread, with what a thread owns there, and what it is about to do.
-/

namespace Sdpf.Client

variable {Id : Type}

/-- The threads: one for each call, and the loop thread. -/
inductive Party (Id : Type) where
  | caller (id : Id)
  | loop
deriving DecidableEq, Repr

/-- What ended a wait. -/
inductive Wakeup where
  | notified
  | spurious
  | timeout
deriving DecidableEq, Repr

/-- Where a call of `call_method` is. -/
inductive CallerPc where
  | idle
  /-- In front of `mutex_requests_`. -/
  | entering
  | inserting
  /-- In front of `ctrl->lock()`. -/
  | registered
  /-- In front of `send_packet`, with the controller locked. -/
  | locked
  /-- In front of `ctrl->wait()`. -/
  | sent
  /-- The send failed. -/
  | unsent
  /-- Asleep in `wait_for`, not notified. -/
  | sleeping
  /-- Awake, in front of the controller's mutex. -/
  | awake (wakeup : Wakeup)
  | resumed (wakeup : Wakeup)
  | returned
deriving DecidableEq, Repr

/-- The call owns its controller's mutex. -/
def CallerPc.holds : CallerPc → Bool
  | .locked | .sent | .unsent | .resumed _ => true
  | .idle | .entering | .inserting | .registered | .sleeping | .awake _ | .returned => false

/-- What completes a call. -/
inductive Settlement where
  | response (code : Int32) (body : List UInt8)
  | close
deriving DecidableEq, Repr

/-- What the loop thread does after a notification: it is back from `process_response`, or
goes on with the rest of the table in `on_close`. -/
inductive After (Id : Type) where
  | response (bnotify : Bool)
  | close (rest : List Id)
deriving DecidableEq, Repr

/-- Where the loop thread is. -/
inductive LoopPc (Id : Type) where
  | idle
  /-- In front of `mutex_requests_` in `remove_request`. -/
  | finding (id : Id) (code : Int32) (body : List UInt8)
  | removing (id : Id) (code : Int32) (body : List UInt8)
  /-- With the controller that was found, and whether its error code was not zero. -/
  | found (id : Id) (code : Int32) (body : List UInt8) (bnotify : Bool)
  /-- In front of `mutex_requests_` in `on_close`. -/
  | closing
  | clearing (rest : List Id)
  /-- In front of the controller's mutex in `notify`. -/
  | notifying (id : Id) (completion : Settlement) (after : After Id)
  | holding (id : Id) (completion : Settlement) (after : After Id)
  /-- In front of `notify_one`. -/
  | signalling (id : Id) (completion : Settlement) (after : After Id)
deriving DecidableEq, Repr

/-- The notification is one of `on_close`. -/
def After.closes : After Id → Bool
  | .response _ => false
  | .close _ => true

/-- What `on_close` still has to complete. -/
def After.rest : After Id → Option (List Id)
  | .response _ => none
  | .close rest => some rest

/-- The loop thread owns `mutex_requests_`. -/
def LoopPc.clears : LoopPc Id → Bool
  | .removing .. | .clearing _ => true
  | .notifying _ _ after | .holding _ _ after | .signalling _ _ after => after.closes
  | .idle | .finding .. | .found .. | .closing => false

/-- The controller whose mutex the loop thread owns. -/
def LoopPc.held : LoopPc Id → Option Id
  | .holding id _ _ => some id
  | _ => none

/-- The call has not put itself into the table. -/
def CallerPc.early : CallerPc → Bool
  | .idle | .entering | .inserting => true
  | .registered | .locked | .sent | .unsent | .sleeping | .awake _ | .resumed _ | .returned => false

/-- The call does not go to sleep any more. -/
def CallerPc.passed : CallerPc → Bool
  | .sleeping | .awake _ | .resumed _ | .unsent | .returned => true
  | .idle | .entering | .inserting | .registered | .locked | .sent => false

/-- The call whose completion the loop thread is at. -/
def LoopPc.completing : LoopPc Id → Option Id
  | .found id .. | .notifying id .. | .holding id .. | .signalling id .. => some id
  | _ => none

/-- The call an answer for which the loop thread processes. -/
def LoopPc.answering : LoopPc Id → Option Id
  | .finding id .. | .removing id .. | .found id .. => some id
  | .notifying id _ after | .holding id _ after | .signalling id _ after =>
      if after.closes = true then none else some id
  | .idle | .closing | .clearing _ => none

/-- The loop thread is inside `on_close`. -/
def LoopPc.closes : LoopPc Id → Bool
  | .closing | .clearing _ => true
  | .notifying _ _ after | .holding _ _ after | .signalling _ _ after => after.closes
  | .idle | .finding .. | .removing .. | .found .. => false

/-- The call whose controller the loop thread has locked, and not yet signalled. -/
def LoopPc.released : LoopPc Id → Option Id
  | .holding id .. | .signalling id .. => some id
  | _ => none

/-- The completion that is set, and not yet signalled. -/
def LoopPc.bringing : LoopPc Id → Option (Id × Settlement)
  | .notifying id completion _ | .holding id completion _ | .signalling id completion _ =>
      some (id, completion)
  | _ => none

/-- The loop thread will mark the controller once it has notified. -/
def After.marks : After Id → Bool
  | .response bnotify => bnotify
  | .close _ => false

/-- The notification under way will mark the controller. -/
def LoopPc.marks : LoopPc Id → Bool
  | .notifying _ _ after | .holding _ _ after | .signalling _ _ after => after.marks
  | _ => false

/-- The calls `on_close` still has to complete, where it is under way. -/
def LoopPc.rest : LoopPc Id → Option (List Id)
  | .clearing rest => some rest
  | .notifying _ _ after | .holding _ _ after | .signalling _ _ after => after.rest
  | _ => none

/-- What the plain steps of a call do to its place. -/
structure CallerPc.Moves (old new : CallerPc) : Prop where
  early : new.early = true → old.early = true
  entering : new ≠ .entering
  inserting : new = .inserting → old = .entering
  passed : old = .sent ∨ old.passed = true → new.passed = true
  sent : new ≠ .sent
  sleeping : new = .sleeping → old = .sent
  notified : new = .awake .notified ∨ new = .resumed .notified → old = .awake .notified

namespace CallerPc.Moves

/-- A failed send keeps the mutex. -/
theorem fails : Moves .locked .unsent := by
  constructor <;> simp [CallerPc.early, CallerPc.passed]

/-- Waking up without a notification takes no mutex. -/
theorem wakes {wakeup : Wakeup} (alone : wakeup ≠ .notified) : Moves .sleeping (.awake wakeup) := by
  constructor <;> simp [CallerPc.early, CallerPc.passed, alone]

/-- The table is entered under its own mutex. -/
theorem enters : Moves .entering .inserting := by
  constructor <;> simp [CallerPc.early, CallerPc.passed]

/-- `ctrl->lock()` takes the mutex. -/
theorem locks : Moves .registered .locked := by
  constructor <;> simp [CallerPc.early, CallerPc.passed]

/-- Falling asleep gives the mutex up. -/
theorem waits : Moves .sent .sleeping := by
  constructor <;> simp [CallerPc.early, CallerPc.passed]

/-- Whoever wakes up takes the mutex again. -/
theorem resumes {wakeup : Wakeup} : Moves (.awake wakeup) (.resumed wakeup) := by
  constructor <;> simp [CallerPc.early, CallerPc.passed]

/-- `ctrl->unlock()` after a failed send. -/
theorem gives : Moves .unsent .returned := by
  constructor <;> simp [CallerPc.early, CallerPc.passed]

/-- The return from `wait` gives the mutex up. -/
theorem leaves {wakeup : Wakeup} : Moves (.resumed wakeup) .returned := by
  constructor <;> simp [CallerPc.early, CallerPc.passed]

end CallerPc.Moves

namespace LoopPc

variable {loop : LoopPc Id} {id : Id}

/-- A call that has been released is being completed. -/
theorem completing_of_released (released : loop.released = some id) :
    loop.completing = some id := by
  cases loop <;> simp_all [LoopPc.released, LoopPc.completing]

/-- So is one that a completion is on its way to. -/
theorem completing_of_bringing {completion : Settlement}
    (bringing : loop.bringing = some (id, completion)) : loop.completing = some id := by
  cases loop <;> simp_all [LoopPc.bringing, LoopPc.completing]

/-- Only `on_close` has calls left to complete. -/
theorem rest_of_clears (idle : loop.clears = false) : loop.rest = none := by
  cases loop with
  | notifying _ _ after => cases after <;> simp_all [clears, rest, After.closes, After.rest]
  | holding _ _ after => cases after <;> simp_all [clears, rest, After.closes, After.rest]
  | signalling _ _ after => cases after <;> simp_all [clears, rest, After.closes, After.rest]
  | _ => simp_all [clears, rest]

end LoopPc

end Sdpf.Client
